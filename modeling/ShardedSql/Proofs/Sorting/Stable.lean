import ShardedSql.Cursor.Sorting

/-!
# Stable sorting

A stable sort is known by two properties: its result is sorted, and the elements that compare equal
to a given one are left in their order.  Both together fix the result, which is how the selections
and insertions of the merger are compared with `List.mergeSort`.

Main results:

- Theorem `eq_stableSort`: a sorted list with the same classes of equal elements is the stable sort.
- Theorem `stableSort_extract`: an element that no earlier element equals and that is least comes
  first, and the rest is sorted as before.
- Theorem `sortRising_eq_stableSort`: sorting by insertion is stable when no comparison fails.
-/

namespace ShardedSql

open Std

variable {α : Type}

/-- The stable sort by a comparison. -/
def stableSort (cmp : α → α → Ordering) (xs : List α) : List α :=
  xs.mergeSort fun a b => (cmp a b).isLE

/-- The elements that compare equal to a given one, in order. -/
def peers (cmp : α → α → Ordering) (x : α) (xs : List α) : List α :=
  xs.filter fun y => cmp x y == .eq

@[simp]
theorem peers_nil (cmp : α → α → Ordering) (x : α) : peers cmp x [] = [] := rfl

/-- The peers in two lists come one after the other. -/
theorem peers_append (cmp : α → α → Ordering) (x : α) (xs ys : List α) :
    peers cmp x (xs ++ ys) = peers cmp x xs ++ peers cmp x ys := by
  simp [peers]

theorem peers_cons (cmp : α → α → Ordering) (x y : α) (ys : List α) :
    peers cmp x (y :: ys) = if cmp x y = .eq then y :: peers cmp x ys else peers cmp x ys := by
  by_cases h : cmp x y = .eq <;> simp [peers, h]

/-- The peers of an element are those equal to it. -/
theorem mem_peers {cmp : α → α → Ordering} {x y : α} {xs : List α} :
    y ∈ peers cmp x xs ↔ y ∈ xs ∧ cmp x y = .eq := by
  simp [peers]

/-- Sorting keeps all elements and adds none. -/
theorem mem_stableSort {cmp : α → α → Ordering} {x : α} {xs : List α} :
    x ∈ stableSort cmp xs ↔ x ∈ xs :=
  List.mem_mergeSort

/-- Sorts by comparisons that agree on the elements of a list agree on the list. -/
theorem mergeSort_congr {le le' : α → α → Bool} {xs : List α}
    (h : ∀ a ∈ xs, ∀ b ∈ xs, le a b = le' a b) : xs.mergeSort le = xs.mergeSort le' := by
  have hmap := List.map_mergeSort (r := le) (s := le') (f := id) (l := xs) h
  simpa using hmap

/-- A sorted list is its own stable sort. -/
theorem stableSort_of_pairwise {cmp : α → α → Ordering} {xs : List α}
    (h : xs.Pairwise fun a b => (cmp a b).isLE) :
    stableSort cmp xs = xs :=
  List.mergeSort_of_pairwise h

section Preorder

variable {cmp : α → α → Ordering} [TransCmp cmp]

/-- Of two elements one is not greater than the other. -/
theorem isLE_of_not_isLE {a b : α} (h : ¬ (cmp a b).isLE) : (cmp b a).isLE := by
  have hswap : cmp b a = (cmp a b).swap := OrientedCmp.eq_swap
  rw [hswap]
  cases hab : cmp a b <;> simp_all

/-- A sorted list is in order. -/
theorem stableSort_pairwise (xs : List α) :
    (stableSort cmp xs).Pairwise fun a b => (cmp a b).isLE := by
  apply List.pairwise_mergeSort
  · intro a b c hab hbc
    exact TransCmp.isLE_trans hab hbc
  · intro a b
    by_cases h : (cmp a b).isLE
    · simp [h]
    · simp [isLE_of_not_isLE h]

/-- Equal elements keep their order. -/
theorem peers_stableSort (x : α) (xs : List α) :
    peers cmp x (stableSort cmp xs) = peers cmp x xs := by
  have hpeers : (peers cmp x xs).Pairwise fun a b => (cmp a b).isLE := by
    apply List.pairwise_of_forall_mem_list
    intro a ha b hb
    have hxa : cmp x a = .eq := (mem_peers.mp ha).2
    have hxb : cmp x b = .eq := (mem_peers.mp hb).2
    have hab : cmp a b = .eq := TransCmp.eq_trans (OrientedCmp.eq_symm hxa) hxb
    simp [hab]
  have hsub : (peers cmp x xs).Sublist (stableSort cmp xs) := by
    apply List.sublist_mergeSort
    · intro a b c hab hbc
      exact TransCmp.isLE_trans hab hbc
    · intro a b
      by_cases h : (cmp a b).isLE
      · simp [h]
      · simp [isLE_of_not_isLE h]
    · exact hpeers
    · exact List.filter_sublist
  have hfilter : (peers cmp x (peers cmp x xs)).Sublist (peers cmp x (stableSort cmp xs)) :=
    hsub.filter _
  have hidem : peers cmp x (peers cmp x xs) = peers cmp x xs := by
    simp [peers]
  rw [hidem] at hfilter
  have hlength : (peers cmp x (stableSort cmp xs)).length = (peers cmp x xs).length :=
    ((List.mergeSort_perm xs _).filter _).length_eq
  exact (hfilter.eq_of_length hlength.symm).symm

/-- Two sorted lists with the same classes of equal elements are the same. -/
theorem eq_of_peers {xs ys : List α} (hxs : xs.Pairwise fun a b => (cmp a b).isLE)
    (hys : ys.Pairwise fun a b => (cmp a b).isLE)
    (h : ∀ x, peers cmp x xs = peers cmp x ys) : xs = ys := by
  have hmem : ∀ {us vs : List α}, (∀ x, peers cmp x us = peers cmp x vs) →
      ∀ u ∈ us, u ∈ vs := by
    intro us vs huv u hu
    have hself : u ∈ peers cmp u us := mem_peers.mpr ⟨hu, ReflCmp.compare_self⟩
    rw [huv u] at hself
    exact (mem_peers.mp hself).1
  induction xs generalizing ys with
  | nil =>
      cases ys with
      | nil => rfl
      | cons y ys =>
          have hnot := hmem (fun x => (h x).symm) y List.mem_cons_self
          exact absurd hnot List.not_mem_nil
  | cons x xs ih =>
      cases ys with
      | nil =>
          have hnot := hmem h x List.mem_cons_self
          exact absurd hnot List.not_mem_nil
      | cons y ys =>
          rw [List.pairwise_cons] at hxs hys
          -- Each head is least in both lists, so the heads are peers, and the first of them.
          have hxy : (cmp x y).isLE := by
            rcases List.mem_cons.mp (hmem (fun z => (h z).symm) y List.mem_cons_self) with rfl | hy
            · exact ReflCmp.isLE_rfl
            · exact hxs.1 y hy
          have hyx : (cmp y x).isLE := by
            rcases List.mem_cons.mp (hmem h x List.mem_cons_self) with rfl | hx
            · exact ReflCmp.isLE_rfl
            · exact hys.1 x hx
          have heq : cmp x y = .eq := OrientedCmp.isLE_antisymm hxy hyx
          have hheads := h x
          rw [peers_cons, peers_cons, if_pos ReflCmp.compare_self, if_pos heq] at hheads
          have hhead : x = y := (List.cons.inj hheads).1
          subst hhead
          congr 1
          apply ih hxs.2 hys.2
          intro z
          have hz := h z
          rw [peers_cons, peers_cons] at hz
          by_cases hzx : cmp z x = .eq
          · simpa [hzx] using hz
          · simpa [hzx] using hz

/-- A sorted list whose classes of equal elements are those of another list is its stable sort. -/
theorem eq_stableSort {xs ys : List α} (hys : ys.Pairwise fun a b => (cmp a b).isLE)
    (h : ∀ x, peers cmp x ys = peers cmp x xs) : ys = stableSort cmp xs := by
  apply eq_of_peers hys (stableSort_pairwise xs)
  intro x
  rw [h x, peers_stableSort]

/-- Elements that are left out before sorting may as well be left out afterwards. -/
theorem filter_stableSort (p : α → Bool) (xs : List α) :
    (stableSort cmp xs).filter p = stableSort cmp (xs.filter p) := by
  apply eq_stableSort
  · exact (stableSort_pairwise xs).filter p
  · intro x
    have hcomm : ∀ ys : List α, peers cmp x (ys.filter p) = (peers cmp x ys).filter p := by
      intro ys
      simp only [peers, List.filter_filter, Bool.and_comm]
    rw [hcomm, hcomm, peers_stableSort]

/-- The first of the least elements comes first in the stable sort. -/
theorem stableSort_extract {before after : List α} {x : α}
    (hbefore : ∀ y ∈ before, cmp x y = .lt) (hafter : ∀ y ∈ after, (cmp x y).isLE) :
    stableSort cmp (before ++ x :: after) = x :: stableSort cmp (before ++ after) := by
  symm
  apply eq_stableSort
  · rw [List.pairwise_cons]
    refine ⟨?_, stableSort_pairwise _⟩
    intro y hy
    rw [mem_stableSort, List.mem_append] at hy
    rcases hy with hy | hy
    · simp [hbefore y hy]
    · exact hafter y hy
  · intro z
    rw [peers_cons, peers_stableSort, peers_append, peers_append, peers_cons]
    by_cases hz : cmp z x = .eq
    · have hnone : peers cmp z before = [] := by
        rw [List.eq_nil_iff_forall_not_mem]
        intro y hy
        have hzy : cmp z y = .eq := (mem_peers.mp hy).2
        have hxy : cmp x y = .eq := TransCmp.eq_trans (OrientedCmp.eq_symm hz) hzy
        rw [hbefore y (mem_peers.mp hy).1] at hxy
        cases hxy
      simp [hz, hnone]
    · simp [hz]

/-- The lesser of two elements comes first, also when it was second. -/
theorem stableSort_pair {x y : α} (h : cmp y x = .lt) : stableSort cmp [x, y] = [y, x] := by
  have hextract : stableSort cmp ([x] ++ y :: []) = y :: stableSort cmp ([x] ++ []) :=
    stableSort_extract (by simpa using h) (by simp)
  rw [List.append_nil, stableSort_of_pairwise (List.pairwise_singleton _ x)] at hextract
  exact hextract

/-! ## Insertion -/

/-- Insertion adds one element. -/
theorem insertFalling_perm {order : α → α → Except Fault Ordering} {x : α} {ys zs : List α}
    (h : insertFalling order x ys = .ok zs) : zs.Perm (x :: ys) := by
  induction ys generalizing zs with
  | nil =>
      cases h
      exact List.Perm.refl _
  | cons y ys ih =>
      rw [insertFalling] at h
      cases hxy : order x y with
      | error e =>
          rw [hxy] at h
          cases h
      | ok o =>
          rw [hxy] at h
          cases o with
          | lt =>
              cases hinsert : insertFalling order x ys with
              | error e => simp [hinsert, bind, Except.bind] at h
              | ok rest =>
                  simp only [hinsert, bind, Except.bind, pure, Except.pure, Except.ok.injEq] at h
                  rw [← h]
                  exact ((ih hinsert).cons y).trans (List.Perm.swap x y ys)
          | eq | gt =>
              cases h
              exact List.Perm.refl _

/-- Whatever the comparisons, the sorted elements are the given ones. -/
theorem sortRising_perm {order : α → α → Except Fault Ordering} {xs ys : List α}
    (h : sortRising order xs = .ok ys) : ys.Perm xs := by
  have hfold : ∀ (later sorted zs : List α),
      later.foldlM (fun sorted x => insertFalling order x sorted) sorted = .ok zs →
      zs.Perm (later ++ sorted) := by
    intro later
    induction later with
    | nil =>
        intro sorted zs hzs
        cases hzs
        exact List.Perm.refl _
    | cons x later ih =>
        intro sorted zs hzs
        rw [List.foldlM_cons] at hzs
        cases hinsert : insertFalling order x sorted with
        | error e => simp [hinsert, bind, Except.bind] at hzs
        | ok next =>
            simp only [hinsert, bind, Except.bind] at hzs
            have hnext := (ih next zs hzs).trans ((insertFalling_perm hinsert).append_left later)
            exact hnext.trans List.perm_middle
  unfold sortRising at h
  cases hzs : xs.foldlM (fun sorted x => insertFalling order x sorted) [] with
  | error e => simp [hzs, Except.map] at h
  | ok zs =>
      simp only [hzs, Except.map, Except.ok.injEq] at h
      rw [← h]
      have hperm := hfold xs [] zs hzs
      rw [List.append_nil] at hperm
      exact (List.reverse_perm zs).trans hperm

/-- A list in falling order, the least element last. -/
def Falling (cmp : α → α → Ordering) (xs : List α) : Prop :=
  xs.Pairwise fun a b => (cmp b a).isLE

/-- Insertion into a falling list puts the new element before its peers. -/
theorem insertFalling_spec {order : α → α → Except Fault Ordering} {x : α} {ys : List α}
    (horder : ∀ y ∈ ys, order x y = .ok (cmp x y)) (hys : Falling cmp ys) :
    ∃ zs, insertFalling order x ys = .ok zs ∧ Falling cmp zs ∧
      (∀ z, z ∈ zs ↔ z = x ∨ z ∈ ys) ∧ ∀ z, peers cmp z zs = peers cmp z (x :: ys) := by
  induction ys with
  | nil => exact ⟨[x], rfl, List.pairwise_singleton _ _, by simp, fun _ => rfl⟩
  | cons y ys ih =>
      have hcons := List.pairwise_cons.mp hys
      cases hxy : cmp x y with
      | lt =>
          rcases ih (fun z hz => horder z (List.mem_cons_of_mem _ hz)) hcons.2 with
            ⟨zs, hzs, hfalling, hmem, hpeers⟩
          refine ⟨y :: zs, ?_, ?_, ?_, ?_⟩
          · simp [insertFalling, horder y List.mem_cons_self, hxy, hzs, bind, Except.bind, pure,
              Except.pure]
          · refine List.pairwise_cons.mpr ⟨?_, hfalling⟩
            intro z hz
            rcases (hmem z).mp hz with rfl | hz
            · simp [hxy]
            · exact hcons.1 z hz
          · intro z
            rw [List.mem_cons, hmem z, List.mem_cons]
            exact or_left_comm
          · intro z
            rw [peers_cons, hpeers z, peers_cons, peers_cons, peers_cons]
            by_cases hzx : cmp z x = .eq
            · -- `x` lies strictly below `y`, so that no element is a peer of both.
              have hzy : cmp z y ≠ .eq := by
                intro hzy
                have := TransCmp.eq_trans (OrientedCmp.eq_symm hzx) hzy
                rw [hxy] at this
                cases this
              simp [hzx, hzy]
            · simp [hzx]
      | eq | gt =>
          have hyx : (cmp y x).isLE := by
            have hswap : cmp y x = (cmp x y).swap := OrientedCmp.eq_swap
            rw [hswap, hxy]
            rfl
          refine ⟨x :: y :: ys, ?_, ?_, by simp, fun _ => rfl⟩
          · simp [insertFalling, horder y List.mem_cons_self, hxy, bind, Except.bind, pure,
              Except.pure]
          · refine List.pairwise_cons.mpr ⟨?_, hys⟩
            intro z hz
            rcases List.mem_cons.mp hz with rfl | hz
            · exact hyx
            · exact TransCmp.isLE_trans (hcons.1 z hz) hyx

/-- Sorting by insertion is stable when no comparison fails. -/
theorem sortRising_eq_stableSort {order : α → α → Except Fault Ordering} {xs : List α}
    (horder : ∀ a ∈ xs, ∀ b ∈ xs, order a b = .ok (cmp a b)) :
    sortRising order xs = .ok (stableSort cmp xs) := by
  -- The list built so far is falling, and its classes of peers are those read so far, reversed.
  have hfold : ∀ (ys done sorted : List α), (∀ y ∈ ys, y ∈ xs) → (∀ z ∈ sorted, z ∈ xs) →
      Falling cmp sorted → (∀ z, peers cmp z sorted = (peers cmp z done).reverse) →
      ∃ zs, ys.foldlM (fun sorted x => insertFalling order x sorted) sorted = .ok zs ∧
        Falling cmp zs ∧ ∀ z, peers cmp z zs = (peers cmp z (done ++ ys)).reverse := by
    intro ys
    induction ys with
    | nil =>
        intro done sorted _ _ hfalling hpeers
        exact ⟨sorted, rfl, hfalling, by simpa using hpeers⟩
    | cons y ys ih =>
        intro done sorted hys hsorted hfalling hpeers
        rcases insertFalling_spec
          (fun z hz => horder y (hys y List.mem_cons_self) z (hsorted z hz)) hfalling with
          ⟨inserted, hinserted, hfalling', hmem, hpeers'⟩
        rcases ih (done ++ [y]) inserted (fun z hz => hys z (List.mem_cons_of_mem _ hz))
          (by
            intro z hz
            rcases (hmem z).mp hz with rfl | hz
            · exact hys z List.mem_cons_self
            · exact hsorted z hz) hfalling'
          (by
            intro z
            rw [hpeers' z, peers_cons, hpeers z, peers_append, peers_cons, peers_nil]
            by_cases hzy : cmp z y = .eq <;> simp [hzy]) with
          ⟨zs, hzs, hfallingzs, hpeerszs⟩
        refine ⟨zs, ?_, hfallingzs, ?_⟩
        · simp only [List.foldlM_cons, hinserted, bind, Except.bind]
          exact hzs
        · simpa using hpeerszs
  rcases hfold xs [] [] (fun _ h => h) (by simp) List.Pairwise.nil (by simp) with
    ⟨zs, hzs, hfalling, hpeers⟩
  have hreverse : zs.reverse = stableSort cmp xs := by
    apply eq_stableSort
    · exact List.pairwise_reverse.mpr hfalling
    · intro x
      have hx := hpeers x
      simp only [peers, List.filter_reverse, List.nil_append] at hx ⊢
      rw [hx, List.reverse_reverse]
  simp [sortRising, hzs, Except.map, hreverse]

end Preorder

end ShardedSql
