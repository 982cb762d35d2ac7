import ShardedSql.Proofs.Sorting.Stable

/-!
# Sorted inputs

Several sorted lists are merged by taking the least of their heads, again and again; among equal
heads that of the first list is taken.  One such choice splits the lists, and the stable sort of
all elements begins with the head that was chosen.

Main results:

- Theorem `LeastSplit.stableSort_flatten`: the stable sort of sorted lists starts with the head
  that a choice takes, and continues with the stable sort of what it leaves.
- Theorem `head?_stableSort`: the stable sort of one list starts with the first of its least
  elements.
- Theorem `take_stableSort_flatten`: the first elements of the stable sort depend only on as many
  elements of each list.
-/

namespace ShardedSql

open Std

variable {α : Type}

/-- Sorted lists split at the first of those whose head is least. -/
structure LeastSplit (cmp : α → α → Ordering) (before : List (List α)) (x : α) (rest : List α)
    (after : List (List α)) : Prop where
  before_lt : ∀ l ∈ before, ∀ y ∈ l.head?, cmp x y = .lt
  after_le : ∀ l ∈ after, ∀ y ∈ l.head?, (cmp x y).isLE

/-- The lists are sorted, each by itself. -/
def SortedLists (cmp : α → α → Ordering) (lists : List (List α)) : Prop :=
  ∀ l ∈ lists, l.Pairwise fun a b => (cmp a b).isLE

/-! ## Beginnings of sorted lists -/

variable {cmp : α → α → Ordering}

/-- The head of a nonempty beginning of a list is that of the list. -/
theorem mem_head?_of_isPrefix {l l' : List α} (h : l <+: l') {y : α} (hy : y ∈ l.head?) :
    y ∈ l'.head? := by
  rcases h with ⟨t, rfl⟩
  cases l with
  | nil => cases hy
  | cons z l => exact hy

/-- Beginnings of sorted lists are sorted. -/
theorem SortedLists.of_prefix {pairs : List (List α × List α)}
    (h : SortedLists cmp (pairs.map (·.2))) (hbegin : ∀ p ∈ pairs, p.1 <+: p.2) :
    SortedLists cmp (pairs.map (·.1)) := by
  intro l hl
  rcases List.mem_map.mp hl with ⟨p, hp, rfl⟩
  exact (h p.2 (List.mem_map_of_mem hp)).sublist (hbegin p hp).sublist

/-- Beginnings of empty lists are the lists themselves. -/
theorem map_fst_eq_map_snd_of_empty {pairs : List (List α × List α)}
    (hempty : ∀ l ∈ pairs.map (·.2), l = []) (hbegin : ∀ p ∈ pairs, p.1 <+: p.2) :
    pairs.map (·.1) = pairs.map (·.2) := by
  apply List.map_congr_left
  intro p hp
  have hnil := hempty p.2 (List.mem_map_of_mem hp)
  rw [hnil]
  exact List.prefix_nil.mp (hnil ▸ hbegin p hp)

/-- Beginnings of lists hold elements of the lists only. -/
theorem flatten_subset_of_isPrefix {pairs : List (List α × List α)}
    (hbegin : ∀ p ∈ pairs, p.1 <+: p.2) :
    ∀ y ∈ (pairs.map (·.1)).flatten, y ∈ (pairs.map (·.2)).flatten := by
  intro y hy
  rcases List.mem_flatten.mp hy with ⟨l, hl, hyl⟩
  rcases List.mem_map.mp hl with ⟨p, hp, rfl⟩
  exact List.mem_flatten.mpr ⟨p.2, List.mem_map_of_mem hp, (hbegin p hp).subset hyl⟩

/-- Taking the head of one list keeps the lists sorted. -/
theorem SortedLists.tail {before after : List (List α)} {x : α} {rest : List α}
    (h : SortedLists cmp (before ++ (x :: rest) :: after)) :
    SortedLists cmp (before ++ rest :: after) := by
  intro l hl
  rcases List.mem_append.mp hl with hl | hl
  · exact h l (by simp [hl])
  · rcases List.mem_cons.mp hl with rfl | hl
    · exact (List.pairwise_cons.mp (h (x :: l) (by simp))).2
    · exact h l (by simp [hl])

/-- Beginnings split where the lists do, as long as the least head is there. -/
theorem LeastSplit.of_prefix {before after : List (List α × List α)} {x : α} {rest : List α}
    (h : LeastSplit cmp (before.map (·.2)) x rest (after.map (·.2)))
    (hbefore : ∀ p ∈ before, p.1 <+: p.2) (hafter : ∀ p ∈ after, p.1 <+: p.2) (rest' : List α) :
    LeastSplit cmp (before.map (·.1)) x rest' (after.map (·.1)) := by
  refine ⟨?_, ?_⟩
  · intro l hl y hy
    rcases List.mem_map.mp hl with ⟨p, hp, rfl⟩
    exact h.before_lt p.2 (List.mem_map_of_mem hp) y (mem_head?_of_isPrefix (hbefore p hp) hy)
  · intro l hl y hy
    rcases List.mem_map.mp hl with ⟨p, hp, rfl⟩
    exact h.after_le p.2 (List.mem_map_of_mem hp) y (mem_head?_of_isPrefix (hafter p hp) hy)

/-- A beginning of a list that has at least `n` of its elements, and the list. -/
structure KeepsFirst (n : Nat) (p : List α × List α) : Prop where
  isPrefix : p.1 <+: p.2
  take_isPrefix : p.2.take n <+: p.1

/-- A list that keeps more elements keeps fewer of them. -/
theorem KeepsFirst.of_succ {n : Nat} {p : List α × List α} (h : KeepsFirst (n + 1) p) :
    KeepsFirst n p :=
  ⟨h.isPrefix, (List.take_prefix_take_left (Nat.le_succ n)).trans h.take_isPrefix⟩

/-- A beginning with at least one element starts as the list does. -/
theorem KeepsFirst.exists_cons {n : Nat} {cut rest : List α} {x : α}
    (h : KeepsFirst (n + 1) (cut, x :: rest)) :
    ∃ cutRest, cut = x :: cutRest ∧ KeepsFirst n (cutRest, rest) := by
  rcases h with ⟨hcut, htake⟩
  rw [List.take_succ_cons] at htake
  rcases htake with ⟨t, rfl⟩
  exact ⟨rest.take n ++ t, rfl, by simpa using hcut, List.prefix_append _ _⟩

/-! ## Choosing the least head -/

section Preorder

variable [TransCmp cmp]

/-- The head that is chosen is less than everything in earlier lists, and least of the rest. -/
theorem LeastSplit.least {before after : List (List α)} {x : α} {rest : List α}
    (h : LeastSplit cmp before x rest after)
    (hsorted : SortedLists cmp (before ++ (x :: rest) :: after)) :
    (∀ y ∈ before.flatten, cmp x y = .lt) ∧ ∀ y ∈ rest ++ after.flatten, (cmp x y).isLE := by
  refine ⟨?_, ?_⟩
  · intro y hy
    rcases List.mem_flatten.mp hy with ⟨l, hl, hyl⟩
    have hpairwise := hsorted l (by simp [hl])
    cases l with
    | nil => cases hyl
    | cons z l =>
        have hxz := h.before_lt _ hl z rfl
        rcases List.mem_cons.mp hyl with rfl | hyl
        · exact hxz
        · exact TransCmp.lt_of_lt_of_isLE hxz ((List.pairwise_cons.mp hpairwise).1 y hyl)
  · intro y hy
    rcases List.mem_append.mp hy with hy | hy
    · exact (List.pairwise_cons.mp (hsorted (x :: rest) (by simp))).1 y hy
    · rcases List.mem_flatten.mp hy with ⟨l, hl, hyl⟩
      have hpairwise := hsorted l (by simp [hl])
      cases l with
      | nil => cases hyl
      | cons z l =>
          have hxz := h.after_le _ hl z rfl
          rcases List.mem_cons.mp hyl with rfl | hyl
          · exact hxz
          · exact TransCmp.isLE_trans hxz ((List.pairwise_cons.mp hpairwise).1 y hyl)

/-- The stable sort of sorted lists starts with the head that is chosen. -/
theorem LeastSplit.stableSort_flatten {before after : List (List α)} {x : α} {rest : List α}
    (h : LeastSplit cmp before x rest after)
    (hsorted : SortedLists cmp (before ++ (x :: rest) :: after)) :
    stableSort cmp (before ++ (x :: rest) :: after).flatten =
      x :: stableSort cmp (before ++ rest :: after).flatten := by
  have hflat : (before ++ (x :: rest) :: after).flatten =
      before.flatten ++ x :: (rest ++ after.flatten) := by
    simp
  rcases h.least hsorted with ⟨hbefore, hafter⟩
  rw [hflat, stableSort_extract hbefore hafter]
  simp

variable (cmp) in
/-- Unless all lists are empty, one of them has the least head. -/
theorem exists_leastSplit (lists : List (List α)) :
    (∀ l ∈ lists, l = []) ∨ ∃ before x rest after,
      lists = before ++ (x :: rest) :: after ∧ LeastSplit cmp before x rest after := by
  induction lists with
  | nil => exact .inl (by simp)
  | cons l lists ih =>
      cases l with
      | nil =>
          rcases ih with hempty | ⟨before, x, rest, after, rfl, hsplit⟩
          · exact .inl (by simpa using hempty)
          · refine .inr ⟨[] :: before, x, rest, after, rfl, ?_, hsplit.after_le⟩
            intro l hl
            rcases List.mem_cons.mp hl with rfl | hl
            · simp
            · exact hsplit.before_lt l hl
      | cons y ys =>
          rcases ih with hempty | ⟨before, x, rest, after, rfl, hsplit⟩
          · refine .inr ⟨[], y, ys, lists, rfl, by simp, ?_⟩
            intro l hl z hz
            rw [hempty l hl] at hz
            cases hz
          · by_cases hxy : cmp x y = .lt
            · refine .inr ⟨(y :: ys) :: before, x, rest, after, rfl, ?_, hsplit.after_le⟩
              intro l hl z hz
              rcases List.mem_cons.mp hl with rfl | hl
              · rw [List.head?_cons, Option.mem_some_iff] at hz
                exact hz ▸ hxy
              · exact hsplit.before_lt l hl z hz
            · have hyx : (cmp y x).isLE := by
                have hswap : cmp y x = (cmp x y).swap := OrientedCmp.eq_swap
                rw [hswap]
                cases h : cmp x y <;> simp_all
              refine .inr ⟨[], y, ys, _, rfl, by simp, ?_⟩
              intro l hl z hz
              rcases List.mem_append.mp hl with hl | hl
              · have hxz := hsplit.before_lt l hl z hz
                exact TransCmp.isLE_trans hyx (by simp [hxz])
              · rcases List.mem_cons.mp hl with rfl | hl
                · rw [List.head?_cons, Option.mem_some_iff] at hz
                  exact hz ▸ hyx
                · exact TransCmp.isLE_trans hyx (hsplit.after_le l hl z hz)

/-- The first of the least elements is the head of the stable sort. -/
theorem head?_stableSort {xs : List α} {x : α} :
    (stableSort cmp xs).head? = some x ↔
      ∃ before after, xs = before ++ x :: after ∧ (∀ y ∈ before, cmp x y = .lt) ∧
        ∀ y ∈ after, (cmp x y).isLE := by
  constructor
  · intro hhead
    rcases exists_leastSplit cmp (xs.map fun y => [y]) with
      hempty | ⟨lists, y, rest, lists', hlists, hsplit⟩
    · cases xs with
      | nil =>
          have hnil : stableSort cmp ([] : List α) = [] := stableSort_of_pairwise List.Pairwise.nil
          rw [hnil] at hhead
          cases hhead
      | cons y ys => exact absurd (hempty [y] (by simp)) (List.cons_ne_nil y [])
    · rcases List.map_eq_append_iff.mp hlists with ⟨before, xs', rfl, rfl, hlater⟩
      rcases List.map_eq_cons_iff.mp hlater with ⟨z, after, rfl, hz, rfl⟩
      cases hz
      have hbefore : ∀ a ∈ before, cmp y a = .lt :=
        fun a ha => hsplit.before_lt [a] (List.mem_map_of_mem ha) a rfl
      have hafter : ∀ a ∈ after, (cmp y a).isLE :=
        fun a ha => hsplit.after_le [a] (List.mem_map_of_mem ha) a rfl
      rw [stableSort_extract hbefore hafter] at hhead
      cases hhead
      exact ⟨before, after, rfl, hbefore, hafter⟩
  · rintro ⟨before, after, rfl, hbefore, hafter⟩
    rw [stableSort_extract hbefore hafter]
    rfl

variable (cmp) in
/-- Unless nothing is cut off, sorted lists and beginnings of them have the same least head. -/
theorem exists_leastSplit_pairs {n : Nat} {pairs : List (List α × List α)}
    (hkeeps : ∀ p ∈ pairs, KeepsFirst (n + 1) p) :
    pairs.map (·.1) = pairs.map (·.2) ∨ ∃ before x cutRest rest after,
      pairs = before ++ (x :: cutRest, x :: rest) :: after ∧ KeepsFirst n (cutRest, rest) ∧
      LeastSplit cmp (before.map (·.1)) x cutRest (after.map (·.1)) ∧
      LeastSplit cmp (before.map (·.2)) x rest (after.map (·.2)) := by
  have hbegin : ∀ p ∈ pairs, p.1 <+: p.2 := fun p hp => (hkeeps p hp).isPrefix
  rcases exists_leastSplit cmp (pairs.map (·.2)) with
    hempty | ⟨before, x, rest, after, hlists, hsplit⟩
  · exact .inl (map_fst_eq_map_snd_of_empty hempty hbegin)
  · rcases List.map_eq_append_iff.mp hlists with ⟨pb, prest, rfl, rfl, hprest⟩
    rcases List.map_eq_cons_iff.mp hprest with ⟨⟨cut, whole⟩, pa, rfl, hwhole, rfl⟩
    have hwhole : whole = x :: rest := hwhole
    subst hwhole
    rcases (hkeeps (cut, x :: rest) (by simp)).exists_cons with ⟨cutRest, rfl, hrest⟩
    exact .inr ⟨pb, x, cutRest, rest, pa, rfl, hrest,
      hsplit.of_prefix (fun p hp => hbegin p (by simp [hp])) (fun p hp => hbegin p (by simp [hp]))
        cutRest, hsplit⟩

variable (cmp) in
/-- The first `n` elements of the stable sort of sorted lists depend only on the first `n` of each
list. -/
theorem take_stableSort_flatten (n : Nat) (pairs : List (List α × List α))
    (hsorted : SortedLists cmp (pairs.map (·.2))) (hkeeps : ∀ p ∈ pairs, KeepsFirst n p) :
    (stableSort cmp (pairs.map (·.1)).flatten).take n =
      (stableSort cmp (pairs.map (·.2)).flatten).take n := by
  -- One element is chosen at a time; it leaves `n` elements of its list and `n + 1` of the others.
  induction n generalizing pairs with
  | zero => simp
  | succ n ih =>
      rcases exists_leastSplit_pairs cmp hkeeps with
        hsame | ⟨before, x, cutRest, rest, after, rfl, hrest, hcut, hwhole⟩
      · rw [hsame]
      · have hsorted' := hsorted.of_prefix fun p hp => (hkeeps p hp).isPrefix
        rw [List.map_append, List.map_cons] at hsorted hsorted'
        have hlater : ∀ p ∈ before ++ (cutRest, rest) :: after, KeepsFirst n p := by
          intro p hp
          rcases List.mem_append.mp hp with hp | hp
          · exact (hkeeps p (by simp [hp])).of_succ
          · rcases List.mem_cons.mp hp with rfl | hp
            · exact hrest
            · exact (hkeeps p (by simp [hp])).of_succ
        have hstep := ih (before ++ (cutRest, rest) :: after) (by simpa using hsorted.tail) hlater
        rw [List.map_append, List.map_cons, List.map_append, List.map_cons,
          hcut.stableSort_flatten hsorted', hwhole.stableSort_flatten hsorted,
          List.take_succ_cons, List.take_succ_cons]
        congr 1
        simpa using hstep

end Preorder

end ShardedSql
