import ShardedSql.Proofs.Sorting.SortedInputs

/-!
# First elements of each key

Of several sorted lists the first element of each key is kept, and what is kept is sorted.  The
first elements of the outcome depend only on as many elements of each list, as long as no list has
a key twice: an element that a list cuts off comes after so many others of the list, each with
another key, that it cannot be among the first.

Main results:

- Theorem `LeastSplit.stableSort_firstOfEach`: the least head comes first, and its key is removed
  from all lists.
- Theorem `take_stableSort_firstOfEach`: the first elements depend only on as many of each list.
-/

namespace ShardedSql

open Std

variable {α κ : Type} {key : α → κ}

/-- A list in which no key comes twice. -/
def Distinct (key : α → κ) (xs : List α) : Prop :=
  xs.Pairwise fun a b => key a ≠ key b

/-- Elements with the same key are equal in the order. -/
def OrdersKeys (cmp : α → α → Ordering) (key : α → κ) (xs : List α) : Prop :=
  ∀ a ∈ xs, ∀ b ∈ xs, key a = key b → cmp a b = .eq

/-- An order of the keys of some elements is one of fewer keys. -/
theorem OrdersKeys.subset {cmp : α → α → Ordering} {xs ys : List α} (h : OrdersKeys cmp key xs)
    (hsub : ∀ y ∈ ys, y ∈ xs) : OrdersKeys cmp key ys :=
  fun a ha b hb => h a (hsub a ha) b (hsub b hb)

variable [DecidableEq κ]

/-- Whether an element has another key than a given one. -/
def hasOther (key : α → κ) (k : κ) (y : α) : Bool := decide (key y ≠ k)

@[simp]
theorem hasOther_iff {key : α → κ} {k : κ} {y : α} : hasOther key k y = true ↔ key y ≠ k :=
  decide_eq_true_iff

/-- The first element of each key, in order of appearance. -/
def firstOfEach (key : α → κ) : List α → List α
  | [] => []
  | x :: xs => x :: (firstOfEach key xs).filter (hasOther key (key x))

/-- The first of each key are some of the elements. -/
theorem firstOfEach_subset {xs : List α} : ∀ x ∈ firstOfEach key xs, x ∈ xs := by
  induction xs with
  | nil => simp [firstOfEach]
  | cons x xs ih =>
      intro y hy
      rcases List.mem_cons.mp hy with rfl | hy
      · exact List.mem_cons_self
      · exact List.mem_cons_of_mem _ (ih y (List.mem_filter.mp hy).1)

/-- A key that is removed beforehand may as well be removed afterwards. -/
theorem firstOfEach_filter (k : κ) (xs : List α) :
    firstOfEach key (xs.filter (hasOther key k)) =
      (firstOfEach key xs).filter (hasOther key k) := by
  induction xs with
  | nil => rfl
  | cons x xs ih =>
      rw [firstOfEach]
      by_cases hx : hasOther key k x = true
      · rw [List.filter_cons_of_pos hx, List.filter_cons_of_pos hx, firstOfEach, ih]
        simp only [List.filter_filter, Bool.and_comm]
      · rw [List.filter_cons_of_neg hx, List.filter_cons_of_neg hx, ih, List.filter_filter]
        -- The key is that of `x`, which is removed anyway.
        apply List.filter_congr
        intro y _
        have hsame : key x = k := by simpa [hasOther] using hx
        rw [hsame, Bool.and_self]

/-- The first element of each key that is new after some other elements. -/
def firstAfter (key : α → κ) (xs ys : List α) : List α :=
  (firstOfEach key ys).filter fun y => key y ∉ xs.map key

/-- What comes first after a list is new to it. -/
theorem mem_of_mem_firstAfter {xs ys : List α} {y : α} (h : y ∈ firstAfter key xs ys) :
    y ∈ ys ∧ key y ∉ xs.map key := by
  rcases List.mem_filter.mp h with ⟨hy, hnew⟩
  exact ⟨firstOfEach_subset y hy, of_decide_eq_true hnew⟩

/-- Later elements are kept if their keys are new. -/
theorem firstOfEach_append (xs ys : List α) :
    firstOfEach key (xs ++ ys) = firstOfEach key xs ++ firstAfter key xs ys := by
  unfold firstAfter
  induction xs with
  | nil => exact (List.filter_eq_self.mpr (by simp)).symm
  | cons x xs ih =>
      rw [List.cons_append, firstOfEach, firstOfEach, ih, List.filter_append, List.filter_filter,
        List.cons_append]
      congr 2
      apply List.filter_congr
      intro y _
      simp [hasOther]

/-- An element whose key is new is kept in its place. -/
theorem firstOfEach_middle {xs : List α} {x : α} (hnew : ∀ y ∈ xs, key y ≠ key x) (ys : List α) :
    firstOfEach key (xs ++ x :: ys) =
      firstOfEach key xs ++ x :: firstAfter key (xs ++ [x]) ys := by
  have hnot : key x ∉ xs.map key := by
    intro hmem
    rcases List.mem_map.mp hmem with ⟨y, hy, hkey⟩
    exact hnew y hy hkey
  have hself : firstAfter key xs [x] = [x] := List.filter_cons_of_pos (by simpa using hnot)
  rw [List.append_cons, firstOfEach_append, firstOfEach_append, hself,
    List.append_assoc, List.singleton_append]

/-- Without its key all other elements are kept. -/
theorem firstOfEach_middle_filter {xs : List α} {x : α} (hnew : ∀ y ∈ xs, key y ≠ key x)
    (ys : List α) :
    firstOfEach key ((xs ++ x :: ys).filter (hasOther key (key x))) =
      firstOfEach key xs ++ firstAfter key (xs ++ [x]) ys := by
  have hx : ¬ hasOther key (key x) x = true := by simp
  rw [firstOfEach_filter, firstOfEach_middle hnew, List.filter_append,
    List.filter_cons_of_neg hx]
  congr 1
  · rw [List.filter_eq_self]
    intro y hy
    exact hasOther_iff.mpr (hnew y (firstOfEach_subset y hy))
  · rw [List.filter_eq_self]
    intro y hy
    rw [hasOther_iff]
    intro hsame
    exact (mem_of_mem_firstAfter hy).2 (by simp [hsame])

/-! ## Sorted lists -/

/-- The elements of some lists whose keys differ from a given one. -/
def withoutKey (key : α → κ) (k : κ) (lists : List (List α)) : List (List α) :=
  lists.map (·.filter (hasOther key k))

variable {cmp : α → α → Ordering} [TransCmp cmp]

/-- The stable sort of the first elements of each key starts with the head that is chosen, whose key
is removed from all lists. -/
theorem LeastSplit.stableSort_firstOfEach {before after : List (List α)} {x : α} {rest : List α}
    (h : LeastSplit cmp before x rest after)
    (hsorted : SortedLists cmp (before ++ (x :: rest) :: after))
    (hkeys : OrdersKeys cmp key (before ++ (x :: rest) :: after).flatten) :
    stableSort cmp (firstOfEach key (before ++ (x :: rest) :: after).flatten) =
      x :: stableSort cmp
        (firstOfEach key (withoutKey key (key x) (before ++ (x :: rest) :: after)).flatten) := by
  have hflat : (before ++ (x :: rest) :: after).flatten =
      before.flatten ++ x :: (rest ++ after.flatten) := by
    simp
  rcases h.least hsorted with ⟨hbefore, hafter⟩
  have hnew : ∀ y ∈ before.flatten, key y ≠ key x := by
    intro y hy hsame
    have hequal := hkeys x (by simp) y (by simp [List.mem_flatten.mp hy]) hsame.symm
    rw [hbefore y hy] at hequal
    cases hequal
  rw [withoutKey, ← List.filter_flatten, hflat, firstOfEach_middle hnew,
    firstOfEach_middle_filter hnew]
  apply stableSort_extract
  · exact fun y hy => hbefore y (firstOfEach_subset y hy)
  · exact fun y hy => hafter y (mem_of_mem_firstAfter hy).1

/-- The first elements of a list without a key that it has at most once. -/
theorem Distinct.take_filter_isPrefix {xs : List α} (h : Distinct key xs) (k : κ) (n : Nat) :
    (xs.filter (hasOther key k)).take n <+: (xs.take (n + 1)).filter (hasOther key k) := by
  induction xs generalizing n with
  | nil => simp
  | cons x xs ih =>
      rcases List.pairwise_cons.mp h with ⟨hfirst, hrest⟩
      rw [List.take_succ_cons]
      by_cases hx : hasOther key k x = true
      · rw [List.filter_cons_of_pos hx, List.filter_cons_of_pos hx]
        cases n with
        | zero => simp
        | succ n =>
            rw [List.take_succ_cons, List.prefix_cons_inj]
            exact ih hrest n
      · have hsame : key x = k := by simpa [hasOther] using hx
        have hall : ∀ y ∈ xs, hasOther key k y = true := by
          intro y hy
          rw [hasOther_iff, ← hsame]
          exact (hfirst y hy).symm
        have htake : (xs.take n).filter (hasOther key k) = xs.take n :=
          List.filter_eq_self.mpr fun y hy => hall y (List.mem_of_mem_take hy)
        rw [List.filter_cons_of_neg hx, List.filter_cons_of_neg hx, List.filter_eq_self.mpr hall]
        exact ⟨[], by rw [List.append_nil, htake]⟩

/-- The elements of a beginning of a list and of the list whose keys differ from a given one. -/
def pairWithoutKey (key : α → κ) (k : κ) (p : List α × List α) : List α × List α :=
  (p.1.filter (hasOther key k), p.2.filter (hasOther key k))

/-- Taking a key out of pairs takes it out of their first parts. -/
theorem map_fst_pairWithoutKey (k : κ) (pairs : List (List α × List α)) :
    (pairs.map (pairWithoutKey key k)).map (·.1) = withoutKey key k (pairs.map (·.1)) := by
  rw [withoutKey, List.map_map, List.map_map]
  rfl

/-- It takes the key out of their second parts too. -/
theorem map_snd_pairWithoutKey (k : κ) (pairs : List (List α × List α)) :
    (pairs.map (pairWithoutKey key k)).map (·.2) = withoutKey key k (pairs.map (·.2)) := by
  rw [withoutKey, List.map_map, List.map_map]
  rfl

/-- A beginning of a list that has more than `n` of its elements has `n` of those that are left when
a key is removed. -/
theorem KeepsFirst.pairWithoutKey {n : Nat} {p : List α × List α} (h : KeepsFirst (n + 1) p)
    (hdistinct : Distinct key p.2) (k : κ) : KeepsFirst n (pairWithoutKey key k p) :=
  ⟨h.isPrefix.filter _, (hdistinct.take_filter_isPrefix k n).trans (h.take_isPrefix.filter _)⟩

variable (cmp) in
/-- The first `n` elements of the stable sort of the first elements of each key depend only on the
first `n` of each list, if the lists are sorted and none of them has a key twice. -/
theorem take_stableSort_firstOfEach (n : Nat) (pairs : List (List α × List α))
    (hsorted : SortedLists cmp (pairs.map (·.2)))
    (hdistinct : ∀ p ∈ pairs, Distinct key p.2)
    (hkeys : OrdersKeys cmp key (pairs.map (·.2)).flatten)
    (hkeeps : ∀ p ∈ pairs, KeepsFirst n p) :
    (stableSort cmp (firstOfEach key (pairs.map (·.1)).flatten)).take n =
      (stableSort cmp (firstOfEach key (pairs.map (·.2)).flatten)).take n := by
  -- One element is chosen at a time and its key removed, which each list has at most once.
  induction n generalizing pairs with
  | zero => simp
  | succ n ih =>
      rcases exists_leastSplit_pairs cmp hkeeps with
        hsame | ⟨before, x, cutRest, rest, after, hpairs, -, hcut, hwhole⟩
      · rw [hsame]
      · have hbegin : ∀ p ∈ pairs, p.1 <+: p.2 := fun p hp => (hkeeps p hp).isPrefix
        have hcuts : pairs.map (·.1) =
            before.map (·.1) ++ (x :: cutRest) :: after.map (·.1) := by
          rw [hpairs, List.map_append, List.map_cons]
        have hwholes : pairs.map (·.2) =
            before.map (·.2) ++ (x :: rest) :: after.map (·.2) := by
          rw [hpairs, List.map_append, List.map_cons]
        have hfirst := hcut.stableSort_firstOfEach (hcuts ▸ hsorted.of_prefix hbegin)
          (hcuts ▸ hkeys.subset (flatten_subset_of_isPrefix hbegin))
        have hsecond := hwhole.stableSort_firstOfEach (hwholes ▸ hsorted) (hwholes ▸ hkeys)
        rw [← hcuts] at hfirst
        rw [← hwholes] at hsecond
        rw [hfirst, hsecond, List.take_succ_cons, List.take_succ_cons]
        congr 1
        rw [← map_fst_pairWithoutKey, ← map_snd_pairWithoutKey]
        apply ih
        · rw [map_snd_pairWithoutKey]
          intro l hl
          rcases List.mem_map.mp hl with ⟨l', hl', rfl⟩
          exact (hsorted l' hl').filter _
        · intro p hp
          rcases List.mem_map.mp hp with ⟨p', hp', rfl⟩
          exact (hdistinct p' hp').filter _
        · rw [map_snd_pairWithoutKey, withoutKey, ← List.filter_flatten]
          exact hkeys.subset fun y hy => (List.mem_filter.mp hy).1
        · intro p hp
          rcases List.mem_map.mp hp with ⟨p', hp', rfl⟩
          exact (hkeeps p' hp').pairWithoutKey (hdistinct p' hp') (key x)

end ShardedSql
