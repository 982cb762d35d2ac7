import ShardedSql.Route.Unit

/-!
# Elements kept once

`distinctly` keeps the first of equal elements.  It leaves the elements of a list as a set, the
first element with a property, and the order of first appearance.

Main results:

- Theorems `mem_distinctly` and `nodup_distinctly`: the same elements, each once.
- Theorem `find?_distinctly`: the first element with a property stays the first.
- Theorems `distinctly_cons` and `distinctly_concat`: the first element comes first, and one more
  comes last if it is new.
- Theorem `distinctly_flatMap`: of blocks of equal elements one element each is kept.
-/

namespace ShardedSql

variable {α : Type} [DecidableEq α]

/-- One step of `distinctly`. -/
theorem mem_keep {kept : List α} {x y : α} :
    y ∈ (if x ∈ kept then kept else kept ++ [x]) ↔ y ∈ kept ∨ y = x := by
  by_cases h : x ∈ kept
  · rw [if_pos h]
    exact ⟨.inl, fun hy => hy.elim id fun he => he ▸ h⟩
  · rw [if_neg h]
    simp

/-- Keeping an element unless it is there makes no duplicate. -/
theorem nodup_keep {kept : List α} {x : α} (h : kept.Nodup) :
    (if x ∈ kept then kept else kept ++ [x]).Nodup := by
  by_cases hx : x ∈ kept
  · rw [if_pos hx]
    exact h
  · rw [if_neg hx, List.nodup_append]
    refine ⟨h, List.pairwise_singleton _ x, ?_⟩
    intro a ha b hb
    rw [List.mem_singleton.mp hb]
    exact fun he => hx (he ▸ ha)

/-- What is kept of a list, beside what has been kept before, is all of it, without duplicates. -/
theorem foldl_keep (xs kept : List α) :
    (∀ y, y ∈ xs.foldl (fun kept x => if x ∈ kept then kept else kept ++ [x]) kept ↔
      y ∈ kept ∨ y ∈ xs) ∧
    (kept.Nodup →
      (xs.foldl (fun kept x => if x ∈ kept then kept else kept ++ [x]) kept).Nodup) := by
  induction xs generalizing kept with
  | nil => simp
  | cons x xs ih =>
      rcases ih (if x ∈ kept then kept else kept ++ [x]) with ⟨hmem, hnodup⟩
      refine ⟨?_, fun h => hnodup (nodup_keep h)⟩
      intro y
      rw [List.foldl_cons, hmem, mem_keep, List.mem_cons, or_assoc]

/-- No element gets lost. -/
theorem mem_distinctly {x : α} {xs : List α} : x ∈ distinctly xs ↔ x ∈ xs := by
  have h := (foldl_keep xs []).1 x
  simpa [distinctly] using h

/-- No element is left twice. -/
theorem nodup_distinctly (xs : List α) : (distinctly xs).Nodup :=
  (foldl_keep xs []).2 List.nodup_nil

theorem distinctly_eq_nil {xs : List α} : distinctly xs = [] ↔ xs = [] := by
  rw [List.eq_nil_iff_forall_not_mem, List.eq_nil_iff_forall_not_mem]
  simp only [mem_distinctly]

/-- The first element with a property stays the first. -/
theorem find?_distinctly (p : α → Bool) (xs : List α) :
    (distinctly xs).find? p = xs.find? p := by
  have hfold : ∀ (ys kept : List α),
      (ys.foldl (fun kept x => if x ∈ kept then kept else kept ++ [x]) kept).find? p =
        (kept ++ ys).find? p := by
    intro ys
    induction ys with
    | nil => intro kept; simp
    | cons y ys ih =>
        intro kept
        rw [List.foldl_cons, ih]
        by_cases h : y ∈ kept
        · -- `y` has been kept before, so that it is not the first element found.
          rw [if_pos h, List.find?_append, List.find?_append, List.find?_cons]
          cases hkept : kept.find? p with
          | some z => rfl
          | none =>
              have hy : p y = false := by
                have := List.find?_eq_none.mp hkept y h
                simpa using this
              simp [hy]
        · rw [if_neg h, List.append_assoc, List.singleton_append]
  exact hfold xs []

/-- One more element comes last if it is new. -/
theorem distinctly_concat (xs : List α) (x : α) :
    distinctly (xs ++ [x]) = if x ∈ xs then distinctly xs else distinctly xs ++ [x] := by
  have hstep : distinctly (xs ++ [x]) =
      if x ∈ distinctly xs then distinctly xs else distinctly xs ++ [x] := by
    unfold distinctly
    rw [List.foldl_append]
    rfl
  rw [hstep]
  simp only [mem_distinctly]

/-- The first element comes first and does not come again. -/
theorem distinctly_cons (x : α) (xs : List α) :
    distinctly (x :: xs) = x :: (distinctly xs).filter (· ≠ x) := by
  have hfold : ∀ (ys kept : List α),
      ys.foldl (fun kept y => if y ∈ kept then kept else kept ++ [y]) (x :: kept.filter (· ≠ x)) =
        x :: (ys.foldl (fun kept y => if y ∈ kept then kept else kept ++ [y]) kept).filter
          (· ≠ x) := by
    intro ys
    induction ys with
    | nil => intro kept; rfl
    | cons y ys ih =>
        intro kept
        rw [List.foldl_cons, List.foldl_cons, ← ih]
        congr 1
        by_cases hyx : y = x
        · subst hyx
          by_cases hy : y ∈ kept <;> simp [hy]
        · by_cases hy : y ∈ kept <;> simp [hy, hyx]
  exact hfold xs []

/-- Images under an injective function are equal when the elements are. -/
theorem distinctly_map {β : Type} [DecidableEq β] {f : α → β}
    (hf : ∀ a b, f a = f b → a = b) (xs : List α) :
    distinctly (xs.map f) = (distinctly xs).map f := by
  have hfold : ∀ (ys kept : List α),
      (ys.map f).foldl (fun kept x => if x ∈ kept then kept else kept ++ [x]) (kept.map f) =
        (ys.foldl (fun kept x => if x ∈ kept then kept else kept ++ [x]) kept).map f := by
    intro ys
    induction ys with
    | nil => intro kept; rfl
    | cons y ys ih =>
        intro kept
        have hmem : f y ∈ kept.map f ↔ y ∈ kept := by
          refine ⟨?_, fun h => List.mem_map_of_mem h⟩
          intro h
          rcases List.mem_map.mp h with ⟨z, hz, heq⟩
          exact hf z y heq ▸ hz
        rw [List.map_cons, List.foldl_cons, List.foldl_cons, ← ih]
        by_cases h : y ∈ kept
        · rw [if_pos h, if_pos (hmem.mpr h)]
        · rw [if_neg h, if_neg (fun h' => h (hmem.mp h')), List.map_append]
          rfl
  exact hfold xs []

/-- Of blocks of equal elements, each block another element, one element each is kept. -/
theorem distinctly_flatMap {β : Type} {block : β → List α} {f : β → α} {us : List β}
    (hsome : ∀ u ∈ us, block u ≠ []) (hblock : ∀ u ∈ us, ∀ x ∈ block u, x = f u)
    (hnodup : (us.map f).Nodup) : distinctly (us.flatMap block) = us.map f := by
  have hkept : ∀ (xs kept : List α), (∀ x ∈ xs, x ∈ kept) →
      xs.foldl (fun kept x => if x ∈ kept then kept else kept ++ [x]) kept = kept := by
    intro xs
    induction xs with
    | nil => intro kept _; rfl
    | cons x xs ih =>
        intro kept h
        rw [List.foldl_cons, if_pos (h x List.mem_cons_self)]
        exact ih kept fun y hy => h y (List.mem_cons_of_mem _ hy)
  have hfold : ∀ (vs : List β) (kept : List α), (∀ v ∈ vs, v ∈ us) → (kept ++ vs.map f).Nodup →
      (vs.flatMap block).foldl (fun kept x => if x ∈ kept then kept else kept ++ [x]) kept =
        kept ++ vs.map f := by
    intro vs
    induction vs with
    | nil => intro kept _ _; simp
    | cons v vs ih =>
        intro kept hvs hnodup
        have hv : v ∈ us := hvs v List.mem_cons_self
        have hlist : kept ++ (v :: vs).map f = kept ++ [f v] ++ vs.map f := by simp
        rw [hlist] at hnodup ⊢
        have hnew : f v ∉ kept := by
          intro hmem
          exact (List.nodup_append.mp (List.nodup_append.mp hnodup).1).2.2 _ hmem _
            (List.mem_singleton_self _) rfl
        cases hxs : block v with
        | nil => exact absurd hxs (hsome v hv)
        | cons x xs =>
            have hequal : ∀ y ∈ x :: xs, y = f v := fun y hy => hblock v hv y (hxs ▸ hy)
            have hx : x = f v := hequal x List.mem_cons_self
            have hrest : ∀ y ∈ xs, y ∈ kept ++ [f v] := by
              intro y hy
              simp [hequal y (List.mem_cons_of_mem _ hy)]
            rw [List.flatMap_cons, hxs, List.foldl_append, List.foldl_cons, hx, if_neg hnew,
              hkept xs _ hrest]
            exact ih _ (fun w hw => hvs w (List.mem_cons_of_mem _ hw)) hnodup
  exact hfold us [] (fun _ h => h) hnodup

end ShardedSql
