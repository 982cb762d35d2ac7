import Mathlib.Data.List.Forall2
import ShardedSql.Fault

/-!
# Traversals that may fail

A list is mapped or folded by a function that may fail; the first fault is the outcome.

Main results:

- Theorems `bind_apply` and `bind_apply_eq_ok`: one computation with a state after another.
- Theorem `mapM_cases`: all elements have images, or one of them has a fault.
- Theorem `mapM_eq_ok_iff`: the images of a list are those of its elements.
- Theorem `mapM_range`: the images of the first numbers, by place.
- Theorem `foldlM_eq_mapM`: a fold over images maps the list first.
- Theorem `foldlM_preserves`: what every step of a fold preserves is true of its outcome.
- Theorem `step_of_foldlM`: when a fold succeeds, so has each of its steps.
- Theorem `foldlM_cases`: a fold whose steps keep a property or fail in a known way does so.
-/

namespace ShardedSql

/-- An outcome is known by its value. -/
theorem eq_ok_of_toOption {α : Type} {x : Except Fault α} {a : α} (h : x.toOption = some a) :
    x = .ok a := by
  cases x with
  | error e => cases h
  | ok b => rw [Option.some.inj h]

/-- A sequence succeeds when both of its parts do. -/
theorem Except.bind_eq_ok {ε α β : Type} {x : Except ε α} {f : α → Except ε β} {b : β} :
    x >>= f = .ok b ↔ ∃ a, x = .ok a ∧ f a = .ok b := by
  cases x with
  | error e => simp [bind, Except.bind]
  | ok a => simp [bind, Except.bind]

/-- One computation with a state after another. -/
theorem bind_apply {ε σ α β : Type} (x : ExceptT ε (StateM σ) α)
    (f : α → ExceptT ε (StateM σ) β) (s : σ) :
    (x >>= f) s =
      match x s with
      | (.ok a, s) => f a s
      | (.error e, s) => (.error e, s) := by
  show ExceptT.bind x f s = _
  simp only [ExceptT.bind, ExceptT.mk, bind, StateT.bind, ExceptT.bindCont]
  cases x s with
  | mk outcome s' => cases outcome <;> rfl

/-- One computation with a state after another succeeds when both do. -/
theorem bind_apply_eq_ok {ε σ α β : Type} {x : ExceptT ε (StateM σ) α}
    {f : α → ExceptT ε (StateM σ) β} {s s'' : σ} {b : β} :
    (x >>= f) s = (.ok b, s'') ↔ ∃ a s', x s = (.ok a, s') ∧ f a s' = (.ok b, s'') := by
  rw [bind_apply]
  cases x s with
  | mk answer s' =>
      cases answer with
      | error e =>
          constructor
          · intro heq
            cases heq
          · rintro ⟨a, _, heq, -⟩
            cases heq
      | ok a =>
          constructor
          · intro heq
            exact ⟨a, s', rfl, heq⟩
          · rintro ⟨_, _, heq, hf⟩
            cases heq
            exact hf

/-- Either every element of a list has an image, or the first one that has none is the fault. -/
theorem mapM_cases {α β : Type} (f : α → Except Fault β) (xs : List α) :
    (∃ ys, xs.mapM f = .ok ys ∧ (∀ x ∈ xs, ∃ y, f x = .ok y) ∧
      ∀ y, y ∈ ys ↔ ∃ x ∈ xs, f x = .ok y) ∨
    ∃ x ∈ xs, ∃ e, f x = .error e ∧ xs.mapM f = .error e := by
  induction xs with
  | nil => exact .inl ⟨[], rfl, by simp, by simp⟩
  | cons x xs ih =>
      cases hx : f x with
      | error e =>
          refine .inr ⟨x, List.mem_cons_self, e, hx, ?_⟩
          simp [List.mapM_cons, hx, bind, Except.bind]
      | ok y =>
          rcases ih with ⟨ys, hys, hall, hmem⟩ | ⟨z, hz, e, he, herror⟩
          · refine .inl ⟨y :: ys, ?_, ?_, ?_⟩
            · simp [List.mapM_cons, hx, hys, bind, Except.bind, pure, Except.pure]
            · intro z hz
              rcases List.mem_cons.mp hz with rfl | hz
              · exact ⟨y, hx⟩
              · exact hall z hz
            · intro z
              simp [hx, hmem z, eq_comm]
          · refine .inr ⟨z, List.mem_cons_of_mem _ hz, e, he, ?_⟩
            simp [List.mapM_cons, hx, herror, bind, Except.bind]

/-- What a traversal yields comes from the list. -/
theorem mem_of_mapM {α β : Type} {f : α → Except Fault β} {xs : List α} {ys : List β}
    (h : xs.mapM f = .ok ys) : ∀ y ∈ ys, ∃ x ∈ xs, f x = .ok y := by
  rcases mapM_cases f xs with ⟨all, hall, -, hmem⟩ | ⟨-, -, e, -, he⟩
  · cases h.symm.trans hall
    exact fun y hy => (hmem y).mp hy
  · cases h.symm.trans he

/-- A list has an image when its elements have, each in its place. -/
theorem mapM_eq_ok_iff {α β : Type} {f : α → Except Fault β} {xs : List α} {ys : List β} :
    xs.mapM f = .ok ys ↔ List.Forall₂ (fun x y => f x = .ok y) xs ys := by
  induction xs generalizing ys with
  | nil =>
      rw [List.forall₂_nil_left_iff]
      exact ⟨fun h => (Except.ok.inj h).symm, fun h => h ▸ rfl⟩
  | cons x xs ih =>
      rw [List.mapM_cons, List.forall₂_cons_left_iff, Except.bind_eq_ok]
      simp only [Except.bind_eq_ok, ih]
      constructor
      · rintro ⟨y, hy, later, hlater, h⟩
        exact ⟨y, later, hy, hlater, (Except.ok.inj h).symm⟩
      · rintro ⟨y, later, hy, hlater, rfl⟩
        exact ⟨y, hy, later, hlater, rfl⟩

/-- When a list has an image, each of its elements has one. -/
theorem step_of_mapM {α β : Type} {f : α → Except Fault β} {xs : List α} {ys : List β}
    (h : xs.mapM f = .ok ys) : ∀ x ∈ xs, ∃ y, f x = .ok y := by
  rcases mapM_cases f xs with ⟨-, -, hall, -⟩ | ⟨-, -, e, -, he⟩
  · exact hall
  · cases h.symm.trans he

/-- Numbers that all have images have them in a list, each at its place. -/
theorem mapM_range {β : Type} {f : Nat → Except Fault β} {n : Nat}
    (hf : ∀ i < n, ∃ y, f i = .ok y) :
    ∃ ys, (List.range n).mapM f = .ok ys ∧ ys.length = n ∧
      ∀ i < n, ∀ y, f i = .ok y → ys[i]? = some y := by
  rcases mapM_cases f (List.range n) with ⟨ys, hys, -, -⟩ | ⟨i, hi, e, he, -⟩
  · have hall := mapM_eq_ok_iff.mp hys
    have hlength : ys.length = n := hall.length_eq.symm.trans List.length_range
    refine ⟨ys, hys, hlength, fun i hi y hy => ?_⟩
    have hat := hall.get (List.length_range.symm ▸ hi) (hlength.symm ▸ hi)
    simp only [List.get_eq_getElem, List.getElem_range, hy] at hat
    rw [List.getElem?_eq_getElem (hlength.symm ▸ hi), Except.ok.inj hat]
  · rcases hf i (List.mem_range.mp hi) with ⟨y, hy⟩
    cases hy.symm.trans he

/-- A fold that takes the image of each element is the fold of the images. -/
theorem foldlM_eq_mapM {α β γ : Type} (f : α → Except Fault β) (g : γ → β → γ) (xs : List α)
    (c : γ) :
    xs.foldlM (fun c x => (f x).map (g c)) c = (xs.mapM f).map (·.foldl g c) := by
  induction xs generalizing c with
  | nil => rfl
  | cons x xs ih =>
      rw [List.foldlM_cons, List.mapM_cons]
      cases hx : f x with
      | error e => rfl
      | ok y =>
          have hlater := ih (g c y)
          cases hxs : xs.mapM f with
          | error e =>
              rw [hxs] at hlater
              exact hlater
          | ok ys =>
              rw [hxs] at hlater
              exact hlater

/-- What every step preserves is true of the outcome of a fold. -/
theorem foldlM_preserves {α β : Type} {f : β → α → Except Fault β} {P : β → Prop} {xs : List α}
    (hstep : ∀ x ∈ xs, ∀ b b', P b → f b x = .ok b' → P b') {b b' : β} (h : P b)
    (hfold : xs.foldlM f b = .ok b') : P b' := by
  induction xs generalizing b with
  | nil =>
      cases hfold
      exact h
  | cons x xs ih =>
      rw [List.foldlM_cons] at hfold
      cases hx : f b x with
      | error e =>
          rw [hx] at hfold
          cases hfold
      | ok next =>
          rw [hx] at hfold
          apply ih (fun y hy => hstep y (List.mem_cons_of_mem _ hy)) _ hfold
          exact hstep x List.mem_cons_self b next h hx

/-- When a fold succeeds, each of its steps has succeeded. -/
theorem step_of_foldlM {α β : Type} {f : β → α → Except Fault β} {xs : List α} {b b' : β}
    (h : xs.foldlM f b = .ok b') : ∀ x ∈ xs, ∃ c c', f c x = .ok c' := by
  induction xs generalizing b with
  | nil => simp
  | cons x xs ih =>
      rw [List.foldlM_cons] at h
      rcases Except.bind_eq_ok.mp h with ⟨next, hnext, hrest⟩
      intro y hy
      rcases List.mem_cons.mp hy with rfl | hy
      · exact ⟨b, next, hnext⟩
      · exact ih hrest y hy

/-- A fold whose steps keep a property or fail in a known way keeps the property or fails that
way. -/
theorem foldlM_cases {α β : Type} {f : β → α → Except Fault β} {P : β → Prop} {E : Fault → Prop}
    {xs : List α}
    (hstep : ∀ x ∈ xs, ∀ b, P b → (∃ b', f b x = .ok b' ∧ P b') ∨ ∃ e, f b x = .error e ∧ E e)
    {b : β} (h : P b) :
    (∃ b', xs.foldlM f b = .ok b' ∧ P b') ∨ ∃ e, xs.foldlM f b = .error e ∧ E e := by
  induction xs generalizing b with
  | nil => exact .inl ⟨b, rfl, h⟩
  | cons x xs ih =>
      rw [List.forall_mem_cons] at hstep
      rw [List.foldlM_cons]
      rcases hstep.1 b h with ⟨next, hnext, hkept⟩ | ⟨e, he, hfault⟩
      · rw [hnext]
        exact ih hstep.2 hkept
      · rw [he]
        exact .inr ⟨e, rfl, hfault⟩

end ShardedSql
