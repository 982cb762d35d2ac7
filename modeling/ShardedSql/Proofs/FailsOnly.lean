import ShardedSql.Algorithm.Balancer
import ShardedSql.Proofs.Traversal

/-!
# Kinds of faults

Every part of the work fails with faults of its own kinds.  A computation that is put together from
others fails only with faults of their kinds.

Main results:

- Theorem `FailsOnly.bind`: one computation after another.
- Theorem `FailsOnly.foldlM`: a fold whose steps fail only with faults of a kind.
- Theorem `Balancing.FailsOnly.foldlM`: the same with load balancers.
-/

namespace ShardedSql

variable {α β : Type}

namespace Fault

/-- The faults of routing. -/
def isRouting : Fault → Bool
  | routing _ | ambiguous _ | arithmetic => true
  | _ => false

/-- The faults of adapting statements to their targets. -/
def isAdaptation : Fault → Bool
  | adaptation _ => true
  | _ => false

/-- The faults of execution units and of the connections they need. -/
def isExecution : Fault → Bool
  | acquisition _ _ | unit _ _ | several _ | deadline _ _ | emptyUnit _ => true
  | _ => false

/-- The faults of merging results. -/
def isMerging : Fault → Bool
  | merge _ | position _ | columnRange _ _ => true
  | _ => false

/-- An integer sum left the range. -/
def isOverflow : Fault → Bool
  | merge (.overflow _ _) => true
  | _ => false

/-- A move between phases was not allowed. -/
def isIllegal : Fault → Bool
  | illegalState _ => true
  | _ => false

end Fault

/-- A computation fails only with some faults. -/
def FailsOnly (kind : Fault → Prop) (x : Except Fault α) : Prop :=
  ∀ fault, x = .error fault → kind fault

section

variable {kind kind' : Fault → Prop}

theorem failsOnly_ok (a : α) : FailsOnly kind (.ok a) :=
  fun _ heq => nomatch heq

theorem failsOnly_error {fault : Fault} (hfault : kind fault) :
    FailsOnly kind (.error fault : Except Fault α) := by
  intro fault' heq
  cases heq
  exact hfault

namespace FailsOnly

/-- Faults of one kind are faults of any kind that includes it. -/
theorem mono {x : Except Fault α} (hx : FailsOnly kind x)
    (himp : ∀ fault, kind fault → kind' fault) :
    FailsOnly kind' x :=
  fun fault heq => himp fault (hx fault heq)

/-- One computation after another. -/
theorem bind {x : Except Fault α} {f : α → Except Fault β} (hx : FailsOnly kind x)
    (hf : ∀ a, FailsOnly kind (f a)) : FailsOnly kind (x >>= f) := by
  cases x with
  | error fault => exact failsOnly_error (hx fault rfl)
  | ok a => exact hf a

theorem map {x : Except Fault α} (hx : FailsOnly kind x) (f : α → β) :
    FailsOnly kind (x.map f) := by
  cases x with
  | error fault => exact failsOnly_error (hx fault rfl)
  | ok a => exact failsOnly_ok (f a)

/-- A traversal fails only as its steps do. -/
theorem mapM {f : α → Except Fault β} {xs : List α} (hf : ∀ x ∈ xs, FailsOnly kind (f x)) :
    FailsOnly kind (xs.mapM f) := by
  intro fault heq
  rcases mapM_cases f xs with ⟨ys, hys, -⟩ | ⟨x, hx, e, he, herror⟩
  · cases hys.symm.trans heq
  · cases herror.symm.trans heq
    exact hf x hx fault he

/-- A fold whose steps fail only with faults of a kind. -/
theorem foldlM {f : β → α → Except Fault β} {xs : List α}
    (hf : ∀ x ∈ xs, ∀ b, FailsOnly kind (f b x)) (b : β) : FailsOnly kind (xs.foldlM f b) := by
  induction xs generalizing b with
  | nil => exact failsOnly_ok b
  | cons x xs ih =>
      rw [List.forall_mem_cons] at hf
      rw [List.foldlM_cons]
      exact (hf.1 b).bind fun b' => ih hf.2 b'

end FailsOnly

/-! ## Load balancers -/

/-- A computation with load balancers fails only with some faults. -/
def Balancing.FailsOnly (kind : Fault → Prop) (x : Balancing α) : Prop :=
  ∀ turns, ShardedSql.FailsOnly kind (x turns).1

namespace Balancing

theorem failsOnly_pure (a : α) : FailsOnly kind (pure a : Balancing α) :=
  fun _ => failsOnly_ok a

theorem failsOnly_throw {fault : Fault} (hfault : kind fault) :
    FailsOnly kind (throw fault : Balancing α) :=
  fun _ => failsOnly_error hfault

/-- A step that does not balance fails as it does on its own. -/
theorem failsOnly_ofExcept {x : Except Fault α} (hx : ShardedSql.FailsOnly kind x) :
    FailsOnly kind (ofExcept x) :=
  fun _ => hx

/-- The given fault takes the place of all others. -/
theorem failsOnly_orFault {fault : Fault} (x : Balancing α) (hfault : kind fault) :
    FailsOnly kind (x.orFault fault) := by
  intro turns
  unfold orFault
  rcases x turns with ⟨_ | a, later⟩
  · exact failsOnly_error hfault
  · exact failsOnly_ok a

namespace FailsOnly

/-- Steps one after the other fail only as either of them does. -/
theorem bind {x : Balancing α} {f : α → Balancing β} (hx : FailsOnly kind x)
    (hf : ∀ a, FailsOnly kind (f a)) : FailsOnly kind (x >>= f) := by
  intro turns
  have hfirst := hx turns
  rw [bind_apply]
  cases hpair : x turns with
  | mk answer later =>
      rw [hpair] at hfirst
      cases answer with
      | error fault => exact failsOnly_error (hfirst fault rfl)
      | ok a => exact hf a later

theorem map {x : Balancing α} (hx : FailsOnly kind x) (f : α → β) : FailsOnly kind (f <$> x) := by
  rw [map_eq_pure_bind]
  exact hx.bind fun a => failsOnly_pure (f a)

/-- A fold whose steps fail only with faults of a kind. -/
theorem foldlM {f : β → α → Balancing β} (hf : ∀ b x, FailsOnly kind (f b x)) (xs : List α)
    (b : β) : FailsOnly kind (xs.foldlM f b) := by
  induction xs generalizing b with
  | nil => exact failsOnly_pure b
  | cons x xs ih =>
      rw [List.foldlM_cons]
      exact (hf b x).bind ih

end FailsOnly

end Balancing

end

end ShardedSql
