import Mathlib.Data.List.Perm.Subperm
import ShardedSql.Execution.Lane
import ShardedSql.Proofs.Traversal

/-!
# The ledger of connections

A history is read as a ledger: an acquired connection is at hand until it is released, and only a
connection that is at hand can be released.  An action is described by the connections at hand
before and after it.

Main results:

- Theorem `Balances.conserves`: events that begin and end without connections release exactly what
  they acquire.
- Theorems `Action.Leaves.bind`, `Action.Leaves.onFault` and `Balanced.frame`: the ledgers of
  actions are put together like the actions.
-/

namespace ShardedSql

/-- A connection with its data source. -/
abbrev Lease := String × ConnectionId

namespace History

/-- The connections that are acquired. -/
def acquired (h : History) : List Lease :=
  h.filterMap fun
    | .acquired dataSource connection => some (dataSource, connection)
    | _ => none

/-- The connections that are released. -/
def released (h : History) : List Lease :=
  h.filterMap fun
    | .released dataSource connection => some (dataSource, connection)
    | _ => none

end History

/-- Every connection that is acquired is released exactly once, after it has been acquired, and
nothing else is released. -/
structure Conserves (events : History) : Prop where
  balance : events.released.Perm events.acquired
  /-- At no time has a connection been released more often than it has been acquired. -/
  atHand : ∀ before after, events = before ++ after →
    before.released.Subperm before.acquired

/-- Events lead from connections at hand to others. -/
def Balances : (before : List Lease) → History → (after : List Lease) → Prop
  | before, [], after => before.Perm after
  | before, .acquired dataSource connection :: events, after =>
      Balances ((dataSource, connection) :: before) events after
  | before, .released dataSource connection :: events, after =>
      ∃ rest, before.Perm ((dataSource, connection) :: rest) ∧ Balances rest events after
  | before, _ :: events, after => Balances before events after

namespace Balances

variable {before middle after : List Lease} {events later : History}

/-- The order of the connections at hand does not matter. -/
theorem perm_left (h : Balances before events after) {before' : List Lease}
    (hperm : before'.Perm before) : Balances before' events after := by
  induction events generalizing before before' with
  | nil => exact hperm.trans h
  | cons e events ih =>
      cases e with
      | acquired dataSource connection => exact ih h (hperm.cons _)
      | released dataSource connection =>
          rcases h with ⟨rest, hrest, h⟩
          exact ⟨rest, hperm.trans hrest, h⟩
      | denied _ | ran _ _ | controlled _ _ | warned _ | entered _ => exact ih h hperm

/-- Balanced events one after the other are balanced. -/
theorem append (h : Balances before events middle) (hlater : Balances middle later after) :
    Balances before (events ++ later) after := by
  induction events generalizing before with
  | nil => exact hlater.perm_left h
  | cons e events ih =>
      cases e with
      | released dataSource connection =>
          rcases h with ⟨rest, hrest, h⟩
          exact ⟨rest, hrest, ih h⟩
      | acquired _ _ | denied _ | ran _ _ | controlled _ _ | warned _ | entered _ => exact ih h

/-- Balanced events are balanced at any time in between. -/
theorem split (h : Balances before (events ++ later) after) :
    ∃ middle, Balances before events middle ∧ Balances middle later after := by
  induction events generalizing before with
  | nil => exact ⟨before, .refl before, h⟩
  | cons e events ih =>
      cases e with
      | released dataSource connection =>
          rcases h with ⟨rest, hrest, h⟩
          rcases ih h with ⟨middle, hevents, hlater⟩
          exact ⟨middle, ⟨rest, hrest, hevents⟩, hlater⟩
      | acquired _ _ | denied _ | ran _ _ | controlled _ _ | warned _ | entered _ => exact ih h

/-- Connections that are not touched stay at hand. -/
theorem frame (h : Balances before events after) (others : List Lease) :
    Balances (before ++ others) events (after ++ others) := by
  induction events generalizing before with
  | nil => exact h.append_right others
  | cons e events ih =>
      cases e with
      | released dataSource connection =>
          rcases h with ⟨rest, hrest, h⟩
          exact ⟨rest ++ others, hrest.append_right others, ih h⟩
      | acquired _ _ | denied _ | ran _ _ | controlled _ _ | warned _ | entered _ => exact ih h

/-- What was at hand or has been acquired is released or still at hand. -/
theorem perm (h : Balances before events after) :
    (before ++ events.acquired).Perm (events.released ++ after) := by
  induction events generalizing before with
  | nil => simpa [Balances, History.acquired, History.released] using h
  | cons e events ih =>
      cases e with
      | acquired dataSource connection => exact List.perm_middle.trans (ih h)
      | released dataSource connection =>
          rcases h with ⟨rest, hrest, h⟩
          exact (hrest.append_right _).trans ((ih h).cons _)
      | denied _ | ran _ _ | controlled _ _ | warned _ | entered _ => exact ih h

/-- Events that begin and end without connections release exactly what they acquire. -/
theorem conserves (h : Balances [] events []) : Conserves events := by
  constructor
  · simpa using h.perm.symm
  · rintro before after rfl
    rcases h.split with ⟨middle, hbefore, -⟩
    have hperm : before.acquired.Perm (before.released ++ middle) := hbefore.perm
    exact (List.sublist_append_left _ _).subperm.trans hperm.symm.subperm

end Balances

/-- A history leads to another, and the connections at hand change accordingly. -/
def Balanced (before : List Lease) (h h' : History) (after : List Lease) : Prop :=
  ∃ events, h' = h ++ events ∧ Balances before events after

namespace Balanced

variable {before middle after : List Lease} {h h' h'' : History}

theorem refl (before : List Lease) (h : History) : Balanced before h h before :=
  ⟨[], (List.append_nil h).symm, .refl before⟩

theorem trans (hfirst : Balanced before h h' middle) (hthen : Balanced middle h' h'' after) :
    Balanced before h h'' after := by
  rcases hfirst with ⟨events, rfl, hevents⟩
  rcases hthen with ⟨later, rfl, hlater⟩
  exact ⟨events ++ later, List.append_assoc .., hevents.append hlater⟩

/-- Connections that are not touched stay at hand. -/
theorem frame (hbalanced : Balanced before h h' after) (others : List Lease) :
    Balanced (before ++ others) h h' (after ++ others) := by
  rcases hbalanced with ⟨events, rfl, hevents⟩
  exact ⟨events, rfl, hevents.frame others⟩

/-- The order of the connections does not matter before or after. -/
theorem perm (hbalanced : Balanced before h h' after) {before' after' : List Lease}
    (hbefore : before'.Perm before) (hafter : after.Perm after') :
    Balanced before' h h' after' := by
  rcases hbalanced with ⟨events, rfl, hevents⟩
  refine ⟨events, rfl, ?_⟩
  rw [← List.append_nil events]
  exact (hevents.perm_left hbefore).append hafter

end Balanced

/-- An event that concerns no connection at hand. -/
def Event.isQuiet : Event → Bool
  | .acquired _ _ | .released _ _ => false
  | .denied _ | .ran _ _ | .controlled _ _ | .warned _ | .entered _ => true

/-- A quiet event keeps what is at hand. -/
theorem balanced_concat {e : Event} (he : e.isQuiet) (before : List Lease) (h : History) :
    Balanced before h (h ++ [e]) before := by
  refine ⟨[e], rfl, ?_⟩
  cases e with
  | acquired _ _ | released _ _ => cases he
  | denied _ | ran _ _ | controlled _ _ | warned _ | entered _ => exact .refl before

/-- A release takes one of the connections at hand. -/
theorem balanced_released (lease : Lease) (rest : List Lease) (h : History) :
    Balanced (lease :: rest) h (h ++ [.released lease.1 lease.2]) rest :=
  ⟨_, rfl, rest, .refl _, .refl rest⟩

/-- Releasing connections one after the other. -/
theorem balanced_releases (leases rest : List Lease) (h : History) :
    Balanced (leases ++ rest) h (h ++ leases.map fun l => .released l.1 l.2) rest := by
  induction leases generalizing h with
  | nil =>
      rw [List.map_nil, List.append_nil]
      exact .refl rest h
  | cons lease leases ih =>
      have hlater := ih (h ++ [.released lease.1 lease.2])
      rw [List.append_assoc] at hlater
      exact (balanced_released lease (leases ++ rest) h).trans hlater

namespace Action

variable {α β : Type}

/-- The connections at hand before an action, after it, and after a fault of it. -/
def Leaves (x : Action α) (h : History) (before : List Lease) (after : α → List Lease)
    (fault : List Lease) : Prop :=
  Balanced before h (x h).2 <|
    match (x h).1 with
    | .ok a => after a
    | .error _ => fault

variable {x : Action α} {f : α → Action β} {h : History} {before fault : List Lease}
  {middle : α → List Lease} {after : β → List Lease}

/-- The ledger of one action after another. -/
theorem Leaves.bind (hx : x.Leaves h before middle fault)
    (hf : ∀ a h', x h = (.ok a, h') → (f a).Leaves h' (middle a) after fault) :
    (x >>= f).Leaves h before after fault := by
  unfold Leaves at hx ⊢
  rw [bind_apply]
  cases hpair : x h with
  | mk answer h' =>
      rw [hpair] at hx
      cases answer with
      | error e => exact hx
      | ok a => exact hx.trans (hf a h' hpair)

/-- An action that succeeds after another one has. -/
theorem bind_eq_ok {b : β} {h'' : History} :
    (x >>= f) h = (.ok b, h'') ↔ ∃ a h', x h = (.ok a, h') ∧ f a h' = (.ok b, h'') :=
  bind_apply_eq_ok

/-- Cleaning up takes place only after a fault. -/
theorem onFault_eq_ok {cleanUp : StateM History Unit} {a : α} {h' : History} :
    x.onFault cleanUp h = (.ok a, h') ↔ x h = (.ok a, h') := by
  unfold onFault
  cases x h with
  | mk answer h'' =>
      cases answer with
      | ok _ => exact Iff.rfl
      | error e => exact ⟨fun heq => (nomatch heq), fun heq => (nomatch heq)⟩

/-- The order of the connections an action starts with does not matter. -/
theorem Leaves.perm_left (hx : x.Leaves h before middle fault) {before' : List Lease}
    (hperm : before'.Perm before) : x.Leaves h before' middle fault :=
  Balanced.perm hx hperm (.refl _)

theorem Leaves.pure (a : α) (h : History) (fault : List Lease) :
    (Pure.pure a : Action α).Leaves h (middle a) middle fault :=
  .refl _ h

/-- The ledger of an action that cleans up when it fails. -/
theorem Leaves.onFault (hx : x.Leaves h before middle fault) {cleanUp : StateM History Unit}
    {left : List Lease} (hcleanUp : ∀ h', Balanced fault h' (cleanUp h').2 left) :
    (x.onFault cleanUp).Leaves h before middle left := by
  unfold Leaves Action.onFault at *
  cases hpair : x h with
  | mk answer h' =>
      rw [hpair] at hx
      cases answer with
      | ok a => exact hx
      | error e => exact hx.trans (hcleanUp h')

/-- Connections that an action does not touch stay at hand. -/
theorem Leaves.frame (hx : x.Leaves h before middle fault) (others : List Lease) :
    x.Leaves h (before ++ others) (fun a => middle a ++ others) (fault ++ others) := by
  unfold Leaves at *
  have hframed := Balanced.frame hx others
  cases hanswer : (x h).1 with
  | ok a => simpa [hanswer] using hframed
  | error e => simpa [hanswer] using hframed

end Action

end ShardedSql
