import ShardedSql.Execution.Lane
import ShardedSql.Proofs.Traversal

/-!
# What actions add to the history

An action only adds to the history.  It is described by the events it adds, together with its
answer; actions that are put together add their events one after the other.

Main results:

- Theorem `Adds.bind`: the events of one action after another.
- Theorem `Action.onFault_adds`: the events of an action that cleans up when it fails.
- Theorem `History.phase_append`: the phase after some events.
-/

namespace ShardedSql

/-! ## Sorts of events -/

namespace Event

/-- A connection is asked for or handed back. -/
def isLeasing : Event → Bool
  | .acquired _ _ | .denied _ | .released _ _ => true
  | .ran _ _ | .controlled _ _ | .warned _ | .entered _ => false

/-- A unit is run, or a connection is asked for or handed back. -/
def isWork : Event → Bool
  | .acquired _ _ | .denied _ | .released _ _ | .ran _ _ => true
  | .controlled _ _ | .warned _ | .entered _ => false

/-- A transaction step is asked for. -/
def isControl : Event → Bool
  | .controlled _ _ => true
  | .acquired _ _ | .denied _ | .released _ _ | .ran _ _ | .warned _ | .entered _ => false

theorem isWork_of_isLeasing {e : Event} (he : e.isLeasing = true) : e.isWork = true := by
  cases e with
  | acquired _ _ | denied _ | released _ _ => rfl
  | ran _ _ | controlled _ _ | warned _ | entered _ => cases he

/-- Work is no transaction step. -/
theorem isControl_of_isWork {e : Event} (he : e.isWork = true) : e.isControl = false := by
  cases e with
  | acquired _ _ | denied _ | released _ _ | ran _ _ | warned _ | entered _ => rfl
  | controlled _ _ => cases he

end Event

namespace History

/-- The calls of a history in order, each with the reason if it failed. -/
def runs (h : History) : List (Call × Option String) :=
  h.filterMap fun
    | .ran call failure => some (call, failure)
    | _ => none

/-- The phase that events lead to from another. -/
def phaseFrom (phase : Phase) (events : History) : Phase :=
  events.foldl phaseAfter phase

/-- Runs are kept in the order of events. -/
@[simp]
theorem runs_append (h later : History) : runs (h ++ later) = runs h ++ runs later :=
  List.filterMap_append ..

/-- The calls of a history are those of its runs. -/
theorem calls_eq (h : History) : h.calls = h.runs.map (·.1) := by
  induction h with
  | nil => rfl
  | cons e h ih =>
      cases e with
      | ran call failure => exact congrArg (call :: ·) ih
      | acquired _ _ | denied _ | released _ _ | controlled _ _ | warned _ | entered _ => exact ih

/-- A run is an event of the history. -/
theorem mem_runs {h : History} {call : Call} {failure : Option String} :
    (call, failure) ∈ h.runs ↔ .ran call failure ∈ h := by
  constructor
  · intro hmem
    rcases List.mem_filterMap.mp hmem with ⟨e, he, heq⟩
    cases e with
    | ran _ _ =>
        cases heq
        exact he
    | acquired _ _ | denied _ | released _ _ | controlled _ _ | warned _ | entered _ => cases heq
  · exact fun hmem => List.mem_filterMap.mpr ⟨_, hmem, rfl⟩

/-- Events that are no calls. -/
theorem runs_of_isLeasing {events : History} (hevents : ∀ e ∈ events, e.isLeasing = true) :
    runs events = [] := by
  refine List.filterMap_eq_nil_iff.mpr fun e he => ?_
  cases e with
  | ran _ _ => cases hevents _ he
  | acquired _ _ | denied _ | released _ _ | controlled _ _ | warned _ | entered _ => rfl

/-- The calls of events between others that are no calls. -/
theorem runs_frame {earlier later : History} (hearlier : runs earlier = [])
    (hlater : runs later = []) (events : History) :
    runs (earlier ++ events ++ later) = runs events := by
  rw [runs_append, runs_append, hearlier, hlater, List.nil_append, List.append_nil]

/-- The phase after some events. -/
theorem phase_append (h events : History) : (h ++ events).phase = phaseFrom h.phase events :=
  List.foldl_append

/-- Later events decide about the phase in turn. -/
@[simp]
theorem phaseFrom_append (phase : Phase) (events later : History) :
    phaseFrom phase (events ++ later) = phaseFrom (phaseFrom phase events) later :=
  List.foldl_append

@[simp]
theorem phaseFrom_cons (phase : Phase) (e : Event) (events : History) :
    phaseFrom phase (e :: events) = phaseFrom (phaseAfter phase e) events := rfl

@[simp]
theorem phaseFrom_nil (phase : Phase) : phaseFrom phase [] = phase := rfl

/-- Only entering a phase changes it. -/
theorem phaseFrom_of_isWork {events : History} (hevents : ∀ e ∈ events, e.isWork = true)
    (phase : Phase) : phaseFrom phase events = phase := by
  induction events with
  | nil => rfl
  | cons e events ih =>
      rw [List.forall_mem_cons] at hevents
      cases e with
      | entered _ => cases hevents.1
      | acquired _ _ | denied _ | released _ _ | ran _ _ | controlled _ _ | warned _ =>
          exact ih hevents.2

end History

/-! ## Added events -/

/-- An action adds events to the history that, together with its answer, have a property. -/
def Adds {ε α : Type} (x : ExceptT ε (StateM History) α) (h : History)
    (post : Except ε α → History → Prop) : Prop :=
  ∃ events, (x h).2 = h ++ events ∧ post (x h).1 events

namespace Adds

variable {ε α β : Type} {x : ExceptT ε (StateM History) α} {f : α → ExceptT ε (StateM History) β}
  {h : History} {mid : Except ε α → History → Prop} {post : Except ε β → History → Prop}

/-- What is added has any property that follows from a known one. -/
theorem mono (hx : Adds x h mid) {post : Except ε α → History → Prop}
    (himp : ∀ answer events, mid answer events → post answer events) : Adds x h post :=
  hx.imp fun events hevents => ⟨hevents.1, himp _ events hevents.2⟩

/-- What is added has two properties if it has each of them. -/
theorem and {mid' : Except ε α → History → Prop} (hx : Adds x h mid) (hx' : Adds x h mid') :
    Adds x h fun answer events => mid answer events ∧ mid' answer events := by
  rcases hx with ⟨events, hhistory, hmid⟩
  rcases hx' with ⟨events', hhistory', hmid'⟩
  cases List.append_cancel_left (hhistory.symm.trans hhistory')
  exact ⟨events, hhistory, hmid, hmid'⟩

/-- The events of one action after another. -/
theorem bind (hx : Adds x h mid)
    (hok : ∀ a events, mid (.ok a) events →
      Adds (f a) (h ++ events) fun answer later => post answer (events ++ later))
    (herror : ∀ e events, mid (.error e) events → post (.error e) events) :
    Adds (x >>= f) h post := by
  rcases hx with ⟨events, hhistory, hmid⟩
  unfold Adds
  rw [bind_apply]
  cases hpair : x h with
  | mk answer h' =>
      rw [hpair] at hhistory hmid
      cases hhistory
      cases answer with
      | error e => exact ⟨events, rfl, herror e events hmid⟩
      | ok a =>
          rcases hok a events hmid with ⟨later, hlater, hpost⟩
          refine ⟨events ++ later, ?_, hpost⟩
          rw [← List.append_assoc]
          exact hlater

theorem pure {a : α} {post : Except ε α → History → Prop} (hpost : post (.ok a) []) :
    Adds (Pure.pure a : ExceptT ε (StateM History) α) h post :=
  ⟨[], (List.append_nil h).symm, hpost⟩

end Adds

namespace Action

variable {α : Type} {h : History}

/-- The events of an action that cleans up when it fails. -/
theorem onFault_adds {x : Action α} {mid post : Except Fault α → History → Prop}
    {cleanUp : StateM History Unit} (hx : Adds x h mid)
    (hok : ∀ a events, mid (.ok a) events → post (.ok a) events)
    (herror : ∀ fault events, mid (.error fault) events →
      ∃ later, (cleanUp (h ++ events)).2 = h ++ events ++ later ∧
        post (.error fault) (events ++ later)) :
    Adds (x.onFault cleanUp) h post := by
  rcases hx with ⟨events, hhistory, hmid⟩
  unfold Adds onFault
  cases hpair : x h with
  | mk answer h' =>
      rw [hpair] at hhistory hmid
      cases hhistory
      cases answer with
      | ok a => exact ⟨events, rfl, hok a events hmid⟩
      | error fault =>
          rcases herror fault events hmid with ⟨later, hlater, hpost⟩
          exact ⟨events ++ later, hlater.trans (List.append_assoc ..), hpost⟩

/-- A phase that may come next is entered. -/
theorem enter_adds {next : Phase} {post : Except Fault Unit → History → Prop}
    (hmove : h.phase.canMove next = true) (hpost : post (.ok ()) [.entered next]) :
    Adds (enter next) h post := by
  refine ⟨[.entered next], ?_⟩
  unfold enter Phase.move
  rw [if_pos hmove]
  exact ⟨rfl, hpost⟩

/-- A phase that may come next is entered, and an action follows. -/
theorem enter_bind_adds {next : Phase} (hmove : h.phase.canMove next = true) {f : Unit → Action α}
    {post : Except Fault α → History → Prop}
    (hf : Adds (f ()) (h ++ [.entered next]) fun answer later =>
      post answer (.entered next :: later)) :
    Adds (enter next >>= f) h post := by
  have hentered : Adds (enter next) h fun answer events =>
      answer = .ok () ∧ events = [.entered next] := enter_adds hmove ⟨rfl, rfl⟩
  refine hentered.bind ?_ fun _ _ hevents => nomatch hevents.1
  rintro _ _ ⟨-, rfl⟩
  exact hf

/-- An action follows what was made without doing anything outside. -/
theorem ofExcept_bind_adds {β : Type} {x : Except Fault β} {f : β → Action α}
    {post : Except Fault α → History → Prop} (hok : ∀ a, x = .ok a → Adds (f a) h post)
    (herror : ∀ fault, x = .error fault → post (.error fault) []) :
    Adds (ofExcept x >>= f) h post := by
  unfold Adds
  rw [bind_apply]
  cases hx : x with
  | error fault => exact ⟨[], (List.append_nil h).symm, herror fault hx⟩
  | ok a => exact hok a hx

/-- A unit that is handed to its target is run. -/
theorem ask_adds {answer : History → Call → Except String α} {call : Call}
    {post : Except String α → History → Prop}
    (hpost : post (answer h call) [.ran call (failure? (answer h call))]) :
    Adds (ask answer call) h post :=
  ⟨_, rfl, hpost⟩

end Action

end ShardedSql
