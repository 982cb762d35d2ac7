import ShardedSql.Proofs.Execution.Additions
import ShardedSql.Proofs.Execution.Dealing

/-!
# Opening lanes

Opening lanes asks for connections and hands some back, and does nothing else outside.  It fails
only when a connection to the data source of some unit is denied.

Main results:

- Theorem `LaneLimits.openFor_adds`: what opening lanes for units comes to.
- Theorem `Database.openLanes_adds`: what opening the lanes of a statement comes to.
-/

namespace ShardedSql

variable {υ : Type}

/-- What opening lanes for units comes to. -/
structure Opens (dataSource : υ → String) (units : List υ) (answer : Except Fault (List (Lane υ)))
    (events : History) : Prop where
  leasing : ∀ e ∈ events, e.isLeasing = true
  hold : ∀ lanes, answer = .ok lanes → Lane.Hold dataSource lanes (placed units)
  /-- A fault is that of a connection to the data source of a unit, which was denied. -/
  denied : ∀ fault, answer = .error fault → ∃ u ∈ units, ∃ cause,
    fault = .acquisition (dataSource u) cause ∧ .denied (dataSource u) ∈ events

/-- Connections are asked for and handed back; a fault is that of a denied connection to one of
some data sources. -/
def Leasing {α : Type} (dataSources : List String) (answer : Except Fault α) (events : History) :
    Prop :=
  (∀ e ∈ events, e.isLeasing = true) ∧
    ∀ fault, answer = .error fault → ∃ ds ∈ dataSources, ∃ cause,
      fault = .acquisition ds cause ∧ .denied ds ∈ events

/-- The events of a fault do not depend on the answer that is missing. -/
theorem Leasing.error {α β : Type} {dataSources : List String} {fault : Fault} {events : History}
    (hevents : Leasing dataSources (.error fault : Except Fault α) events) :
    Leasing dataSources (.error fault : Except Fault β) events := by
  refine ⟨hevents.1, fun _ heq => ?_⟩
  cases heq
  exact hevents.2 fault rfl

theorem leasing_ok {α : Type} {dataSources : List String} {a : α} {events : History}
    (hevents : ∀ e ∈ events, e.isLeasing = true) : Leasing dataSources (.ok a) events :=
  ⟨hevents, fun _ heq => (nomatch heq)⟩

/-- More connections are asked for, and possibly handed back. -/
theorem Leasing.append {α β : Type} {dataSources others : List String} {a : α}
    {answer : Except Fault β} {events later : History}
    (hevents : Leasing dataSources (.ok a : Except Fault α) events)
    (hlater : Leasing others answer later) (hothers : others ⊆ dataSources) :
    Leasing dataSources answer (events ++ later) := by
  refine ⟨List.forall_mem_append.mpr ⟨hevents.1, hlater.1⟩, fun fault heq => ?_⟩
  rcases hlater.2 fault heq with ⟨ds, hds, cause, hfault, hdenied⟩
  exact ⟨ds, hothers hds, cause, hfault, List.mem_append_right _ hdenied⟩

/-- Releases are leasing. -/
theorem isLeasing_released {leases : List Lease} :
    ∀ e ∈ leases.map fun l => Event.released l.1 l.2, e.isLeasing = true := by
  intro e he
  rcases List.mem_map.mp he with ⟨lease, -, rfl⟩
  rfl

/-- Connections are handed back after a fault. -/
theorem Action.onFault_leasing {α : Type} {x : Action α} {h : History} {dataSources : List String}
    (hx : Adds x h (Leasing dataSources)) {cleanUp : StateM History Unit} {leases : List Lease}
    (hcleanUp : ∀ h', (cleanUp h').2 = h' ++ leases.map fun l => .released l.1 l.2) :
    Adds (x.onFault cleanUp) h (Leasing dataSources) := by
  refine onFault_adds hx (fun _ _ hevents => hevents) ?_
  intro fault events hevents
  refine ⟨_, hcleanUp _, List.forall_mem_append.mpr ⟨hevents.1, isLeasing_released⟩, ?_⟩
  intro fault' heq
  rcases hevents.2 fault' heq with ⟨ds, hds, cause, hfault, hdenied⟩
  exact ⟨ds, hds, cause, hfault, List.mem_append_left _ hdenied⟩

/-- Releasing lanes adds one release for each of them. -/
theorem Lane.releaseAll_apply (lanes : List (Lane υ)) (h : History) :
    (releaseAll lanes h).2 = h ++ (leases lanes).map fun l => .released l.1 l.2 := by
  rw [leases, List.map_map]
  rfl

/-- Acquiring a connection only adds leasing. -/
theorem Backend.acquireWithin_adds (b : Backend) (wait : Nat) (dataSource : String) (h : History) :
    Adds (b.acquireWithin wait dataSource) h (Leasing [dataSource]) := by
  have hdenied : ∀ cause, Leasing (α := ConnectionId) [dataSource]
      (.error (.acquisition dataSource cause)) [.denied dataSource] := by
    intro cause
    refine ⟨by simp [Event.isLeasing], fun fault heq => ?_⟩
    cases heq
    exact ⟨dataSource, List.mem_singleton_self _, cause, rfl, List.mem_singleton_self _⟩
  unfold Adds Backend.acquireWithin
  cases b.acquire h dataSource with
  | granted connection =>
      exact ⟨_, rfl, leasing_ok (by simp [Event.isLeasing])⟩
  | refused reason => exact ⟨_, rfl, hdenied _⟩
  | silent => exact ⟨_, rfl, hdenied _⟩

namespace LaneLimits

variable (limits : LaneLimits) (b : Backend)

/-- So does acquiring several of them. -/
theorem acquire_adds (dataSource : String) (n : Nat) (atHand : List ConnectionId) (h : History) :
    Adds (limits.acquire b dataSource n atHand) h (Leasing [dataSource]) := by
  induction n generalizing atHand h with
  | zero => exact .pure (leasing_ok (List.forall_mem_nil _))
  | succ n ih =>
      have hreleased : ∀ h', (Action.recordAll (atHand.map (.released dataSource)) h').2 =
          h' ++ (atHand.map (dataSource, ·)).map fun l => .released l.1 l.2 := by
        intro h'
        rw [List.map_map]
        rfl
      have hone := Action.onFault_leasing (b.acquireWithin_adds limits.wait dataSource h) hreleased
      refine hone.bind ?_ fun _ _ hevents => hevents.error
      intro connection events hevents
      exact (ih _ _).mono fun _ _ hlater => hevents.append hlater (List.Subset.refl _)

/-- So does opening the lanes on a data source. -/
theorem openOn_adds (dataSource : String) (entries : List (Nat × υ)) (h : History) :
    Adds (limits.openOn b dataSource entries) h (Leasing [dataSource]) := by
  refine (limits.acquire_adds b dataSource _ [] h).bind ?_ fun _ _ hevents => hevents.error
  intro connections events hevents
  refine .pure ?_
  rw [List.append_nil]
  exact leasing_ok hevents.1

/-- So does opening the lanes on several data sources. -/
theorem openEach_adds (groups : List (String × List (Nat × υ))) (opened : List (Lane υ))
    (h : History) :
    Adds (limits.openEach b groups opened) h (Leasing (groups.map (·.1))) := by
  induction groups generalizing opened h with
  | nil => exact .pure (leasing_ok (List.forall_mem_nil _))
  | cons group groups ih =>
      have hone := Action.onFault_leasing (limits.openOn_adds b group.1 group.2 h)
        (Lane.releaseAll_apply opened)
      have hall := hone.mono fun _ _ hevents =>
        (leasing_ok (a := ()) (List.forall_mem_nil _)).append hevents
          (List.cons_subset_cons group.1 (List.nil_subset (groups.map (·.1))))
      refine hall.bind ?_ fun _ _ hevents => hevents
      intro lanes events hevents
      exact (ih _ _).mono fun _ _ hlater => hevents.append hlater (List.subset_cons_self _ _)

/-- Lanes are opened for all units, or a connection to the data source of one is denied. -/
theorem openFor_adds (dataSource : υ → String) (units : List υ) (h : History) :
    Adds (limits.openFor b dataSource units) h (Opens dataSource units) := by
  rcases limits.openEach_adds b (byDataSource dataSource units) [] h with
    ⟨events, hhistory, hevents⟩
  refine ⟨events, hhistory, hevents.1, ?_, ?_⟩
  · exact fun lanes hok => limits.hold_of_openFor (Prod.ext hok rfl)
  · intro fault hfault
    rcases hevents.2 fault hfault with ⟨ds, hds, hdenied⟩
    have hunit : ds ∈ units.map dataSource := by
      rw [byDataSource, List.map_map] at hds
      simpa [Function.comp_def, mem_distinctly] using hds
    rcases List.mem_map.mp hunit with ⟨u, hu, rfl⟩
    exact ⟨u, hu, hdenied⟩

end LaneLimits

/-! ## Lanes of statements -/

/-- The units that a statement is run as. -/
def Destination.unitsOf (statement : Statement) : Destination → List ExecutionUnit
  | computeInstance id =>
      [{ dataSource := id
         statement := { sql := statement.sql, parameters := statement.parameters } }]
  | units us => us

/-- What opening the lanes of a statement comes to. -/
structure Destination.Opens (destination : Destination) (statement : Statement)
    (answer : Except Fault (List (Lane ExecutionUnit))) (events : History) : Prop where
  /-- The lanes are open in the prepared phase, and hold the units of the statement. -/
  ok : ∀ lanes, answer = .ok lanes → ∃ leases, events = leases ++ [.entered .prepared] ∧
    (∀ e ∈ leases, e.isLeasing = true) ∧
    Lane.Hold (·.dataSource) lanes (placed (destination.unitsOf statement))
  /-- A fault leaves the phase; for the units of a statement, it is that of a denied connection. -/
  error : ∀ fault, answer = .error fault → (∀ e ∈ events, e.isLeasing = true) ∧
    ∀ units, destination = .units units → ∃ u ∈ units, ∃ cause,
      fault = .acquisition u.dataSource cause ∧ .denied u.dataSource ∈ events

/-- Open lanes enter the prepared phase. -/
theorem Lane.enterWith_adds {h : History} (hphase : h.phase = .routed)
    (lanes : List (Lane υ)) {post : Except Fault (List (Lane υ)) → History → Prop}
    (hpost : post (.ok lanes) [.entered .prepared]) :
    Adds (Lane.enterWith .prepared lanes) h post := by
  have henter : Adds (Action.enter .prepared) h fun answer events =>
      answer = .ok () ∧ events = [.entered .prepared] :=
    Action.enter_adds (by rw [hphase]; rfl) ⟨rfl, rfl⟩
  have hcleaned : Adds ((Action.enter .prepared).onFault (Lane.releaseAll lanes)) h
      fun answer events => answer = .ok () ∧ events = [.entered .prepared] :=
    Action.onFault_adds henter (fun _ _ hevents => hevents) fun _ _ hevents => nomatch hevents.1
  refine hcleaned.bind ?_ fun _ _ hevents => nomatch hevents.1
  rintro _ _ ⟨-, rfl⟩
  exact .pure hpost

/-- The lanes of a routed statement are open in the prepared phase, or a fault leaves the phase. -/
theorem Database.openLanes_adds (db : Database) (b : Backend) (statement : Statement)
    (destination : Destination) {h : History} (hphase : h.phase = .routed) :
    Adds (db.openLanes b statement destination) h (destination.Opens statement) := by
  have hstays : ∀ events : History, (∀ e ∈ events, e.isLeasing = true) →
      (h ++ events).phase = .routed := by
    intro events hevents
    rw [History.phase_append, hphase]
    exact History.phaseFrom_of_isWork (fun e he => Event.isWork_of_isLeasing (hevents e he)) _
  have hopened : ∀ events lanes, (∀ e ∈ events, e.isLeasing = true) →
      Lane.Hold (·.dataSource) lanes (placed (destination.unitsOf statement)) →
      destination.Opens statement (.ok lanes) (events ++ [.entered .prepared]) := by
    intro events lanes hevents hhold
    refine ⟨fun opened heq => ?_, fun _ heq => (nomatch heq)⟩
    cases heq
    exact ⟨events, rfl, hevents, hhold⟩
  cases destination with
  | units us =>
      refine (db.limits.openFor_adds b (·.dataSource) us h).bind ?_ ?_
      · intro lanes events hevents
        exact Lane.enterWith_adds (hstays events hevents.leasing) lanes
          (hopened events lanes hevents.leasing (hevents.hold lanes rfl))
      · intro fault events hevents
        refine ⟨fun _ heq => (nomatch heq), fun fault' heq => ?_⟩
        cases heq
        refine ⟨hevents.leasing, fun units heq => ?_⟩
        cases heq
        exact hevents.denied fault rfl
  | computeInstance id =>
      have hredirected : Adds (db.limits.openRedirected b id
          { sql := statement.sql, parameters := statement.parameters }) h
          fun answer events => (∀ e ∈ events, e.isLeasing = true) ∧ ∀ lanes, answer = .ok lanes →
            Lane.Hold (·.dataSource) lanes
              (placed ((Destination.computeInstance id).unitsOf statement)) := by
        unfold LaneLimits.openRedirected
        split
        · exact ⟨[], (List.append_nil h).symm, List.forall_mem_nil _, fun _ heq => (nomatch heq)⟩
        · exact (db.limits.openFor_adds b _ _ h).mono fun _ _ hevents =>
            ⟨hevents.leasing, hevents.hold⟩
      refine hredirected.bind ?_ ?_
      · intro lanes events hevents
        exact Lane.enterWith_adds (hstays events hevents.1) lanes
          (hopened events lanes hevents.1 (hevents.2 lanes rfl))
      · exact fun _ _ hevents =>
          ⟨fun _ heq => (nomatch heq), fun _ _ => ⟨hevents.1, fun _ heq => (nomatch heq)⟩⟩

end ShardedSql
