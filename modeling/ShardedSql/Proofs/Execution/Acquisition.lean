import ShardedSql.Proofs.Execution.Ledger
import ShardedSql.Session

/-!
# Acquired connections

Lanes are opened one connection after the other.  When a connection is not to be had, all those
acquired before it are released, for the data source in question as well as for earlier ones.

Main results:

- Theorem `LaneLimits.openFor_leaves`: opening lanes leaves their connections at hand, or none.
- Theorem `Database.openLanes_leaves`: the same for the lanes of a statement.
-/

namespace ShardedSql

variable {υ : Type}

namespace Lane

/-- The connection of a lane. -/
def lease (lane : Lane υ) : Lease := (lane.dataSource, lane.connection)

/-- The connections of several lanes. -/
def leases (lanes : List (Lane υ)) : List Lease := lanes.map lease

/-- Releasing lanes hands back their connections and no others. -/
theorem releaseAll_balanced (lanes : List (Lane υ)) (rest : List Lease) (h : History) :
    Balanced (leases lanes ++ rest) h (releaseAll lanes h).2 rest := by
  have hreleases := balanced_releases (leases lanes) rest h
  rwa [leases, List.map_map] at hreleases

end Lane

/-! ## Phases -/

namespace Action

/-- A phase is entered, or nothing happens. -/
theorem enter_cases (next : Phase) (h : History) :
    enter next h = (.ok (), h ++ [.entered next]) ∨ ∃ e, enter next h = (.error e, h) := by
  unfold enter Phase.move
  by_cases hmove : h.phase.canMove next
  · left
    rw [if_pos hmove]
  · right
    rw [if_neg hmove]
    exact ⟨_, rfl⟩

/-- Entering a phase keeps all connections at hand. -/
theorem enter_leaves (next : Phase) (h : History) (atHand : List Lease) :
    (enter next).Leaves h atHand (fun _ => atHand) atHand := by
  unfold Leaves
  rcases enter_cases next h with hnext | ⟨e, he⟩
  · rw [hnext]
    exact balanced_concat rfl atHand h
  · rw [he]
    exact .refl atHand h

/-- The phase that has been entered is the phase. -/
theorem phase_of_enter {next : Phase} {h h' : History} (heq : enter next h = (.ok (), h')) :
    h'.phase = next := by
  rcases enter_cases next h with hnext | ⟨e, he⟩
  · rw [heq] at hnext
    cases hnext
    rw [History.phase_append_singleton]
    rfl
  · rw [heq] at he
    cases he

/-- From the prepared phase the execution begins. -/
theorem enter_executing {h : History} (hphase : h.phase = .prepared) :
    enter .executing h = (.ok (), h ++ [.entered .executing]) := by
  unfold enter
  rw [hphase]
  rfl

end Action

/-- Open lanes are kept when the phase is entered, and released otherwise. -/
theorem Lane.enterWith_leaves (next : Phase) (lanes : List (Lane υ)) (h : History) :
    (Lane.enterWith next lanes).Leaves h (leases lanes) leases [] := by
  refine Action.Leaves.bind ((Action.enter_leaves next h (leases lanes)).onFault ?_) ?_
  · intro h'
    have hreleased := Lane.releaseAll_balanced lanes [] h'
    rwa [List.append_nil] at hreleased
  · intro _ h' _
    exact .pure lanes h' []

/-! ## Lanes -/

/-- A connection that is acquired is at hand. -/
theorem Backend.acquireWithin_leaves (b : Backend) (wait : Nat) (dataSource : String)
    (h : History) :
    (b.acquireWithin wait dataSource).Leaves h [] (fun c => [(dataSource, c)]) [] := by
  unfold Action.Leaves Backend.acquireWithin
  cases b.acquire h dataSource with
  | granted connection => exact ⟨_, rfl, .refl _⟩
  | refused reason => exact balanced_concat rfl [] h
  | silent => exact balanced_concat rfl [] h

namespace LaneLimits

variable (limits : LaneLimits) (b : Backend)

/-- Connections are at hand when all have been acquired; otherwise none is left. -/
theorem acquire_leaves (dataSource : String) (n : Nat) (atHand : List ConnectionId) (h : History) :
    (limits.acquire b dataSource n atHand).Leaves h (atHand.map (dataSource, ·))
      (fun connections => connections.map (dataSource, ·)) [] := by
  induction n generalizing atHand h with
  | zero => exact .pure atHand h []
  | succ n ih =>
      have hone := (b.acquireWithin_leaves limits.wait dataSource h).frame
        (atHand.map (dataSource, ·))
      refine Action.Leaves.bind (hone.onFault ?_) ?_
      · intro h'
        have hreleases := balanced_releases (atHand.map (dataSource, ·)) [] h'
        rw [List.map_map, List.append_nil] at hreleases
        exact hreleases
      · intro connection h' _
        refine (ih (atHand ++ [connection]) h').perm_left ?_
        rw [List.map_append]
        exact List.perm_append_comm

/-- As many connections are acquired as are asked for. -/
theorem length_of_acquire {dataSource : String} {n : Nat} {atHand connections : List ConnectionId}
    {h h' : History} (hok : limits.acquire b dataSource n atHand h = (.ok connections, h')) :
    connections.length = atHand.length + n := by
  induction n generalizing atHand h with
  | zero =>
      cases hok
      rfl
  | succ n ih =>
      rcases Action.bind_eq_ok.mp hok with ⟨connection, h'', -, hrest⟩
      rw [ih hrest, List.length_append, List.length_singleton]
      omega

/-- The lanes that are dealt out hold the connections. -/
theorem leases_zip (dataSource : String) (mode : ConnectionMode)
    {connections : List ConnectionId} {hands : List (List (Nat × υ))}
    (hlength : connections.length = hands.length) :
    Lane.leases ((connections.zip hands).map fun (connection, units) =>
      ({ dataSource, connection, mode, units } : Lane υ)) = connections.map (dataSource, ·) := by
  have hfst : (connections.zip hands).map (·.1) = connections :=
    List.map_fst_zip (Nat.le_of_eq hlength)
  conv => rhs; rw [← hfst]
  rw [Lane.leases, List.map_map, List.map_map]
  rfl

/-- The lanes on one data source hold their connections, or none is left. -/
theorem openOn_leaves (dataSource : String) (entries : List (Nat × υ)) (h : History) :
    (limits.openOn b dataSource entries).Leaves h [] Lane.leases [] := by
  refine Action.Leaves.bind (limits.acquire_leaves b dataSource _ [] h) ?_
  intro connections h' hacquired
  have hlength : connections.length = (deal (limits.plan entries.length).1 entries).length := by
    rw [deal, List.length_map, List.length_range, limits.length_of_acquire b hacquired]
    exact Nat.zero_add _
  rw [← leases_zip dataSource (limits.plan entries.length).2 hlength]
  exact .pure _ h' []

/-- So do the lanes on several data sources. -/
theorem openEach_leaves (groups : List (String × List (Nat × υ))) (opened : List (Lane υ))
    (h : History) :
    (limits.openEach b groups opened).Leaves h (Lane.leases opened) Lane.leases [] := by
  induction groups generalizing opened h with
  | nil => exact .pure opened h []
  | cons group groups ih =>
      have hone := (limits.openOn_leaves b group.1 group.2 h).frame (Lane.leases opened)
      refine Action.Leaves.bind (hone.onFault ?_) ?_
      · intro h'
        have hreleased := Lane.releaseAll_balanced opened [] h'
        rwa [List.append_nil] at hreleased
      · intro lanes h' _
        refine (ih (opened ++ lanes) h').perm_left ?_
        rw [Lane.leases, Lane.leases, Lane.leases, List.map_append]
        exact List.perm_append_comm

/-- So do the lanes of a list of units. -/
theorem openFor_leaves (dataSource : υ → String) (units : List υ) (h : History) :
    (limits.openFor b dataSource units).Leaves h [] Lane.leases [] :=
  limits.openEach_leaves b _ [] h

/-- So does the lane of a redirected statement. -/
theorem openRedirected_leaves (instanceId : String) (statement : BoundSql) (h : History) :
    (limits.openRedirected b instanceId statement).Leaves h [] Lane.leases [] := by
  unfold openRedirected
  split
  · exact .refl [] h
  · exact limits.openFor_leaves b _ _ h

end LaneLimits

/-! ## Lanes of statements -/

namespace Database

variable (db : Database) (b : Backend) (statement : Statement) (destination : Destination)

/-- So do the lanes of a statement, wherever it goes. -/
theorem openLanes_leaves (h : History) :
    (db.openLanes b statement destination).Leaves h [] Lane.leases [] := by
  cases destination with
  | computeInstance id =>
      exact (db.limits.openRedirected_leaves b id _ h).bind fun lanes h' _ =>
        Lane.enterWith_leaves .prepared lanes h'
  | units us =>
      exact (db.limits.openFor_leaves b _ us h).bind fun lanes h' _ =>
        Lane.enterWith_leaves .prepared lanes h'

/-- Lanes are opened in the prepared phase. -/
theorem phase_of_openLanes {h h' : History} {lanes : List (Lane ExecutionUnit)}
    (hok : db.openLanes b statement destination h = (.ok lanes, h')) : h'.phase = .prepared := by
  have hentered : ∃ opened h₁, Lane.enterWith .prepared opened h₁ = (.ok lanes, h') := by
    cases destination with
    | computeInstance id | units us =>
        rcases Action.bind_eq_ok.mp hok with ⟨opened, h₁, -, hentered⟩
        exact ⟨opened, h₁, hentered⟩
  rcases hentered with ⟨opened, h₁, hentered⟩
  rcases Action.bind_eq_ok.mp hentered with ⟨_, h₂, hphase, hreturned⟩
  cases hreturned
  exact Action.phase_of_enter (Action.onFault_eq_ok.mp hphase)

end Database

end ShardedSql
