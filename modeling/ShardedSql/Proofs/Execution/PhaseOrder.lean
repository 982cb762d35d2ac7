import ShardedSql.Proofs.Adaptation.Faults
import ShardedSql.Proofs.Execution.Executed
import ShardedSql.Proofs.Merge.Faults
import ShardedSql.Proofs.Route.Faults

/-!
# Order of phases

A statement goes through its phases in a fixed order, from which only a failure departs.  A
statement that is not routed stays idle, and nothing is done for it.  No phase is entered out of
order, so that an illegal state is never reported, unless the adapter or a result of the backend
makes one up.

Main results:

- Theorem `Database.query_proceeds` and `Database.update_proceeds`: the phases of routed statements.
- Theorem `Session.request_followsPhases`: the phases of statements.
- Theorem `Session.orderly`: requests for rows and for update counts go through their phases and
  never report an illegal state.
-/

namespace ShardedSql

variable {α : Type}

/-! ## Phases in order -/

/-- The phases of a statement in order; only results that are asked for as rows are merged. -/
def Phase.sequence : Purpose → List Phase
  | .query => [.idle, .routed, .prepared, .executing, .merging, .done]
  | .update => [.idle, .routed, .prepared, .executing, .done]

/-- The phases of a routed statement that are still to come. -/
def Phase.remaining (purpose : Purpose) : List Phase :=
  (sequence purpose).drop 2

/-- The phases that a statement goes through. -/
inductive Phase.Follows (purpose : Purpose) : List Phase → Prop
  | whole : Follows purpose (sequence purpose)
  | unrouted : Follows purpose [.idle]
  /-- The first phases, at least two of them, and then the failure. -/
  | cut {n : Nat} (hrouted : 2 ≤ n) (hcut : n < (sequence purpose).length) :
      Follows purpose ((sequence purpose).take n ++ [.failed])

/-- Only a statement that has not been routed ends in the idle phase. -/
theorem Phase.Follows.eq_of_idle {purpose : Purpose} {phases : List Phase} {phase : Phase}
    (hfollows : Follows purpose phases) (hidle : phases.getLast?.getD phase = .idle) :
    phases = [.idle] := by
  cases hfollows with
  | whole => cases purpose <;> cases hidle
  | unrouted => rfl
  | cut _ _ =>
      rw [List.getLast?_concat] at hidle
      cases hidle

namespace History

/-- The phases that are entered, in order. -/
def phases (events : History) : List Phase :=
  events.filterMap fun
    | .entered phase => some phase
    | _ => none

/-- Phases are kept in the order of events. -/
@[simp]
theorem phases_append (events later : History) :
    phases (events ++ later) = phases events ++ phases later :=
  List.filterMap_append ..

/-- Work enters no phase. -/
theorem phases_of_isWork {events : History} (hevents : ∀ e ∈ events, e.isWork = true) :
    phases events = [] := by
  refine List.filterMap_eq_nil_iff.mpr fun e he => ?_
  cases e with
  | entered _ => cases hevents _ he
  | acquired _ _ | denied _ | released _ _ | ran _ _ | controlled _ _ | warned _ => rfl

/-- Events lead to the phase that is entered last. -/
theorem phaseFrom_eq (phase : Phase) (events : History) :
    phaseFrom phase events = (phases events).getLast?.getD phase := by
  induction events generalizing phase with
  | nil => rfl
  | cons e events ih =>
      rw [phaseFrom_cons, ih]
      cases e with
      | entered next =>
          show _ = (next :: phases events).getLast?.getD phase
          rw [List.getLast?_cons, Option.getD_some]
          rfl
      | acquired _ _ | denied _ | released _ _ | ran _ _ | controlled _ _ | warned _ => rfl

end History

/-- Work goes through some phases: all of them if it has an answer, and otherwise the first ones,
with a fault of some kind. -/
structure Proceeds (rest : List Phase) (kind : Fault → Prop) (answer : Except Fault α)
    (events : History) : Prop where
  ok : ∀ a, answer = .ok a → events.phases = rest
  error : ∀ fault, answer = .error fault → kind fault ∧ ∃ n, events.phases = rest.take n

theorem proceeds_ok {rest : List Phase} {kind : Fault → Prop} {a : α} {events : History}
    (hphases : events.phases = rest) : Proceeds rest kind (.ok a) events :=
  ⟨fun _ _ => hphases, fun _ heq => (nomatch heq)⟩

/-- With a fault some first phases have been gone through. -/
theorem proceeds_error {rest : List Phase} {kind : Fault → Prop} {fault : Fault} {events : History}
    (hfault : kind fault) {n : Nat} (hphases : events.phases = rest.take n) :
    Proceeds rest kind (.error fault : Except Fault α) events := by
  refine ⟨fun _ heq => (nomatch heq), fun _ heq => ?_⟩
  cases heq
  exact ⟨hfault, n, hphases⟩

/-- Faults of one kind are faults of any kind that includes it. -/
theorem Proceeds.mono {rest : List Phase} {kind kind' : Fault → Prop} {answer : Except Fault α}
    {events : History} (hproceeds : Proceeds rest kind answer events)
    (himp : ∀ fault, kind fault → kind' fault) : Proceeds rest kind' answer events :=
  ⟨hproceeds.ok, fun fault hfault => (hproceeds.error fault hfault).imp_left (himp fault)⟩

/-- A routed statement that fails before its last phase is marked as failed. -/
theorem Phase.follows_of_proceeds {purpose : Purpose} {kind : Fault → Prop}
    {answer : Except Fault α} {events : History}
    (hproceeds : Proceeds (remaining purpose) kind answer events) :
    Follows purpose ([.idle, .routed] ++ events.phases ++
      (marked answer (History.phaseFrom .routed events)).phases) := by
  have hsequence : [.idle, .routed] ++ remaining purpose = sequence purpose := by
    cases purpose <;> rfl
  have hcanFail : ∀ n < (remaining purpose).length,
      (((remaining purpose).take n).getLast?.getD .routed).canMove .failed = true := by
    cases purpose <;> decide
  have hdone : ((remaining purpose).getLast?.getD .routed).canMove .failed = false := by
    cases purpose <;> rfl
  rw [History.phaseFrom_eq]
  cases answer with
  | ok a =>
      rw [hproceeds.ok a rfl, hsequence]
      exact (List.append_nil (sequence purpose)).symm ▸ .whole
  | error fault =>
      rcases (hproceeds.error fault rfl).2 with ⟨n, hn⟩
      rw [hn]
      rcases Nat.lt_or_ge n (remaining purpose).length with hlt | hge
      · have hmarked : marked (.error fault : Except Fault α)
            (((remaining purpose).take n).getLast?.getD .routed) = [.entered .failed] :=
          if_pos (hcanFail n hlt)
        have htake : [.idle, .routed] ++ (remaining purpose).take n =
            (sequence purpose).take (n + 2) := by
          rw [← hsequence]
          rfl
        have hlength : (sequence purpose).length = (remaining purpose).length + 2 := by
          rw [← hsequence]
          rfl
        rw [hmarked, htake]
        exact .cut (Nat.le_add_left 2 n) (by omega)
      · -- The statement was done before the fault arose.
        have hmarked : marked (.error fault : Except Fault α)
            ((remaining purpose).getLast?.getD .routed) = [] := by
          simp only [marked, hdone]
          rfl
        rw [List.take_of_length_le hge, hmarked, hsequence]
        exact (List.append_nil (sequence purpose)).symm ▸ .whole

/-! ## Kinds of faults -/

/-- Nothing that goes wrong in a step of a statement is an illegal state. -/
theorem Fault.isIllegal_eq_false {fault : Fault}
    (h : fault.isRouting ∨ fault.isAdaptation ∨ fault.isExecution ∨ fault.isMerging) :
    fault.isIllegal = false := by
  cases fault with
  | illegalState _ => rcases h with h | h | h | h <;> cases h
  | _ => rfl

/-- The adapter of a logical database reports a fault. -/
def Database.AdapterReports (db : Database) (statement : Statement) (fault : Fault) : Prop :=
  ∃ u widened, db.adapt statement u widened = .error fault

/-- A result of a backend reports a fault when it is read. -/
def Backend.ResultReports (b : Backend) (fault : Fault) : Prop :=
  ∃ h call result, b.query h call = .ok result ∧ some fault ∈ result.interruptions

/-- An adapter that uses a library reports no illegal state. -/
theorem Database.not_adapterReports_illegalState {db : Database} {L : Sql.Library}
    (hadapt : db.adapt = adapterFor L) (statement : Statement) (detail : String) :
    ¬ db.AdapterReports statement (.illegalState detail) := by
  rintro ⟨u, widened, hreport⟩
  rw [hadapt] at hreport
  cases adapterFor_failsOnly L statement u widened _ hreport

/-- Only faults that are no illegal state, and those that are reported from outside. -/
def LawfulOr (reported : Fault → Prop) (fault : Fault) : Prop :=
  fault.isIllegal = true → reported fault

/-- A fault that is no illegal state is lawful. -/
theorem lawfulOr_of_eq_false {reported : Fault → Prop} {fault : Fault}
    (h : fault.isIllegal = false) : LawfulOr reported fault :=
  fun htrue => nomatch h.symm.trans htrue

/-- Routing reports no illegal state, unless the adapter does. -/
theorem Session.route_failsOnly (db : Database) (inTransaction : Bool) (statement : Statement)
    (s : Session) :
    FailsOnly (LawfulOr (db.AdapterReports statement)) (s.route db inTransaction statement).1 := by
  have hrouting : ∀ fault, fault.isRouting = true →
      LawfulOr (db.AdapterReports statement) fault :=
    fun _ h => lawfulOr_of_eq_false (Fault.isIllegal_eq_false (.inl h))
  have hunits : ∀ route widened, FailsOnly (LawfulOr (db.AdapterReports statement))
      (unitsOfRoute db.adapt statement route widened) := by
    intro route widened
    refine FailsOnly.foldlM (fun u _ units => FailsOnly.bind ?_ fun _ => failsOnly_ok _) []
    exact fun fault heq _ => ⟨u, widened, heq⟩
  have hbuild : ∀ route, FailsOnly (LawfulOr (db.AdapterReports statement))
      (buildUnits db.adapt statement route) := by
    intro route
    unfold buildUnits
    split
    · exact failsOnly_error (lawfulOr_of_eq_false rfl)
    · refine (hunits route false).bind fun units => ?_
      split
      · exact hunits route true
      · exact failsOnly_ok _
  have hplaced : Balancing.FailsOnly (LawfulOr (db.AdapterReports statement))
      (db.unitsFor statement inTransaction) := by
    refine Balancing.FailsOnly.bind (fun turns => ?_) fun route =>
      Balancing.failsOnly_ofExcept (hbuild route)
    exact (db.rules.route_failsOnly statement inTransaction turns).mono hrouting
  unfold route
  dsimp only
  split
  · rename_i fault turns htraffic
    have hfault := db.traffic.route_failsOnly statement
      (if inTransaction then s.keptInstance else none) s.trafficTurns
    rw [htraffic] at hfault
    exact failsOnly_error (hrouting fault (hfault fault rfl))
  · exact failsOnly_ok _
  · exact (hplaced s.routeTurns).map _

/-! ## Routed statements -/

/-- What is true of everything that a unit comes to is true of the results. -/
theorem Carries.forall_results {υ : Type} {b : Backend} {report : Report} {dataSource : υ → String}
    {work : UnitWork υ α} {units : List υ} {jobs : List (Job υ α)} {missed : List (Nat × υ)}
    {results : List α} {events : History} {P : α → Prop}
    (hcarries : Carries b report dataSource work units jobs missed (.ok results) events)
    (hwork : ∀ lane u h, Adds (work lane u) h fun answer _ => ∀ a, answer = .ok a → P a) :
    ∀ a ∈ results, P a := by
  have hall : results.map P = units.map fun _ => True :=
    hcarries.map_results fun lane u h =>
      (hwork lane u h).mono fun _ _ hanswer a ha => eq_true (hanswer a ha)
  intro a ha
  have hmem : P a ∈ units.map fun _ => True := hall ▸ List.mem_map_of_mem ha
  rcases List.mem_map.mp hmem with ⟨-, -, heq⟩
  exact heq ▸ trivial

/-- The phases of executing the units of a routed statement, and where its results come from. -/
theorem Database.executed_proceeds (db : Database) (b : Backend) (statement : Statement)
    (destination : Destination) (purpose : Purpose)
    (answerTo : History → Call → Except String α) {h : History} (hphase : h.phase = .routed) :
    Adds (db.executed b statement destination (.asking purpose answerTo)) h fun answer events =>
      Proceeds [.prepared, .executing] (fun fault => fault.isExecution = true) answer events ∧
      ∀ results, answer = .ok results →
        ∀ result ∈ results, ∃ h' call, answerTo h' call = .ok result := by
  refine (db.executed_cases b statement destination purpose answerTo hphase).mono ?_
  rintro answer events (@⟨_, _, _, leases, run, hleases, hcarries⟩ | ⟨hfault, hleases⟩)
  · have hphases : History.phases (leases ++ .entered .prepared :: .entered .executing :: run) =
        [.prepared, .executing] := by
      rw [History.phases_append,
        History.phases_of_isWork fun e he => Event.isWork_of_isLeasing (hleases e he)]
      exact congrArg ([Phase.prepared, .executing] ++ ·) (History.phases_of_isWork hcarries.isWork)
    refine ⟨⟨fun _ _ => hphases, fun fault hfault => ⟨?_, 2, hphases⟩⟩, ?_⟩
    · cases hcarries.error fault hfault with
      | one hblamed => cases hblamed <;> rfl
      | several => rfl
    · rintro results rfl
      refine hcarries.forall_results fun lane u h' => Action.ask_adds fun a ha => ?_
      exact ⟨h', lane.call purpose u, ha⟩
  · refine ⟨proceeds_error (n := 0) hfault ?_, fun _ heq => (nomatch heq)⟩
    exact History.phases_of_isWork fun e he => Event.isWork_of_isLeasing (hleases e he)

/-- The phases of a routed request for rows. -/
theorem Database.query_proceeds (db : Database) (b : Backend) (statement : Statement)
    (destination : Destination) {h : History} (hphase : h.phase = .routed) :
    Adds (db.query b statement destination) h
      (Proceeds (Phase.remaining .query) (LawfulOr b.ResultReports)) := by
  rw [query_eq]
  refine (db.executed_proceeds b statement destination .query b.query hphase).bind ?_ ?_
  · rintro results events ⟨hevents, hdelivered⟩
    have hphases := hevents.ok results rfl
    have hexecuting : (h ++ events).phase = .executing := by
      rw [History.phase_append, History.phaseFrom_eq, hphases]
      rfl
    refine Action.enter_bind_adds (by rw [hexecuting]; rfl) ?_
    refine Action.ofExcept_bind_adds (fun merged _ => ?_) fun fault hmerge => ?_
    · refine Action.enter_bind_adds (by rw [History.phase_append_singleton]; rfl) (.pure ?_)
      refine proceeds_ok ?_
      rw [History.phases_append, hphases]
      rfl
    · refine proceeds_error (n := 3) ?_ ?_
      · intro hillegal
        rcases db.merger.merge_failsOnly results statement fault hmerge with
          hmerging | ⟨result, hresult, hmem⟩
        · cases hillegal.symm.trans (Fault.isIllegal_eq_false (.inr (.inr (.inr hmerging))))
        · rcases hdelivered results rfl result hresult with ⟨h', call, hanswer⟩
          exact ⟨h', call, result, hanswer, hmem⟩
      · rw [History.phases_append, hphases]
        rfl
  · rintro fault events ⟨hevents, -⟩
    rcases hevents.error fault rfl with ⟨hfault, n, hphases⟩
    refine proceeds_error (n := min n 2)
      (lawfulOr_of_eq_false (Fault.isIllegal_eq_false (.inr (.inr (.inl hfault))))) ?_
    rw [hphases, ← List.take_take]
    rfl

/-- The phases of a routed request for an update count. -/
theorem Database.update_proceeds (db : Database) (b : Backend) (statement : Statement)
    (destination : Destination) {h : History} (hphase : h.phase = .routed) :
    Adds (db.update b statement destination) h
      (Proceeds (Phase.remaining .update) fun fault => fault.isIllegal = false) := by
  rw [update_eq]
  refine (db.executed_proceeds b statement destination .update b.update hphase).bind ?_ ?_
  · rintro results events ⟨hevents, -⟩
    have hphases := hevents.ok results rfl
    have hexecuting : (h ++ events).phase = .executing := by
      rw [History.phase_append, History.phaseFrom_eq, hphases]
      rfl
    refine Action.enter_bind_adds (by rw [hexecuting]; rfl) (.pure (proceeds_ok ?_))
    rw [History.phases_append, hphases]
    rfl
  · rintro fault events ⟨hevents, -⟩
    rcases hevents.error fault rfl with ⟨hfault, n, hphases⟩
    refine proceeds_error (n := min n 2) (Fault.isIllegal_eq_false (.inr (.inr (.inl hfault)))) ?_
    rw [hphases, ← List.take_take]
    rfl

/-! ## Transactions -/

/-- Rolling back enters no phase. -/
theorem RollsBack.phases_eq {fault : Fault} {ending : History} (hending : RollsBack fault ending) :
    History.phases ending = [] := by
  cases hending <;> rfl

/-- A transaction does not change the phases of the work that is done in it. -/
theorem Transacts.proceeds {rest : List Phase} {kind : Fault → Prop} {answer : Except Fault α}
    {events : History} (htransacts : Transacts (Proceeds rest kind) answer events)
    (hkind : ∀ cause, kind (.transaction cause)) : Proceeds rest kind answer events := by
  cases htransacts with
  | notStarted => exact proceeds_error (n := 0) (hkind _) rfl
  | started hends =>
      cases hends with
      | @committed a own hwork =>
          refine proceeds_ok ?_
          show History.phases (own ++ [.controlled .commit none]) = rest
          rw [History.phases_append, hwork.ok a rfl]
          exact List.append_nil rest
      | @notCommitted a own ending reason hwork hending =>
          refine proceeds_error (n := rest.length) (hkind _) ?_
          show History.phases (own ++ .controlled .commit (some reason) :: ending) = _
          rw [History.phases_append, hwork.ok a rfl, List.take_length]
          exact (congrArg (rest ++ ·) hending.phases_eq).trans (List.append_nil rest)
      | @failed fault own ending hwork hending =>
          rcases hwork.error fault rfl with ⟨hfault, n, hphases⟩
          refine proceeds_error (n := n) hfault ?_
          show History.phases (own ++ ending) = rest.take n
          rw [History.phases_append, hphases, hending.phases_eq, List.append_nil]

/-- The work for an update count goes through the phases, also in a transaction of its own. -/
theorem Database.write_proceeds (db : Database) (b : Backend) (statement : Statement)
    (destination : Destination) {h : History} (hphase : h.phase = .routed) :
    Adds (db.write b statement.kind destination.dataSources (db.update b statement destination)) h
      (Proceeds (Phase.remaining .update) (LawfulOr fun _ => False)) := by
  have hlawful : ∀ fault, fault.isIllegal = false → LawfulOr (fun _ => False) fault :=
    fun fault => lawfulOr_of_eq_false
  refine (db.write_adds b statement.kind destination.dataSources fun h' hsame =>
    db.update_proceeds b statement destination (hsame.trans hphase)).mono ?_
  intro answer events hanswer
  split at hanswer
  · exact (hanswer.proceeds fun _ => rfl).mono hlawful
  · exact hanswer.mono hlawful

/-! ## Statements -/

/-- A statement goes through its phases in order, and stays idle only if nothing is done for it. -/
def Reply.FollowsPhases (r : Reply α) (purpose : Purpose) (h : History) : Prop :=
  ∃ events, r.history = h ++ events ∧ Phase.Follows purpose events.phases ∧
    (r.history.phase = .idle → ∀ e ∈ events, e.isWork = false)

/-- A statement goes through its phases, none of which is entered out of order. -/
structure Reply.Orderly (r : Reply α) (purpose : Purpose) (h : History) : Prop where
  followsPhases : r.FollowsPhases purpose h
  lawful : ∀ detail, r.answer ≠ .error (.illegalState detail)

namespace Session

variable {db : Database} {b : Backend} {statement : Statement} {s : Session} {h : History}

section Request

variable {work : Destination → Action α} {purpose : Purpose} {kind : Fault → Prop}

/-- A statement goes through its phases when the work for it does. -/
theorem request_followsPhases
    (hwork : ∀ destination h', h'.phase = .routed →
      Adds (work destination) h' (Proceeds (Phase.remaining purpose) kind)) :
    (request db b statement work s h).FollowsPhases purpose h := by
  cases hroute : (s.route db (b.inTransaction (h ++ [.entered .idle])) statement).1 with
  | error fault =>
      rcases request_of_error work hroute with ⟨-, hhistory⟩
      exact ⟨_, hhistory, .unrouted, fun _ => List.forall_mem_singleton.mpr rfl⟩
  | ok destination =>
      rcases request_of_ok work hroute (hwork destination _ (phase_routed h)) with
        ⟨events, hevents, hhistory⟩
      have hsplit : (request db b statement work s h).history =
          h ++ ([.entered .idle, .entered .routed] ++ events ++
            marked (request db b statement work s h).answer (History.phaseFrom .routed events)) :=
        hhistory.trans (by simp only [List.append_assoc])
      have hfollows : Phase.Follows purpose (History.phases
          ([.entered .idle, .entered .routed] ++ events ++
            marked (request db b statement work s h).answer
              (History.phaseFrom .routed events))) := by
        rw [History.phases_append, History.phases_append]
        exact Phase.follows_of_proceeds hevents
      refine ⟨_, hsplit, hfollows, fun hidle => ?_⟩
      rw [hsplit, History.phase_append, History.phaseFrom_eq] at hidle
      cases hfollows.eq_of_idle hidle

/-- A statement reports an illegal state only if its adapter or its work does. -/
theorem reported_of_request
    (hwork : ∀ destination h', h'.phase = .routed →
      Adds (work destination) h' (Proceeds (Phase.remaining purpose) (LawfulOr kind)))
    {detail : String}
    (hanswer : (request db b statement work s h).answer = .error (.illegalState detail)) :
    db.AdapterReports statement (.illegalState detail) ∨ kind (.illegalState detail) := by
  cases hroute : (s.route db (b.inTransaction (h ++ [.entered .idle])) statement).1 with
  | error fault =>
      rcases request_of_error work hroute with ⟨hfault, -⟩
      cases hfault.symm.trans hanswer
      exact .inl (route_failsOnly db _ statement s _ hroute rfl)
  | ok destination =>
      rcases request_of_ok work hroute (hwork destination _ (phase_routed h)) with
        ⟨events, hevents, -⟩
      exact .inr ((hevents.error _ hanswer).1 rfl)

end Request

/-- Requests for rows and for update counts go through the phases in their order, from which only a
failure departs, and nothing is done for one that stays idle. -/
theorem followsPhases (db : Database) (b : Backend) (statement : Statement) (s : Session)
    (h : History) :
    (s.query db b statement h).FollowsPhases .query h ∧
      (s.update db b statement h).FollowsPhases .update h :=
  ⟨request_followsPhases fun destination _ => db.query_proceeds b statement destination,
    request_followsPhases fun destination _ => db.write_proceeds b statement destination⟩

/-- Where neither the adapter nor a result of the backend makes up an illegal state, requests for
rows and for update counts go through the phases in their order and never report one. -/
theorem orderly
    (hadapter : ∀ detail, ¬ db.AdapterReports statement (.illegalState detail))
    (hresults : ∀ detail, ¬ b.ResultReports (.illegalState detail)) (s : Session) (h : History) :
    (s.query db b statement h).Orderly .query h ∧
      (s.update db b statement h).Orderly .update h := by
  rcases followsPhases db b statement s h with ⟨hquery, hupdate⟩
  refine ⟨⟨hquery, fun detail hanswer => ?_⟩, ⟨hupdate, fun detail hanswer => ?_⟩⟩
  · rcases reported_of_request (fun destination _ => db.query_proceeds b statement destination)
      hanswer with hreports | hreports
    · exact hadapter detail hreports
    · exact hresults detail hreports
  · rcases reported_of_request (fun destination _ => db.write_proceeds b statement destination)
      hanswer with hreports | hfalse
    · exact hadapter detail hreports
    · exact hfalse

/-- A statement that asks for all orders. -/
def allOrders : Statement :=
  { sql := "SELECT id, name FROM t_order", tables := ["t_order"] }

/-- The orders of both data sources are merged, and all phases are gone through. -/
theorem orderly_allOrders :
    (∀ detail, ¬ orderDatabase.AdapterReports allOrders (.illegalState detail)) ∧
    (∀ detail, ¬ Backend.listing.ResultReports (.illegalState detail)) ∧
    (Session.query orderDatabase .listing allOrders {} []).Orderly .query [] ∧
    (Session.update orderDatabase .listing allOrders {} []).Orderly .update [] ∧
    (Session.query orderDatabase .listing allOrders {} []).history.phases =
      Phase.sequence .query := by
  have hadapter : ∀ detail, ¬ orderDatabase.AdapterReports allOrders (.illegalState detail) :=
    Database.not_adapterReports_illegalState rfl allOrders
  have hresults : ∀ detail, ¬ Backend.listing.ResultReports (.illegalState detail) := by
    rintro detail ⟨h, call, result, hanswer, hreported⟩
    cases hanswer
    cases hreported
  rcases orderly hadapter hresults {} [] with ⟨hquery, hupdate⟩
  exact ⟨hadapter, hresults, hquery, hupdate, by decide +kernel⟩

end Session

end ShardedSql
