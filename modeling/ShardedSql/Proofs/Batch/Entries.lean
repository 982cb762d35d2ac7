import ShardedSql.Proofs.Batch.Counts

/-!
# Entries of a batch

Units that are added to a batch are collected by data source and text, however many entries they
come from.  No two collected units have the same data source and text, so that looking one up by
value finds the unit itself.  When the batch is run, every unit of every entry is run once, those of
one data source and text in the order in which they were added, and the counts are gathered again by
entry.

Main results:

- Theorem `Batch.nodup_keys_collect`: collected units differ in data source or text.
- Theorem `Batch.filter_calls`: the order in which the units of one data source and text are run.
- Theorem `Batch.execute_entries`: what running the entries of a batch comes to.
-/

namespace ShardedSql

/-! ## Keys of collected units -/

/-- What a collected unit is collected by. -/
def BatchUnit.key (u : BatchUnit) : BatchKey :=
  { dataSource := u.dataSource, sql := u.sql }

/-- The sets of a unit have its key. -/
theorem BatchUnit.key_of_mem_sets {u : BatchUnit} {set : Nat × ExecutionUnit}
    (hset : set ∈ u.sets) : set.2.key = u.key := by
  rcases List.mem_map.mp hset with ⟨_, -, rfl⟩
  rfl

/-- The units of one key are those of the collected unit of that key. -/
theorem BatchUnit.filter_sets (u : BatchUnit) (key : BatchKey) :
    u.sets.filter (·.2.key == key) = if u.key == key then u.sets else [] := by
  split
  · next heq =>
      refine List.filter_eq_self.mpr fun set hset => ?_
      rwa [key_of_mem_sets hset]
  · next hne =>
      refine List.filter_eq_nil_iff.mpr fun set hset => ?_
      rwa [key_of_mem_sets hset]

/-- The sets of one key are those of the units of that key. -/
theorem BatchUnit.filter_flatMap_sets (units : List BatchUnit) (key : BatchKey) :
    (units.flatMap (·.sets)).filter (·.2.key == key) =
      (units.filter (·.key == key)).flatMap (·.sets) := by
  induction units with
  | nil => rfl
  | cons u units ih =>
      rw [List.flatMap_cons, List.filter_append, ih, filter_sets, List.filter_cons]
      split <;> rfl

/-- Of units with different keys at most one has a given key. -/
theorem BatchUnit.filter_eq_of_perm {units units' : List BatchUnit} (hperm : units.Perm units')
    (hkeys : (units'.map (·.key)).Nodup) (key : BatchKey) :
    units.filter (·.key == key) = units'.filter (·.key == key) := by
  have hfiltered := hperm.filter (·.key == key)
  have hnodup : ((units'.filter (·.key == key)).map (·.key)).Nodup :=
    (List.filter_sublist.map _).nodup hkeys
  have hall : ∀ u ∈ units'.filter (·.key == key), u.key = key :=
    fun u hu => beq_iff_eq.mp (List.mem_filter.mp hu).2
  generalize units'.filter (·.key == key) = found at hfiltered hnodup hall
  match found with
  | [] => exact hfiltered.eq_nil
  | [u] => exact List.perm_singleton.mp hfiltered
  | u :: v :: others =>
      rw [List.forall_mem_cons, List.forall_mem_cons] at hall
      simp [hall.1, hall.2.1] at hnodup

namespace Batch

/-- Keys come in the order of their first sets. -/
theorem map_key_collected (sets : List (Nat × ExecutionUnit)) :
    (collected sets).map (·.key) = distinctly (sets.map (·.2.key)) := by
  rw [collected, List.map_map]
  exact List.map_id _

/-- A batch collects the numbered units of its additions. -/
theorem units_collect_empty (additions : List Addition) :
    (empty.collect additions).units = collected (numbered 0 additions) := by
  have hnone : empty.units = collected [] := rfl
  exact units_collect hnone additions

/-- Collected units differ in data source or text. -/
theorem nodup_keys_collect (additions : List Addition) :
    ((empty.collect additions).units.map (·.key)).Nodup := by
  rw [units_collect_empty, map_key_collected]
  exact nodup_distinctly _

/-- A collected unit is found by its data source and its text. -/
theorem find_key {units : List BatchUnit} (hkeys : (units.map (·.key)).Nodup) {u : BatchUnit}
    (hu : u ∈ units) : units.find? (·.key == u.key) = some u := by
  rcases List.append_of_mem hu with ⟨before, after, rfl⟩
  rw [List.map_append, List.map_cons, List.nodup_append] at hkeys
  rw [List.find?_append, List.find?_eq_none.mpr, Option.none_or, List.find?_cons, beq_self_eq_true]
  intro v hv heq
  exact hkeys.2.2 v.key (List.mem_map_of_mem hv) u.key List.mem_cons_self (beq_iff_eq.mp heq)

/-- The collected units of one key, in the order in which they were added. -/
theorem filter_sets_collect (additions : List Addition) (key : BatchKey) :
    (empty.collect additions).sets.filter (·.2.key == key) =
      (numbered 0 additions).filter (·.2.key == key) := by
  rw [sets, units_collect_empty]
  generalize numbered 0 additions = sets
  have hkeys : (collected sets).filter (·.key == key) =
      ((distinctly (sets.map (·.2.key))).filter (· == key)).map (.on fun key =>
        (sets.filter (·.2.key == key)).map fun set => (set.1, set.2.statement.parameters)) := by
    rw [collected, List.filter_map]
    rfl
  rw [BatchUnit.filter_flatMap_sets, hkeys, List.filter_beq]
  by_cases hkey : key ∈ sets.map (·.2.key)
  · rw [List.count_eq_one_of_mem (nodup_distinctly _) (mem_distinctly.mpr hkey),
      List.replicate_one, List.map_singleton, List.flatMap_singleton, sets_on]
  · rw [List.count_eq_zero_of_not_mem (mt mem_distinctly.mp hkey), List.replicate_zero]
    refine (List.filter_eq_nil_iff.mpr fun set hset heq => hkey ?_).symm
    exact List.mem_map.mpr ⟨set, hset, beq_iff_eq.mp heq⟩

/-! ## Order of the calls -/

section

variable {b : Backend} {count : ExecutionUnit → UInt64} (hcount : b.CountsBy count)

include hcount

/-- A set of parameters is run once. -/
theorem updating_set_calls (lane : Lane BatchUnit) (u : BatchUnit) (set : Nat × List Cell)
    (h : History) :
    Adds (do
        let result ← Action.ask b.update (lane.call .update (u.bound set.2))
        return (set.1, result.count) : Attempt (Nat × UInt64)) h fun answer events =>
      (∃ a, answer = .ok a) ∧ events.calls.map (·.unit) = [u.bound set.2] := by
  rcases hcount h (lane.call .update (u.bound set.2)) with ⟨keys, hresult⟩
  have hasked : Adds (Action.ask b.update (lane.call .update (u.bound set.2))) h
      fun answer events => (∃ result, answer = .ok result) ∧
        events.calls.map (·.unit) = [u.bound set.2] :=
    Action.ask_adds ⟨⟨_, hresult⟩, rfl⟩
  refine hasked.bind ?_ ?_
  · rintro result events ⟨-, hevents⟩
    refine .pure ⟨⟨_, rfl⟩, ?_⟩
    rwa [List.append_nil]
  · rintro _ _ ⟨⟨_, ⟨⟩⟩, -⟩

/-- Sets of parameters are run in order. -/
theorem updating_sets_calls (lane : Lane BatchUnit) (u : BatchUnit) (sets : List (Nat × List Cell))
    (h : History) :
    Adds (sets.mapM fun set => do
        let result ← Action.ask b.update (lane.call .update (u.bound set.2))
        return (set.1, result.count) : Attempt (List (Nat × UInt64))) h fun answer events =>
      (∃ a, answer = .ok a) ∧
        events.calls.map (·.unit) = sets.map fun set => u.bound set.2 := by
  induction sets generalizing h with
  | nil => exact .pure ⟨⟨[], rfl⟩, rfl⟩
  | cons set sets ih =>
      rw [List.mapM_cons]
      refine (updating_set_calls hcount lane u set h).bind ?_ ?_
      · rintro first events ⟨-, hfirst⟩
        refine (ih _).bind ?_ ?_
        · rintro others later ⟨-, hothers⟩
          refine .pure ⟨⟨_, rfl⟩, ?_⟩
          rw [List.append_nil, History.calls_append, List.map_append, hfirst, hothers]
          rfl
        · rintro _ _ ⟨⟨_, ⟨⟩⟩, -⟩
      · rintro _ _ ⟨⟨_, ⟨⟩⟩, -⟩

/-- The units that are collected in one place are run in order. -/
theorem updating_calls (lane : Lane BatchUnit) (u : BatchUnit) (h : History) :
    Adds (updating b lane u) h fun _ events =>
      events.calls.map (·.unit) = u.sets.map (·.2) := by
  have hsets := (updating_sets_calls hcount lane u u.parameterSets h).mono
    fun _ _ hevents => hevents.2
  simp only [BatchUnit.sets, List.map_map]
  exact hsets

variable {report : Report} {batch : Batch} {jobs : List (Job BatchUnit (List (Nat × UInt64)))}
  {missed : List (Nat × BatchUnit)} {results : List (List (Nat × UInt64))} {ran : History}

/-- The units of one data source and text are run in the order of the batch. -/
theorem filter_calls
    (hcarries : Carries b report (·.dataSource) (updating b) batch.units jobs missed (.ok results)
      ran)
    (hkeys : (batch.units.map (·.key)).Nodup) (key : BatchKey) :
    (ran.calls.map (·.unit)).filter (·.key == key) =
      (batch.sets.filter (·.2.key == key)).map (·.2) := by
  have hunits : (jobs.map (·.unit)).Perm batch.units := by
    have hentries := hcarries.entries.map (·.2)
    rw [(hcarries.ok results rfl).1, List.append_nil, map_snd_placed, List.map_map] at hentries
    exact hentries
  have hcalls : ran.calls.map (·.unit) = ((jobs.map (·.unit)).flatMap (·.sets)).map (·.2) := by
    rw [History.calls_eq, hcarries.runs, List.map_flatMap, List.map_flatMap, List.flatMap_map,
      List.map_flatMap]
    refine List.flatMap_congr fun job hjob => ?_
    rw [← History.calls_eq]
    exact (hcarries.isOf job hjob).post (updating_calls hcount job.lane job.unit job.before)
  have hfiltered := BatchUnit.filter_eq_of_perm hunits hkeys key
  calc (ran.calls.map (·.unit)).filter (·.key == key)
      = (((jobs.map (·.unit)).flatMap (·.sets)).filter (·.2.key == key)).map (·.2) := by
        rw [hcalls, List.filter_map]
        rfl
    _ = (batch.sets.filter (·.2.key == key)).map (·.2) := by
        rw [BatchUnit.filter_flatMap_sets, hfiltered, ← BatchUnit.filter_flatMap_sets]
        rfl

/-- When a batch has its counts, the units of one data source and text have been run in the order of
the batch. -/
theorem execute_calls (hkeys : (batch.units.map (·.key)).Nodup) (limits : LaneLimits)
    (runner : Runner) (report : Report) (accumulates : Bool) (h : History) :
    Adds (batch.execute limits runner b report accumulates) h fun answer events =>
      batch.size ≠ 0 → ∀ counts, answer = .ok counts → ∀ key,
        (events.calls.map (·.unit)).filter (·.key == key) =
          (batch.sets.filter (·.2.key == key)).map (·.2) := by
  unfold execute
  split
  · next hempty =>
      have hsize : batch.size = 0 := by simpa [isEmpty] using hempty
      exact .pure fun hne => absurd hsize hne
  · refine (limits.openFor_adds b (·.dataSource) batch.units h).bind ?_ ?_
    · intro lanes opening hopening
      have hopened : History.calls opening = [] := by
        rw [History.calls_eq, History.runs_of_isLeasing hopening.leasing]
        rfl
      refine (runner.run_adds b report (updating_works b) (hopening.hold lanes rfl) _).bind ?_ ?_
      · rintro results ran ⟨jobs, missed, hcarries⟩
        refine .pure fun _ _ _ key => ?_
        rw [List.append_nil, History.calls_append, hopened, List.nil_append]
        exact filter_calls hcount hcarries hkeys key
      · exact fun _ _ _ _ _ heq => by cases heq
    · exact fun _ _ _ _ _ heq => by cases heq

end

/-! ## Entries -/

/-- A batch with some entries, each of which is given by its units. -/
def ofEntries (entries : List (List ExecutionUnit)) : Batch :=
  entries.foldl add empty

/-- What running some entries comes to when they have counts. -/
structure RunsEntries (entries : List (List ExecutionUnit)) (count : ExecutionUnit → UInt64)
    (counts : List UInt64) (events : History) : Prop where
  units : (events.calls.map (·.unit)).Perm entries.flatten
  /-- The units of one data source and text are run in the order in which they were added. -/
  inOrder : ∀ key, (events.calls.map (·.unit)).filter (·.key == key) =
    entries.flatten.filter (·.key == key)
  sums : counts = entries.map fun units => (units.map count).foldr (· + ·) 0
  /-- The sum is exact as long as it fits. -/
  exact_sum : ∀ (entry : Nat) (units : List ExecutionUnit), entries[entry]? = some units →
    (units.map fun u => (count u).toNat).foldr (· + ·) 0 < Nat.pow 2 64 →
    counts[entry]?.map (·.toNat) = some ((units.map fun u => (count u).toNat).foldr (· + ·) 0)

section

variable (entries : List (List ExecutionUnit)) (statement : Statement)

/-- Entries are added like the units of statements. -/
theorem ofEntries_eq_collect :
    ofEntries entries = empty.collect (entries.map fun units => ⟨statement, units⟩) := by
  rw [ofEntries, collect, List.foldl_map]

theorem flatMap_units_entries :
    (entries.map fun units => (⟨statement, units⟩ : Addition)).flatMap (·.units) =
      entries.flatten := by
  rw [List.flatMap_map, List.flatten_eq_flatMap]
  rfl

end

/-- A sum of counts is exact as long as it fits. -/
theorem toNat_sum (counts : List UInt64)
    (hfits : (counts.map (·.toNat)).foldr (· + ·) 0 < Nat.pow 2 64) :
    (counts.foldr (· + ·) 0).toNat = (counts.map (·.toNat)).foldr (· + ·) 0 := by
  induction counts with
  | nil => rfl
  | cons count counts ih =>
      simp only [List.map_cons, List.foldr_cons] at hfits ⊢
      rw [UInt64.toNat_add, ih (Nat.lt_of_le_of_lt (Nat.le_add_left _ _) hfits)]
      exact Nat.mod_eq_of_lt hfits

variable {b : Backend} {count : ExecutionUnit → UInt64}

section

variable {entries : List (List ExecutionUnit)} {counts : List UInt64} {events : History}

/-- No entries have no counts. -/
theorem RunsEntries.nil : RunsEntries [] count [] [] :=
  ⟨.refl _, fun _ => rfl, rfl, fun _ _ hunits => by cases hunits⟩

/-- What a run of a batch with some entries has to come to. -/
theorem RunsEntries.of_executes (hcount : b.CountsBy count) (hne : entries ≠ [])
    (hexecutes : (ofEntries entries).Executes b true (.ok counts) events)
    (hcalls : (ofEntries entries).size ≠ 0 → ∀ key,
      (events.calls.map (·.unit)).filter (·.key == key) =
        ((ofEntries entries).sets.filter (·.2.key == key)).map (·.2)) :
    RunsEntries entries count counts events := by
  have hcollect := ofEntries_eq_collect entries { sql := "" }
  have hflat := flatMap_units_entries entries { sql := "" }
  have hsums := entryCounts_collect true
    (entries.map fun units => (⟨{ sql := "" }, units⟩ : Addition)) count
  have hsize : (ofEntries entries).size = entries.length := by
    rw [hcollect, size_collect, size_empty, Nat.zero_add, List.length_map]
  have hsome : (ofEntries entries).size ≠ 0 := by
    rw [hsize]
    exact mt List.length_eq_zero_iff.mp hne
  have hsum : counts = entries.map fun units => (units.map count).foldr (· + ·) 0 := by
    rw [hexecutes.counts count hcount counts rfl, hsize, hcollect]
    rw [List.length_map] at hsums
    rw [hsums, List.map_map]
    refine List.map_congr_left fun units hunits => ?_
    exact reportedCount_perm ((inOrder_perm (List.mem_map_of_mem hunits)).map count)
  refine ⟨?_, fun key => ?_, hsum, fun entry units hunits hfits => ?_⟩
  · rcases hexecutes.serves hsome with ⟨skipped, hserves⟩
    have hunits := hserves.units
    rw [(hserves.ok counts rfl).1, List.append_nil, hcollect] at hunits
    refine hunits.trans ((bounds_collect_perm _ _).trans ?_)
    rw [hflat]
    exact .refl _
  · rw [hcalls hsome key, hcollect, filter_sets_collect, ← hflat, ← map_snd_numbered 0,
      List.filter_map]
    rfl
  · have hfits' := toNat_sum (units.map count)
    rw [List.map_map] at hfits'
    rw [hsum, List.getElem?_map, hunits]
    exact congrArg some (hfits' hfits)

end

/-- When entries have counts, every unit of every entry has been run once, those of one data source
and text in the order in which they were added, and every entry has the sum of the counts of its own
units.  They have counts when all connections are granted and the time is never up.  No two
collected units have the same data source and text, so that looking one up by these finds the unit
itself. -/
theorem execute_entries (entries : List (List ExecutionUnit)) (hcount : b.CountsBy count)
    (limits : LaneLimits) (runner : Runner) (report : Report) (h : History) :
    (∀ u ∈ (ofEntries entries).units,
      (ofEntries entries).units.find? (·.key == u.key) = some u) ∧
    (b.GrantsAll → (∀ h, report.isExpired (b.elapsed h) = false) →
      ∃ counts, ((ofEntries entries).execute limits runner b report true h).1 = .ok counts) ∧
    Adds ((ofEntries entries).execute limits runner b report true) h fun answer events =>
      ∀ counts, answer = .ok counts → RunsEntries entries count counts events := by
  have hcollect := ofEntries_eq_collect entries { sql := "" }
  have hkeys : ((ofEntries entries).units.map (·.key)).Nodup := by
    rw [hcollect]
    exact nodup_keys_collect _
  refine ⟨fun u hu => find_key hkeys hu, fun hgrants htime => ?_, ?_⟩
  · exact (execute_succeeds hgrants htime hcount _ limits runner true h).exists_ok
  · by_cases hne : entries = []
    · subst hne
      refine .pure fun counts hok => ?_
      cases hok
      exact .nil
    · have hexecutes := (execute_adds b (ofEntries entries) limits runner report true h).and
        (execute_calls hcount hkeys limits runner report true h)
      refine hexecutes.mono fun answer events hboth counts hok => ?_
      subst hok
      exact .of_executes hcount hne hboth.1.2 fun hsome => hboth.2 hsome counts rfl

/-- The insertion of an order into a table of a data source. -/
def insertion (dataSource : String) (id : Int64) : ExecutionUnit :=
  { dataSource, statement := { sql := "INSERT INTO t_order VALUES ($1)", parameters := [.int id] } }

/-- Three entries: an order on one data source, an order on two, and nothing. -/
def orderEntries : List (List ExecutionUnit) :=
  [[insertion "ds_0" 1], [insertion "ds_0" 2, insertion "ds_1" 2], []]

/-- Insertions on the second data source count twice. -/
def insertionCount (u : ExecutionUnit) : UInt64 :=
  if u.dataSource = "ds_1" then 2 else 1

/-- The entries have the counts one, three and none. -/
theorem execute_entries_orderEntries :
    (Backend.counting insertionCount).CountsBy insertionCount ∧
      ∃ events, ((ofEntries orderEntries).execute ⟨1, 1000⟩ ⟨2, .failFast⟩
          (.counting insertionCount) ⟨"orders", none⟩ true []) = (.ok [1, 3, 0], events) ∧
        RunsEntries orderEntries insertionCount [1, 3, 0] events := by
  have hcount := Backend.counting_countsBy insertionCount
  have hsteady := Backend.counting_steady insertionCount ⟨"orders", none⟩
  rcases execute_entries orderEntries hcount ⟨1, 1000⟩ ⟨2, .failFast⟩ ⟨"orders", none⟩ [] with
    ⟨-, hanswers, events, hevents, hruns⟩
  rcases hanswers hsteady.grants hsteady.inTime with ⟨counts, hok⟩
  have hentries := hruns counts hok
  have hcounts : counts = [1, 3, 0] := hentries.sums
  subst hcounts
  exact ⟨hcount, events, Prod.ext hok hevents, hentries⟩

end Batch

end ShardedSql
