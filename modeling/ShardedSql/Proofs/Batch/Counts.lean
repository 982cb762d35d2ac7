import ShardedSql.Proofs.Batch.Runs

/-!
# Update counts of batches

An entry of a batch is expected to have the update count that its statement has by itself.  A batch
decides for all of its entries alike, by the statement added last, whether counts are summed;
otherwise it reports the count of the unit that comes first in the batch.  So the counts agree
exactly when every statement is decided like the last one and, where counts are not summed, its own
first unit comes first in the batch.

Main results:

- Theorem `Session.update_count`: the update count that a statement has by itself.
- Theorem `Session.executeBatch_counts`: the update counts of a batch.
- Theorem `Session.executeBatch_counts_iff`: when the two agree.
-/

namespace ShardedSql

/-! ## Reported counts -/

/-- A sum does not depend on the order of the counts. -/
theorem reportedCount_perm {counts counts' : List UInt64} (hperm : counts.Perm counts') :
    reportedCount true counts = reportedCount true counts' := by
  unfold reportedCount
  exact hperm.foldr_op_eq

/-- The count of at most one unit is reported whether or not counts are summed. -/
theorem reportedCount_of_length_le_one {counts : List UInt64} (hlength : counts.length ≤ 1)
    (accumulates : Bool) : reportedCount accumulates counts = reportedCount true counts := by
  cases accumulates with
  | true => rfl
  | false =>
      match counts, hlength with
      | [], _ => rfl
      | [count], _ => simp [reportedCount]

/-- The sum of ones is their number. -/
theorem reportedCount_one {α : Type} (xs : List α) :
    reportedCount true (xs.map fun _ => 1) = UInt64.ofNat xs.length := by
  induction xs with
  | nil => rfl
  | cons x xs ih =>
      have hsum : reportedCount true ((x :: xs).map fun _ => 1) =
          1 + reportedCount true (xs.map fun _ => 1) := rfl
      rw [hsum, ih, List.length_cons, Nat.add_comm, UInt64.ofNat_add]
      rfl

/-- A count that is not a sum is that of the first unit. -/
theorem reportedCount_first {α : Type} (xs : List α) (count : α → UInt64) :
    reportedCount false (xs.map count) = (xs.head?.map count).getD 0 := by
  unfold reportedCount
  rw [if_neg Bool.false_ne_true, List.head?_map]

/-- A number of units that is not one. -/
theorem ofNat_ne_one {n : Nat} (hmany : 1 < n) (hlength : n < Nat.pow 2 64) :
    UInt64.ofNat n ≠ 1 := by
  intro heq
  have hnat := congrArg UInt64.toNat heq
  rw [UInt64.toNat_ofNat_of_lt' hlength] at hnat
  rw [hnat] at hmany
  exact absurd hmany (by decide)

/-! ## Added statements -/

namespace Addition

variable (addition : Addition) (db : Database) (additions : List Addition) (last : Addition)
  (count : ExecutionUnit → UInt64)

/-- The update count that an added statement has by itself. -/
def alone : UInt64 :=
  reportedCount (db.rules.accumulates addition.statement) (addition.units.map count)

/-- The update count that an added statement has in a batch of several, the last one of which is
given. -/
def batched : UInt64 :=
  reportedCount (db.rules.accumulates last.statement)
    ((Batch.inOrder additions addition.units).map count)

/-- An added statement counts alike by itself and in a batch: it has at most one unit, or it is
decided like the statement added last, and its first unit is the same where counts are not
summed. -/
def CountsAlike : Prop :=
  addition.units.length ≤ 1 ∨
    db.rules.accumulates addition.statement = db.rules.accumulates last.statement ∧
      (db.rules.accumulates last.statement = true ∨
        (Batch.inOrder additions addition.units).head? = addition.units.head?)

end Addition

section

variable {db : Database} {additions : List Addition} {last addition : Addition}
  (haddition : addition ∈ additions)

include haddition

/-- A statement that counts alike has the same count by itself and in the batch. -/
theorem Addition.CountsAlike.batched_eq (halike : addition.CountsAlike db additions last)
    (count : ExecutionUnit → UInt64) :
    addition.batched db additions last count = addition.alone db count := by
  have hunits := Batch.inOrder_perm haddition
  have hsum := reportedCount_perm (hunits.map count)
  unfold batched alone
  rcases halike with hlength | ⟨hsame, hfirst⟩
  · have hown : (addition.units.map count).length ≤ 1 := by rwa [List.length_map]
    have hbatch : ((Batch.inOrder additions addition.units).map count).length ≤ 1 := by
      rwa [List.length_map, hunits.length_eq]
    exact (reportedCount_of_length_le_one hbatch _).trans
      (hsum.trans (reportedCount_of_length_le_one hown _).symm)
  · rw [hsame]
    cases hlast : db.rules.accumulates last.statement with
    | true => exact hsum
    | false =>
        rw [hlast] at hfirst
        rw [reportedCount_first, reportedCount_first, hfirst.resolve_left Bool.false_ne_true]

/-- When a statement has the same count by itself and in the batch, whatever the counts of its units
are. -/
theorem Addition.countsAlike_iff (hlength : addition.units.length < Nat.pow 2 64) :
    (∀ count, addition.batched db additions last count = addition.alone db count) ↔
      addition.CountsAlike db additions last := by
  refine ⟨fun hall => ?_, fun halike => halike.batched_eq haddition⟩
  have hunits := Batch.inOrder_perm haddition
  by_cases hmany : 1 < addition.units.length
  · have hpos : 0 < addition.units.length := by omega
    obtain ⟨u, hu⟩ : ∃ u, addition.units.head? = some u :=
      ⟨_, List.head?_eq_some_head (List.length_pos_iff.mp hpos)⟩
    obtain ⟨v, hv⟩ : ∃ v, (Batch.inOrder additions addition.units).head? = some v :=
      ⟨_, List.head?_eq_some_head (List.length_pos_iff.mp (hunits.length_eq ▸ hpos))⟩
    unfold batched alone at hall
    -- Where every unit counts one, the sum is told apart from the first count.
    have hone := hall fun _ => 1
    have hnone := ofNat_ne_one hmany hlength
    right
    cases hlast : db.rules.accumulates last.statement with
    | true =>
        cases hown : db.rules.accumulates addition.statement with
        | true => exact ⟨rfl, .inl rfl⟩
        | false =>
            rw [hlast, hown, reportedCount_one, reportedCount_first, hu, hunits.length_eq] at hone
            exact absurd hone hnone
    | false =>
        cases hown : db.rules.accumulates addition.statement with
        | true =>
            rw [hlast, hown, reportedCount_one, reportedCount_first, hv] at hone
            exact absurd hone.symm hnone
        | false =>
            -- Where only its first unit counts, that unit comes first in the batch.
            have hfirst := hall fun w => if some w = addition.units.head? then 1 else 0
            rw [hlast, hown, reportedCount_first, reportedCount_first, hu, hv] at hfirst
            have hsame : v = u := by simpa using hfirst
            exact ⟨rfl, .inr (by rw [hu, hv, hsame])⟩
  · exact .inl (Nat.le_of_not_lt hmany)

end

/-- The counts of entries that are added to an empty batch. -/
theorem Batch.entryCounts_collect (accumulates : Bool) (additions : List Addition)
    (count : ExecutionUnit → UInt64) :
    entryCounts accumulates additions.length
        ((empty.collect additions).sets.map fun set => (set.1, count set.2)) =
      additions.map fun addition =>
        reportedCount accumulates ((inOrder additions addition.units).map count) := by
  refine List.ext_getElem? fun entry => ?_
  rw [entryCounts, List.getElem?_map, List.getElem?_map]
  cases haddition : additions[entry]? with
  | none =>
      rw [List.getElem?_eq_none_iff] at haddition
      rw [List.getElem?_eq_none_iff.mpr (List.length_range.symm ▸ haddition)]
      rfl
  | some addition =>
      have hlt : entry < additions.length := (List.getElem?_eq_some_iff.mp haddition).1
      rw [List.getElem?_range hlt, Option.map_some, Option.map_some, ← unitsOf_collect haddition,
        unitsOf, List.filter_map, List.map_map, List.map_map]
      rfl

namespace Session

variable {db : Database} {b : Backend} {count : ExecutionUnit → UInt64}

/-- The update count that a statement has by itself. -/
theorem update_count (hcount : b.CountsBy count) {addition : Addition} {s : Session} {h : History}
    (hroute : (s.route db (b.inTransaction (h ++ [.entered .idle])) addition.statement).1 =
      .ok (.units addition.units)) {result : UpdateResult}
    (hresult : (s.update db b addition.statement h).answer = .ok result) :
    result.count = addition.alone db count := by
  have hupdates : ∀ {events},
      (Destination.units addition.units).Updates db addition.statement b (.ok result) events →
        result.count = addition.alone db count := by
    intro events hevents
    rcases hevents.addsUp result rfl with ⟨jobs, results, ran, hcarries, rfl⟩
    have hcounts : results.map (·.count) = addition.units.map count := by
      refine hcarries.map_results fun lane u h' => Action.ask_adds fun result hresult => ?_
      rcases hcount h' (lane.call .update u) with ⟨keys, hkeys⟩
      rw [hkeys] at hresult
      cases hresult
      rfl
    rw [Database.addUp, Addition.alone, hcounts]
  rcases update_of_ok hroute with ⟨events, hevents, -⟩
  rw [hresult] at hevents
  split at hevents
  · rcases hevents.of_ok with ⟨own, hown⟩
    exact hupdates hown
  · exact hupdates hevents

variable {s s' : Session} {additions : List Addition}

/-- The update counts of a batch that statements have been added to. -/
theorem executeBatch_counts (hempty : s.batch = .empty) (hadding : Adding db s additions s')
    (hcount : b.CountsBy count) {h : History} {counts : List UInt64}
    (hcounts : (s'.executeBatch db b h).answer = .ok counts) :
    (additions = [] → counts = []) ∧ ∀ last, additions.getLast? = some last →
      counts = additions.map (·.batched db additions last count) := by
  have hbatch := hadding.batch_eq
  rw [hempty] at hbatch
  have hsize : s'.batch.size = additions.length := by
    rw [hbatch, Batch.size_collect, Batch.size_empty, Nat.zero_add]
  have hmodes := hadding.batchMode_eq
  cases hmode : s'.batchMode with
  | none =>
      rw [executeBatch_of_none db b h hmode] at hcounts
      cases hcounts
      refine ⟨fun _ => rfl, fun last hlast => ?_⟩
      rw [hmode, hlast] at hmodes
      cases hmodes
  | some mode =>
      rcases executeBatch_adds db b h hmode with ⟨events, -, hexecutes⟩
      constructor
      · rintro rfl
        exact List.length_eq_zero_iff.mp ((hexecutes.length counts hcounts).trans hsize)
      · intro last hlast
        rw [hmode, hlast] at hmodes
        cases hmodes
        rw [hexecutes.counts count hcount counts hcounts, hsize, hbatch]
        exact Batch.entryCounts_collect _ additions count

end Session

/-- A backend on which nothing fails and updates have given counts. -/
def Backend.counting (count : ExecutionUnit → UInt64) : Backend :=
  { Backend.untroubled with update := fun _ call => .ok ⟨count call.unit, []⟩ }

/-- A backend that counts by unit does so in every history. -/
theorem Backend.counting_countsBy (count : ExecutionUnit → UInt64) :
    (Backend.counting count).CountsBy count :=
  fun _ _ => ⟨[], rfl⟩

/-- It grants all connections, and no time is up. -/
theorem Backend.counting_steady (count : ExecutionUnit → UInt64) (report : Report) :
    (Backend.counting count).Steady report := by
  refine ⟨fun h _ => ⟨h.length, rfl⟩, fun _ _ => rfl, fun _ call => ⟨_, rfl⟩, fun _ => ?_⟩
  show report.isExpired 0 = false
  unfold Report.isExpired
  cases report.timeout <;> simp

namespace Session

variable {db : Database} {s s' : Session} {additions : List Addition}

/-- Statements that are added to an empty batch have the update counts that each has by itself,
whatever the counts of the units are, exactly when all of them count alike. -/
theorem executeBatch_counts_iff (hempty : s.batch = .empty) (hadding : Adding db s additions s')
    (hlength : ∀ addition ∈ additions, addition.units.length < Nat.pow 2 64) :
    (∀ count b, b.CountsBy count →
      (∀ addition ∈ additions, ∀ (t : Session) (h : History),
        (t.route db (b.inTransaction (h ++ [.entered .idle])) addition.statement).1 =
          .ok (.units addition.units) →
        (∀ result, (t.update db b addition.statement h).answer = .ok result →
          result.count = addition.alone db count) ∧
        (b.Steady db.report →
          ∃ result, (t.update db b addition.statement h).answer = .ok result)) ∧
      (b.Steady db.report → ∀ h, ∃ counts, (s'.executeBatch db b h).answer = .ok counts)) ∧
    ((∀ count b h counts, b.CountsBy count → (s'.executeBatch db b h).answer = .ok counts →
        counts = additions.map (·.alone db count)) ↔
      ∀ last, additions.getLast? = some last →
        ∀ addition ∈ additions, addition.CountsAlike db additions last) := by
  refine ⟨fun count b hcount => ⟨fun addition _ t h hroute => ⟨fun result hresult => ?_, ?_⟩, ?_⟩,
    fun hall last hlast addition haddition => ?_, fun halike count b h counts hcount hcounts => ?_⟩
  · exact update_count hcount hroute hresult
  · exact fun hsteady => update_succeeds hsteady hroute
  · exact fun hsteady h => executeBatch_succeeds db b h hsteady hcount
  · refine (Addition.countsAlike_iff haddition (hlength addition haddition)).mp fun count => ?_
    have hcount := Backend.counting_countsBy count
    rcases executeBatch_succeeds (s := s') db (.counting count) []
      (Backend.counting_steady count db.report) hcount with ⟨counts, hcounts⟩
    have hbatched := (executeBatch_counts hempty hadding hcount hcounts).2 last hlast
    rw [hall count (.counting count) [] counts hcount hcounts, List.map_inj_left] at hbatched
    exact (hbatched addition haddition).symm
  · rcases executeBatch_counts hempty hadding hcount hcounts with ⟨hnone, hsome⟩
    cases hlast : additions.getLast? with
    | none =>
        rw [List.getLast?_eq_none_iff] at hlast
        rw [hnone hlast, hlast]
        rfl
    | some last =>
        rw [hsome last hlast, List.map_inj_left]
        exact fun addition haddition =>
          (halike last hlast addition haddition).batched_eq haddition count

/-- The addition of `orderPurge`. -/
def orderAddition : Addition := ⟨orderPurge, orderPurgeUnits⟩

/-- A session that `orderPurge` has been added to twice. -/
def purgedTwice : Session :=
  ((Session.addBatch orderDatabase .untroubled orderPurge {} []).session.addBatch orderDatabase
    .untroubled orderPurge []).session

/-- Both entries have the counts of their statements. -/
theorem executeBatch_counts_iff_purgedTwice :
    Session.batch {} = .empty ∧
    Adding orderDatabase {} [orderAddition, orderAddition] purgedTwice ∧
    (∀ addition ∈ [orderAddition, orderAddition], addition.units.length < Nat.pow 2 64) ∧
    ∀ count b h counts, b.CountsBy count →
      (purgedTwice.executeBatch orderDatabase b h).answer = .ok counts →
        counts =
          [orderAddition.alone orderDatabase count, orderAddition.alone orderDatabase count] := by
  have hunits : ∀ turns, (orderDatabase.unitsFor orderPurge false turns).1 = .ok orderPurgeUnits :=
    fun turns => congrArg Prod.fst (unitsFor_orderPurge turns)
  have hadding : Adding orderDatabase {} [orderAddition, orderAddition] purgedTwice :=
    .accepted (b := .untroubled) (h := []) (hunits _)
      (.accepted (b := .untroubled) (h := []) (hunits _) .nothing)
  have hlength : ∀ addition ∈ [orderAddition, orderAddition],
      addition.units.length < Nat.pow 2 64 := by
    simp [orderAddition, orderPurgeUnits]
  refine ⟨rfl, hadding, hlength, ?_⟩
  refine (executeBatch_counts_iff rfl hadding hlength).2.mpr fun last hlast addition haddition => ?_
  have hsame : addition = orderAddition := by simpa using haddition
  cases hlast
  rw [hsame]
  exact .inr ⟨rfl, .inl rfl⟩

/-- A statement that deletes a table which every data source has in full. -/
def dictPurge : Statement :=
  { sql := "DELETE FROM t_dict", kind := .delete, tables := ["t_dict"] }

/-- The execution of a batch of `orderPurge` and `dictPurge`. -/
def purgeBoth : Reply (List UInt64) :=
  ((Session.addBatch orderDatabase .untroubled orderPurge {} []).session.addBatch orderDatabase
    .untroubled dictPurge []).session.executeBatch orderDatabase .untroubled []

/-- The counts of `orderPurge` are not summed in a batch that ends with `dictPurge`. -/
theorem executeBatch_counts_ne_purgeBoth :
    Backend.untroubled.CountsBy (fun _ => 1) ∧
    purgeBoth.answer.toOption = some [1, 1] ∧
    (Session.update orderDatabase .untroubled orderPurge {} []).answer.toOption.map (·.count) =
      some 2 ∧
    (Session.update orderDatabase .untroubled dictPurge {} []).answer.toOption.map (·.count) =
      some 1 :=
  ⟨fun _ _ => ⟨[], rfl⟩, by decide +kernel, by decide +kernel, by decide +kernel⟩

end Session

end ShardedSql
