import ShardedSql.Session
import ShardedSql.Proofs.Execution.Dealing

/-!
# Collected units

A batch holds the units of all its entries, each once and with the number of its entry.  Units with
one data source and one text are collected in one place, places in order of first appearance.

Main results:

- Theorem `Batch.bounds_collect_perm`: the units of all entries are in the batch.
- Theorem `Batch.units_collect`: units are collected by their keys.
- Theorem `Batch.unitsOf_collect`: the units of an entry, in the order of the batch.
- Theorem `Session.Adding.batch_eq`: the batch that statements are added to.
-/

namespace ShardedSql

/-- The bound units of a text, each with the number of its entry. -/
def BatchUnit.sets (u : BatchUnit) : List (Nat × ExecutionUnit) :=
  u.parameterSets.map fun set => (set.1, u.bound set.2)

namespace Batch

/-- The bound units in the order of the batch, each with the number of its entry. -/
def sets (batch : Batch) : List (Nat × ExecutionUnit) :=
  batch.units.flatMap (·.sets)

/-- The bound units of a batch. -/
def bounds (batch : Batch) : List ExecutionUnit :=
  batch.sets.map (·.2)

/-- The units of one entry in the order of the batch. -/
def unitsOf (batch : Batch) (entry : Nat) : List ExecutionUnit :=
  (batch.sets.filter (·.1 == entry)).map (·.2)

/-- One more unit is in the batch. -/
theorem sets_insert_perm (entry : Nat) (u : ExecutionUnit) (units : List BatchUnit) :
    ((insert entry u units).flatMap (·.sets)).Perm (units.flatMap (·.sets) ++ [(entry, u)]) := by
  induction units with
  | nil => exact .refl _
  | cons v others ih =>
      unfold insert
      split
      · next hsame =>
          have hset : ({ v with
              parameterSets := v.parameterSets ++ [(entry, u.statement.parameters)] } :
                BatchUnit).sets = v.sets ++ [(entry, u)] := by
            have hbound : v.bound u.statement.parameters = u := by
              rw [BatchUnit.bound, hsame.1, hsame.2]
            simp only [BatchUnit.sets, List.map_append, List.map_cons, List.map_nil]
            rw [← hbound]
            rfl
          rw [List.flatMap_cons, List.flatMap_cons, hset, List.append_assoc, List.append_assoc]
          exact List.perm_append_comm.append_left _
      · rw [List.flatMap_cons, List.flatMap_cons, List.append_assoc]
        exact ih.append_left _

/-- The units of one more entry are in the batch. -/
theorem sets_add_perm (batch : Batch) (units : List ExecutionUnit) :
    (batch.add units).sets.Perm (batch.sets ++ units.map (batch.size, ·)) := by
  have hall : ∀ (units : List ExecutionUnit) (collected : List BatchUnit),
      ((units.foldl (fun us u => insert batch.size u us) collected).flatMap (·.sets)).Perm
        (collected.flatMap (·.sets) ++ units.map (batch.size, ·)) := by
    intro units
    induction units with
    | nil => exact fun collected => by simp
    | cons u units ih =>
        intro collected
        refine (ih _).trans ?_
        rw [List.map_cons, ← List.singleton_append, ← List.append_assoc]
        exact (sets_insert_perm batch.size u collected).append_right _
  exact hall units batch.units

@[simp]
theorem size_add (batch : Batch) (units : List ExecutionUnit) :
    (batch.add units).size = batch.size + 1 := rfl

@[simp]
theorem size_empty : empty.size = 0 := rfl

end Batch

/-! ## Added statements -/

/-- A statement that is added to a batch, with its units. -/
structure Addition where
  statement : Statement
  units : List ExecutionUnit

/-- The units of some added statements, each with the number of its entry. -/
def numbered (first : Nat) (additions : List Addition) : List (Nat × ExecutionUnit) :=
  (additions.zipIdx first).flatMap fun x => x.1.units.map (x.2, ·)

/-- The units of the first addition have its number, the others later ones. -/
theorem numbered_cons (first : Nat) (addition : Addition) (others : List Addition) :
    numbered first (addition :: others) =
      addition.units.map (first, ·) ++ numbered (first + 1) others := by
  rw [numbered, List.zipIdx_cons, List.flatMap_cons, numbered]

/-- Numbers aside, these are the units of all additions. -/
theorem map_snd_numbered (first : Nat) (additions : List Addition) :
    (numbered first additions).map (·.2) = additions.flatMap (·.units) := by
  induction additions generalizing first with
  | nil => rfl
  | cons addition others ih =>
      rw [numbered_cons, List.map_append, ih, List.map_map, List.flatMap_cons]
      exact congrArg (· ++ _) (List.map_id _)

/-- No number lies before the first one. -/
theorem le_of_mem_numbered {first : Nat} {additions : List Addition} {set : Nat × ExecutionUnit}
    (hset : set ∈ numbered first additions) : first ≤ set.1 := by
  rcases List.mem_flatMap.mp hset with ⟨x, hx, hmem⟩
  rcases List.mem_map.mp hmem with ⟨u, -, rfl⟩
  exact (List.mem_zipIdx hx).1

/-- The units of one of some added statements. -/
theorem filter_numbered {additions : List Addition} {entry : Nat} {addition : Addition}
    (haddition : additions[entry]? = some addition) (first : Nat) :
    ((numbered first additions).filter (·.1 == first + entry)).map (·.2) = addition.units := by
  induction additions generalizing entry first with
  | nil => cases haddition
  | cons other others ih =>
      rw [numbered_cons, List.filter_append, List.map_append]
      cases entry with
      | zero =>
          cases haddition
          have hown : (addition.units.map (first, ·)).filter (·.1 == first + 0) =
              addition.units.map (first, ·) := by
            simp [List.filter_eq_self]
          have hothers : (numbered (first + 1) others).filter (·.1 == first + 0) = [] := by
            rw [List.filter_eq_nil_iff]
            intro set hset
            have hle := le_of_mem_numbered hset
            simp only [beq_iff_eq]
            omega
          rw [hown, hothers, List.map_map, List.map_nil, List.append_nil]
          exact List.map_id _
      | succ entry =>
          have hown : (other.units.map (first, ·)).filter (·.1 == first + (entry + 1)) = [] := by
            simp [List.filter_eq_nil_iff]
          rw [hown, List.map_nil, List.nil_append, Nat.add_comm entry 1, ← Nat.add_assoc]
          exact ih haddition (first + 1)

namespace Batch

/-- A batch with the units of some more entries. -/
def collect (batch : Batch) (additions : List Addition) : Batch :=
  additions.foldl (fun batch addition => batch.add addition.units) batch

theorem collect_cons (batch : Batch) (addition : Addition) (others : List Addition) :
    batch.collect (addition :: others) = (batch.add addition.units).collect others := rfl

/-- Every addition counts, whatever its units are. -/
theorem size_collect (batch : Batch) (additions : List Addition) :
    (batch.collect additions).size = batch.size + additions.length := by
  induction additions generalizing batch with
  | nil => rfl
  | cons addition others ih =>
      rw [collect_cons, ih, size_add, List.length_cons]
      omega

/-- The units of all entries that are added are in the batch, each with the number of its entry. -/
theorem sets_collect_perm (batch : Batch) (additions : List Addition) :
    (batch.collect additions).sets.Perm (batch.sets ++ numbered batch.size additions) := by
  induction additions generalizing batch with
  | nil => simp [collect, numbered]
  | cons addition others ih =>
      rw [collect_cons, numbered_cons, ← List.append_assoc]
      exact (ih _).trans ((sets_add_perm batch addition.units).append_right _)

/-- The units of all entries that are added are in the batch. -/
theorem bounds_collect_perm (batch : Batch) (additions : List Addition) :
    (batch.collect additions).bounds.Perm (batch.bounds ++ additions.flatMap (·.units)) := by
  have hsets := (sets_collect_perm batch additions).map (·.2)
  rw [List.map_append, map_snd_numbered] at hsets
  exact hsets

end Batch

/-! ## Order of the units -/

/-- What units are collected by. -/
structure BatchKey where
  dataSource : String
  sql : String
  deriving DecidableEq

/-- The key of a unit. -/
def ExecutionUnit.key (u : ExecutionUnit) : BatchKey :=
  { dataSource := u.dataSource, sql := u.statement.sql }

/-- The unit of a key with given sets of parameters. -/
def BatchUnit.on (sets : BatchKey → List (Nat × List Cell)) (key : BatchKey) : BatchUnit :=
  { dataSource := key.dataSource, sql := key.sql, parameterSets := sets key }

namespace Batch

/-- A unit is inserted where its key is, or at the end. -/
theorem insert_map_on (entry : Nat) (u : ExecutionUnit)
    (sets : BatchKey → List (Nat × List Cell)) {keys : List BatchKey} (hkeys : keys.Nodup)
    (hnone : u.key ∉ keys → sets u.key = []) :
    insert entry u (keys.map (.on sets)) =
      (if u.key ∈ keys then keys else keys ++ [u.key]).map
        (.on fun key =>
          if key = u.key then sets key ++ [(entry, u.statement.parameters)]
          else sets key) := by
  induction keys with
  | nil =>
      rw [if_neg List.not_mem_nil, List.nil_append, List.map_singleton, BatchUnit.on, if_pos rfl,
        hnone List.not_mem_nil]
      rfl
  | cons key keys ih =>
      rw [List.nodup_cons] at hkeys
      have hsame : (BatchUnit.on sets key).dataSource = u.dataSource ∧
          (BatchUnit.on sets key).sql = u.statement.sql ↔ key = u.key := by
        rw [ExecutionUnit.key, BatchKey.mk.injEq]
        exact Iff.rfl
      rw [List.map_cons, insert]
      by_cases heq : key = u.key
      · rw [if_pos (hsame.mpr heq), if_pos (heq ▸ List.mem_cons_self), List.map_cons]
        congr 1
        · rw [BatchUnit.on, BatchUnit.on, if_pos heq]
        · refine List.map_congr_left fun other hother => ?_
          rw [BatchUnit.on, BatchUnit.on, if_neg]
          rintro rfl
          exact hkeys.1 (heq ▸ hother)
      · have hmem : u.key ∈ key :: keys ↔ u.key ∈ keys := by
          simp [Ne.symm heq]
        have hhead : BatchUnit.on (fun key =>
            if key = u.key then sets key ++ [(entry, u.statement.parameters)]
            else sets key) key = .on sets key := by
          rw [BatchUnit.on, BatchUnit.on, if_neg heq]
        rw [if_neg (mt hsame.mp heq), ih hkeys.2 fun hnew => hnone (mt hmem.mp hnew)]
        by_cases hold : u.key ∈ keys
        · rw [if_pos hold, if_pos (hmem.mpr hold), List.map_cons, hhead]
        · rw [if_neg hold, if_neg (mt hmem.mp hold), List.cons_append, List.map_cons, hhead]

/-- Numbered units collected by their keys, in order of first appearance. -/
def collected (sets : List (Nat × ExecutionUnit)) : List BatchUnit :=
  (distinctly (sets.map (·.2.key))).map
    (.on fun key =>
      (sets.filter (·.2.key == key)).map fun set => (set.1, set.2.statement.parameters))

/-- A unit that is inserted goes to the end of its key. -/
theorem insert_collected (entry : Nat) (u : ExecutionUnit) (sets : List (Nat × ExecutionUnit)) :
    insert entry u (collected sets) = collected (sets ++ [(entry, u)]) := by
  unfold collected
  rw [insert_map_on entry u _ (nodup_distinctly _)]
  · simp only [mem_distinctly]
    rw [List.map_append, List.map_singleton, distinctly_concat]
    congr 2
    funext key
    rw [List.filter_append, List.map_append]
    by_cases heq : key = u.key
    · rw [if_pos heq]
      simp [heq]
    · rw [if_neg heq]
      simp [Ne.symm heq]
  · intro hnew
    rw [mem_distinctly] at hnew
    rw [List.filter_eq_nil_iff.mpr, List.map_nil]
    exact fun set hset heq => hnew (List.mem_map.mpr ⟨set, hset, beq_iff_eq.mp heq⟩)

/-- So do the units of an addition, one after the other. -/
theorem foldl_insert_collected (entry : Nat) (units : List ExecutionUnit)
    (sets : List (Nat × ExecutionUnit)) :
    units.foldl (fun us u => insert entry u us) (collected sets) =
      collected (sets ++ units.map (entry, ·)) := by
  induction units generalizing sets with
  | nil => rw [List.foldl_nil, List.map_nil, List.append_nil]
  | cons u units ih =>
      rw [List.foldl_cons, insert_collected, ih, List.append_assoc]
      rfl

/-- The units of entries that are added are collected. -/
theorem units_collect {batch : Batch} {sets : List (Nat × ExecutionUnit)}
    (hbatch : batch.units = collected sets) (additions : List Addition) :
    (batch.collect additions).units = collected (sets ++ numbered batch.size additions) := by
  induction additions generalizing batch sets with
  | nil => rw [numbered, List.zipIdx_nil, List.flatMap_nil, List.append_nil, ← hbatch]; rfl
  | cons addition others ih =>
      have hadd : (batch.add addition.units).units =
          collected (sets ++ addition.units.map (batch.size, ·)) := by
        rw [← foldl_insert_collected, ← hbatch]
        rfl
      rw [collect_cons, ih hadd, numbered_cons, List.append_assoc, size_add]

/-- The sets of parameters of a key are those of its units. -/
theorem sets_on (sets : List (Nat × ExecutionUnit)) (key : BatchKey) :
    (BatchUnit.on (fun key =>
      (sets.filter (·.2.key == key)).map fun set => (set.1, set.2.statement.parameters))
      key).sets = sets.filter (·.2.key == key) := by
  unfold BatchUnit.sets BatchUnit.on
  rw [List.map_map]
  refine (List.map_congr_left fun set hset => ?_).trans (List.map_id _)
  have hkey : set.2.key = key := beq_iff_eq.mp (List.mem_filter.mp hset).2
  rw [← hkey]
  rfl

/-- Units of one added statement in the order in which a batch of several runs them: by their
keys, in order of first appearance. -/
def inOrder (additions : List Addition) (units : List ExecutionUnit) : List ExecutionUnit :=
  (distinctly ((additions.flatMap (·.units)).map (·.key))).flatMap fun key =>
    units.filter (·.key == key)

/-- The units of an addition are all there when they are put in order. -/
theorem inOrder_perm {additions : List Addition} {addition : Addition}
    (haddition : addition ∈ additions) :
    (inOrder additions addition.units).Perm addition.units := by
  have hperm := flatMap_filter_perm (·.key)
    (nodup_distinctly ((additions.flatMap (·.units)).map (·.key))) addition.units fun u hu => by
      rw [mem_distinctly]
      exact List.mem_map_of_mem (List.mem_flatMap.mpr ⟨addition, haddition, hu⟩)
  exact hperm

/-- The units of every entry that is added to an empty batch, in the order of the batch. -/
theorem unitsOf_collect {additions : List Addition} {entry : Nat} {addition : Addition}
    (haddition : additions[entry]? = some addition) :
    (empty.collect additions).unitsOf entry = inOrder additions addition.units := by
  have hnone : empty.units = collected [] := rfl
  have hcollected : (empty.collect additions).units = collected (numbered 0 additions) :=
    units_collect hnone additions
  have hunits := filter_numbered haddition 0
  rw [Nat.zero_add] at hunits
  unfold unitsOf sets inOrder
  rw [hcollected, collected, List.flatMap_map, ← map_snd_numbered 0 additions, List.map_map]
  simp only [sets_on, List.filter_flatMap, List.map_flatMap]
  refine List.flatMap_congr fun key _ => ?_
  rw [← hunits, List.filter_map, List.filter_filter, List.filter_filter]
  congr 2
  funext set
  exact Bool.and_comm ..

end Batch

namespace Session

/-- Statements are added to the batch of a session, one after the other; those that cannot be routed
are refused. -/
inductive Adding (db : Database) : Session → List Addition → Session → Prop
  | nothing {s : Session} : Adding db s [] s
  | accepted {b : Backend} {h : History} {statement : Statement} {units : List ExecutionUnit}
      {s s' : Session} {additions : List Addition}
      (hunits : (db.unitsFor statement (b.inTransaction h) s.routeTurns).1 = .ok units)
      (hothers : Adding db (s.addBatch db b statement h).session additions s') :
      Adding db s (⟨statement, units⟩ :: additions) s'
  | refused {b : Backend} {h : History} {statement : Statement} {fault : Fault} {s s' : Session}
      {additions : List Addition}
      (hfault : (db.unitsFor statement (b.inTransaction h) s.routeTurns).1 = .error fault)
      (hothers : Adding db (s.addBatch db b statement h).session additions s') :
      Adding db s additions s'

/-- The mode of a batch that a statement has been added to. -/
def modeOf (db : Database) (statement : Statement) : BatchMode :=
  { kind := statement.kind, accumulates := db.rules.accumulates statement }

variable {db : Database} {b : Backend} {h : History} {statement : Statement} {s s' : Session}

/-- A statement with units is added and sets the mode of the batch. -/
theorem addBatch_of_ok {units : List ExecutionUnit}
    (hunits : (db.unitsFor statement (b.inTransaction h) s.routeTurns).1 = .ok units) :
    (s.addBatch db b statement h).session.batch = s.batch.add units ∧
      (s.addBatch db b statement h).session.batchMode = some (modeOf db statement) := by
  unfold addBatch
  cases hpair : db.unitsFor statement (b.inTransaction h) s.routeTurns with
  | mk answer turns =>
      rw [hpair] at hunits
      dsimp only at hunits
      subst hunits
      exact ⟨rfl, rfl⟩

/-- A statement without units leaves the batch as it is. -/
theorem addBatch_of_error {fault : Fault}
    (hfault : (db.unitsFor statement (b.inTransaction h) s.routeTurns).1 = .error fault) :
    (s.addBatch db b statement h).session.batch = s.batch ∧
      (s.addBatch db b statement h).session.batchMode = s.batchMode := by
  unfold addBatch
  cases hpair : db.unitsFor statement (b.inTransaction h) s.routeTurns with
  | mk answer turns =>
      rw [hpair] at hfault
      dsimp only at hfault
      subst hfault
      exact ⟨rfl, rfl⟩

variable {additions : List Addition}

/-- The batch that statements are added to. -/
theorem Adding.batch_eq (hadding : Adding db s additions s') :
    s'.batch = s.batch.collect additions := by
  induction hadding with
  | nothing => rfl
  | accepted hunits _ ih => rw [ih, (addBatch_of_ok hunits).1]; rfl
  | refused hfault _ ih => rw [ih, (addBatch_of_error hfault).1]

/-- The mode of the batch is that of the statement added last. -/
theorem Adding.batchMode_eq (hadding : Adding db s additions s') :
    s'.batchMode =
      (additions.getLast?.map fun last => modeOf db last.statement).or s.batchMode := by
  induction hadding with
  | nothing => rfl
  | @accepted _ _ _ _ _ _ additions hunits _ ih =>
      rw [ih, (addBatch_of_ok hunits).2]
      cases additions with
      | nil => rfl
      | cons other others =>
          rw [List.getLast?_cons_cons,
            List.getLast?_eq_some_getLast (List.cons_ne_nil other others)]
          rfl
  | refused hfault _ ih => rw [ih, (addBatch_of_error hfault).2]

end Session

end ShardedSql
