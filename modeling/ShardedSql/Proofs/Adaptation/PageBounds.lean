import Mathlib.Tactic.MkIffOfInductiveProp
import ShardedSql.Proofs.Adaptation.PageClauses
import ShardedSql.Proofs.Text.Numeral

/-!
# Bounds of pages for shards

A query for a shard is meant to skip no rows and to keep those up to the end of the page.  It does
skip none.  How many rows it keeps depends on how its bounds are written: a limit that is a
parameter has to hold the number and must not be the offset too, and a standard row limit is not
changed at all.

Main results:

- Theorem `CountReading.bound_assign`: the value of a bound after some assignments.
- Theorem `Sql.Cut.kept_widened_iff`: when a query keeps the rows up to the end of the page.
- Theorem `adapterFor_keeps_iff`: when the statement for a shard does.
-/

namespace ShardedSql

open Sql

/-! ## Reading of bounds -/

/-- How numbers of rows are read. -/
structure CountReading where
  word : String → Option Nat
  cell : Cell → Option Nat
  word_toString : ∀ n < Nat.pow 2 64, word (toString n) = some n
  cell_int : ∀ n : Int64, cell (.int n) = n.toInt.toNat?

namespace CountReading

/-- Numbers of rows are written in digits. -/
def decimal : CountReading where
  word text := (Text.readNat64 text).toOption
  cell
    | .int n => n.toInt.toNat?
    | _ => none
  word_toString n hn := by rw [Text.readNat64_toString hn]; rfl
  cell_int _ := rfl

variable (reading : CountReading) {parameters : List Cell} {p : ExprView}

/-- The number that a bound stands for: a literal, or a numbered parameter with its value. -/
def bound? (parameters : List Cell) : ExprView → Option Nat
  | .number text => reading.word text
  | .placeholder mark =>
      (ExprView.placeholder mark).position?.bind fun i => parameters[i]?.bind reading.cell
  | .compound _ | .other => none

/-- A bound that is a parameter stands for what its value stands for. -/
theorem bound_of_position {i : Nat} (hp : p.position? = some i) :
    reading.bound? parameters p = parameters[i]?.bind reading.cell := by
  cases p with
  | number _ | compound _ | other => cases hp
  | placeholder mark =>
      simp only [bound?, hp]
      rfl

/-- What parameters are assigned does not matter to a bound that is none of them. -/
theorem bound_of_position_eq_none (hp : p.position? = none) (changed : List Cell) :
    reading.bound? changed p = reading.bound? parameters p := by
  cases p with
  | number _ | compound _ | other => rfl
  | placeholder mark =>
      simp only [bound?, hp]
      rfl

/-- A change of dotted names changes no number. -/
theorem bound_onCompound (g : List Ident → List Ident) :
    reading.bound? parameters (p.onCompound g) = reading.bound? parameters p := by
  cases p <;> rfl

/-- The number that a parameter stands for after some assignments. -/
theorem bound_assign {i : Nat} (hp : p.position? = some i) (hi : i < parameters.length)
    (assignments : List (Nat × Cell)) :
    reading.bound? (assign parameters assignments) p =
      ((assigned? assignments i).or parameters[i]?).bind reading.cell := by
  rw [reading.bound_of_position hp, getElem?_assign assignments hi]

theorem cell_zero : reading.cell (.int 0) = some 0 :=
  reading.cell_int 0

/-- A number fits into a parameter if it is small enough for a signed one. -/
theorem cell_ofNat {n : Nat} : reading.cell (.int (Int64.ofNat n)) = some n ↔ n < Nat.pow 2 63 := by
  rw [reading.cell_int, Int.mem_toNat?]
  constructor
  · intro heq
    have hlt := (Int64.ofNat n).toInt_lt
    rw [heq] at hlt
    exact Int.ofNat_lt.mp hlt
  · exact fun hlt => Int64.toInt_ofNat_of_lt hlt

variable {reading}

/-- A bound that stands for a number can be adjusted. -/
theorem isAdjustable_of_bound {k : Nat} (h : reading.bound? parameters p = some k) :
    p.IsAdjustable := by
  cases p with
  | number _ | compound _ | other => exact ⟨none, rfl⟩
  | placeholder mark =>
      rcases Option.bind_eq_some_iff.mp h with ⟨i, hi, -⟩
      unfold ExprView.IsAdjustable
      unfold ExprView.position? at hi
      cases hposition : parameterPosition? (.placeholder mark) with
      | ok position => exact ⟨position, rfl⟩
      | error fault =>
          rw [hposition] at hi
          cases hi

/-- The parameter of a bound that stands for a number is there. -/
theorem lt_length_of_bound {i k : Nat} (h : reading.bound? parameters p = some k)
    (hp : p.position? = some i) : i < parameters.length := by
  rw [reading.bound_of_position hp] at h
  rcases Option.bind_eq_some_iff.mp h with ⟨value, hvalue, -⟩
  exact (List.getElem?_eq_some_iff.mp hvalue).1

variable (reading)

/-- How many rows a standard limit keeps, if that is a number of rows. -/
def standard? (parameters : List Cell) (f : Fetch ExprView) : Option Nat :=
  if f.percent || f.withTies then none
  else
    match f.quantity with
    | some p => reading.bound? parameters p
    | none => some 1

/-- How many rows are kept by a limit or by a standard one. -/
def kept? (parameters : List Cell) : Option ExprView → Option (Fetch ExprView) → Option Nat
  | some p, none => reading.bound? parameters p
  | none, some f => reading.standard? parameters f
  | some _, some _ | none, none => none

end CountReading

/-! ## Cuts -/

namespace Sql.Cut

/-- How many rows a query skips. -/
def skipped? (cut : Cut) (reading : CountReading) (parameters : List Cell) : Option Nat :=
  match cut.clause?.bind (·.offset?) with
  | some v => reading.bound? parameters v
  | none => some 0

/-- How many rows a query keeps.  There is one limit, or a standard one in numbers of rows, and none
for groups of rows. -/
def kept? (cut : Cut) (reading : CountReading) (parameters : List Cell) : Option Nat :=
  cut.page.bind fun clause? =>
    if clause?.any (!·.groups.isEmpty) then none
    else reading.kept? parameters (clause?.bind (·.limit?)) cut.fetch

/-- The bounds of a query can tell that some rows are kept where it has kept others: a limit that is
a parameter has room for the number and is not the offset as well, and a standard limit, which does
not change, is right because nothing was skipped. -/
@[mk_iff]
structure CanKeep (cut : Cut) (kept count : Nat) : Prop where
  fits : ∀ i ∈ cut.clause?.bind (·.limitPosition?), count < Nat.pow 2 63
  /-- A parameter is not limit and offset at once. -/
  apart : ∀ i ∈ cut.clause?.bind (·.limitPosition?),
    cut.clause?.bind (·.offsetPosition?) = some i → count = 0
  /-- A standard limit stands alone, or beside an offset that is another parameter. -/
  standard : ∀ f ∈ cut.fetch, cut.clause?.isSome →
    ∃ i ∈ cut.clause?.bind (·.offsetPosition?), count = kept ∧
      (f.quantity.bind (·.position?) = some i → count = 0)

end Sql.Cut

namespace Sql.PageClause

variable {clause : PageClause ExprView} {count i : Nat}

/-- A parameter that is the offset is assigned zero. -/
theorem assigned_offset (hoffset : clause.offsetPosition? = some i) (count : Option Nat) :
    assigned? (clause.assigned count) i = some (.int 0) := by
  simp [assigned?, assigned, hoffset]

/-- A parameter that is only the limit is assigned the number of rows. -/
theorem assigned_limit (hlimit : clause.limitPosition? = some i)
    (hoffset : clause.offsetPosition? ≠ some i) :
    assigned? (clause.assigned (some count)) i = some (.int (Int64.ofNat count)) := by
  cases hother : clause.offsetPosition? with
  | none => simp [assigned?, assigned, hlimit, hother]
  | some j =>
      have hne : (i == j) = false := by
        rw [hother] at hoffset
        exact beq_eq_false_iff_ne.mpr fun heq => hoffset (heq ▸ rfl)
      simp [assigned?, assigned, hlimit, hother, List.lookup_cons, hne]

/-- Other parameters are assigned nothing. -/
theorem assigned_eq_none (hlimit : clause.limitPosition? ≠ some i)
    (hoffset : clause.offsetPosition? ≠ some i) (count : Option Nat) :
    assigned? (clause.assigned count) i = none := by
  refine assigned_eq_none_iff.mpr fun a ha => ?_
  rcases List.mem_append.mp ha with ha | ha
  · rcases Option.bind_eq_some_iff.mp (Option.mem_toList.mp ha) with ⟨j, hj, ha⟩
    rcases Option.map_eq_some_iff.mp ha with ⟨n, -, rfl⟩
    rintro rfl
    exact hlimit hj
  · rcases Option.map_eq_some_iff.mp (Option.mem_toList.mp ha) with ⟨j, hj, rfl⟩
    rintro rfl
    exact hoffset hj

/-- An offset is left only if it is a parameter. -/
theorem offset_widened (clause : PageClause ExprView) (count : Option Nat) :
    (clause.widened count).bind (·.offset?) =
      if clause.offsetPosition?.isSome then clause.offset? else none := by
  cases clause with
  | commaBounds _ _ => cases count <;> rfl
  | bounds limit offset groups =>
      unfold widened
      dsimp only
      split
      · rename_i hnone
        rw [Bool.and_eq_true, Option.isNone_iff_eq_none, Option.isNone_iff_eq_none] at hnone
        rw [hnone.2]
        cases count <;> rfl
      · cases (bounds limit offset groups).offsetPosition?.isSome <;> rfl

/-- A limit is the number of rows unless it is a parameter; it is missing beside an offset that is
one. -/
theorem limit_widened (clause : PageClause ExprView) (count : Nat) :
    (clause.widened (some count)).bind (·.limit?) =
      if clause.limitPosition?.isSome then clause.limit?
      else if clause.limit?.isSome || clause.offsetPosition?.isNone then some (numberView count)
      else none := by
  cases clause with
  | commaBounds _ _ => rfl
  | bounds limit offset groups =>
      unfold widened
      dsimp only
      split
      · rename_i hnone
        rw [Bool.and_eq_true] at hnone
        rw [hnone.2, Bool.or_true, if_neg (by simp [Option.isNone_iff_eq_none.mp hnone.1])]
        rfl
      · rename_i hsome
        cases hposition : (bounds limit offset groups).limitPosition? with
        | some i => rfl
        | none =>
            rw [hposition, Option.isNone_none, Bool.true_and, Bool.not_eq_true] at hsome
            rw [hsome]
            cases limit <;> rfl

/-- Where rows were not counted within groups they are not for a shard. -/
theorem groups_widened (hgroups : clause.groups = []) (count : Option Nat) :
    (clause.widened count).any (!·.groups.isEmpty) = false := by
  cases clause with
  | commaBounds _ _ => cases count <;> rfl
  | bounds limit offset groups =>
      unfold widened
      dsimp only
      split
      · cases count <;> rfl
      · show (!groups.isEmpty) = false
        rw [show groups = [] from hgroups]
        rfl

/-- A place of the limit is that of a bound. -/
theorem exists_of_limitPosition (hlimit : clause.limitPosition? = some i) :
    ∃ p, clause.limit? = some p ∧ p.position? = some i := by
  cases clause with
  | bounds _ _ _ => exact Option.bind_eq_some_iff.mp hlimit
  | commaBounds _ _ => cases hlimit

theorem limitPosition_eq_none (hlimit : clause.limit? = none) : clause.limitPosition? = none := by
  cases hposition : clause.limitPosition? with
  | none => rfl
  | some i =>
      rcases exists_of_limitPosition hposition with ⟨p, hp, -⟩
      cases hlimit.symm.trans hp

/-- A place of the offset is that of a bound. -/
theorem exists_of_offsetPosition (hoffset : clause.offsetPosition? = some i) :
    ∃ p, clause.offset? = some p ∧ p.position? = some i := by
  cases clause with
  | bounds _ _ _ => exact Option.bind_eq_some_iff.mp hoffset
  | commaBounds _ _ => cases hoffset

variable {reading : CountReading} {parameters : List Cell} {kept : Nat} {f : Fetch ExprView}

/-- A limit for a shard keeps a number of rows unless it is a parameter without room for it, or one
that is the offset too. -/
theorem bound_widened_iff {p : ExprView} (hlimit : clause.limit? = some p)
    (hkept : reading.bound? parameters p = some kept)
    (hcount : reading.word (toString count) = some count) :
    reading.kept? (assign parameters (clause.assigned (some count)))
        ((clause.widened (some count)).bind (·.limit?)) none = some count ↔
      ∀ i ∈ clause.limitPosition?, count < Nat.pow 2 63 ∧
        (clause.offsetPosition? = some i → count = 0) := by
  rw [clause.limit_widened]
  cases hposition : clause.limitPosition? with
  | none =>
      rw [hlimit]
      exact iff_of_true hcount fun _ hnone => nomatch hnone
  | some i =>
      rcases exists_of_limitPosition hposition with ⟨p', hp', hi⟩
      cases hlimit.symm.trans hp'
      have hlength := CountReading.lt_length_of_bound hkept hi
      simp only [Option.isSome_some, if_true, hlimit, CountReading.kept?,
        reading.bound_assign hi hlength, Option.mem_some_iff, forall_eq']
      by_cases hshared : clause.offsetPosition? = some i
      · rw [assigned_offset hshared]
        show reading.cell (.int 0) = some count ↔ _
        rw [reading.cell_zero, Option.some_inj]
        constructor
        · rintro rfl
          exact ⟨by decide, fun _ => rfl⟩
        · exact fun h => (h.2 hshared).symm
      · rw [assigned_limit hposition hshared]
        show reading.cell (.int (Int64.ofNat count)) = some count ↔ _
        rw [reading.cell_ofNat]
        exact (and_iff_left fun heq => absurd heq hshared).symm

/-- The number that a parameter stands for beside an offset that is a parameter too. -/
theorem bound_assigned_iff {p : ExprView} (hlimit : clause.limitPosition? = none)
    (hposition : clause.offsetPosition? = some i)
    (hkept : reading.bound? parameters p = some kept) (hnone : count = 0 → kept = 0) :
    reading.bound? (assign parameters (clause.assigned (some count))) p = some count ↔
      count = kept ∧ (p.position? = some i → count = 0) := by
  cases hp : p.position? with
  | none =>
      rw [(reading.bound_of_position_eq_none hp _).trans hkept, Option.some_inj]
      exact eq_comm.trans (and_iff_left fun heq => nomatch heq).symm
  | some j =>
      have hlength := CountReading.lt_length_of_bound hkept hp
      rw [reading.bound_assign hp hlength]
      by_cases hshared : j = i
      · cases hshared
        rw [assigned_offset hposition]
        show reading.cell (.int 0) = some count ↔ _
        rw [reading.cell_zero, Option.some_inj]
        constructor
        · rintro rfl
          exact ⟨(hnone rfl).symm, fun _ => rfl⟩
        · exact fun h => (h.2 rfl).symm
      · have hother : clause.offsetPosition? ≠ some j := by
          rw [hposition]
          exact fun heq => hshared (Option.some.inj heq).symm
        have hfree : clause.limitPosition? ≠ some j := by
          rw [hlimit]
          exact fun heq => nomatch heq
        rw [assigned_eq_none hfree hother, Option.none_or, ← reading.bound_of_position hp, hkept,
          Option.some_inj]
        exact eq_comm.trans (and_iff_left fun heq => absurd (Option.some.inj heq) hshared).symm

/-- A standard limit for a shard keeps as many rows as before, and only beside an offset that is a
parameter; it keeps none if it is this parameter. -/
theorem standard_widened_iff (hlimit : clause.limit? = none)
    (hkept : reading.standard? parameters f = some kept) (hnone : count = 0 → kept = 0) :
    reading.kept? (assign parameters (clause.assigned (some count)))
        ((clause.widened (some count)).bind (·.limit?)) (some f) = some count ↔
      ∃ i ∈ clause.offsetPosition?, count = kept ∧
        (f.quantity.bind (·.position?) = some i → count = 0) := by
  have hposition := limitPosition_eq_none hlimit
  rw [clause.limit_widened, hposition, hlimit]
  cases hoffsetPosition : clause.offsetPosition? with
  | none => exact iff_of_false (fun h => nomatch h) fun h => (nomatch h.choose_spec.1)
  | some i =>
      simp only [Option.mem_some_iff, exists_eq_left']
      show reading.standard? (assign parameters (clause.assigned (some count))) f = some count ↔ _
      unfold CountReading.standard? at hkept ⊢
      split at hkept
      · cases hkept
      · rename_i hplain
        rw [if_neg hplain]
        cases hquantity : f.quantity with
        | none =>
            rw [hquantity] at hkept
            cases hkept
            exact (Option.some_inj.trans eq_comm).trans (and_iff_left fun heq => nomatch heq).symm
        | some p =>
            rw [hquantity] at hkept
            exact bound_assigned_iff hposition hoffsetPosition hkept hnone

end Sql.PageClause

namespace Sql.Cut

variable {cut : Cut} {reading : CountReading} {parameters : List Cell} {skipped kept count : Nat}

/-- The bounds of a query that keeps some rows. -/
theorem kept_eq_some_iff {clause : PageClause ExprView} {fetch : Option (Fetch ExprView)} :
    (⟨some (some clause), fetch⟩ : Cut).kept? reading parameters = some kept ↔
      clause.groups = [] ∧ reading.kept? parameters clause.limit? fetch = some kept := by
  show (if !clause.groups.isEmpty then none else reading.kept? parameters clause.limit? fetch) =
    some kept ↔ _
  cases hgroups : clause.groups with
  | nil => exact (and_iff_right rfl).symm
  | cons e es => exact iff_of_false (fun h => by cases h) fun h => by cases h.1

/-- A query for a shard skips no rows. -/
theorem skipped_widened (hskipped : cut.skipped? reading parameters = some skipped)
    (count : Option Nat) :
    (cut.widened count).skipped? reading (assign parameters (cut.assigned count)) = some 0 := by
  rcases cut with ⟨_ | _ | clause, fetch⟩
  · rfl
  · rfl
  · have hoffset := clause.offset_widened count
    simp only [skipped?, clause?, widened, assigned, Option.map_some, Option.join_some,
      Option.bind_some, Option.getD_some] at hskipped ⊢
    rw [hoffset]
    cases hposition : clause.offsetPosition? with
    | none => rfl
    | some i =>
        rcases PageClause.exists_of_offsetPosition hposition with ⟨p, hp, hi⟩
        rw [hp] at hskipped ⊢
        have hlength := CountReading.lt_length_of_bound hskipped hi
        rw [Option.isSome_some, if_pos rfl]
        dsimp only
        rw [reading.bound_assign hi hlength, PageClause.assigned_offset hposition]
        exact reading.cell_zero

/-- A query for a shard keeps a number of rows exactly when its bounds can tell so. -/
theorem kept_widened_iff (hskipped : cut.skipped? reading parameters = some skipped)
    (hkept : cut.kept? reading parameters = some kept) (hrange : kept < Nat.pow 2 64)
    (hcount : count = Nat.min (kept + skipped) (Nat.pow 2 64 - 1)) :
    (cut.widened (some count)).kept? reading (assign parameters (cut.assigned (some count))) =
      some count ↔ cut.CanKeep kept count := by
  rcases cut with ⟨_ | _ | clause, fetch⟩
  · cases hkept
  · -- A standard limit that stands alone is not changed, and nothing was skipped.
    cases hskipped
    have hsame : count = kept := by
      rw [hcount]
      exact Nat.min_eq_left (by omega)
    rw [hsame]
    exact iff_of_true hkept
      { fits := fun _ hnone => by cases hnone
        apart := fun _ hnone => by cases hnone
        standard := fun _ _ hnone => by cases hnone }
  · have hnone : count = 0 → kept = 0 := by
      rw [hcount]
      intro hzero
      exact (Nat.add_eq_zero_iff.mp ((Nat.min_eq_zero_iff.mp hzero).resolve_right (by decide))).1
    have hword : reading.word (toString count) = some count := by
      refine reading.word_toString count ?_
      rw [hcount]
      exact Nat.lt_of_le_of_lt (Nat.min_le_right _ _) (by decide)
    rw [kept_eq_some_iff] at hkept
    rcases hkept with ⟨hgroups, hboth⟩
    have hbounds : (widened ⟨some (some clause), fetch⟩ (some count)).kept? reading
        (assign parameters (assigned ⟨some (some clause), fetch⟩ (some count))) =
        reading.kept? (assign parameters (clause.assigned (some count)))
          ((clause.widened (some count)).bind (·.limit?)) fetch :=
      if_neg (Bool.eq_false_iff.mp (PageClause.groups_widened hgroups (some count)))
    rw [hbounds]
    cases hlimit : clause.limit? with
    | some p =>
        cases fetch with
        | some f =>
            rw [hlimit] at hboth
            cases hboth
        | none =>
            rw [hlimit] at hboth
            rw [PageClause.bound_widened_iff hlimit hboth hword]
            exact ⟨fun h => ⟨fun i hi => (h i hi).1, fun i hi => (h i hi).2,
              fun _ hf => by cases hf⟩, fun h i hi => ⟨h.fits i hi, h.apart i hi⟩⟩
    | none =>
        have hfree := PageClause.limitPosition_eq_none hlimit
        cases fetch with
        | none =>
            rw [hlimit] at hboth
            cases hboth
        | some f =>
            rw [hlimit] at hboth
            rw [PageClause.standard_widened_iff hlimit hboth hnone]
            constructor
            · intro h
              refine ⟨fun i hi => ?_, fun i hi => ?_, fun f' hf _ => Option.some.inj hf ▸ h⟩
              · cases hfree.symm.trans hi
              · cases hfree.symm.trans hi
            · exact fun h => h.standard f rfl rfl

section Changed

variable (g : List Ident → List Ident) (cut)

/-- A visitor of dotted names does not change how many rows are skipped. -/
theorem skipped_map : (cut.map (·.onCompound g)).skipped? reading parameters =
    cut.skipped? reading parameters := by
  rcases cut with ⟨_ | _ | ⟨limit, _ | offset, groups⟩ | ⟨offset, limit⟩, fetch⟩
  · rfl
  · rfl
  · rfl
  · exact reading.bound_onCompound g
  · exact reading.bound_onCompound g

/-- Nor does it change how many are kept. -/
theorem kept_map : (cut.map (·.onCompound g)).kept? reading parameters =
    cut.kept? reading parameters := by
  have hstandard : ∀ fetch : Fetch ExprView,
      reading.standard? parameters (fetch.map (·.onCompound g)) =
        reading.standard? parameters fetch := by
    intro fetch
    rcases fetch with ⟨_ | quantity, percent, withTies⟩
    · rfl
    · simp only [CountReading.standard?, Fetch.map, Option.map_some, reading.bound_onCompound]
  have hboth : ∀ (limit : Option ExprView) (fetch : Option (Fetch ExprView)),
      reading.kept? parameters (limit.map (·.onCompound g)) (fetch.map (·.map (·.onCompound g))) =
        reading.kept? parameters limit fetch := by
    intro limit fetch
    rcases limit with _ | limit <;> rcases fetch with _ | fetch
    · rfl
    · exact hstandard fetch
    · exact reading.bound_onCompound g
    · rfl
  rcases cut with ⟨_ | _ | ⟨limit, offset, _ | ⟨e, groups⟩⟩ | ⟨offset, limit⟩, fetch⟩
  · rfl
  · exact hboth none fetch
  · exact hboth limit fetch
  · rfl
  · exact hboth (some limit) fetch

/-- A change of dotted names does not change what the bounds of a query can tell. -/
theorem canKeep_map : (cut.map (·.onCompound g)).CanKeep kept count ↔ cut.CanKeep kept count := by
  have hposition : ∀ quantity : Option ExprView,
      (quantity.map (·.onCompound g)).bind (·.position?) = quantity.bind (·.position?) := by
    intro quantity
    cases quantity with
    | none => rfl
    | some v => exact v.position_onCompound g
  rw [canKeep_iff, canKeep_iff]
  rcases cut with ⟨_ | _ | clause, _ | fetch⟩ <;>
    simp [map, clause?, Fetch.map, PageClause.limitPosition_map, PageClause.offsetPosition_map,
      hposition]

end Changed

/-- There is a command for a shard if its bounds are numbers. -/
theorem exists_commandForShard {L : Library} {R : Reading L} {c : L.Command}
    (hskipped : (R.cut c).skipped? reading parameters = some skipped)
    (hkept : (R.cut c).kept? reading parameters = some kept) (page : Page) :
    ∃ changed, commandForShard L page parameters c = .ok changed := by
  have hcut : R.cut c =
    { page := (L.page? c).map (·.map (·.map L.view)), fetch := (R.fetch? c).map (·.map L.view) } :=
      rfl
  unfold commandForShard
  split
  · rename_i clause hpage
    rw [hpage] at hcut
    rw [hcut] at hskipped hkept
    have hboth := (kept_eq_some_iff.mp hkept).2
    have hlimit : ∀ v, (clause.map L.view).limit? = some v →
        reading.bound? parameters v = some kept := by
      intro v hv
      rw [hv] at hboth
      cases hfetch : (R.fetch? c).map (·.map L.view) with
      | none =>
          rw [hfetch] at hboth
          exact hboth
      | some f =>
          rw [hfetch] at hboth
          cases hboth
    have hoffset : ∀ v, (clause.map L.view).offset? = some v →
        reading.bound? parameters v = some skipped := by
      intro v hv
      simp only [skipped?, clause?, Option.map_some, Option.join_some, Option.bind_some, hv]
        at hskipped
      exact hskipped
    have hclause : (clause.map L.view).IsAdjustable := by
      cases clause with
      | commaBounds _ _ => trivial
      | bounds limit offset groups =>
          exact ⟨fun v hv => CountReading.isAdjustable_of_bound (hlimit v hv),
            fun v hv => CountReading.isAdjustable_of_bound (hoffset v hv)⟩
    rcases exists_clauseForShard hclause page.pushedDown
      (fun i hi => (PageClause.exists_of_limitPosition hi).elim fun v hv =>
        CountReading.lt_length_of_bound (hlimit v hv.1) hv.2)
      (fun i hi => (PageClause.exists_of_offsetPosition hi).elim fun v hv =>
        CountReading.lt_length_of_bound (hoffset v hv.1) hv.2) with ⟨changed, hchanged⟩
    rw [hchanged]
    exact ⟨_, rfl⟩
  · exact ⟨_, rfl⟩
  · exact ⟨_, rfl⟩

end Sql.Cut

/-! ## Statements -/

/-- A query that cuts a page is a query for a shard that skips nothing, and keeps the rows up to the
end of the page exactly when its bounds can tell so. -/
theorem adapterFor_keeps_iff {L : Library} {R : Reading L} (hR : R.Lawful) {statement : Statement}
    {c : L.Command} {page : Page} {rowCount : UInt64} {count : Nat} (reading : CountReading)
    (hparse : L.parse? statement.sql = some [c])
    (hpage : statement.shape.page = some page) (hcount : page.rowCount = some rowCount)
    (hpushed : page.pushedDown = some count)
    (hskipped : (R.cut c).skipped? reading statement.parameters = some page.offset.toNat)
    (hkept : (R.cut c).kept? reading statement.parameters = some rowCount.toNat) (u : RouteUnit) :
    ∃ bound written, adapterFor L statement u true = .ok bound ∧
      commandForShard L page statement.parameters (u.actual L c) =
        .ok (written, bound.parameters) ∧
      bound.sql = L.renderAll [written] ∧
      (R.cut written).skipped? reading bound.parameters = some 0 ∧
      ((R.cut written).kept? reading bound.parameters = some count ↔
        (R.cut c).CanKeep rowCount.toNat count) := by
  rcases u.cut_actual hR c with ⟨g, hg⟩
  have hskipped' : (R.cut (u.actual L c)).skipped? reading statement.parameters =
      some page.offset.toNat := by
    rw [hg, Cut.skipped_map, hskipped]
  have hkept' : (R.cut (u.actual L c)).kept? reading statement.parameters =
      some rowCount.toNat := by
    rw [hg, Cut.kept_map, hkept]
  have hcanKeep : (R.cut (u.actual L c)).CanKeep rowCount.toNat count ↔
      (R.cut c).CanKeep rowCount.toNat count := by
    rw [hg, Cut.canKeep_map]
  have hmin : count = Nat.min (rowCount.toNat + page.offset.toNat) (Nat.pow 2 64 - 1) := by
    unfold Page.pushedDown at hpushed
    rw [hcount] at hpushed
    exact (Option.some.inj hpushed).symm
  rcases Cut.exists_commandForShard hskipped' hkept' page with ⟨⟨written, parameters⟩, hwritten⟩
  rcases spec_of_commandForShard hR hwritten with ⟨hcut, -, hassign⟩
  have hcommands : commandsForShard L page statement.parameters [u.actual L c] =
      .ok ([written], parameters) := by
    unfold commandsForShard
    rw [hwritten]
    rfl
  dsimp only at hcut hassign
  refine ⟨_, written, (adapterFor_widened hpage).mpr ⟨_, _, hparse, hcommands, rfl⟩, hwritten, rfl,
    ?_, ?_⟩
  · rw [hcut, hassign]
    exact Cut.skipped_widened hskipped' _
  · rw [hcut, hassign, hpushed, Cut.kept_widened_iff hskipped' hkept' rowCount.toNat_lt hmin,
      hcanKeep]

/-- A part of the orders. -/
def orderUnit : RouteUnit := ⟨.identity "ds_0", [⟨"t_order", "t_order_1"⟩]⟩

/-- The third page of orders, with bounds that are parameters. -/
def laterOrders : Statement :=
  { sql := "SELECT * FROM t_order LIMIT $2 OFFSET $1"
    tables := ["t_order"]
    parameters := [.int 10, .int 5]
    shape := { Shape.plain with page := some ⟨10, some 5⟩ } }

/-- The query for a shard keeps the rows up to the end of the page. -/
theorem adapterFor_keeps_iff_laterOrders :
    ∃ c bound written, Sql.parse? .postgres laterOrders.sql = some [c] ∧
      ((readerReading .postgres).cut c).skipped? .decimal laterOrders.parameters = some 10 ∧
      ((readerReading .postgres).cut c).kept? .decimal laterOrders.parameters = some 5 ∧
      adapterFor (reader .postgres) laterOrders orderUnit true = .ok bound ∧
      bound = ⟨"SELECT * FROM t_order_1 LIMIT $2 OFFSET $1", [.int 0, .int 15]⟩ ∧
      bound.sql = (reader .postgres).renderAll [written] ∧
      ((readerReading .postgres).cut written).skipped? .decimal bound.parameters = some 0 ∧
      ((readerReading .postgres).cut written).kept? .decimal bound.parameters = some 15 := by
  have hcommand : ∃ c, Sql.parse? .postgres laterOrders.sql = some [c] ∧ _ :=
    exists_of_any_single
      (fun c =>
        ((readerReading .postgres).cut c).skipped? .decimal laterOrders.parameters == some 10 &&
        ((readerReading .postgres).cut c).kept? .decimal laterOrders.parameters == some 5 &&
        ((readerReading .postgres).cut c).clause?.bind (·.offsetPosition?) == some 0 &&
        ((readerReading .postgres).cut c).clause?.bind (·.limitPosition?) == some 1 &&
        ((readerReading .postgres).cut c).fetch.isNone)
      (by decide +kernel)
  rcases hcommand with ⟨c, hparse, hcheck⟩
  simp only [Bool.and_eq_true, beq_iff_eq, Option.isNone_iff_eq_none] at hcheck
  rcases hcheck with ⟨⟨⟨⟨hskipped, hkept⟩, hoffset⟩, hlimit⟩, hfetch⟩
  rcases adapterFor_keeps_iff (reader_lawful .postgres) .decimal hparse rfl rfl rfl hskipped hkept
    orderUnit with ⟨bound, written, hbound, -, hsql, hnone, hiff⟩
  have hcanKeep : ((readerReading .postgres).cut c).CanKeep 5 15 := by
    refine ⟨fun _ _ => by decide, fun i hi hshared => ?_, fun f hf => ?_⟩
    · cases hlimit.symm.trans hi
      cases hoffset.symm.trans hshared
    · cases hfetch.symm.trans hf
  have hadapted : adapterFor (reader .postgres) laterOrders orderUnit true =
      .ok ⟨"SELECT * FROM t_order_1 LIMIT $2 OFFSET $1", [.int 0, .int 15]⟩ := by
    apply eq_ok_of_toOption
    decide +kernel
  cases hbound.symm.trans hadapted
  exact ⟨c, _, written, hparse, hskipped, hkept, hadapted, rfl, hsql, hnone, hiff.mpr hcanKeep⟩

/-- The second page of orders, with one parameter for both bounds. -/
def evenOrders : Statement :=
  { sql := "SELECT * FROM t_order LIMIT $1 OFFSET $1"
    tables := ["t_order"]
    parameters := [.int 5]
    shape := { Shape.plain with page := some ⟨5, some 5⟩ } }

/-- The query for a shard keeps no rows at all when one parameter is limit and offset, since it is
zero then. -/
theorem adapterFor_keeps_none_evenOrders :
    ∃ c, Sql.parse? .postgres evenOrders.sql = some [c] ∧
      ((readerReading .postgres).cut c).skipped? .decimal evenOrders.parameters = some 5 ∧
      ((readerReading .postgres).cut c).kept? .decimal evenOrders.parameters = some 5 ∧
      adapterFor (reader .postgres) evenOrders ⟨.identity "ds_0", [.identity "t_order"]⟩ true =
        .ok ⟨evenOrders.sql, [.int 0]⟩ ∧
      ((readerReading .postgres).cut c).skipped? .decimal [.int 0] = some 0 ∧
      ((readerReading .postgres).cut c).kept? .decimal [.int 0] = some 0 ∧
      evenOrders.shape.page.bind (·.pushedDown) = some 10 := by
  have hcommand : ∃ c, Sql.parse? .postgres evenOrders.sql = some [c] ∧ _ :=
    exists_of_any_single
      (fun c =>
        ((readerReading .postgres).cut c).skipped? .decimal evenOrders.parameters == some 5 &&
        ((readerReading .postgres).cut c).kept? .decimal evenOrders.parameters == some 5 &&
        ((readerReading .postgres).cut c).skipped? .decimal [.int 0] == some 0 &&
        ((readerReading .postgres).cut c).kept? .decimal [.int 0] == some 0)
      (by decide +kernel)
  have hadapted : adapterFor (reader .postgres) evenOrders
      ⟨.identity "ds_0", [.identity "t_order"]⟩ true = .ok ⟨evenOrders.sql, [.int 0]⟩ := by
    apply eq_ok_of_toOption
    decide +kernel
  rcases hcommand with ⟨c, hparse, hcheck⟩
  simp only [Bool.and_eq_true, beq_iff_eq] at hcheck
  rcases hcheck with ⟨⟨⟨hskipped, hkept⟩, hnone⟩, hempty⟩
  exact ⟨c, hparse, hskipped, hkept, hadapted, hnone, hempty, rfl⟩

end ShardedSql
