import ShardedSql.Proofs.Merge.SingleResult
import ShardedSql.Proofs.Text.Lowering

/-!
# Masked columns

Masks leave the rows of a merge as they are and change what is read from single columns.  The mask
of a column is looked up under lowered names, but only for a table that the rule covers up to the
case of ASCII letters.  A table whose name has other letters in upper case is therefore not covered,
and a statement that lists its only table twice leaves the owner of a bare projection open: in both
cases a masked column is shown in clear.

Main results:

- Theorem `Merger.exists_masked`: what is read from merged results through masks.
- Theorem `MaskRule.lookup_columnMasks`: the mask of a result column is that of its projection.
- Theorem `MaskRule.coversTable_iff`: which of the tables with a mask are covered.
- Theorem `Merger.cell_of_owned`: how the column of a projection that names its table is shown.
- Theorem `MaskRule.lookup_columnMasks_of_bare`: when a projection that names none is masked.
-/

namespace ShardedSql

open Cursor

/-! ## Reading through masks -/

namespace MergedResult

/-- Merged rows with other masks on their columns. -/
def withMasks (masks : ColumnMasks) (r : MergedResult) : MergedResult :=
  { r with cursor := { r.cursor with masks } }

/-- Masks stay the same however often the cursor moves. -/
theorem after_withMasks (masks : ColumnMasks) (moves : Nat) (r : MergedResult) :
    after moves (r.withMasks masks) = (after moves r).withMasks masks :=
  after_wrap (withMasks masks) (fun _ => rfl) moves r

/-- A masked cell is the mask of the plain one. -/
theorem cell_withMasks (masks : ColumnMasks) (r : MergedResult) (column : Nat) :
    (r.withMasks masks).cell column =
      ((r.withMasks []).cell column).map (masks.apply column) := by
  show (if r.width ≤ column then _ else (Cursor.cell r.cursor.inner column).map _) =
    Except.map _ (if r.width ≤ column then _ else (Cursor.cell r.cursor.inner column).map _)
  split
  · rfl
  · cases Cursor.cell r.cursor.inner column <;> rfl

end MergedResult

namespace Merger

/-- Results are merged with masks as they are without, and then the masks are put on. -/
theorem merge_masks (collation : Collation) (rule : MaskRule) (results : List ResultCursor)
    (statement : Statement) :
    (Merger.mk collation rule).merge results statement =
      ((Merger.mk collation .none).merge results statement).map
        (·.withMasks (rule.columnMasks statement)) := by
  unfold merge
  cases hfind : results.find? (·.width != (commonColumns results).length) with
  | some other =>
      simp only [hfind]
      rfl
  | none =>
      simp only [hfind]
      cases MergedCursor.ofResults results statement.shape (commonColumns results).length
        collation <;> rfl

/-- Whatever is read from merged results without masks is read through them with masks. -/
theorem exists_masked {collation : Collation} {results : List ResultCursor} {statement : Statement}
    {clear : MergedResult} (rule : MaskRule)
    (hclear : (Merger.mk collation .none).merge results statement = .ok clear) :
    ∃ shown, (Merger.mk collation rule).merge results statement = .ok shown ∧
      ∀ moves column, cell (after moves shown) column =
        (cell (after moves clear) column).map ((rule.columnMasks statement).apply column) := by
  have hbare : clear = clear.withMasks [] := by
    rcases merge_eq_ok_iff.mp hclear with ⟨-, inner, -, rfl⟩
    rw [MaskRule.columnMasks_none]
    rfl
  refine ⟨clear.withMasks (rule.columnMasks statement), ?_, fun moves column => ?_⟩
  · rw [merge_masks, hclear]
    rfl
  · rw [MergedResult.after_withMasks]
    conv => rhs; rw [hbare, MergedResult.after_withMasks]
    exact MergedResult.cell_withMasks _ _ _

end Merger

/-- Lowering the name changes no more than the case of ASCII letters. -/
def Text.lowersInAscii (name : String) : Bool :=
  alike (lower name) name

/-! ## The masks of a statement -/

/-- Images of the elements of a list are looked up under their places. -/
theorem lookup_filterMap_zipIdx {α β : Type} (f : α → Option β) (xs : List α) (start k : Nat) :
    ((xs.zipIdx start).filterMap fun e => (f e.1).map fun y => (e.2, y)).lookup k =
      if start ≤ k then xs[k - start]?.bind f else none := by
  induction xs generalizing start with
  | nil => simp
  | cons x xs ih =>
      rw [List.zipIdx_cons]
      rcases Nat.lt_trichotomy start k with hlt | rfl | hgt
      · have hne : (k == start) = false := beq_false_of_ne (Nat.ne_of_gt hlt)
        have hrest := ih (start + 1)
        rw [if_pos (Nat.succ_le_of_lt hlt)] at hrest
        rw [if_pos (Nat.le_of_lt hlt), show k - start = k - (start + 1) + 1 by omega,
          List.getElem?_cons_succ, ← hrest]
        cases hx : f x <;> simp [hx, List.lookup_cons, hne]
      · have hrest := ih (start + 1)
        rw [if_neg (Nat.not_succ_le_self start)] at hrest
        rw [if_pos (Nat.le_refl start), Nat.sub_self]
        cases hx : f x <;> simp [hx, hrest]
      · have hne : (k == start) = false := beq_false_of_ne (Nat.ne_of_lt hgt)
        have hrest := ih (start + 1)
        rw [if_neg (by omega)] at hrest
        rw [if_neg (Nat.not_le.mpr hgt), ← hrest]
        cases hx : f x <;> simp [hx, List.lookup_cons, hne]

namespace MaskRule

/-- A result column is shown through the mask of the projection in its place. -/
theorem lookup_columnMasks (rule : MaskRule) (statement : Statement) (column : Nat) :
    (rule.columnMasks statement).lookup column =
      statement.projections[column]?.bind (rule.projectionMask? statement) :=
  (lookup_filterMap_zipIdx (rule.projectionMask? statement) statement.projections 0 column).trans
    (if_pos (Nat.zero_le column))

variable {spec : MaskSpec} {rule : MaskRule} {table : String} {mask : Mask}

/-- The tables of a rule that is set up are lowered. -/
theorem lower_table (hrule : setUp spec = .ok rule) :
    ∀ c ∈ rule.columns, Text.lower c.table = c.table := by
  unfold setUp at hrule
  simp only [Except.bind_eq_ok] at hrule
  rcases hrule with ⟨masks, -, columns, hcolumns, h⟩
  cases h
  intro c hc
  rcases List.mem_flatten.mp hc with ⟨ofTable, hofTable, hc⟩
  rcases mem_of_mapM hcolumns ofTable hofTable with ⟨⟨name, bound⟩, -, hbound⟩
  rcases mem_of_mapM hbound c hc with ⟨⟨column, maskName⟩, -, hc⟩
  unfold setUpColumn at hc
  split at hc
  · cases hc
    exact Text.lower_lower name
  · cases hc

/-- The mask of a column is that of its lower-case name. -/
theorem mask_eq_ok_iff {column : String} : rule.mask table column = .ok mask ↔
    ∃ c, rule.columns.find?
        (fun c => c.table == Text.lower table && c.column == Text.lower column) = some c ∧
      c.mask = mask := by
  unfold MaskRule.mask
  cases hfind : rule.columns.find?
    (fun c => c.table == Text.lower table && c.column == Text.lower column) with
  | none => simp [hfind]
  | some c => simp [hfind]

/-- A table with a masked column is covered exactly when lowering its name changes no more than the
case of ASCII letters. -/
theorem coversTable_iff (hrule : setUp spec = .ok rule) {column : String}
    (hmask : rule.mask table column = .ok mask) :
    rule.coversTable table = true ↔ Text.lowersInAscii table = true := by
  rw [coversTable, List.any_eq_true]
  constructor
  · rintro ⟨c, hc, halike⟩
    rwa [Text.lowersInAscii, ← Text.lower_eq_of_alike halike, lower_table hrule c hc]
  · intro halike
    rcases mask_eq_ok_iff.mp hmask with ⟨c, hfind, -⟩
    have hkey := List.find?_some hfind
    rw [Bool.and_eq_true, beq_iff_eq] at hkey
    exact ⟨c, List.mem_of_find?_eq_some hfind, hkey.1 ▸ halike⟩

/-- Names with the same lower-case form have the same mask. -/
theorem mask_congr {name : String} (hname : Text.lower name = Text.lower table) {column : String}
    (hmask : rule.mask table column = .ok mask) : rule.mask name column = .ok mask := by
  rw [mask_eq_ok_iff] at hmask ⊢
  rwa [hname]

/-- A statement has a sole table exactly if it has one. -/
theorem soleTable?_eq_some_iff {statement : Statement} :
    soleTable? statement = some table ↔ statement.tables = [table] := by
  unfold soleTable?
  cases statement.tables with
  | nil => simp
  | cons first others => cases others <;> simp

/-- A projection of a masked column is masked when its table is covered. -/
theorem projectionMask?_of_table (hrule : setUp spec = .ok rule) {statement : Statement}
    {p : Projection} (htable : p.table.or (soleTable? statement) = some table)
    (hmask : rule.mask table p.column = .ok mask) :
    rule.projectionMask? statement p =
      if Text.lowersInAscii table = true then some mask else Option.none := by
  have hcovers := coversTable_iff hrule hmask
  unfold projectionMask?
  rw [htable, Option.bind_eq_bind, Option.bind_some, hmask]
  simp only [hcovers]
  rfl

/-- A projection whose table is not known is not masked. -/
theorem projectionMask?_of_no_table {statement : Statement} {p : Projection}
    (htable : p.table.or (soleTable? statement) = Option.none) :
    rule.projectionMask? statement p = Option.none := by
  unfold projectionMask?
  rw [htable]
  rfl

/-- In a statement that lists no other table than one, a projection that names no table and whose
column has a mask is shown through it exactly when the table is listed once and lowering its name
changes only ASCII letters.  Otherwise it is shown in clear. -/
theorem lookup_columnMasks_of_bare (hrule : setUp spec = .ok rule) {statement : Statement}
    (hone : ∀ name ∈ statement.tables, Text.lower name = Text.lower table) {column : Nat}
    {p : Projection} (hp : statement.projections[column]? = some p)
    (hbare : p.table = Option.none) (hmask : rule.mask table p.column = .ok mask) :
    ((rule.columnMasks statement).lookup column = some mask ↔
      ∃ name, statement.tables = [name] ∧ Text.lowersInAscii name = true) ∧
    ((rule.columnMasks statement).lookup column = Option.none ↔
      ¬ ∃ name, statement.tables = [name] ∧ Text.lowersInAscii name = true) := by
  rw [lookup_columnMasks, hp, Option.bind_some]
  have hor : p.table.or (soleTable? statement) = soleTable? statement := by
    rw [hbare, Option.none_or]
  cases hsole : soleTable? statement with
  | none =>
      have hseveral : ¬ ∃ name, statement.tables = [name] ∧ Text.lowersInAscii name = true := by
        rintro ⟨name, hname, -⟩
        rw [soleTable?_eq_some_iff.mpr hname] at hsole
        cases hsole
      rw [projectionMask?_of_no_table (hor.trans hsole)]
      simp [hseveral]
  | some name =>
      have htables := soleTable?_eq_some_iff.mp hsole
      have hname : Text.lower name = Text.lower table :=
        hone name (htables ▸ List.mem_singleton_self name)
      rw [projectionMask?_of_table hrule (hor.trans hsole) (mask_congr hname hmask), htables]
      simp

/-- Masks for the phone numbers of physicians and of users. -/
def phoneMasks : MaskSpec :=
  { tables :=
      [("T_Ärzte", [("Phone", "hide_phone")]), ("t_user", [("phone", "hide_phone")])]
    algorithms := [("hide_phone",
      { type := "MASK_AFTER_SPECIAL_CHARS"
        properties := [("special-chars", "d1"), ("replace-char", "*")] })] }

/-- What hides the phone numbers. -/
def phoneMask : Mask := { side := .after, marker := "d1", replacement := '*' }

/-- The rule that the masks are set up to. -/
def phoneRule : MaskRule :=
  ⟨[{ table := "t_ärzte", column := "phone", mask := phoneMask },
    { table := "t_user", column := "phone", mask := phoneMask }]⟩

/-- The masks for phones make up `phoneRule`. -/
theorem setUp_phoneMasks : setUp phoneMasks = .ok phoneRule := rfl

/-- A statement that shows ids and phone numbers of its tables and does not say of which one. -/
def selectBare (tables : List String) : Statement :=
  { sql := "", tables, projections := [⟨.none, "id"⟩, ⟨.none, "PHONE"⟩] }

/-- When users are listed once their phone numbers are hidden. -/
theorem lookup_columnMasks_of_bare_users :
    (phoneRule.columnMasks (selectBare ["T_User"])).lookup 1 = some phoneMask := by
  have hone : ∀ name ∈ (selectBare ["T_User"]).tables, Text.lower name = Text.lower "t_user" := by
    decide
  have hp : (selectBare ["T_User"]).projections[1]? = some ⟨.none, "PHONE"⟩ := rfl
  exact (lookup_columnMasks_of_bare setUp_phoneMasks hone hp rfl rfl).1.mpr
    ⟨"T_User", rfl, by decide⟩

/-- When users are listed twice their phone numbers are shown in clear. -/
theorem not_lookup_columnMasks_usersTwice :
    phoneRule.mask "t_user" "PHONE" = .ok phoneMask ∧
    phoneRule.columnMasks (selectBare ["t_user", "t_user"]) = [] :=
  ⟨rfl, by decide⟩

end MaskRule

/-- A result column whose projection names its table and has a mask is shown through it exactly
when lowering the name of the table changes only ASCII letters.  Otherwise it is shown in clear. -/
theorem Merger.cell_of_owned {spec : MaskSpec} {rule : MaskRule}
    (hrule : MaskRule.setUp spec = .ok rule) {statement : Statement} {column : Nat}
    {p : Projection} (hp : statement.projections[column]? = some p) {table : String}
    (howned : p.table = some table) {mask : Mask} (hmask : rule.mask table p.column = .ok mask)
    {collation : Collation} {results : List ResultCursor} {clear : MergedResult}
    (hclear : (Merger.mk collation .none).merge results statement = .ok clear) :
    ∃ shown, (Merger.mk collation rule).merge results statement = .ok shown ∧
      ∀ moves, cell (after moves shown) column =
        if Text.lowersInAscii table = true then (cell (after moves clear) column).map mask.apply
        else cell (after moves clear) column := by
  rcases exists_masked rule hclear with ⟨shown, hshown, hcell⟩
  refine ⟨shown, hshown, fun moves => ?_⟩
  have htable : p.table.or (MaskRule.soleTable? statement) = some table := by
    rw [howned, Option.some_or]
  have hlookup := MaskRule.lookup_columnMasks rule statement column
  rw [hp, Option.bind_some, MaskRule.projectionMask?_of_table hrule htable hmask] at hlookup
  rw [hcell]
  by_cases hascii : Text.lowersInAscii table = true
  · rw [if_pos hascii] at hlookup ⊢
    have happly : (rule.columnMasks statement).apply column = mask.apply := by
      funext c
      rw [ColumnMasks.apply, hlookup]
    rw [happly]
  · rw [if_neg hascii] at hlookup ⊢
    have happly : (rule.columnMasks statement).apply column = id := by
      funext c
      rw [ColumnMasks.apply, hlookup]
      rfl
    rw [happly]
    cases cell (after moves clear) column <;> rfl

/-- A phone number of a physician. -/
def phones : ResultCursor := .ofRows [⟨"phone", "phone"⟩] [[.text "abcd134"]]

/-- A statement that asks for the phone numbers of a table. -/
def selectPhones (table : String) : Statement :=
  { sql := "", tables := [table], projections := [⟨some table, "phone"⟩] }

/-- Under a name that differs from its lowered one in ASCII letters the phone numbers are hidden. -/
theorem Merger.cell_of_owned_asciiCase :
    ∃ shown, (Merger.mk .binary MaskRule.phoneRule).merge [phones] (selectPhones "T_ärzte") =
        .ok shown ∧
      cell (after 1 shown) 0 = .ok (.text "abcd1**") := by
  have hp : (selectPhones "T_ärzte").projections[0]? = some ⟨some "T_ärzte", "phone"⟩ := rfl
  rcases cell_of_owned MaskRule.setUp_phoneMasks hp rfl rfl
    ((Merger.mk .binary .none).merge_single (selectPhones "T_ärzte") phones) with
    ⟨shown, hshown, hcell⟩
  exact ⟨shown, hshown, (hcell 1).trans rfl⟩

/-- Under the name the masks were set up with they are shown in clear. -/
theorem Merger.not_cell_of_owned_umlaut :
    MaskRule.phoneRule.mask "T_Ärzte" "phone" = .ok MaskRule.phoneMask ∧
    ∃ shown, (Merger.mk .binary MaskRule.phoneRule).merge [phones] (selectPhones "T_Ärzte") =
        .ok shown ∧
      cell (after 1 shown) 0 = .ok (.text "abcd134") ∧
      MaskRule.phoneMask.apply (.text "abcd134") = .text "abcd1**" := by
  exact ⟨rfl, _, (Merger.mk .binary MaskRule.phoneRule).merge_single _ _, rfl, by decide⟩

end ShardedSql
