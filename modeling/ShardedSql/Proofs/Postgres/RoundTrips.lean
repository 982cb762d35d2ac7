import Mathlib.Logic.Basic
import ShardedSql.Postgres.Value
import ShardedSql.Proofs.Postgres.Codec

/-!
# Parameters that are read back

A value that is sent as a parameter and comes back in a column of the same type is the value that
was sent, with any codec that keeps to the formats of the server.  Integers are sent in two's
complement in as many bytes as their type has, and refused when they do not fit.  A NULL is read
back as NULL unless values of the type cannot be read at all.

Main results:

- Theorem `Postgres.decode_integer_iff`: bytes are read as the number that has them.
- Theorem `Postgres.encode_int_cases`: which integers are sent.
- Theorem `Postgres.decode_encode`: what is sent is read back.
-/

namespace ShardedSql.Postgres

/-! ## Integers -/

/-- The number of bytes of an integer type. -/
def ColumnType.integerWidth? : ColumnType → Option Nat
  | int2 => some 2
  | int4 => some 4
  | int8 => some 8
  | _ => none

variable {c : Codec} {type : ColumnType} {width : Nat} {v : Int64} {bs : List UInt8}

/-- An integer does not fit, being too large or too small, or it is kept. -/
theorem checkWidth_cases (width : Nat) (v : Int64) :
    (Nat.pow 2 (8 * width - 1) ≤ v.toInt ∧ checkWidth width v = .error .tooLarge) ∨
    (v.toInt < -Nat.pow 2 (8 * width - 1) ∧ checkWidth width v = .error .tooSmall) ∨
    (FitsSigned width v.toInt ∧ checkWidth width v = .ok v) := by
  unfold checkWidth
  by_cases hlarge : Nat.pow 2 (8 * width - 1) ≤ v.toInt
  · exact .inl ⟨hlarge, if_pos hlarge⟩
  · rw [if_neg hlarge]
    by_cases hsmall : v.toInt < -Nat.pow 2 (8 * width - 1)
    · exact .inr (.inl ⟨hsmall, if_pos hsmall⟩)
    · exact .inr (.inr ⟨⟨Int.not_lt.mp hsmall, Int.not_le.mp hlarge⟩, if_neg hsmall⟩)

/-- An integer that fits into two bytes is kept by them. -/
theorem toInt_toInt16_of_fits (h : FitsSigned 2 v.toInt) : v.toInt16.toInt = v.toInt := by
  rw [Int64.toInt_toInt16]
  exact Int.bmod_eq_of_le h.1 h.2

/-- An integer that fits into four bytes is kept by them. -/
theorem toInt_toInt32_of_fits (h : FitsSigned 4 v.toInt) : v.toInt32.toInt = v.toInt := by
  rw [Int64.toInt_toInt32]
  exact Int.bmod_eq_of_le h.1 h.2

namespace NativeType.IsSigned

variable {α : Type} {t : NativeType α} {own : ColumnType} {toInt : α → Int}

/-- A field has the native number with its bytes, if there is one. -/
theorem field_cases (ht : t.IsSigned own width toInt) (bs : List UInt8) :
    (∃ a, t.field? own (some bs) = some (some a) ∧ TwosComplement width (toInt a) bs) ∨
    (t.field? own (some bs) = none ∧ ∀ a, ¬ TwosComplement width (toInt a) bs) := by
  have hfield : t.field? own (some bs) = (t.read? own bs).map some := if_pos ht.accepts
  rw [hfield]
  cases hread : t.read? own bs with
  | some a => exact .inl ⟨a, rfl, (ht.read_iff bs a).mp hread⟩
  | none =>
      refine .inr ⟨rfl, fun a ha => ?_⟩
      cases hread.symm.trans ((ht.read_iff bs a).mpr ha)

/-- A field has the integer that fits and has its bytes. -/
theorem cell_iff (ht : t.IsSigned own width toInt) (hwidth : 0 < width)
    (hfits : ∀ a, FitsSigned width (toInt a)) {wide : α → Int64}
    (hwide : ∀ a, (wide a).toInt = toInt a)
    (hnarrow : FitsSigned width v.toInt → ∃ a, toInt a = v.toInt) :
    (t.field? own (some bs)).map (·.map fun a => Cell.int (wide a)) = some (some (.int v)) ↔
      FitsSigned width v.toInt ∧ TwosComplement width v.toInt bs := by
  rcases ht.field_cases bs with ⟨a, hfield, ha⟩ | ⟨hfield, hnone⟩
  · rw [hfield, Option.map_some, Option.map_some, Option.some_inj, Option.some_inj, Cell.int.injEq]
    constructor
    · rintro rfl
      rw [hwide]
      exact ⟨hfits a, ha⟩
    · -- There is only one number that fits and has these bytes.
      intro hv
      have hread := ((twosComplement_iff hwidth).mp ⟨hfits a, ha⟩).2
      rw [((twosComplement_iff hwidth).mp hv).2, ← hwide] at hread
      exact Int64.toInt_inj.mp hread.symm
  · rw [hfield]
    refine iff_of_false (fun h => by cases h) fun ⟨hv, hbs⟩ => ?_
    rcases hnarrow hv with ⟨a, ha⟩
    exact hnone a (ha ▸ hbs)

/-- A number that is narrowed first is refused, being too large or too small, or it is written in
two's complement. -/
theorem written_cases (ht : t.IsSigned own width toInt) {narrow : Int64 → α}
    (hnarrow : FitsSigned width v.toInt → toInt (narrow v) = v.toInt) (type : ColumnType) :
    (Nat.pow 2 (8 * width - 1) ≤ v.toInt ∧
      (checkWidth width v).map (fun v => t.write type (narrow v)) = .error .tooLarge) ∨
    (v.toInt < -Nat.pow 2 (8 * width - 1) ∧
      (checkWidth width v).map (fun v => t.write type (narrow v)) = .error .tooSmall) ∨
    (FitsSigned width v.toInt ∧ ∃ bs,
      (checkWidth width v).map (fun v => t.write type (narrow v)) = .ok bs ∧
      TwosComplement width v.toInt bs) := by
  rcases checkWidth_cases width v with ⟨hlarge, h⟩ | ⟨hsmall, h⟩ | ⟨hfits, h⟩
  · exact .inl ⟨hlarge, by rw [h]; rfl⟩
  · exact .inr (.inl ⟨hsmall, by rw [h]; rfl⟩)
  · have hwritten := ht.write type (narrow v)
    rw [hnarrow hfits] at hwritten
    exact .inr (.inr ⟨hfits, _, by rw [h]; rfl, hwritten⟩)

end NativeType.IsSigned

/-- A field is an integer exactly when it can be read as one. -/
theorem decode_eq_int_iff {wire : Wire} :
    decode c type wire = .int v ↔ cell? c type wire = some (some (.int v)) := by
  unfold decode
  cases cell? c type wire with
  | none => exact iff_of_false (fun h => by cases h) fun h => by cases h
  | some cell =>
      cases cell with
      | none => exact iff_of_false (fun h => by cases h) fun h => by cases h
      | some cell => rw [Option.some_inj, Option.some_inj]

/-- Bytes in a column of integers are read as the number that fits and has these bytes. -/
theorem decode_integer_iff (hc : c.Lawful) (hwidth : type.integerWidth? = some width) :
    decode c type (some bs) = .int v ↔
      FitsSigned width v.toInt ∧ TwosComplement width v.toInt bs := by
  rw [decode_eq_int_iff]
  cases type with
  | int2 =>
      cases hwidth
      exact hc.int2.cell_iff (by decide) (fun a => ⟨a.le_toInt, a.toInt_lt⟩) Int16.toInt_toInt64
        fun hv => ⟨v.toInt16, toInt_toInt16_of_fits hv⟩
  | int4 =>
      cases hwidth
      exact hc.int4.cell_iff (by decide) (fun a => ⟨a.le_toInt, a.toInt_lt⟩) Int32.toInt_toInt64
        fun hv => ⟨v.toInt32, toInt_toInt32_of_fits hv⟩
  | int8 =>
      cases hwidth
      exact hc.int8.cell_iff (by decide) (fun a => ⟨a.le_toInt, a.toInt_lt⟩) (fun _ => rfl)
        fun _ => ⟨v, rfl⟩
  | _ => cases hwidth

/-- An integer is refused, being too large or too small, or it is sent in two's complement. -/
theorem encode_int_cases (hc : c.Lawful) (hwidth : type.integerWidth? = some width) (v : Int64) :
    (Nat.pow 2 (8 * width - 1) ≤ v.toInt ∧ encode c type (.int v) = .error .tooLarge) ∨
    (v.toInt < -Nat.pow 2 (8 * width - 1) ∧ encode c type (.int v) = .error .tooSmall) ∨
    (FitsSigned width v.toInt ∧ ∃ bs, encode c type (.int v) = .ok (some bs) ∧
      TwosComplement width v.toInt bs) := by
  have hcases : (Nat.pow 2 (8 * width - 1) ≤ v.toInt ∧
        integerBytes c type v = .error .tooLarge) ∨
      (v.toInt < -Nat.pow 2 (8 * width - 1) ∧ integerBytes c type v = .error .tooSmall) ∨
      (FitsSigned width v.toInt ∧ ∃ bs, integerBytes c type v = .ok bs ∧
        TwosComplement width v.toInt bs) := by
    cases type with
    | int2 =>
        cases hwidth
        exact hc.int2.written_cases toInt_toInt16_of_fits .int2
    | int4 =>
        cases hwidth
        exact hc.int4.written_cases toInt_toInt32_of_fits .int4
    | int8 =>
        -- Every integer fits into eight bytes.
        cases hwidth
        exact .inr (.inr ⟨⟨v.le_toInt, v.toInt_lt⟩, _, rfl, hc.int8.write .int8 v⟩)
    | _ => cases hwidth
  rw [encode]
  rcases hcases with ⟨hlarge, h⟩ | ⟨hsmall, h⟩ | ⟨hfits, bs, h, hbs⟩
  · exact .inl ⟨hlarge, by rw [h]; rfl⟩
  · exact .inr (.inl ⟨hsmall, by rw [h]; rfl⟩)
  · exact .inr (.inr ⟨hfits, bs, by rw [h]; rfl, hbs⟩)

/-- An integer is refused exactly when it lies above or below the range of the type, and else sent
in two's complement and read back. -/
theorem encode_int_iff (hc : c.Lawful) (hwidth : type.integerWidth? = some width) (v : Int64) :
    (encode c type (.int v) = .error .tooLarge ↔ Nat.pow 2 (8 * width - 1) ≤ v.toInt) ∧
    (encode c type (.int v) = .error .tooSmall ↔ v.toInt < -Nat.pow 2 (8 * width - 1)) ∧
    (FitsSigned width v.toInt ↔ ∃ bs, encode c type (.int v) = .ok (some bs) ∧
      TwosComplement width v.toInt bs ∧ decode c type (some bs) = .int v) := by
  rcases encode_int_cases hc hwidth v with ⟨hlarge, h⟩ | ⟨hsmall, h⟩ | ⟨hfits, bs, h, hbytes⟩
  · rw [h]
    unfold FitsSigned
    refine ⟨iff_of_true rfl hlarge, iff_of_false (fun h => by cases h) (by omega),
      iff_of_false (by omega) ?_⟩
    rintro ⟨bs, hbs, -⟩
    cases hbs
  · rw [h]
    unfold FitsSigned
    refine ⟨iff_of_false (fun h => by cases h) (by omega), iff_of_true rfl hsmall,
      iff_of_false (by omega) ?_⟩
    rintro ⟨bs, hbs, -⟩
    cases hbs
  · rw [h]
    exact ⟨iff_of_false (fun h => by cases h) (Int.not_le.mpr hfits.2),
      iff_of_false (fun h => by cases h) (Int.not_lt.mpr hfits.1),
      iff_of_true hfits ⟨bs, rfl, hbytes, (decode_integer_iff hc hwidth).mpr ⟨hfits, hbytes⟩⟩⟩

/-! ## Other values -/

/-- Whether values of the type are read as something else than texts of the server. -/
def ColumnType.isNative : ColumnType → Bool
  | text | varchar | other _ => false
  | _ => true

/-- The value can be sent as a parameter of the type, and is read back from what was sent. -/
def ReadBack (c : Codec) (type : ColumnType) (cell : Cell) : Prop :=
  ∃ bs, encode c type cell = .ok (some bs) ∧ decode c type (some bs) = cell

/-- Truth values are read back. -/
theorem readBack_bool (hc : c.Lawful) (b : Bool) : ReadBack c .bool (.bool b) := by
  refine ⟨_, rfl, ?_⟩
  have hread : c.bool.read? .bool (c.bool.write .bool b) = some b :=
    (hc.bool_read_iff _ b).mpr ⟨b.toUInt8, hc.bool_write .bool b, by cases b <;> decide⟩
  simp only [decode, cell?, NativeReader.field?, hc.bool_accepts, if_true, hread, Option.map_some]

/-- The fields of a type without a native sort are texts, if the type is accepted. -/
theorem cell?_of_isNative_eq_false (htype : type.isNative = false) (wire : Wire) :
    cell? c type wire = (c.text.field? type wire).map (·.map .text) := by
  cases type with
  | text | varchar | other _ => rfl
  | _ => cases htype

/-- A text is read back at every type whose values are accepted as texts. -/
theorem readBack_text (hc : c.Lawful) (htype : type.isNative = false)
    (haccepts : c.text.accepts type = true) (s : String) : ReadBack c type (.text s) := by
  refine ⟨_, rfl, ?_⟩
  have hread : c.text.read? type (c.text.write type s) = some s :=
    (hc.text_read_iff type _ s haccepts).mpr (hc.text_write type s)
  simp only [decode, cell?_of_isNative_eq_false htype, NativeReader.field?, haccepts, if_true,
    hread, Option.map_some]

/-- Bytes are read back. -/
theorem readBack_bytes (hc : c.Lawful) (bs : List UInt8) : ReadBack c .bytea (.bytes bs) := by
  refine ⟨_, rfl, ?_⟩
  simp only [decode, cell?, NativeReader.field?, hc.bytes_accepts, if_true, hc.bytes_write,
    hc.bytes_read, Option.map_some]

/-- A NULL of an accepted type is there. -/
theorem field?_none {α : Type} {r : NativeReader α} (haccepts : r.accepts type = true) :
    r.field? type none = some none :=
  if_pos haccepts

/-- A NULL is read back as NULL at every type whose values can be read. -/
theorem decode_null_iff (hc : c.Lawful) (type : ColumnType) :
    decode c type none = .null ↔ type.isNative = true ∨ c.text.accepts type = true := by
  cases hnative : type.isNative with
  | true =>
      refine iff_of_true ?_ (.inl rfl)
      unfold decode
      cases type with
      | text | varchar | other _ => cases hnative
      | bool => rw [cell?, field?_none hc.bool_accepts]; rfl
      | int2 => rw [cell?, field?_none hc.int2.accepts]; rfl
      | int4 => rw [cell?, field?_none hc.int4.accepts]; rfl
      | int8 => rw [cell?, field?_none hc.int8.accepts]; rfl
      | float4 => rw [cell?, field?_none hc.float4_accepts]; rfl
      | float8 => rw [cell?, field?_none hc.float8_accepts]; rfl
      | bytea => rw [cell?, field?_none hc.bytes_accepts]; rfl
      | date => rw [cell?, field?_none hc.date_accepts]; rfl
      | timestamp => rw [cell?, field?_none hc.timestamp_accepts]; rfl
      | timestamptz => rw [cell?, field?_none hc.timestamptz_accepts]; rfl
  | false =>
      rw [or_iff_right Bool.false_ne_true, decode, cell?_of_isNative_eq_false hnative]
      cases haccepts : c.text.accepts type with
      | true => rw [field?_none haccepts]; exact iff_of_true rfl rfl
      | false =>
          have hfield : c.text.field? type none = none :=
            if_neg (Bool.eq_false_iff.mp haccepts)
          rw [hfield]
          exact iff_of_false (fun h => by cases h) Bool.false_ne_true

/-- A type whose values are not accepted shows its name. -/
theorem decode_of_accepts_eq_false (htype : type.isNative = false)
    (haccepts : c.text.accepts type = false) (wire : Wire) :
    decode c type wire = .text ("<" ++ type.name ++ ">") := by
  have hfield : c.text.field? type wire = none := if_neg (Bool.eq_false_iff.mp haccepts)
  rw [decode, cell?_of_isNative_eq_false htype, hfield]
  rfl

/-- What is sent is read back.  An integer is refused exactly when it lies outside of the range of
its type, and otherwise sent in two's complement in as many bytes as the type has.  Booleans, texts
and bytes are read back whatever they are, and a NULL at every type whose values can be read; a
column of any other type shows the name of its type. -/
theorem decode_encode (hc : c.Lawful) :
    (∀ (type : ColumnType) (width : Nat), type.integerWidth? = some width → ∀ v : Int64,
      (encode c type (.int v) = .error .tooLarge ↔ Nat.pow 2 (8 * width - 1) ≤ v.toInt) ∧
      (encode c type (.int v) = .error .tooSmall ↔ v.toInt < -Nat.pow 2 (8 * width - 1)) ∧
      (FitsSigned width v.toInt ↔ ∃ bs, encode c type (.int v) = .ok (some bs) ∧
        TwosComplement width v.toInt bs ∧ decode c type (some bs) = .int v)) ∧
    (∀ b, ReadBack c .bool (.bool b)) ∧
    (∀ s, ReadBack c .text (.text s) ∧ ReadBack c .varchar (.text s)) ∧
    (∀ bs, ReadBack c .bytea (.bytes bs)) ∧
    (∀ type, encode c type .null = .ok none ∧
      (decode c type none = .null ↔ type.isNative = true ∨ c.text.accepts type = true)) ∧
    ∀ type, type.isNative = false → c.text.accepts type = false →
      ∀ wire, decode c type wire = .text ("<" ++ type.name ++ ">") := by
  have htext : ∀ s, ReadBack c .text (.text s) ∧ ReadBack c .varchar (.text s) := fun s =>
    ⟨readBack_text hc rfl hc.text_accepts.1 s, readBack_text hc rfl hc.text_accepts.2 s⟩
  exact ⟨fun type width hwidth v => encode_int_iff hc hwidth v, readBack_bool hc, htext,
    readBack_bytes hc, fun type => ⟨rfl, decode_null_iff hc type⟩,
    fun type => decode_of_accepts_eq_false⟩

/-- With the standard codec the least number of two bytes is sent and read back, and the one below
is refused. -/
theorem decode_encode_leastOfTwoBytes :
    Codec.standard.Lawful ∧ ColumnType.int2.integerWidth? = some 2 ∧
    (∃ bs, encode .standard .int2 (.int (-32768)) = .ok (some bs) ∧ TwosComplement 2 (-32768) bs ∧
      decode .standard .int2 (some bs) = .int (-32768)) ∧
    encode .standard .int2 (.int (-32769)) = .error .tooSmall := by
  have hc := Codec.standard_lawful
  have hwidth : ColumnType.int2.integerWidth? = some 2 := rfl
  have hfits : FitsSigned 2 (Int64.toInt (-32768)) := by
    constructor <;> decide
  exact ⟨hc, hwidth, ((decode_encode hc).1 .int2 2 hwidth (-32768)).2.2.mp hfits,
    ((decode_encode hc).1 .int2 2 hwidth (-32769)).2.1.mpr (by decide)⟩

/-- A NULL of a type that cannot be read is sent as NULL and comes back as a text. -/
theorem not_decode_encode_nullUuid :
    encode .standard (.other "uuid") .null = .ok none ∧
    decode .standard (.other "uuid") none = .text "<uuid>" := by
  exact ⟨rfl, by decide⟩

end ShardedSql.Postgres
