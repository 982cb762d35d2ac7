import ShardedSql.Postgres.StandardCodec
import ShardedSql.Proofs.Number.TwosComplement
import ShardedSql.Proofs.Text.Utf8

/-!
# Codecs that keep to the formats of the server

Integers are signed numbers in two's complement, booleans single bytes, and texts are in UTF-8, for
some types behind a header.  The formats say what is read from any bytes, not only from those that
were written.

Main result:

- Theorem `Codec.standard_lawful`: the standard codec keeps to the formats.
-/

namespace ShardedSql.Postgres

/-- Native integers have some width: they are written in two's complement, and read from that. -/
structure NativeType.IsSigned {α : Type} (t : NativeType α) (own : ColumnType) (width : Nat)
    (toInt : α → Int) : Prop where
  accepts : t.accepts own = true
  write : ∀ type v, TwosComplement width (toInt v) (t.write type v)
  read_iff : ∀ bs v, t.read? own bs = some v ↔ TwosComplement width (toInt v) bs

/-- The codec keeps to the formats of the server, whatever the type of a parameter says. -/
structure Codec.Lawful (c : Codec) : Prop where
  int2 : c.int2.IsSigned .int2 2 Int16.toInt
  int4 : c.int4.IsSigned .int4 4 Int32.toInt
  int8 : c.int8.IsSigned .int8 8 Int64.toInt
  bool_accepts : c.bool.accepts .bool = true
  bool_write : ∀ type b, c.bool.write type b = [b.toUInt8]
  bool_read_iff : ∀ bs b, c.bool.read? .bool bs = some b ↔ ∃ byte, bs = [byte] ∧ b = (byte != 0)
  text_accepts : c.text.accepts .text = true ∧ c.text.accepts .varchar = true
  text_write : ∀ type s, c.text.write type s = type.textHeader ++ Text.bytes s
  text_read_iff : ∀ type bs s, c.text.accepts type = true →
    (c.text.read? type bs = some s ↔ bs = type.textHeader ++ Text.bytes s)
  bytes_accepts : c.bytes.accepts .bytea = true
  bytes_write : ∀ type bs, c.bytes.write type bs = bs
  bytes_read : ∀ bs, c.bytes.read? .bytea bs = some bs
  float4_accepts : c.float4.accepts .float4 = true
  float8_accepts : c.float8.accepts .float8 = true
  date_accepts : c.date.accepts .date = true
  timestamp_accepts : c.timestamp.accepts .timestamp = true
  timestamptz_accepts : c.timestamptz.accepts .timestamptz = true

/-! ## The standard codec -/

/-- Signed numbers keep to their format if their kind has the numbers that fit. -/
theorem NativeType.signed_isSigned {α : Type} {own : ColumnType} {width : Nat} (hwidth : 0 < width)
    {ofInt : Int → α} {toInt : α → Int} (hfits : ∀ v, FitsSigned width (toInt v))
    (hread : ∀ n, FitsSigned width n → toInt (ofInt n) = n)
    (hback : ∀ v, ofInt (toInt v) = v) :
    (NativeType.signed own width ofInt toInt).IsSigned own width toInt where
  accepts := beq_self_eq_true own
  write _ v := twosComplement_bigEndian width (toInt v)
  read_iff bs v := by
    show (signed? width bs).map ofInt = some v ↔ _
    unfold signed? sized?
    split
    · rename_i hlength
      rw [Option.map_some, Option.map_some, Option.some_inj]
      constructor
      · rintro rfl
        rcases (twosComplement_iff hwidth).mpr ⟨hlength, rfl⟩ with ⟨hsigned, hbs⟩
        rwa [hread _ hsigned]
      · intro hbs
        rw [((twosComplement_iff hwidth).mp ⟨hfits v, hbs⟩).2, hback]
    · rename_i hlength
      exact iff_of_false (fun h => by cases h) fun hbs => hlength hbs.length

namespace Codec

/-- A truth value is read from one byte, which is not zero if it is true. -/
theorem standardBool_read_iff (type : ColumnType) (bs : List UInt8) (b : Bool) :
    standardBool.read? type bs = some b ↔ ∃ byte, bs = [byte] ∧ b = (byte != 0) := by
  rcases bs with _ | ⟨byte, _ | ⟨next, bs⟩⟩ <;> simp [standardBool, eq_comm]

/-- A text is read from its UTF-8 behind the header of the type. -/
theorem standardText_read_iff (type : ColumnType) (bs : List UInt8) (s : String) :
    standardText.read? type bs = some s ↔ bs = type.textHeader ++ Text.bytes s := by
  show (if type.textHeader <+: bs then _ else none) = some s ↔ _
  split
  · rename_i hheader
    rcases hheader with ⟨rest, rfl⟩
    rw [List.drop_left, Text.ofBytes?_eq_some_iff, List.append_cancel_left_eq]
  · rename_i hheader
    refine iff_of_false (fun h => by cases h) ?_
    rintro rfl
    exact hheader (List.prefix_append _ _)

/-- The standard codec keeps to the formats of the server. -/
theorem standard_lawful : standard.Lawful where
  int2 := NativeType.signed_isSigned (by decide) (fun v => ⟨v.le_toInt, v.toInt_lt⟩)
    (fun _ hn => Int16.toInt_ofInt_of_le hn.1 hn.2) Int16.ofInt_toInt
  int4 := NativeType.signed_isSigned (by decide) (fun v => ⟨v.le_toInt, v.toInt_lt⟩)
    (fun _ hn => Int32.toInt_ofInt_of_le hn.1 hn.2) Int32.ofInt_toInt
  int8 := NativeType.signed_isSigned (by decide) (fun v => ⟨v.le_toInt, v.toInt_lt⟩)
    (fun _ hn => Int64.toInt_ofInt_of_le hn.1 hn.2) Int64.ofInt_toInt
  bool_accepts := rfl
  bool_write _ _ := rfl
  bool_read_iff := standardBool_read_iff .bool
  text_accepts := ⟨by decide, by decide⟩
  text_write _ _ := rfl
  text_read_iff type bs s _ := standardText_read_iff type bs s
  bytes_accepts := rfl
  bytes_write _ _ := rfl
  bytes_read _ := rfl
  float4_accepts := rfl
  float8_accepts := rfl
  date_accepts := rfl
  timestamp_accepts := rfl
  timestamptz_accepts := rfl

end Codec

end ShardedSql.Postgres
