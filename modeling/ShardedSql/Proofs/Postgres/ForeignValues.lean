import ShardedSql.Proofs.Postgres.RoundTrips
import ShardedSql.Proofs.Text.Numeral
import ShardedSql.Proofs.Text.Utf8

/-!
# Parameters of another kind

A parameter whose kind is not that of its type is sent all the same, by any codec that keeps to the
formats of the server: texts and bytes as they are, booleans as one byte, integers in eight bytes.
The server takes whatever has the right number of bytes, so that a text can arrive as a number or a
boolean that it does not stand for.

Main results:

- Theorem `Text.IsNumeral.natAbs_lt_ofBigEndian`: the bytes of a numeral make up a larger number.
- Theorem `Postgres.not_speltBy_integer`: no text arrives as the integer that it stands for.
- Theorem `Postgres.speltBy_bool_iff`: five texts arrive as the boolean that they stand for.
- Theorem `Postgres.arrives_foreign_iff`: every such parameter is sent, and only those arrive.
-/

namespace ShardedSql

/-! ## Numbers and their first byte -/

/-- The number of some bytes from two parts of them. -/
theorem ofLittleEndian_append (low high : List UInt8) :
    ofLittleEndian (low ++ high) =
      ofLittleEndian low + Nat.pow 256 low.length * ofLittleEndian high := by
  induction low with
  | nil => simp [ofLittleEndian]
  | cons b low ih =>
      rw [List.cons_append, ofLittleEndian, ofLittleEndian, ih, List.length_cons, Nat.pow_eq,
        Nat.pow_eq, Nat.pow_succ', Nat.mul_add, ← Nat.mul_assoc, Nat.add_assoc]

/-- The first byte counts most. -/
theorem ofBigEndian_cons (b : UInt8) (bs : List UInt8) :
    ofBigEndian (b :: bs) = b.toNat * Nat.pow 256 bs.length + ofBigEndian bs := by
  rw [ofBigEndian, List.reverse_cons, ofLittleEndian_append, List.length_reverse,
    ofLittleEndian, ofLittleEndian, Nat.mul_zero, Nat.add_zero, Nat.mul_comm, Nat.add_comm]
  rfl

/-- Bytes of which the first one lies in the lower half are those of a number that is not
negative. -/
theorem ofSignedBigEndian_cons {b : UInt8} (hb : b.toNat < 128) (bs : List UInt8) :
    ofSignedBigEndian (b :: bs) = ofBigEndian (b :: bs) ∧
      ofBigEndian (b :: bs) < Nat.pow 2 (8 * (b :: bs).length - 1) := by
  have hhalf : Nat.pow 2 (8 * (b :: bs).length - 1) = 128 * Nat.pow 256 bs.length := by
    rw [show 8 * (b :: bs).length - 1 = 7 + 8 * bs.length by rw [List.length_cons]; omega]
    simp only [Nat.pow_eq]
    rw [Nat.pow_add, Nat.pow_mul]
  have hlt : ofBigEndian (b :: bs) < Nat.pow 2 (8 * (b :: bs).length - 1) := by
    calc ofBigEndian (b :: bs) < (b.toNat + 1) * Nat.pow 256 bs.length := by
          rw [ofBigEndian_cons, Nat.succ_mul]
          exact Nat.add_lt_add_left (ofBigEndian_lt bs) _
      _ ≤ 128 * Nat.pow 256 bs.length := Nat.mul_le_mul_right _ hb
      _ = Nat.pow 2 (8 * (b :: bs).length - 1) := hhalf.symm
  exact ⟨if_pos hlt, hlt⟩

namespace Text

/-! ## Numerals as bytes -/

/-- The bytes of a numeral make up a number that is larger than its own, and that is not negative
in two's complement either. -/
theorem IsNumeral.natAbs_lt_ofBigEndian {n : Int} {s : String} (h : IsNumeral n s.toList) :
    n.natAbs < ofBigEndian (bytes s) ∧ ofSignedBigEndian (bytes s) = ofBigEndian (bytes s) ∧
      ofBigEndian (bytes s) < Nat.pow 2 (8 * (bytes s).length - 1) := by
  obtain ⟨c, cs, hs, hlow, hhigh, hn⟩ := h.exists_cons
  have hlength := length_toList_le_length_bytes s
  obtain ⟨bs, hbs⟩ := bytes_eq_cons hs hhigh
  rw [hbs] at hlength ⊢
  have hc := toNat_toUInt8 hhigh
  refine ⟨?_, ofSignedBigEndian_cons (by omega) bs⟩
  -- The least byte that a numeral begins with is the one of the plus sign.
  calc n.natAbs < Nat.pow 10 s.toList.length := hn
    _ ≤ Nat.pow 10 (bs.length + 1) := Nat.pow_le_pow_right (by decide) hlength
    _ = 10 * Nat.pow 10 bs.length := Nat.pow_succ'
    _ ≤ 43 * Nat.pow 256 bs.length :=
      Nat.mul_le_mul (by decide) (Nat.pow_le_pow_left (by decide) _)
    _ ≤ c.toNat * Nat.pow 256 bs.length := Nat.mul_le_mul_right _ hlow
    _ ≤ ofBigEndian (c.val.toUInt8 :: bs) := by
      rw [ofBigEndian_cons, hc]
      exact Nat.le_add_right _ _

end Text

namespace Postgres

/-! ## What a parameter stands for -/

/-- The kind of the values of a type, for the types of numbers and booleans that are sent as
parameters. -/
def ColumnType.ownKind? : ColumnType → Option CellKind
  | bool => some .bool
  | int2 | int4 | int8 => some .int
  | _ => none

/-- The words that a server reads as the two booleans. -/
def truthWords : List (String × Bool) :=
  [("true", true), ("yes", true), ("on", true), ("1", true),
    ("false", false), ("no", false), ("off", false), ("0", false)]

/-- The text is a beginning of the word, in letters of either case. -/
def Abbreviates (s word : String) : Prop :=
  s ≠ "" ∧ s.toList.map Char.toLower <+: word.toList

instance (s word : String) : Decidable (Abbreviates s word) :=
  inferInstanceAs (Decidable (_ ∧ _))

/-- The text abbreviates a word of a boolean, and no word of the other one. -/
def AbbreviatesTruth (s : String) (b : Bool) : Prop :=
  (∃ entry ∈ truthWords, Abbreviates s entry.1) ∧
    ∀ entry ∈ truthWords, Abbreviates s entry.1 → entry.2 = b

instance (s : String) (b : Bool) : Decidable (AbbreviatesTruth s b) :=
  inferInstanceAs (Decidable (_ ∧ _))

/-- The text stands for the number or the boolean of the cell. -/
inductive SpeltBy (s : String) : Cell → Prop
  | int {n : Int64} (h : Text.IsNumeral n.toInt s.toList) : SpeltBy s (.int n)
  | bool {b : Bool} (h : AbbreviatesTruth s b) : SpeltBy s (.bool b)

/-- The text form of a value, which bytes only have if they are those of a text. -/
def spelling? : Cell → Option String
  | .bytes bs => Text.ofBytes? bs
  | cell => some cell.display

/-- If the value is sent at all as a parameter of the type, it is read back as the number or the
boolean that its text form stands for. -/
def Arrives (c : Codec) (type : ColumnType) (cell : Cell) : Prop :=
  ∀ wire, encode c type cell = .ok wire →
    ∃ s, spelling? cell = some s ∧ SpeltBy s (decode c type wire)

variable {c : Codec} {type : ColumnType} {width : Nat} {s : String} {bs : List UInt8}

/-- No text stands for what cannot be read. -/
theorem not_speltBy_unreadable : ¬ SpeltBy s (unreadable type) := by
  intro h
  cases h

/-- Texts have no header at the types of numbers and booleans. -/
theorem textHeader_of_ownKind? {kind : CellKind} (htype : type.ownKind? = some kind) :
    type.textHeader = [] := by
  cases type with
  | bool | int2 | int4 | int8 => decide
  | _ => cases htype

/-- A field whose values are widened to integers is one of them, or it cannot be read. -/
theorem decode_widened_cases {α : Type} (r : NativeReader α) {wide : α → Int64}
    (hcell : cell? c type (some bs) =
      (r.field? type (some bs)).map (·.map fun a => .int (wide a))) :
    (∃ v, decode c type (some bs) = .int v) ∨ decode c type (some bs) = unreadable type := by
  rw [decode, hcell, NativeReader.field?]
  cases r.accepts type with
  | false => exact .inr rfl
  | true =>
      cases r.read? type bs with
      | none => exact .inr rfl
      | some a => exact .inl ⟨wide a, rfl⟩

/-- A field of integers that is a number has the bytes of it, and any other one cannot be read. -/
theorem decode_integer_cases (hc : c.Lawful) (hwidth : type.integerWidth? = some width)
    (bs : List UInt8) :
    (bs.length = width ∧ ∃ v, decode c type (some bs) = .int v ∧
      v.toInt = ofSignedBigEndian bs) ∨
    decode c type (some bs) = unreadable type := by
  have hpos : 0 < width := by cases type <;> cases hwidth <;> decide
  have hcases : (∃ v, decode c type (some bs) = .int v) ∨
      decode c type (some bs) = unreadable type := by
    cases type with
    | int2 => exact decode_widened_cases c.int2.toNativeReader rfl
    | int4 => exact decode_widened_cases c.int4.toNativeReader rfl
    | int8 => exact decode_widened_cases c.int8.toNativeReader rfl
    | _ => cases hwidth
  rcases hcases with ⟨v, hv⟩ | hunreadable
  · have hbs := (twosComplement_iff hpos).mp ((decode_integer_iff hc hwidth).mp hv)
    exact .inl ⟨hbs.1, v, hv, hbs.2.symm⟩
  · exact .inr hunreadable

/-- A field of booleans is the boolean of a single byte, and any other one cannot be read. -/
theorem decode_bool_cases (hc : c.Lawful) (bs : List UInt8) :
    (∃ byte, bs = [byte] ∧ decode c .bool (some bs) = .bool (byte != 0)) ∨
    (bs.length ≠ 1 ∧ decode c .bool (some bs) = unreadable .bool) := by
  have hdecode : decode c .bool (some bs) =
      ((c.bool.read? .bool bs).map Cell.bool).getD (unreadable .bool) := by
    simp only [decode, cell?, NativeReader.field?, hc.bool_accepts, if_true]
    cases c.bool.read? .bool bs <;> rfl
  rw [hdecode]
  by_cases hlength : bs.length = 1
  · rcases List.length_eq_one_iff.mp hlength with ⟨byte, rfl⟩
    refine .inl ⟨byte, rfl, ?_⟩
    rw [(hc.bool_read_iff [byte] _).mpr ⟨byte, rfl, rfl⟩]
    rfl
  · refine .inr ⟨hlength, ?_⟩
    cases hread : c.bool.read? .bool bs with
    | none => rfl
    | some b =>
        rcases (hc.bool_read_iff bs b).mp hread with ⟨byte, rfl, -⟩
        exact absurd rfl hlength

/-! ## Texts -/

/-- No text arrives as the integer that it stands for: its bytes do not have the length, or they
make up a larger number. -/
theorem not_speltBy_integer (hc : c.Lawful) (hwidth : type.integerWidth? = some width)
    (s : String) : ¬ SpeltBy s (decode c type (some (Text.bytes s))) := by
  rcases decode_integer_cases hc hwidth (Text.bytes s) with ⟨-, v, hread, hv⟩ | hunreadable
  · rw [hread]
    rintro ⟨h⟩
    obtain ⟨hlarger, hsigned, -⟩ := h.natAbs_lt_ofBigEndian
    rw [hv, hsigned] at hlarger
    omega
  · rw [hunreadable]
    exact not_speltBy_unreadable

/-- The texts of one byte that stand for true. -/
def trueBytes : List String := ["1", "t", "T", "y", "Y"]

/-- A byte other than zero arrives as true, so only the words of this boolean do. -/
theorem abbreviatesTruth_singleton_iff : ∀ n < 128,
    AbbreviatesTruth (String.singleton (Char.ofNat n)) (UInt8.ofNat n != 0) ↔
      String.singleton (Char.ofNat n) ∈ trueBytes := by
  decide +kernel

/-- Each of them is a single byte. -/
theorem length_of_mem_trueBytes : ∀ s ∈ trueBytes, (Text.bytes s).length = 1 := by
  decide +kernel

/-- Five texts arrive as the boolean that they stand for. -/
theorem speltBy_bool_iff (hc : c.Lawful) (s : String) :
    SpeltBy s (decode c .bool (some (Text.bytes s))) ↔ s ∈ trueBytes := by
  rcases decode_bool_cases hc (Text.bytes s) with ⟨byte, hbyte, hread⟩ | ⟨hlength, hread⟩
  · obtain ⟨n, hn, rfl, hbytes⟩ := Text.exists_of_length_bytes (congrArg List.length hbyte)
    cases hbyte.symm.trans hbytes
    rw [hread, ← abbreviatesTruth_singleton_iff n hn]
    refine ⟨fun h => ?_, fun h => .bool h⟩
    rcases h with _ | h
    exact h
  · rw [hread]
    exact iff_of_false not_speltBy_unreadable fun hs => hlength (length_of_mem_trueBytes s hs)

/-! ## All values -/

/-- A value that is sent arrives if its text form stands for what is read. -/
theorem arrives_iff {cell : Cell} (hsent : encode c type cell = .ok (some bs)) :
    Arrives c type cell ↔
      ∃ s, spelling? cell = some s ∧ SpeltBy s (decode c type (some bs)) := by
  refine ⟨fun h => h _ hsent, fun h wire hwire => ?_⟩
  cases hsent.symm.trans hwire
  exact h

/-- What is sent and cannot be read does not arrive. -/
theorem not_arrives_of_unreadable {cell : Cell} (hsent : encode c type cell = .ok (some bs))
    (hread : decode c type (some bs) = unreadable type) : ¬ Arrives c type cell := by
  rw [arrives_iff hsent, hread]
  rintro ⟨s, -, hs⟩
  exact not_speltBy_unreadable hs

/-- A text is sent as its UTF-8 to the types of numbers and booleans. -/
theorem encode_text (hc : c.Lawful) {kind : CellKind} (htype : type.ownKind? = some kind)
    (s : String) : encode c type (.text s) = .ok (some (Text.bytes s)) := by
  rw [encode, hc.text_write, textHeader_of_ownKind? htype, List.nil_append]

/-- A text arrives at a foreign type exactly if its bytes are read as a value that it spells. -/
theorem arrives_text_iff (hc : c.Lawful) {kind : CellKind} (htype : type.ownKind? = some kind) :
    Arrives c type (.text s) ↔ SpeltBy s (decode c type (some (Text.bytes s))) := by
  rw [arrives_iff (encode_text hc htype s)]
  simp only [spelling?, Cell.display, Option.some.injEq, exists_eq_left']

/-- Bytes arrive if they are those of a text that does. -/
theorem arrives_bytes_iff (hc : c.Lawful) {kind : CellKind} (htype : type.ownKind? = some kind) :
    Arrives c type (.bytes bs) ↔ ∃ s, bs = Text.bytes s ∧ Arrives c type (.text s) := by
  have hsent : encode c type (.bytes bs) = .ok (some bs) :=
    congrArg (Except.ok ∘ some) (hc.bytes_write type bs)
  rw [arrives_iff hsent]
  refine exists_congr fun s => ?_
  rw [spelling?, Text.ofBytes?_eq_some_iff, arrives_text_iff hc htype]
  refine and_congr_right ?_
  rintro rfl
  exact Iff.rfl

/-- Such a type is that of booleans or one of integers. -/
theorem ColumnType.ownKind?_cases {kind : CellKind} (htype : type.ownKind? = some kind) :
    (type = .bool ∧ kind = .bool) ∨ (kind = .int ∧ ∃ width, type.integerWidth? = some width) := by
  cases type with
  | bool => exact .inl ⟨rfl, (Option.some.inj htype).symm⟩
  | int2 | int4 | int8 => exact .inr ⟨(Option.some.inj htype).symm, _, rfl⟩
  | _ => cases htype

/-- Of the texts only those arrive that stand for true in a single byte. -/
theorem arrives_text_iff_mem (hc : c.Lawful) {kind : CellKind}
    (htype : type.ownKind? = some kind) :
    Arrives c type (.text s) ↔ type = .bool ∧ s ∈ trueBytes := by
  rw [arrives_text_iff hc htype]
  rcases ColumnType.ownKind?_cases htype with ⟨rfl, -⟩ | ⟨-, width, hwidth⟩
  · rw [speltBy_bool_iff hc, and_iff_right rfl]
  · refine iff_of_false (not_speltBy_integer hc hwidth s) ?_
    rintro ⟨rfl, -⟩
    cases hwidth

/-- An integer is sent in eight bytes, where a boolean is a single one. -/
theorem not_arrives_int (hc : c.Lawful) (n : Int64) :
    (∃ bs, encode c .bool (.int n) = .ok (some bs)) ∧ ¬ Arrives c .bool (.int n) := by
  have hsent : encode c .bool (.int n) = .ok (some (c.int8.write .bool n)) := rfl
  refine ⟨⟨_, hsent⟩, ?_⟩
  have hlength := (hc.int8.write .bool n).length
  rcases decode_bool_cases hc (c.int8.write .bool n) with ⟨byte, hbyte, -⟩ | ⟨-, hread⟩
  · rw [hbyte] at hlength
    cases hlength
  · exact not_arrives_of_unreadable hsent hread

/-- A boolean is sent as a single byte, where an integer has more. -/
theorem not_arrives_bool (hc : c.Lawful) (hwidth : type.integerWidth? = some width) (b : Bool) :
    ¬ Arrives c type (.bool b) := by
  have hsent : encode c type (.bool b) = .ok (some [b.toUInt8]) :=
    congrArg (Except.ok ∘ some) (hc.bool_write type b)
  rcases decode_integer_cases hc hwidth [b.toUInt8] with ⟨rfl, -⟩ | hread
  · cases type <;> cases hwidth
  · exact not_arrives_of_unreadable hsent hread

/-- A parameter that is neither NULL nor a floating-point number, and whose kind is not the one of
its type, is always sent.  It arrives as the number or boolean that it stands for only where it is a
single byte that stands for true. -/
theorem arrives_foreign_iff (hc : c.Lawful) {kind : CellKind} {cell : Cell}
    (htype : type.ownKind? = some kind) (hcell : cell.kind ∉ [.null, .float, kind]) :
    (∃ bs, encode c type cell = .ok (some bs)) ∧
    (Arrives c type cell ↔ type = .bool ∧
      ∃ s ∈ trueBytes, cell = .text s ∨ cell = .bytes (Text.bytes s)) := by
  cases cell with
  | null => exact absurd List.mem_cons_self hcell
  | float x => exact absurd (List.mem_cons_of_mem _ List.mem_cons_self) hcell
  | bool b =>
      refine ⟨⟨_, rfl⟩, ?_⟩
      rcases ColumnType.ownKind?_cases htype with ⟨rfl, rfl⟩ | ⟨-, width, hwidth⟩
      · exact absurd (List.mem_cons_of_mem _ (List.mem_cons_of_mem _ List.mem_cons_self)) hcell
      · refine iff_of_false (not_arrives_bool hc hwidth b) ?_
        rintro ⟨-, s, -, h | h⟩ <;> cases h
  | int n =>
      rcases ColumnType.ownKind?_cases htype with ⟨rfl, -⟩ | ⟨rfl, -⟩
      · refine ⟨(not_arrives_int hc n).1, iff_of_false (not_arrives_int hc n).2 ?_⟩
        rintro ⟨-, s, -, h | h⟩ <;> cases h
      · exact absurd (List.mem_cons_of_mem _ (List.mem_cons_of_mem _ List.mem_cons_self)) hcell
  | text s =>
      refine ⟨⟨_, rfl⟩, (arrives_text_iff_mem hc htype).trans (and_congr_right' ⟨?_, ?_⟩)⟩
      · exact fun hs => ⟨s, hs, .inl rfl⟩
      · rintro ⟨_, hs, h | h⟩ <;> cases h
        exact hs
  | bytes bs =>
      refine ⟨⟨_, rfl⟩, (arrives_bytes_iff hc htype).trans ⟨?_, ?_⟩⟩
      · rintro ⟨s, rfl, harrives⟩
        obtain ⟨rfl, hs⟩ := (arrives_text_iff_mem hc htype).mp harrives
        exact ⟨rfl, s, hs, .inr rfl⟩
      · rintro ⟨rfl, s, hs, h | h⟩ <;> cases h
        exact ⟨s, rfl, (arrives_text_iff_mem hc htype).mpr ⟨rfl, hs⟩⟩

/-- The text of a digit arrives as true and the one of zero does not arrive as false. -/
theorem arrives_foreign_digits :
    Codec.standard.Lawful ∧ ColumnType.bool.ownKind? = some .bool ∧
    Cell.kind (.text "1") ∉ [.null, .float, .bool] ∧
    Arrives .standard .bool (.text "1") ∧ ¬ Arrives .standard .bool (.text "0") := by
  have hc := Codec.standard_lawful
  have htype : ColumnType.bool.ownKind? = some .bool := rfl
  have hkind : ∀ s, Cell.kind (.text s) ∉ [.null, .float, .bool] := fun s => by
    rw [Cell.kind]
    decide
  refine ⟨hc, htype, hkind _, (arrives_foreign_iff hc htype (hkind "1")).2.mpr
    ⟨rfl, "1", by decide, .inl rfl⟩, fun h => ?_⟩
  obtain ⟨-, s, hs, h | h⟩ := (arrives_foreign_iff hc htype (hkind "0")).2.mp h
  · cases h
    exact absurd hs (by decide)
  · cases h

/-- The two digits of a number are sent to a column of two bytes, and read back as another
number. -/
theorem not_arrives_twoDigits :
    encode .standard .int2 (.text "42") = .ok (some [0x34, 0x32]) ∧
    decode .standard .int2 (some [0x34, 0x32]) = .int 13362 ∧
    Text.IsNumeral 42 "42".toList ∧ ¬ Arrives .standard .int2 (.text "42") := by
  refine ⟨congrArg Except.ok (by decide +kernel), by decide +kernel,
    .unsigned ⟨by decide, List.all_eq_true.mp (by decide)⟩ (by decide), fun h => ?_⟩
  have htype : ColumnType.int2.ownKind? = some .int := rfl
  exact absurd ((arrives_text_iff_mem Codec.standard_lawful htype).mp h).1 (by decide)

end Postgres

end ShardedSql
