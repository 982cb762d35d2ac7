import ShardedSql.Grouping
import ShardedSql.Proofs.Sorting.RowOrder

/-!
# Group keys tell rows apart

The key of a row is the concatenation of the key bytes of its cells.  As every cell begins with a
tag and every text and byte string with its length, the bytes of a cell can be split off from what
follows them.  The length is written in four bytes: longer texts would share it with others.

Main results:

- Theorem `Cell.groupKey_append_inj`: the key bytes of a cell, whatever follows, determine the cell
  up to the collation.
- Theorem `groupKeys_inj`: the key of a row determines its key cells up to the collation.
- Theorem `Grouping.key_eq_iff_equals`: the same for the key by which rows are grouped.
-/

namespace ShardedSql

/-! ## Numbers and texts as bytes -/

/-- Numbers that fit are told apart by their bytes. -/
theorem littleEndian_inj {width m n : Nat} (hm : m < Nat.pow 256 width)
    (hn : n < Nat.pow 256 width) (h : littleEndian width m = littleEndian width n) : m = n := by
  have hread := congrArg ofLittleEndian h
  rwa [ofLittleEndian_littleEndian, ofLittleEndian_littleEndian, Nat.mod_eq_of_lt hm,
    Nat.mod_eq_of_lt hn] at hread

/-- Texts are told apart by their bytes. -/
theorem Text.bytes_inj {s t : String} (h : Text.bytes s = Text.bytes t) : s = t := by
  have hdata : s.toUTF8.data = t.toUTF8.data := Array.toList_inj.mp h
  exact String.toByteArray_inj.mp (ByteArray.ext hdata)

/-- Only equal lists of characters have the same order. -/
theorem Text.orderChars_eq_eq {cs ds : List Char} : Text.orderChars cs ds = .eq ↔ cs = ds := by
  induction cs generalizing ds with
  | nil => cases ds <;> simp [Text.orderChars]
  | cons c cs ih =>
      cases ds with
      | nil => simp [Text.orderChars]
      | cons d ds =>
          simp [Text.orderChars, Ordering.then_eq_eq, Char.toNat_inj, ih]

theorem Text.order_eq_eq {s t : String} : Text.order s t = .eq ↔ s = t := by
  rw [Text.order, Text.orderChars_eq_eq, String.toList_inj]

theorem orderBytes_eq_eq {as bs : List UInt8} : orderBytes as bs = .eq ↔ as = bs := by
  induction as generalizing bs with
  | nil => cases bs <;> simp [orderBytes]
  | cons a as ih =>
      cases bs with
      | nil => simp [orderBytes]
      | cons b bs =>
          simp [orderBytes, Ordering.then_eq_eq, UInt8.toNat_inj, ih]

namespace Cell

/-- A cell whose key bytes are its own: no floating-point number, and no text or byte string whose
length does not fit into four bytes.  The text that counts is the one compared, since folding can
lengthen a text. -/
def Keyable (collation : Collation) : Cell → Prop
  | float _ => False
  | text s => (Text.bytes (collation.fold s)).length < Nat.pow 2 32
  | bytes bs => bs.length < Nat.pow 2 32
  | null | bool _ | int _ => True

instance (collation : Collation) : DecidablePred (Keyable collation)
  | float _ => inferInstanceAs (Decidable False)
  | text s => inferInstanceAs (Decidable ((Text.bytes (collation.fold s)).length < Nat.pow 2 32))
  | bytes bs => inferInstanceAs (Decidable (bs.length < Nat.pow 2 32))
  | null | bool _ | int _ => inferInstanceAs (Decidable True)

/-- Integers are told apart by their keys. -/
theorem integerKey_inj {m n : Int64} (h : integerKey m = integerKey n) : m = n := by
  have hnat : m.toUInt64.toNat = n.toUInt64.toNat := by
    refine littleEndian_inj ?_ ?_ (List.cons.inj h).2
    · exact m.toUInt64.toNat_lt
    · exact n.toUInt64.toNat_lt
  have hword : m.toUInt64 = n.toUInt64 := UInt64.toNat_inj.mp hnat
  cases m
  cases n
  exact congrArg Int64.ofUInt64 hword

/-- A byte string with its length can be split off from what follows it. -/
theorem counted_append_inj {as bs r s : List UInt8} (ha : as.length < Nat.pow 2 32)
    (hb : bs.length < Nat.pow 2 32) :
    counted as ++ r = counted bs ++ s ↔ as = bs ∧ r = s := by
  constructor
  · intro h
    rw [counted, counted, List.append_assoc, List.append_assoc] at h
    rcases List.append_inj h (by simp) with ⟨hcount, hrest⟩
    have hlength : as.length = bs.length := by
      apply littleEndian_inj _ _ hcount
      · exact ha
      · exact hb
    exact List.append_inj hrest hlength
  · rintro ⟨rfl, rfl⟩
    rfl

/-- Cells are equal exactly if neither comes before the other. -/
theorem equals_eq_true {collation : Collation} {c d : Cell} :
    equals collation c d = .ok true ↔ order collation c d = .ok .eq := by
  unfold equals
  cases order collation c d with
  | error e => simp [Except.map]
  | ok o => simp [Except.map]

/-- The key bytes of a cell, whatever follows, determine the cell up to the collation. -/
theorem groupKey_append_inj {collation : Collation} {c d : Cell} (hc : c.Keyable collation)
    (hd : d.Keyable collation) {r s : List UInt8} :
    c.groupKey collation ++ r = d.groupKey collation ++ s ↔
      equals collation c d = .ok true ∧ r = s := by
  rw [equals_eq_true]
  cases c with
  | null => cases d <;> simp [groupKey, order, integerKey, Keyable] at hd ⊢
  | bool a =>
      cases d with
      | bool b => cases a <;> cases b <;> simp [groupKey, order, Bool.toUInt8]
      | _ => simp [groupKey, order, integerKey, Keyable] at hd ⊢
  | int m =>
      cases d with
      | int n =>
          have hlength : (integerKey m).length = (integerKey n).length := by
            simp [integerKey]
          simp only [groupKey, order, Except.ok.injEq, Int.compare_eq_eq, Int64.toInt_inj]
          constructor
          · intro h
            rcases List.append_inj h hlength with ⟨hkey, hrest⟩
            exact ⟨integerKey_inj hkey, hrest⟩
          · rintro ⟨rfl, rfl⟩
            rfl
      | _ => simp [groupKey, order, integerKey, Keyable] at hd ⊢
  | float x => exact hc.elim
  | text a =>
      cases d with
      | text b =>
          have hbytes : Text.bytes (collation.fold a) = Text.bytes (collation.fold b) ↔
              collation.fold a = collation.fold b := ⟨Text.bytes_inj, congrArg Text.bytes⟩
          simp only [groupKey, order, Except.ok.injEq, Text.order_eq_eq, List.cons_append,
            List.cons.injEq, true_and, counted_append_inj hc hd, hbytes]
      | _ => simp [groupKey, order, integerKey, Keyable] at hd ⊢
  | bytes as =>
      cases d with
      | bytes bs =>
          simp only [groupKey, order, Except.ok.injEq, orderBytes_eq_eq, List.cons_append,
            List.cons.injEq, true_and, counted_append_inj hc hd]
      | _ => simp [groupKey, order, integerKey, Keyable] at hd ⊢

end Cell

/-- The key of a row determines its key cells up to the collation. -/
theorem groupKeys_inj {collation : Collation} {columns : List Nat} {a b : Row}
    (ha : ∀ c ∈ columns, (a.cell c).Keyable collation)
    (hb : ∀ c ∈ columns, (b.cell c).Keyable collation) :
    columns.flatMap (fun c => (a.cell c).groupKey collation) =
        columns.flatMap (fun c => (b.cell c).groupKey collation) ↔
      ∀ c ∈ columns, Cell.equals collation (a.cell c) (b.cell c) = .ok true := by
  induction columns with
  | nil => simp
  | cons c columns ih =>
      rw [List.forall_mem_cons] at ha hb
      rw [List.flatMap_cons, List.flatMap_cons, Cell.groupKey_append_inj ha.1 hb.1,
        ih ha.2 hb.2, List.forall_mem_cons]

/-- Rows without floating-point numbers have one key exactly when they agree on all group columns up
to the collation. -/
theorem Grouping.key_eq_iff_equals (g : Grouping) {a b : Row}
    (ha : ∀ c ∈ g.columns, (a.cell c).Keyable g.collation)
    (hb : ∀ c ∈ g.columns, (b.cell c).Keyable g.collation) :
    g.key a = g.key b ↔
      ∀ c ∈ g.columns, Cell.equals g.collation (a.cell c) (b.cell c) = .ok true :=
  groupKeys_inj ha hb

/-- Grouping by two names whose case does not count. -/
def Grouping.byNames : Grouping :=
  { columns := [0, 1], aggregates := [], collation := .caseInsensitive }

/-- Names that differ in case only share a key.  Names that make up the same text one after the
other do not. -/
theorem Grouping.key_eq_iff_equals_names :
    (∀ row ∈ ([[.text "ÄB", .text "C"], [.text "äb", .text "c"],
        [.text "ä", .text "bc"]] : List Row),
      ∀ c ∈ byNames.columns, (row.cell c).Keyable byNames.collation) ∧
    byNames.key [.text "ÄB", .text "C"] = byNames.key [.text "äb", .text "c"] ∧
    byNames.key [.text "äb", .text "c"] ≠ byNames.key [.text "ä", .text "bc"] := by
  have hkeyable : ∀ row ∈ ([[.text "ÄB", .text "C"], [.text "äb", .text "c"],
      [.text "ä", .text "bc"]] : List Row),
      ∀ c ∈ byNames.columns, (row.cell c).Keyable byNames.collation := by decide +kernel
  simp only [List.forall_mem_cons] at hkeyable
  obtain ⟨hupper, hlower, hshifted, -⟩ := hkeyable
  refine ⟨by simpa using ⟨hupper, hlower, hshifted⟩,
    (Grouping.key_eq_iff_equals byNames hupper hlower).mpr ?_, fun h => ?_⟩
  · show ∀ c ∈ [0, 1], _
    simp only [List.forall_mem_cons, Cell.equals_eq_true]
    exact ⟨congrArg Except.ok (by decide +kernel), congrArg Except.ok (by decide +kernel), by simp⟩
  · have hfirst := (Grouping.key_eq_iff_equals byNames hlower hshifted).mp h 0 (by decide)
    rw [Cell.equals_eq_true] at hfirst
    exact absurd (Except.ok.inj hfirst) (by decide +kernel)

end ShardedSql
