import ShardedSql.Grouping
import ShardedSql.Proofs.Cell.NumberKeys
import ShardedSql.Proofs.Traversal

/-!
# Order of integers and floating-point numbers

Two integers compare exactly; an integer and a floating-point number compare after the integer has
been rounded.  Rounding keeps the order of integers, but two of them may be rounded to the same
number.  This number equals both, and so may stand after the greater one and before the lesser one.
Apart from such bridges the order of numbers is transitive.

Main results:

- Theorem `Cell.MayPrecede.trans_or_bridged`: the order of numbers is transitive but for bridges.
- Theorem `Cell.order_consistent_iff`: of three numbers, when the order and when equality is
  transitive.
- Theorem `Cell.order_of_fits`: where the significant bits of integers fit, numbers compare as what
  they are.
-/

namespace ShardedSql

namespace Cell

/-- An integer or a finite floating-point number. -/
def IsNumber : Cell → Prop
  | int _ => True
  | float x => x.isFinite = true
  | null | bool _ | text _ | bytes _ => False

/-- A number in smallest units, an integer being rounded. -/
def rounded : Cell → Int
  | int n => (Binary64.ofInt n.toInt).scaled
  | float x => x.scaled
  | null | bool _ | text _ | bytes _ => 0

/-- A cell compares with another one as less or equal. -/
def MayPrecede (collation : Collation) (a b : Cell) : Prop :=
  ∃ o, order collation a b = .ok o ∧ o.isLE = true

/-- A floating-point number is the nearest one to two integers, the greater of which is put before
it and the lesser one after it. -/
inductive Bridged : Cell → Cell → Cell → Prop
  | intro {m n : Int64} {x : Binary64} (lesser : n.toInt < m.toInt) (before : x.IsNearest m.toInt)
      (after : x.IsNearest n.toInt) : Bridged (int m) (float x) (int n)

variable {a b c : Cell}

/-! ## Comparisons -/

theorem isNumber_int (n : Int64) : (int n).IsNumber := trivial

/-- Rounding keeps the order of integers. -/
theorem rounded_int_mono {m n : Int64} (h : m.toInt ≤ n.toInt) :
    (int m).rounded ≤ (int n).rounded :=
  Binary64.ofInt_mono (natAbs_toInt_le m) (natAbs_toInt_le n) h

/-- The nearest number to an integer is the rounded one. -/
theorem isNearest_iff_rounded {x : Binary64} (hx : x.isFinite = true) (n : Int64) :
    x.IsNearest n.toInt ↔ x.scaled = (int n).rounded :=
  Binary64.isNearest_iff (natAbs_toInt_le n) hx

/-- Integers compare exactly, and all other numbers after rounding. -/
theorem order_cases (collation : Collation) (ha : a.IsNumber) (hb : b.IsNumber) :
    (∃ m n, a = int m ∧ b = int n) ∨
      order collation a b = .ok (compare a.rounded b.rounded) := by
  have hfinite : ∀ n : Int64, (Binary64.ofInt n.toInt).isFinite = true :=
    fun n => (Binary64.ofInt_spec (natAbs_toInt_le n)).1
  cases a with
  | int m =>
      cases b with
      | int n => exact .inl ⟨m, n, rfl, rfl⟩
      | float y => exact .inr (orderNumbers_finite (hfinite m) hb)
      | null | bool _ | text _ | bytes _ => exact hb.elim
  | float x =>
      cases b with
      | int n => exact .inr (orderNumbers_finite ha (hfinite n))
      | float y => exact .inr (orderNumbers_finite ha hb)
      | null | bool _ | text _ | bytes _ => exact hb.elim
  | null | bool _ | text _ | bytes _ => exact ha.elim

/-- Numbers compare without fault, and the other way round with the reverse outcome. -/
theorem order_swap (collation : Collation) (ha : a.IsNumber) (hb : b.IsNumber) :
    ∃ o, order collation a b = .ok o ∧ order collation b a = .ok o.swap := by
  have hints : ∀ m n : Int64, order collation (int m) (int n) = .ok (compare m.toInt n.toInt) :=
    fun _ _ => rfl
  rcases order_cases collation ha hb with ⟨m, n, rfl, rfl⟩ | hleft
  · exact ⟨_, hints m n, by rw [hints, Int.compare_swap]⟩
  · rcases order_cases collation hb ha with ⟨n, m, rfl, rfl⟩ | hright
    · exact ⟨_, hints m n, by rw [hints, Int.compare_swap]⟩
    · exact ⟨_, hleft, by rw [hright, Int.compare_swap]⟩

/-- Integers are compared as they are. -/
theorem mayPrecede_int (collation : Collation) (m n : Int64) :
    MayPrecede collation (int m) (int n) ↔ m.toInt ≤ n.toInt := by
  simp [MayPrecede, order, Int.isLE_compare]

/-- What may stand before a number is not greater after rounding. -/
theorem MayPrecede.rounded_le {collation : Collation} (ha : a.IsNumber) (hb : b.IsNumber)
    (h : MayPrecede collation a b) : a.rounded ≤ b.rounded := by
  rcases order_cases collation ha hb with ⟨m, n, rfl, rfl⟩ | horder
  · rw [mayPrecede_int] at h
    exact rounded_int_mono h
  · simpa [MayPrecede, horder, Int.isLE_compare] using h

/-- Numbers are equal exactly if either may come before the other. -/
theorem equals_iff_mayPrecede (collation : Collation) (ha : a.IsNumber) (hb : b.IsNumber) :
    equals collation a b = .ok true ↔ MayPrecede collation a b ∧ MayPrecede collation b a := by
  obtain ⟨o, hleft, hright⟩ := order_swap collation ha hb
  rw [equals_eq_true, MayPrecede, MayPrecede, hleft, hright]
  cases o <;> simp

/-- Equality of numbers is symmetric. -/
theorem equals_comm (collation : Collation) (ha : a.IsNumber) (hb : b.IsNumber) :
    equals collation a b = .ok true ↔ equals collation b a = .ok true := by
  rw [equals_iff_mayPrecede collation ha hb, equals_iff_mayPrecede collation hb ha, and_comm]

/-! ## Bridges -/

/-- A bridge equals both integers, and the greater one may not stand before the lesser one. -/
theorem Bridged.spec (collation : Collation) (h : Bridged a b c) (hb : b.IsNumber) :
    equals collation a b = .ok true ∧ equals collation b c = .ok true ∧
      ¬ MayPrecede collation a c := by
  obtain ⟨hlesser, hbefore, hafter⟩ := h
  refine ⟨(equals_int_float hb).mpr hbefore, ?_, ?_⟩
  · rw [equals_comm collation hb (isNumber_int _)]
    exact (equals_int_float hb).mpr hafter
  · rw [mayPrecede_int]
    omega

/-- The order of numbers is transitive but for bridges. -/
theorem MayPrecede.trans_or_bridged {collation : Collation} (ha : a.IsNumber) (hb : b.IsNumber)
    (hc : c.IsNumber) (hab : MayPrecede collation a b) (hbc : MayPrecede collation b c) :
    MayPrecede collation a c ∨ Bridged a b c := by
  have hleft := hab.rounded_le ha hb
  have hright := hbc.rounded_le hb hc
  rcases order_cases collation ha hc with ⟨m, n, rfl, rfl⟩ | horder
  · rw [mayPrecede_int]
    rcases Int.lt_or_le n.toInt m.toInt with hlesser | hle
    · right
      -- After rounding the three are the same, so the second one is what both integers round to.
      have hmono := rounded_int_mono (Int.le_of_lt hlesser)
      cases b with
      | int k =>
          rw [mayPrecede_int] at hab hbc
          omega
      | float x =>
          have hbefore : x.scaled = (int m).rounded :=
            Int.le_antisymm (Int.le_trans hright hmono) hleft
          have hafter : x.scaled = (int n).rounded :=
            Int.le_antisymm hright (Int.le_trans hmono hleft)
          exact .intro hlesser ((isNearest_iff_rounded hb m).mpr hbefore)
            ((isNearest_iff_rounded hb n).mpr hafter)
      | null | bool _ | text _ | bytes _ => exact hb.elim
    · exact .inl hle
  · exact .inl ⟨_, horder, Int.isLE_compare.mpr (Int.le_trans hleft hright)⟩

/-! ## Consistency -/

/-- Over a second number the order leads from a first to a third one exactly when it does not bridge
the first one and a lesser third one. -/
theorem mayPrecede_trans_iff (collation : Collation) (ha : a.IsNumber) (hb : b.IsNumber)
    (hc : c.IsNumber) :
    (MayPrecede collation a b → MayPrecede collation b c → MayPrecede collation a c) ↔
      ¬ Bridged a b c := by
  constructor
  · intro htrans hbridged
    obtain ⟨hab, hbc, hnot⟩ := hbridged.spec collation hb
    rw [equals_iff_mayPrecede collation ha hb] at hab
    rw [equals_iff_mayPrecede collation hb hc] at hbc
    exact hnot (htrans hab.1 hbc.1)
  · intro hnone hab hbc
    exact (hab.trans_or_bridged ha hb hc hbc).resolve_right hnone

/-- Over a bridge equality leads from one integer to the other, which it does not equal. -/
theorem Bridged.not_equals_trans (collation : Collation) (h : Bridged a b c) (ha : a.IsNumber)
    (hb : b.IsNumber) (hc : c.IsNumber) :
    ¬ (equals collation a b = .ok true → equals collation b c = .ok true →
      equals collation a c = .ok true) := by
  obtain ⟨hab, hbc, hnot⟩ := h.spec collation hb
  intro htrans
  exact hnot ((equals_iff_mayPrecede collation ha hc).mp (htrans hab hbc)).1

/-- Over a second number equality leads from a first to a third one exactly when it bridges them in
neither direction. -/
theorem equals_trans_iff (collation : Collation) (ha : a.IsNumber) (hb : b.IsNumber)
    (hc : c.IsNumber) :
    (equals collation a b = .ok true → equals collation b c = .ok true →
        equals collation a c = .ok true) ↔ ¬ Bridged a b c ∧ ¬ Bridged c b a := by
  constructor
  · intro htrans
    refine ⟨fun hdown => hdown.not_equals_trans collation ha hb hc htrans, fun hup => ?_⟩
    apply hup.not_equals_trans collation hc hb ha
    intro hcb hba
    rw [equals_comm collation hc hb] at hcb
    rw [equals_comm collation hb ha] at hba
    rw [equals_comm collation hc ha]
    exact htrans hba hcb
  · rintro ⟨hdown, hup⟩ hequal hequal'
    obtain ⟨hab, hba⟩ := (equals_iff_mayPrecede collation ha hb).mp hequal
    obtain ⟨hbc, hcb⟩ := (equals_iff_mayPrecede collation hb hc).mp hequal'
    rw [equals_iff_mayPrecede collation ha hc]
    exact ⟨(hab.trans_or_bridged ha hb hc hbc).resolve_right hdown,
      (hcb.trans_or_bridged hc hb ha hba).resolve_right hup⟩

/-- Numbers compare without fault, and the other way round with the reverse outcome.  Over a second
number the order leads from a first to a third one exactly when it does not bridge the first one and
a lesser third one, and equality does exactly when it bridges them in neither direction. -/
theorem order_consistent_iff (collation : Collation) (ha : a.IsNumber) (hb : b.IsNumber)
    (hc : c.IsNumber) :
    (∃ o, order collation a b = .ok o ∧ order collation b a = .ok o.swap) ∧
    ((MayPrecede collation a b → MayPrecede collation b c → MayPrecede collation a c) ↔
      ¬ Bridged a b c) ∧
    ((equals collation a b = .ok true → equals collation b c = .ok true →
        equals collation a c = .ok true) ↔ ¬ Bridged a b c ∧ ¬ Bridged c b a) :=
  ⟨order_swap collation ha hb, mayPrecede_trans_iff collation ha hb hc,
    equals_trans_iff collation ha hb hc⟩

/-- The floating-point number `2 ^ 53` is the nearest one to the integers `2 ^ 53` and `2 ^ 53 + 1`.
Over it the order leads from the lesser one to the greater one, and equality does not. -/
theorem order_consistent_iff_beyondPrecision :
    (int 9007199254740992).IsNumber ∧ (float ⟨0x4340000000000000⟩).IsNumber ∧
    (int 9007199254740993).IsNumber ∧
    (MayPrecede .binary (int 9007199254740992) (float ⟨0x4340000000000000⟩) →
      MayPrecede .binary (float ⟨0x4340000000000000⟩) (int 9007199254740993) →
      MayPrecede .binary (int 9007199254740992) (int 9007199254740993)) ∧
    ¬ (equals .binary (int 9007199254740992) (float ⟨0x4340000000000000⟩) = .ok true →
      equals .binary (float ⟨0x4340000000000000⟩) (int 9007199254740993) = .ok true →
      equals .binary (int 9007199254740992) (int 9007199254740993) = .ok true) := by
  have hnumber : (float ⟨0x4340000000000000⟩).IsNumber := by
    show (Binary64.mk 0x4340000000000000).isFinite = true
    decide +kernel
  have hup : Bridged (int 9007199254740993) (float ⟨0x4340000000000000⟩)
      (int 9007199254740992) := by
    refine .intro (by decide) ((isNearest_iff_rounded hnumber _).mpr ?_)
      ((isNearest_iff_rounded hnumber _).mpr ?_)
    · decide +kernel
    · decide +kernel
  have hdown : ¬ Bridged (int 9007199254740992) (float ⟨0x4340000000000000⟩)
      (int 9007199254740993) := by
    rintro ⟨hlesser, -, -⟩
    exact absurd hlesser (by decide)
  obtain ⟨-, hprecede, hequal⟩ :=
    order_consistent_iff .binary (isNumber_int 9007199254740992) hnumber
      (isNumber_int 9007199254740993)
  exact ⟨isNumber_int _, hnumber, isNumber_int _, hprecede.mpr hdown,
    fun htrans => (hequal.mp htrans).2 hup⟩

/-- The floating-point number `2 ^ 54 + 4` equals the integers next to it, which are not equal.
Rows with the three numbers in falling order are left so when they are sorted in rising order. -/
theorem order_not_consistent_aroundNumber :
    (float ⟨0x4350000000000001⟩).IsNumber ∧
    order .binary (int 18014398509481989) (float ⟨0x4350000000000001⟩) = .ok .eq ∧
    order .binary (float ⟨0x4350000000000001⟩) (int 18014398509481987) = .ok .eq ∧
    order .binary (int 18014398509481989) (int 18014398509481987) = .ok .gt ∧
    sortRising (Row.order .binary [⟨0, .ascending, .first⟩])
        [[int 18014398509481989], [float ⟨0x4350000000000001⟩], [int 18014398509481987]] =
      .ok [[int 18014398509481989], [float ⟨0x4350000000000001⟩], [int 18014398509481987]] := by
  refine ⟨?_, ?_, ?_, rfl, ?_⟩
  · show (Binary64.mk 0x4350000000000001).isFinite = true
    decide +kernel
  · apply eq_ok_of_toOption
    decide +kernel
  · apply eq_ok_of_toOption
    decide +kernel
  · apply eq_ok_of_toOption
    decide +kernel

/-! ## Integers whose significant bits fit -/

/-- A number in smallest units, an integer being left as it is. -/
def inUnits : Cell → Int
  | int n => n.toInt * Nat.pow 2 Binary64.unitScale
  | float x => x.scaled
  | null | bool _ | text _ | bytes _ => 0

/-- If the cell holds an integer, the significant bits of it fit. -/
def Fits (c : Cell) : Prop :=
  ∀ n, c = int n → Binary64.FitsSignificand n.toInt

/-- A number that fits is not changed by rounding. -/
theorem rounded_eq_inUnits (h : c.Fits) : c.rounded = c.inUnits := by
  cases c with
  | int n =>
      -- There is a number at no distance from the integer, and so the nearest one is.
      obtain ⟨x, hx, hdenotes⟩ := (h n rfl).exists_denotes (natAbs_toInt_le n)
      rw [← (isNearest_iff_rounded hx n).mp hdenotes.isNearest]
      exact hdenotes
  | _ => rfl

/-- Where the significant bits of integers fit, numbers compare as what they are. -/
theorem order_of_fits (collation : Collation) (ha : a.IsNumber) (hb : b.IsNumber) (hfits : a.Fits)
    (hfits' : b.Fits) : order collation a b = .ok (compare a.inUnits b.inUnits) := by
  rcases order_cases collation ha hb with ⟨m, n, rfl, rfl⟩ | horder
  · have hscale : 0 < (Nat.pow 2 Binary64.unitScale : Int) :=
      Int.natCast_pos.mpr (Rounding.two_pow_pos _)
    show Except.ok (compare m.toInt n.toInt) = Except.ok (compare (m.toInt * _) (n.toInt * _))
    congr 1
    rcases Int.lt_trichotomy m.toInt n.toInt with h | h | h
    · rw [Int.compare_eq_lt.mpr h, Int.compare_eq_lt.mpr (Int.mul_lt_mul_of_pos_right h hscale)]
    · rw [h, Int.compare_eq_eq.mpr rfl, Int.compare_eq_eq.mpr rfl]
    · rw [Int.compare_eq_gt.mpr h, Int.compare_eq_gt.mpr (Int.mul_lt_mul_of_pos_right h hscale)]
  · rw [horder, rounded_eq_inUnits hfits, rounded_eq_inUnits hfits']

end Cell

end ShardedSql
