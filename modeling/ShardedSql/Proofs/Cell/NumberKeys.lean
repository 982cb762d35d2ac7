import ShardedSql.Proofs.Cell.EqualKeys

/-!
# Keys of integers and floating-point numbers

An integer and a floating-point number are compared after the integer has been rounded, so they are
equal when the one is the number nearest to the other.  Their key bytes are the same only if the
floating-point number is the integer.  The least integer is written otherwise than the
floating-point number that it is, whose magnitude is not below the bound up to which integral
numbers are written as integers.

Main results:

- Theorem `Cell.groupKey_int_eq_float`: when the key bytes are the same.
- Theorem `Cell.equals_int_float`: when the two are equal.
- Theorem `Cell.groupKey_agrees_iff`: key bytes and comparison agree on an integer and all finite
  numbers exactly when the significant bits of the integer fit and it is not the least one.
-/

namespace ShardedSql

namespace Binary64

variable {x : Binary64} {n : Int}

/-- Without a fractional part the number is the integer that is left when it is cut off. -/
theorem denotes_truncated (h : x.units % Nat.pow 2 unitScale = 0) : x.Denotes x.truncated := by
  have hunits : x.units / Nat.pow 2 unitScale * Nat.pow 2 unitScale = x.units :=
    Nat.div_mul_cancel (Nat.dvd_of_mod_eq_zero h)
  cases hsign : x.isNegative <;>
    simp only [Denotes, truncated, scaled, hsign, Bool.false_eq_true, if_true, if_false]
  · rw [← Int.natCast_mul, hunits]
  · rw [Int.neg_mul, ← Int.natCast_mul, hunits]

/-- A number denotes one integer at most. -/
theorem Denotes.unique {m : Int} (hm : x.Denotes m) (hn : x.Denotes n) : m = n := by
  have hscale : (Nat.pow 2 unitScale : Int) ≠ 0 :=
    Int.natCast_ne_zero.mpr (Nat.ne_of_gt (Rounding.two_pow_pos unitScale))
  exact Int.eq_of_mul_eq_mul_right hscale (hm.symm.trans hn)

end Binary64

namespace Cell

variable {collation : Collation} {v : Int64} {x : Binary64}

/-- A number is written like an integer if it is integral and its magnitude is small enough. -/
theorem groupKey_float (hx : x.isFinite = true) :
    (x.units % Nat.pow 2 Binary64.unitScale = 0 ∧
      x.units < Nat.pow 2 63 * Nat.pow 2 Binary64.unitScale ∧
      (float x).groupKey collation = integerKey (Int64.ofInt x.truncated)) ∨
    (¬ (x.units % Nat.pow 2 Binary64.unitScale = 0 ∧
        x.units < Nat.pow 2 63 * Nat.pow 2 Binary64.unitScale) ∧
      (float x).groupKey collation = 5 :: littleEndian 8 x.bits.toNat) := by
  have hwritten :
      (x.isIntegral && x.units < Nat.pow 2 63 * Nat.pow 2 Binary64.unitScale) = true ↔
      x.units % Nat.pow 2 Binary64.unitScale = 0 ∧
        x.units < Nat.pow 2 63 * Nat.pow 2 Binary64.unitScale := by
    rw [Bool.and_eq_true, decide_eq_true_eq, Binary64.isIntegral, hx, Bool.true_and, beq_iff_eq]
  rw [groupKey]
  split
  · rename_i h
    exact .inl ⟨(hwritten.mp h).1, (hwritten.mp h).2, rfl⟩
  · rename_i h
    exact .inr ⟨fun hsmall => h (hwritten.mpr hsmall), rfl⟩

/-- No integer of 64 bits is larger than this. -/
theorem natAbs_toInt_le (v : Int64) : v.toInt.natAbs ≤ Nat.pow 2 63 := by
  have hlow : -Nat.pow 2 63 ≤ v.toInt := v.le_toInt
  have hhigh : v.toInt < Nat.pow 2 63 := v.toInt_lt
  omega

/-- An integer and a floating-point number have the same key bytes exactly when the number is the
integer, the least one excepted. -/
theorem groupKey_int_eq_float (hx : x.isFinite = true) :
    (int v).groupKey collation = (float x).groupKey collation ↔
      x.Denotes v.toInt ∧ v.toInt ≠ -Nat.pow 2 63 := by
  have hscale := Rounding.two_pow_pos Binary64.unitScale
  rcases @groupKey_float collation x hx with ⟨hintegral, hsmall, hkey⟩ | ⟨hother, hkey⟩
  · have hdenotes := Binary64.denotes_truncated hintegral
    have hmagnitude : x.truncated.natAbs < Nat.pow 2 63 := by
      rw [hdenotes.units_eq] at hsmall
      exact Nat.lt_of_mul_lt_mul_right hsmall
    have hback : (Int64.ofInt x.truncated).toInt = x.truncated :=
      Int64.toInt_ofInt_of_le (show -Nat.pow 2 63 ≤ x.truncated by omega)
        (show x.truncated < Nat.pow 2 63 by omega)
    rw [hkey]
    constructor
    · intro h
      rw [integerKey_inj h, hback]
      exact ⟨hdenotes, by omega⟩
    · rintro ⟨h, -⟩
      rw [← h.unique hdenotes, Int64.ofInt_toInt]
      rfl
  · rw [hkey]
    refine iff_of_false (fun h => absurd (List.cons.inj h).1 (by decide)) ?_
    rintro ⟨h, hleast⟩
    have hlow : -Nat.pow 2 63 ≤ v.toInt := v.le_toInt
    have hhigh : v.toInt < Nat.pow 2 63 := v.toInt_lt
    have hbelow : v.toInt.natAbs < Nat.pow 2 63 := by omega
    refine hother ⟨?_, ?_⟩
    · rw [h.units_eq]
      exact Nat.mul_mod_left _ _
    · rw [h.units_eq]
      exact Nat.mul_lt_mul_of_pos_right hbelow hscale

/-! ## Comparison -/

/-- Finite numbers compare as what they are in smallest units. -/
theorem orderNumbers_finite {y : Binary64} (hx : x.isFinite = true) (hy : y.isFinite = true) :
    orderNumbers x y = .ok (compare x.scaled y.scaled) := by
  have hnumber : ∀ z : Binary64, z.isFinite = true → z.isNaN = false := by
    intro z hz
    rw [Binary64.isFinite_iff] at hz
    exact decide_eq_false (Nat.not_lt.mpr (Nat.le_of_lt hz))
  rw [orderNumbers, Binary64.compare?, hnumber x hx, hnumber y hy]
  rfl

/-- Finite numbers are equal exactly if they are the same number of units. -/
theorem orderNumbers_eq_iff {y : Binary64} (hx : x.isFinite = true) (hy : y.isFinite = true) :
    orderNumbers x y = .ok .eq ↔ x.scaled = y.scaled := by
  rw [orderNumbers_finite hx hy, Except.ok.injEq, Int.compare_eq_eq]

/-- An integer equals a finite number exactly if it is rounded to it. -/
theorem equals_int_float_iff (hx : x.isFinite = true) :
    equals collation (int v) (float x) = .ok true ↔
      (Binary64.ofInt v.toInt).scaled = x.scaled := by
  rw [equals_eq_true, order, orderNumbers_eq_iff (Binary64.ofInt_spec (natAbs_toInt_le v)).1 hx]

/-- An integer and a floating-point number are equal exactly when the number is the one nearest to
the integer. -/
theorem equals_int_float (hx : x.isFinite = true) :
    equals collation (int v) (float x) = .ok true ↔ x.IsNearest v.toInt := by
  rw [equals_int_float_iff hx, Binary64.isNearest_iff (natAbs_toInt_le v) hx, eq_comm]

/-! ## Agreement -/

/-- An integer and a floating-point number have the same key bytes when the number is the integer
and not the least one, and are equal when the number is the one nearest to the integer.  The two
agree on all finite numbers exactly when the significant bits of the integer fit and it is not the
least one. -/
theorem groupKey_agrees_iff (collation : Collation) (v : Int64) :
    (∀ x : Binary64, x.isFinite = true →
      ((int v).groupKey collation = (float x).groupKey collation ↔
        x.Denotes v.toInt ∧ v.toInt ≠ -Nat.pow 2 63) ∧
      (equals collation (int v) (float x) = .ok true ↔ x.IsNearest v.toInt)) ∧
    ((∀ x : Binary64, x.isFinite = true →
      ((int v).groupKey collation = (float x).groupKey collation ↔
        equals collation (int v) (float x) = .ok true)) ↔
      Binary64.FitsSignificand v.toInt ∧ v.toInt ≠ -Nat.pow 2 63) := by
  have hbound := natAbs_toInt_le v
  refine ⟨fun x hx => ⟨groupKey_int_eq_float hx, equals_int_float hx⟩, ?_⟩
  constructor
  · intro hagree
    -- What the integer is rounded to is equal to it.
    obtain ⟨hfinite, hnearest⟩ := Binary64.ofInt_spec hbound
    have hkey := (hagree _ hfinite).mpr ((equals_int_float hfinite).mpr hnearest)
    obtain ⟨hdenotes, hleast⟩ := (groupKey_int_eq_float hfinite).mp hkey
    exact ⟨hdenotes.fitsSignificand, hleast⟩
  · rintro ⟨hfits, hleast⟩ x hx
    rw [groupKey_int_eq_float hx, equals_int_float hx]
    obtain ⟨y, hy, hdenotes⟩ := hfits.exists_denotes hbound
    constructor
    · rintro ⟨h, -⟩
      exact h.isNearest
    · intro hnearest
      -- There is a number at no distance, so the nearest one is at no distance.
      have hdistance := hnearest.least y hy
      rw [Binary64.distance_eq_zero.mpr hdenotes, Nat.le_zero] at hdistance
      exact ⟨Binary64.distance_eq_zero.mp hdistance, hleast⟩

/-- The integer `-2 ^ 53` has the key bytes of the floating-point number that it is. -/
theorem groupKey_agrees_iff_negativePower :
    (Binary64.mk 0xC340000000000000).isFinite = true ∧
    Binary64.FitsSignificand (Int64.toInt (-9007199254740992)) ∧
    (int (-9007199254740992)).groupKey .binary =
      (float ⟨0xC340000000000000⟩).groupKey .binary ∧
    equals .binary (int (-9007199254740992)) (float ⟨0xC340000000000000⟩) = .ok true := by
  have hfinite : (Binary64.mk 0xC340000000000000).isFinite = true := by decide +kernel
  have hfits : Binary64.FitsSignificand (Int64.toInt (-9007199254740992)) :=
    ⟨1, 53, by decide, by decide⟩
  have hequal : equals .binary (int (-9007199254740992)) (float ⟨0xC340000000000000⟩) =
      .ok true := (equals_int_float_iff hfinite).mpr (by decide +kernel)
  have hagree := (groupKey_agrees_iff .binary (-9007199254740992)).2.mpr ⟨hfits, by decide⟩
  exact ⟨hfinite, hfits, (hagree _ hfinite).mpr hequal, hequal⟩

/-- The integer `2 ^ 53 + 1` equals the floating-point number `2 ^ 53` and has other key bytes, and
so have the least integer and the floating-point number that it is. -/
theorem groupKey_not_agrees_beyondPrecision :
    (Binary64.mk 0x4340000000000000).isFinite = true ∧
    equals .binary (int 9007199254740993) (float ⟨0x4340000000000000⟩) = .ok true ∧
    (int 9007199254740993).groupKey .binary ≠ (float ⟨0x4340000000000000⟩).groupKey .binary ∧
    (Binary64.mk 0xC3E0000000000000).isFinite = true ∧
    equals .binary (int Int64.minValue) (float ⟨0xC3E0000000000000⟩) = .ok true ∧
    (int Int64.minValue).groupKey .binary ≠ (float ⟨0xC3E0000000000000⟩).groupKey .binary := by
  have hfinite : (Binary64.mk 0x4340000000000000).isFinite = true := by decide +kernel
  have hleast : (Binary64.mk 0xC3E0000000000000).isFinite = true := by decide +kernel
  exact ⟨hfinite, (equals_int_float_iff hfinite).mpr (by decide +kernel), by decide +kernel,
    hleast, (equals_int_float_iff hleast).mpr (by decide +kernel), by decide +kernel⟩

end Cell

end ShardedSql
