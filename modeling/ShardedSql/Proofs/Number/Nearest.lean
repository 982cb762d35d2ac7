import Mathlib.Order.Monotone.Basic
import Mathlib.Tactic.WLOG
import ShardedSql.Number.Binary64

/-!
# Numbers nearest to an integer

An integer becomes the floating-point number that is nearest to it; of two equally near ones it
becomes the one whose code is even.  Codes with a sign stand in the order of the numbers they
denote, so it is enough to look at the two neighbours of the integer among them.  The integer itself
is a floating-point number exactly when it has no more significant bits than a fraction can hold.

Main results:

- Theorem `Rounding.signedUnits_lt`: signed codes are ordered like their numbers.
- Theorem `Rounding.nearestCode_roundCode`: rounding finds the nearest code.
- Theorem `Binary64.isNearest_iff`: the number nearest to an integer is what the integer is rounded
  to.
- Theorem `Binary64.ofInt_mono`: rounding keeps the order of integers.
- Theorems `Binary64.Denotes.fitsSignificand` and `Binary64.FitsSignificand.exists_denotes`: which
  integers are floating-point numbers.
-/

namespace ShardedSql

/-! ## Codes -/

namespace Rounding

theorem two_pow_pos (n : Nat) : 0 < Nat.pow 2 n :=
  Nat.two_pow_pos n

theorem two_pow_add (m n : Nat) : Nat.pow 2 (m + n) = Nat.pow 2 m * Nat.pow 2 n :=
  Nat.pow_add 2 m n

theorem two_pow_succ (n : Nat) : Nat.pow 2 (n + 1) = 2 * Nat.pow 2 n :=
  Nat.pow_succ'

/-- A code by its exponent and its fraction. -/
theorem unitsOfCode_add {fractionBits fraction : Nat} (exponent : Nat)
    (h : fraction < Nat.pow 2 fractionBits) :
    unitsOfCode fractionBits (Nat.pow 2 fractionBits * (exponent + 1) + fraction) =
      (Nat.pow 2 fractionBits + fraction) * Nat.pow 2 exponent := by
  have hpos : 0 < Nat.pow 2 fractionBits := Nat.lt_of_le_of_lt (Nat.zero_le _) h
  have hle : Nat.pow 2 fractionBits ≤ Nat.pow 2 fractionBits * (exponent + 1) :=
    Nat.le_mul_of_pos_right _ (Nat.succ_pos _)
  have hdiv : (Nat.pow 2 fractionBits * (exponent + 1) + fraction) / Nat.pow 2 fractionBits =
      exponent + 1 := by
    rw [Nat.mul_add_div hpos, Nat.div_eq_of_lt h, Nat.add_zero]
  have hmod : (Nat.pow 2 fractionBits * (exponent + 1) + fraction) % Nat.pow 2 fractionBits =
      fraction := by
    rw [Nat.mul_add_mod, Nat.mod_eq_of_lt h]
  rw [unitsOfCode, if_neg (by omega), hdiv, hmod, Nat.add_sub_cancel]

/-- A significand that fits, shifted to the left: it has all its bits unless it is not shifted. -/
theorem unitsOfCode_shifted {fractionBits shift significand : Nat}
    (hlow : shift = 0 ∨ Nat.pow 2 fractionBits ≤ significand)
    (hhigh : significand ≤ 2 * Nat.pow 2 fractionBits) :
    unitsOfCode fractionBits (shift * Nat.pow 2 fractionBits + significand) =
      significand * Nat.pow 2 shift := by
  have hpos : 0 < Nat.pow 2 fractionBits := two_pow_pos _
  rcases Nat.lt_or_ge significand (Nat.pow 2 fractionBits) with hsmall | hlarge
  · obtain rfl : shift = 0 := hlow.resolve_right (Nat.not_le.mpr hsmall)
    rw [Nat.zero_mul, Nat.zero_add, unitsOfCode, if_pos hsmall]
    exact (Nat.mul_one _).symm
  · rcases Nat.lt_or_eq_of_le hhigh with hbelow | rfl
    · have hcode : shift * Nat.pow 2 fractionBits + significand =
          Nat.pow 2 fractionBits * (shift + 1) + (significand - Nat.pow 2 fractionBits) := by
        rw [Nat.mul_succ, Nat.mul_comm]
        omega
      rw [hcode, unitsOfCode_add shift (by omega), Nat.add_sub_cancel' hlarge]
    · -- A carry into the next power of two.
      have hcode : shift * Nat.pow 2 fractionBits + 2 * Nat.pow 2 fractionBits =
          Nat.pow 2 fractionBits * (shift + 1 + 1) + 0 := by
        rw [Nat.add_zero, ← Nat.add_mul, Nat.mul_comm]
      rw [hcode, unitsOfCode_add (shift + 1) hpos, Nat.add_zero]
      rw [two_pow_succ, Nat.mul_left_comm, Nat.mul_assoc]

/-- The code of a power of two. -/
theorem unitsOfCode_two_pow {fractionBits shift total : Nat} (h : fractionBits + shift = total) :
    unitsOfCode fractionBits (shift * Nat.pow 2 fractionBits + Nat.pow 2 fractionBits) =
      Nat.pow 2 total := by
  have hfits : Nat.pow 2 fractionBits ≤ 2 * Nat.pow 2 fractionBits :=
    Nat.le_mul_of_pos_left _ (by decide)
  rw [unitsOfCode_shifted (.inr (Nat.le_refl _)) hfits, ← two_pow_add, h]

/-- Every code is a significand that is shifted. -/
theorem exists_shifted (fractionBits code : Nat) : ∃ shift significand,
    code = shift * Nat.pow 2 fractionBits + significand ∧
    (shift = 0 ∨ Nat.pow 2 fractionBits ≤ significand) ∧
    significand < 2 * Nat.pow 2 fractionBits := by
  have hpos : 0 < Nat.pow 2 fractionBits := two_pow_pos _
  rcases Nat.lt_or_ge code (Nat.pow 2 fractionBits) with hsmall | hlarge
  · exact ⟨0, code, by omega, .inl rfl, by omega⟩
  · obtain ⟨exponent, hexponent⟩ : ∃ e, code / Nat.pow 2 fractionBits = e + 1 :=
      Nat.exists_eq_succ_of_ne_zero (Nat.ne_of_gt (Nat.div_pos hlarge hpos))
    have hfraction : code % Nat.pow 2 fractionBits < Nat.pow 2 fractionBits :=
      Nat.mod_lt _ hpos
    have hcode := (Nat.div_add_mod code (Nat.pow 2 fractionBits)).symm
    rw [hexponent, Nat.mul_succ, Nat.mul_comm] at hcode
    exact ⟨exponent, Nat.pow 2 fractionBits + code % Nat.pow 2 fractionBits, by omega,
      .inr (by omega), by omega⟩

/-- The next code denotes a greater number. -/
theorem unitsOfCode_lt_succ (fractionBits code : Nat) :
    unitsOfCode fractionBits code < unitsOfCode fractionBits (code + 1) := by
  obtain ⟨shift, significand, rfl, hlow, hhigh⟩ := exists_shifted fractionBits code
  have hnext : shift = 0 ∨ Nat.pow 2 fractionBits ≤ significand + 1 :=
    hlow.imp_right fun h => Nat.le_succ_of_le h
  rw [Nat.add_assoc, unitsOfCode_shifted hlow (Nat.le_of_lt hhigh),
    unitsOfCode_shifted hnext hhigh]
  exact Nat.mul_lt_mul_of_pos_right (Nat.lt_succ_self _) (two_pow_pos _)

/-- Codes are ordered like the numbers they denote. -/
theorem unitsOfCode_strictMono (fractionBits : Nat) : StrictMono (unitsOfCode fractionBits) :=
  strictMono_nat_of_lt_succ (unitsOfCode_lt_succ fractionBits)

/-- Every significand that fits has a code, however far it is shifted to the left. -/
theorem exists_unitsOfCode {fractionBits significand : Nat}
    (h : significand < 2 * Nat.pow 2 fractionBits) (shift : Nat) :
    ∃ code, unitsOfCode fractionBits code = significand * Nat.pow 2 shift := by
  induction shift generalizing significand with
  | zero => exact ⟨_, unitsOfCode_shifted (.inl rfl) (Nat.le_of_lt h)⟩
  | succ shift ih =>
      rcases Nat.lt_or_ge significand (Nat.pow 2 fractionBits) with hsmall | hlarge
      · obtain ⟨code, hcode⟩ := @ih (2 * significand) (by omega)
        refine ⟨code, hcode.trans ?_⟩
        rw [two_pow_succ, Nat.mul_left_comm, Nat.mul_assoc]
      · exact ⟨_, unitsOfCode_shifted (.inr hlarge) (Nat.le_of_lt h)⟩

/-! ## Codes with a sign -/

/-- The number of smallest units of a code with a sign. -/
def signedUnits (fractionBits : Nat) (k : Int) : Int :=
  if k < 0 then -unitsOfCode fractionBits k.natAbs else unitsOfCode fractionBits k.natAbs

/-- Codes without a sign count units as they are. -/
theorem signedUnits_natCast (fractionBits code : Nat) :
    signedUnits fractionBits code = unitsOfCode fractionBits code :=
  if_neg (Int.not_lt.mpr (Int.natCast_nonneg code))

theorem unitsOfCode_zero (fractionBits : Nat) : unitsOfCode fractionBits 0 = 0 :=
  if_pos (two_pow_pos fractionBits)

/-- The sign of a code is that of its units. -/
theorem signedUnits_neg (fractionBits : Nat) (k : Int) :
    signedUnits fractionBits (-k) = -signedUnits fractionBits k := by
  unfold signedUnits
  rw [Int.natAbs_neg]
  rcases Int.lt_trichotomy k 0 with hneg | rfl | hpos
  · rw [if_neg (by omega), if_pos hneg, Int.neg_neg]
  · rw [Int.natAbs_zero, unitsOfCode_zero]
    rfl
  · rw [if_pos (by omega), if_neg (by omega)]

/-- Signed codes are ordered like their numbers. -/
theorem signedUnits_lt {fractionBits : Nat} {i j : Int} (h : i < j) :
    signedUnits fractionBits i < signedUnits fractionBits j := by
  refine strictMono_int_of_lt_succ (fun k => ?_) h
  rcases Int.lt_or_le k 0 with hneg | hnonneg
  · obtain ⟨code, rfl⟩ : ∃ code : Nat, k = -(code + 1 : Nat) := ⟨k.natAbs - 1, by omega⟩
    rw [show -((code + 1 : Nat) : Int) + 1 = -(code : Int) by omega, signedUnits_neg,
      signedUnits_neg, signedUnits_natCast, signedUnits_natCast]
    have hstep := unitsOfCode_lt_succ fractionBits code
    omega
  · obtain ⟨code, rfl⟩ := Int.eq_ofNat_of_zero_le hnonneg
    rw [← Int.natCast_succ, signedUnits_natCast, signedUnits_natCast]
    exact Int.ofNat_lt.mpr (unitsOfCode_lt_succ fractionBits code)

/-- Of all codes the one whose number is nearest to a target, and of two equally near ones the even
one. -/
structure NearestCode (fractionBits : Nat) (target k : Int) : Prop where
  /-- No number is nearer. -/
  least : ∀ j, (signedUnits fractionBits k - target).natAbs ≤
    (signedUnits fractionBits j - target).natAbs
  /-- If another number is as near, the code is even. -/
  even : ∀ j, j ≠ k → (signedUnits fractionBits j - target).natAbs =
    (signedUnits fractionBits k - target).natAbs → k % 2 = 0

variable {fractionBits : Nat} {target k j : Int}

/-- The nearest code to the opposite number is the opposite one. -/
theorem NearestCode.neg (h : NearestCode fractionBits target k) :
    NearestCode fractionBits (-target) (-k) := by
  have hmirror : ∀ i, (signedUnits fractionBits (-i) - -target).natAbs =
      (signedUnits fractionBits i - target).natAbs := by
    intro i
    rw [signedUnits_neg]
    omega
  refine ⟨fun i => ?_, fun i hne hequal => ?_⟩
  · have hleast := h.least (-i)
    rwa [← hmirror, ← hmirror, Int.neg_neg] at hleast
  · rw [← Int.neg_neg i, hmirror, hmirror] at hequal
    have heven := h.even (-i) (by omega) hequal
    omega

/-- The nearest code is one of the two between which the target lies. -/
theorem nearestCode_of_neighbours (hlow : signedUnits fractionBits k ≤ target)
    (hhigh : target ≤ signedUnits fractionBits (k + 1))
    (hnear : j = k ∧ 2 * target ≤ signedUnits fractionBits k + signedUnits fractionBits (k + 1) ∨
      j = k + 1 ∧ signedUnits fractionBits k + signedUnits fractionBits (k + 1) ≤ 2 * target)
    (heven : 2 * target = signedUnits fractionBits k + signedUnits fractionBits (k + 1) →
      j % 2 = 0) :
    NearestCode fractionBits target j := by
  have hmono : StrictMono (signedUnits fractionBits) := fun _ _ => signedUnits_lt
  -- All other codes lie beyond the two.
  have hbeyond : ∀ i, signedUnits fractionBits i ≤ signedUnits fractionBits k ∨
      signedUnits fractionBits (k + 1) ≤ signedUnits fractionBits i := by
    intro i
    rcases Int.lt_or_le k i with hlt | hle
    · exact .inr (hmono.monotone hlt)
    · exact .inl (hmono.monotone hle)
  refine ⟨fun i => ?_, fun i hne hequal => heven ?_⟩
  · rcases hbeyond i with hi | hi <;> rcases hnear with ⟨rfl, hnear⟩ | ⟨rfl, hnear⟩ <;> omega
  · have hother : signedUnits fractionBits i ≠ signedUnits fractionBits j := hmono.injective.ne hne
    rcases hbeyond i with hi | hi <;> rcases hnear with ⟨rfl, hnear⟩ | ⟨rfl, hnear⟩ <;> omega

/-! ## Rounding -/

/-- A quotient is rounded down or up, whichever is nearer, and to the even one of the two if it lies
in the middle. -/
theorem halfEven_cases (num den : Nat) :
    (halfEven num den = num / den ∧ 2 * (num % den) ≤ den ∧
      (2 * (num % den) = den → halfEven num den % 2 = 0)) ∨
    (halfEven num den = num / den + 1 ∧ den ≤ 2 * (num % den) ∧
      (2 * (num % den) = den → halfEven num den % 2 = 0)) := by
  have hvalue : halfEven num den = if 2 * (num % den) < den then num / den
      else if den < 2 * (num % den) then num / den + 1 else num / den + num / den % 2 := rfl
  generalize halfEven num den = rounded at hvalue ⊢
  generalize num / den = quotient at hvalue ⊢
  generalize num % den = remainder at hvalue ⊢
  split at hvalue
  · exact .inl ⟨hvalue, by omega, by omega⟩
  · split at hvalue
    · exact .inr ⟨hvalue, by omega, by omega⟩
    · rcases Nat.mod_two_eq_zero_or_one quotient with hquotient | hquotient
      · exact .inl ⟨by omega, by omega, by omega⟩
      · exact .inr ⟨by omega, by omega, by omega⟩

/-- The significand of a number, all further bits being cut off. -/
theorem significand_bounds (fractionBits num : Nat) :
    (num.log2 - fractionBits = 0 ∨
      Nat.pow 2 fractionBits ≤ num / Nat.pow 2 (num.log2 - fractionBits)) ∧
    num / Nat.pow 2 (num.log2 - fractionBits) < 2 * Nat.pow 2 fractionBits := by
  have hpos : 0 < Nat.pow 2 (num.log2 - fractionBits) := two_pow_pos _
  constructor
  · rcases Nat.eq_zero_or_pos (num.log2 - fractionBits) with hzero | hshift
    · exact .inl hzero
    · right
      have hnum : num ≠ 0 := by
        rintro rfl
        simp at hshift
      rw [Nat.le_div_iff_mul_le hpos]
      calc Nat.pow 2 fractionBits * Nat.pow 2 (num.log2 - fractionBits)
          = Nat.pow 2 num.log2 := by
            rw [← two_pow_add]
            congr 1
            omega
        _ ≤ num := Nat.log2_self_le hnum
  · rw [Nat.div_lt_iff_lt_mul hpos]
    calc num < Nat.pow 2 (num.log2 + 1) := Nat.lt_log2_self
      _ ≤ Nat.pow 2 (fractionBits + 1 + (num.log2 - fractionBits)) :=
        Nat.pow_le_pow_right (by decide) (by omega)
      _ = 2 * Nat.pow 2 fractionBits * Nat.pow 2 (num.log2 - fractionBits) := by
        rw [two_pow_add, two_pow_succ]

/-- Rounding finds the nearest code, and none above that of an upper bound. -/
theorem nearestCode_roundCode {fractionBits infinityCode num bound : Nat} (hbits : 0 < fractionBits)
    (hnum : num ≤ unitsOfCode fractionBits bound) (hbound : bound ≤ infinityCode) :
    NearestCode fractionBits num (roundCode fractionBits infinityCode num 1) ∧
      roundCode fractionBits infinityCode num 1 ≤ bound := by
  obtain ⟨hlow, hhigh⟩ := significand_bounds fractionBits num
  have hround : roundCode fractionBits infinityCode num 1 = min infinityCode
      ((num.log2 - fractionBits) * Nat.pow 2 fractionBits +
        halfEven num (Nat.pow 2 (num.log2 - fractionBits))) := by
    rw [roundCode, Nat.div_one, Nat.one_mul]
  rw [hround]
  generalize num.log2 - fractionBits = shift at hlow hhigh ⊢
  have hdown := unitsOfCode_shifted hlow (Nat.le_of_lt hhigh)
  have hup := unitsOfCode_shifted (hlow.imp_right fun h => Nat.le_succ_of_le h) hhigh
  have hdivide := Nat.div_add_mod num (Nat.pow 2 shift)
  have hremainder := Nat.mod_lt num (two_pow_pos shift)
  have hparity : shift * Nat.pow 2 fractionBits % 2 = 0 := by
    obtain ⟨bits, rfl⟩ := Nat.exists_eq_succ_of_ne_zero (Nat.ne_of_gt hbits)
    rw [two_pow_succ, Nat.mul_left_comm]
    exact Nat.mul_mod_right _ _
  have hcases := halfEven_cases num (Nat.pow 2 shift)
  change num % Nat.pow 2 shift < Nat.pow 2 shift at hremainder
  rw [Nat.succ_mul] at hup
  rw [Nat.mul_comm] at hdivide
  have hnearest : NearestCode fractionBits num
      ((shift * Nat.pow 2 fractionBits + halfEven num (Nat.pow 2 shift) : Nat) : Int) := by
    generalize halfEven num (Nat.pow 2 shift) = rounded at hcases ⊢
    generalize num / Nat.pow 2 shift = quotient at *
    generalize num % Nat.pow 2 shift = remainder at *
    generalize quotient * Nat.pow 2 shift = below at *
    have hfloor := signedUnits_natCast fractionBits (shift * Nat.pow 2 fractionBits + quotient)
    have hceiling :=
      signedUnits_natCast fractionBits (shift * Nat.pow 2 fractionBits + (quotient + 1))
    rw [hdown] at hfloor
    rw [hup, ← Nat.add_assoc, Int.natCast_succ] at hceiling
    generalize shift * Nat.pow 2 fractionBits = base at *
    have hsum : ∀ i : Nat, ((base + i : Nat) : Int) % 2 = ((i % 2 : Nat) : Int) := by
      intro i
      omega
    refine @nearestCode_of_neighbours fractionBits num (base + quotient : Nat) _ ?_ ?_ ?_ ?_
    · rw [hfloor]
      omega
    · rw [hceiling]
      omega
    · rw [hfloor, hceiling]
      rcases hcases with ⟨rfl, hnear, -⟩ | ⟨rfl, hnear, -⟩
      · exact .inl ⟨rfl, by omega⟩
      · exact .inr ⟨by omega, by omega⟩
    · rw [hfloor, hceiling, hsum]
      intro hmiddle
      rcases hcases with ⟨-, -, heven⟩ | ⟨-, -, heven⟩ <;> rw [heven (by omega)] <;> rfl
  generalize shift * Nat.pow 2 fractionBits + halfEven num (Nat.pow 2 shift) = code at hnearest ⊢
  have hcode : code ≤ bound := by
    by_contra habove
    have hleast := hnearest.least bound
    have hgreater := unitsOfCode_strictMono fractionBits (Nat.not_le.mp habove)
    rw [signedUnits_natCast, signedUnits_natCast] at hleast
    omega
  rw [Nat.min_eq_right (Nat.le_trans hcode hbound)]
  exact ⟨hnearest, hcode⟩

end Rounding

/-! ## Numbers -/

namespace Binary64

open Rounding

/-- The code of a number with the sign of the number. -/
def signedCode (x : Binary64) : Int :=
  if x.isNegative then -(x.code : Int) else x.code

/-- Without its sign the signed code is the code. -/
theorem natAbs_signedCode (x : Binary64) : x.signedCode.natAbs = x.code := by
  unfold signedCode
  split <;> omega

/-- A number is read off its signed code. -/
theorem scaled_eq (x : Binary64) : x.scaled = signedUnits 52 x.signedCode := by
  unfold scaled signedCode units
  split
  · rw [signedUnits_neg, signedUnits_natCast]
  · rw [signedUnits_natCast]

/-- Different signed codes denote different numbers. -/
theorem scaled_inj {x y : Binary64} : x.scaled = y.scaled ↔ x.signedCode = y.signedCode := by
  rw [scaled_eq, scaled_eq]
  have hmono : StrictMono (signedUnits 52) := fun _ _ => signedUnits_lt
  exact hmono.injective.eq_iff

/-- A number is finite exactly if its code lies below that of infinity. -/
theorem isFinite_iff (x : Binary64) : x.isFinite = true ↔ x.code < infinityCode := by
  simp [isFinite]

theorem code_ofCode (negative : Bool) {code : Nat} (h : code < Nat.pow 2 63) :
    (ofCode negative code).code = code := by
  simp only [ofCode, Binary64.code, UInt64.toNat_ofNat', Nat.pow_eq] at h ⊢
  split <;> omega

theorem isNegative_ofCode (negative : Bool) {code : Nat} (h : code < Nat.pow 2 63) :
    (ofCode negative code).isNegative = negative := by
  simp only [ofCode, isNegative, UInt64.toNat_ofNat', Nat.pow_eq] at h ⊢
  cases negative <;> simp <;> omega

/-- The signed code of a number that is made of sign and code. -/
theorem signedCode_ofCode (negative : Bool) {code : Nat} (h : code < Nat.pow 2 63) :
    (ofCode negative code).signedCode = if negative then -(code : Int) else code := by
  rw [signedCode, isNegative_ofCode negative h, code_ofCode negative h]

/-- Every signed code below that of infinity is the code of a finite number. -/
theorem exists_signedCode {k : Int} (h : k.natAbs < infinityCode) :
    ∃ x : Binary64, x.isFinite = true ∧ x.signedCode = k := by
  have hword : k.natAbs < Nat.pow 2 63 := Nat.lt_trans h (by decide)
  refine ⟨ofCode (k < 0) k.natAbs, ?_, ?_⟩
  · rw [isFinite_iff, code_ofCode _ hword]
    exact h
  · rw [signedCode_ofCode _ hword]
    split <;> rename_i hsign <;> rw [decide_eq_true_eq] at hsign <;> omega

/-! ## Nearest numbers -/

/-- The number is this integer. -/
def Denotes (x : Binary64) (n : Int) : Prop :=
  x.scaled = n * Nat.pow 2 unitScale

/-- How far a number is from an integer, in smallest units. -/
def distance (x : Binary64) (n : Int) : Nat :=
  (x.scaled - n * Nat.pow 2 unitScale).natAbs

/-- The number is the finite one that is nearest to the integer; if another one is as near, its code
is even. -/
structure IsNearest (x : Binary64) (n : Int) : Prop where
  least : ∀ y : Binary64, y.isFinite = true → x.distance n ≤ y.distance n
  /-- If another finite number is as near, the code is even. -/
  even : ∀ y : Binary64, y.isFinite = true → y.distance n = x.distance n →
    y.scaled ≠ x.scaled → x.code % 2 = 0

variable {x y : Binary64} {n : Int}

/-- A number is no distance away exactly from the integer it denotes. -/
theorem distance_eq_zero : x.distance n = 0 ↔ x.Denotes n := by
  rw [distance, Int.natAbs_eq_zero, Int.sub_eq_zero, Denotes]

/-- A number that denotes an integer is nearest to it. -/
theorem Denotes.isNearest (h : x.Denotes n) : x.IsNearest n := by
  have hzero := distance_eq_zero.mpr h
  refine ⟨fun y _ => hzero ▸ Nat.zero_le _, fun y _ hequal hne => absurd ?_ hne⟩
  rw [hzero] at hequal
  exact (distance_eq_zero.mp hequal).trans h.symm

/-- The number with the nearest code is the nearest number. -/
theorem isNearest_of_nearestCode
    (h : NearestCode 52 (n * Nat.pow 2 unitScale) x.signedCode) : x.IsNearest n := by
  refine ⟨fun y _ => ?_, fun y _ hequal hne => ?_⟩
  · rw [distance, distance, scaled_eq, scaled_eq]
    exact h.least _
  · rw [distance, distance, scaled_eq, scaled_eq] at hequal
    have heven := h.even _ (fun hcode => hne (scaled_inj.mpr hcode)) hequal
    rw [← natAbs_signedCode]
    omega

/-- There is only one nearest number, up to the sign of zero. -/
theorem IsNearest.scaled_eq (hx : x.isFinite = true) (hy : y.isFinite = true)
    (hnear : x.IsNearest n) (hother : y.IsNearest n) : x.scaled = y.scaled := by
  by_contra hne
  wlog hlt : x.signedCode < y.signedCode generalizing x y
  · have hcode : x.signedCode ≠ y.signedCode := fun h => hne (scaled_inj.mpr h)
    exact this hy hx hother hnear (Ne.symm hne) (by omega)
  have hequal : x.distance n = y.distance n :=
    Nat.le_antisymm (hnear.least y hy) (hother.least x hx)
  have heven := hnear.even y hy hequal.symm (Ne.symm hne)
  have hothereven := hother.even x hx hequal hne
  rw [isFinite_iff] at hx hy
  rw [← natAbs_signedCode] at hx hy heven hothereven
  -- A number between the two would be nearer, so their codes follow each other.
  obtain ⟨z, hz, hbetween⟩ := @exists_signedCode (x.signedCode + 1) (by omega)
  have hbelow : signedUnits 52 x.signedCode < signedUnits 52 z.signedCode :=
    signedUnits_lt (by omega)
  have habove : signedUnits 52 z.signedCode < signedUnits 52 y.signedCode :=
    signedUnits_lt (by omega)
  have hleast := hnear.least z hz
  rw [distance, distance, Binary64.scaled_eq, Binary64.scaled_eq] at hleast hequal
  omega

/-! ## Integers -/

/-- Integers of 64 bits stay below a code that is finite. -/
theorem natAbs_le_unitsOfCode (hn : n.natAbs ≤ Nat.pow 2 63) :
    n.natAbs * Nat.pow 2 unitScale ≤ unitsOfCode 52 (1085 * Nat.pow 2 52 + Nat.pow 2 52) := by
  rw [unitsOfCode_two_pow (show 52 + 1085 = 63 + unitScale from rfl), two_pow_add]
  exact Nat.mul_le_mul_right _ hn

/-- An integer of 64 bits is rounded to the nearest number, which is finite. -/
theorem ofInt_spec (hn : n.natAbs ≤ Nat.pow 2 63) :
    (ofInt n).isFinite = true ∧ (ofInt n).IsNearest n := by
  obtain ⟨hnearest, hbound⟩ := @nearestCode_roundCode 52 infinityCode _ _ (by decide)
    (natAbs_le_unitsOfCode hn) (by decide)
  have hofInt : ofInt n =
      ofCode (n < 0) (roundCode 52 infinityCode (n.natAbs * Nat.pow 2 unitScale) 1) := rfl
  rw [hofInt]
  generalize roundCode 52 infinityCode (n.natAbs * Nat.pow 2 unitScale) 1 = code at *
  have hfinite : code < infinityCode := Nat.lt_of_le_of_lt hbound (by decide)
  have hword : code < Nat.pow 2 63 := Nat.lt_trans hfinite (by decide)
  refine ⟨?_, isNearest_of_nearestCode ?_⟩
  · rw [isFinite_iff, code_ofCode _ hword]
    exact hfinite
  · rw [signedCode_ofCode _ hword]
    rw [Int.natCast_mul] at hnearest
    rcases Int.lt_or_le n 0 with hneg | hnonneg
    · rw [if_pos (decide_eq_true hneg)]
      have hmirrored := hnearest.neg
      rwa [← Int.neg_mul, ← Int.eq_neg_natAbs_of_nonpos (Int.le_of_lt hneg)] at hmirrored
    · rw [if_neg (by simpa using hnonneg)]
      rwa [Int.natAbs_of_nonneg hnonneg] at hnearest

/-- The number nearest to an integer is what the integer is rounded to. -/
theorem isNearest_iff (hn : n.natAbs ≤ Nat.pow 2 63) (hx : x.isFinite = true) :
    x.IsNearest n ↔ x.scaled = (ofInt n).scaled := by
  obtain ⟨hfinite, hnearest⟩ := ofInt_spec hn
  constructor
  · intro h
    exact h.scaled_eq hx hfinite hnearest
  · intro h
    have hcode : x.code = (ofInt n).code := by
      rw [← natAbs_signedCode, ← natAbs_signedCode, scaled_inj.mp h]
    refine ⟨?_, ?_⟩
    · rw [distance, h]
      exact hnearest.least
    · rw [distance, h, hcode]
      exact hnearest.even

/-- Of two integers the lesser one does not have the greater nearest number. -/
theorem IsNearest.scaled_le {m : Int} (hx : x.isFinite = true) (hy : y.isFinite = true)
    (hnear : x.IsNearest m) (hother : y.IsNearest n) (h : m < n) : x.scaled ≤ y.scaled := by
  have hunits : m * Nat.pow 2 unitScale < n * Nat.pow 2 unitScale :=
    Int.mul_lt_mul_of_pos_right h (Int.natCast_pos.mpr (two_pow_pos unitScale))
  have hleft := hnear.least y hy
  have hright := hother.least x hx
  unfold distance at hleft hright
  omega

/-- Rounding integers keeps their order. -/
theorem ofInt_mono {m : Int} (hm : m.natAbs ≤ Nat.pow 2 63) (hn : n.natAbs ≤ Nat.pow 2 63)
    (h : m ≤ n) : (ofInt m).scaled ≤ (ofInt n).scaled := by
  obtain ⟨hfinite, hnearest⟩ := ofInt_spec hm
  obtain ⟨hother, hnear⟩ := ofInt_spec hn
  rcases Int.lt_or_eq_of_le h with hlt | rfl
  · exact hnearest.scaled_le hfinite hother hnear hlt
  · exact Int.le_refl _

/-- An integer of no more significant bits than a number has. -/
def FitsSignificand (n : Int) : Prop :=
  ∃ significand exponent, significand < Nat.pow 2 53 ∧
    n.natAbs = significand * Nat.pow 2 exponent

/-- Without its sign a number is a number of units. -/
theorem natAbs_scaled (x : Binary64) : x.scaled.natAbs = x.units := by
  unfold scaled
  split <;> simp

/-- A number that denotes an integer has as many units as the integer. -/
theorem Denotes.units_eq (h : x.Denotes n) : x.units = n.natAbs * Nat.pow 2 unitScale := by
  rw [← natAbs_scaled, h, Int.natAbs_mul, Int.natAbs_natCast]

/-- An integer that is a number has no more significant bits than a number has. -/
theorem Denotes.fitsSignificand (h : x.Denotes n) : FitsSignificand n := by
  have hunits := h.units_eq
  obtain ⟨shift, significand, hcode, hlow, hhigh⟩ := exists_shifted 52 x.code
  rw [units, hcode, unitsOfCode_shifted hlow (Nat.le_of_lt hhigh)] at hunits
  have hbelow : significand < Nat.pow 2 53 := hhigh
  rcases Nat.le_total unitScale shift with hle | hle
  · obtain ⟨exponent, rfl⟩ := Nat.exists_eq_add_of_le' hle
    refine ⟨significand, exponent, hbelow, ?_⟩
    rw [two_pow_add, ← Nat.mul_assoc] at hunits
    exact (Nat.eq_of_mul_eq_mul_right (two_pow_pos unitScale) hunits).symm
  · -- The integer is a part of the significand, or all of it.
    obtain ⟨rest, hrest⟩ := Nat.exists_eq_add_of_le' hle
    rw [hrest, two_pow_add, ← Nat.mul_assoc] at hunits
    have hwhole := Nat.eq_of_mul_eq_mul_right (two_pow_pos shift) hunits
    have hpart : n.natAbs ≤ significand := by
      rw [hwhole]
      exact Nat.le_mul_of_pos_right _ (two_pow_pos _)
    exact ⟨n.natAbs, 0, Nat.lt_of_le_of_lt hpart hbelow, (Nat.mul_one _).symm⟩

/-- An integer of 64 bits whose significant bits fit is a number. -/
theorem FitsSignificand.exists_denotes (h : FitsSignificand n) (hn : n.natAbs ≤ Nat.pow 2 63) :
    ∃ x : Binary64, x.isFinite = true ∧ x.Denotes n := by
  obtain ⟨significand, exponent, hbelow, hvalue⟩ := h
  obtain ⟨code, hcode⟩ := @exists_unitsOfCode 52 significand hbelow (exponent + unitScale)
  have hunits : unitsOfCode 52 code = n.natAbs * Nat.pow 2 unitScale := by
    rw [hcode, hvalue, Nat.mul_assoc, ← two_pow_add]
  have hbound : code ≤ 1085 * Nat.pow 2 52 + Nat.pow 2 52 := by
    rw [← (unitsOfCode_strictMono 52).le_iff_le, hunits]
    exact natAbs_le_unitsOfCode hn
  have hfinite : code < infinityCode := Nat.lt_of_le_of_lt hbound (by decide)
  rcases Int.lt_or_le n 0 with hneg | hnonneg
  · obtain ⟨x, hx, hsigned⟩ := @exists_signedCode (-code) (by omega)
    refine ⟨x, hx, ?_⟩
    rw [Denotes, scaled_eq, hsigned, signedUnits_neg, signedUnits_natCast, hunits, Int.natCast_mul,
      ← Int.neg_mul, ← Int.eq_neg_natAbs_of_nonpos (Int.le_of_lt hneg)]
  · obtain ⟨x, hx, hsigned⟩ := @exists_signedCode code (by omega)
    refine ⟨x, hx, ?_⟩
    rw [Denotes, scaled_eq, hsigned, signedUnits_natCast, hunits, Int.natCast_mul,
      Int.natAbs_of_nonneg hnonneg]

end Binary64

end ShardedSql
