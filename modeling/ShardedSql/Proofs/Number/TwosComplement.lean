import ShardedSql.Number.Endian

/-!
# Numbers in two's complement

A signed number has bytes in two's complement, and bytes of some number are those of exactly one
signed number that fits into them.

Main results:

- Theorem `twosComplement_bigEndian`: the bytes that are written are those of the signed number.
- Theorem `ofSignedBigEndian_bigEndian`: a number that fits is read back from its bytes.
- Theorem `twosComplement_iff`: bytes are those of the signed number that is read from them.
-/

namespace ShardedSql

/-- The number fits into so many bytes, one bit of which is the sign. -/
def FitsSigned (width : Nat) (n : Int) : Prop :=
  -Nat.pow 2 (8 * width - 1) ≤ n ∧ n < Nat.pow 2 (8 * width - 1)

/-- The bytes are those of a number in two's complement, most significant first: each one is a digit
of the number to the base 256. -/
structure TwosComplement (width : Nat) (n : Int) (bs : List UInt8) : Prop where
  length : bs.length = width
  byte : ∀ i (hi : i < bs.length),
    (bs[i].toNat : Int) = n / Nat.pow 256 (width - 1 - i) % 256

/-- A byte of a number is a digit of it. -/
theorem getElem_littleEndian {width n i : Nat} (hi : i < (littleEndian width n).length) :
    (littleEndian width n)[i].toNat = n / Nat.pow 256 i % 256 := by
  induction width generalizing n i with
  | zero => exact absurd hi (Nat.not_lt_zero i)
  | succ width ih =>
      cases i with
      | zero => simp [littleEndian]
      | succ i =>
          have hi : i < (littleEndian width (n / 256)).length := by
            simpa [littleEndian] using hi
          have hlater := ih hi
          rw [Nat.div_div_eq_div_mul] at hlater
          simpa [littleEndian, Nat.pow_succ'] using hlater

/-- A byte of a written number is one of its digits to the base 256. -/
theorem getElem_bigEndian {width n i : Nat} (hi : i < (bigEndian width n).length) :
    (bigEndian width n)[i].toNat = n / Nat.pow 256 (width - 1 - i) % 256 := by
  have hplace : width - 1 - i < (littleEndian width n).length := by
    rw [length_bigEndian] at hi
    rw [length_littleEndian]
    omega
  rw [← getElem_littleEndian hplace]
  simp [bigEndian]

/-- A digit of a number is a digit of its remainder. -/
theorem emod_ediv_emod {width place : Nat} (h : place < width) (n : Int) :
    n % Nat.pow 256 width / Nat.pow 256 place % 256 = n / Nat.pow 256 place % 256 := by
  have hpow : Nat.pow 256 width =
      Nat.pow 256 place * (256 * Nat.pow 256 (width - place - 1)) := by
    simp only [Nat.pow_eq]
    rw [← Nat.pow_succ', ← Nat.pow_add]
    congr 1
    omega
  have hpos : (Nat.pow 256 place : Int) ≠ 0 :=
    Int.ofNat_ne_zero.mpr (Nat.ne_of_gt (Nat.pow_pos (by decide)))
  rw [hpow]
  generalize Nat.pow 256 place = low at hpos ⊢
  generalize Nat.pow 256 (width - place - 1) = high
  -- The remainder differs from the number by a multiple of 256 times the lower digits.
  have hremainder := Int.emod_def n ((low * (256 * high) : Nat) : Int)
  generalize n / ((low * (256 * high) : Nat) : Int) = quotient at hremainder
  rw [Int.natCast_mul, Int.natCast_mul, Int.mul_assoc, Int.mul_assoc] at hremainder
  calc n % ((low * (256 * high) : Nat) : Int) / low % 256
      = (n - low * (256 * (high * quotient))) / low % 256 := by
        rw [Int.natCast_mul, Int.natCast_mul, hremainder]
        rfl
    _ = (n / low - 256 * (high * quotient)) % 256 := by rw [Int.sub_mul_ediv_left _ _ hpos]
    _ = n / low % 256 := Int.sub_mul_emod_self_left _ _ _

/-- The remainder that is written is not negative. -/
theorem toNat_emod (width : Nat) (n : Int) :
    ((n % Nat.pow 2 (8 * width)).toNat : Int) = n % Nat.pow 256 width := by
  rw [show Nat.pow 2 (8 * width) = Nat.pow 256 width from Nat.pow_mul 2 8 width]
  exact Int.toNat_of_nonneg (Int.emod_nonneg n (Int.ofNat_ne_zero.mpr
    (Nat.ne_of_gt (Nat.pow_pos (by decide)))))

/-- The bytes that are written are those of the number in two's complement. -/
theorem twosComplement_bigEndian (width : Nat) (n : Int) :
    TwosComplement width n (bigEndian width (n % Nat.pow 2 (8 * width)).toNat) := by
  refine ⟨length_bigEndian _ _, fun i hi => ?_⟩
  have hplace : width - 1 - i < width := by
    rw [length_bigEndian] at hi
    omega
  rw [getElem_bigEndian hi, Int.natCast_emod, Int.natCast_ediv, toNat_emod]
  exact emod_ediv_emod hplace n

/-- A number that fits into the bytes is read back from them. -/
theorem ofSignedBigEndian_bigEndian {width : Nat} (hwidth : 0 < width) {n : Int}
    (hfits : FitsSigned width n) :
    ofSignedBigEndian (bigEndian width (n % Nat.pow 2 (8 * width)).toNat) = n := by
  rcases hfits with ⟨hlow, hhigh⟩
  have hdouble : Nat.pow 2 (8 * width) = 2 * Nat.pow 2 (8 * width - 1) := by
    simp only [Nat.pow_eq]
    rw [← Nat.pow_succ']
    congr 1
    omega
  have hread : ofBigEndian (bigEndian width (n % Nat.pow 2 (8 * width)).toNat) =
      (n % Nat.pow 2 (8 * width)).toNat := by
    rw [ofBigEndian_bigEndian, ← show Nat.pow 2 (8 * width) = Nat.pow 256 width from
      Nat.pow_mul 2 8 width]
    have hpos : (0 : Int) < Nat.pow 2 (8 * width) := Int.natCast_pos.mpr (Nat.pow_pos (by decide))
    have hbelow := Int.emod_lt_of_pos n hpos
    exact Nat.mod_eq_of_lt (by omega)
  rw [ofSignedBigEndian, length_bigEndian, hread]
  generalize Nat.pow 2 (8 * width) = whole at hdouble ⊢
  generalize Nat.pow 2 (8 * width - 1) = half at *
  subst hdouble
  -- A negative number is written as what it is below twice the bound, so in the upper half.
  rcases Int.lt_or_le n 0 with hneg | hnonneg
  · have hrest : n % ((2 * half : Nat) : Int) = n + (2 * half : Nat) := by
      rw [← Int.add_emod_right, Int.emod_eq_of_lt] <;> omega
    rw [hrest, if_neg (by omega)]
    omega
  · rw [Int.emod_eq_of_lt hnonneg (by omega), if_pos (by omega)]
    omega

/-! ## The number of some bytes -/

/-- Bytes make up a number that has no more of them. -/
theorem ofLittleEndian_lt (bs : List UInt8) : ofLittleEndian bs < Nat.pow 256 bs.length := by
  induction bs with
  | nil => decide
  | cons b bs ih =>
      have hb := b.toNat_lt
      have hpow : Nat.pow 256 (b :: bs).length = 256 * Nat.pow 256 bs.length := Nat.pow_succ'
      rw [ofLittleEndian, hpow]
      omega

/-- What is read from bytes is in their range. -/
theorem ofBigEndian_lt (bs : List UInt8) : ofBigEndian bs < Nat.pow 256 bs.length := by
  rw [ofBigEndian, ← List.length_reverse]
  exact ofLittleEndian_lt _

/-- Bytes are those of the number that they make up. -/
theorem littleEndian_ofLittleEndian (bs : List UInt8) :
    littleEndian bs.length (ofLittleEndian bs) = bs := by
  induction bs with
  | nil => rfl
  | cons b bs ih =>
      have hb := b.toNat_lt
      rw [List.length_cons, littleEndian, ofLittleEndian, Nat.add_mul_mod_self_left,
        Nat.mod_eq_of_lt hb, UInt8.ofNat_toNat, Nat.add_mul_div_left _ _ (by decide),
        Nat.div_eq_of_lt hb, Nat.zero_add, ih]

/-- Bytes that are read are written as they were. -/
theorem bigEndian_ofBigEndian (bs : List UInt8) : bigEndian bs.length (ofBigEndian bs) = bs := by
  rw [bigEndian, ofBigEndian, ← List.length_reverse, littleEndian_ofLittleEndian,
    List.reverse_reverse]

/-- The signed number of some bytes fits into them, and differs from the unsigned one by a multiple
of what is too large for them. -/
theorem ofSignedBigEndian_spec {bs : List UInt8} (hbs : 0 < bs.length) :
    FitsSigned bs.length (ofSignedBigEndian bs) ∧
      ofSignedBigEndian bs % Nat.pow 2 (8 * bs.length) = ofBigEndian bs := by
  have hlt : ofBigEndian bs < Nat.pow 2 (8 * bs.length) := by
    rw [show Nat.pow 2 (8 * bs.length) = Nat.pow 256 bs.length from Nat.pow_mul 2 8 _]
    exact ofBigEndian_lt bs
  have hdouble : Nat.pow 2 (8 * bs.length) = 2 * Nat.pow 2 (8 * bs.length - 1) := by
    simp only [Nat.pow_eq]
    rw [← Nat.pow_succ']
    congr 1
    omega
  unfold FitsSigned ofSignedBigEndian
  dsimp only
  generalize Nat.pow 2 (8 * bs.length) = whole at *
  generalize Nat.pow 2 (8 * bs.length - 1) = half at *
  split
  · exact ⟨by omega, Int.emod_eq_of_lt (by omega) (by omega)⟩
  · refine ⟨by omega, ?_⟩
    rw [Int.sub_emod_right]
    exact Int.emod_eq_of_lt (by omega) (by omega)

/-- Bytes in two's complement are those that are written for the number. -/
theorem TwosComplement.eq_bigEndian {width : Nat} {n : Int} {bs : List UInt8}
    (h : TwosComplement width n bs) :
    bs = bigEndian width (n % Nat.pow 2 (8 * width)).toNat := by
  have hwritten := twosComplement_bigEndian width n
  refine List.ext_getElem (h.length.trans hwritten.length.symm) fun i hi hi' => ?_
  have hbyte := (h.byte i hi).trans (hwritten.byte i hi').symm
  exact UInt8.toNat_inj.mp (Int.ofNat.inj hbyte)

/-- Bytes are those of the signed number that is read from them, and of no other that fits. -/
theorem twosComplement_iff {width : Nat} (hwidth : 0 < width) {n : Int} {bs : List UInt8} :
    FitsSigned width n ∧ TwosComplement width n bs ↔
      bs.length = width ∧ ofSignedBigEndian bs = n := by
  constructor
  · rintro ⟨hfits, hbs⟩
    refine ⟨hbs.length, ?_⟩
    rw [hbs.eq_bigEndian, ofSignedBigEndian_bigEndian hwidth hfits]
  · rintro ⟨rfl, rfl⟩
    rcases ofSignedBigEndian_spec hwidth with ⟨hfits, hrest⟩
    refine ⟨hfits, ?_⟩
    have hwritten := twosComplement_bigEndian bs.length (ofSignedBigEndian bs)
    rwa [hrest, Int.toNat_natCast, bigEndian_ofBigEndian] at hwritten

end ShardedSql
