import ShardedSql.Text.Numeral

/-!
# Decimal numerals and their numbers

A number that is written in digits is read as itself if it has 64 bits.

Main results:

- Theorem `readNat64_toString`: a number is read back from its digits.
- Theorem `lt_of_readNat64`: what is read has 64 bits.
- Theorem `readInt64_eq_ok`: a signed number is read from each of its numerals.
-/

namespace ShardedSql.Text

theorem digitValue_of_isDigit {c : Char} (hc : c.isDigit = true) :
    digitValue? c = some (c.toNat - '0'.toNat) := by
  have hrange : ('0' ≤ c && c ≤ '9') = true := by
    simpa [Char.isDigit, Char.le_def] using hc
  simp only [digitValue?, hrange, if_true]

/-- Digits only add to a number. -/
theorem le_ofDigitChars (cs : List Char) (total : Nat) : total ≤ Nat.ofDigitChars 10 cs total := by
  induction cs generalizing total with
  | nil => exact Nat.le_refl total
  | cons c cs ih =>
      rw [Nat.ofDigitChars_cons]
      exact Nat.le_trans (by omega) (ih _)

/-- Digits that come to a number that is small enough are read as it. -/
theorem accumulateDigits_eq_ok {limit : Nat} {overflow : NumeralFault} {cs : List Char}
    (hdigits : ∀ c ∈ cs, c.isDigit = true) {total : Nat}
    (hlimit : Nat.ofDigitChars 10 cs total ≤ limit) :
    accumulateDigits limit overflow total cs = .ok (Nat.ofDigitChars 10 cs total) := by
  induction cs generalizing total with
  | nil => rfl
  | cons c cs ih =>
      rw [List.forall_mem_cons] at hdigits
      rw [Nat.ofDigitChars_cons, Nat.mul_comm] at hlimit ⊢
      have hgrows : total * 10 + (c.toNat - '0'.toNat) ≤ limit :=
        Nat.le_trans (le_ofDigitChars cs _) hlimit
      unfold accumulateDigits
      simp only [digitValue_of_isDigit hdigits.1, Nat.not_lt.mpr hgrows, if_false]
      exact ih hdigits.2 hlimit

/-- A number of 64 bits is read back from its digits. -/
theorem readNat64_toString {n : Nat} (hn : n < Nat.pow 2 64) :
    readNat64 (toString n) = .ok n := by
  have hdigits : ∀ c ∈ Nat.toDigits 10 n, c.isDigit = true :=
    fun c hc => Nat.isDigit_of_mem_toDigits (by decide) (by decide) hc
  have hlimit : Nat.ofDigitChars 10 (Nat.toDigits 10 n) 0 ≤ Nat.pow 2 64 - 1 := by
    rw [Nat.ofDigitChars_ten_toDigits]
    omega
  have hread : accumulateDigits (Nat.pow 2 64 - 1) .tooLarge 0 (Nat.toDigits 10 n) = .ok n :=
    (accumulateDigits_eq_ok hdigits hlimit).trans (by rw [Nat.ofDigitChars_ten_toDigits])
  unfold readNat64 readUnsigned
  rw [Nat.toString_eq_repr, Nat.toList_repr]
  rcases hcs : Nat.toDigits 10 n with _ | ⟨c, cs⟩
  · exact absurd hcs Nat.toDigits_ne_nil
  · rw [hcs] at hdigits hread
    have hsign : c ≠ '+' := by
      rintro rfl
      exact absurd (hdigits '+' List.mem_cons_self) (by decide)
    split
    · contradiction
    · rename_i heq
      cases heq
      exact absurd rfl hsign
    · exact hread

theorem accumulateDigits_le {limit : Nat} {overflow : NumeralFault} {cs : List Char} {total n : Nat}
    (htotal : total ≤ limit) (h : accumulateDigits limit overflow total cs = .ok n) :
    n ≤ limit := by
  induction cs generalizing total with
  | nil =>
      cases h
      exact htotal
  | cons c cs ih =>
      unfold accumulateDigits at h
      split at h
      · cases h
      · split at h
        · cases h
        · rename_i hle
          exact ih (Nat.not_lt.mp hle) h

/-- What is read as a number of 64 bits is one. -/
theorem lt_of_readNat64 {s : String} {n : Nat} (h : readNat64 s = .ok n) : n < Nat.pow 2 64 := by
  have hmagnitude : ∀ cs, readMagnitude (Nat.pow 2 64 - 1) .tooLarge cs = .ok n →
      n < Nat.pow 2 64 := by
    intro cs hcs
    cases cs with
    | nil => cases hcs
    | cons c cs =>
        have hle := accumulateDigits_le (Nat.zero_le _) hcs
        have hpos : 0 < Nat.pow 2 64 := by decide
        omega
  unfold readNat64 readUnsigned at h
  split at h
  · cases h
  · exact hmagnitude _ h
  · exact hmagnitude _ h

/-! ## Signed numbers -/

/-- At least one digit, and nothing else. -/
structure AreDigits (cs : List Char) : Prop where
  ne_nil : cs ≠ []
  isDigit : ∀ c ∈ cs, c.isDigit = true

/-- The characters are a decimal numeral of an integer: digits, perhaps behind a sign. -/
inductive IsNumeral (n : Int) : List Char → Prop
  | unsigned {digits : List Char} (h : AreDigits digits)
      (hn : n = Nat.ofDigitChars 10 digits 0) : IsNumeral n digits
  | positive {digits : List Char} (h : AreDigits digits)
      (hn : n = Nat.ofDigitChars 10 digits 0) : IsNumeral n ('+' :: digits)
  | negative {digits : List Char} (h : AreDigits digits)
      (hn : n = -Nat.ofDigitChars 10 digits 0) : IsNumeral n ('-' :: digits)

/-- Digits that come to a number that is small enough have its magnitude. -/
theorem AreDigits.readMagnitude_eq_ok {cs : List Char} (h : AreDigits cs) {limit : Nat}
    (overflow : NumeralFault) (hlimit : Nat.ofDigitChars 10 cs 0 ≤ limit) :
    readMagnitude limit overflow cs = .ok (Nat.ofDigitChars 10 cs 0) := by
  have hread : accumulateDigits limit overflow 0 cs = .ok (Nat.ofDigitChars 10 cs 0) :=
    accumulateDigits_eq_ok h.isDigit hlimit
  cases cs with
  | nil => exact absurd rfl h.ne_nil
  | cons c cs => exact hread

theorem AreDigits.ofDigitChars_lt {cs : List Char} (h : AreDigits cs) :
    Nat.ofDigitChars 10 cs 0 < Nat.pow 10 cs.length := by
  have hgrows : ∀ (cs : List Char), (∀ c ∈ cs, c.isDigit = true) → ∀ total,
      Nat.ofDigitChars 10 cs total < (total + 1) * Nat.pow 10 cs.length := by
    intro cs hdigits
    induction cs with
    | nil => exact fun total => Nat.lt_of_lt_of_eq (Nat.lt_succ_self total) (Nat.mul_one _).symm
    | cons c cs ih =>
        intro total
        rw [List.forall_mem_cons] at hdigits
        have hc := (Char.isDigit_iff_toNat.mp hdigits.1).2
        have hdigit : 10 * total + (c.toNat - '0'.toNat) + 1 ≤ (total + 1) * 10 := by
          have hzero : '0'.toNat = 48 := rfl
          have hnine : '9'.toNat = 57 := rfl
          omega
        calc Nat.ofDigitChars 10 (c :: cs) total
            < (10 * total + (c.toNat - '0'.toNat) + 1) * Nat.pow 10 cs.length := by
              rw [Nat.ofDigitChars_cons]
              exact ih hdigits.2 _
          _ ≤ (total + 1) * 10 * Nat.pow 10 cs.length := Nat.mul_le_mul_right _ hdigit
          _ = (total + 1) * Nat.pow 10 (c :: cs).length := by
              rw [Nat.mul_assoc]
              exact congrArg _ Nat.pow_succ'.symm
  simpa using hgrows cs h.isDigit 0

/-- What a numeral begins with, and how large its number can be. -/
theorem IsNumeral.exists_cons {n : Int} {cs : List Char} (h : IsNumeral n cs) :
    ∃ c rest, cs = c :: rest ∧ 43 ≤ c.toNat ∧ c.toNat < 128 ∧ n.natAbs < Nat.pow 10 cs.length := by
  have hlonger : ∀ digits : List Char, Nat.pow 10 digits.length ≤ Nat.pow 10 (digits.length + 1) :=
    fun digits => Nat.pow_le_pow_right (by decide) (Nat.le_succ _)
  cases h with
  | unsigned h hn =>
      subst hn
      cases cs with
      | nil => exact absurd rfl h.ne_nil
      | cons c rest =>
          have hc := Char.isDigit_iff_toNat.mp (h.isDigit c List.mem_cons_self)
          exact ⟨c, rest, rfl, Nat.le_trans (by decide) hc.1, Nat.lt_of_le_of_lt hc.2 (by decide),
            h.ofDigitChars_lt⟩
  | positive h hn =>
      subst hn
      exact ⟨'+', _, rfl, by decide, by decide, Nat.lt_of_lt_of_le h.ofDigitChars_lt (hlonger _)⟩
  | negative h hn =>
      subst hn
      refine ⟨'-', _, rfl, by decide, by decide, ?_⟩
      rw [Int.natAbs_neg]
      exact Nat.lt_of_lt_of_le h.ofDigitChars_lt (hlonger _)

/-- A signed number of 64 bits is read from each of its numerals. -/
theorem readInt64_eq_ok {s : String} {n : Int64} (h : IsNumeral n.toInt s.toList) :
    readInt64 s = .ok n := by
  have hnonneg : ∀ digits : List Char, n.toInt = Nat.ofDigitChars 10 digits 0 →
      Nat.ofDigitChars 10 digits 0 ≤ Nat.pow 2 63 - 1 ∧
        Int64.ofNat (Nat.ofDigitChars 10 digits 0) = n := by
    intro digits hn
    have hlt : n.toInt < Nat.pow 2 63 := n.toInt_lt
    refine ⟨by omega, ?_⟩
    rw [← Int64.ofInt_eq_ofNat, ← hn, Int64.ofInt_toInt]
  unfold readInt64
  cases hcs : s.toList with
  | nil =>
    rw [hcs] at h
    cases h with
    | unsigned h hn => exact absurd rfl h.ne_nil
  | cons c cs =>
    rw [hcs] at h
    cases h with
    | unsigned h hn =>
        have hc := h.isDigit c List.mem_cons_self
        rcases hnonneg _ hn with ⟨hlimit, hback⟩
        have hread := h.readMagnitude_eq_ok .tooLarge hlimit
        split
        · contradiction
        · rename_i heq
          cases heq
          exact absurd hc (by decide)
        · rename_i heq
          cases heq
          exact absurd hc (by decide)
        · rw [hread]
          exact congrArg Except.ok hback
    | positive h hn =>
        rcases hnonneg _ hn with ⟨hlimit, hback⟩
        simp only [h.readMagnitude_eq_ok .tooLarge hlimit]
        exact congrArg Except.ok hback
    | negative h hn =>
        have hle : -Nat.pow 2 63 ≤ n.toInt := n.le_toInt
        have hlimit : Nat.ofDigitChars 10 cs 0 ≤ Nat.pow 2 63 := by omega
        simp only [h.readMagnitude_eq_ok .tooSmall hlimit]
        show Except.ok (Int64.ofInt (-(Nat.ofDigitChars 10 cs 0 : Int))) = .ok n
        rw [← hn, Int64.ofInt_toInt]

end ShardedSql.Text
