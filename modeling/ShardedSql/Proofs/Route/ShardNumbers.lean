import ShardedSql.Proofs.Route.NumberedNodes

/-!
# Shard numbers and large counts

A sharding count is any positive number of 64 bits, but remainders are taken with the signed number
of the same bits.  A count above `2 ^ 63` is a negative number then, and what is left modulo a
negative number is what is left modulo its magnitude, here `2 ^ 64` less the count.

Main results:

- Theorem `ShardingAlgorithm.exists_setUp_iff`: every positive count is accepted.
- Theorem `ShardingAlgorithm.shardIndex_int`: the shard number of an integer, whatever the count.
- Theorem `ShardingAlgorithm.shardIndex_remainder_iff`: when it is the remainder by the count.
-/

namespace ShardedSql.ShardingAlgorithm

variable {name : String} {spec : AlgorithmSpec} {count : UInt64}

/-! ## Counts that are accepted -/

/-- A count that is read is positive. -/
theorem readCount_pos (h : readCount name spec = .ok count) : 0 < count.toNat := by
  rcases Except.bind_eq_ok.mp h with ⟨text, -, hcount⟩
  split at hcount
  · rename_i n hn
    split at hcount
    · cases hcount
    · rename_i hpos
      cases hcount
      rw [UInt64.toNat_ofNat_of_lt' (Text.lt_of_readNat64 hn)]
      exact Nat.pos_of_ne_zero fun hzero => hpos (beq_iff_eq.mpr hzero)
  · cases hcount

/-- A count that is accepted is positive. -/
theorem pos_of_setUp (h : setUp name spec = .ok (modulo count)) : 0 < count.toNat := by
  rcases Except.bind_eq_ok.mp h with ⟨read, hread, hsetUp⟩
  dsimp only at hsetUp
  split at hsetUp
  · cases hsetUp
    exact readCount_pos hread
  · split at hsetUp <;> cases hsetUp

/-- A number written in digits is not blank. -/
theorem isBlankText_toString (n : Nat) : Text.isBlankText (toString n) = false := by
  have hblank : ∀ c : Char, c.isDigit = true → Text.isBlank c = false := by
    intro c hc
    have hrange : 48 ≤ c.toNat ∧ c.toNat ≤ 57 := by
      simpa [Char.isDigit, UInt32.le_iff_toNat_le] using hc
    simp [Text.isBlank]
    omega
  rcases List.exists_mem_of_ne_nil _ (Nat.toDigits_ne_nil (b := 10) (n := n)) with ⟨c, hc⟩
  have hdigit : c.isDigit = true := Nat.isDigit_of_mem_toDigits (by decide) (by decide) hc
  unfold Text.isBlankText
  rw [Nat.toString_eq_repr, Nat.toList_repr, List.all_eq_false]
  exact ⟨c, hc, by simp [hblank c hdigit]⟩

/-- A positive count is accepted when it is written in digits. -/
theorem setUp_toString (name : String) (hcount : 0 < count.toNat) :
    setUp name { type := "MOD", properties := [("sharding-count", toString count.toNat)] } =
      .ok (modulo count) := by
  have hread : readCount name
      { type := "MOD", properties := [("sharding-count", toString count.toNat)] } =
        .ok count := by
    refine Except.bind_eq_ok.mpr ⟨toString count.toNat, ?_, ?_⟩
    · simp only [AlgorithmSpec.required, AlgorithmSpec.property?, List.lookup_cons,
        beq_self_eq_true, isBlankText_toString]
      rfl
    · have hpos : ¬ (count.toNat == 0) = true := by
        rw [beq_iff_eq]
        omega
      simp only [Text.readNat64_toString count.toNat_lt, if_neg hpos, UInt64.ofNat_toNat]
  have htype : (Text.upper "MOD" == "MOD") = true := by decide +kernel
  refine Except.bind_eq_ok.mpr ⟨count, hread, ?_⟩
  simp only [htype, if_true]

/-- The counts that are accepted are the positive ones. -/
theorem exists_setUp_iff (name : String) :
    (∃ spec, setUp name spec = .ok (modulo count)) ↔ 0 < count.toNat :=
  ⟨fun ⟨_, h⟩ => pos_of_setUp h, fun h => ⟨_, setUp_toString name h⟩⟩

/-! ## Remainders -/

/-- What remainders by a count are taken modulo. -/
def modulus (count : UInt64) : Nat :=
  if count.toNat ≤ Nat.pow 2 63 then count.toNat else Nat.pow 2 64 - count.toNat

/-- It is the magnitude of the signed number with the bits of the count. -/
theorem natAbs_toInt64 (count : UInt64) : count.toInt64.toInt.natAbs = modulus count := by
  have hlt : count.toNat < 2 ^ 64 := count.toNat_lt
  show count.toBitVec.toInt.natAbs = _
  rw [BitVec.toInt_eq_toNat_cond, UInt64.toNat_toBitVec]
  unfold modulus
  have hpow : Nat.pow 2 63 = 2 ^ 63 ∧ Nat.pow 2 64 = 2 ^ 64 := ⟨rfl, rfl⟩
  rw [hpow.1, hpow.2]
  split <;> split <;> omega

/-- A remainder by a count is one by its modulus. -/
theorem emod_toInt64 (v : Int) (count : UInt64) :
    v.emod count.toInt64.toInt = v.emod (modulus count) := by
  rw [← natAbs_toInt64]
  rcases Int.natAbs_eq count.toInt64.toInt with h | h
  · rw [← h]
  · conv_lhs => rw [h]
    exact Int.emod_neg _ _

/-- The only count that is minus one as a signed integer is the largest one. -/
theorem toInt64_eq_neg_one_iff (count : UInt64) :
    count.toInt64 = -1 ↔ count.toNat = Nat.pow 2 64 - 1 := by
  have hback : (-1 : Int64).toUInt64.toNat = Nat.pow 2 64 - 1 := by decide
  constructor
  · intro h
    rw [← hback, ← h, UInt64.toUInt64_toInt64]
  · intro h
    rw [← hback] at h
    rw [UInt64.toNat_inj.mp h, Int64.toInt64_toUInt64]

/-- The shard number of an integer.  The least integer has none when the count is the greatest
one. -/
theorem shardIndex_int (count : UInt64) (v : Int64) :
    (modulo count).shardIndex (.int v) =
      if v = Int64.minValue ∧ count.toNat = Nat.pow 2 64 - 1 then .error .arithmetic
      else .ok (v.toInt.emod (modulus count)).toNat := by
  show remainder v count.toInt64 = _
  unfold remainder
  simp only [emod_toInt64, Bool.and_eq_true, beq_iff_eq, toInt64_eq_neg_one_iff]

/-- A number below `2 ^ 63` that divides its difference from `2 ^ 64` is at most `2 ^ 62`. -/
theorem le_of_dvd_complement {k c : Nat} (hsum : k + c = Nat.pow 2 64) (hk : k < Nat.pow 2 63)
    (hdvd : k ∣ c) : k ≤ Nat.pow 2 62 := by
  have hpow : Nat.pow 2 64 = 4 * Nat.pow 2 62 ∧ Nat.pow 2 63 = 2 * Nat.pow 2 62 := by decide
  rcases hdvd with ⟨q, rfl⟩
  rcases Nat.lt_or_ge q 3 with hsmall | hlarge
  · -- The difference is not twice the number, because `2 ^ 64` is no multiple of three.
    have hthree : Nat.pow 2 64 % 3 = 1 := by decide
    obtain rfl | rfl | rfl : q = 0 ∨ q = 1 ∨ q = 2 := by omega
    all_goals omega
  · have hmul : k * 3 ≤ k * q := Nat.mul_le_mul_left k hlarge
    omega

/-- Modulo a number below `2 ^ 63` and modulo its difference from `2 ^ 64` the same is left of the
numbers that are less than it and not negative, and of no others. -/
theorem emod_eq_emod_iff {k c : Nat} (hsum : k + c = Nat.pow 2 64) (hpos : 0 < k)
    (hk : k < Nat.pow 2 63) {v : Int} (hlower : -Nat.pow 2 63 ≤ v) (hupper : v < Nat.pow 2 63) :
    v.emod k = v.emod c ↔ 0 ≤ v ∧ v < k := by
  have hpow : Nat.pow 2 64 = 2 * Nat.pow 2 63 ∧ Nat.pow 2 63 = 2 * Nat.pow 2 62 := by decide
  have hlt : v.emod k < k := Int.emod_lt_of_pos v (Int.natCast_pos.mpr hpos)
  rcases Int.lt_or_le v 0 with hneg | hnonneg
  · have hright : v.emod c = v + c := by
      show v % (c : Int) = v + c
      rw [← Int.add_emod_right]
      exact Int.emod_eq_of_lt (by omega) (by omega)
    rw [hright]
    refine iff_of_false (fun heq => ?_) (by omega)
    have hdvd : k ∣ c := by
      have hsub := Int.dvd_self_sub_of_emod_eq heq
      have hdiff : v - (v + c) = -(c : Int) := by omega
      rw [hdiff, Int.dvd_neg] at hsub
      exact Int.natCast_dvd_natCast.mp hsub
    have hsmall := le_of_dvd_complement hsum hk hdvd
    omega
  · have hright : v.emod c = v := Int.emod_eq_of_lt hnonneg (by omega)
    rw [hright]
    constructor
    · intro heq
      exact ⟨hnonneg, heq ▸ hlt⟩
    · exact fun h => Int.emod_eq_of_lt hnonneg h.2

/-- An integer is put on the shard of its remainder when the count is at most `2 ^ 63`, and
otherwise when the integer is less than the magnitude of the count and not negative. -/
theorem shardIndex_remainder_iff (hsetUp : setUp name spec = .ok (modulo count)) (v : Int64) :
    (∃ shard, (modulo count).shardIndex (.int v) = .ok shard ∧
      (shard : Int) = v.toInt.emod count.toNat ∧ shard < count.toNat) ↔
    count.toNat ≤ Nat.pow 2 63 ∨ 0 ≤ v.toInt ∧ v.toInt + count.toNat < Nat.pow 2 64 := by
  have hpow : Nat.pow 2 64 = 2 * Nat.pow 2 63 ∧ 1 < Nat.pow 2 63 := by decide
  have hpos : 0 < count.toNat := pos_of_setUp hsetUp
  have hlt : count.toNat < Nat.pow 2 64 := count.toNat_lt
  have hlower : -Nat.pow 2 63 ≤ v.toInt := v.le_toInt
  have hupper : v.toInt < Nat.pow 2 63 := v.toInt_lt
  have hless : v.toInt.emod count.toNat < count.toNat := Int.emod_lt_of_pos _ (by omega)
  have hnonneg : ∀ m : Nat, 0 < m → 0 ≤ v.toInt.emod m :=
    fun m hm => Int.emod_nonneg _ (by omega)
  rw [shardIndex_int]
  rcases Nat.lt_or_ge (Nat.pow 2 63) count.toNat with hlarge | hsmall
  · have hmodulus : modulus count = Nat.pow 2 64 - count.toNat := if_neg (by omega)
    have hiff := emod_eq_emod_iff (v := v.toInt) (k := modulus count) (c := count.toNat)
      (by omega) (by omega) (by omega) hlower hupper
    have hmagnitude := hnonneg (modulus count) (by omega)
    constructor
    · rintro ⟨shard, hshard, hremainder, -⟩
      split at hshard
      · cases hshard
      · cases hshard
        have hsame := hiff.mp (by omega)
        omega
    · intro h
      have hsame := hiff.mpr (by omega)
      have hnotLeast : ¬ (v = Int64.minValue ∧ count.toNat = Nat.pow 2 64 - 1) := by
        rintro ⟨rfl, -⟩
        have hleast : Int64.minValue.toInt < 0 := by decide
        omega
      exact ⟨_, if_neg hnotLeast, by omega, by omega⟩
  · have hmodulus : modulus count = count.toNat := if_pos hsmall
    have hrange := hnonneg count.toNat hpos
    have hnotGreatest : ¬ (v = Int64.minValue ∧ count.toNat = Nat.pow 2 64 - 1) := by
      rintro ⟨-, hgreatest⟩
      omega
    rw [hmodulus, if_neg hnotGreatest]
    exact iff_of_true ⟨_, rfl, by omega, by omega⟩ (.inl hsmall)

/-- A modulo algorithm whose count is given in digits. -/
def moduloSpec (digits : String) : AlgorithmSpec :=
  { type := "MOD", properties := [("sharding-count", digits)] }

/-- The properties with the digits of a count make up the algorithm. -/
theorem setUp_moduloSpec (hcount : 0 < count.toNat) {digits : String}
    (hdigits : toString count.toNat = digits) :
    setUp "order_mod" (moduloSpec digits) = .ok (modulo count) :=
  hdigits ▸ setUp_toString "order_mod" hcount

/-- With a count of `2 ^ 64 - 10` the integers below ten are put on the shards of their remainders,
and ten is not. -/
theorem shardIndex_remainder_iff_tenShort :
    setUp "order_mod" (moduloSpec "18446744073709551606") = .ok (modulo 18446744073709551606) ∧
    (∃ shard, (modulo 18446744073709551606).shardIndex (.int 9) = .ok shard ∧
      (shard : Int) = (9 : Int64).toInt.emod (18446744073709551606 : UInt64).toNat ∧
      shard < (18446744073709551606 : UInt64).toNat) ∧
    ¬ ∃ shard, (modulo 18446744073709551606).shardIndex (.int 10) = .ok shard ∧
      (shard : Int) = (10 : Int64).toInt.emod (18446744073709551606 : UInt64).toNat ∧
      shard < (18446744073709551606 : UInt64).toNat := by
  have hsetUp : setUp "order_mod" (moduloSpec "18446744073709551606") =
      .ok (modulo 18446744073709551606) := setUp_moduloSpec (by decide) (by decide +kernel)
  refine ⟨hsetUp, (shardIndex_remainder_iff hsetUp 9).mpr (.inr (by decide)), ?_⟩
  rw [shardIndex_remainder_iff hsetUp 10]
  decide

/-- With the greatest count every integer is put on shard zero, five for one, and the least integer
on none. -/
theorem shardIndex_ne_remainder_greatest :
    setUp "order_mod" (moduloSpec "18446744073709551615") = .ok (modulo 18446744073709551615) ∧
    (modulo 18446744073709551615).shardIndex (.int 5) = .ok 0 ∧
    (5 : Int64).toInt.emod (18446744073709551615 : UInt64).toNat = 5 ∧
    (modulo 18446744073709551615).shardIndex (.int Int64.minValue) = .error .arithmetic :=
  ⟨setUp_moduloSpec (by decide) (by decide +kernel), rfl, rfl, rfl⟩

end ShardedSql.ShardingAlgorithm
