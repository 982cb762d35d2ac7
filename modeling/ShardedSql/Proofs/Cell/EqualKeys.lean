import ShardedSql.Proofs.Cell.GroupKey
import ShardedSql.Proofs.Number.Nearest

/-!
# Equal cells have equal key bytes

Key bytes are compared in place of cells.  They tell their own length, so that the keys of two rows
are equal only if those of each of their cells are.  Cells that are equal have the same key bytes,
except that an integer beyond the precision of floating-point numbers equals a floating-point
number that is written otherwise.

Main results:

- Theorem `Binary64.eq_or_zero_of_compare`: equal floating-point numbers are one word or both zero.
- Theorem `Cell.groupKey_append_cancel`: key bytes can be split off from what follows them, for
  floating-point numbers too.
- Theorem `Cell.groupKey_eq_of_equals`: equal cells of one kind have the same key bytes.
- Theorem `Cell.Tellable.groupKey_eq`: among cells without such numbers equal ones have the same.
-/

namespace ShardedSql

/-! ## Floating-point numbers -/

namespace Binary64

/-- A word is its sign and its code. -/
theorem ext_code {x y : Binary64} (hsign : x.isNegative = y.isNegative) (hcode : x.code = y.code) :
    x = y := by
  have hx := x.bits.toNat_lt
  have hy := y.bits.toNat_lt
  simp only [isNegative, decide_eq_decide] at hsign
  simp only [code, Nat.pow_eq] at hcode hsign
  have hword : x.bits.toNat = y.bits.toNat := by omega
  cases x
  cases y
  exact congrArg Binary64.mk (UInt64.toNat_inj.mp hword)

/-- Numbers that are equal are the same word or both zero. -/
theorem eq_or_zero_of_compare {x y : Binary64} (h : x.compare? y = some .eq) :
    x = y ∨ x.code = 0 ∧ y.code = 0 := by
  have hscaled : x.scaled = y.scaled := by
    unfold compare? at h
    split at h
    · cases h
    · exact Int.compare_eq_eq.mp (Option.some.inj h)
  have hsigned : x.signedCode = y.signedCode := scaled_inj.mp hscaled
  have hcode : x.code = y.code := by
    rw [← natAbs_signedCode, ← natAbs_signedCode, hsigned]
  by_cases hzero : x.code = 0
  · exact .inr ⟨hzero, hcode ▸ hzero⟩
  · left
    refine ext_code ?_ hcode
    unfold signedCode at hsigned
    cases hx : x.isNegative <;> cases hy : y.isNegative <;> simp [hx, hy] at hsigned ⊢ <;> omega

end Binary64

namespace Cell

/-! ## The length of key bytes -/

/-- The length of a text or byte string, if the cell holds one, fits into the four bytes it is
written in. -/
def Short (collation : Collation) : Cell → Prop
  | text s => (Text.bytes (collation.fold s)).length < Nat.pow 2 32
  | bytes bs => bs.length < Nat.pow 2 32
  | null | bool _ | int _ | float _ => True

instance (collation : Collation) : DecidablePred (Short collation)
  | text s => inferInstanceAs (Decidable ((Text.bytes (collation.fold s)).length < Nat.pow 2 32))
  | bytes bs => inferInstanceAs (Decidable (bs.length < Nat.pow 2 32))
  | null | bool _ | int _ | float _ => inferInstanceAs (Decidable True)

/-- The number of key bytes of the cell whose key bytes come first: it follows from the tag and,
after the tag of a text or byte string, from the length. -/
def keyLength : List UInt8 → Nat
  | [] => 0
  | 0 :: _ => 1
  | 1 :: _ => 2
  | 2 :: _ | 5 :: _ => 9
  | _ :: bs => 5 + ofLittleEndian (bs.take 4)

theorem length_counted (bs : List UInt8) : (counted bs).length = 4 + bs.length := by
  simp [counted]

/-- A counted text starts with its length. -/
theorem ofLittleEndian_take_counted {bs : List UInt8} (h : bs.length < Nat.pow 2 32)
    (r : List UInt8) : ofLittleEndian ((counted bs ++ r).take 4) = bs.length := by
  have htake : (counted bs ++ r).take 4 = littleEndian 4 bs.length := by
    rw [counted, List.append_assoc]
    exact List.take_left' (by simp)
  rw [htake, ofLittleEndian_littleEndian]
  exact Nat.mod_eq_of_lt h

/-- The length of an integer key is read off its start. -/
theorem keyLength_integerKey (n : Int64) (r : List UInt8) :
    keyLength (integerKey n ++ r) = (integerKey n).length := by
  simp [integerKey, keyLength]

/-- Key bytes tell their own length. -/
theorem keyLength_groupKey_append {collation : Collation} {c : Cell} (h : c.Short collation)
    (r : List UInt8) : keyLength (c.groupKey collation ++ r) = (c.groupKey collation).length := by
  cases c with
  | null => rfl
  | bool b => rfl
  | int n => exact keyLength_integerKey n r
  | float x =>
      simp only [groupKey]
      split
      · exact keyLength_integerKey _ r
      · simp [keyLength]
  | text s =>
      show 5 + ofLittleEndian ((counted (Text.bytes (collation.fold s)) ++ r).take 4) = _
      rw [ofLittleEndian_take_counted h, groupKey, List.length_cons, length_counted]
      omega
  | bytes bs =>
      show 5 + ofLittleEndian ((counted bs ++ r).take 4) = _
      rw [ofLittleEndian_take_counted h, groupKey, List.length_cons, length_counted]
      omega

/-- Key bytes can be split off from what follows them. -/
theorem groupKey_append_cancel {collation : Collation} {c d : Cell} (hc : c.Short collation)
    (hd : d.Short collation) {r s : List UInt8}
    (h : c.groupKey collation ++ r = d.groupKey collation ++ s) :
    c.groupKey collation = d.groupKey collation ∧ r = s := by
  apply List.append_inj h
  rw [← keyLength_groupKey_append hc r, h, keyLength_groupKey_append hd s]

/-! ## Equal cells -/

/-- A zero of either sign has the key bytes of the integer. -/
theorem groupKey_float_of_code_eq_zero {collation : Collation} {x : Binary64} (h : x.code = 0) :
    (float x).groupKey collation = integerKey 0 := by
  have hunits : x.units = 0 := by
    rw [Binary64.units, h]
    rfl
  have hintegral : x.isIntegral = true := by
    simp [Binary64.isIntegral, Binary64.isFinite, h, hunits, Binary64.infinityCode]
  have htruncated : x.truncated = 0 := by
    simp [Binary64.truncated, hunits]
  have hsmall : ∀ scale, 0 < Nat.pow 2 63 * Nat.pow 2 scale := fun scale =>
    Nat.mul_pos (Nat.two_pow_pos 63) (Nat.two_pow_pos scale)
  have hwritten :
      (x.isIntegral && x.units < Nat.pow 2 63 * Nat.pow 2 Binary64.unitScale) = true := by
    rw [hintegral, hunits, Bool.true_and, decide_eq_true_eq]
    exact hsmall _
  rw [groupKey, if_pos hwritten, htruncated]
  rfl

/-- Numbers of the same order compare as equal. -/
theorem compare?_of_orderNumbers {x y : Binary64} (h : orderNumbers x y = .ok .eq) :
    x.compare? y = some .eq := by
  unfold orderNumbers at h
  cases hxy : x.compare? y with
  | none => rw [hxy] at h; cases h
  | some o =>
      rw [hxy] at h
      rw [Except.ok.inj h]

/-- Equal cells of one kind have the same key bytes. -/
theorem groupKey_eq_of_equals {collation : Collation} {c d : Cell} (hkind : c.kind = d.kind)
    (h : equals collation c d = .ok true) : c.groupKey collation = d.groupKey collation := by
  have horder := equals_eq_true.mp h
  cases c <;> cases d <;> simp only [kind, reduceCtorEq] at hkind
  case null.null => rfl
  case bool.bool a b =>
    cases a <;> cases b <;> simp [order] at horder ⊢
  case int.int m n =>
    simp only [order, Except.ok.injEq, Int.compare_eq_eq, Int64.toInt_inj] at horder
    rw [horder]
  case float.float x y =>
    rcases Binary64.eq_or_zero_of_compare (compare?_of_orderNumbers horder) with rfl | ⟨hx, hy⟩
    · rfl
    · rw [groupKey_float_of_code_eq_zero hx, groupKey_float_of_code_eq_zero hy]
  case text.text a b =>
    simp only [order, Except.ok.injEq, Text.order_eq_eq] at horder
    rw [groupKey, groupKey, horder]
  case bytes.bytes as bs =>
    simp only [order, Except.ok.injEq, orderBytes_eq_eq] at horder
    rw [horder]

/-- Equal cells are of one kind, unless one is an integer and the other a floating-point number. -/
theorem kind_eq_of_equals {collation : Collation} {c d : Cell}
    (hleft : c.kind = .int → d.kind ≠ .float) (hright : d.kind = .int → c.kind ≠ .float)
    (h : equals collation c d = .ok true) : c.kind = d.kind := by
  have horder := equals_eq_true.mp h
  cases c <;> cases d <;> simp [kind, order] at hleft hright horder ⊢

/-- Cells whose key bytes tell them apart exactly as the collation does: no text or byte string is
too long for them, and integers are not mixed with floating-point numbers. -/
structure Tellable (collation : Collation) (cells : List Cell) : Prop where
  short : ∀ c ∈ cells, c.Short collation
  unmixed : ∀ c ∈ cells, ∀ d ∈ cells, c.kind = .int → d.kind ≠ .float

/-- Among such cells equal ones have the same key bytes. -/
theorem Tellable.groupKey_eq {collation : Collation} {cells : List Cell}
    (h : Tellable collation cells) {c d : Cell} (hc : c ∈ cells) (hd : d ∈ cells)
    (hequal : equals collation c d = .ok true) : c.groupKey collation = d.groupKey collation :=
  groupKey_eq_of_equals
    (kind_eq_of_equals (h.unmixed c hc d hd) (h.unmixed d hd c hc) hequal) hequal

end Cell

/-- The keys of two rows are equal only if the key bytes of their cells are. -/
theorem groupKey_eq_of_keys_eq {collation : Collation} {columns : List Nat} {a b : Row}
    (ha : ∀ c ∈ columns, (a.cell c).Short collation)
    (hb : ∀ c ∈ columns, (b.cell c).Short collation)
    (h : columns.flatMap (fun c => (a.cell c).groupKey collation) =
      columns.flatMap (fun c => (b.cell c).groupKey collation)) :
    ∀ c ∈ columns, (a.cell c).groupKey collation = (b.cell c).groupKey collation := by
  induction columns with
  | nil => simp
  | cons c columns ih =>
      rw [List.forall_mem_cons] at ha hb ⊢
      rw [List.flatMap_cons, List.flatMap_cons] at h
      rcases Cell.groupKey_append_cancel ha.1 hb.1 h with ⟨hfirst, hrest⟩
      exact ⟨hfirst, ih ha.2 hb.2 hrest⟩

end ShardedSql
