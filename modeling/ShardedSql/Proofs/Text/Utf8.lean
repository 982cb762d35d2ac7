import ShardedSql.Text.Percent

/-!
# Texts as bytes

A character of seven bits is one byte, and all other characters are written in bytes that none of
these has.

Main results:

- Theorem `exists_of_length_bytes`: a text of one byte is one character of seven bits.
- Theorem `mem_bytes_iff`: a character of seven bits stands in a text if its byte does.
- Theorem `mem_of_percentDecoded?`: resolving escapes only takes percent signs and digits away.
-/

namespace ShardedSql.Text

/-! ## Single characters -/

theorem utf8EncodeChar_of_lt {c : Char} (hc : c.toNat < 128) :
    String.utf8EncodeChar c = [c.val.toUInt8] :=
  String.utf8EncodeChar_eq_singleton
    (Char.utf8Size_eq_one_iff.mpr (UInt32.le_iff_toNat_le.mpr (Nat.lt_succ_iff.mp hc)))

theorem toNat_toUInt8 {c : Char} (hc : c.toNat < 128) : c.val.toUInt8.toNat = c.toNat := by
  rw [UInt32.toNat_toUInt8]
  exact Nat.mod_eq_of_lt (Nat.lt_trans hc (by decide))

/-- All bytes of any other character have their first bit set. -/
theorem le_toNat_of_mem_utf8EncodeChar {c : Char} (hc : 128 ≤ c.toNat) {b : UInt8}
    (hb : b ∈ String.utf8EncodeChar c) : 128 ≤ b.toNat := by
  have hfirst : ∀ n, 128 ≤ n → n < 256 → 128 ≤ (UInt8.ofNat n).toNat := by
    intro n hlow hhigh
    rwa [UInt8.toNat_ofNat_of_lt' hhigh]
  have hc : 128 ≤ c.val.toNat := hc
  unfold String.utf8EncodeChar at hb
  dsimp only at hb
  rw [if_neg (by omega)] at hb
  -- Two, three or four bytes, each of them with its own marking bits.
  split at hb
  · simp only [List.mem_cons, List.not_mem_nil, or_false] at hb
    rcases hb with rfl | rfl <;> exact hfirst _ (by omega) (by omega)
  · split at hb
    · simp only [List.mem_cons, List.not_mem_nil, or_false] at hb
      rcases hb with rfl | rfl | rfl <;> exact hfirst _ (by omega) (by omega)
    · simp only [List.mem_cons, List.not_mem_nil, or_false] at hb
      rcases hb with rfl | rfl | rfl | rfl <;> exact hfirst _ (by omega) (by omega)

/-- A byte of seven bits is only in the encoding of its own character. -/
theorem mem_utf8EncodeChar {c d : Char} (hc : c.toNat < 128)
    (h : c.val.toUInt8 ∈ String.utf8EncodeChar d) : c = d := by
  have hbyte := toNat_toUInt8 hc
  rcases Nat.lt_or_ge d.toNat 128 with hd | hd
  · rw [utf8EncodeChar_of_lt hd, List.mem_singleton] at h
    rw [h, toNat_toUInt8 hd] at hbyte
    exact Char.toNat_inj.mp hbyte.symm
  · have hfirst := le_toNat_of_mem_utf8EncodeChar hd h
    omega

/-! ## Texts -/

theorem bytes_eq_flatMap (s : String) : bytes s = s.toList.flatMap String.utf8EncodeChar := by
  rw [bytes, String.toUTF8_eq_toByteArray, ← String.utf8Encode_toList, List.utf8Encode,
    List.toList_data_toByteArray]

/-- Every character has a byte. -/
theorem length_toList_le_length_bytes (s : String) : s.toList.length ≤ (bytes s).length := by
  rw [bytes_eq_flatMap]
  induction s.toList with
  | nil => exact Nat.le_refl 0
  | cons c cs ih =>
      have hc := c.utf8Size_pos
      rw [List.flatMap_cons, List.length_append, String.length_utf8EncodeChar, List.length_cons]
      omega

/-- A text that begins with a character of seven bits begins with the byte of this number. -/
theorem bytes_eq_cons {s : String} {c : Char} {cs : List Char} (hs : s.toList = c :: cs)
    (hc : c.toNat < 128) : ∃ bs, bytes s = c.val.toUInt8 :: bs := by
  rw [bytes_eq_flatMap, hs, List.flatMap_cons, utf8EncodeChar_of_lt hc]
  exact ⟨_, rfl⟩

/-- A text of one byte is one character of seven bits. -/
theorem exists_of_length_bytes {s : String} (h : (bytes s).length = 1) :
    ∃ n < 128, s = String.singleton (Char.ofNat n) ∧ bytes s = [UInt8.ofNat n] := by
  have hchars := bytes_eq_flatMap s
  cases hs : s.toList with
  | nil =>
      rw [hs] at hchars
      rw [hchars] at h
      cases h
  | cons c cs =>
      have hle := length_toList_le_length_bytes s
      rw [hs, List.length_cons, h] at hle
      obtain rfl : cs = [] := List.length_eq_zero_iff.mp (by omega)
      rw [hs, List.flatMap_cons, List.flatMap_nil, List.append_nil] at hchars
      have hsize : c.utf8Size = 1 := by
        rw [← String.length_utf8EncodeChar, ← hchars, h]
      have hc : c.toNat < 128 :=
        Nat.lt_succ_of_le (UInt32.le_iff_toNat_le.mp (Char.utf8Size_eq_one_iff.mp hsize))
      refine ⟨c.toNat, hc, ?_, ?_⟩
      · rw [Char.ofNat_toNat, ← String.toList_inj, hs, String.toList_singleton]
      · rw [hchars, utf8EncodeChar_of_lt hc, ← toNat_toUInt8 hc, UInt8.ofNat_toNat]

/-- A character of seven bits stands in a text if its byte does. -/
theorem mem_bytes_iff {s : String} {c : Char} (hc : c.toNat < 128) :
    c.val.toUInt8 ∈ bytes s ↔ c ∈ s.toList := by
  rw [bytes_eq_flatMap, List.mem_flatMap]
  constructor
  · rintro ⟨d, hd, hmem⟩
    exact mem_utf8EncodeChar hc hmem ▸ hd
  · intro h
    exact ⟨c, h, by rw [utf8EncodeChar_of_lt hc]; exact List.mem_singleton_self _⟩

theorem eq_bytes_of_ofBytes? {bs : List UInt8} {s : String} (h : ofBytes? bs = some s) :
    bs = bytes s := by
  unfold ofBytes? String.fromUTF8? at h
  split at h
  · cases h
    rfl
  · cases h

theorem ofBytes?_bytes (s : String) : ofBytes? (bytes s) = some s := by
  have hwhole : (⟨(bytes s).toArray⟩ : ByteArray) = s.toUTF8 := by
    rw [bytes, Array.toArray_toList]
  rw [ofBytes?, hwhole, String.fromUTF8?]
  exact dif_pos s.isValidUTF8

/-- Bytes are read as the text that they are the UTF-8 of. -/
theorem ofBytes?_eq_some_iff {bs : List UInt8} {s : String} :
    ofBytes? bs = some s ↔ bs = bytes s := by
  refine ⟨eq_bytes_of_ofBytes?, ?_⟩
  rintro rfl
  exact ofBytes?_bytes s

/-! ## Escapes -/

/-- Digits of the base 16 are what `hexValue?` reads. -/
theorem hexByte?_eq_none {high low : Char} (h : hexValue? high = none ∨ hexValue? low = none) :
    hexByte? high low = none := by
  unfold hexByte?
  rcases h with h | h
  · rw [h]
  · rw [h]
    cases hexValue? high <;> rfl

/-- A character that is no percent sign and no digit keeps its byte when escapes are resolved. -/
theorem mem_percentDecode {c : Char} (hc : c.toNat < 128) (hsign : c ≠ '%')
    (hdigit : hexValue? c = none) {cs : List Char} (h : c ∈ cs) :
    c.val.toUInt8 ∈ percentDecode cs := by
  fun_induction percentDecode cs with
  | case1 high low cs b hb ih =>
      have hhigh : c ≠ high := by
        rintro rfl
        rw [hexByte?_eq_none (.inl hdigit)] at hb
        cases hb
      have hlow : c ≠ low := by
        rintro rfl
        rw [hexByte?_eq_none (.inr hdigit)] at hb
        cases hb
      exact List.mem_cons_of_mem _ (ih (by simpa [hsign, hhigh, hlow] using h))
  | case2 high low cs hb ih =>
      exact List.mem_append_right _ (ih (by simpa [hsign] using h))
  | case3 d cs hd ih =>
      rcases List.mem_cons.mp h with rfl | h
      · exact List.mem_append_left _ ((mem_bytes_iff hc).mpr (by simp))
      · exact List.mem_append_right _ (ih h)
  | case4 => cases h

/-- A character that is no percent sign and no digit is still there when escapes are resolved. -/
theorem mem_of_percentDecoded? {c : Char} (hc : c.toNat < 128) (hsign : c ≠ '%')
    (hdigit : hexValue? c = none) {cs : List Char} (h : c ∈ cs) {s : String}
    (hs : percentDecoded? cs = some s) : c ∈ s.toList := by
  have hbyte := mem_percentDecode hc hsign hdigit h
  rw [eq_bytes_of_ofBytes? hs] at hbyte
  exact (mem_bytes_iff hc).mp hbyte

end ShardedSql.Text
