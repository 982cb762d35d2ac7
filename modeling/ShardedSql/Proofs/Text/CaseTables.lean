import ShardedSql.Text.Case

/-!
# The tables of case

What is read off the tables of case is checked once, for all of their runs: no character is both
mapped and an image, and blanks and semicolons are neither.  What single characters are lowered to
follows from it.

Main results:

- Theorem `lowerChar_of_mem`: what a character is lowered to is lowered to itself.
- Theorem `mem_lowerChar_iff_of_inRanges`: a character without case is the image of itself alone.
- Theorem `lowerChar_toLower`: a capital letter of ASCII is lowered like its small letter.
-/

namespace ShardedSql.Text

/-! ## Runs of characters -/

/-- A run maps a code point. -/
structure CaseRun.Maps (r : CaseRun) (n : Nat) : Prop where
  first_le : r.first ≤ n
  le_last : n ≤ r.last
  step : (n - r.first) % r.step = 0

theorem exists_run_of_mapRuns {runs : List CaseRun} {n image : Nat}
    (h : mapRuns runs n = some image) :
    ∃ r ∈ runs, r.Maps n ∧ image = r.target + (n - r.first) := by
  rcases Option.map_eq_some_iff.mp h with ⟨r, hr, rfl⟩
  have hmaps := List.find?_some hr
  simp only [Bool.and_eq_true, decide_eq_true_eq, beq_iff_eq] at hmaps
  exact ⟨r, List.mem_of_find?_eq_some hr, ⟨hmaps.1.1, hmaps.1.2, hmaps.2⟩, rfl⟩

/-! ## Sets of code points, as bits -/

/-- The number whose bits are set at so many places, a step apart. -/
def placesFrom (first step : Nat) : (count : Nat) → Nat
  | 0 => 0
  | count + 1 => Nat.pow 2 first ||| placesFrom (first + step) step count

theorem testBit_placesFrom {first step count k : Nat} (hk : k < count) :
    (placesFrom first step count).testBit (first + k * step) = true := by
  induction count generalizing first k with
  | zero => exact absurd hk (Nat.not_lt_zero k)
  | succ count ih =>
      rw [placesFrom, Nat.testBit_or, Bool.or_eq_true]
      cases k with
      | zero =>
          left
          rw [Nat.zero_mul, Nat.add_zero]
          exact Nat.testBit_two_pow_self
      | succ k =>
          right
          have hlater : (placesFrom (first + step) step count).testBit (first + step + k * step) =
              true := ih (Nat.lt_of_succ_lt_succ hk)
          rwa [Nat.add_assoc, Nat.add_comm step, ← Nat.succ_mul] at hlater

/-- The number with the bits of all items. -/
def placesOf {α : Type} (places : α → Nat) (items : List α) : Nat :=
  items.foldr (fun item all => places item ||| all) 0

theorem testBit_placesOf {α : Type} {places : α → Nat} {items : List α} {item : α} {n : Nat}
    (hitem : item ∈ items) (hn : (places item).testBit n = true) :
    (placesOf places items).testBit n = true := by
  induction items with
  | nil => cases hitem
  | cons first items ih =>
      rw [placesOf, List.foldr_cons, Nat.testBit_or, Bool.or_eq_true]
      rcases List.mem_cons.mp hitem with rfl | hitem
      · exact .inl hn
      · exact .inr (ih hitem)

/-- Sets without a common bit have no common place. -/
theorem not_testBit_of_and_eq_zero {a b n : Nat} (hapart : a &&& b = 0)
    (ha : a.testBit n = true) : b.testBit n ≠ true := by
  intro hb
  have hboth : (a &&& b).testBit n = true := by
    rw [Nat.testBit_and, ha, hb, Bool.and_self]
  rw [hapart, Nat.zero_testBit] at hboth
  cases hboth

/-- The code points of a closed range, as bits. -/
def rangePlaces (range : Nat × Nat) : Nat := placesFrom range.1 1 (range.2 - range.1 + 1)

theorem testBit_rangePlaces {range : Nat × Nat} {n : Nat} (hlow : range.1 ≤ n)
    (hhigh : n ≤ range.2) : (rangePlaces range).testBit n = true := by
  have hcount : n - range.1 < range.2 - range.1 + 1 := by omega
  have hplace : (rangePlaces range).testBit (range.1 + (n - range.1) * 1) = true :=
    testBit_placesFrom hcount
  rwa [Nat.mul_one, Nat.add_sub_of_le hlow] at hplace

namespace CaseRun

/-- The number of characters a run maps. -/
def count (r : CaseRun) : Nat := (r.last - r.first) / r.step + 1

/-- The characters a run maps, as bits. -/
def sources (r : CaseRun) : Nat := placesFrom r.first r.step r.count

/-- The images under a run, as bits. -/
def images (r : CaseRun) : Nat := placesFrom r.target r.step r.count

/-- The image of the last character of a run. -/
def targetLast (r : CaseRun) : Nat := r.target + (r.last - r.first)

/-- The images of a run are characters. -/
def hasImages (r : CaseRun) : Bool :=
  Nat.blt r.targetLast 0xD800 || (Nat.blt 0xDFFF r.target && Nat.blt r.targetLast 0x110000)

variable {r : CaseRun} {n : Nat}

/-- A character that is mapped is a number of steps after the first one. -/
theorem Maps.exists_steps (h : r.Maps n) : ∃ k < r.count, n - r.first = k * r.step := by
  refine ⟨(n - r.first) / r.step, Nat.lt_succ_of_le ?_, ?_⟩
  · exact Nat.div_le_div_right (Nat.sub_le_sub_right h.le_last _)
  · exact (Nat.div_mul_cancel (Nat.dvd_of_mod_eq_zero h.step)).symm

theorem Maps.testBit_sources (h : r.Maps n) : r.sources.testBit n = true := by
  rcases h.exists_steps with ⟨k, hk, hsteps⟩
  rw [← Nat.add_sub_of_le h.first_le, hsteps]
  exact testBit_placesFrom hk

theorem Maps.testBit_images (h : r.Maps n) :
    r.images.testBit (r.target + (n - r.first)) = true := by
  rcases h.exists_steps with ⟨k, hk, hsteps⟩
  rw [hsteps]
  exact testBit_placesFrom hk

theorem Maps.image_le (h : r.Maps n) : r.target + (n - r.first) ≤ r.targetLast :=
  Nat.add_le_add_left (Nat.sub_le_sub_right h.le_last _) _

theorem Maps.isValidChar (h : r.Maps n) (himages : r.hasImages = true) :
    (r.target + (n - r.first)).isValidChar := by
  have himage := h.image_le
  simp only [hasImages, Bool.or_eq_true, Bool.and_eq_true, Nat.blt_eq] at himages
  show _ ∨ _
  omega

end CaseRun

/-! ## The tables -/

/-- Ranges of characters without case: the blank ones and the semicolon. -/
def caselessRanges : List (Nat × Nat) :=
  [(9, 13), (0x20, 0x20), (0x3B, 0x3B), (0x85, 0x85), (0xA0, 0xA0), (0x1680, 0x1680),
    (0x2000, 0x200A), (0x2028, 0x2029), (0x202F, 0x202F), (0x205F, 0x205F), (0x3000, 0x3000)]

/-- Ranges beside the runs: those of characters without case, and the capital I with a dot, which is
mapped by itself. -/
def besideRanges : List (Nat × Nat) := (0x130, 0x130) :: caselessRanges

/-- What is read off the tables of case. -/
structure TablesFit : Prop where
  apart : placesOf CaseRun.sources lowerRuns &&& placesOf CaseRun.images lowerRuns = 0
  sourcesBeside : placesOf CaseRun.sources lowerRuns &&& placesOf rangePlaces besideRanges = 0
  imagesBeside : placesOf CaseRun.images lowerRuns &&& placesOf rangePlaces besideRanges = 0
  hasImages : lowerRuns.all CaseRun.hasImages = true
  dotted : lowerChar 'i' = ['i'] ∧ lowerChar '\u0307' = ['\u0307']
  sigma : lowerChar 'Σ' = ['σ']
  finalSigma : lowerChar 'ς' = ['ς']
  /-- No letter of ASCII is skipped when a cased neighbour is looked for. -/
  keepsLetters : (caseIgnorableRanges.all fun r =>
    Nat.blt r.2 0x41 || Nat.blt 0x7A r.1 || (Nat.blt 0x5A r.1 && Nat.blt r.2 0x61)) = true

theorem tablesFit : TablesFit := by
  -- As bits the sets are compared at once; comparing the runs in pairs would take seconds.
  have hchecked :
      placesOf CaseRun.sources lowerRuns &&& placesOf CaseRun.images lowerRuns = 0 ∧
      placesOf CaseRun.sources lowerRuns &&& placesOf rangePlaces besideRanges = 0 ∧
      placesOf CaseRun.images lowerRuns &&& placesOf rangePlaces besideRanges = 0 ∧
      lowerRuns.all CaseRun.hasImages = true ∧
      (lowerChar 'i' = ['i'] ∧ lowerChar '\u0307' = ['\u0307']) ∧ lowerChar 'Σ' = ['σ'] ∧
      lowerChar 'ς' = ['ς'] ∧
      (caseIgnorableRanges.all fun r => Nat.blt r.2 0x41 || Nat.blt 0x7A r.1 ||
        (Nat.blt 0x5A r.1 && Nat.blt r.2 0x61)) = true := by
    decide +kernel
  rcases hchecked with
    ⟨hapart, hsources, himages, hvalid, hdotted, hsigma, hfinal, hletters⟩
  exact ⟨hapart, hsources, himages, hvalid, hdotted, hsigma, hfinal, hletters⟩

section Runs

variable {r s : CaseRun} {range : Nat × Nat} {n m : Nat}

/-- No image of a character is mapped by a run. -/
theorem image_not_maps (hr : r ∈ lowerRuns) (hmaps : r.Maps n) (hs : s ∈ lowerRuns) :
    ¬ s.Maps (r.target + (n - r.first)) := fun hagain =>
  not_testBit_of_and_eq_zero tablesFit.apart (testBit_placesOf hs hagain.testBit_sources)
    (testBit_placesOf hr hmaps.testBit_images)

theorem not_maps_of_mem_range (hr : r ∈ lowerRuns) (hrange : range ∈ besideRanges)
    (hlow : range.1 ≤ n) (hhigh : n ≤ range.2) : ¬ r.Maps n := fun hmaps =>
  not_testBit_of_and_eq_zero tablesFit.sourcesBeside (testBit_placesOf hr hmaps.testBit_sources)
    (testBit_placesOf hrange (testBit_rangePlaces hlow hhigh))

theorem image_ne_of_mem_range (hr : r ∈ lowerRuns) (hmaps : r.Maps n)
    (hrange : range ∈ besideRanges) (hlow : range.1 ≤ m) (hhigh : m ≤ range.2) :
    r.target + (n - r.first) ≠ m := by
  rintro rfl
  exact not_testBit_of_and_eq_zero tablesFit.imagesBeside
    (testBit_placesOf hr hmaps.testBit_images)
    (testBit_placesOf hrange (testBit_rangePlaces hlow hhigh))

end Runs

/-! ## Characters -/

/-- A capital letter of ASCII. -/
def Capital (c : Char) : Prop := 0x41 ≤ c.toNat ∧ c.toNat ≤ 0x5A

/-- Only the capital letters of ASCII have a lower-case form within it. -/
theorem toLower_eq_or_capital (c : Char) : c.toLower = c ∨ Capital c := by
  by_cases hcapital : c.val ≥ 'A'.val ∧ c.val ≤ 'Z'.val
  · exact .inr ⟨UInt32.le_iff_toNat_le.mp hcapital.1, UInt32.le_iff_toNat_le.mp hcapital.2⟩
  · exact .inl (dif_neg hcapital)

namespace Capital

variable {c : Char}

theorem toNat_toLower (h : Capital c) : c.toLower.toNat = 0x61 + (c.toNat - 0x41) := by
  have hval : c.val ≥ 'A'.val ∧ c.val ≤ 'Z'.val :=
    ⟨UInt32.le_iff_toNat_le.mpr h.1, UInt32.le_iff_toNat_le.mpr h.2⟩
  have hlower : c.toLower.val = c.val + ('a'.val - 'A'.val) := congrArg Char.val (dif_pos hval)
  have hsum : (c.val + ('a'.val - 'A'.val)).toNat = (c.toNat + 0x20) % 4294967296 :=
    UInt32.toNat_add _ _
  rcases h with ⟨hlow, hhigh⟩
  show c.toLower.val.toNat = _
  rw [hlower, hsum]
  omega

/-- The capital letters of ASCII make up the first run. -/
theorem exists_maps (h : Capital c) : ∃ r ∈ lowerRuns, r.Maps c.toNat ∧
    c.toLower.toNat = r.target + (c.toNat - r.first) :=
  ⟨⟨0x41, 0x5A, 1, 0x61⟩, List.mem_cons_self, ⟨h.1, h.2, Nat.mod_one _⟩, h.toNat_toLower⟩

/-- The small letter has no lower-case form of its own. -/
theorem toLower_toLower (h : Capital c) : c.toLower.toLower = c.toLower := by
  rcases toLower_eq_or_capital c.toLower with hsmall | hagain
  · exact hsmall
  · have hlower := h.toNat_toLower
    have hhigh := hagain.2
    omega

end Capital

/-- How a character is lowered: as an ASCII character, as the capital I with a dot, by a run or not
at all. -/
theorem lowerChar_cases (c : Char) :
    lowerChar c = [c.toLower] ∨ (c = 'İ' ∧ lowerChar c = ['i', '\u0307']) ∨
      (∃ r ∈ lowerRuns, r.Maps c.toNat ∧
        lowerChar c = [Char.ofNat (r.target + (c.toNat - r.first))]) ∨
      lowerChar c = [c] := by
  unfold lowerChar mapChar
  by_cases hascii : c.toNat < 128
  · exact .inl (if_pos hascii)
  · rw [if_neg hascii]
    right
    by_cases hspecial : c = 'İ'
    · subst hspecial
      exact .inl ⟨rfl, rfl⟩
    · have hne : (c.toNat == 0x130) = false :=
        beq_eq_false_iff_ne.mpr fun heq => hspecial (Char.toNat_inj.mp heq)
      have hlookup : lowerSpecials.lookup c.toNat = none := by
        simp [lowerSpecials, List.lookup_cons, hne]
      rw [hlookup]
      right
      cases hmaps : mapRuns lowerRuns c.toNat with
      | none => exact .inr rfl
      | some image =>
          rcases exists_run_of_mapRuns hmaps with ⟨r, hr, hc, rfl⟩
          exact .inl ⟨r, hr, hc, rfl⟩

theorem lowerChar_ne_nil (c : Char) : lowerChar c ≠ [] := by
  rcases lowerChar_cases c with h | ⟨-, h⟩ | ⟨r, -, -, h⟩ | h <;> simp [h]

/-- A character that no run maps is lowered to itself. -/
theorem lowerChar_of_not_maps {c : Char} (hspecial : c ≠ 'İ')
    (hruns : ∀ r ∈ lowerRuns, ¬ r.Maps c.toNat) : lowerChar c = [c] := by
  rcases lowerChar_cases c with h | ⟨hdot, -⟩ | ⟨r, hr, hmaps, -⟩ | h
  · rcases toLower_eq_or_capital c with hsmall | hcapital
    · rw [h, hsmall]
    · rcases hcapital.exists_maps with ⟨r, hr, hmaps, -⟩
      exact absurd hmaps (hruns r hr)
  · exact absurd hdot hspecial
  · exact absurd hmaps (hruns r hr)
  · exact h

/-- The image of a character under a run is lowered to itself. -/
theorem lowerChar_of_image {c d : Char} {r : CaseRun} (hr : r ∈ lowerRuns) (hmaps : r.Maps c.toNat)
    (hd : d.toNat = r.target + (c.toNat - r.first)) : lowerChar d = [d] := by
  apply lowerChar_of_not_maps
  · rintro rfl
    exact image_ne_of_mem_range hr hmaps List.mem_cons_self (Nat.le_refl _) (Nat.le_refl _) hd.symm
  · intro s hs
    exact hd ▸ image_not_maps hr hmaps hs

theorem toNat_image {c : Char} {r : CaseRun} (hr : r ∈ lowerRuns) (hmaps : r.Maps c.toNat) :
    (Char.ofNat (r.target + (c.toNat - r.first))).toNat = r.target + (c.toNat - r.first) := by
  have hvalid := hmaps.isValidChar (List.all_eq_true.mp tablesFit.hasImages r hr)
  rw [Char.ofNat, dif_pos hvalid]
  rfl

/-- What a character is lowered to is lowered to itself. -/
theorem lowerChar_of_mem {c d : Char} (h : d ∈ lowerChar c) : lowerChar d = [d] := by
  rcases lowerChar_cases c with hc | ⟨-, hc⟩ | ⟨r, hr, hmaps, hc⟩ | hc <;> rw [hc] at h
  · rw [List.mem_singleton] at h
    rcases toLower_eq_or_capital c with hsmall | hcapital
    · rw [h, hsmall, hc, hsmall]
    · rcases hcapital.exists_maps with ⟨r, hr, hmaps, himage⟩
      exact lowerChar_of_image hr hmaps (h ▸ himage)
  · rw [List.mem_cons, List.mem_singleton] at h
    rcases h with rfl | rfl
    · exact tablesFit.dotted.1
    · exact tablesFit.dotted.2
  · rw [List.mem_singleton] at h
    exact lowerChar_of_image hr hmaps (h ▸ toNat_image hr hmaps)
  · rw [List.mem_singleton] at h
    rw [h, hc]

/-- A character without case is lowered to itself, and no other character is lowered to it. -/
theorem mem_lowerChar_iff_of_inRanges {c : Char} (h : inRanges caselessRanges c.toNat = true)
    (b : Char) : c ∈ lowerChar b ↔ b = c := by
  rcases List.any_eq_true.mp h with ⟨range, hrange, hin⟩
  simp only [Bool.and_eq_true, decide_eq_true_eq] at hin
  have hbeside : range ∈ besideRanges := List.mem_cons_of_mem _ hrange
  have hne : ∀ d, inRanges caselessRanges (Char.toNat d) = false → c ≠ d := by
    rintro d hd rfl
    exact Bool.noConfusion (h.symm.trans hd)
  constructor
  · intro hb
    rcases lowerChar_cases b with heq | ⟨-, heq⟩ | ⟨r, hr, hmaps, heq⟩ | heq <;> rw [heq] at hb
    · rw [List.mem_singleton] at hb
      rcases toLower_eq_or_capital b with hsmall | hcapital
      · rw [hb, hsmall]
      · rcases hcapital.exists_maps with ⟨r, hr, hmaps, himage⟩
        exact absurd (hb ▸ himage).symm (image_ne_of_mem_range hr hmaps hbeside hin.1 hin.2)
    · rw [List.mem_cons, List.mem_singleton] at hb
      rcases hb with hb | hb
      · exact absurd hb (hne 'i' (by decide))
      · exact absurd hb (hne '\u0307' (by decide))
    · rw [List.mem_singleton] at hb
      have himage := toNat_image hr hmaps
      rw [← hb] at himage
      exact absurd himage.symm (image_ne_of_mem_range hr hmaps hbeside hin.1 hin.2)
    · exact (List.mem_singleton.mp hb).symm
  · rintro rfl
    have hself : lowerChar b = [b] := lowerChar_of_not_maps (hne 'İ' (by decide)) fun r hr =>
      not_maps_of_mem_range hr hbeside hin.1 hin.2
    rw [hself]
    exact List.mem_singleton_self b

/-! ## Capital and small letters of ASCII -/

theorem isCaseIgnorable_letter {c : Char}
    (h : 0x41 ≤ c.toNat ∧ c.toNat ≤ 0x5A ∨ 0x61 ≤ c.toNat ∧ c.toNat ≤ 0x7A) :
    isCaseIgnorable c = false := by
  refine List.any_eq_false.mpr fun r hr hin => ?_
  have havoids := List.all_eq_true.mp tablesFit.keepsLetters r hr
  simp only [Bool.or_eq_true, Bool.and_eq_true, Nat.blt_eq] at havoids
  simp only [Bool.and_eq_true, decide_eq_true_eq] at hin
  omega

theorem isCaseIgnorable_toLower (c : Char) :
    isCaseIgnorable c.toLower = isCaseIgnorable c := by
  rcases toLower_eq_or_capital c with hsmall | hcapital
  · rw [hsmall]
  · have himage := hcapital.toNat_toLower
    have hhigh := hcapital.2
    rw [isCaseIgnorable_letter (.inl hcapital), isCaseIgnorable_letter (.inr (by omega))]

theorem isCased_letter {c : Char}
    (h : 0x41 ≤ c.toNat ∧ c.toNat ≤ 0x5A ∨ 0x61 ≤ c.toNat ∧ c.toNat ≤ 0x7A) : isCased c = true := by
  rcases h with hcapital | hsmall
  · exact List.any_eq_true.mpr ⟨(0x41, 0x5A), List.mem_cons_self, by simpa using hcapital⟩
  · exact List.any_eq_true.mpr
      ⟨(0x61, 0x7A), List.mem_cons_of_mem _ List.mem_cons_self, by simpa using hsmall⟩

theorem isCased_toLower (c : Char) : isCased c.toLower = isCased c := by
  rcases toLower_eq_or_capital c with hsmall | hcapital
  · rw [hsmall]
  · have himage := hcapital.toNat_toLower
    have hhigh := hcapital.2
    rw [isCased_letter (.inl hcapital), isCased_letter (.inr (by omega))]

theorem lowerChar_toLower (c : Char) : lowerChar c.toLower = lowerChar c := by
  rcases toLower_eq_or_capital c with hsmall | hcapital
  · rw [hsmall]
  · have himage := hcapital.toNat_toLower
    have hhigh := hcapital.2
    rw [lowerChar, lowerChar, mapChar, mapChar, if_pos (by omega), if_pos (by omega),
      hcapital.toLower_toLower]

theorem toLower_eq_sigma_iff (c : Char) : c.toLower = 'Σ' ↔ c = 'Σ' := by
  rcases toLower_eq_or_capital c with hsmall | hcapital
  · rw [hsmall]
  · have himage := hcapital.toNat_toLower
    have hhigh := hcapital.2
    have hsigma : 'Σ'.toNat = 0x3A3 := rfl
    refine iff_of_false (fun heq => ?_) (fun heq => ?_)
    · rw [heq] at himage
      omega
    · rw [heq] at hhigh
      omega

end ShardedSql.Text
