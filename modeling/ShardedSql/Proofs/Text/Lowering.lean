import ShardedSql.Proofs.Route.Units
import ShardedSql.Proofs.Text.CaseTables
import ShardedSql.Text.Blank

/-!
# Lowered texts

Lowering a text leaves nothing to lower: no image of a character has a lower-case form of its own.
Names that are alike are lowered to the same name, and the blanks of a text, having no case, stay
where they are.

Main results:

- Theorem `lower_lower`: lowering a text twice is lowering it once.
- Theorem `lower_eq_of_alike`: names that differ in the case of ASCII letters are lowered alike.
- Theorem `Caseless.count_lowerFrom`: a character without case is in the lowered text as often as in
  the text.
-/

namespace ShardedSql.Text

/-! ## Characters in their places -/

/-- What a character of a text is lowered to: a capital sigma at the end of a word becomes the final
sigma, and nothing else depends on the place. -/
def imageAt (before : List Char) (c : Char) (after : List Char) : List Char :=
  if c == 'Σ' then if startsCased before && !startsCased after then ['ς'] else ['σ']
  else lowerChar c

variable {before after cs : List Char} {b c d : Char}

theorem imageAt_cases (before : List Char) (c : Char) (after : List Char) :
    imageAt before c after = lowerChar c ∨ (c = 'Σ' ∧ imageAt before c after = ['ς']) := by
  unfold imageAt
  split
  · rename_i hc
    rw [beq_iff_eq] at hc
    subst hc
    split
    · exact .inr ⟨rfl, rfl⟩
    · exact .inl tablesFit.sigma.symm
  · exact .inl rfl

theorem imageAt_ne_nil (before : List Char) (c : Char) (after : List Char) :
    imageAt before c after ≠ [] := by
  rcases imageAt_cases before c after with h | ⟨-, h⟩ <;> rw [h]
  · exact lowerChar_ne_nil c
  · exact List.cons_ne_nil _ _

theorem lowerChar_of_mem_imageAt (h : d ∈ imageAt before c after) : lowerChar d = [d] := by
  rcases imageAt_cases before c after with heq | ⟨-, heq⟩ <;> rw [heq] at h
  · exact lowerChar_of_mem h
  · rw [List.mem_singleton.mp h]
    exact tablesFit.finalSigma

/-- A character that is lowered to itself is so in every place. -/
theorem imageAt_eq_self (h : lowerChar c = [c]) (before after : List Char) :
    imageAt before c after = [c] := by
  rcases imageAt_cases before c after with heq | ⟨rfl, -⟩
  · rw [heq, h]
  · rw [tablesFit.sigma] at h
    exact absurd h (by decide)

/-! ## Characters without case -/

/-- A character without case is the image of itself alone. -/
def Caseless (c : Char) : Prop := ∀ before b after, c ∈ imageAt before b after ↔ b = c

theorem Caseless.imageAt_eq (h : Caseless c) (before after : List Char) :
    imageAt before c after = [c] :=
  imageAt_eq_self (lowerChar_of_mem_imageAt ((h before c after).mpr rfl)) before after

theorem caseless_of_inRanges (h : inRanges caselessRanges c.toNat = true) : Caseless c := by
  have honly := mem_lowerChar_iff_of_inRanges h
  have hfinal : c ≠ 'ς' := by
    rintro rfl
    exact absurd h (by decide)
  intro before b after
  constructor
  · intro hb
    rcases imageAt_cases before b after with heq | ⟨-, heq⟩ <;> rw [heq] at hb
    · exact (honly b).mp hb
    · exact absurd (List.mem_singleton.mp hb) hfinal
  · rintro rfl
    rw [imageAt_eq_self (lowerChar_of_mem ((honly b).mpr rfl))]
    exact List.mem_singleton_self b

theorem caseless_of_isBlank (h : isBlank c = true) : Caseless c := by
  apply caseless_of_inRanges
  simp only [isBlank, Bool.or_eq_true, Bool.and_eq_true, decide_eq_true_eq, beq_iff_eq] at h
  simp only [inRanges, caselessRanges, List.any_cons, List.any_nil, Bool.or_eq_true,
    Bool.and_eq_true, decide_eq_true_eq]
  omega

theorem caseless_semicolon : Caseless ';' := caseless_of_inRanges (by decide)

/-- A character that is not blank has no blank image. -/
theorem isBlank_of_mem_imageAt (hc : isBlank c = false) (hd : d ∈ imageAt before c after) :
    isBlank d = false := by
  rw [← Bool.not_eq_true]
  intro hblank
  rw [(caseless_of_isBlank hblank before c after).mp hd, hblank] at hc
  cases hc

/-! ## Texts -/

theorem startsCased_map_toLower (cs : List Char) :
    startsCased (cs.map Char.toLower) = startsCased cs := by
  have hignorable : isCaseIgnorable ∘ Char.toLower = isCaseIgnorable :=
    funext isCaseIgnorable_toLower
  unfold startsCased
  rw [List.dropWhile_map, hignorable]
  cases cs.dropWhile isCaseIgnorable with
  | nil => rfl
  | cons c cs => exact isCased_toLower c

theorem lowerFrom_cons (before : List Char) (c : Char) (cs : List Char) :
    lowerFrom before (c :: cs) = imageAt before c cs ++ lowerFrom (c :: before) cs :=
  rfl

theorem lowerChar_of_mem_lowerFrom (h : d ∈ lowerFrom before cs) : lowerChar d = [d] := by
  induction cs generalizing before with
  | nil => cases h
  | cons c cs ih =>
      rw [lowerFrom_cons, List.mem_append] at h
      rcases h with himage | hrest
      · exact lowerChar_of_mem_imageAt himage
      · exact ih hrest

theorem lowerFrom_eq_self (before : List Char) (h : ∀ c ∈ cs, lowerChar c = [c]) :
    lowerFrom before cs = cs := by
  induction cs generalizing before with
  | nil => rfl
  | cons c cs ih =>
      rw [List.forall_mem_cons] at h
      rw [lowerFrom_cons, imageAt_eq_self h.1, ih _ h.2]
      rfl

@[simp]
theorem toList_lower (s : String) : (lower s).toList = lowerFrom [] s.toList :=
  String.toList_ofList

/-- Lowering a lowered text changes nothing. -/
theorem lower_lower (s : String) : lower (lower s) = lower s := by
  rw [← String.toList_inj, toList_lower, toList_lower]
  exact lowerFrom_eq_self _ fun _ => lowerChar_of_mem_lowerFrom

theorem imageAt_toLower (before : List Char) (c : Char) (after : List Char) :
    imageAt (before.map Char.toLower) c.toLower (after.map Char.toLower) =
      imageAt before c after := by
  have hsigma : (c.toLower == 'Σ') = (c == 'Σ') := by
    rw [Bool.eq_iff_iff, beq_iff_eq, beq_iff_eq, toLower_eq_sigma_iff]
  unfold imageAt
  rw [startsCased_map_toLower, startsCased_map_toLower, lowerChar_toLower, hsigma]

theorem lowerFrom_map_toLower (before cs : List Char) :
    lowerFrom (before.map Char.toLower) (cs.map Char.toLower) = lowerFrom before cs := by
  induction cs generalizing before with
  | nil => rfl
  | cons c cs ih =>
      rw [List.map_cons, lowerFrom_cons, lowerFrom_cons, imageAt_toLower, ← List.map_cons, ih]

/-- Names that differ in the case of ASCII letters are lowered to the same name. -/
theorem lower_eq_of_alike {s t : String} (h : alike s t = true) : lower s = lower t := by
  rw [← String.toList_inj, toList_lower, toList_lower, ← lowerFrom_map_toLower [] s.toList,
    alike_iff.mp h, lowerFrom_map_toLower]

/-- A character without case is where it was. -/
theorem Caseless.count_lowerFrom (h : Caseless c) (before cs : List Char) :
    (lowerFrom before cs).count c = cs.count c := by
  induction cs generalizing before with
  | nil => rfl
  | cons b cs ih =>
      rw [lowerFrom_cons, List.count_append, ih]
      by_cases hb : b = c
      · rw [hb, h.imageAt_eq, List.count_singleton_self, List.count_cons_self, Nat.add_comm]
      · rw [List.count_eq_zero.mpr (mt (h before b cs).mp hb), Nat.zero_add,
          List.count_cons_of_ne hb]

/-- What a part of a text is lowered to ends what the text is lowered to. -/
theorem exists_lowerFrom_append (before as bs : List Char) :
    ∃ images, lowerFrom before (as ++ bs) = images ++ lowerFrom (as.reverse ++ before) bs := by
  induction as generalizing before with
  | nil => exact ⟨[], rfl⟩
  | cons a as ih =>
      rcases ih (a :: before) with ⟨images, himages⟩
      refine ⟨imageAt before a (as ++ bs) ++ images, ?_⟩
      rw [List.cons_append, lowerFrom_cons, himages, List.append_assoc, List.reverse_cons,
        List.append_assoc, List.singleton_append]

/-- A lowered text ends in a character without case if the text does. -/
theorem Caseless.getLast?_lowerFrom (h : Caseless c) (before cs : List Char) :
    (lowerFrom before cs).getLast? = some c ↔ cs.getLast? = some c := by
  rcases List.eq_nil_or_concat cs with rfl | ⟨as, b, rfl⟩
  · rfl
  · rw [List.concat_eq_append]
    rcases exists_lowerFrom_append before as [b] with ⟨images, himages⟩
    rw [himages, lowerFrom_cons, lowerFrom, List.append_nil,
      List.getLast?_append, Option.or_of_isSome (List.getLast?_isSome.mpr (imageAt_ne_nil _ _ _)),
      List.getLast?_concat, Option.some_inj]
    constructor
    · intro hlast
      exact (h _ b []).mp (List.mem_of_getLast? hlast)
    · rintro rfl
      rw [h.imageAt_eq]
      rfl

end ShardedSql.Text
