import ShardedSql.Algorithm.Mask
import ShardedSql.Proofs.Text.Pieces

/-!
# Masked texts

A mask puts the replacement in place of every character on its side of the first marker, and keeps
the others.  Of the hidden characters only their number can be told from a masked text.  Masking a
masked text changes nothing: the replacements may form a marker that comes before the old one, but
then everything in front of it is hidden already.

Main results:

- Theorems `Mask.getElem?_applyChars` and `Mask.getElem?_applyChars_of_shown`: which characters are
  replaced and which are kept.
- Theorem `Mask.applyText_eq_iff_length`: what can be told from a masked text.
- Theorem `Mask.hides_of_hides_applyChars`: a masked text hides no further characters.
- Theorem `Mask.applyText_once`: masking once is enough.
-/

namespace ShardedSql.Mask

open Text (FirstAt)

variable {m : Mask} {cs : List Char} {place : Nat}

/-! ## What is hidden -/

/-- A mask hides a place of a text: it is behind the first marker, or in front of it. -/
inductive Hides (m : Mask) (cs : List Char) (i : Nat) : Prop
  | behind {place : Nat} (hside : m.side = .after) (hfirst : FirstAt m.marker.toList cs place)
      (hplace : place + m.marker.length ≤ i)
  | inFront {place : Nat} (hside : m.side = .before) (hfirst : FirstAt m.marker.toList cs place)
      (hplace : i < place)

/-- Every character is replaced by the same one. -/
theorem hide_eq_replicate (m : Mask) (cs : List Char) :
    m.hide cs = List.replicate cs.length m.replacement :=
  List.map_const'

@[simp]
theorem length_hide (m : Mask) (cs : List Char) : (m.hide cs).length = cs.length :=
  List.length_map _

/-- Each hidden character is the replacement. -/
theorem getElem?_hide {i : Nat} (hi : i < cs.length) : (m.hide cs)[i]? = some m.replacement := by
  rw [hide_eq_replicate]
  exact List.getElem?_replicate_of_lt hi

/-- What is behind the first marker is hidden, and the text is kept up to there. -/
theorem applyChars_after (hside : m.side = .after) (hfirst : FirstAt m.marker.toList cs place) :
    m.applyChars cs = cs.take (place + m.marker.length) ++
      m.hide (cs.drop (place + m.marker.length)) := by
  rw [applyChars, Text.breakOn_of_firstAt hfirst, ← String.length_toList, ← hfirst.take_append]
  simp only [hside]

/-- What is in front of the first marker is hidden, and the text is kept from there on. -/
theorem applyChars_before (hside : m.side = .before) (hfirst : FirstAt m.marker.toList cs place) :
    m.applyChars cs = m.hide (cs.take place) ++ cs.drop place := by
  rw [applyChars, Text.breakOn_of_firstAt hfirst, ← hfirst.append_drop]
  simp only [hside, List.append_assoc]

/-- A text has a first marker, or it is kept. -/
theorem applyChars_cases (m : Mask) (cs : List Char) :
    (∃ place, FirstAt m.marker.toList cs place) ∨ m.applyChars cs = cs := by
  by_cases hmarker : m.marker.toList <:+: cs
  · exact .inl (Text.exists_firstAt hmarker)
  · refine .inr ?_
    rw [applyChars, Text.breakOn_of_absent hmarker]

/-- A masked text has as many characters as the text. -/
@[simp]
theorem length_applyChars (m : Mask) (cs : List Char) :
    (m.applyChars cs).length = cs.length := by
  rcases m.applyChars_cases cs with ⟨place, hfirst⟩ | hkept
  · cases hside : m.side with
    | after =>
        rw [applyChars_after hside hfirst, List.length_append, length_hide,
          ← List.length_append, List.take_append_drop]
    | before =>
        rw [applyChars_before hside hfirst, List.length_append, length_hide,
          ← List.length_append, List.take_append_drop]
  · rw [hkept]

/-! ## Places that are hidden -/

/-- Behind the marker everything is hidden, the marker not. -/
theorem hides_iff_after (hside : m.side = .after) (hfirst : FirstAt m.marker.toList cs place)
    {i : Nat} : m.Hides cs i ↔ place + m.marker.length ≤ i := by
  constructor
  · rintro (⟨-, hother, hplace⟩ | ⟨hother, -, -⟩)
    · exact hfirst.unique hother ▸ hplace
    · cases hside.symm.trans hother
  · exact .behind hside hfirst

/-- In front of the marker everything is hidden. -/
theorem hides_iff_before (hside : m.side = .before) (hfirst : FirstAt m.marker.toList cs place)
    {i : Nat} : m.Hides cs i ↔ i < place := by
  constructor
  · rintro (⟨hother, -, -⟩ | ⟨-, hother, hplace⟩)
    · cases hside.symm.trans hother
    · exact hfirst.unique hother ▸ hplace
  · exact .inFront hside hfirst

/-- The marker lies within the text. -/
theorem end_le_length (hfirst : FirstAt m.marker.toList cs place) :
    place + m.marker.length ≤ cs.length :=
  String.length_toList ▸ hfirst.length_le

theorem length_hide_take (hfirst : FirstAt m.marker.toList cs place) :
    (m.hide (cs.take place)).length = place := by
  have hlength := end_le_length hfirst
  rw [length_hide, List.length_take_of_le (by omega)]

/-- A hidden character is replaced. -/
theorem getElem?_applyChars {i : Nat} (h : m.Hides cs i) (hi : i < cs.length) :
    (m.applyChars cs)[i]? = some m.replacement := by
  cases h with
  | @behind place hside hfirst hplace =>
      rw [applyChars_after hside hfirst,
        List.getElem?_append_right (by rw [List.length_take]; omega)]
      apply getElem?_hide
      rw [List.length_take, List.length_drop]
      omega
  | @inFront place hside hfirst hplace =>
      have hlength := length_hide_take hfirst
      rw [applyChars_before hside hfirst, List.getElem?_append_left (hlength.symm ▸ hplace)]
      apply getElem?_hide
      rw [List.length_take]
      omega

/-- A character that is not hidden is kept. -/
theorem getElem?_applyChars_of_shown {i : Nat} (h : ¬ m.Hides cs i) :
    (m.applyChars cs)[i]? = cs[i]? := by
  rcases m.applyChars_cases cs with ⟨place, hfirst⟩ | hkept
  · cases hside : m.side with
    | after =>
        have hend := end_le_length hfirst
        rw [hides_iff_after hside hfirst, Nat.not_le] at h
        rw [applyChars_after hside hfirst,
          List.getElem?_append_left (by rw [List.length_take]; omega),
          List.getElem?_take_of_lt h]
    | before =>
        have hlength := length_hide_take hfirst
        rw [hides_iff_before hside hfirst, Nat.not_lt] at h
        rw [applyChars_before hside hfirst, List.getElem?_append_right (hlength.symm ▸ h),
          hlength, List.getElem?_drop, Nat.add_sub_cancel' h]
  · rw [hkept]

/-! ## What a masked text tells -/

/-- Masking a text is masking its characters. -/
@[simp]
theorem toList_applyText (m : Mask) (s : String) :
    (m.applyText s).toList = m.applyChars s.toList :=
  String.toList_ofList

/-- Only the number of characters behind the first marker is left of them. -/
theorem applyText_append_hidden (hside : m.side = .after) {shown : String}
    (hfirst : FirstAt m.marker.toList shown.toList place)
    (hend : place + m.marker.length = shown.length) (hidden : String) :
    (m.applyText (shown ++ hidden)).toList =
      shown.toList ++ List.replicate hidden.length m.replacement := by
  have hshown : place + m.marker.length = shown.toList.length := by rw [hend, String.length_toList]
  have hwhole : FirstAt m.marker.toList (shown.toList ++ hidden.toList) place :=
    (Text.FirstAt.append_iff (by rw [String.length_toList]; exact Nat.le_of_eq hshown)).mpr hfirst
  rw [toList_applyText, String.toList_append, applyChars_after hside hwhole, hshown,
    List.take_left, List.drop_left, hide_eq_replicate, String.length_toList]

/-- Only the number of characters in front of the first marker is left of them. -/
theorem applyText_hidden_append (hside : m.side = .before) {hidden shown : String}
    (hfirst : FirstAt m.marker.toList (hidden ++ shown).toList hidden.length) :
    (m.applyText (hidden ++ shown)).toList =
      List.replicate hidden.length m.replacement ++ shown.toList := by
  rw [toList_applyText, applyChars_before hside hfirst, String.toList_append,
    ← String.length_toList, List.take_left, List.drop_left, hide_eq_replicate]

/-- Masked texts that show the same are the same if as many characters are hidden in them, whatever
these are. -/
theorem applyText_eq_iff_length (m : Mask) :
    (m.side = .after → ∀ (shown : String) (place : Nat),
      FirstAt m.marker.toList shown.toList place → place + m.marker.length = shown.length →
      ∀ s t : String,
        m.applyText (shown ++ s) = m.applyText (shown ++ t) ↔ s.length = t.length) ∧
    (m.side = .before → ∀ shown s t : String,
      FirstAt m.marker.toList (s ++ shown).toList s.length →
      FirstAt m.marker.toList (t ++ shown).toList t.length →
      (m.applyText (s ++ shown) = m.applyText (t ++ shown) ↔ s.length = t.length)) := by
  have hreplicate : ∀ j k : Nat,
      List.replicate j m.replacement = List.replicate k m.replacement ↔ j = k := by
    simp [List.replicate_inj]
  constructor
  · intro hside shown place hfirst hend s t
    rw [← String.toList_inj, applyText_append_hidden hside hfirst hend,
      applyText_append_hidden hside hfirst hend, List.append_cancel_left_eq, hreplicate]
  · intro hside shown s t hs ht
    rw [← String.toList_inj, applyText_hidden_append hside hs, applyText_hidden_append hside ht,
      List.append_cancel_right_eq, hreplicate]

/-- A mask whose marker can overlap itself. -/
def doubleSpec (type : String) : AlgorithmSpec :=
  { type, properties := [("special-chars", "aa"), ("replace-char", "*")] }

/-- What follows or comes before the marker could be taken for a part of it, and still is hidden. -/
theorem applyText_eq_iff_length_doubled :
    setUp "mask" (doubleSpec "MASK_AFTER_SPECIAL_CHARS") = .ok ⟨.after, "aa", '*'⟩ ∧
    FirstAt "aa".toList "xaa".toList 1 ∧
    applyText ⟨.after, "aa", '*'⟩ ("xaa" ++ "a1") = applyText ⟨.after, "aa", '*'⟩ ("xaa" ++ "éß") ∧
    setUp "mask" (doubleSpec "mask_before_special_chars") = .ok ⟨.before, "aa", '*'⟩ ∧
    FirstAt "aa".toList ("ax" ++ "aaa").toList 2 ∧ FirstAt "aa".toList ("éß" ++ "aaa").toList 2 ∧
    applyText ⟨.before, "aa", '*'⟩ ("ax" ++ "aaa") =
      applyText ⟨.before, "aa", '*'⟩ ("éß" ++ "aaa") := by
  have hafter : FirstAt "aa".toList "xaa".toList 1 := by decide +kernel
  have hleft : FirstAt "aa".toList ("ax" ++ "aaa").toList 2 := by decide +kernel
  have hright : FirstAt "aa".toList ("éß" ++ "aaa").toList 2 := by decide +kernel
  refine ⟨rfl, hafter, ?_, rfl, hleft, hright, ?_⟩
  · exact ((applyText_eq_iff_length _).1 rfl "xaa" 1 hafter rfl "a1" "éß").mpr rfl
  · exact ((applyText_eq_iff_length _).2 rfl "aaa" "ax" "éß" hleft hright).mpr rfl

/-! ## Masking a masked text -/

/-- A masked text has no marker in front of the first one of the text if that part is shown. -/
theorem le_of_firstAt_applyChars (hside : m.side = .after)
    (hfirst : FirstAt m.marker.toList cs place) {other : Nat}
    (hother : FirstAt m.marker.toList (m.applyChars cs) other) : place ≤ other := by
  apply Nat.le_of_not_lt
  intro hlt
  have hroom : other + m.marker.toList.length ≤ (cs.take (place + m.marker.length)).length := by
    have hend := end_le_length hfirst
    rw [List.length_take_of_le hend, String.length_toList]
    omega
  have hkept : m.marker.toList <+: (cs.take (place + m.marker.length)).drop other := by
    have hoccurs := hother.occurs
    rwa [applyChars_after hside hfirst, Text.prefix_drop_append hroom] at hoccurs
  have hearlier : m.marker.toList <+:
      (cs.take (place + m.marker.length) ++ cs.drop (place + m.marker.length)).drop other :=
    (Text.prefix_drop_append hroom).mpr hkept
  rw [List.take_append_drop] at hearlier
  exact hfirst.first other hlt hearlier

/-- A masked text still has the first marker of the text if that part is shown, so that no other
one is behind it. -/
theorem firstAt_applyChars_le (hside : m.side = .before)
    (hfirst : FirstAt m.marker.toList cs place) {other : Nat}
    (hother : FirstAt m.marker.toList (m.applyChars cs) other) : other ≤ place := by
  apply hother.le_of_occurs
  rw [applyChars_before hside hfirst, List.drop_left' (length_hide_take hfirst)]
  exact hfirst.occurs

/-- A masked text hides no character that the text does not hide. -/
theorem hides_of_hides_applyChars {i : Nat} (h : m.Hides (m.applyChars cs) i) : m.Hides cs i := by
  rcases m.applyChars_cases cs with ⟨place, hfirst⟩ | hkept
  · cases h with
    | behind hside hother hplace =>
        have hle := le_of_firstAt_applyChars hside hfirst hother
        exact .behind hside hfirst (by omega)
    | inFront hside hother hplace =>
        have hle := firstAt_applyChars_le hside hfirst hother
        exact .inFront hside hfirst (by omega)
  · exact hkept ▸ h

/-- A text is kept exactly when all that is hidden of it is the replacement. -/
theorem applyChars_eq_self_iff :
    m.applyChars cs = cs ↔ ∀ i c, cs[i]? = some c → m.Hides cs i → c = m.replacement := by
  constructor
  · intro hkept i c hc hhides
    have hreplaced := getElem?_applyChars hhides (List.getElem?_eq_some_iff.mp hc).1
    rw [hkept, hc] at hreplaced
    exact Option.some.inj hreplaced
  · intro h
    apply List.ext_getElem?
    intro i
    by_cases hhides : m.Hides cs i
    · rcases Nat.lt_or_ge i cs.length with hi | hi
      · rw [getElem?_applyChars hhides hi, List.getElem?_eq_getElem hi,
          h i _ (List.getElem?_eq_getElem hi) hhides]
      · rw [List.getElem?_eq_none hi, List.getElem?_eq_none (m.length_applyChars cs ▸ hi)]
    · exact getElem?_applyChars_of_shown hhides

/-- All that is hidden of a masked text is the replacement. -/
theorem applyChars_applyChars (m : Mask) (cs : List Char) :
    m.applyChars (m.applyChars cs) = m.applyChars cs := by
  refine applyChars_eq_self_iff.mpr fun i c hc hhides => ?_
  have hi : i < cs.length := m.length_applyChars cs ▸ (List.getElem?_eq_some_iff.mp hc).1
  have hreplaced := getElem?_applyChars (hides_of_hides_applyChars hhides) hi
  exact Option.some.inj (hc.symm.trans hreplaced)

/-- A masked text is as long as the text, and masking it again keeps it.  The texts that are kept
are those whose hidden characters are all the replacement. -/
theorem applyText_once (m : Mask) (s : String) :
    (m.applyText s).length = s.length ∧
    m.applyText (m.applyText s) = m.applyText s ∧
    (m.applyText s = s ↔
      ∀ i c, s.toList[i]? = some c → m.Hides s.toList i → c = m.replacement) := by
  refine ⟨?_, ?_, ?_⟩
  · rw [← String.length_toList, toList_applyText, length_applyChars, String.length_toList]
  · rw [← String.toList_inj, toList_applyText, toList_applyText, applyChars_applyChars]
  · rw [← String.toList_inj, toList_applyText, applyChars_eq_self_iff]

/-- The replacements form a marker in front of the old one, and nothing is in front of it. -/
example : applyText ⟨.before, "**", '*'⟩ "ab**c" = "****c" ∧
    FirstAt "**".toList "****c".toList 0 := by
  decide +kernel

end ShardedSql.Mask
