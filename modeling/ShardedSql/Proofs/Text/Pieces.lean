import ShardedSql.Text.Pieces

/-!
# Places of marks and pieces between separators

A text is cut at the first place where a mark stands, and split at every separator.

Main results:

- Theorem `breakOn_of_firstAt`: a text is cut at the first place of the mark.
- Theorem `FirstAt.append_iff`: what follows a mark has no influence on its first place.
- Theorem `Unbordered.breakOn_append`: a mark that does not overlap itself is found where it is put
  behind a text without it.
- Theorem `split_eq_iff`: the pieces of a text have no separator and make up the text.
-/

namespace ShardedSql.Text

/-! ## First places -/

/-- A mark stands at a place of a text and at no earlier one. -/
structure FirstAt (mark cs : List Char) (place : Nat) : Prop where
  occurs : mark <+: cs.drop place
  first : ∀ earlier < place, ¬ mark <+: cs.drop earlier

instance (mark cs : List Char) (place : Nat) : Decidable (FirstAt mark cs place) :=
  decidable_of_iff (mark <+: cs.drop place ∧ ∀ earlier < place, ¬ mark <+: cs.drop earlier)
    ⟨fun h => ⟨h.1, h.2⟩, fun h => ⟨h.occurs, h.first⟩⟩

variable {mark cs : List Char} {place : Nat}

@[simp]
theorem firstAt_zero : FirstAt mark cs 0 ↔ mark <+: cs :=
  ⟨fun h => h.occurs, fun h => ⟨h, fun _ hlt => absurd hlt (Nat.not_lt_zero _)⟩⟩

theorem firstAt_succ {c : Char} :
    FirstAt mark (c :: cs) (place + 1) ↔ ¬ mark <+: c :: cs ∧ FirstAt mark cs place := by
  constructor
  · intro h
    refine ⟨h.first 0 (Nat.succ_pos place), h.occurs, ?_⟩
    exact fun earlier hlt => h.first (earlier + 1) (Nat.succ_lt_succ hlt)
  · rintro ⟨hnow, hlater⟩
    refine ⟨hlater.occurs, fun earlier hlt => ?_⟩
    cases earlier with
    | zero => exact hnow
    | succ earlier => exact hlater.first earlier (Nat.lt_of_succ_lt_succ hlt)

theorem FirstAt.le_of_occurs (h : FirstAt mark cs place) {other : Nat}
    (hother : mark <+: cs.drop other) : place ≤ other :=
  Nat.le_of_not_lt fun hlt => h.first other hlt hother

theorem FirstAt.unique (h : FirstAt mark cs place) {other : Nat} (hother : FirstAt mark cs other) :
    place = other :=
  Nat.le_antisymm (h.le_of_occurs hother.occurs) (hother.le_of_occurs h.occurs)

theorem FirstAt.length_le (h : FirstAt mark cs place) : place + mark.length ≤ cs.length := by
  have hoccurs := h.occurs.length_le
  rw [List.length_drop] at hoccurs
  rcases Nat.lt_or_ge cs.length place with hbeyond | hwithin
  · -- Only the empty mark stands beyond the end, and it stands at the front as well.
    have hempty : mark = [] := List.eq_nil_of_length_eq_zero (by omega)
    exact absurd (hempty ▸ List.nil_prefix) (h.first 0 (by omega))
  · omega

theorem FirstAt.take_append (h : FirstAt mark cs place) :
    cs.take place ++ mark = cs.take (place + mark.length) := by
  rw [List.take_add, ← List.prefix_iff_eq_take.mp h.occurs]

theorem FirstAt.append_drop (h : FirstAt mark cs place) :
    mark ++ cs.drop (place + mark.length) = cs.drop place := by
  rw [← List.drop_drop, List.prefix_iff_eq_append.mp h.occurs]

/-- A text that has the mark has a first place of it. -/
theorem exists_firstAt (h : mark <:+: cs) : ∃ place, FirstAt mark cs place := by
  induction cs with
  | nil => exact ⟨0, firstAt_zero.mpr (List.eq_nil_of_infix_nil h ▸ List.nil_prefix)⟩
  | cons c cs ih =>
      by_cases hnow : mark <+: c :: cs
      · exact ⟨0, firstAt_zero.mpr hnow⟩
      · rcases ih ((List.infix_cons_iff.mp h).resolve_left hnow) with ⟨place, hplace⟩
        exact ⟨place + 1, firstAt_succ.mpr ⟨hnow, hplace⟩⟩

/-- A mark that is within some text stands where it stands when something follows. -/
theorem prefix_drop_append {ds : List Char} (h : place + mark.length ≤ cs.length) :
    mark <+: (cs ++ ds).drop place ↔ mark <+: cs.drop place := by
  rw [List.drop_append_of_le_length (by omega)]
  refine ⟨fun hstands => ?_, fun hstands => hstands.trans (List.prefix_append _ ds)⟩
  apply List.prefix_of_prefix_length_le hstands (List.prefix_append _ ds)
  rw [List.length_drop]
  omega

/-- What follows a mark has no influence on its first place. -/
theorem FirstAt.append_iff {ds : List Char} (h : place + mark.length ≤ cs.length) :
    FirstAt mark (cs ++ ds) place ↔ FirstAt mark cs place := by
  have hbefore : ∀ earlier < place,
      (mark <+: (cs ++ ds).drop earlier ↔ mark <+: cs.drop earlier) :=
    fun _ hlt => prefix_drop_append (by omega)
  constructor
  · intro hfirst
    refine ⟨(prefix_drop_append h).mp hfirst.occurs, fun earlier hlt hoccurs => ?_⟩
    exact hfirst.first earlier hlt ((hbefore earlier hlt).mpr hoccurs)
  · intro hfirst
    refine ⟨(prefix_drop_append h).mpr hfirst.occurs, fun earlier hlt hoccurs => ?_⟩
    exact hfirst.first earlier hlt ((hbefore earlier hlt).mp hoccurs)

/-! ## Cutting at a mark -/

/-- A text is cut at the first place of the mark. -/
theorem breakOn_of_firstAt (h : FirstAt mark cs place) :
    breakOn mark cs = some (cs.take place, cs.drop (place + mark.length)) := by
  induction cs generalizing place with
  | nil =>
      have hempty : mark = [] := List.eq_nil_of_length_eq_zero (by
        have hlength := h.length_le
        rw [List.length_nil] at hlength
        omega)
      subst hempty
      simp [breakOn]
  | cons c cs ih =>
      rw [breakOn]
      cases place with
      | zero =>
          rw [if_pos (List.isPrefixOf_iff_prefix.mpr (firstAt_zero.mp h)), Nat.zero_add]
          rfl
      | succ place =>
          rcases firstAt_succ.mp h with ⟨hnow, hlater⟩
          have hplace : place + 1 + mark.length = place + mark.length + 1 := by omega
          rw [if_neg fun hstands => hnow (List.isPrefixOf_iff_prefix.mp hstands), ih hlater,
            hplace]
          rfl

/-- A text without the mark is not cut. -/
theorem breakOn_of_absent (h : ¬ mark <:+: cs) : breakOn mark cs = none := by
  induction cs with
  | nil =>
      have hmark : mark.isEmpty = false :=
        List.isEmpty_eq_false_iff.mpr fun hempty => h (hempty ▸ List.nil_infix)
      simp [breakOn, hmark]
  | cons c cs ih =>
      rw [List.infix_cons_iff, not_or] at h
      rw [breakOn, if_neg fun hstands => h.1 (List.isPrefixOf_iff_prefix.mp hstands), ih h.2]
      rfl

/-- No end of the mark is its beginning too, so that two places of it do not overlap. -/
def Unbordered (mark : List Char) : Prop :=
  ∀ k < mark.length, 0 < k → ¬ mark.drop k <+: mark

instance (mark : List Char) : Decidable (Unbordered mark) :=
  inferInstanceAs (Decidable (∀ k < mark.length, 0 < k → ¬ mark.drop k <+: mark))

/-- Behind a text without the mark, a mark that does not overlap itself has its first place. -/
theorem Unbordered.firstAt (hmark : Unbordered mark) {before : List Char}
    (hbefore : ¬ mark <:+: before) (after : List Char) :
    FirstAt mark (before ++ mark ++ after) before.length := by
  rw [List.append_assoc]
  constructor
  · rw [List.drop_left]
    exact List.prefix_append mark after
  · intro earlier hlt hoccurs
    rw [List.drop_append_of_le_length (Nat.le_of_lt hlt)] at hoccurs
    have hlength : (before.drop earlier).length = before.length - earlier := List.length_drop
    rcases Nat.lt_or_ge (before.drop earlier).length mark.length with hoverlap | hwithin
    · -- The two places overlap: what is left of the earlier one is a beginning of the later one.
      rcases List.prefix_of_prefix_length_le (List.prefix_append _ _) hoccurs
        (Nat.le_of_lt hoverlap) with ⟨rest, rfl⟩
      rw [List.prefix_append_right_inj] at hoccurs
      apply hmark (before.drop earlier).length hoverlap (by omega)
      rw [List.drop_left]
      apply List.prefix_of_prefix_length_le hoccurs (List.prefix_append _ after)
      rw [List.length_append]
      omega
    · have hstands : mark <+: before.drop earlier :=
        List.prefix_of_prefix_length_le hoccurs (List.prefix_append _ _) hwithin
      exact hbefore (hstands.isInfix.trans (List.drop_suffix earlier before).isInfix)

/-- A mark that does not overlap itself is found behind a text without it. -/
theorem Unbordered.breakOn_append (hmark : Unbordered mark) {before : List Char}
    (hbefore : ¬ mark <:+: before) (after : List Char) :
    breakOn mark (before ++ mark ++ after) = some (before, after) := by
  rw [breakOn_of_firstAt (hmark.firstAt hbefore after)]
  simp

/-! ## Splitting at a separator -/

theorem splitChars_eq_splitOn (sep : Char) (cs : List Char) :
    splitChars sep cs = cs.splitOn sep := by
  induction cs with
  | nil => rfl
  | cons c cs ih =>
      rw [List.splitOn_cons_eq_if_modifyHead, splitChars, ih]
      cases hpieces : cs.splitOn sep with
      | nil => exact absurd hpieces (List.splitOn_ne_nil sep cs)
      | cons piece pieces => rfl

/-- No piece has the separator. -/
theorem not_mem_of_mem_splitOn {sep : Char} {cs : List Char} :
    ∀ piece ∈ cs.splitOn sep, sep ∉ piece := by
  induction cs with
  | nil => simp
  | cons c cs ih =>
      rw [List.splitOn_cons_eq_if_modifyHead]
      by_cases hc : c = sep
      · rw [if_pos (beq_iff_eq.mpr hc), List.forall_mem_cons]
        exact ⟨List.not_mem_nil, ih⟩
      · rw [if_neg (mt beq_iff_eq.mp hc)]
        cases hpieces : cs.splitOn sep with
        | nil => exact absurd hpieces (List.splitOn_ne_nil sep cs)
        | cons first pieces =>
            rw [hpieces, List.forall_mem_cons] at ih
            rw [List.modifyHead_cons, List.forall_mem_cons, List.mem_cons, not_or]
            exact ⟨⟨fun heq => hc heq.symm, ih.1⟩, ih.2⟩

/-- The pieces of a text have no separator and, joined by it, make up the text. -/
theorem split_eq_iff {sep : Char} {s : String} {pieces : List String} :
    split sep s = pieces ↔
      pieces ≠ [] ∧ (∀ piece ∈ pieces, sep ∉ piece.toList) ∧
        joined (String.singleton sep) pieces = s := by
  have hjoined : (joined (String.singleton sep) pieces).toList =
      [sep].intercalate (pieces.map String.toList) := by
    rw [joined, String.toList_intercalate, String.toList_singleton]
  rw [split, splitChars_eq_splitOn]
  constructor
  · rintro rfl
    refine ⟨by simp, ?_, ?_⟩
    · intro piece hpiece
      rcases List.mem_map.mp hpiece with ⟨cs, hcs, rfl⟩
      rw [String.toList_ofList]
      exact not_mem_of_mem_splitOn cs hcs
    · have hback : ((s.toList.splitOn sep).map String.ofList).map String.toList =
          s.toList.splitOn sep := by simp
      rw [← String.toList_inj, hjoined, hback, List.intercalate_splitOn]
  · rintro ⟨hne, hfree, rfl⟩
    rw [hjoined, List.splitOn_intercalate]
    · simp
    · simpa using hfree
    · simpa using hne

end ShardedSql.Text
