import ShardedSql.Proofs.Text.Lowering

/-!
# Words of a text

A text is spaced anew when its words are joined by single spaces.  Nothing but blanks is lost on the
way, and blanks at either end make no difference.  A text that has single spaces already is not
changed, and lowering it keeps it so.

Main results:

- Theorem `joinWords_wordsFrom`: a text with single spaces is not changed.
- Theorems `filter_spaced` and `getLast?_spaced`: the characters that are not blank are kept.
- Theorem `spaced_lowerFrom_spaced`: a lowered text has single spaces if the text does.
-/

namespace ShardedSql.Text

variable {before bs cs word : List Char} {c : Char}

/-! ## Words -/

theorem wordsFrom_cons_of_blank (hc : isBlank c = true) :
    wordsFrom (c :: cs) word =
      if word = [] then wordsFrom cs [] else word.reverse :: wordsFrom cs [] := by
  rw [wordsFrom, if_pos hc]
  simp only [List.isEmpty_iff]

theorem wordsFrom_cons_of_not_blank (hc : isBlank c = false) :
    wordsFrom (c :: cs) word = wordsFrom cs (c :: word) := by
  rw [wordsFrom, if_neg (Bool.eq_false_iff.mp hc)]

/-- Blanks in front of the first word make no difference. -/
theorem wordsFrom_blanks_append (hbs : ∀ b ∈ bs, isBlank b = true) :
    wordsFrom (bs ++ cs) [] = wordsFrom cs [] := by
  induction bs with
  | nil => rfl
  | cons b bs ih =>
      rw [List.forall_mem_cons] at hbs
      rw [List.cons_append, wordsFrom_cons_of_blank hbs.1, if_pos rfl, ih hbs.2]

/-- A blank behind the last word makes no difference. -/
theorem wordsFrom_concat_blank (hc : isBlank c = true) (cs word : List Char) :
    wordsFrom (cs ++ [c]) word = wordsFrom cs word := by
  induction cs generalizing word with
  | nil =>
      rw [List.nil_append, wordsFrom_cons_of_blank hc, wordsFrom, wordsFrom]
      simp
  | cons d cs ih => rw [List.cons_append, wordsFrom, wordsFrom, ih, ih]

/-! ## Words joined by single spaces -/

/-- Words joined by single spaces. -/
def joinWords (words : List (List Char)) : List Char := [' '].intercalate words

theorem joinWords_cons (first : List Char) (later : List (List Char)) :
    joinWords (first :: later) =
      first ++ if later = [] then [] else ' ' :: joinWords later := by
  cases later with
  | nil => simp [joinWords]
  | cons second later =>
      rw [joinWords, List.intercalate_cons_cons, if_neg (List.cons_ne_nil _ _), List.append_assoc]
      rfl

/-- Of the characters that are not blank none is lost. -/
theorem filter_joinWords_wordsFrom (cs word : List Char) :
    (joinWords (wordsFrom cs word)).filter (!isBlank ·) =
      (word.reverse ++ cs).filter (!isBlank ·) := by
  induction cs generalizing word with
  | nil =>
      rw [wordsFrom]
      split <;> simp_all [joinWords]
  | cons c cs ih =>
      cases hc : isBlank c with
      | false =>
          rw [wordsFrom_cons_of_not_blank hc, ih, List.reverse_cons, List.append_assoc,
            List.singleton_append]
      | true =>
          have hdrop : (c :: cs).filter (!isBlank ·) = cs.filter (!isBlank ·) := by simp [hc]
          have hrest : (joinWords (wordsFrom cs [])).filter (!isBlank ·) =
              cs.filter (!isBlank ·) := ih []
          rw [wordsFrom_cons_of_blank hc, List.filter_append, hdrop]
          split
          · rename_i hword
            rw [hrest, hword]
            rfl
          · rw [joinWords_cons, List.filter_append, ← hrest]
            congr 1
            split
            · rename_i hnone
              rw [hnone]
              rfl
            · have hspace : isBlank ' ' = true := by decide
              simp [hspace]

/-! ## Texts with single spaces -/

/-- A text goes on with a word. -/
def GoesOn (cs : List Char) : Prop := ∃ c ∈ cs.head?, isBlank c = false

/-- A text that comes after a word has single spaces: each blank is a space with a word behind
it. -/
def HasSingleSpaces : List Char → Prop
  | [] => True
  | c :: cs => HasSingleSpaces cs ∧ (isBlank c = true → c = ' ' ∧ GoesOn cs)

theorem goesOn_append (hword : ∀ c ∈ word, isBlank c = false) (hne : word ≠ []) :
    GoesOn (word ++ cs) := by
  cases word with
  | nil => exact absurd rfl hne
  | cons c word => exact ⟨c, rfl, hword c List.mem_cons_self⟩

theorem hasSingleSpaces_append (hword : ∀ c ∈ word, isBlank c = false) :
    HasSingleSpaces (word ++ cs) ↔ HasSingleSpaces cs := by
  induction word with
  | nil => rfl
  | cons c word ih =>
      rw [List.forall_mem_cons] at hword
      rw [List.cons_append, HasSingleSpaces, ih hword.2]
      simp [hword.1]

/-- The last character of a text with single spaces is not blank. -/
theorem HasSingleSpaces.getLast?_filter (h : HasSingleSpaces cs) :
    (cs.filter (!isBlank ·)).getLast? = cs.getLast? := by
  induction cs with
  | nil => rfl
  | cons c cs ih =>
      cases hc : isBlank c with
      | false =>
          have hkeep : (c :: cs).filter (!isBlank ·) = c :: cs.filter (!isBlank ·) := by simp [hc]
          rw [hkeep, List.getLast?_cons, List.getLast?_cons, ih h.1]
      | true =>
          have hdrop : (c :: cs).filter (!isBlank ·) = cs.filter (!isBlank ·) := by simp [hc]
          rcases (h.2 hc).2 with ⟨d, hd, -⟩
          have hne : cs ≠ [] := by
            rintro rfl
            cases hd
          rw [hdrop, ih h.1, List.getLast?_cons_of_ne_nil hne]

/-- Words joined by single spaces have single spaces, and if there are any the text goes on with
the first of them. -/
theorem hasSingleSpaces_joinWords (cs : List Char) (hword : ∀ c ∈ word, isBlank c = false) :
    HasSingleSpaces (joinWords (wordsFrom cs word)) ∧
      (wordsFrom cs word ≠ [] → GoesOn (joinWords (wordsFrom cs word))) := by
  induction cs generalizing word with
  | nil =>
      have hreverse : ∀ c ∈ word.reverse, isBlank c = false := by simpa using hword
      rw [wordsFrom]
      split
      · exact ⟨trivial, fun hne => absurd rfl hne⟩
      · rename_i hne
        have hjoin : joinWords [word.reverse] = word.reverse ++ [] := by simp [joinWords]
        rw [hjoin, hasSingleSpaces_append hreverse]
        refine ⟨trivial, fun _ => goesOn_append hreverse ?_⟩
        simpa using hne
  | cons c cs ih =>
      cases hc : isBlank c with
      | false =>
          rw [wordsFrom_cons_of_not_blank hc]
          exact ih (List.forall_mem_cons.mpr ⟨hc, hword⟩)
      | true =>
          have hrest := ih (List.forall_mem_nil fun c => isBlank c = false)
          rw [wordsFrom_cons_of_blank hc]
          split
          · exact hrest
          · rename_i hne
            have hreverse : ∀ c ∈ word.reverse, isBlank c = false := by simpa using hword
            rw [joinWords_cons, hasSingleSpaces_append hreverse]
            refine ⟨?_, fun _ => goesOn_append hreverse (List.reverse_ne_nil_iff.mpr hne)⟩
            split
            · trivial
            · rename_i hlater
              exact ⟨hrest.1, fun _ => ⟨rfl, hrest.2 hlater⟩⟩

/-- A text with single spaces is made up of its words. -/
theorem joinWords_wordsFrom (hbegins : word = [] → cs ≠ [] → GoesOn cs)
    (h : HasSingleSpaces cs) : joinWords (wordsFrom cs word) = word.reverse ++ cs := by
  induction cs generalizing word with
  | nil =>
      rw [wordsFrom]
      split <;> simp_all [joinWords]
  | cons c cs ih =>
      cases hc : isBlank c with
      | false =>
          rw [wordsFrom_cons_of_not_blank hc, ih (by simp) h.1, List.reverse_cons,
            List.append_assoc, List.singleton_append]
      | true =>
          rcases h.2 hc with ⟨rfl, hon⟩
          have hne : word ≠ [] := by
            intro hword
            rcases hbegins hword (List.cons_ne_nil _ _) with ⟨d, hd, hblank⟩
            cases hd
            exact Bool.noConfusion (hc.symm.trans hblank)
          have hrest : joinWords (wordsFrom cs []) = cs := ih (fun _ _ => hon) h.1
          have hlater : wordsFrom cs [] ≠ [] := by
            intro hnone
            rw [hnone] at hrest
            rcases hon with ⟨d, hd, -⟩
            rw [← hrest] at hd
            cases hd
          rw [wordsFrom_cons_of_blank hc, if_neg hne, joinWords_cons, if_neg hlater, hrest]

/-! ## Texts that are spaced anew -/

/-- The words of a text, joined by single spaces. -/
def spaced (cs : List Char) : List Char := joinWords (wordsFrom cs [])

theorem joined_words (s : String) : joined " " (words s) = String.ofList (spaced s.toList) := by
  rw [← String.toList_inj, joined, String.toList_intercalate, String.toList_ofList, words, spaced,
    joinWords]
  simp

theorem filter_spaced (cs : List Char) :
    (spaced cs).filter (!isBlank ·) = cs.filter (!isBlank ·) :=
  filter_joinWords_wordsFrom cs []

/-- The last character of a text that is spaced anew is the last one that is not blank. -/
theorem getLast?_spaced (cs : List Char) :
    (spaced cs).getLast? = (cs.filter (!isBlank ·)).getLast? := by
  have hspaced : HasSingleSpaces (spaced cs) :=
    (hasSingleSpaces_joinWords cs (List.forall_mem_nil _)).1
  rw [← filter_spaced, hspaced.getLast?_filter]

theorem count_spaced (hc : isBlank c = false) (cs : List Char) :
    (spaced cs).count c = cs.count c := by
  have hkept : ∀ l : List Char, (l.filter (!isBlank ·)).count c = l.count c := by
    intro l
    apply List.count_filter
    rw [hc]
    rfl
  rw [← hkept, filter_spaced, hkept]

theorem lowerFrom_goesOn (h : GoesOn cs) : GoesOn (lowerFrom before cs) := by
  rcases h with ⟨c, hc, hblank⟩
  cases cs with
  | nil => cases hc
  | cons d cs =>
      cases hc
      rw [lowerFrom_cons]
      exact goesOn_append (fun _ hd => isBlank_of_mem_imageAt hblank hd) (imageAt_ne_nil _ _ _)

theorem lowerFrom_hasSingleSpaces (h : HasSingleSpaces cs) :
    HasSingleSpaces (lowerFrom before cs) := by
  induction cs generalizing before with
  | nil => exact trivial
  | cons c cs ih =>
      rw [lowerFrom_cons]
      cases hc : isBlank c with
      | false =>
          rw [hasSingleSpaces_append fun _ hd => isBlank_of_mem_imageAt hc hd]
          exact ih h.1
      | true =>
          rw [(caseless_of_isBlank hc).imageAt_eq]
          exact ⟨ih h.1, fun _ => ⟨(h.2 hc).1, lowerFrom_goesOn (h.2 hc).2⟩⟩

/-- A text that was spaced anew and lowered is not changed by spacing it once more. -/
theorem spaced_lowerFrom_spaced (before cs : List Char) :
    spaced (lowerFrom before (spaced cs)) = lowerFrom before (spaced cs) := by
  have hspaced := hasSingleSpaces_joinWords cs (List.forall_mem_nil fun c => isBlank c = false)
  refine joinWords_wordsFrom (fun _ hne => lowerFrom_goesOn (hspaced.2 fun hnone => hne ?_))
    (lowerFrom_hasSingleSpaces hspaced.1)
  rw [spaced, hnone]
  rfl

end ShardedSql.Text
