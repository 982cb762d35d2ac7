import Mathlib.Data.List.TakeWhile
import ShardedSql.Proofs.Text.Words
import ShardedSql.Route.Traffic

/-!
# Normal forms of statements

A statement is recognised by its normal form: lower case, single spaces, and no semicolon at the
end.  Semicolons are dropped only once, behind the last blanks, so that of several runs of
semicolons at the end of a statement only the last one goes.

Main results:

- Theorem `closing_cases`: what one more blank or semicolon at the end of a text changes.
- Theorems `spaced_append_closing` and `count_append_closing`: what any of them change.
- Theorem `normalizeSql_settles_iff`: when a normal form is its own normal form, and which blanks
  and semicolons make no difference.
-/

namespace ShardedSql

open Text

/-! ## The end of a statement -/

/-- Blanks and semicolons close a statement. -/
def isClosing (c : Char) : Bool := isBlank c || c == ';'

/-- A text, read from its end, without the blanks there and the semicolons in front of them. -/
def withoutEnd (cs : List Char) : List Char := (cs.dropWhile isBlank).dropWhile (· == ';')

/-- The number of runs of semicolons among the closing characters of a text that is read from its
end. -/
def runsFromEnd (cs : List Char) : Nat := (wordsFrom (cs.takeWhile isClosing) []).length

/-- The number of runs of semicolons among the blanks and semicolons that close a statement. -/
def closingRuns (sql : String) : Nat := runsFromEnd sql.toList.reverse

variable {c : Char} {cs us word : List Char}

theorem isBlank_semicolon : isBlank ';' = false := by decide

/-- A character does not close a statement exactly if it is no blank and no semicolon. -/
theorem not_closing_iff : isClosing c = false ↔ isBlank c = false ∧ c ≠ ';' := by
  simp [isClosing]

/-- The number of words does not depend on the word that has begun. -/
theorem length_wordsFrom (cs : List Char) {v w : List Char} (hv : v ≠ []) (hw : w ≠ []) :
    (wordsFrom cs v).length = (wordsFrom cs w).length := by
  induction cs generalizing v w with
  | nil => simp [wordsFrom, hv, hw]
  | cons c cs ih =>
      cases hc : isBlank c with
      | true =>
          rw [wordsFrom_cons_of_blank hc, wordsFrom_cons_of_blank hc, if_neg hv, if_neg hw]
          rfl
      | false =>
          rw [wordsFrom_cons_of_not_blank hc, wordsFrom_cons_of_not_blank hc]
          exact ih (List.cons_ne_nil _ _) (List.cons_ne_nil _ _)

/-- A character that does not close a statement is kept with all in front of it. -/
theorem withoutEnd_of_not_closing (hc : isClosing c = false) (cs : List Char) :
    withoutEnd (c :: cs) = c :: cs ∧ runsFromEnd (c :: cs) = 0 := by
  rcases not_closing_iff.mp hc with ⟨hblank, hsemicolon⟩
  constructor
  · simp [withoutEnd, hblank, hsemicolon]
  · simp [runsFromEnd, hc, wordsFrom]

/-- A blank at the end is dropped and ends no run. -/
theorem withoutEnd_of_blank (hc : isBlank c = true) (cs : List Char) :
    withoutEnd (c :: cs) = withoutEnd cs ∧ runsFromEnd (c :: cs) = runsFromEnd cs := by
  have hclosing : isClosing c = true := by simp [isClosing, hc]
  constructor
  · simp [withoutEnd, hc]
  · rw [runsFromEnd, List.takeWhile_cons_of_pos hclosing, wordsFrom_cons_of_blank hc, if_pos rfl]
    rfl

/-- A semicolon goes with the run it belongs to. -/
theorem withoutEnd_semicolons (cs : List Char) :
    withoutEnd (';' :: ';' :: cs) = withoutEnd (';' :: cs) ∧
      runsFromEnd (';' :: ';' :: cs) = runsFromEnd (';' :: cs) := by
  have hclosing : isClosing ';' = true := by decide
  constructor
  · simp [withoutEnd, isBlank_semicolon]
  · rw [runsFromEnd, runsFromEnd, List.takeWhile_cons_of_pos hclosing,
      List.takeWhile_cons_of_pos hclosing, wordsFrom_cons_of_not_blank isBlank_semicolon,
      wordsFrom_cons_of_not_blank isBlank_semicolon, wordsFrom_cons_of_not_blank isBlank_semicolon]
    exact length_wordsFrom _ (List.cons_ne_nil _ _) (List.cons_ne_nil _ _)

/-- A semicolon that begins a run goes alone. -/
theorem withoutEnd_semicolon (hcs : cs.head? ≠ some ';') :
    withoutEnd (';' :: cs) = cs ∧ runsFromEnd (';' :: cs) = runsFromEnd cs + 1 := by
  have hclosing : isClosing ';' = true := by decide
  cases cs with
  | nil => exact ⟨rfl, rfl⟩
  | cons d cs =>
      have hd : d ≠ ';' := by simpa using hcs
      constructor
      · simp [withoutEnd, isBlank_semicolon, hd]
      · rw [runsFromEnd, List.takeWhile_cons_of_pos hclosing,
          wordsFrom_cons_of_not_blank isBlank_semicolon]
        cases hblank : isBlank d with
        | true =>
            have hd' : isClosing d = true := by simp [isClosing, hblank]
            rw [runsFromEnd, List.takeWhile_cons_of_pos hd', wordsFrom_cons_of_blank hblank,
              wordsFrom_cons_of_blank hblank]
            rfl
        | false =>
            have hd' : isClosing d = false := not_closing_iff.mpr ⟨hblank, hd⟩
            rw [(withoutEnd_of_not_closing hd' cs).2, List.takeWhile_cons_of_neg (by simp [hd'])]
            rfl

/-- One more closing character belongs to the end, or it is a semicolon that begins a new run. -/
theorem closing_cases (hc : isClosing c = true) (cs : List Char) :
    (withoutEnd (c :: cs) = withoutEnd cs ∧ runsFromEnd (c :: cs) = runsFromEnd cs) ∨
      (c = ';' ∧ withoutEnd (c :: cs) = cs ∧ runsFromEnd (c :: cs) = runsFromEnd cs + 1) := by
  by_cases hsemicolon : c = ';'
  · subst hsemicolon
    by_cases hcs : cs.head? = some ';'
    · cases cs with
      | nil => cases hcs
      | cons d cs =>
          cases hcs
          exact .inl (withoutEnd_semicolons cs)
    · exact .inr ⟨rfl, withoutEnd_semicolon hcs⟩
  · have hblank : isBlank c = true := by simpa [isClosing, hsemicolon] using hc
    exact .inl (withoutEnd_of_blank hblank cs)

/-- A semicolon at the end makes a run. -/
theorem runsFromEnd_semicolon_pos (cs : List Char) : 0 < runsFromEnd (';' :: cs) := by
  induction cs with
  | nil => decide
  | cons c cs ih =>
      by_cases hc : c = ';'
      · subst hc
        rw [(withoutEnd_semicolons cs).2]
        exact ih
      · rw [(withoutEnd_semicolon (by simpa using hc)).2]
        exact Nat.succ_pos _

/-! ## What is left of a statement -/

/-- A blank at the end is not seen between words. -/
theorem spaced_reverse_cons (hc : isBlank c = true) (cs : List Char) :
    spaced (c :: cs).reverse = spaced cs.reverse := by
  rw [spaced, List.reverse_cons, wordsFrom_concat_blank hc]
  rfl

/-- Nor are blanks at the start. -/
theorem spaced_blanks_append (hus : ∀ u ∈ us, isBlank u = true) (cs : List Char) :
    spaced (us ++ cs) = spaced cs := by
  rw [spaced, wordsFrom_blanks_append hus]
  rfl

/-- Without semicolons at its end a text is left as it is, up to blanks. -/
theorem spaced_withoutEnd (h : runsFromEnd cs = 0) :
    spaced (withoutEnd cs).reverse = spaced cs.reverse := by
  induction cs with
  | nil => rfl
  | cons c cs ih =>
      cases hc : isClosing c with
      | false => rw [(withoutEnd_of_not_closing hc cs).1]
      | true =>
          by_cases hsemicolon : c = ';'
          · rw [hsemicolon] at h
            exact absurd h (Nat.ne_of_gt (runsFromEnd_semicolon_pos cs))
          · have hblank : isBlank c = true := by simpa [isClosing, hsemicolon] using hc
            rw [(withoutEnd_of_blank hblank cs).2] at h
            rw [(withoutEnd_of_blank hblank cs).1, spaced_reverse_cons hblank, ih h]

/-- More closing characters make no fewer runs. -/
theorem runsFromEnd_le_append (hus : ∀ u ∈ us, isClosing u = true) (cs : List Char) :
    runsFromEnd cs ≤ runsFromEnd (us ++ cs) := by
  induction us with
  | nil => exact Nat.le_refl _
  | cons u us ih =>
      rw [List.forall_mem_cons] at hus
      rw [List.cons_append]
      rcases closing_cases hus.1 (us ++ cs) with ⟨-, hruns⟩ | ⟨-, -, hruns⟩
      · exact hruns ▸ ih hus.2
      · exact hruns ▸ Nat.le_succ_of_le (ih hus.2)

/-- Closing characters that begin no second run of semicolons change nothing. -/
theorem spaced_append_closing (hus : ∀ u ∈ us, isClosing u = true)
    (h : runsFromEnd (us ++ cs) ≤ runsFromEnd cs ∨ runsFromEnd (us ++ cs) ≤ 1) :
    spaced (withoutEnd (us ++ cs)).reverse = spaced (withoutEnd cs).reverse := by
  induction us with
  | nil => rfl
  | cons u us ih =>
      rw [List.forall_mem_cons] at hus
      have hgrow := runsFromEnd_le_append hus.2 cs
      rw [List.cons_append] at h ⊢
      rcases closing_cases hus.1 (us ++ cs) with ⟨hend, hruns⟩ | ⟨-, hend, hruns⟩
      · rw [hruns] at h
        rw [hend, ih hus.2 h]
      · have hnone : runsFromEnd (us ++ cs) = 0 := by omega
        rw [hend, ← spaced_withoutEnd hnone, ih hus.2 (.inr (by omega))]

/-- Dropping the end drops semicolons at most. -/
theorem count_withoutEnd_le (cs : List Char) : (withoutEnd cs).count ';' ≤ cs.count ';' :=
  ((List.dropWhile_sublist _).trans (List.dropWhile_sublist _)).count_le _

/-- The last run of semicolons is not left. -/
theorem count_withoutEnd_lt (h : 0 < runsFromEnd cs) :
    (withoutEnd cs).count ';' < cs.count ';' := by
  induction cs with
  | nil => cases h
  | cons c cs ih =>
      cases hc : isClosing c with
      | false =>
          rw [(withoutEnd_of_not_closing hc cs).2] at h
          cases h
      | true =>
          rcases closing_cases hc cs with ⟨hend, hruns⟩ | ⟨rfl, hend, -⟩
          · rw [hruns] at h
            rw [hend]
            exact Nat.lt_of_lt_of_le (ih h) (List.count_le_count_cons)
          · rw [hend, List.count_cons_self]
            exact Nat.lt_succ_self _

/-- With more closing characters at the end no fewer semicolons are left. -/
theorem count_withoutEnd_le_append (hus : ∀ u ∈ us, isClosing u = true) (cs : List Char) :
    (withoutEnd cs).count ';' ≤ (withoutEnd (us ++ cs)).count ';' := by
  induction us with
  | nil => exact Nat.le_refl _
  | cons u us ih =>
      rw [List.forall_mem_cons] at hus
      rw [List.cons_append]
      rcases closing_cases hus.1 (us ++ cs) with ⟨hend, -⟩ | ⟨-, hend, -⟩
      · exact hend ▸ ih hus.2
      · rw [hend]
        exact Nat.le_trans (ih hus.2) (count_withoutEnd_le _)

/-- Closing characters that begin a second run of semicolons leave more semicolons. -/
theorem count_append_closing (hus : ∀ u ∈ us, isClosing u = true)
    (hmore : runsFromEnd cs < runsFromEnd (us ++ cs)) (hsecond : 1 < runsFromEnd (us ++ cs)) :
    (withoutEnd cs).count ';' < (withoutEnd (us ++ cs)).count ';' := by
  induction us with
  | nil => exact absurd hmore (Nat.lt_irrefl _)
  | cons u us ih =>
      rw [List.forall_mem_cons] at hus
      rw [List.cons_append] at hmore hsecond ⊢
      rcases closing_cases hus.1 (us ++ cs) with ⟨hend, hruns⟩ | ⟨-, hend, hruns⟩
      · rw [hruns] at hmore hsecond
        exact hend ▸ ih hus.2 hmore hsecond
      · rw [hend]
        exact Nat.lt_of_le_of_lt (count_withoutEnd_le_append hus.2 cs)
          (count_withoutEnd_lt (by omega))

/-- A text ends in a semicolon, up to blanks, exactly when it has runs of semicolons there. -/
theorem getLast?_spaced_reverse (cs : List Char) :
    (spaced cs.reverse).getLast? = some ';' ↔ 0 < runsFromEnd cs := by
  rw [getLast?_spaced, List.filter_reverse, List.getLast?_reverse]
  induction cs with
  | nil => exact iff_of_false (fun h => by cases h) (Nat.lt_irrefl 0)
  | cons c cs ih =>
      cases hblank : isBlank c with
      | true =>
          rw [(withoutEnd_of_blank hblank cs).2, ← ih]
          simp [hblank]
      | false =>
          by_cases hsemicolon : c = ';'
          · subst hsemicolon
            simp [isBlank_semicolon, runsFromEnd_semicolon_pos cs]
          · rw [(withoutEnd_of_not_closing (not_closing_iff.mpr ⟨hblank, hsemicolon⟩) cs).2]
            simp [hblank, hsemicolon]

/-- What is left ends in a semicolon exactly when there was more than one run of them. -/
theorem getLast?_spaced_withoutEnd (cs : List Char) :
    (spaced (withoutEnd cs).reverse).getLast? = some ';' ↔ 1 < runsFromEnd cs := by
  induction cs with
  | nil => exact iff_of_false (fun h => by cases h) (Nat.not_lt_zero 1)
  | cons c cs ih =>
      cases hc : isClosing c with
      | false =>
          rw [(withoutEnd_of_not_closing hc cs).1, getLast?_spaced_reverse,
            (withoutEnd_of_not_closing hc cs).2]
          omega
      | true =>
          rcases closing_cases hc cs with ⟨hend, hruns⟩ | ⟨-, hend, hruns⟩
          · rw [hend, hruns, ih]
          · rw [hend, hruns, getLast?_spaced_reverse]
            omega

/-! ## Normal forms -/

/-- Blanks in front of a text make no difference to what is left. -/
theorem spaced_withoutEnd_append (hus : ∀ u ∈ us, isBlank u = true) (cs : List Char) :
    spaced (withoutEnd (cs ++ us)).reverse = spaced (withoutEnd cs).reverse := by
  have hblanks : ∀ l : List Char, l <:+ us → spaced l.reverse = spaced [] := by
    intro l hl
    rw [← List.append_nil l.reverse]
    exact spaced_blanks_append (fun u hu => hus u (hl.subset (List.mem_reverse.mp hu))) []
  rw [withoutEnd, withoutEnd, List.dropWhile_append]
  split
  · rename_i hempty
    rw [List.isEmpty_iff.mp hempty]
    exact hblanks _ ((List.dropWhile_suffix _).trans (List.dropWhile_suffix _))
  · rw [List.dropWhile_append]
    split
    · rename_i hempty
      rw [List.isEmpty_iff.mp hempty]
      exact hblanks _ (List.dropWhile_suffix _)
    · rw [List.reverse_append]
      exact spaced_blanks_append (fun u hu => hus u (List.mem_reverse.mp hu)) _

/-- The normal form in characters: without its end, single-spaced and in lower case. -/
theorem toList_normalizeSql (sql : String) : (normalizeSql sql).toList =
    lowerFrom [] (spaced (withoutEnd sql.toList.reverse).reverse) := by
  have hstart : ∀ u ∈ (sql.toList.takeWhile isBlank).reverse, isBlank u = true := by
    intro u hu
    exact List.mem_takeWhile_imp (List.mem_reverse.mp hu)
  have htrimmed : dropSemicolons (trimChars sql.toList) =
      (withoutEnd (sql.toList.dropWhile isBlank).reverse).reverse := by
    rw [dropSemicolons, trimChars, dropEndWhile, dropEndWhile, List.reverse_reverse]
    rfl
  have hwhole : sql.toList.reverse =
      (sql.toList.dropWhile isBlank).reverse ++ (sql.toList.takeWhile isBlank).reverse := by
    rw [← List.reverse_append, List.takeWhile_append_dropWhile]
  rw [normalizeSql, joined_words, String.toList_ofList, htrimmed, toList_lower,
    String.toList_ofList, hwhole, spaced_withoutEnd_append hstart]

/-- Of the semicolons those at the very end are dropped. -/
theorem count_normalizeSql (sql : String) :
    (normalizeSql sql).toList.count ';' = (withoutEnd sql.toList.reverse).count ';' := by
  rw [toList_normalizeSql, caseless_semicolon.count_lowerFrom, count_spaced isBlank_semicolon,
    List.count_reverse]

/-- A semicolon is left at the end exactly if there were several runs of them. -/
theorem getLast?_normalizeSql (sql : String) :
    (normalizeSql sql).toList.getLast? = some ';' ↔ 1 < closingRuns sql := by
  rw [toList_normalizeSql, caseless_semicolon.getLast?_lowerFrom, getLast?_spaced_withoutEnd]
  rfl

/-- Normal forms are single-spaced. -/
theorem spaced_normalizeSql (sql : String) :
    spaced (normalizeSql sql).toList = (normalizeSql sql).toList := by
  rw [toList_normalizeSql, spaced_lowerFrom_spaced]

/-- Normal forms are in lower case. -/
theorem lowerFrom_normalizeSql (sql : String) :
    lowerFrom [] (normalizeSql sql).toList = (normalizeSql sql).toList := by
  rw [toList_normalizeSql]
  exact lowerFrom_eq_self _ fun _ => lowerChar_of_mem_lowerFrom

/-- A normal form ends in semicolons exactly when the statement ends in several runs of them. -/
theorem closingRuns_normalizeSql_pos (sql : String) :
    0 < closingRuns (normalizeSql sql) ↔ 1 < closingRuns sql := by
  rw [closingRuns, ← getLast?_spaced_reverse, List.reverse_reverse, spaced_normalizeSql,
    getLast?_normalizeSql]

/-- A text is settled by one normalisation exactly if it ends in one run of semicolons at most. -/
theorem normalizeSql_normalizeSql_iff (sql : String) :
    normalizeSql (normalizeSql sql) = normalizeSql sql ↔ closingRuns sql ≤ 1 := by
  constructor
  · intro hsettled
    refine Nat.not_lt.mp fun hseveral => ?_
    have hruns : 0 < closingRuns (normalizeSql sql) :=
      (closingRuns_normalizeSql_pos sql).mpr hseveral
    have hfewer := count_withoutEnd_lt hruns
    rw [← count_normalizeSql, hsettled, List.count_reverse] at hfewer
    exact Nat.lt_irrefl _ hfewer
  · intro hone
    have hnone : closingRuns (normalizeSql sql) = 0 :=
      Nat.eq_zero_of_not_pos (mt (closingRuns_normalizeSql_pos sql).mp (Nat.not_lt.mpr hone))
    rw [← String.toList_inj, toList_normalizeSql, spaced_withoutEnd hnone, List.reverse_reverse,
      spaced_normalizeSql, lowerFrom_normalizeSql]

/-- Closing characters make no difference exactly if they add no run, or if there is one run at
most. -/
theorem normalizeSql_append_iff {sql closing : String}
    (hclosing : ∀ c ∈ closing.toList, isClosing c = true) :
    normalizeSql (sql ++ closing) = normalizeSql sql ↔
      closingRuns (sql ++ closing) ≤ closingRuns sql ∨ closingRuns (sql ++ closing) ≤ 1 := by
  have hus : ∀ u ∈ closing.toList.reverse, isClosing u = true := by simpa using hclosing
  have happend : (sql ++ closing).toList.reverse =
      closing.toList.reverse ++ sql.toList.reverse := by
    rw [String.toList_append, List.reverse_append]
  constructor
  · intro hsame
    refine Decidable.byContradiction fun hmore => ?_
    rw [not_or, Nat.not_le, Nat.not_le, closingRuns, closingRuns, happend] at hmore
    have hcount := count_append_closing hus hmore.1 hmore.2
    rw [← happend, ← count_normalizeSql, ← count_normalizeSql, hsame] at hcount
    exact Nat.lt_irrefl _ hcount
  · intro h
    rw [closingRuns, closingRuns, happend] at h
    rw [← String.toList_inj, toList_normalizeSql, toList_normalizeSql, happend,
      spaced_append_closing hus h]

/-- A normal form is its own normal form, and has no semicolon at its end, exactly when the
statement ends in at most one run of semicolons.  Blanks and semicolons behind a statement leave its
normal form as it is, and with it the answer whether it is recognised, exactly when they begin no
further run, or the first one. -/
theorem normalizeSql_settles_iff {sql closing : String}
    (hclosing : ∀ c ∈ closing.toList, isClosing c = true) :
    (normalizeSql (normalizeSql sql) = normalizeSql sql ↔ closingRuns sql ≤ 1) ∧
    (endsWith (normalizeSql sql) ";" = false ↔ closingRuns sql ≤ 1) ∧
    (normalizeSql (sql ++ closing) = normalizeSql sql ↔
      closingRuns (sql ++ closing) ≤ closingRuns sql ∨ closingRuns (sql ++ closing) ≤ 1) ∧
    ((∀ (algorithm : TrafficAlgorithm) (statement : Statement),
        algorithm.recognises { statement with sql := sql ++ closing } =
          algorithm.recognises { statement with sql }) ↔
      closingRuns (sql ++ closing) ≤ closingRuns sql ∨ closingRuns (sql ++ closing) ≤ 1) := by
  refine ⟨normalizeSql_normalizeSql_iff sql, ?_, normalizeSql_append_iff hclosing, ?_⟩
  · have hends : endsWith (normalizeSql sql) ";" = true ↔ 1 < closingRuns sql := by
      rw [← getLast?_normalizeSql, ← List.singleton_suffix_iff_getLast?_eq_some]
      exact List.isSuffixOf_iff_suffix
    rw [← Bool.not_eq_true, hends, Nat.not_lt]
  · rw [← normalizeSql_append_iff hclosing]
    constructor
    · intro hsame
      have hown := hsame (.statements [normalizeSql sql]) { sql }
      simpa [TrafficAlgorithm.recognises] using hown
    · intro hsame algorithm statement
      cases algorithm with
      | hint => rfl
      | statements forms => simp only [TrafficAlgorithm.recognises, hsame]

/-- A semicolon that comes after some blanks and is followed by more of both closes the statement
like none. -/
theorem normalizeSql_settles_iff_lateSemicolons :
    (∀ c ∈ " ;;\t\u3000".toList, isClosing c = true) ∧
    closingRuns "SELECT\n* FROM Straße" = 0 ∧
    closingRuns ("SELECT\n* FROM Straße" ++ " ;;\t\u3000") = 1 ∧
    normalizeSql ("SELECT\n* FROM Straße" ++ " ;;\t\u3000") =
      normalizeSql "SELECT\n* FROM Straße" := by
  have hclosing : ∀ c ∈ " ;;\t\u3000".toList, isClosing c = true := by simp [isClosing, isBlank]
  have hone : closingRuns ("SELECT\n* FROM Straße" ++ " ;;\t\u3000") = 1 := rfl
  exact ⟨hclosing, rfl, hone,
    (normalizeSql_settles_iff hclosing).2.2.1.mpr (.inr (Nat.le_of_eq hone))⟩

/-- Of two semicolons with a blank between them the first one is left: the normal form is not its
own, ends in a semicolon, and the statement is not recognised by the form that it has without
them. -/
theorem normalizeSql_not_settles_twoRuns :
    normalizeSql "SELECT 1; ;" = "select 1;" ∧
    normalizeSql (normalizeSql "SELECT 1; ;") = "select 1" ∧
    TrafficAlgorithm.setUp "report" { type := "SQL_MATCH", properties := [("sql", "SELECT 1")] } =
      .ok (.statements ["select 1"]) ∧
    (TrafficAlgorithm.statements ["select 1"]).recognises { sql := "SELECT 1" } = true ∧
    (TrafficAlgorithm.statements ["select 1"]).recognises { sql := "SELECT 1" ++ "; ;" } =
      false := by
  have htwo : normalizeSql "SELECT 1; ;" = "select 1;" := rfl
  have hnone : normalizeSql "SELECT 1" = "select 1" := rfl
  refine ⟨htwo, ?_, rfl, ?_, ?_⟩
  · rw [htwo]
    rfl
  · simp [TrafficAlgorithm.recognises, hnone]
  · simp [TrafficAlgorithm.recognises, htwo]

end ShardedSql
