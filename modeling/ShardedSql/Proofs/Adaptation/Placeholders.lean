import ShardedSql.Proofs.Adaptation.PageClauses

/-!
# Values of placeholders

Only the parameters among the bounds of pages get other values when a statement is adapted to a
shard, and a statement has as many parameters as before.  A placeholder that stands anywhere else
keeps its value unless it is also such a bound, since there is one value for every number.

Main results:

- Theorem `outerMarks_actual`: renaming tables keeps the placeholders.
- Theorem `valueOf_assign_iff`: which placeholders keep their values.
- Theorem `adapterFor_value_iff`: when the placeholders of a statement outside of bounds do.
-/

namespace ShardedSql

open Sql

/-! ## Placeholders -/

/-- Renaming tables keeps the placeholder that a leaf is. -/
theorem Sql.Leaf.mark?_renamed {Call : Type} (f : Ident → Ident) (l : Leaf Call) :
    (l.renamed f).mark? = l.mark? := by
  cases l <;> rfl

/-- The placeholders of a command that are outside of its limit and its offset. -/
def Sql.Reading.outerMarks {L : Library} (R : Reading L) (c : L.Command) : List String :=
  R.marks (L.setPage none c)

section Library

variable {L : Library} {R : Reading L} (hR : R.Lawful)
include hR

/-- Renaming tables keeps the placeholders. -/
theorem marks_actual (u : RouteUnit) (c : L.Command) : R.marks (u.actual L c) = R.marks c := by
  unfold Reading.marks
  rw [u.tree_actual hR, Tree.leaves_map, List.filterMap_map]
  exact congrArg ((R.tree c).leaves.filterMap ·) (funext fun l => l.mark?_renamed u.actualIdent)

/-- A route unit keeps the placeholders outside of limit and offset. -/
theorem outerMarks_actual (u : RouteUnit) (c : L.Command) :
    R.outerMarks (u.actual L c) = R.outerMarks c := by
  unfold Reading.outerMarks
  rw [u.setPage_actual hR, marks_actual hR]

/-- So do the pages for shards. -/
theorem outerMarks_commandsForShard {page : Page} {parameters : List Cell} {cs : List L.Command}
    {changed : List L.Command × List Cell}
    (h : commandsForShard L page parameters cs = .ok changed) :
    changed.1.map R.outerMarks = cs.map R.outerMarks := by
  have heach := (spec_of_commandsForShard hR h).1
  generalize changed.1 = cs' at heach
  clear h
  induction heach with
  | nil => rfl
  | cons hc _ ih => exact congrArg₂ List.cons (congrArg R.marks hc.2) ih

end Library

/-! ## Values -/

/-- The value of a numbered placeholder, if there is one for its number. -/
def valueOf? (parameters : List Cell) (mark : String) : Option Cell :=
  (ExprView.placeholder mark).position?.bind (parameters[·]?)

/-- Some assignments agree with a placeholder: they assign nothing else to its number than the value
that it has. -/
def Agrees (assignments : List (Nat × Cell)) (parameters : List Cell) (mark : String) : Prop :=
  ∀ i value own, (ExprView.placeholder mark).position? = some i →
    assigned? assignments i = some value → parameters[i]? = some own → value = own

/-- A placeholder keeps its value exactly when the assignments agree with it. -/
theorem valueOf_assign_iff (assignments : List (Nat × Cell)) (parameters : List Cell)
    (mark : String) :
    valueOf? (assign parameters assignments) mark = valueOf? parameters mark ↔
      Agrees assignments parameters mark := by
  unfold valueOf? Agrees
  cases hposition : (ExprView.placeholder mark).position? with
  | none => exact iff_of_true rfl fun _ _ _ heq => nomatch heq
  | some i =>
      simp only [Option.bind_some]
      rcases Nat.lt_or_ge i parameters.length with hlt | hge
      · rw [getElem?_assign assignments hlt]
        cases hassigned : assigned? assignments i with
        | none =>
            refine iff_of_true rfl fun j value _ hj hvalue _ => ?_
            cases hj
            cases hassigned.symm.trans hvalue
        | some value =>
            rw [Option.some_or]
            constructor
            · intro heq j value' own hj hvalue' hown
              cases hj
              cases hassigned.symm.trans hvalue'
              exact Option.some.inj (heq.trans hown)
            · intro hagrees
              have hown := List.getElem?_eq_getElem hlt
              rw [hown, hagrees i value _ rfl hassigned hown]
      · -- There is no value before or after.
        have hnone : parameters[i]? = none := List.getElem?_eq_none hge
        refine iff_of_true ?_ fun j value own hj _ hown => ?_
        · rw [hnone]
          exact List.getElem?_eq_none ((length_assign parameters assignments).symm ▸ hge)
        · cases hj
          cases hnone.symm.trans hown

/-- The assignments that the bounds of pages are changed by. -/
def Page.assignments (page : Page) {L : Library} (R : Reading L) (commands : List L.Command) :
    List (Nat × Cell) :=
  commands.flatMap fun c => (R.cut c).assigned page.pushedDown

/-- A statement for a shard has as many parameters as before, and the same placeholders outside of
the limits and offsets of its commands.  These keep their values exactly when what is assigned to
the bounds agrees with them; a statement without a page keeps all values. -/
theorem adapterFor_value_iff {L : Library} {R : Reading L} (hR : R.Lawful) {statement : Statement}
    {u : RouteUnit} {bound : BoundSql} (h : adapterFor L statement u true = .ok bound) :
    (statement.shape.page = none → bound.parameters = statement.parameters) ∧
    ∀ page, statement.shape.page = some page → ∃ commands changed,
      L.parse? statement.sql = some commands ∧
      commandsForShard L page statement.parameters (commands.map (u.actual L)) =
        .ok (changed, bound.parameters) ∧
      bound.sql = L.renderAll changed ∧
      changed.map R.outerMarks = commands.map R.outerMarks ∧
      bound.parameters.length = statement.parameters.length ∧
      ∀ c ∈ commands, ∀ mark ∈ R.outerMarks c,
        (valueOf? bound.parameters mark = valueOf? statement.parameters mark ↔
          Agrees (page.assignments R commands) statement.parameters mark) := by
  constructor
  · intro hnone
    unfold adapterFor at h
    simp only [hnone, Option.filter_none] at h
    split at h
    · rcases Except.bind_eq_ok.mp h with ⟨commands, -, hbound⟩
      cases hbound
      rfl
    · cases h
      rfl
  · intro page hpage
    rcases (adapterFor_widened hpage).mp h with ⟨commands, changed, hparse, hchanged, rfl⟩
    have hassign : changed.2 = assign statement.parameters (page.assignments R commands) := by
      rw [(spec_of_commandsForShard hR hchanged).2, List.flatMap_map]
      simp only [assigned_actual hR, Page.assignments]
    have hmarks : changed.1.map R.outerMarks = commands.map R.outerMarks := by
      rw [outerMarks_commandsForShard hR hchanged, List.map_map]
      exact List.map_congr_left fun c _ => outerMarks_actual hR u c
    refine ⟨commands, changed.1, hparse, hchanged, rfl, hmarks, ?_, fun c _ mark _ => ?_⟩
    · dsimp only
      rw [hassign, length_assign]
    · dsimp only
      rw [hassign]
      exact valueOf_assign_iff _ _ mark

/-- The third page of the orders of a user, with three different parameters. -/
def userOrders : Statement :=
  { sql := "SELECT * FROM t_order WHERE user_id = $1 LIMIT $3 OFFSET $2"
    tables := ["t_order"]
    parameters := [.int 7, .int 10, .int 5]
    shape := { Shape.plain with page := some ⟨10, some 5⟩ } }

/-- The orders are still those of the user. -/
theorem adapterFor_value_iff_userOrders :
    ∃ bound, adapterFor (reader .postgres) userOrders
        ⟨.identity "ds_0", [⟨"t_order", "t_order_1"⟩]⟩ true = .ok bound ∧
      bound = ⟨"SELECT * FROM t_order_1 WHERE user_id = $1 LIMIT $3 OFFSET $2",
        [.int 7, .int 0, .int 15]⟩ ∧
      valueOf? bound.parameters "$1" = some (.int 7) := by
  have hadapted : adapterFor (reader .postgres) userOrders
      ⟨.identity "ds_0", [⟨"t_order", "t_order_1"⟩]⟩ true =
        .ok ⟨"SELECT * FROM t_order_1 WHERE user_id = $1 LIMIT $3 OFFSET $2",
          [.int 7, .int 0, .int 15]⟩ := by
    apply eq_ok_of_toOption
    decide +kernel
  have hcheck : (Sql.parse? .postgres userOrders.sql).any (fun commands =>
      commands.any (fun c => "$1" ∈ (readerReading .postgres).outerMarks c) &&
      Page.assignments ⟨10, some 5⟩ (readerReading .postgres) commands ==
        [(2, .int 15), (1, .int 0)]) = true := by
    decide +kernel
  rcases (Option.any_eq_true _ _).mp hcheck with ⟨commands, hparse, hcommands⟩
  simp only [Bool.and_eq_true, List.any_eq_true, decide_eq_true_eq, beq_iff_eq] at hcommands
  rcases hcommands with ⟨⟨c, hc, hmark⟩, hassignments⟩
  rcases (adapterFor_value_iff (reader_lawful .postgres) hadapted).2 _ rfl with
    ⟨_, _, hparse', -, -, -, -, hvalues⟩
  cases hparse.symm.trans hparse'
  have hagrees : Agrees (Page.assignments ⟨10, some 5⟩ (readerReading .postgres) commands)
      userOrders.parameters "$1" := by
    rw [hassignments]
    rintro i value own ⟨⟩ ⟨⟩
  exact ⟨_, hadapted, rfl, (hvalues c hc "$1" hmark).mpr hagrees⟩

/-- The second page of the orders of a user whose number is also the limit. -/
def evenUserOrders : Statement :=
  { sql := "SELECT * FROM t_order WHERE user_id = $1 LIMIT $1 OFFSET 2"
    tables := ["t_order"]
    parameters := [.int 5]
    shape := { Shape.plain with page := some ⟨2, some 5⟩ } }

/-- The orders are those of another user then. -/
theorem adapterFor_value_ne_evenUserOrders :
    ∃ c, Sql.parse? .postgres evenUserOrders.sql = some [c] ∧
      "$1" ∈ (readerReading .postgres).outerMarks c ∧
      adapterFor (reader .postgres) evenUserOrders ⟨.identity "ds_0", [.identity "t_order"]⟩ true =
        .ok ⟨"SELECT * FROM t_order WHERE user_id = $1 LIMIT $1", [.int 7]⟩ ∧
      valueOf? evenUserOrders.parameters "$1" = some (.int 5) ∧
      valueOf? [.int 7] "$1" = some (.int 7) := by
  have hadapted : adapterFor (reader .postgres) evenUserOrders
      ⟨.identity "ds_0", [.identity "t_order"]⟩ true =
        .ok ⟨"SELECT * FROM t_order WHERE user_id = $1 LIMIT $1", [.int 7]⟩ := by
    apply eq_ok_of_toOption
    decide +kernel
  have hcheck : (Sql.parse? .postgres evenUserOrders.sql).any (fun commands =>
      commands.length == 1 &&
      commands.all (fun c => "$1" ∈ (readerReading .postgres).outerMarks c)) = true := by
    decide +kernel
  rcases exists_of_any_single _ hcheck with ⟨c, hparse, hmark⟩
  exact ⟨c, hparse, of_decide_eq_true hmark, hadapted, rfl, rfl⟩

end ShardedSql
