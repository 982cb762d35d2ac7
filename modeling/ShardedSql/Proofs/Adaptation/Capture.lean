import ShardedSql.Proofs.Adaptation.PageClauses
import ShardedSql.Proofs.Sql.Scopes

/-!
# Captured names

Tables are renamed by their names, wherever these stand.  A name that a statement has declared
itself, as another name of a table or as a query, is kept as long as it is not also the name of a
table that is renamed; the declaration is kept in any case.

Main results:

- Theorem `Sql.Scoping.keepsShielded_iff`: which renamings keep the shielded names.
- Theorem `Sql.Reading.declared_renamed`: renaming keeps all declarations.
- Theorem `adapterFor_steady`: what a route unit makes of a command outside of its page.
- Theorem `RouteUnit.keepsShielded_of_uncovered`: shielded names are kept if nothing declared is
  called like a table of the unit.
- Theorem `adapterFor_keepsShielded_iff`: which shielded names of a statement are kept.
-/

namespace ShardedSql

open Sql

/-- A lowered letter is lowered to itself. -/
theorem Text.toLower_toLower (c : Char) : c.toLower.toLower = c.toLower := by
  by_cases h : c.val ≥ 'A'.val ∧ c.val ≤ 'Z'.val
  · have hlower : c.toLower.val = c.val + ('a'.val - 'A'.val) := congrArg Char.val (dif_pos h)
    have hother : ¬ (c.toLower.val ≥ 'A'.val ∧ c.toLower.val ≤ 'Z'.val) := by
      rw [hlower]
      simp only [ge_iff_le, UInt32.le_iff_toNat_le, UInt32.toNat_add] at h ⊢
      have hfirst : 'A'.val.toNat = 65 := rfl
      have hlast : 'Z'.val.toNat = 90 := rfl
      have hshift : ('a'.val - 'A'.val).toNat = 32 := rfl
      omega
    exact dif_neg hother
  · have hkept : c.toLower = c := dif_neg h
    rw [hkept, hkept]

/-- Words that are the same name are alike. -/
theorem Sql.Ident.alike_of_same {i j : Ident} (h : i.same j = true) :
    Text.alike i.text j.text = true := by
  have hfolded : ∀ k : Ident, k.folded.map Char.toLower = k.text.toList.map Char.toLower := by
    intro k
    unfold folded
    split
    · rfl
    · rw [List.map_map]
      exact List.map_congr_left fun c _ => Text.toLower_toLower c
  rw [Text.alike_iff, ← hfolded i, ← hfolded j, eq_of_beq h]

/-! ## Names and declarations of renamed commands -/

namespace Sql

variable {L : Library} {R : Reading L} {c c' : L.Command} {f : Ident → Ident}

/-- Renaming does not make names of other leaves. -/
theorem Leaf.isName_renamed {Call : Type} (f : Ident → Ident) (l : Leaf Call) :
    (l.renamed f).isName = l.isName := by
  cases l <;> rfl

/-- Renaming keeps the word that a leaf declares. -/
theorem Leaf.declared?_renamed {Call : Type} (f : Ident → Ident) (l : Leaf Call) :
    (l.renamed f).declared? = l.declared? := by
  cases l <;> rfl

/-- The names of a renamed command, each in its place. -/
theorem Reading.names_renamed (h : R.tree c' = (R.tree c).map (·.renamed f)) :
    R.names c' = (R.names c).map (·.renamed f) := by
  unfold names
  rw [h, Tree.leaves_map, List.filter_map]
  exact congrArg (fun isName => ((R.tree c).leaves.filter isName).map (·.renamed f))
    (funext (Leaf.isName_renamed f))

/-- Renaming keeps all declarations. -/
theorem Reading.declared_renamed (h : R.tree c' = (R.tree c).map (·.renamed f)) :
    R.declared c' = R.declared c := by
  unfold declared
  rw [h, Tree.leaves_map, List.filterMap_map]
  exact congrArg (fun word => (R.tree c).leaves.filterMap word) (funext (Leaf.declared?_renamed f))

/-- Every name of a command that is shielded is the same in another command, in the same place. -/
def Scoping.KeepsShielded (S : Scoping R) (c c' : L.Command) : Prop :=
  List.Forall₂ (fun use l => use.isShielded = true → l = use.name) (S.uses c) (R.names c')

instance [DecidableEq L.Call] (S : Scoping R) (c c' : L.Command) :
    Decidable (S.KeepsShielded c c') :=
  inferInstanceAs (Decidable (List.Forall₂ _ _ _))

/-- A renaming keeps the shielded names exactly when it keeps their words for tables. -/
theorem Scoping.keepsShielded_iff {S : Scoping R} (hS : S.Lawful)
    (h : R.tree c' = (R.tree c).map (·.renamed f)) :
    S.KeepsShielded c c' ↔
      ∀ use ∈ S.uses c, use.isShielded = true → ∀ i ∈ use.name.referred?, f i = i := by
  unfold KeepsShielded
  rw [R.names_renamed h, ← hS.map_name_uses, List.map_map, List.forall₂_map_right_iff,
    List.forall₂_same]
  exact forall₃_congr fun use _ _ => use.name.renamed_eq_self_iff f

/-- What is left of a command when a page may be cut. -/
def Library.steady (L : Library) (page : Option Page) (c : L.Command) : L.Command :=
  page.elim c fun _ => L.setPage none c

end Sql

/-! ## Commands -/

namespace RouteUnit

variable (u : RouteUnit) {L : Library} {R : Reading L}

/-- The mapping of a table depends on its name up to the case of letters. -/
theorem table?_congr {a b : String} (h : Text.alike a b = true) : u.table? a = u.table? b :=
  findMapping?_congr u.tables h

/-- What is told of the names of a command when it is adapted to a route unit. -/
structure KeepsNames (S : Scoping R) (c c' : L.Command) : Prop where
  eq_actual : c' = u.actual L c
  declared_eq : R.declared c' = R.declared c
  /-- The shielded names are kept exactly when the words for tables in them are not renamed. -/
  keepsShielded_iff : S.KeepsShielded c c' ↔
    ∀ use ∈ S.uses c, use.isShielded = true → ∀ i ∈ use.name.referred?,
      u.tables.any (!·.isIdentity) = true → u.actualTable i.text = i.text
  /-- They are kept if nothing that is declared is called like a table of the unit. -/
  keepsShielded_of_uncovered :
    (∀ d ∈ R.declared c, u.covers d.text = false) → S.KeepsShielded c c'

variable (hR : R.Lawful) {S : Scoping R} (hS : S.Lawful) (c : L.Command)
include hR hS

/-- Shielded names are kept exactly when the unit gives their words for tables no other name. -/
theorem keepsShielded_actual_iff :
    S.KeepsShielded c (u.actual L c) ↔
      ∀ use ∈ S.uses c, use.isShielded = true → ∀ i ∈ use.name.referred?,
        u.tables.any (!·.isIdentity) = true → u.actualTable i.text = i.text := by
  rw [Scoping.keepsShielded_iff hS (u.tree_actual hR c)]
  simp only [actualIdent_eq_self_iff]

/-- The shielded names are kept if nothing that a command declares is called like a table of the
unit. -/
theorem keepsShielded_of_uncovered (hdeclared : ∀ d ∈ R.declared c, u.covers d.text = false) :
    S.KeepsShielded c (u.actual L c) := by
  rw [keepsShielded_actual_iff u hR hS]
  intro use huse hshielded i hi _
  rcases hS.exists_of_isShielded c use huse hshielded with ⟨j, hj, d, hd, hsame⟩
  cases Option.mem_unique hi hj
  have hnone : u.table? d.text = none := by
    rw [← Option.isNone_iff_eq_none, ← Option.isSome_eq_false_iff]
    exact hdeclared d hd
  rw [actualTable, ← u.table?_congr (Ident.alike_of_same hsame), hnone]
  rfl

/-- What a route unit makes of the names of a command. -/
theorem keepsNames_actual : u.KeepsNames S c (u.actual L c) where
  eq_actual := rfl
  declared_eq := R.declared_renamed (u.tree_actual hR c)
  keepsShielded_iff := u.keepsShielded_actual_iff hR hS c
  keepsShielded_of_uncovered := u.keepsShielded_of_uncovered hR hS c

end RouteUnit

/-! ## Statements -/

/-- The page that a statement is cut by for a shard, if it is. -/
def Statement.pageForShard (statement : Statement) (widened : Bool) : Option Page :=
  statement.shape.page.filter fun _ => widened

section Statements

variable {L : Library} {statement : Statement} {u : RouteUnit} {widened : Bool}
  {commands : List L.Command}

/-- The text for a route unit that renames tables, without a page. -/
theorem adapterFor_renamed (hparse : L.parse? statement.sql = some commands)
    (hpage : statement.pageForShard widened = none)
    (hrenames : u.tables.any (!·.isIdentity) = true) :
    adapterFor L statement u widened =
      .ok ⟨L.renderAll (commands.map (u.actual L)), statement.parameters⟩ := by
  have hactual : actualCommands L statement u = .ok (commands.map (u.actual L)) :=
    actualCommands_eq_ok.mpr ⟨commands, hparse, rfl⟩
  unfold Statement.pageForShard at hpage
  unfold adapterFor
  simp only [hpage, hrenames, hactual]
  rfl

/-- The text for a route unit is that of commands which are renamed outside of their pages and
nothing else, or the old one if the commands are as before. -/
theorem adapterFor_steady {R : Reading L} (hR : R.Lawful)
    (hparse : L.parse? statement.sql = some commands) {bound : BoundSql}
    (h : adapterFor L statement u widened = .ok bound) :
    ∃ changed, (bound.sql = L.renderAll changed ∨
        bound.sql = statement.sql ∧ changed = commands) ∧
      List.Forall₂ (fun c c' => L.steady (statement.pageForShard widened) c' =
        u.actual L (L.steady (statement.pageForShard widened) c)) commands changed := by
  cases hpage : statement.pageForShard widened with
  | none =>
      refine ⟨commands.map (u.actual L), ?_,
        List.forall₂_map_right_iff.mpr (List.forall₂_same.mpr fun _ _ => rfl)⟩
      by_cases hrenames : u.tables.any (!·.isIdentity) = true
      · cases (adapterFor_renamed hparse hpage hrenames).symm.trans h
        exact .inl rfl
      · have hkept : ∀ c, u.actual L c = c := fun _ => if_neg hrenames
        unfold adapterFor at h
        unfold Statement.pageForShard at hpage
        simp only [hpage, if_neg hrenames] at h
        cases h
        exact .inr ⟨rfl, List.map_id'' hkept commands⟩
  | some page =>
      have hwidened : widened = true := (Option.filter_eq_some_iff.mp hpage).2
      have hshape : statement.shape.page = some page := (Option.filter_eq_some_iff.mp hpage).1
      rw [hwidened] at h
      rcases (adapterFor_widened hshape).mp h with ⟨_, changed, hparse', hchanged, rfl⟩
      cases hparse.symm.trans hparse'
      have heach := (spec_of_commandsForShard hR hchanged).1
      rw [List.forall₂_map_left_iff] at heach
      exact ⟨changed.1, .inl rfl, heach.imp fun c c' hc => hc.2.trans (u.setPage_actual hR c)⟩

/-- The text for a route unit is that of commands which declare what they did, and each of them
keeps its shielded names exactly when no table of the unit is renamed or none of their words for
tables is, and in particular when nothing that it declares is called like a table of the unit. -/
theorem adapterFor_keepsShielded_iff {R : Reading L} (hR : R.Lawful) {S : Scoping R}
    (hS : S.Lawful) (hparse : L.parse? statement.sql = some commands) {bound : BoundSql}
    (h : adapterFor L statement u widened = .ok bound) :
    ∃ changed, (bound.sql = L.renderAll changed ∨
        bound.sql = statement.sql ∧ changed = commands) ∧
      List.Forall₂ (fun c c' => u.KeepsNames S (L.steady (statement.pageForShard widened) c)
        (L.steady (statement.pageForShard widened) c')) commands changed := by
  rcases adapterFor_steady hR hparse h with ⟨changed, hsql, hsteady⟩
  refine ⟨changed, hsql, hsteady.imp fun c c' hc => ?_⟩
  rw [hc]
  exact u.keepsNames_actual hR hS _

end Statements

/-- The names of all items. -/
def itemNames : Statement :=
  { sql := "SELECT i.name FROM t_item i", tables := ["t_item"] }

/-- The other name of the items is kept. -/
theorem adapterFor_keepsShielded_iff_itemNames :
    ∃ c c', Sql.parse? .postgres itemNames.sql = some [c] ∧
      adapterFor (reader .postgres) itemNames secondOrders false =
        .ok ⟨"SELECT i.name FROM t_item_1 i", []⟩ ∧
      (reader .postgres).renderAll [c'] = "SELECT i.name FROM t_item_1 i" ∧
      ((readerScoping .postgres).uses c).any (·.isShielded) = true ∧
      (readerScoping .postgres).KeepsShielded c c' := by
  have hcheck : (Sql.parse? .postgres itemNames.sql).any (fun commands =>
      commands.length == 1 && commands.all fun c =>
        (reader .postgres).renderAll [secondOrders.actual (reader .postgres) c] ==
          "SELECT i.name FROM t_item_1 i" &&
        ((readerScoping .postgres).uses c).any (·.isShielded) &&
        ((readerReading .postgres).declared c).all (fun d => !secondOrders.covers d.text)) =
          true := by
    decide +kernel
  rcases exists_of_any_single _ hcheck with ⟨c, hparse, hc⟩
  simp only [Bool.and_eq_true, beq_iff_eq, List.all_eq_true, Bool.not_eq_true'] at hc
  rcases hc with ⟨⟨htext, hshielded⟩, huncovered⟩
  have hadapted : adapterFor (reader .postgres) itemNames secondOrders false = _ :=
    adapterFor_renamed hparse rfl (by decide +kernel)
  rw [List.map_singleton, htext] at hadapted
  rcases adapterFor_keepsShielded_iff (reader_lawful .postgres) (readerScoping_lawful .postgres)
    hparse hadapted with ⟨_, -, hkept⟩
  rcases List.forall₂_cons_left_iff.mp hkept with ⟨c', _, hc', -, -⟩
  have hpage : itemNames.pageForShard false = none := rfl
  rw [hpage] at hc'
  have hactual : c' = secondOrders.actual (reader .postgres) c := hc'.eq_actual
  refine ⟨c, c', hparse, hadapted, ?_, hshielded, hc'.keepsShielded_of_uncovered huncovered⟩
  rw [hactual, htext]

/-- The users who have ordered, by the name of the orders. -/
def orderingUsers : Statement :=
  { sql := "SELECT t_order.name FROM t_user t_order " ++
      "WHERE t_order.id IN (SELECT user_id FROM t_order)"
    tables := ["t_user", "t_order"] }

/-- The paid orders, by the name of the orders. -/
def paidOrders : Statement :=
  { sql := "WITH t_order AS (SELECT * FROM t_order WHERE paid = 1) SELECT * FROM t_order"
    tables := ["t_order"] }

/-- The first users and orders. -/
def firstUsersAndOrders : RouteUnit :=
  ⟨.identity "ds_0", [⟨"t_user", "t_user_0"⟩, ⟨"t_order", "t_order_0"⟩]⟩

/-- The users are asked for by a name that nothing has, and all orders are read in place of the paid
ones. -/
theorem adapterFor_not_keepsShielded_orderingUsers :
    (∃ c c', Sql.parse? .postgres orderingUsers.sql = some [c] ∧
      adapterFor (reader .postgres) orderingUsers firstUsersAndOrders false =
        .ok ⟨"SELECT t_order_0.name FROM t_user_0 t_order " ++
          "WHERE t_order_0.id IN (SELECT user_id FROM t_order_0)", []⟩ ∧
      (reader .postgres).renderAll [c'] = "SELECT t_order_0.name FROM t_user_0 t_order " ++
        "WHERE t_order_0.id IN (SELECT user_id FROM t_order_0)" ∧
      c' = firstUsersAndOrders.actual (reader .postgres) c ∧
      ¬ (readerScoping .postgres).KeepsShielded c c') ∧
    ∃ c c', Sql.parse? .postgres paidOrders.sql = some [c] ∧
      adapterFor (reader .postgres) paidOrders firstUsersAndOrders false =
        .ok ⟨"WITH t_order AS (SELECT * FROM t_order_0 WHERE paid = 1) SELECT * FROM t_order_0",
          []⟩ ∧
      (reader .postgres).renderAll [c'] =
        "WITH t_order AS (SELECT * FROM t_order_0 WHERE paid = 1) SELECT * FROM t_order_0" ∧
      c' = firstUsersAndOrders.actual (reader .postgres) c ∧
      ¬ (readerScoping .postgres).KeepsShielded c c' := by
  have hcaptured : ∀ (statement : Statement) (text : String),
      statement.pageForShard false = none →
      (Sql.parse? .postgres statement.sql).any (fun commands =>
        commands.length == 1 && commands.all fun c =>
          (reader .postgres).renderAll [firstUsersAndOrders.actual (reader .postgres) c] == text &&
          !decide ((readerScoping .postgres).KeepsShielded c
            (firstUsersAndOrders.actual (reader .postgres) c))) = true →
      ∃ c c', Sql.parse? .postgres statement.sql = some [c] ∧
        adapterFor (reader .postgres) statement firstUsersAndOrders false =
          .ok ⟨text, statement.parameters⟩ ∧
        (reader .postgres).renderAll [c'] = text ∧
        c' = firstUsersAndOrders.actual (reader .postgres) c ∧
        ¬ (readerScoping .postgres).KeepsShielded c c' := by
    intro statement text hpage hcheck
    rcases exists_of_any_single _ hcheck with ⟨c, hparse, hc⟩
    simp only [Bool.and_eq_true, beq_iff_eq, Bool.not_eq_true', decide_eq_false_iff_not] at hc
    rcases hc with ⟨rfl, hcaptured⟩
    have hadapted : adapterFor (reader .postgres) statement firstUsersAndOrders false = _ :=
      adapterFor_renamed hparse hpage rfl
    exact ⟨c, _, hparse, hadapted, rfl, rfl, hcaptured⟩
  refine ⟨hcaptured orderingUsers _ rfl ?_, hcaptured paidOrders _ rfl ?_⟩
  · decide +kernel
  · decide +kernel

end ShardedSql
