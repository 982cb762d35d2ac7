import ShardedSql.Adaptation
import ShardedSql.Proofs.Route.Units
import ShardedSql.Proofs.Sql.Reader

/-!
# Renaming back

Renaming changes the words of a statement that refer to tables and nothing else.  If the actual
names are different and the statement has none of them, the renaming with logical and actual names
swapped gives back the statement.

Main results:

- Theorems `Sql.Leaf.renamed_renamed` and `Sql.Leaf.renamed_eq_self_iff`: at most one word of a
  leaf is renamed.
- Theorem `RouteUnit.tree_renameTables`: renaming the tables of a command renames its leaves.
- Theorem `RouteUnit.tree_actual`: what a route unit makes of a command.
- Theorem `RouteUnit.rename_swapped`: when a word is renamed back.
- Theorem `actualCommands_swapped`: when a statement is.
-/

namespace ShardedSql

open Sql

/-! ## Names -/

namespace Sql

variable {Call : Type} (f g : Ident → Ident)

@[simp]
theorem changeTable_nil : changeTable f ([] : List (NamePart Call)) = [] := rfl

/-- The last word of the name of a table is changed. -/
@[simp]
theorem changeTable_ident (before : List (NamePart Call)) (i : Ident) :
    changeTable f (before ++ [.ident i]) = before ++ [.ident (f i)] := by
  simp [changeTable]

/-- Nothing is changed where the name ends with a call. -/
@[simp]
theorem changeTable_call (before : List (NamePart Call)) (c : Call) :
    changeTable f (before ++ [.call c]) = before ++ [.call c] := by
  simp [changeTable]

/-- Changing the table of a name twice. -/
theorem changeTable_changeTable (name : List (NamePart Call)) :
    changeTable g (changeTable f name) = changeTable (g ∘ f) name := by
  rcases List.eq_nil_or_concat name with rfl | ⟨before, i | c, rfl⟩ <;> simp

/-- Changing the table of a dotted name twice. -/
theorem changeQualifier_changeQualifier (parts : List Ident) :
    changeQualifier g (changeQualifier f parts) = changeQualifier (g ∘ f) parts := by
  unfold changeQualifier
  split
  · rename_i hlength
    rw [List.length_modify, if_pos hlength, List.modify_modify_eq]
  · rfl

/-- The qualifier of a dotted name is left as it is exactly when its word is. -/
theorem changeQualifier_eq_self_iff (parts : List Ident) :
    changeQualifier f parts = parts ↔
      2 ≤ parts.length → ∀ i ∈ parts[parts.length - 2]?, f i = i := by
  unfold changeQualifier
  split
  · rename_i hlength
    rw [imp_iff_right hlength]
    constructor
    · intro h i hi
      have hword := List.getElem?_modify_eq f (parts.length - 2) parts
      rw [h, Option.mem_def.mp hi] at hword
      exact (Option.some.inj hword).symm
    · intro h
      refine List.ext_getElem? fun j => ?_
      rw [List.getElem?_modify]
      cases hj : parts[j]? with
      | none => rfl
      | some i =>
          show some (if parts.length - 2 = j then f i else i) = some i
          split
          · rename_i heq
            rw [h i (heq ▸ hj)]
          · rfl
  · rename_i hlength
    exact iff_of_true rfl fun hlong => absurd hlong hlength

namespace Leaf

/-- A leaf with the word for a table changed: the last one in the name of a table, the last but one
in a dotted name. -/
def renamed (l : Leaf Call) : Leaf Call :=
  (l.onRelation (changeTable f)).onCompound (changeQualifier f)

/-- A leaf that is renamed twice. -/
theorem renamed_renamed (l : Leaf Call) : (l.renamed f).renamed g = l.renamed (g ∘ f) := by
  cases l with
  | relation name => exact congrArg relation (changeTable_changeTable f g name)
  | compound parts => exact congrArg compound (changeQualifier_changeQualifier f g parts)
  | placeholder _ | declaration _ => rfl

/-- A leaf is left as it is exactly when its word for a table is. -/
theorem renamed_eq_self_iff (l : Leaf Call) : l.renamed f = l ↔ ∀ i ∈ l.referred?, f i = i := by
  cases l with
  | relation name =>
      show relation (changeTable f name) = relation name ↔ _
      rcases List.eq_nil_or_concat name with rfl | ⟨before, i | c, rfl⟩ <;> simp [referred?]
  | compound parts =>
      show compound (changeQualifier f parts) = compound parts ↔ _
      rw [compound.injEq, changeQualifier_eq_self_iff]
      show _ ↔ ∀ i ∈ (if 2 ≤ parts.length then parts[parts.length - 2]? else none), f i = i
      split
      · rename_i hlength
        exact imp_iff_right hlength
      · rename_i hlength
        exact iff_of_true (fun hlong => absurd hlong hlength) fun _ hnone => by cases hnone
  | placeholder _ | declaration _ => exact iff_of_true rfl fun _ hnone => by cases hnone

end Leaf

end Sql

/-! ## Commands -/

namespace RouteUnit

variable (u : RouteUnit) {L : Library}

/-- A command with the tables of a route unit. -/
def actual (u : RouteUnit) (L : Library) (c : L.Command) : L.Command :=
  if u.tables.any (!·.isIdentity) then u.renameTables L c else c

/-- What a route unit makes of a word for a table. -/
def actualIdent : Ident → Ident := if u.tables.any (!·.isIdentity) then u.rename else id

/-- A word is left as it is unless some table of the unit is renamed and this one is. -/
theorem actualIdent_eq_self_iff (i : Ident) :
    u.actualIdent i = i ↔
      (u.tables.any (!·.isIdentity) = true → u.actualTable i.text = i.text) := by
  unfold actualIdent
  split
  · rename_i hrenames
    rw [imp_iff_right hrenames, rename, actualTable]
    cases u.table? i.text with
    | none => exact iff_of_true rfl rfl
    | some m =>
        show ({ i with text := m.actual } : Ident) = i ↔ m.actual = i.text
        exact ⟨congrArg Ident.text, fun h => congrArg (fun text => { i with text }) h⟩
  · rename_i hkept
    exact iff_of_true rfl fun hrenames => absurd hrenames hkept

variable {R : Reading L} (hR : R.Lawful)
include hR

/-- Renaming the tables of a command renames its leaves, whichever visitor comes to them. -/
theorem tree_renameTables (c : L.Command) :
    R.tree (u.renameTables L c) = (R.tree c).map (·.renamed u.rename) := by
  rw [renameTables, hR.tree_visitExpressions, hR.tree_visitRelations, Tree.map_map]
  rfl

/-- What a route unit makes of a command, leaf by leaf. -/
theorem tree_actual (c : L.Command) :
    R.tree (u.actual L c) = (R.tree c).map (·.renamed u.actualIdent) := by
  unfold actual actualIdent
  split
  · exact u.tree_renameTables hR c
  · refine ((Tree.map_eq_self_iff _ _).mpr fun l _ => ?_).symm
    exact (l.renamed_eq_self_iff id).mpr fun _ _ => rfl

/-- A route unit changes the bounds of a command only where they are dotted names. -/
theorem cut_actual (c : L.Command) :
    ∃ g, R.cut (u.actual L c) = (R.cut c).map (·.onCompound g) := by
  unfold actual
  split
  · exact ⟨_, by rw [renameTables, hR.cut_visitExpressions, hR.cut_visitRelations]⟩
  · refine ⟨id, (Cut.map_id _).symm.trans (congrArg (R.cut c).map (funext fun v => ?_))⟩
    cases v <;> rfl

/-- Outside of its page clause a query is renamed as it is with one. -/
theorem setPage_actual (c : L.Command) :
    L.setPage none (u.actual L c) = u.actual L (L.setPage none c) := by
  unfold actual
  split
  · rw [renameTables, renameTables, hR.setPage_visitExpressions, hR.setPage_visitRelations]
  · rfl

end RouteUnit

/-- The commands of a text with actual tables. -/
theorem actualCommands_eq_ok {L : Library} {statement : Statement} {u : RouteUnit}
    {actual : List L.Command} :
    actualCommands L statement u = .ok actual ↔
      ∃ commands, L.parse? statement.sql = some commands ∧ actual = commands.map (u.actual L) := by
  unfold actualCommands RouteUnit.actual
  cases L.parse? statement.sql with
  | none => simp
  | some commands => by_cases hrenames : u.tables.any (!·.isIdentity) <;> simp [hrenames, eq_comm]

/-! ## Swapped names -/

/-- A mapping the other way round. -/
def Mapping.swapped (m : Mapping) : Mapping := ⟨m.actual, m.logical⟩

/-- Actual names are found in swapped mappings if they are different. -/
theorem findMapping?_swapped {ms : List Mapping}
    (hactual : ms.Pairwise fun m n => Text.alike m.actual n.actual = false) {m : Mapping}
    (hm : m ∈ ms) : findMapping? (ms.map Mapping.swapped) m.actual = some m.swapped := by
  have hdistinct : DistinctNames (ms.map Mapping.swapped) := List.pairwise_map.mpr hactual
  exact findMapping?_of_mem hdistinct (List.mem_map_of_mem hm)

namespace RouteUnit

/-- A route unit with logical and actual tables swapped. -/
def swapped (u : RouteUnit) : RouteUnit := { u with tables := u.tables.map Mapping.swapped }

/-- A word is written as a route unit writes it: if it is like a logical table it is that to the
letter, and it is like none of the actual tables. -/
def Spells (u : RouteUnit) (i : Ident) : Prop :=
  (∀ m ∈ u.tables, Text.alike m.logical i.text = true → i.text = m.logical) ∧
    ∀ m ∈ u.tables, Text.alike m.actual i.text = false

instance (u : RouteUnit) (i : Ident) : Decidable (u.Spells i) :=
  inferInstanceAs (Decidable (_ ∧ _))

variable {u : RouteUnit}

/-- A unit that is swapped renames tables exactly if the unit does. -/
theorem any_swapped (u : RouteUnit) :
    u.swapped.tables.any (!·.isIdentity) = u.tables.any (!·.isIdentity) := by
  have hidentity : ∀ m : Mapping, m.swapped.isIdentity = m.isIdentity :=
    fun m => BEq.comm
  simp only [swapped, List.any_map, Function.comp_def, hidentity]

/-- A word that is written as the route unit writes it is renamed back. -/
theorem rename_swapped
    (hactual : u.tables.Pairwise fun m n => Text.alike m.actual n.actual = false) {i : Ident}
    (hi : u.Spells i) : u.swapped.rename (u.rename i) = i := by
  cases htable : u.table? i.text with
  | none =>
      have hkept : u.rename i = i := by rw [rename, htable]
      have hswapped : u.swapped.table? i.text = none := by
        refine findMapping?_eq_none.mpr fun ⟨m, hm, halike⟩ => ?_
        rcases List.mem_map.mp hm with ⟨n, hn, rfl⟩
        cases (hi.2 n hn).symm.trans halike
      rw [hkept, rename, hswapped]
  | some m =>
      -- The actual name leads back to the same mapping, and the word was its logical name.
      have hm : m ∈ u.tables := List.mem_of_find?_eq_some htable
      have hrenamed : u.rename i = { i with text := m.actual } := by rw [rename, htable]
      have hswapped : u.swapped.table? m.actual = some m.swapped := findMapping?_swapped hactual hm
      have halike := List.find?_some htable
      have hspelled : i.text = m.logical := hi.1 m hm halike
      rw [hrenamed, rename, hswapped]
      exact congrArg (fun text => (⟨text, i.quote⟩ : Ident)) hspelled.symm

/-- A command whose words for tables are written as the route unit writes them is renamed back. -/
theorem actual_swapped {L : Library} {R : Reading L} (hR : R.Lawful)
    (hactual : u.tables.Pairwise fun m n => Text.alike m.actual n.actual = false) {c : L.Command}
    (hc : ∀ l ∈ (R.tree c).leaves, ∀ i ∈ l.referred?, u.Spells i) :
    u.swapped.actual L (u.actual L c) = c := by
  unfold actual
  rw [any_swapped]
  split
  · -- A command is known by its tree, and the two changes of the tree are one.
    apply hR.tree_injective
    rw [tree_renameTables _ hR, tree_renameTables _ hR, Tree.map_map, Tree.map_eq_self_iff]
    intro l hl
    rw [Function.comp_apply, Leaf.renamed_renamed, Leaf.renamed_eq_self_iff]
    exact fun i hi => rename_swapped hactual (hc l hl i hi)
  · rfl

end RouteUnit

/-- A statement gets the actual names of a route unit and then, from the same unit with logical and
actual tables swapped, its own names again.  It is enough that no two actual names are alike, that
the words for tables are written as the route unit writes its logical tables, and that none of them
is like an actual table. -/
theorem actualCommands_swapped {L : Library} {R : Reading L} (hR : R.Lawful)
    {statement : Statement} {u : RouteUnit} {commands : List L.Command}
    (hparse : L.parse? statement.sql = some commands)
    (hactual : u.tables.Pairwise fun m n => Text.alike m.actual n.actual = false)
    (hspelled : ∀ c ∈ commands, ∀ l ∈ (R.tree c).leaves, ∀ i ∈ l.referred?, u.Spells i) :
    ∃ actual, actualCommands L statement u = .ok actual ∧
      actual.map (u.swapped.actual L) = commands := by
  have hback : ∀ c ∈ commands, u.swapped.actual L (u.actual L c) = c :=
    fun c hc => RouteUnit.actual_swapped hR hactual (hspelled c hc)
  refine ⟨commands.map (u.actual L), actualCommands_eq_ok.mpr ⟨commands, hparse, rfl⟩, ?_⟩
  calc (commands.map (u.actual L)).map (u.swapped.actual L)
      = commands.map fun c => u.swapped.actual L (u.actual L c) := List.map_map
    _ = commands.map fun c => c := List.map_congr_left hback
    _ = commands := List.map_id' commands

/-- The orders with their items, of users that are there. -/
def orderItems : Statement :=
  { sql := "SELECT t_order.id, i.name FROM t_order JOIN t_item AS i ON i.order_id = t_order.id " ++
      "WHERE t_order.user_id IN (SELECT id FROM t_user)"
    tables := ["t_order", "t_item", "t_user"] }

/-- The second table of orders, and that of items. -/
def secondOrders : RouteUnit :=
  ⟨.identity "ds_0", [⟨"t_order", "t_order_1"⟩, ⟨"t_item", "t_item_1"⟩]⟩

/-- The text of the orders with their items for the second tables. -/
def secondOrderItems : String :=
  "SELECT t_order_1.id, i.name FROM t_order_1 JOIN t_item_1 AS i ON i.order_id = t_order_1.id " ++
    "WHERE t_order_1.user_id IN (SELECT id FROM t_user)"

/-- The tables are renamed everywhere, and back. -/
theorem actualCommands_swapped_orderItems :
    ∃ commands actual, Sql.parse? .postgres orderItems.sql = some commands ∧
      actualCommands (reader .postgres) orderItems secondOrders = .ok actual ∧
      (reader .postgres).renderAll actual = secondOrderItems ∧
      actual.map (secondOrders.swapped.actual (reader .postgres)) = commands := by
  have hcheck : (Sql.parse? .postgres orderItems.sql).any (fun commands =>
      (commands.all fun c => c.tree.leaves.all fun l => l.referred?.all (secondOrders.Spells ·)) &&
      (reader .postgres).renderAll (commands.map (secondOrders.actual (reader .postgres))) ==
        secondOrderItems) = true := by
    decide +kernel
  rcases (Option.any_eq_true _ _).mp hcheck with ⟨commands, hparse, hcommands⟩
  simp only [Bool.and_eq_true, List.all_eq_true, Option.all_eq_true, decide_eq_true_eq,
    beq_iff_eq] at hcommands
  have hactual : secondOrders.tables.Pairwise fun m n => Text.alike m.actual n.actual = false := by
    decide +kernel
  rcases actualCommands_swapped (reader_lawful .postgres) hparse hactual hcommands.1 with
    ⟨actual, hok, hswapped⟩
  refine ⟨commands, actual, hparse, hok, ?_, hswapped⟩
  rcases actualCommands_eq_ok.mp hok with ⟨_, hparse', rfl⟩
  cases hparse.symm.trans hparse'
  exact hcommands.2

end ShardedSql
