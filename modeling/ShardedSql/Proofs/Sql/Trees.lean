import Mathlib.Logic.Basic
import ShardedSql.Sql.Library

/-!
# Syntax trees

What the visitors of a library do to a command is told by its tree.  The leaves are the names of
tables, the dotted names, the parameters and the declarations of names; the nodes carry everything
else.  A visitor changes the leaves it is for, each of them once, and nothing else in the tree.

Main results:

- Theorem `Tree.leaves_map`: the leaves of a changed tree, each in its place.
- Theorem `Tree.map_map`: two changes of the leaves are one.
- Theorem `Tree.map_eq_self_iff`: a tree is left as it is exactly when its leaves are.
-/

namespace ShardedSql.Sql

/-- What visitors and readers look for in a command. -/
inductive Leaf (Call : Type) where
  /-- The name of a table. -/
  | relation (name : List (NamePart Call))
  /-- A name of several words in an expression. -/
  | compound (parts : List Ident)
  | placeholder (mark : String)
  /-- A word that declares another name of a table, or a query that is read like a table. -/
  | declaration (i : Ident)
  deriving DecidableEq, Repr

/-- A command, or a part of one. -/
inductive Tree (Call Kind : Type) where
  | leaf (l : Leaf Call)
  | node (kind : Kind) (parts : List (Tree Call Kind))

namespace Leaf

variable {Call : Type}

/-- Changes the name of a table. -/
def onRelation (f : List (NamePart Call) → List (NamePart Call)) : Leaf Call → Leaf Call
  | relation name => relation (f name)
  | l => l

/-- Changes a dotted name. -/
def onCompound (g : List Ident → List Ident) : Leaf Call → Leaf Call
  | compound parts => compound (g parts)
  | l => l

/-- Whether the leaf is a name that visitors hand out. -/
def isName : Leaf Call → Bool
  | relation _ | compound _ => true
  | placeholder _ | declaration _ => false

/-- The parameter that a leaf is, if it is one. -/
def mark? : Leaf Call → Option String
  | placeholder mark => some mark
  | _ => none

/-- The word that a leaf declares, if it does. -/
def declared? : Leaf Call → Option Ident
  | declaration i => some i
  | _ => none

/-- The word that refers to a table, if there is one. -/
def referred? : Leaf Call → Option Ident
  | relation name =>
      match name.getLast? with
      | some (.ident i) => some i
      | _ => none
  | compound parts => if 2 ≤ parts.length then parts[parts.length - 2]? else none
  | placeholder _ | declaration _ => none

end Leaf

namespace Tree

variable {Call Kind : Type}

mutual

/-- The leaves of a tree, from left to right. -/
def leaves : Tree Call Kind → List (Leaf Call)
  | leaf l => [l]
  | node _ parts => leavesAll parts

/-- The leaves of several trees. -/
def leavesAll : List (Tree Call Kind) → List (Leaf Call)
  | [] => []
  | t :: ts => t.leaves ++ leavesAll ts

end

mutual

/-- Changes the leaves of a tree. -/
def map (f : Leaf Call → Leaf Call) : Tree Call Kind → Tree Call Kind
  | leaf l => leaf (f l)
  | node kind parts => node kind (mapAll f parts)

/-- Changes the leaves of several trees. -/
def mapAll (f : Leaf Call → Leaf Call) : List (Tree Call Kind) → List (Tree Call Kind)
  | [] => []
  | t :: ts => t.map f :: mapAll f ts

end

variable (f g : Leaf Call → Leaf Call)

mutual

/-- The leaves of a changed tree, each in its place. -/
theorem leaves_map (t : Tree Call Kind) : (t.map f).leaves = t.leaves.map f := by
  cases t with
  | leaf l => rfl
  | node kind parts => exact leavesAll_mapAll parts

/-- The leaves of several changed trees. -/
theorem leavesAll_mapAll (ts : List (Tree Call Kind)) :
    leavesAll (mapAll f ts) = (leavesAll ts).map f := by
  cases ts with
  | nil => rfl
  | cons t ts =>
      show (t.map f).leaves ++ leavesAll (mapAll f ts) = (t.leaves ++ leavesAll ts).map f
      rw [leaves_map t, leavesAll_mapAll ts, List.map_append]

end

mutual

/-- Two changes of the leaves are one. -/
theorem map_map (t : Tree Call Kind) : (t.map f).map g = t.map (g ∘ f) := by
  cases t with
  | leaf l => rfl
  | node kind parts => exact congrArg (node kind) (mapAll_mapAll parts)

/-- Two changes of the leaves of several trees are one. -/
theorem mapAll_mapAll (ts : List (Tree Call Kind)) :
    mapAll g (mapAll f ts) = mapAll (g ∘ f) ts := by
  cases ts with
  | nil => rfl
  | cons t ts =>
      show (t.map f).map g :: mapAll g (mapAll f ts) = t.map (g ∘ f) :: mapAll (g ∘ f) ts
      rw [map_map t, mapAll_mapAll ts]

end

mutual

/-- A tree is left as it is exactly when its leaves are. -/
theorem map_eq_self_iff (t : Tree Call Kind) : t.map f = t ↔ ∀ l ∈ t.leaves, f l = l := by
  cases t with
  | leaf l =>
      show leaf (f l) = leaf l ↔ ∀ k ∈ [l], f k = k
      rw [leaf.injEq, List.forall_mem_singleton]
  | node kind parts =>
      show node kind (mapAll f parts) = node kind parts ↔ ∀ l ∈ leavesAll parts, f l = l
      rw [← mapAll_eq_self_iff parts, node.injEq]
      exact and_iff_right rfl

/-- Several trees are left as they are exactly when their leaves are. -/
theorem mapAll_eq_self_iff (ts : List (Tree Call Kind)) :
    mapAll f ts = ts ↔ ∀ l ∈ leavesAll ts, f l = l := by
  cases ts with
  | nil => exact iff_of_true rfl fun _ hl => by cases hl
  | cons t ts =>
      show t.map f :: mapAll f ts = t :: ts ↔ ∀ l ∈ t.leaves ++ leavesAll ts, f l = l
      rw [List.cons.injEq, List.forall_mem_append, map_eq_self_iff t, mapAll_eq_self_iff ts]

end

end Tree

/-! ## Readings of commands -/

/-- What cuts the rows of a command, with bounds that are told apart as far as they matter. -/
structure Cut where
  page : Option (Option (PageClause ExprView))
  fetch : Option (Fetch ExprView)

/-- Changes a dotted name. -/
def ExprView.onCompound (g : List Ident → List Ident) : ExprView → ExprView
  | compound parts => compound (g parts)
  | v => v

/-- Changes the bounds of a cut. -/
def Cut.map (f : ExprView → ExprView) (cut : Cut) : Cut :=
  { page := cut.page.map (·.map (·.map f)), fetch := cut.fetch.map (·.map f) }

theorem Cut.map_id (cut : Cut) : cut.map id = cut := by
  rcases cut with ⟨page, fetch⟩
  have hpage : (PageClause.map id : PageClause ExprView → PageClause ExprView) = id := by
    funext clause
    rcases clause with ⟨limit, _ | offset, groups⟩ | ⟨offset, limit⟩ <;>
      simp [PageClause.map, Offset.map]
  have hfetch : (Fetch.map id : Fetch ExprView → Fetch ExprView) = id := by
    funext fetch
    simp [Fetch.map]
  simp [Cut.map, hpage, hfetch]

/-- How the commands of a library are read: as trees, and by the standard limits of their rows. -/
structure Reading (L : Library) where
  Kind : Type
  tree : L.Command → Tree L.Call Kind
  fetch? : L.Command → Option (Fetch L.Expr)

namespace Reading

variable {L : Library} (R : Reading L)

/-- What cuts the rows of a command. -/
def cut (c : L.Command) : Cut :=
  { page := (L.page? c).map (·.map (·.map L.view)), fetch := (R.fetch? c).map (·.map L.view) }

/-- The names of a command that visitors hand out, from left to right. -/
def names (c : L.Command) : List (Leaf L.Call) := (R.tree c).leaves.filter Leaf.isName

/-- The words that a command declares as other names of tables or as names of queries. -/
def declared (c : L.Command) : List Ident := (R.tree c).leaves.filterMap Leaf.declared?

/-- The parameters of a command. -/
def marks (c : L.Command) : List String := (R.tree c).leaves.filterMap Leaf.mark?

/-- What a library promises of its visitors and page clauses. -/
structure Lawful : Prop where
  /-- A command is known by its tree. -/
  tree_injective : ∀ c c', R.tree c = R.tree c' → c = c'
  /-- Every name of a table is visited once, and nothing else is changed. -/
  tree_visitRelations : ∀ f c, R.tree (L.visitRelations f c) = (R.tree c).map (Leaf.onRelation f)
  /-- Every dotted name is visited once, and nothing else is changed. -/
  tree_visitExpressions : ∀ g c,
    R.tree (L.visitExpressions (L.onCompound g) c) = (R.tree c).map (Leaf.onCompound g)
  /-- A visitor of tables goes into the bounds of a query and does not make others of them. -/
  cut_visitRelations : ∀ f c, R.cut (L.visitRelations f c) = R.cut c
  /-- Neither does a visitor of dotted names, unless a bound is one. -/
  cut_visitExpressions : ∀ g c,
    R.cut (L.visitExpressions (L.onCompound g) c) = (R.cut c).map (ExprView.onCompound g)
  view_number : ∀ n : Nat, L.view (L.number (toString n)) = .number (toString n)
  /-- A page clause is changed in a query, and the standard limit is kept. -/
  cut_setPage : ∀ page c, (L.page? c).isSome = true →
    R.cut (L.setPage page c) = { R.cut c with page := some (page.map (·.map L.view)) }
  setPage_of_none : ∀ page c, L.page? c = none → L.setPage page c = c
  setPage_setPage : ∀ page later c, L.setPage later (L.setPage page c) = L.setPage later c
  /-- What stands outside of the page clause is visited as it is without one. -/
  setPage_visitRelations : ∀ f c,
    L.setPage none (L.visitRelations f c) = L.visitRelations f (L.setPage none c)
  setPage_visitExpressions : ∀ g c, L.setPage none (L.visitExpressions (L.onCompound g) c) =
    L.visitExpressions (L.onCompound g) (L.setPage none c)

end Reading

/-! ## Scopes of names -/

/-- A word as it is compared with others: the case of letters counts if it is quoted. -/
def Ident.folded (i : Ident) : List Char :=
  if i.quote.isSome then i.text.toList else i.text.toList.map Char.toLower

/-- Two words are the same name. -/
def Ident.same (i j : Ident) : Bool := i.folded == j.folded

/-- A name where it stands. -/
structure NameUse (Call : Type) where
  name : Leaf Call
  isShielded : Bool

/-- What the names of a command refer to: a qualifier to another name of a table that is declared in
its scope, or a table that is read to a query that is declared. -/
structure Scoping {L : Library} (R : Reading L) where
  uses : L.Command → List (NameUse L.Call)

/-- What is known of scopes. -/
structure Scoping.Lawful {L : Library} {R : Reading L} (S : Scoping R) : Prop where
  /-- The names that are used are those of the command. -/
  map_name_uses : ∀ c, (S.uses c).map (·.name) = R.names c
  /-- A shielded name refers to something declared. -/
  exists_of_isShielded : ∀ c, ∀ use ∈ S.uses c, use.isShielded = true →
    ∃ i ∈ use.name.referred?, ∃ d ∈ R.declared c, d.same i = true

end ShardedSql.Sql
