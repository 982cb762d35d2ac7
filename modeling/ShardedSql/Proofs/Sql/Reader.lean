import ShardedSql.Proofs.Sql.Trees
import ShardedSql.Proofs.Text.Numeral
import ShardedSql.Sql.Reader

/-!
# The reader as a library

The commands of the reader are read as trees, the leaves of which are the names and parameters of
their phrases.  The visitors of the reader are found to do what a library promises, by induction on
phrases.

Main results:

- Theorem `Phrase.ofTree_tree`: a phrase is known by its tree.
- Theorems `Phrase.tree_visitRelations` and `Phrase.tree_visitExpressions`: what the visitors do to
  the tree of a phrase.
- Theorem `reader_lawful`: the reader keeps the promises of a library.
-/

namespace ShardedSql.Sql

/-- What the nodes of a tree say about a part of a command. -/
inductive PieceKind where
  | word (text : String)
  /-- A name that is neither handed out by a visitor nor a declaration. -/
  | name (role : NameRole) (parts : List Ident)
  /-- A name of one word, which is declared. -/
  | declares (role : NameRole)
  | group (sort : GroupSort) (separator : String)
  | query
  | other
  | list
  | bounds
  | commaBounds
  | offset (unit : Option String)
  | fetch (percent withTies : Bool)

/-- A part of a command as a tree. -/
abbrev Piece := Tree Empty PieceKind

theorem map_ident_word (name : List (NamePart Empty)) :
    (name.map NamePart.word).map .ident = name := by
  rw [List.map_map]
  refine (List.map_congr_left fun part _ => ?_).trans (List.map_id' name)
  cases part with
  | ident i => rfl
  | call c => exact c.elim

theorem map_word_ident (parts : List Ident) :
    ((parts.map .ident : List (NamePart Empty)).map NamePart.word) = parts := by
  rw [List.map_map]
  exact List.map_id' parts

/-! ## Phrases as trees -/

namespace Phrase

/-- A name as a tree. -/
def nameTree : NameRole → List Ident → Piece
  | .table, parts => .leaf (.relation (parts.map .ident))
  | .column, parts => .leaf (.compound parts)
  | .tableAlias, [i] => .node (.declares .tableAlias) [.leaf (.declaration i)]
  | .queryName, [i] => .node (.declares .queryName) [.leaf (.declaration i)]
  | role, parts => .node (.name role parts) []

mutual

/-- A phrase as a tree. -/
def tree : Phrase → Piece
  | word text => .node (.word text) []
  | name role parts => nameTree role parts
  | parameter mark => .leaf (.placeholder mark)
  | group sort separator parts => .node (.group sort separator) (treeAll parts)

/-- Several phrases as trees. -/
def treeAll : List Phrase → List Piece
  | [] => []
  | p :: ps => p.tree :: treeAll ps

end

mutual

/-- The phrase that a tree stands for. -/
def ofTree : Piece → Phrase
  | .leaf (.relation parts) => name .table (parts.map NamePart.word)
  | .leaf (.compound parts) => name .column parts
  | .leaf (.placeholder mark) => parameter mark
  | .node (.declares role) [.leaf (.declaration i)] => name role [i]
  | .node (.name role parts) _ => name role parts
  | .node (.group sort separator) parts => group sort separator (ofTreeAll parts)
  | .node (.word text) _ => word text
  | _ => word ""

/-- The phrases that several trees stand for. -/
def ofTreeAll : List Piece → List Phrase
  | [] => []
  | t :: ts => ofTree t :: ofTreeAll ts

end

/-- A name is known by its tree. -/
theorem ofTree_nameTree (role : NameRole) (parts : List Ident) :
    ofTree (nameTree role parts) = name role parts := by
  cases role with
  | table =>
      show name .table ((parts.map .ident).map NamePart.word) = _
      rw [map_word_ident]
  | column | bareColumn | other => rfl
  | tableAlias | queryName => rcases parts with _ | ⟨i, _ | ⟨j, parts⟩⟩ <;> rfl

mutual

/-- A phrase is known by its tree. -/
theorem ofTree_tree (p : Phrase) : ofTree p.tree = p := by
  cases p with
  | word _ | parameter _ => rfl
  | name role parts => exact ofTree_nameTree role parts
  | group sort separator parts =>
      exact congrArg (group sort separator) (ofTreeAll_treeAll parts)

/-- Phrases are read back from their trees. -/
theorem ofTreeAll_treeAll (ps : List Phrase) : ofTreeAll (treeAll ps) = ps := by
  cases ps with
  | nil => rfl
  | cons p ps => exact congrArg₂ List.cons (ofTree_tree p) (ofTreeAll_treeAll ps)

end

mutual

/-- A visitor of tables changes their names in the tree. -/
theorem tree_visitRelations (f : List (NamePart Empty) → List (NamePart Empty)) (p : Phrase) :
    (p.visitRelations f).tree = p.tree.map (Leaf.onRelation f) := by
  cases p with
  | word _ | parameter _ => rfl
  | name role parts =>
      cases role with
      | table =>
          show Tree.leaf (.relation (((f (parts.map .ident)).map NamePart.word).map .ident)) = _
          rw [map_ident_word]
          rfl
      | column | bareColumn | other => rfl
      | tableAlias | queryName => rcases parts with _ | ⟨i, _ | ⟨j, parts⟩⟩ <;> rfl
  | group sort separator parts =>
      exact congrArg (Tree.node _) (treeAll_visitRelationsAll f parts)

/-- A visitor of tables changes the trees of several phrases leaf by leaf. -/
theorem treeAll_visitRelationsAll (f : List (NamePart Empty) → List (NamePart Empty))
    (ps : List Phrase) :
    treeAll (visitRelationsAll f ps) = Tree.mapAll (Leaf.onRelation f) (treeAll ps) := by
  cases ps with
  | nil => rfl
  | cons p ps =>
      exact congrArg₂ List.cons (tree_visitRelations f p) (treeAll_visitRelationsAll f ps)

end

variable (dialect : Dialect) (g : List Ident → List Ident)

mutual

/-- A visitor of dotted names changes them in the tree. -/
theorem tree_visitExpressions (p : Phrase) :
    (p.visitExpressions ((reader dialect).onCompound g)).tree =
      p.tree.map (Leaf.onCompound g) := by
  cases p with
  | word _ | parameter _ => rfl
  | name role parts =>
      cases role with
      | table | column | bareColumn | other => rfl
      | tableAlias | queryName => rcases parts with _ | ⟨i, _ | ⟨j, parts⟩⟩ <;> rfl
  | group sort separator parts =>
      exact congrArg (Tree.node _) (treeAll_visitExpressionsAll parts)

theorem treeAll_visitExpressionsAll (ps : List Phrase) :
    treeAll (visitExpressionsAll ((reader dialect).onCompound g) ps) =
      Tree.mapAll (Leaf.onCompound g) (treeAll ps) := by
  cases ps with
  | nil => rfl
  | cons p ps =>
      exact congrArg₂ List.cons (tree_visitExpressions p) (treeAll_visitExpressionsAll ps)

end

/-- A visitor of tables does not change what an expression is seen as. -/
theorem view_visitRelations (f : List (NamePart Empty) → List (NamePart Empty)) (p : Phrase) :
    (p.visitRelations f).view = p.view := by
  cases p with
  | word _ | parameter _ | group _ _ _ => rfl
  | name role parts => cases role <;> rfl

/-- A visitor of dotted names changes what an expression is seen as where it is one. -/
theorem view_visitExpressions (p : Phrase) :
    (p.visitExpressions ((reader dialect).onCompound g)).view = p.view.onCompound g := by
  cases p with
  | parameter _ | group _ _ _ => rfl
  | word text =>
      show (word text).view = (word text).view.onCompound g
      unfold view
      dsimp only
      split <;> rfl
  | name role parts => cases role <;> rfl

end Phrase

/-! ## Commands as trees -/

open Phrase

/-- An optional phrase as a tree. -/
def optionTree (p : Option Phrase) : Piece := .node .list (treeAll p.toList)

/-- An offset as a tree, if there is one. -/
def offsetTree : Option (Offset Phrase) → Piece
  | some o => .node (.offset o.unit) [o.value.tree]
  | none => .node .list []

/-- A page clause as a tree, if there is one. -/
def pageTree : Option (PageClause Phrase) → Piece
  | some (.bounds limit offset groups) =>
      .node .bounds [optionTree limit, offsetTree offset, .node .list (treeAll groups)]
  | some (.commaBounds offset limit) => .node .commaBounds [offset.tree, limit.tree]
  | none => .node .list []

/-- A standard row limit as a tree, if there is one. -/
def fetchTree : Option (Fetch Phrase) → Piece
  | some f => .node (.fetch f.percent f.withTies) [optionTree f.quantity]
  | none => .node .list []

/-- A command as a tree. -/
def Command.tree : Command → Piece
  | query q =>
      .node .query [.node .list (treeAll q.body), pageTree q.page, fetchTree q.fetch,
        .node .list (treeAll q.locks)]
  | other p => .node .other [p.tree]

theorem treeAll_injective {ps qs : List Phrase} (h : treeAll ps = treeAll qs) : ps = qs := by
  rw [← ofTreeAll_treeAll ps, h, ofTreeAll_treeAll]

/-- A phrase is known by its tree. -/
theorem tree_injective {p q : Phrase} (h : p.tree = q.tree) : p = q := by
  rw [← ofTree_tree p, h, ofTree_tree]

theorem optionTree_injective {p q : Option Phrase} (h : optionTree p = optionTree q) : p = q := by
  have hlist : p.toList = q.toList := treeAll_injective (Tree.node.inj h).2
  rw [← Option.head?_toList (o := p), hlist, Option.head?_toList]

/-- An offset is known by its tree. -/
theorem offsetTree_injective {o o' : Option (Offset Phrase)} (h : offsetTree o = offsetTree o') :
    o = o' := by
  rcases o with _ | ⟨value, unit⟩ <;> rcases o' with _ | ⟨value', unit'⟩
  · rfl
  · cases h
  · cases h
  · simp only [offsetTree, Tree.node.injEq, PieceKind.offset.injEq, List.cons.injEq] at h
    rw [tree_injective h.2.1, h.1]

/-- A page clause is known by its tree. -/
theorem pageTree_injective {page page' : Option (PageClause Phrase)}
    (h : pageTree page = pageTree page') : page = page' := by
  rcases page with _ | ⟨limit, offset, groups⟩ | ⟨offset, limit⟩ <;>
    rcases page' with _ | ⟨limit', offset', groups'⟩ | ⟨offset', limit'⟩
  case none.none => rfl
  case some.bounds.some.bounds =>
    simp only [pageTree, Tree.node.injEq, List.cons.injEq, true_and, and_true] at h
    rw [optionTree_injective h.1, offsetTree_injective h.2.1, treeAll_injective h.2.2]
  case some.commaBounds.some.commaBounds =>
    simp only [pageTree, Tree.node.injEq, List.cons.injEq, true_and, and_true] at h
    rw [tree_injective h.1, tree_injective h.2]
  all_goals cases h

/-- A standard row limit is known by its tree. -/
theorem fetchTree_injective {fetch fetch' : Option (Fetch Phrase)}
    (h : fetchTree fetch = fetchTree fetch') : fetch = fetch' := by
  rcases fetch with _ | ⟨quantity, percent, withTies⟩ <;>
    rcases fetch' with _ | ⟨quantity', percent', withTies'⟩
  case none.none => rfl
  case some.some =>
    simp only [fetchTree, Tree.node.injEq, PieceKind.fetch.injEq, List.cons.injEq, and_true] at h
    rw [h.1.1, h.1.2, optionTree_injective h.2]
  all_goals cases h

/-- A command is known by its tree. -/
theorem Command.tree_injective (c c' : Command) (h : c.tree = c'.tree) : c = c' := by
  rcases c with ⟨body, page, fetch, locks⟩ | p <;>
    rcases c' with ⟨body', page', fetch', locks'⟩ | p'
  case query.query =>
    simp only [Command.tree, Tree.node.injEq, List.cons.injEq, true_and, and_true] at h
    rw [treeAll_injective h.1, pageTree_injective h.2.1, fetchTree_injective h.2.2.1,
      treeAll_injective h.2.2.2]
  case other.other =>
    simp only [Command.tree, Tree.node.injEq, List.cons.injEq, true_and, and_true] at h
    rw [Sql.tree_injective h]
  all_goals cases h

/-! ## Visited commands -/

section Visited

variable {f : Phrase → Phrase} {F : Leaf Empty → Leaf Empty}

theorem treeAll_map (hf : ∀ p, (f p).tree = p.tree.map F) (ps : List Phrase) :
    treeAll (ps.map f) = Tree.mapAll F (treeAll ps) := by
  induction ps with
  | nil => rfl
  | cons p ps ih => exact congrArg₂ List.cons (hf p) ih

theorem optionTree_map (hf : ∀ p, (f p).tree = p.tree.map F) (p : Option Phrase) :
    optionTree (p.map f) = (optionTree p).map F := by
  cases p with
  | none => rfl
  | some p => exact congrArg (Tree.node .list) (treeAll_map hf [p])

theorem offsetTree_map (hf : ∀ p, (f p).tree = p.tree.map F) (o : Option (Offset Phrase)) :
    offsetTree (o.map (·.map f)) = (offsetTree o).map F := by
  cases o with
  | none => rfl
  | some o => exact congrArg (Tree.node _) (treeAll_map hf [o.value])

/-- A page clause changes as its expressions do. -/
theorem pageTree_map (hf : ∀ p, (f p).tree = p.tree.map F) (page : Option (PageClause Phrase)) :
    pageTree (page.map (·.map f)) = (pageTree page).map F := by
  rcases page with _ | ⟨limit, offset, groups⟩ | ⟨offset, limit⟩
  · rfl
  · show Tree.node .bounds [optionTree (limit.map f), offsetTree (offset.map (·.map f)),
      .node .list (treeAll (groups.map f))] = _
    rw [optionTree_map hf, offsetTree_map hf, treeAll_map hf]
    rfl
  · exact congrArg (Tree.node _) (treeAll_map hf [offset, limit])

theorem fetchTree_map (hf : ∀ p, (f p).tree = p.tree.map F) (fetch : Option (Fetch Phrase)) :
    fetchTree (fetch.map (·.map f)) = (fetchTree fetch).map F := by
  cases fetch with
  | none => rfl
  | some fetch =>
      show Tree.node (.fetch fetch.percent fetch.withTies) [optionTree (fetch.quantity.map f)] = _
      rw [optionTree_map hf]
      rfl

/-- What changes the leaves of every phrase changes those of a command. -/
theorem Command.tree_map (hf : ∀ p, (f p).tree = p.tree.map F) (c : Command) :
    (c.map f).tree = c.tree.map F := by
  cases c with
  | query q =>
      show Tree.node .query [.node .list (treeAll (q.body.map f)),
        pageTree (q.page.map (·.map f)), fetchTree (q.fetch.map (·.map f)),
        .node .list (treeAll (q.locks.map f))] = _
      rw [treeAll_map hf, pageTree_map hf, fetchTree_map hf, treeAll_map hf]
      rfl
  | other p => exact congrArg (Tree.node _) (treeAll_map hf [p])

end Visited

/-! ## The reading of commands -/

/-- The standard row limit of a query, if it has one. -/
def Command.fetch? : Command → Option (Fetch Phrase)
  | query q => q.fetch
  | other _ => none

/-- The reading of the commands of the reader. -/
abbrev readerReading (dialect : Dialect) : Reading (reader dialect) where
  Kind := PieceKind
  tree := Command.tree
  fetch? := Command.fetch?

variable (dialect : Dialect)

/-- Bounds are told apart after a change as the change tells. -/
theorem cut_map {f : Phrase → Phrase} {F : ExprView → ExprView}
    (hf : ∀ p, (f p).view = F p.view) (c : Command) :
    (readerReading dialect).cut (c.map f) = ((readerReading dialect).cut c).map F := by
  have hview : Phrase.view ∘ f = F ∘ Phrase.view := funext hf
  rcases c with ⟨body, page, fetch, locks⟩ | p
  · have hpage : (page.map (·.map f)).map (·.map Phrase.view) =
        (page.map (·.map Phrase.view)).map (·.map F) := by
      rcases page with _ | ⟨limit, offset, groups⟩ | ⟨offset, limit⟩
      · rfl
      · simp [PageClause.map, Offset.map, Option.map_map, Function.comp_def, hf]
      · simp [PageClause.map, hf]
    have hfetch : (fetch.map (·.map f)).map (·.map Phrase.view) =
        (fetch.map (·.map Phrase.view)).map (·.map F) := by
      cases fetch with
      | none => rfl
      | some fetch => simp [Fetch.map, hview]
    exact congrArg₂ (fun page fetch => (⟨some page, fetch⟩ : Cut)) hpage hfetch
  · rfl

/-- A number is read as one. -/
theorem view_toString (n : Nat) : (Phrase.word (toString n)).view = .number (toString n) := by
  have hhead : (toString n).toList.head?.any Char.isDigit = true := by
    rw [Nat.toString_eq_repr, Nat.toList_repr]
    rcases hcs : Nat.toDigits 10 n with _ | ⟨c, cs⟩
    · exact absurd hcs Nat.toDigits_ne_nil
    · exact Nat.isDigit_of_mem_toDigits (by decide) (by decide) (hcs ▸ List.mem_cons_self)
  exact if_pos hhead

/-- The reader keeps the promises of a library. -/
theorem reader_lawful : (readerReading dialect).Lawful where
  tree_injective := Command.tree_injective
  tree_visitRelations f := Command.tree_map (Phrase.tree_visitRelations f)
  tree_visitExpressions g := Command.tree_map (Phrase.tree_visitExpressions dialect g)
  cut_visitRelations f c :=
    (cut_map (F := id) dialect (Phrase.view_visitRelations f) c).trans (Cut.map_id _)
  cut_visitExpressions g := cut_map dialect (Phrase.view_visitExpressions dialect g)
  view_number := view_toString
  cut_setPage page c h := by
    cases c with
    | query q => rfl
    | other p => cases h
  setPage_of_none page c h := by
    cases c with
    | query q => cases h
    | other p => rfl
  setPage_setPage page later c := by cases c <;> rfl
  setPage_visitRelations f c := by cases c <;> rfl
  setPage_visitExpressions g c := by cases c <;> rfl

/-- The only thing that a text is read as, if there is one and it passes a check. -/
theorem exists_of_any_single {α : Type} {found : Option (List α)} (check : α → Bool)
    (h : found.any (fun all => all.length == 1 && all.all check) = true) :
    ∃ a, found = some [a] ∧ check a = true := by
  rcases (Option.any_eq_true _ _).mp h with ⟨all, hfound, hall⟩
  simp only [Bool.and_eq_true, beq_iff_eq, List.all_eq_true] at hall
  rcases List.length_eq_one_iff.mp hall.1 with ⟨a, rfl⟩
  exact ⟨a, hfound, hall.2 a (List.mem_singleton_self a)⟩

end ShardedSql.Sql
