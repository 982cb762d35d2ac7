import ShardedSql.Proofs.Sql.Reader

/-!
# Scopes of names

A statement declares names of its own: other names of tables, and queries that can be read like
tables.  A name is shielded where it refers to one of them and not to a table.  The qualifier of a
column is looked up among the tables of the selections around it, those of the innermost one first;
a table that is read is looked up among the queries that are declared before it, or anywhere in a
recursive declaration.

Main results:

- Theorem `Sql.Phrase.map_name_uses`: the uses of names in a phrase are its names.
- Theorem `Sql.readerScoping_lawful`: the same of commands, and that a shielded name refers to
  something declared.
- Theorems `Sql.Scope.Within.inside` and `Sql.Scope.Within.after`: a scope knows no name that is
  declared nowhere.
- Theorem `Sql.Phrase.exists_of_isShielded`: a shielded name refers to something declared.
-/

namespace ShardedSql

namespace Sql

/-! ## Declarations -/

namespace Phrase

/-- The words that a phrase declares as other names of tables or as names of queries. -/
def declared (p : Phrase) : List Ident := p.tree.leaves.filterMap Leaf.declared?

/-- The words that several phrases declare. -/
def declaredAll (ps : List Phrase) : List Ident :=
  (Tree.leavesAll (treeAll ps)).filterMap Leaf.declared?

theorem declaredAll_cons (p : Phrase) (ps : List Phrase) :
    declaredAll (p :: ps) = p.declared ++ declaredAll ps :=
  List.filterMap_append

/-- What one of several phrases declares is declared by all of them. -/
theorem mem_declaredAll {ps : List Phrase} {p : Phrase} (hp : p ∈ ps) {i : Ident}
    (hi : i ∈ p.declared) : i ∈ declaredAll ps := by
  induction ps with
  | nil => cases hp
  | cons q ps ih =>
      rw [declaredAll_cons, List.mem_append]
      rcases List.mem_cons.mp hp with rfl | hp
      · exact .inl hi
      · exact .inr (ih hp)

end Phrase

/-! ## Tables and queries by name -/

/-- What the columns of a table can be qualified by. -/
structure Source where
  name : Ident
  isAlias : Bool
  deriving Repr

namespace Phrase

/-- The other name of a table that is declared among the parts of a phrase. -/
def aliasOf? (parts : List Phrase) : Option Ident :=
  parts.findSome? fun
    | name .tableAlias [i] => some i
    | _ => none

/-- The other name of a table is declared. -/
theorem mem_declaredAll_of_aliasOf {parts : List Phrase} {i : Ident}
    (h : aliasOf? parts = some i) : i ∈ declaredAll parts := by
  rcases List.exists_of_findSome?_eq_some h with ⟨p, hp, halias⟩
  refine mem_declaredAll hp ?_
  split at halias
  · cases halias
    exact List.mem_singleton_self i
  · cases halias

mutual

/-- The tables of a phrase outside of inner selections.  Another name hides what it is for. -/
def sources : Phrase → List Source
  | name .table parts => parts.getLast?.toList.map (⟨·, false⟩)
  | group .plain _ parts => (aliasOf? parts).elim (sourcesAll parts) fun i => [⟨i, true⟩]
  | _ => []

/-- The tables of several phrases. -/
def sourcesAll : List Phrase → List Source
  | [] => []
  | p :: ps => p.sources ++ sourcesAll ps

end

/-- The tables of a phrase with the given parts. -/
def sourcesOf (parts : List Phrase) : List Source :=
  (aliasOf? parts).elim (sourcesAll parts) fun i => [⟨i, true⟩]

theorem declared_of_mem_alias {parts : List Phrase} {rest : List Source}
    (hrest : ∀ t ∈ rest, t.isAlias = true → t.name ∈ declaredAll parts) :
    ∀ t ∈ (aliasOf? parts).elim rest fun i => [⟨i, true⟩], t.isAlias = true →
      t.name ∈ declaredAll parts := by
  cases halias : aliasOf? parts with
  | none => exact hrest
  | some i =>
      intro t ht _
      cases List.mem_singleton.mp ht
      exact mem_declaredAll_of_aliasOf halias

mutual

/-- The other names among the tables of a phrase are declared in it. -/
theorem declared_of_mem_sources (p : Phrase) :
    ∀ t ∈ p.sources, t.isAlias = true → t.name ∈ p.declared := by
  cases p with
  | word _ | parameter _ => exact fun _ ht => nomatch ht
  | name role parts =>
      cases role with
      | table =>
          intro t ht halias
          rcases List.mem_map.mp ht with ⟨i, -, rfl⟩
          cases halias
      | column | bareColumn | tableAlias | queryName | other => exact fun _ ht => nomatch ht
  | group sort separator parts =>
      cases sort with
      | plain => exact declared_of_mem_alias (declared_of_mem_sourcesAll parts)
      | query | selection => exact fun _ ht => nomatch ht

/-- The other names of the tables of several phrases are declared. -/
theorem declared_of_mem_sourcesAll (ps : List Phrase) :
    ∀ t ∈ sourcesAll ps, t.isAlias = true → t.name ∈ declaredAll ps := by
  cases ps with
  | nil => exact fun _ ht => nomatch ht
  | cons p ps =>
      intro t ht halias
      rw [declaredAll_cons, List.mem_append]
      rcases List.mem_append.mp ht with ht | ht
      · exact .inl (declared_of_mem_sources p t ht halias)
      · exact .inr (declared_of_mem_sourcesAll ps t ht halias)

end

/-- So are those of one selection. -/
theorem declared_of_mem_sourcesOf (parts : List Phrase) :
    ∀ t ∈ sourcesOf parts, t.isAlias = true → t.name ∈ declaredAll parts :=
  declared_of_mem_alias (declared_of_mem_sourcesAll parts)

mutual

/-- The queries that a phrase declares, outside of inner ones. -/
def queryNames : Phrase → List Ident
  | name .queryName [i] => [i]
  | group .plain _ parts => queryNamesAll parts
  | _ => []

/-- The queries that several phrases declare. -/
def queryNamesAll : List Phrase → List Ident
  | [] => []
  | p :: ps => p.queryNames ++ queryNamesAll ps

end

mutual

/-- The queries that a phrase declares are declared in it. -/
theorem declared_of_mem_queryNames (p : Phrase) : ∀ i ∈ p.queryNames, i ∈ p.declared := by
  cases p with
  | word _ | parameter _ => exact fun _ hi => nomatch hi
  | name role parts =>
      cases role with
      | queryName =>
          rcases parts with _ | ⟨i, _ | ⟨j, rest⟩⟩
          · exact fun _ hi => nomatch hi
          · exact fun _ hi => hi
          · exact fun _ hi => nomatch hi
      | table | column | bareColumn | tableAlias | other => exact fun _ hi => nomatch hi
  | group sort separator parts =>
      cases sort with
      | plain => exact declared_of_mem_queryNamesAll parts
      | query | selection => exact fun _ hi => nomatch hi

/-- So are those of several phrases. -/
theorem declared_of_mem_queryNamesAll (ps : List Phrase) :
    ∀ i ∈ queryNamesAll ps, i ∈ declaredAll ps := by
  cases ps with
  | nil => exact fun _ hi => nomatch hi
  | cons p ps =>
      intro i hi
      rw [declaredAll_cons, List.mem_append]
      rcases List.mem_append.mp hi with hi | hi
      · exact .inl (declared_of_mem_queryNames p i hi)
      · exact .inr (declared_of_mem_queryNamesAll ps i hi)

end

/-- Whether the declared queries of a query can be read in all of them. -/
def isRecursive : List Phrase → Bool
  | word "WITH" :: word "RECURSIVE" :: _ => true
  | _ => false

/-- Whether some parts are a query that is used as a table: in a list of words it comes first only
there, since an operand in parentheses is a group of its own. -/
def isDerivedTable (separator : String) : List Phrase → Bool
  | group .plain _ [word "(", group .query _ _, word ")"] :: _ => separator == " "
  | _ => false

/-- The word in front of the tables that are read. -/
def opener : List Phrase → String
  | word "DELETE" :: _ => "USING"
  | _ => "FROM"

end Phrase

/-! ## Scopes -/

/-- What names can refer to. -/
structure Scope where
  sources : List (List Source)
  queries : List Ident
  opener : String
  reads : Bool
  selected : List Source
  deriving Repr

namespace Scope

open Phrase

/-- The scope of a statement. -/
def outermost : Scope := ⟨[], [], "FROM", false, []⟩

/-- The scope inside of a group.  A query that is used as a table does not see the tables beside
it. -/
def inside (s : Scope) (sort : GroupSort) (separator : String) (parts : List Phrase) : Scope :=
  match sort with
  | .plain => if isDerivedTable separator parts then { s with sources := s.sources.tail } else s
  | .query =>
      { s with
        queries := if isRecursive parts then queryNamesAll parts ++ s.queries else s.queries
        selected := [] }
  | .selection =>
      { s with
        sources := sourcesOf parts :: s.sources
        opener := Phrase.opener parts
        reads := false
        selected := [] }

/-- The scope after a part of a group.  What is lateral sees the tables beside it. -/
def after (s : Scope) : Phrase → Scope
  | word k =>
      if k == s.opener then { s with reads := true }
      else if k == "ORDER" then { s with sources := s.selected :: s.sources }
      else if k == "LATERAL" then { s with sources := s.sources.head?.toList ++ s.sources }
      else s
  -- A declared query can be read once its declaration is over, and not in it.
  | group .plain _ parts => { s with queries := queryNamesAll parts ++ s.queries }
  | group .selection _ parts => { s with selected := sourcesOf parts }
  | _ => s

/-- Whether the innermost selection that has a table of some name has it by another name. -/
def aliases (s : Scope) (i : Ident) : Bool :=
  (s.sources.find? (·.any (·.name.same i))).any (·.any fun t => t.isAlias && t.name.same i)

/-- Whether a name refers to what the statement declares. -/
def shields (s : Scope) (l : Leaf Empty) : Bool :=
  match l with
  | .relation parts =>
      s.reads && parts.length == 1 && l.referred?.any fun i => s.queries.any (·.same i)
  | .compound _ => l.referred?.any s.aliases
  | .placeholder _ | .declaration _ => false

/-- Everything that a scope has from the statement is among some declared words. -/
structure Within (s : Scope) (declared : List Ident) : Prop where
  sources : ∀ level ∈ s.sources, ∀ t ∈ level, t.isAlias = true → t.name ∈ declared
  queries : ∀ i ∈ s.queries, i ∈ declared
  selected : ∀ t ∈ s.selected, t.isAlias = true → t.name ∈ declared

theorem within_outermost (declared : List Ident) : outermost.Within declared :=
  ⟨List.forall_mem_nil _, List.forall_mem_nil _, List.forall_mem_nil _⟩

namespace Within

variable {s : Scope} {declared : List Ident}

/-- The scope inside of a group has nothing that is declared nowhere. -/
theorem inside (h : s.Within declared) (sort : GroupSort) (separator : String)
    {parts : List Phrase} (hparts : ∀ i ∈ declaredAll parts, i ∈ declared) :
    (s.inside sort separator parts).Within declared := by
  cases sort with
  | plain =>
      unfold Scope.inside
      dsimp only
      split
      · exact ⟨fun level hlevel => h.sources level (List.mem_of_mem_tail hlevel), h.queries,
          h.selected⟩
      · exact h
  | query =>
      refine ⟨h.sources, fun i hi => ?_, List.forall_mem_nil _⟩
      unfold Scope.inside at hi
      dsimp only at hi
      split at hi
      · rcases List.mem_append.mp hi with hi | hi
        · exact hparts i (declared_of_mem_queryNamesAll parts i hi)
        · exact h.queries i hi
      · exact h.queries i hi
  | selection =>
      refine ⟨fun level hlevel => ?_, h.queries, List.forall_mem_nil _⟩
      rcases List.mem_cons.mp hlevel with rfl | hlevel
      · exact fun t ht halias => hparts _ (declared_of_mem_sourcesOf parts t ht halias)
      · exact h.sources level hlevel

/-- The scope after a part has nothing that is declared nowhere. -/
theorem after (h : s.Within declared) {p : Phrase} (hp : ∀ i ∈ p.declared, i ∈ declared) :
    (s.after p).Within declared := by
  cases p with
  | name role parts => exact h
  | parameter mark => exact h
  | word k =>
      unfold Scope.after
      dsimp only
      split
      · exact ⟨h.sources, h.queries, h.selected⟩
      split
      · exact ⟨List.forall_mem_cons.mpr ⟨h.selected, h.sources⟩, h.queries, h.selected⟩
      split
      · refine ⟨fun level hlevel => ?_, h.queries, h.selected⟩
        rcases List.mem_append.mp hlevel with hlevel | hlevel
        · exact h.sources level (List.mem_of_mem_head? (Option.mem_toList.mp hlevel))
        · exact h.sources level hlevel
      · exact h
  | group sort separator parts =>
      cases sort with
      | plain =>
          refine ⟨h.sources, fun i hi => ?_, h.selected⟩
          rcases List.mem_append.mp hi with hi | hi
          · exact hp i (declared_of_mem_queryNamesAll parts i hi)
          · exact h.queries i hi
      | query => exact h
      | selection =>
          exact ⟨h.sources, h.queries,
            fun t ht halias => hp _ (declared_of_mem_sourcesOf parts t ht halias)⟩

/-- The word for a table in a shielded name is the name of something declared. -/
theorem exists_of_shields (h : s.Within declared) {l : Leaf Empty} (hl : s.shields l = true) :
    ∃ i ∈ l.referred?, ∃ d ∈ declared, d.same i = true := by
  unfold shields at hl
  split at hl
  · simp only [Bool.and_eq_true, Option.any_eq_true, List.any_eq_true] at hl
    rcases hl with ⟨-, i, hi, d, hd, hsame⟩
    exact ⟨i, hi, d, h.queries d hd, hsame⟩
  · rcases (Option.any_eq_true _ _).mp hl with ⟨i, hi, haliases⟩
    rcases (Option.any_eq_true _ _).mp haliases with ⟨level, hlevel, hlevel'⟩
    rcases List.any_eq_true.mp hlevel' with ⟨t, ht, hsame⟩
    rw [Bool.and_eq_true] at hsame
    exact ⟨i, hi, t.name, h.sources level (List.mem_of_find?_eq_some hlevel) t ht hsame.1, hsame.2⟩
  · cases hl
  · cases hl

end Within

end Scope

namespace Phrase

mutual

/-- The names of a phrase where they stand. -/
def uses (s : Scope) : Phrase → List (NameUse Empty)
  | name role parts =>
      ((nameTree role parts).leaves.filter Leaf.isName).map fun l => ⟨l, s.shields l⟩
  | group sort separator parts => usesAll (s.inside sort separator parts) parts
  | word _ => []
  | parameter _ => []

/-- The names of several phrases, one after the other. -/
def usesAll (s : Scope) : List Phrase → List (NameUse Empty)
  | [] => []
  | p :: ps => p.uses s ++ usesAll (s.after p) ps

end

mutual

/-- The uses of names in a phrase are its names. -/
theorem map_name_uses (p : Phrase) (s : Scope) :
    (p.uses s).map (·.name) = p.tree.leaves.filter Leaf.isName := by
  cases p with
  | word _ | parameter _ => rfl
  | name role parts =>
      show (((nameTree role parts).leaves.filter Leaf.isName).map fun l =>
        (⟨l, s.shields l⟩ : NameUse Empty)).map (·.name) = _
      rw [List.map_map]
      exact List.map_id' _
  | group sort separator parts => exact map_name_usesAll parts (s.inside sort separator parts)

/-- The names used in several phrases are those of their trees. -/
theorem map_name_usesAll (ps : List Phrase) (s : Scope) :
    (usesAll s ps).map (·.name) = (Tree.leavesAll (treeAll ps)).filter Leaf.isName := by
  cases ps with
  | nil => rfl
  | cons p ps =>
      show (p.uses s ++ usesAll (s.after p) ps).map (·.name) =
        (p.tree.leaves ++ Tree.leavesAll (treeAll ps)).filter Leaf.isName
      rw [List.map_append, map_name_uses p s, map_name_usesAll ps (s.after p), List.filter_append]

end

variable {declared : List Ident}

mutual

/-- The word for a table in a shielded name is the name of something that the phrase or its scope
declares. -/
theorem exists_of_isShielded (p : Phrase) {s : Scope} (hs : s.Within declared)
    (hp : ∀ i ∈ p.declared, i ∈ declared) :
    ∀ use ∈ p.uses s, use.isShielded = true →
      ∃ i ∈ use.name.referred?, ∃ d ∈ declared, d.same i = true := by
  cases p with
  | word _ | parameter _ => exact fun _ huse => nomatch huse
  | name role parts =>
      intro use huse hshielded
      rcases List.mem_map.mp huse with ⟨l, -, rfl⟩
      exact hs.exists_of_shields hshielded
  | group sort separator parts =>
      exact exists_of_isShieldedAll parts (hs.inside sort separator hp) hp

/-- A shielded name of several phrases refers to something declared. -/
theorem exists_of_isShieldedAll (ps : List Phrase) {s : Scope} (hs : s.Within declared)
    (hps : ∀ i ∈ declaredAll ps, i ∈ declared) :
    ∀ use ∈ usesAll s ps, use.isShielded = true →
      ∃ i ∈ use.name.referred?, ∃ d ∈ declared, d.same i = true := by
  cases ps with
  | nil => exact fun _ huse => nomatch huse
  | cons p ps =>
      rw [declaredAll_cons, List.forall_mem_append] at hps
      intro use huse
      rcases List.mem_append.mp huse with huse | huse
      · exact exists_of_isShielded p hs hps.1 use huse
      · exact exists_of_isShieldedAll ps (hs.after hps.1) hps.2 use huse

end

end Phrase

/-! ## Commands -/

section Leaves

open Phrase Sql.Tree

theorem leavesAll_treeAll_append (ps qs : List Phrase) :
    leavesAll (treeAll (ps ++ qs)) = leavesAll (treeAll ps) ++ leavesAll (treeAll qs) := by
  induction ps with
  | nil => rfl
  | cons p ps ih =>
      show p.tree.leaves ++ leavesAll (treeAll (ps ++ qs)) =
        (p.tree.leaves ++ leavesAll (treeAll ps)) ++ leavesAll (treeAll qs)
      rw [ih, List.append_assoc]

/-- The leaves of a page clause come in the order in which it is written. -/
theorem leavesAll_phrases (page : Option (PageClause Phrase)) :
    leavesAll (treeAll ((page.map PageClause.phrases).getD [])) = (pageTree page).leaves := by
  rcases page with _ | ⟨limit, offset, groups⟩ | ⟨offset, limit⟩
  · rfl
  · have hlimit : leavesAll (treeAll (limit.map fun l => spaced [word "LIMIT", l]).toList) =
        (optionTree limit).leaves := by
      cases limit <;> simp [spaced, optionTree, treeAll, tree, leaves, leavesAll]
    have hoffset : leavesAll (treeAll (offset.map Offset.phrase).toList) =
        (offsetTree offset).leaves := by
      rcases offset with _ | ⟨value, _ | unit⟩ <;>
        simp [Offset.phrase, spaced, offsetTree, treeAll, tree, leaves, leavesAll]
    have hgroups : leavesAll (treeAll
        (if groups.isEmpty then [] else [spaced [word "BY", listed groups]])) =
          leavesAll (treeAll groups) := by
      cases groups <;> simp [spaced, listed, treeAll, tree, leaves, leavesAll]
    show leavesAll (treeAll (_ ++ _ ++ _)) = _
    rw [leavesAll_treeAll_append, leavesAll_treeAll_append, hlimit, hoffset, hgroups]
    simp [pageTree, leaves, leavesAll]
  · simp [PageClause.phrases, spaced, listed, pageTree, treeAll, tree, leaves, leavesAll]

/-- The leaves of a standard limit are those of its number. -/
theorem leavesAll_fetch (fetch : Option (Fetch Phrase)) :
    leavesAll (treeAll (fetch.map Fetch.phrase).toList) = (fetchTree fetch).leaves := by
  rcases fetch with _ | ⟨_ | quantity, _ | _, withTies⟩ <;>
    simp [Fetch.phrase, spaced, fetchTree, optionTree, treeAll, tree, leaves, leavesAll]

/-- The leaves of the phrase of a command are those of the command. -/
theorem Command.leaves_phrase (c : Command) : c.phrase.tree.leaves = c.tree.leaves := by
  cases c with
  | other p => exact (List.append_nil _).symm
  | query q =>
      show leavesAll (treeAll (q.body ++ _ ++ _ ++ q.locks)) = _
      rw [leavesAll_treeAll_append, leavesAll_treeAll_append, leavesAll_treeAll_append,
        leavesAll_phrases, leavesAll_fetch]
      simp [Command.tree, leaves, leavesAll]

end Leaves

/-- The scopes of the commands of the reader. -/
def readerScoping (dialect : Dialect) : Scoping (readerReading dialect) where
  uses c := c.phrase.uses .outermost

/-- The names that are used are those of the command, and a shielded one refers to something
declared. -/
theorem readerScoping_lawful (dialect : Dialect) : (readerScoping dialect).Lawful where
  map_name_uses c := by
    show (c.phrase.uses .outermost).map (·.name) = c.tree.leaves.filter Leaf.isName
    rw [Phrase.map_name_uses, c.leaves_phrase]
  exists_of_isShielded c := by
    have hdeclared : c.phrase.declared = (readerReading dialect).declared c :=
      congrArg (·.filterMap Leaf.declared?) c.leaves_phrase
    rw [← hdeclared]
    exact Phrase.exists_of_isShielded c.phrase (Scope.within_outermost _) fun _ h => h

end Sql

end ShardedSql
