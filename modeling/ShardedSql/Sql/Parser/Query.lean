import ShardedSql.Sql.Parser.Expression

/-!
# Queries

Tables and their joins, selections, set operations, declared queries and page clauses.
-/

namespace ShardedSql.Sql

open Phrase
open ShardedSql.Sql.Parser

namespace Grammar

/-! ## Tables -/

/-- A column name that a table alias declares, with its type if there is one. -/
def aliasColumn : Parser Phrase := do
  let i ← ident
  match ← peek with
  | some (.word _) => return spaced [plainName i, ← typeName]
  | _ => return plainName i

/-- Another name of a table, if there is one. -/
def tableAlias : Parser (List Phrase) := do
  match ← otherName reservedForTables with
  | none => return []
  | some (introduced, i) =>
      let columns ← if (← peek) == some (.mark "(") then
          (fun p => [p]) <$> inParentheses (list aliasColumn)
        else pure []
      return (if introduced then [word "AS"] else []) ++ name .tableAlias [i] :: columns

/-- A table or a function that yields rows, by name. -/
def namedTable (g : Grammar) : Parser Phrase := do
  let parts ← dottedName
  let base ← if (← peek) == some (.mark "(") then
      (fun xs => joined [name .table parts, xs]) <$> g.arguments
    else pure (name .table parts)
  let ordinality ← keptWords ["WITH", "ORDINALITY"]
  return spaced (base :: ordinality ++ (← tableAlias))

/-- A query used as a table. -/
def derivedTable (g : Grammar) : Parser Phrase := do
  let q ← inParentheses g.queryPhrase
  return spaced (q :: (← tableAlias))

/-- Joined tables in parentheses. -/
def joinedTables (g : Grammar) : Parser Phrase := do
  let inner ← inParentheses do
    match ← g.tables with
    | (true, p) => return p
    | (false, _) => failure
  return spaced (inner :: (← tableAlias))

/-- A single table; the answer says whether it is a join in parentheses. -/
def table (g : Grammar) : Parser (Bool × Phrase) := do
  if ← tryWord "LATERAL" then
    return (false, spaced [word "LATERAL", ← g.derivedTable <|> g.namedTable])
  else if (← peek) == some (.mark "(") then
    ((false, ·) <$> g.derivedTable) <|> ((true, ·) <$> g.joinedTables)
  else return (false, ← g.namedTable)

/-- The words of a join, if one comes next. -/
def joinWords : Parser (Option (List String)) := do
  if ← tryWord "CROSS" then
    keyword "JOIN"
    return some ["CROSS JOIN"]
  else
    let natural ← tryWord "NATURAL"
    let lead := if natural then ["NATURAL"] else []
    match ← tryOneOf ["INNER", "JOIN", "LEFT", "RIGHT", "FULL"] with
    | some "JOIN" => return some (lead ++ ["JOIN"])
    | some "INNER" =>
        keyword "JOIN"
        return some (lead ++ ["INNER JOIN"])
    | some "FULL" =>
        discard (tryWord "OUTER")
        keyword "JOIN"
        return some (lead ++ ["FULL JOIN"])
    | some side =>
        let outer ← tryWord "OUTER"
        keyword "JOIN"
        return some (lead ++ [side] ++ (if outer then ["OUTER"] else []) ++ ["JOIN"])
    | none => if natural then failure else return none

/-- The condition of a join, if there is one. -/
def joinCondition (g : Grammar) : Parser (List Phrase) := do
  if ← tryWord "ON" then return [word "ON", ← g.value]
  else if ← tryWord "USING" then
    let columns ← inParentheses (list (name .other <$> dottedName))
    return [joined [word "USING", columns]]
  else return []

/-- The tables that are joined to the ones before, at most `fuel` of them. -/
def joins (g : Grammar) : (fuel : Nat) → Parser (List Phrase)
  | 0 => return []
  | fuel + 1 => do
      match ← joinWords with
      | none => return []
      | some words =>
          let (_, t) ← g.table
          let bare := words.head? == some "CROSS JOIN" || words.head? == some "NATURAL"
          let condition ← if bare then pure [] else g.joinCondition
          return spaced (words.map word ++ t :: condition) :: (← joins g fuel)

/-- A table with the tables joined to it; the answer says whether it is a join. -/
def nestedTables (g : Grammar) : Parser (Bool × Phrase) := do
  let (isJoin, first) ← g.table
  let js ← g.joins (← get).length
  return (isJoin || !js.isEmpty, spaced (first :: js))

/-- Tables separated by commas. -/
def tableList (g : Grammar) : Parser Phrase :=
  list (Prod.snd <$> g.nestedTables)

/-! ## Selections -/

/-- A name that is a misplaced keyword. -/
def isMisplaced : Phrase → Bool
  | .name .bareColumn [i] => i.quote.isNone && Text.lower i.text == "from"
  | _ => false

/-- One column of a selection; another name is always introduced when it is written. -/
def selectItem (g : Grammar) : Parser Phrase :=
  star <|> do
    let e ← g.value
    if isMisplaced e then failure
    else
      match ← otherName reservedForColumns with
      | some (_, i) => return spaced [e, word "AS", plainName i]
      | none => return e

/-- The removal of equal rows, if it is asked for. -/
def distinct (g : Grammar) : Parser (List Phrase) := do
  discard (tryWord "ALL")
  if ← tryWord "DISTINCT" then
    return word "DISTINCT" :: (← clause "ON" (inParentheses g.values))
  else return []

/-- A named window. -/
def namedWindow (g : Grammar) : Parser Phrase := do
  let i ← ident
  keyword "AS"
  return spaced [plainName i, word "AS", ← g.windowDefinition]

/-- The table that a selection fills, if there is one. -/
def selectionTarget : Parser (List Phrase) := do
  if ← tryWord "INTO" then
    let temporary ← tryOneOf ["TEMP", "TEMPORARY"]
    let unlogged ← keptWord "UNLOGGED"
    let table ← keptWord "TABLE"
    return word "INTO" :: (temporary.map fun _ => word "TEMPORARY").toList ++ unlogged ++ table ++
      [name .other (← dottedName)]
  else return []

/-- A selection. -/
def selection (g : Grammar) : Parser Phrase := do
  keyword "SELECT"
  let distinct ← g.distinct
  let columns ← if g.dialect.allowsNoColumns && (← peekWords 1) == ["FROM"] then pure []
    else (fun p => [p]) <$> list g.selectItem
  let target ← selectionTarget
  let tables ← clause "FROM" g.tableList
  let condition ← clause "WHERE" g.value
  let groups ← clause₂ "GROUP" "BY" g.values
  let having ← clause "HAVING" g.value
  let windows ← clause "WINDOW" (list g.namedWindow)
  return group .selection " "
    (word "SELECT" :: distinct ++ columns ++ target ++ tables ++ condition ++ groups ++ having ++
      windows)

/-! ## Queries -/

/-- Rows given by their values. -/
def givenRows (g : Grammar) : Parser Phrase := do
  keyword "VALUES"
  let rows ← list (do
    if g.dialect == .mysql && (← peekMarks) then
      mark "("
      mark ")"
      return word "()"
    else inParentheses g.values)
  return spaced [word "VALUES", rows]
where
  /-- Whether a pair of parentheses without content comes next. -/
  peekMarks : Parser Bool := do
    return (← get).take 2 == [.mark "(", .mark ")"]

/-- One operand of a set operation. -/
def queryOperand (g : Grammar) : Parser Phrase := do
  if (← peek) == some (.mark "(") then inParentheses g.queryPhrase
  else if (← peekWords 1) == ["VALUES"] then g.givenRows
  else if ← tryWord "TABLE" then return spaced [word "TABLE", name .other (← dottedName)]
  else g.selection

/-- The operands that are combined with the one before, at most `fuel` of them. -/
def setOperations (g : Grammar) : (fuel : Nat) → Parser (List Phrase)
  | 0 => return []
  | fuel + 1 => do
      match ← tryOneOf ["UNION", "EXCEPT", "INTERSECT", "MINUS"] with
      | none => return []
      | some operator =>
          let quantifier ← tryOneOf ["ALL", "DISTINCT"]
          let operand ← g.queryOperand
          return word operator :: (quantifier.map word).toList ++ operand ::
            (← setOperations g fuel)

/-- A declared query. -/
def declaredQuery (g : Grammar) : Parser Phrase := do
  let i ← ident
  let columns ← if (← peek) == some (.mark "(") then
      (fun p => [p]) <$> inParentheses (list aliasColumn)
    else pure []
  keyword "AS"
  let storage ← (do
    if ← tryWords ["NOT", "MATERIALIZED"] then return [word "NOT MATERIALIZED"]
    else keptWord "MATERIALIZED")
  let q ← inParentheses g.queryPhrase
  return spaced (name .queryName [i] :: columns ++ word "AS" :: storage ++ [q])

/-- The declared queries of a query, if there are any. -/
def declaredQueries (g : Grammar) : Parser (List Phrase) := do
  if ← tryWord "WITH" then
    let recursive ← keptWord "RECURSIVE"
    return word "WITH" :: recursive ++ [← list g.declaredQuery]
  else return []

/-- The part of a page clause that says how many rows are skipped, the keyword being taken. -/
def offset (g : Grammar) : Parser (Offset Phrase) := do
  let value ← g.value
  return { value, unit := ← tryOneOf ["ROW", "ROWS"] }

/-- The part of a page clause that says how many rows are kept, the keyword being taken. -/
def limit (g : Grammar) : Parser (Option Phrase) := do
  if ← tryWord "ALL" then return none else some <$> g.value

/-- The rest of a page clause after a limit. -/
def afterLimit (g : Grammar) (limit : Option Phrase) : Parser (Option (PageClause Phrase)) := do
  if ← tryWord "OFFSET" then return some (.bounds limit (some (← g.offset)) [])
  else return limit.map fun l => .bounds (some l) none []

/-- A page clause, if there is one. -/
def pageClause (g : Grammar) : Parser (Option (PageClause Phrase)) := do
  if ← tryWord "OFFSET" then
    let offset ← g.offset
    let limit ← if ← tryWord "LIMIT" then g.limit else pure none
    return some (.bounds limit (some offset) [])
  else if ← tryWord "LIMIT" then
    match ← g.limit with
    | some l =>
        if g.dialect.hasPageComma then
          if ← tryMark "," then return some (.commaBounds l (← g.value))
          else g.afterLimit (some l)
        else g.afterLimit (some l)
    | none => g.afterLimit none
  else return none

/-- A literal or a parameter. -/
def literal : Parser Phrase := do
  match ← take with
  | .number n => return word n
  | .string q s => return word (quotedText q s)
  | .literal text => return word text
  | .parameter m => return parameter m
  | _ => failure

/-- A standard row limit, if there is one. -/
def fetch : Parser (Option (Fetch Phrase)) := do
  if ← tryWord "FETCH" then
    discard (oneOf ["FIRST", "NEXT"])
    match ← tryOneOf ["ROW", "ROWS"] with
    | some _ => return some { quantity := none, percent := false, withTies := ← ties }
    | none =>
        let quantity ← literal
        let percent ← tryWord "PERCENT"
        discard (oneOf ["ROW", "ROWS"])
        return some { quantity := some quantity, percent, withTies := ← ties }
  else return none
where
  /-- Whether rows equal to the last one are included. -/
  ties : Parser Bool := do
    if ← tryWord "ONLY" then return false
    else if ← tryWords ["WITH", "TIES"] then return true
    else failure

/-- The locking clauses, at most `fuel` of them. -/
def locks : (fuel : Nat) → Parser (List Phrase)
  | 0 => return []
  | fuel + 1 => do
      if ← tryWord "FOR" then
        let strength ← oneOf ["UPDATE", "SHARE"]
        let tables ← clause "OF" (name .other <$> dottedName)
        let wait ← (do
          if ← tryWords ["SKIP", "LOCKED"] then return [word "SKIP LOCKED"]
          else keptWord "NOWAIT")
        return spaced (word "FOR" :: word strength :: tables ++ wait) :: (← locks fuel)
      else return []

/-- A query. -/
def nestedQuery (g : Grammar) : Parser Query := do
  let declared ← g.declaredQueries
  if (← peekWords 1).any (· ∈ ["INSERT", "UPDATE", "DELETE"]) then
    return { body := declared ++ [← g.change], page := none, fetch := none, locks := [] }
  else
    let first ← g.queryOperand
    let others ← g.setOperations (← get).length
    let order ← g.orderBy
    let page ← g.pageClause
    let fetch ← fetch
    let locks ← locks (← get).length
    return { body := declared ++ first :: others ++ order, page, fetch, locks }

end Grammar

end ShardedSql.Sql
