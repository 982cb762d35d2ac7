import ShardedSql.Sql.Parser.Query

/-!
# Changes

Insertions, updates and deletions.
-/

namespace ShardedSql.Sql

open Phrase
open ShardedSql.Sql.Parser

namespace Grammar

/-- The target of an assignment: a column, or several in parentheses. -/
def assignmentTarget : Parser Phrase := do
  if (← peek) == some (.mark "(") then inParentheses (list (name .other <$> dottedName))
  else name .other <$> dottedName

/-- An assignment. -/
def assignment (g : Grammar) : Parser Phrase := do
  let target ← assignmentTarget
  mark "="
  return spaced [target, word "=", ← g.value]

/-- Assignments separated by commas. -/
def assignments (g : Grammar) : Parser Phrase := list g.assignment

/-- The columns that are handed back, if there are any. -/
def returning (g : Grammar) : Parser (List Phrase) :=
  clause "RETURNING" (list g.selectItem)

/-- Names in parentheses. -/
def columnNames : Parser Phrase :=
  inParentheses (list (plainName <$> ident))

/-- What a conflict is about, joined to the words in front of it. -/
def conflictTarget : Parser Phrase := do
  if (← peek) == some (.mark "(") then return joined [word "ON CONFLICT", ← columnNames]
  else if ← tryWords ["ON", "CONSTRAINT"] then
    return spaced [word "ON CONFLICT ON CONSTRAINT", name .other (← dottedName)]
  else return word "ON CONFLICT"

/-- What happens to conflicting rows, if it is said. -/
def onConflict (g : Grammar) : Parser (List Phrase) := do
  if ← tryWords ["ON", "CONFLICT"] then
    let target ← conflictTarget
    keyword "DO"
    if ← tryWord "NOTHING" then return [target, word "DO NOTHING"]
    else
      keyword "UPDATE"
      keyword "SET"
      let changes ← g.assignments
      return [target, word "DO UPDATE SET", changes] ++ (← clause "WHERE" g.value)
  else if ← tryWords ["ON", "DUPLICATE", "KEY", "UPDATE"] then
    return [word "ON DUPLICATE KEY UPDATE", ← g.assignments]
  else return []

/-- The columns that an insertion fills, if they are named. -/
def insertColumns : Parser (List Phrase) := do
  match (← get).take 2 with
  | [.mark "(", .word i] =>
      if i.keyword == "SELECT" then return []
      else orNothing ((fun p => [p]) <$> columnNames)
  | _ => return []

/-- The rows of an insertion. -/
def insertSource (g : Grammar) (columns : List Phrase) : Parser (List Phrase) := do
  if ← tryWords ["DEFAULT", "VALUES"] then
    return columns ++ (if columns.isEmpty then [word "DEFAULT VALUES"] else [])
  else if g.dialect != .postgres && (← peekWords 1) == ["SET"] then
    keyword "SET"
    return columns ++ [word "SET", ← g.assignments]
  else return columns ++ [← g.queryPhrase]

/-- The words that start an insertion. -/
def insertWords (g : Grammar) : Parser (List Phrase) := do
  if ← tryWord "INSERT" then
    let ignore ← if g.dialect == .mysql then keptWord "IGNORE" else pure []
    let into ← keptWord "INTO"
    return word "INSERT" :: ignore ++ into ++ (← keptWord "TABLE")
  else if g.dialect == .postgres then failure
  else
    keyword "REPLACE"
    let into ← keptWord "INTO"
    return word "REPLACE" :: into ++ (← keptWord "TABLE")

/-- An insertion. -/
def insertion (g : Grammar) : Parser Phrase := do
  let words ← g.insertWords
  let target ← dottedName
  let otherName ← if g.dialect == .postgres && (← tryWord "AS") then
      (fun i => [word "AS", name .tableAlias [i]]) <$> ident
    else pure []
  let columns ← insertColumns
  let source ← g.insertSource columns
  let conflict ← g.onConflict
  let returning ← g.returning
  return group .selection " "
    (words ++ name .table target :: otherName ++ source ++ conflict ++ returning)

/-- An update. -/
def update (g : Grammar) : Parser Phrase := do
  keyword "UPDATE"
  let (_, target) ← g.nestedTables
  let before ← clause "FROM" g.tableList
  keyword "SET"
  let changes ← g.assignments
  let after ← if before.isEmpty then clause "FROM" g.tableList else pure []
  let condition ← clause "WHERE" g.value
  let returning ← g.returning
  let limit ← clause "LIMIT" g.value
  return group .selection " "
    (word "UPDATE" :: target :: before ++ word "SET" :: changes :: after ++ condition ++
      returning ++ limit)

/-- The tables in front of the word `FROM` of a deletion, and that word. -/
def deleteWords (g : Grammar) : Parser (List Phrase) := do
  if ← tryWord "FROM" then return [word "FROM"]
  else if g.dialect == .generic then return []
  else
    let names ← list (name .other <$> dottedName)
    keyword "FROM"
    return [names, word "FROM"]

/-- A deletion. -/
def deletion (g : Grammar) : Parser Phrase := do
  keyword "DELETE"
  let words ← g.deleteWords
  let tables ← g.tableList
  let others ← clause "USING" g.tableList
  let condition ← clause "WHERE" g.value
  let returning ← g.returning
  let order ← g.orderBy
  let limit ← (do
    match ← clause "LIMIT" ((fun l => l.getD (word "ALL")) <$> g.limit) with
    | [_, .word "ALL"] => return []
    | l => return l)
  return group .selection " "
    (word "DELETE" :: words ++ tables :: others ++ condition ++ returning ++ order ++ limit)

/-- A change. -/
def nestedChange (g : Grammar) : Parser Phrase := do
  match ← peekWords 1 with
  | ["UPDATE"] => g.update
  | ["DELETE"] => g.deletion
  | _ => g.insertion

/-- How deep expressions and queries can be nested in each other. -/
def maxDepth : Nat := 49

/-- The grammar in which expressions and queries are nested at most `depth` times.  The fuel bounds
how often any construct is entered; each entry takes a token. -/
def ofDepth (dialect : Dialect) : (fuel depth : Nat) → Grammar
  | 0, _ => closed dialect
  | fuel + 1, depth =>
      { dialect
        expression := fun strength tokens =>
          match depth with
          | 0 => none
          | depth + 1 => (ofDepth dialect fuel depth).nestedExpression strength tokens
        query := fun tokens =>
          match depth with
          | 0 => none
          | depth + 1 => (ofDepth dialect fuel depth).nestedQuery tokens
        tables := fun tokens => (ofDepth dialect fuel depth).nestedTables tokens
        change := fun tokens => (ofDepth dialect fuel depth).nestedChange tokens }

end Grammar

end ShardedSql.Sql
