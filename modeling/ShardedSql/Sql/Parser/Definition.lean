import ShardedSql.Sql.Parser.Change

/-!
# Definitions

Commands that create, change, empty and drop tables, views and indexes, and those that bound
transactions.
-/

namespace ShardedSql.Sql

open Phrase
open ShardedSql.Sql.Parser

namespace Grammar

/-- What happens to dependent objects, if it is said. -/
def dependents : Parser (List Phrase) := do
  return ((← tryOneOf ["CASCADE", "RESTRICT"]).map word).toList

/-! ## Columns -/

/-- What a reference does when its target changes, at most `fuel` clauses. -/
def referenceActions : (fuel : Nat) → Parser (List Phrase)
  | 0 => return []
  | fuel + 1 => do
      if ← tryWord "ON" then
        let event ← oneOf ["DELETE", "UPDATE"]
        let action ← (do
          match ← oneOf ["CASCADE", "RESTRICT", "NO", "SET"] with
          | "NO" =>
              keyword "ACTION"
              return "NO ACTION"
          | "SET" => return "SET " ++ (← oneOf ["NULL", "DEFAULT"])
          | k => return k)
        return spaced [word "ON", word event, word action] :: (← referenceActions fuel)
      else return []

/-- A reference to another table, the keyword being taken. -/
def reference : Parser Phrase := do
  let target ← dottedName
  let columns ← if (← peek) == some (.mark "(") then
      (fun p => [word " ", p]) <$> columnNames
    else pure []
  return spaced (word "REFERENCES" :: joined (name .other target :: columns) ::
    (← referenceActions (← get).length))

/-- One option of a column, if there is one. -/
def columnOption (g : Grammar) : Parser (Option Phrase) := do
  if ← tryWords ["NOT", "NULL"] then return some (word "NOT NULL")
  else if ← tryWord "NULL" then return some (word "NULL")
  else if ← tryWord "DEFAULT" then return some (spaced [word "DEFAULT", ← g.value])
  else if ← tryWords ["PRIMARY", "KEY"] then return some (word "PRIMARY KEY")
  else if ← tryWord "UNIQUE" then return some (word "UNIQUE")
  else if ← tryWord "CHECK" then
    return some (spaced [word "CHECK", ← inParentheses g.value])
  else if ← tryWord "REFERENCES" then return some (← reference)
  else if ← tryWord "AUTO_INCREMENT" then return some (word "AUTO_INCREMENT")
  else return none

/-- The options of a column, at most `fuel` of them. -/
def columnOptions (g : Grammar) : (fuel : Nat) → Parser (List Phrase)
  | 0 => return []
  | fuel + 1 => do
      let constraint ← (do
        if ← tryWord "CONSTRAINT" then return [word "CONSTRAINT", plainName (← ident)]
        else return [])
      match ← g.columnOption with
      | some p => return spaced (constraint ++ [p]) :: (← columnOptions g fuel)
      | none => if constraint.isEmpty then return [] else failure

/-- A column with its type and options. -/
def columnDefinition (g : Grammar) : Parser Phrase := do
  let i ← ident
  let type ← typeName
  return spaced (plainName i :: type :: (← g.columnOptions (← get).length))

/-- A constraint on a table, if one comes next. -/
def tableConstraint (g : Grammar) : Parser Phrase := do
  let constraint ← (do
    if ← tryWord "CONSTRAINT" then return [word "CONSTRAINT", plainName (← ident)] else return [])
  if ← tryWords ["PRIMARY", "KEY"] then
    return spaced (constraint ++ [word "PRIMARY KEY", ← columnNames])
  else if ← tryWord "UNIQUE" then
    return spaced (constraint ++ [word "UNIQUE", ← columnNames])
  else if ← tryWords ["FOREIGN", "KEY"] then
    let columns ← columnNames
    keyword "REFERENCES"
    let target ← dottedName
    let others ← (fun p => [p]) <$> columnNames <|> pure []
    return spaced (constraint ++ [word "FOREIGN KEY", columns, word "REFERENCES",
      joined (name .other target :: others)] ++ (← referenceActions (← get).length))
  else if ← tryWord "CHECK" then
    return spaced (constraint ++ [word "CHECK", ← inParentheses g.value])
  else failure

/-! ## Tables and indexes -/

/-- A table is created; the words up to its name are taken. -/
def tableCreation (g : Grammar) (words : List Phrase) : Parser Phrase := do
  let condition ← keptWords ["IF", "NOT", "EXISTS"]
  let target ← dottedName
  let columns ← if (← peek) == some (.mark "(") then
      (fun p => [p]) <$> inParentheses (list (g.tableConstraint <|> g.columnDefinition))
    else pure []
  let source ← clause "AS" g.queryPhrase
  return spaced (word "CREATE" :: words ++ condition ++ name .table target :: columns ++ source)

/-- An index is created; the words up to its name are taken. -/
def indexCreation (g : Grammar) (words : List Phrase) : Parser Phrase := do
  let concurrently ← keptWord "CONCURRENTLY"
  let condition ← keptWords ["IF", "NOT", "EXISTS"]
  let index ← if (← peekWords 1) == ["ON"] then pure []
    else (fun p => [name .other p]) <$> dottedName
  keyword "ON"
  let target ← dottedName
  let method ← (do
    if ← tryWord "USING" then
      let i ← ident
      let known := i.keyword ∈ ["BTREE", "HASH", "GIN", "GIST", "SPGIST", "BRIN", "BLOOM"]
      return [word " USING ", if known then word i.keyword else plainName i, word " "]
    else return [])
  let columns ← inParentheses (list g.orderItem)
  let included ← clause "INCLUDE" columnNames
  let filter ← clause "WHERE" g.value
  return spaced (word "CREATE" :: words ++ concurrently ++ condition ++ index ++
    word "ON" :: joined (name .table target :: method ++ [columns]) :: included ++ filter)

/-- A view is created; the words up to its name are taken. -/
def viewCreation (g : Grammar) (words : List Phrase) : Parser Phrase := do
  let condition ← keptWords ["IF", "NOT", "EXISTS"]
  let view ← dottedName
  let columns ← if (← peek) == some (.mark "(") then (fun p => [p]) <$> columnNames else pure []
  keyword "AS"
  return spaced (word "CREATE" :: words ++ condition ++ name .other view :: columns ++
    [word "AS", ← g.queryPhrase])

/-- A table, a view or an index is created, the keyword being taken. -/
def creation (g : Grammar) : Parser Phrase := do
  let replace ← keptWords ["OR", "REPLACE"]
  let temporary := ((← tryOneOf ["TEMPORARY", "TEMP"]).map fun _ => word "TEMPORARY").toList
  if ← tryWord "TABLE" then g.tableCreation (replace ++ temporary ++ [word "TABLE"])
  else if (← peekWords 1) == ["VIEW"] || (← peekWords 1) == ["MATERIALIZED"] then
    let materialized ← keptWord "MATERIALIZED"
    keyword "VIEW"
    g.viewCreation (replace ++ materialized ++ temporary ++ [word "VIEW"])
  else
    let unique ← keptWord "UNIQUE"
    keyword "INDEX"
    g.indexCreation (unique ++ [word "INDEX"])

/-- Something is dropped, the keyword being taken. -/
def removal : Parser Phrase := do
  let temporary ← (do
    if ← tryWord "TEMPORARY" then return [word "TEMPORARY"] else return [])
  let sort ← oneOf ["TABLE", "VIEW", "INDEX", "SCHEMA", "SEQUENCE"]
  let condition ← keptWords ["IF", "EXISTS"]
  let names ← list (name .other <$> dottedName)
  return spaced (word "DROP" :: temporary ++ word sort :: condition ++ names :: (← dependents))

/-- Tables are emptied, the keyword being taken. -/
def emptying : Parser Phrase := do
  let table ← keptWord "TABLE"
  let names ← list (do
    let only ← keptWord "ONLY"
    return spaced (only ++ [name .table (← dottedName)]))
  let identity ← (do
    match ← tryOneOf ["RESTART", "CONTINUE"] with
    | some k =>
        keyword "IDENTITY"
        return [word k, word "IDENTITY"]
    | none => return [])
  return spaced (word "TRUNCATE" :: table ++ names :: identity ++ (← dependents))

/-- A change of a column, its name being taken. -/
def columnChange (g : Grammar) : Parser (List Phrase) := do
  if ← tryWords ["SET", "NOT", "NULL"] then return [word "SET NOT NULL"]
  else if ← tryWords ["DROP", "NOT", "NULL"] then return [word "DROP NOT NULL"]
  else if ← tryWords ["SET", "DEFAULT"] then return [word "SET DEFAULT", ← g.value]
  else if ← tryWords ["DROP", "DEFAULT"] then return [word "DROP DEFAULT"]
  else
    let words ← (do
      if ← tryWords ["SET", "DATA", "TYPE"] then return "SET DATA TYPE"
      else
        keyword "TYPE"
        return "TYPE")
    let type ← typeName
    return [word words, type] ++ (← clause "USING" g.value)

/-- One change of a table. -/
def tableChange (g : Grammar) : Parser Phrase := do
  if ← tryWord "ADD" then
    (do return spaced [word "ADD", ← g.tableConstraint]) <|> do
      let column ← keptWord "COLUMN"
      let condition ← keptWords ["IF", "NOT", "EXISTS"]
      return spaced (word "ADD" :: column ++ condition ++ [← g.columnDefinition])
  else if ← tryWord "RENAME" then
    if ← tryWord "TO" then return spaced [word "RENAME TO", name .other (← dottedName)]
    else
      discard (tryWord "COLUMN")
      let old ← ident
      keyword "TO"
      return spaced [word "RENAME COLUMN", plainName old, word "TO", plainName (← ident)]
  else if ← tryWord "DROP" then
    if ← tryWord "CONSTRAINT" then
      let condition ← keptWords ["IF", "EXISTS"]
      let constraint := plainName (← ident)
      return spaced (word "DROP CONSTRAINT" :: condition ++ constraint :: (← dependents))
    else
      let column ← keptWord "COLUMN"
      let condition ← keptWords ["IF", "EXISTS"]
      let target := plainName (← ident)
      return spaced (word "DROP" :: column ++ condition ++ target :: (← dependents))
  else
    keyword "ALTER"
    discard (tryWord "COLUMN")
    let column := plainName (← ident)
    return spaced (word "ALTER COLUMN" :: column :: (← g.columnChange))

/-- A table is changed, the keyword being taken. -/
def alteration (g : Grammar) : Parser Phrase := do
  keyword "TABLE"
  let condition ← keptWords ["IF", "EXISTS"]
  let only ← keptWord "ONLY"
  let target ← dottedName
  let changes ← list g.tableChange
  return spaced (word "ALTER TABLE" :: condition ++ only ++ [name .table target, changes])

/-! ## Transactions and settings -/

/-- The beginning of a transaction, the keyword being taken. -/
def beginning : Parser Phrase := do
  return spaced (word "BEGIN" :: ((← tryOneOf ["TRANSACTION", "WORK"]).map word).toList)

/-- The end of a transaction, or the return to a point in it, the keyword being taken. -/
def ending (k : String) : Parser Phrase := do
  discard (tryOneOf ["TRANSACTION", "WORK"])
  if k == "ROLLBACK" && (← tryWord "TO") then
    discard (tryWord "SAVEPOINT")
    return spaced [word "ROLLBACK TO SAVEPOINT", plainName (← ident)]
  else return word k

/-- The change of a setting, the keyword being taken. -/
def setting (g : Grammar) : Parser Phrase := do
  let scope ← tryOneOf ["SESSION", "LOCAL", "GLOBAL"]
  let target := name .other (← dottedName)
  if ← tryWord "TO" then pure () else mark "="
  return spaced (word "SET" :: (scope.map word).toList ++ [target, word "=", ← g.values])

end Grammar

end ShardedSql.Sql
