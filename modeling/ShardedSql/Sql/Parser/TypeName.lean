import ShardedSql.Sql.Parser

/-!
# Type names

Known types are written in upper case, others as they are.
-/

namespace ShardedSql.Sql.Parser

open Phrase

/-- Types that consist of one word and may have arguments. -/
def simpleTypes : List String :=
  ["INT", "INTEGER", "BIGINT", "SMALLINT", "TINYINT", "MEDIUMINT", "INT2", "INT4", "INT8", "TEXT",
    "VARCHAR", "NVARCHAR", "CHAR", "DATE", "DATETIME", "TIMESTAMPTZ", "TIMETZ", "BOOLEAN", "BOOL",
    "FLOAT", "FLOAT4", "FLOAT8", "REAL", "NUMERIC", "DECIMAL", "DEC", "JSON", "JSONB", "UUID",
    "BYTEA", "BLOB", "BINARY", "VARBINARY", "CLOB", "BIT", "REGCLASS", "TINYTEXT", "MEDIUMTEXT",
    "LONGTEXT", "TINYBLOB", "MEDIUMBLOB", "LONGBLOB", "STRING", "BYTES", "HUGEINT"]

/-- One number or word among the arguments of a type. -/
def typeArgument : Parser Phrase := do
  match ← take with
  | .number n => return word n
  | .word i => return word i.text
  | .string q s => return word (quotedText q s)
  | _ => failure

/-- The arguments of a type, if there are any. -/
def typeArguments : Parser (List Phrase) := do
  if ← tryMark "(" then
    let arguments ← items typeArgument
    mark ")"
    return [word "(", group .plain "," arguments, word ")"]
  else return []

/-- The words about time zones after a type of times. -/
def zoneWords : Parser (List Phrase) := do
  let withZone ← keptWords ["WITH", "TIME", "ZONE"]
  if withZone.isEmpty then keptWords ["WITHOUT", "TIME", "ZONE"] else return withZone

/-- A known type. -/
def knownType : Parser Phrase := do
  let i ← ident
  let k := i.keyword
  if k ∈ ["TIMESTAMP", "TIME"] then
    let arguments ← typeArguments
    return spaced (joined (word k :: arguments) :: (← zoneWords))
  else if k == "DOUBLE" then return spaced (word k :: (← keptWord "PRECISION"))
  else if k ∈ ["CHARACTER", "CHAR"] then
    if ← tryWord "VARYING" then
      return joined (word k :: word " VARYING" :: (← typeArguments))
    else return joined (word k :: (← typeArguments))
  else if k ∈ simpleTypes then return joined (word k :: (← typeArguments))
  else failure

/-- A type that is not known. -/
def customType : Parser Phrase := do
  let parts ← dottedName
  if ← tryMark "(" then
    let arguments ← items typeArgument
    mark ")"
    return joined [name .other parts, parenthesised (listed arguments)]
  else return name .other parts

/-- Pairs of square brackets after a type, at most `fuel` of them. -/
def arraySuffix : (fuel : Nat) → Parser (List Phrase)
  | 0 => return []
  | fuel + 1 => do
      if ← tryMark "[" then
        match ← take with
        | .mark "]" => return word "[]" :: (← arraySuffix fuel)
        | .number n =>
            mark "]"
            return word ("[" ++ n ++ "]") :: (← arraySuffix fuel)
        | _ => failure
      else return []

/-- The type of intervals. -/
def intervalType : Parser Phrase := do
  keyword "INTERVAL"
  return word "INTERVAL"

/-- A type. -/
def typeName : Parser Phrase := do
  let base ← intervalType <|> knownType <|> customType
  return joined (base :: (← arraySuffix (← get).length))

end ShardedSql.Sql.Parser
