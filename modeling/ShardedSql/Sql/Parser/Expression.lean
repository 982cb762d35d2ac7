import ShardedSql.Sql.Parser.TypeName

/-!
# Expressions

Operands are joined by operators of different strength.  Since parentheses are kept, the strength
only decides where an expression ends.
-/

namespace ShardedSql.Sql

open Phrase
open ShardedSql.Sql.Parser

/-! ## Strength of operators

A greater number binds more strongly. -/

namespace Strength

def or : Nat := 10
def and : Nat := 20
def not : Nat := 30
def is : Nat := 40
def equal : Nat := 50
def between : Nat := 60
def other : Nat := 70
def plus : Nat := 80
def times : Nat := 90
def power : Nat := 100
def zone : Nat := 110
def collate : Nat := 120
def cast : Nat := 140

/-- The strength of an operator given by a mark; zero if it is none. -/
def ofMark (d : Dialect) (m : String) : Nat :=
  if m ∈ ["=", "==", "!=", "<>", "<", "<=", ">", ">=", "<=>", "~", "~*", "!~", "!~*", "~~", "~~*",
      "!~~", "!~~*"] then equal
  else if m ∈ ["+", "-"] then plus
  else if m ∈ ["*", "/", "%"] then times
  else if m == "^" then power
  else if m == "::" then cast
  else if m ∈ ["|", "||", "&", "&&", "#", "<<", ">>", "->", "->>", "#>", "#>>", "#-", "@>", "<@",
      "@@", "@?", "?", "?|", "?&", "^@"] then other
  else if d.hasFreeOperators && m != "!" && m != "!!" && isExtensible m then other
  else 0

/-- Words that compare two operands and may be negated. -/
def comparingWords : List String :=
  ["IN", "BETWEEN", "LIKE", "ILIKE", "SIMILAR", "REGEXP", "RLIKE"]

/-- The strength of an operator given by the keywords that come next; zero if it is none. -/
def ofWords : List String → Nat
  | "OR" :: _ => or
  | "XOR" :: _ => and
  | "AND" :: _ => and
  | "IS" :: _ => is
  | "ISNULL" :: _ => is
  | "NOTNULL" :: _ => is
  | "NOT" :: k :: _ => if k ∈ comparingWords then between else 0
  | "AT" :: "TIME" :: "ZONE" :: _ => zone
  | "COLLATE" :: _ => collate
  | "OVERLAPS" :: _ => between
  | "DIV" :: _ => times
  | k :: _ => if k ∈ comparingWords then between else 0
  | [] => 0

end Strength

namespace Grammar

/-- The strength of the operator that comes next; zero if there is none. -/
def nextStrength (g : Grammar) : Parser Nat := do
  match ← peek with
  | some (.mark m) => return Strength.ofMark g.dialect m
  | some (.word _) => return Strength.ofWords (← peekWords 3)
  | _ => return 0

/-- Expressions separated by commas. -/
def values (g : Grammar) : Parser Phrase := list g.value

/-- A query, as a phrase. -/
def queryPhrase (g : Grammar) : Parser Phrase := Query.phrase <$> g.query

/-- Whether a query comes next, judged by its first word. -/
def startsQuery : Parser Bool := do
  return (← peekWords 1) == ["SELECT"] || (← peekWords 1) == ["WITH"]

/-! ## Order -/

/-- One criterion of an order. -/
def orderItem (g : Grammar) : Parser Phrase := do
  let e ← g.value
  let direction ← tryOneOf ["ASC", "DESC"]
  let nulls ← (do
    if ← tryWords ["NULLS", "FIRST"] then return [word "NULLS FIRST"]
    else keptWords ["NULLS", "LAST"])
  return spaced (e :: (direction.map word).toList ++ nulls)

/-- The criteria of an order, if there is one. -/
def orderBy (g : Grammar) : Parser (List Phrase) :=
  clause₂ "ORDER" "BY" (list g.orderItem)

/-! ## Functions -/

/-- A star, with the name of a table in front of it or alone. -/
def star : Parser Phrase := do
  if ← tryMark "*" then return word "*"
  else
    let parts ← qualifier (← get).length
    return joined [name .other parts, word ".*"]
where
  /-- The names in front of a star. -/
  qualifier : (fuel : Nat) → Parser (List Ident)
    | 0 => failure
    | fuel + 1 => do
        let i ← ident
        mark "."
        if ← tryMark "*" then return [i] else return i :: (← qualifier fuel)

/-- One argument of a function. -/
def argument (g : Grammar) : Parser Phrase :=
  star <|> namedArgument <|> g.value
where
  /-- An argument with the name of its parameter. -/
  namedArgument : Parser Phrase := do
    let i ← ident
    let arrow ← (do mark "=>"; return "=>") <|> (do mark ":="; return ":=")
    return spaced [plainName i, word arrow, ← g.value]

/-- The arguments of a function, in parentheses. -/
def arguments (g : Grammar) : Parser Phrase := do
  mark "("
  if ← tryMark ")" then return word "()"
  else
    let treatment ← tryOneOf ["ALL", "DISTINCT"]
    let xs ← list g.argument
    let order ← g.orderBy
    let limit ← clause "LIMIT" g.value
    let separator ← if g.dialect == .postgres then pure [] else clause "SEPARATOR" g.value
    mark ")"
    return parenthesised
      (spaced ((treatment.map word).toList ++ [xs] ++ order ++ limit ++ separator))

/-- One end of a window frame. -/
def frameBound (g : Grammar) : Parser Phrase := do
  if ← tryWords ["CURRENT", "ROW"] then return word "CURRENT ROW"
  else
    let distance ← (do keyword "UNBOUNDED"; return word "UNBOUNDED") <|> g.value
    return spaced [distance, word (← oneOf ["PRECEDING", "FOLLOWING"])]

/-- A window frame, if there is one. -/
def frame (g : Grammar) : Parser (List Phrase) := do
  match ← tryOneOf ["ROWS", "RANGE", "GROUPS"] with
  | none => return []
  | some unit =>
      if ← tryWord "BETWEEN" then
        let first ← g.frameBound
        keyword "AND"
        return [word unit, word "BETWEEN", first, word "AND", ← g.frameBound]
      else return [word unit, ← g.frameBound]

/-- The description of a window, in parentheses. -/
def windowDefinition (g : Grammar) : Parser Phrase :=
  inParentheses do
    let base ← (do
      match ← peek with
      | some (.word i) =>
          if i.keyword ∈ ["PARTITION", "ORDER", "ROWS", "RANGE", "GROUPS"] then return []
          else return [plainName (← ident)]
      | _ => return [])
    let partitions ← clause₂ "PARTITION" "BY" g.values
    let order ← g.orderBy
    return spaced (base ++ partitions ++ order ++ (← g.frame))

/-- The window of a function, if there is one. -/
def window (g : Grammar) : Parser (List Phrase) :=
  clause "OVER" (g.windowDefinition <|> plainName <$> ident)

/-- The filter of an aggregate, if there is one. -/
def filter (g : Grammar) : Parser (List Phrase) := do
  if g.dialect.hasFilters then
    orNothing do
      keyword "FILTER"
      let condition ← inParentheses do
        keyword "WHERE"
        return spaced [word "WHERE", ← g.value]
      return [word "FILTER", condition]
  else return []

/-- The order within the group of an aggregate, if there is one. -/
def withinGroup (g : Grammar) : Parser (List Phrase) :=
  clause₂ "WITHIN" "GROUP" (inParentheses do
    match ← g.orderBy with
    | [] => failure
    | order => return spaced order)

/-- The rest of a call after the name of the function. -/
def call (g : Grammar) (function : List Ident) : Parser Phrase := do
  let xs ← g.arguments
  let within ← g.withinGroup
  let filter ← g.filter
  return spaced (joined [name .other function, xs] :: within ++ filter ++ (← g.window))

/-! ## Operands that start with a keyword -/

/-- The words of a case distinction from a condition on, at most `fuel` cases. -/
def cases (g : Grammar) : (fuel : Nat) → Parser (List Phrase)
  | 0 => failure
  | fuel + 1 => do
      keyword "WHEN"
      let condition ← g.value
      keyword "THEN"
      let here := spaced [word "WHEN", condition, word "THEN", ← g.value]
      if (← peekWords 1) == ["WHEN"] then return here :: (← cases g fuel) else return [here]

/-- A case distinction. -/
def caseDistinction (g : Grammar) : Parser Phrase := do
  let operand ← if (← peekWords 1) == ["WHEN"] then pure [] else (fun e => [e]) <$> g.value
  let cs ← g.cases (← get).length
  let otherwise ← clause "ELSE" g.value
  keyword "END"
  return spaced (word "CASE" :: operand ++ cs ++ otherwise ++ [word "END"])

/-- A conversion, the keyword being taken. -/
def conversion (g : Grammar) (k : String) : Parser Phrase := do
  let inner ← inParentheses do
    let e ← g.value
    keyword "AS"
    return spaced [e, word "AS", ← typeName]
  return joined [word k, inner]

/-- The test whether a query yields rows, the keyword being taken. -/
def existence (g : Grammar) (words : String) : Parser Phrase := do
  return spaced [word words, ← inParentheses g.queryPhrase]

/-- Fields of dates and times. -/
def timeFields : List String :=
  ["YEAR", "YEARS", "MONTH", "MONTHS", "WEEK", "WEEKS", "DAY", "DAYS", "DAYOFWEEK", "DAYOFYEAR",
    "DATE", "DATETIME", "HOUR", "HOURS", "MINUTE", "MINUTES", "SECOND", "SECONDS", "CENTURY",
    "DECADE", "DOW", "DOY", "EPOCH", "ISODOW", "ISOWEEK", "ISOYEAR", "JULIAN", "MICROSECOND",
    "MICROSECONDS", "MILLENIUM", "MILLENNIUM", "MILLISECOND", "MILLISECONDS", "NANOSECOND",
    "NANOSECONDS", "QUARTER", "TIME", "TIMEZONE", "TIMEZONE_ABBR", "TIMEZONE_HOUR",
    "TIMEZONE_MINUTE", "TIMEZONE_REGION"]

/-- A field of dates and times; unknown ones are written as they are. -/
def timeField : Parser Phrase := do
  let i ← ident
  return if i.keyword ∈ timeFields then word i.keyword else plainName i

/-- The extraction of a field, the keyword being taken. -/
def extraction (g : Grammar) : Parser Phrase := do
  let inner ← inParentheses do
    let field ← timeField
    keyword "FROM"
    return spaced [field, word "FROM", ← g.value]
  return joined [word "EXTRACT", inner]

/-- A rounding function, the keyword being taken. -/
def rounding (g : Grammar) (k : String) : Parser Phrase := do
  let inner ← inParentheses do
    let e ← g.value
    if ← tryMark "," then return listed [e, ← g.value]
    else if ← tryWord "TO" then return spaced [e, word "TO", ← timeField]
    else return e
  return joined [word k, inner]

/-- The search for a text in another one, the keyword being taken. -/
def search (g : Grammar) : Parser Phrase := do
  let inner ← inParentheses do
    let e ← g.expression Strength.between
    keyword "IN"
    return spaced [e, word "IN", ← g.value]
  return joined [word "POSITION", inner]

/-- A part of a text, the keyword being taken. -/
def part (g : Grammar) (k : String) : Parser Phrase := do
  let inner ← inParentheses do
    let e ← g.value
    if ← tryMark "," then
      let start ← g.value
      if ← tryMark "," then return listed [e, start, ← g.value]
      else if ← tryWord "FOR" then return listed [e, start, ← g.value]
      else return listed [e, start]
    else
      let start ← clause "FROM" g.value
      if ← tryMark "," then return spaced (e :: start ++ [word "FOR", ← g.value])
      else return spaced (e :: start ++ (← clause "FOR" g.value))
  return joined [word k, inner]

/-- The replacement of a part of a text, the keyword being taken. -/
def overlay (g : Grammar) : Parser Phrase := do
  let inner ← inParentheses do
    let e ← g.value
    keyword "PLACING"
    let what ← g.value
    keyword "FROM"
    let start ← g.value
    return spaced ([e, word "PLACING", what, word "FROM", start] ++ (← clause "FOR" g.value))
  return joined [word "OVERLAY", inner]

/-- The removal of characters at the ends of a text, the keyword being taken. -/
def trimming (g : Grammar) : Parser Phrase := do
  let inner ← inParentheses do
    let side ← tryOneOf ["BOTH", "LEADING", "TRAILING"]
    let e ← g.value
    let side := (side.map word).toList
    if ← tryWord "FROM" then return spaced (side ++ [e, word "FROM", ← g.value])
    else if ← tryMark "," then return listed (spaced (side ++ [e]) :: (← items g.value))
    else return spaced (side ++ [e])
  return joined [word "TRIM", inner]

/-- A length of time, the keyword being taken. -/
def interval (g : Grammar) : Parser Phrase := do
  let e ← g.expression Strength.collate
  let field ← tryOneOf timeFields
  let last ← if field.isSome then clause "TO" timeField else pure []
  return spaced (word "INTERVAL" :: e :: (field.map word).toList ++ last)

/-- An array, the keyword being taken. -/
def array (g : Grammar) : Parser Phrase := do
  if ← tryMark "[" then
    if ← tryMark "]" then return word "ARRAY[]"
    else
      let xs ← g.values
      mark "]"
      return joined [word "ARRAY[", xs, word "]"]
  else return joined [word "ARRAY", ← inParentheses g.queryPhrase]

/-- A negation, the keyword being taken. -/
def negation (g : Grammar) : Parser Phrase := do
  if ← tryWord "EXISTS" then g.existence "NOT EXISTS"
  else return spaced [word "NOT", ← g.expression Strength.not]

/-- A function that may be called without parentheses, its name being taken. -/
def bareCall (g : Grammar) (i : Ident) : Parser Phrase := do
  if (← peek) == some (.mark "(") then return joined [plainName i, ← g.arguments]
  else return plainName i

/-- An operand that starts with a keyword, which has been taken. -/
def keywordOperand (g : Grammar) (i : Ident) : Parser Phrase :=
  let k := i.keyword
  if k == "TRUE" then return word "true"
  else if k == "FALSE" then return word "false"
  else if k == "NULL" then return word "NULL"
  else if k == "CASE" then g.caseDistinction
  else if k ∈ ["CAST", "TRY_CAST", "SAFE_CAST"] then g.conversion k
  else if k == "EXISTS" then g.existence k
  else if k == "EXTRACT" then g.extraction
  else if k ∈ ["CEIL", "FLOOR"] then g.rounding k
  else if k == "POSITION" then g.search
  else if k ∈ ["SUBSTRING", "SUBSTR"] then g.part k
  else if k == "OVERLAY" then g.overlay
  else if k == "TRIM" then g.trimming
  else if k == "INTERVAL" then g.interval
  else if k == "ARRAY" then g.array
  else if k == "NOT" then g.negation
  else if k ∈ ["CURRENT_TIMESTAMP", "CURRENT_TIME", "CURRENT_DATE", "LOCALTIME",
      "LOCALTIMESTAMP"] then g.bareCall i
  else failure

/-- Keywords that are no names even where nothing else fits. -/
def neverNames : List String := ["EXISTS", "INTERVAL", "STRUCT", "TRIM"]

/-! ## Operands -/

/-- A subscript: an index or, with a colon, a range that may be open on either side. -/
def subscript (g : Grammar) : Parser Phrase := do
  let low ← if (← peek) == some (.mark ":") then pure [] else (fun e => [e]) <$> g.value
  if ← tryMark ":" then
    let high ← if (← peek) == some (.mark "]") then pure [] else (fun e => [e]) <$> g.value
    return joined (low ++ word ":" :: high)
  else return joined low

/-- What follows a value directly: fields and subscripts, at most `fuel` of them. -/
def access (g : Grammar) : (fuel : Nat) → Parser (List Phrase)
  | 0 => return []
  | fuel + 1 => do
      if ← tryMark "[" then
        let inner ← g.subscript
        mark "]"
        return joined [word "[", inner, word "]"] :: (← access g fuel)
      else if ← tryMark "." then
        let field ← ident
        return joined [word ".", plainName field] :: (← access g fuel)
      else return []

/-- An operand that starts with a name: a column, or the call of a function. -/
def nameOperand (g : Grammar) : Parser Phrase := do
  let parts ← dottedName
  match ← peek with
  | some (.mark "(") => g.call parts
  | some (.mark "[") => return joined (name .other parts :: (← g.access (← get).length))
  | _ => return name (if parts.length = 1 then .bareColumn else .column) parts

/-- A string with its type in front of it. -/
def typedString : Parser Phrase := do
  let type ← knownType
  match ← take with
  | .string q s => return spaced [type, word (quotedText q s)]
  | _ => failure

/-- An operand in parentheses: a query, an expression or several ones. -/
def parenthesisedOperand (g : Grammar) : Parser Phrase := do
  let inner ← inParentheses do
    if ← startsQuery then g.queryPhrase else g.values
  return joined (inner :: (← g.access (← get).length))

/-- An operand that starts with a word. -/
def wordOperand (g : Grammar) : Parser Phrase := do
  match ← peek with
  | some (.word i) =>
      typedString <|> (do g.keywordOperand (← ident)) <|>
        (if i.keyword ∈ neverNames then failure else g.nameOperand)
  | _ => failure

/-- A parameter that is written as a mark and a name. -/
def namedParameter (g : Grammar) (m : String) : Parser Phrase := do
  if g.dialect == .generic then
    match ← take with
    | .word i => return parameter (m ++ i.text)
    | .number n => return parameter (m ++ n)
    | _ => failure
  else failure

/-- An operand. -/
def operand (g : Grammar) : Parser Phrase := do
  match ← peek with
  | some (.word _) => g.wordOperand
  | some (.number n) =>
      discard take
      return word n
  | some (.string q s) =>
      discard take
      return word (quotedText q s)
  | some (.literal text) =>
      discard take
      return word text
  | some (.parameter m) =>
      discard take
      return parameter m
  | some (.mark "(") => g.parenthesisedOperand
  | some (.mark ":") =>
      discard take
      g.namedParameter ":"
  | some (.mark m) =>
      if m ∈ ["-", "+", "~"] then
        discard take
        return joined [word m, ← g.expression Strength.times]
      else failure
  | none => failure

/-! ## Operators -/

/-- The right side of a comparison with some or all of several values, if it is one. -/
def quantified (g : Grammar) : Parser Phrase := do
  let k ← oneOf ["ANY", "ALL", "SOME"]
  let inner ← inParentheses do
    if ← startsQuery then g.queryPhrase else g.value
  return joined [word k, inner]

/-- What follows the left side of a test that starts with `IS`. -/
def nature (g : Grammar) : Parser (List Phrase) := do
  let negated ← keptWord "NOT"
  if ← tryWords ["DISTINCT", "FROM"] then
    return word "IS" :: negated ++ [word "DISTINCT FROM", ← g.value]
  else return word "IS" :: negated ++ [word (← oneOf ["NULL", "TRUE", "FALSE", "UNKNOWN"])]

/-- What follows the left side of a comparison given by a word. -/
def comparison (g : Grammar) : Parser (List Phrase) := do
  let negated ← keptWord "NOT"
  let k ← oneOf Strength.comparingWords
  if k == "IN" then
    let inner ← inParentheses (g.queryPhrase <|> g.values)
    return negated ++ [word "IN", inner]
  else if k == "BETWEEN" then
    let low ← g.expression Strength.between
    keyword "AND"
    return negated ++ [word "BETWEEN", low, word "AND", ← g.expression Strength.between]
  else
    let k ← if k == "SIMILAR" then (do keyword "TO"; return "SIMILAR TO") else pure k
    let pattern ← g.expression Strength.between
    return negated ++ [word k, pattern] ++ (← clause "ESCAPE" g.operand)

/-- The written form of an operator. -/
def operatorText (m : String) : String :=
  if m == "!=" then "<>" else if m == "==" then "=" else m

/-- The rest of an expression after its left side, for an operator given by a mark. -/
def markTail (g : Grammar) (m : String) (strength : Nat) (left : Phrase) : Parser Phrase := do
  if m == "::" then return joined [left, word m, ← typeName]
  else
    let right ← g.quantified <|> g.expression strength
    return spaced [left, word (operatorText m), right]

/-- The rest of an expression after its left side, for an operator given by words. -/
def wordTail (g : Grammar) (strength : Nat) (left : Phrase) : Parser Phrase := do
  if ← tryWord "IS" then return spaced (left :: (← g.nature))
  else if ← tryWord "ISNULL" then return spaced [left, word "IS NULL"]
  else if ← tryWord "NOTNULL" then return spaced [left, word "IS NOT NULL"]
  else if ← tryWords ["AT", "TIME", "ZONE"] then
    return spaced [left, word "AT TIME ZONE", ← g.expression strength]
  else if ← tryWord "COLLATE" then
    return spaced [left, word "COLLATE", name .other (← dottedName)]
  else
    match ← tryOneOf ["AND", "OR", "XOR", "OVERLAPS", "DIV"] with
    | some k => return spaced [left, word k, ← g.expression strength]
    | none => return spaced (left :: (← g.comparison))

/-- Extends an expression by operators that bind more strongly than `strength`, at most `fuel` of
them. -/
def extend (g : Grammar) (strength : Nat) : (fuel : Nat) → Phrase → Parser Phrase
  | 0, left => return left
  | fuel + 1, left => do
      let next ← g.nextStrength
      if next ≤ strength then return left
      else
        match ← peek with
        | some (.mark m) =>
            discard take
            extend g strength fuel (← g.markTail m next left)
        | _ => extend g strength fuel (← g.wordTail next left)

/-- An expression whose operators bind more strongly than `strength`. -/
def nestedExpression (g : Grammar) (strength : Nat) : Parser Phrase := do
  let first ← g.operand
  g.extend strength (← get).length first

end Grammar

end ShardedSql.Sql
