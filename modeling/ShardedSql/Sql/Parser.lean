import ShardedSql.Sql.Command
import ShardedSql.Sql.Dialect

/-!
# Parsing

A parser takes tokens from the front of a list or fails; after a failure an alternative starts
again where the failed one did.
-/

namespace ShardedSql.Sql

/-- A parser. -/
abbrev Parser := StateT (List Token) Option

namespace Parser

open Phrase

/-- Whether the text is used up. -/
def atEnd : Parser Bool := return (← get).isEmpty

/-- The next token. -/
def peek : Parser (Option Token) := return (← get).head?

/-- Takes the next token. -/
def take : Parser Token := do
  match ← get with
  | t :: ts => set ts; return t
  | [] => failure

/-- What a parser yields, or nothing if it fails. -/
def optionally {α : Type} (p : Parser α) : Parser (Option α) :=
  (some <$> p) <|> return none

/-- Takes a mark if it comes next. -/
def tryMark (m : String) : Parser Bool := do
  match ← get with
  | .mark n :: ts => if n == m then set ts; return true else return false
  | _ => return false

/-- Takes a mark that has to come next. -/
def mark (m : String) : Parser Unit := do
  if ← tryMark m then return () else failure

/-- Takes a keyword if it comes next. -/
def tryWord (k : String) : Parser Bool := do
  match ← get with
  | .word i :: ts => if i.keyword == k then set ts; return true else return false
  | _ => return false

/-- Takes a keyword that has to come next. -/
def keyword (k : String) : Parser Unit := do
  if ← tryWord k then return () else failure

/-- The keywords at the front of the text, as far as `n` tokens. -/
def peekWords (n : Nat) : Parser (List String) := do
  return ((← get).take n).map fun
    | .word i => i.keyword
    | _ => ""

/-- Takes several keywords if all of them come next. -/
def tryWords (ks : List String) : Parser Bool := do
  if (← peekWords ks.length) == ks then
    set ((← get).drop ks.length)
    return true
  else return false

/-- Takes one of several keywords if it comes next. -/
def tryOneOf (ks : List String) : Parser (Option String) := do
  match ← get with
  | .word i :: ts => if i.keyword ∈ ks then set ts; return some i.keyword else return none
  | _ => return none

/-- Takes one of several keywords. -/
def oneOf (ks : List String) : Parser String := do
  match ← tryOneOf ks with
  | some k => return k
  | none => failure

/-- Takes any word. -/
def ident : Parser Ident := do
  match ← take with
  | .word i => return i
  | _ => failure

/-- Parses `p` again and again, at most `fuel` times, as long as a separator comes first. -/
def moreItems {α : Type} (p : Parser α) : (fuel : Nat) → Parser (List α)
  | 0 => return []
  | fuel + 1 => do
      if ← tryMark "," then
        let x ← p
        return x :: (← moreItems p fuel)
      else return []

/-- One or more items separated by commas. -/
def items {α : Type} (p : Parser α) : Parser (List α) := do
  let x ← p
  return x :: (← moreItems p (← get).length)

/-- One or more items separated by commas, as a phrase. -/
def list (p : Parser Phrase) : Parser Phrase :=
  listed <$> items p

/-- An item in parentheses, as a phrase. -/
def inParentheses (p : Parser Phrase) : Parser Phrase := do
  mark "("
  let inner ← p
  mark ")"
  return parenthesised inner

/-- The rest of a dotted name, of at most `fuel` parts. -/
def moreParts : (fuel : Nat) → Parser (List Ident)
  | 0 => return []
  | fuel + 1 => do
      if ← tryMark "." then
        let i ← ident
        return i :: (← moreParts fuel)
      else return []

/-- A dotted name. -/
def dottedName : Parser (List Ident) := do
  let i ← ident
  return i :: (← moreParts (← get).length)

/-- A keyword that is kept in the written form if it comes next. -/
def keptWord (k : String) : Parser (List Phrase) := do
  if ← tryWord k then return [word k] else return []

/-- Keywords that are kept in the written form if all of them come next. -/
def keptWords (ks : List String) : Parser (List Phrase) := do
  if ← tryWords ks then return ks.map word else return []

/-- A clause that follows a keyword, if that comes next. -/
def clause (k : String) (p : Parser Phrase) : Parser (List Phrase) := do
  if ← tryWord k then return [word k, ← p] else return []

/-- A clause that follows two keywords, if both come next. -/
def clause₂ (k l : String) (p : Parser Phrase) : Parser (List Phrase) := do
  if ← tryWords [k, l] then return [word k, word l, ← p] else return []

/-- Phrases from a parser that yields several, or none if it fails. -/
def orNothing (p : Parser (List Phrase)) : Parser (List Phrase) :=
  p <|> return []

/-! ## Other names -/

/-- Another name, given by a word or by a quoted text. -/
def aliasIdent : Parser Ident := do
  match ← take with
  | .word i => return i
  | .string q s => return ⟨s, some q⟩
  | _ => failure

/-- Another name after the word that introduces it or, unless it is a reserved word, by itself.
The answer says whether the word was there. -/
def otherName (reserved : List String) : Parser (Option (Bool × Ident)) := do
  if ← tryWord "AS" then return some (true, ← aliasIdent)
  else
    match ← peek with
    | some (.word i) => if i.keyword ∈ reserved then return none else return some (false, ← ident)
    | some (.string _ _) => return some (false, ← aliasIdent)
    | _ => return none

/-- Words that cannot name a result column without introduction. -/
def reservedForColumns : List String :=
  ["WITH", "EXPLAIN", "ANALYZE", "SELECT", "WHERE", "GROUP", "SORT", "HAVING", "ORDER", "TOP",
    "LATERAL", "VIEW", "LIMIT", "OFFSET", "FETCH", "UNION", "EXCEPT", "EXCLUDE", "INTERSECT",
    "MINUS", "CLUSTER", "DISTRIBUTE", "RETURNING", "FROM", "INTO", "END"]

/-- Words that cannot name a table without introduction. -/
def reservedForTables : List String :=
  ["WITH", "EXPLAIN", "ANALYZE", "SELECT", "WHERE", "GROUP", "SORT", "HAVING", "ORDER", "PIVOT",
    "UNPIVOT", "TOP", "LATERAL", "VIEW", "LIMIT", "OFFSET", "FETCH", "UNION", "EXCEPT",
    "INTERSECT", "MINUS", "ON", "JOIN", "INNER", "CROSS", "FULL", "LEFT", "RIGHT", "NATURAL",
    "USING", "CLUSTER", "DISTRIBUTE", "GLOBAL", "ANTI", "SEMI", "RETURNING", "OUTPUT", "ASOF",
    "MATCH_CONDITION", "OUTER", "SET", "QUALIFY", "WINDOW", "END", "FOR", "PARTITION", "PREWHERE",
    "SETTINGS", "FORMAT", "START", "CONNECT", "MATCH_RECOGNIZE", "SAMPLE", "TABLESAMPLE", "FROM",
    "OPEN"]

end Parser

/-- The parsers of the constructs that contain each other, for one depth of nesting. -/
structure Grammar where
  dialect : Dialect
  /-- An expression whose operators bind more strongly than a number. -/
  expression : Nat → Parser Phrase
  query : Parser Query
  /-- A table or a join of tables; the answer says whether it is a join. -/
  tables : Parser (Bool × Phrase)
  change : Parser Phrase

/-- The grammar that allows nothing. -/
def Grammar.closed (dialect : Dialect) : Grammar :=
  { dialect, expression := fun _ => failure, query := failure, tables := failure
    change := failure }

/-- A whole expression. -/
def Grammar.value (g : Grammar) : Parser Phrase := g.expression 0

end ShardedSql.Sql
