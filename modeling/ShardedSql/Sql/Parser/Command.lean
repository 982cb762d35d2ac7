import ShardedSql.Sql.Parser.Definition
import ShardedSql.Sql.Token.Lexer

/-!
# Commands

Commands are separated by semicolons; empty ones vanish.
-/

namespace ShardedSql.Sql

open Phrase
open ShardedSql.Sql.Parser

namespace Grammar

/-- A query whose page clause is seen from outside. -/
def queryCommand (g : Grammar) : Parser Command := Command.query <$> g.query

/-- A command that does not contain another one. -/
def simpleCommand (g : Grammar) : Parser Command := do
  match ← peek with
  | some (.mark "(") => g.queryCommand
  | some (.word i) =>
      match i.keyword with
      | "SELECT" | "WITH" | "VALUES" => g.queryCommand
      | "INSERT" | "REPLACE" | "UPDATE" | "DELETE" => .other <$> g.change
      | "CREATE" => do discard take; .other <$> g.creation
      | "DROP" => do discard take; .other <$> removal
      | "TRUNCATE" => do discard take; .other <$> emptying
      | "ALTER" => do discard take; .other <$> g.alteration
      | "BEGIN" => do discard take; .other <$> beginning
      | "START" => do
          discard take
          keyword "TRANSACTION"
          return .other (word "START TRANSACTION")
      | "COMMIT" | "ROLLBACK" => do discard take; .other <$> ending i.keyword
      | "SAVEPOINT" => do
          discard take
          return .other (spaced [word "SAVEPOINT", plainName (← ident)])
      | "SET" => do discard take; .other <$> g.setting
      | _ => failure
  | _ => failure

/-- One option of a plan, with its value if there is one. -/
def planOption (g : Grammar) : Parser Phrase := do
  let option := plainName (← ident)
  match ← peek with
  | some (.mark ",") | some (.mark ")") => return option
  | _ => return spaced [option, ← g.value]

/-- The words that ask for a plan, if they come next. -/
def planWords (g : Grammar) : Parser (List Phrase) := do
  match ← tryOneOf ["EXPLAIN", "DESCRIBE", "DESC"] with
  | some k =>
      if g.dialect.hasPlanOptions && (← peek) == some (.mark "(") then
        return [word k, ← inParentheses (list g.planOption)]
      else
        let analyze ← keptWord "ANALYZE"
        return word k :: analyze ++ (← keptWord "VERBOSE")
  | none => return []

/-- The description of a table. -/
def tableDescription : Parser Phrase := do
  let table ← keptWord "TABLE"
  return spaced (table ++ [name .table (← dottedName)])

/-- A command.  A plan is asked for at most once. -/
def command (g : Grammar) : Parser Command := do
  match ← g.planWords with
  | [] => g.simpleCommand
  | words =>
      if (← peekWords 1).any (· ∈ ["EXPLAIN", "DESCRIBE", "DESC"]) then failure
      else
        let subject ← (Command.phrase <$> g.simpleCommand) <|> tableDescription
        return .other (spaced (words ++ [subject]))

/-- Drops semicolons; the answer says whether there was one. -/
def semicolons : (fuel : Nat) → Parser Bool
  | 0 => return false
  | fuel + 1 => do
      if ← tryMark ";" then
        discard (semicolons fuel)
        return true
      else return false

/-- The commands that are left, at most `fuel` of them. -/
def commands (g : Grammar) : (fuel : Nat) → Parser (List Command)
  | 0 => failure
  | fuel + 1 => do
      discard (semicolons (← get).length)
      if ← atEnd then return []
      else
        let c ← g.command
        let separated ← semicolons (← get).length
        if separated || (← atEnd) then return c :: (← commands g fuel) else failure

end Grammar

/-- The commands in a text, or `none` if it is no SQL. -/
def parse? (dialect : Dialect) (text : String) : Option (List Command) := do
  let tokens ← tokens? dialect text
  let grammar := Grammar.ofDepth dialect (tokens.length + 2) Grammar.maxDepth
  let (commands, _) ← (grammar.commands (tokens.length + 1)).run tokens
  return commands

end ShardedSql.Sql
