import ShardedSql.Text.Word

/-!
# SQL dialects

The dialects differ in which characters make up names, how strings and comments are written, and
in a few clauses.
-/

namespace ShardedSql.Sql

/-- A dialect of SQL. -/
inductive Dialect where
  | postgres
  /-- A mixture that accepts what most systems accept. -/
  | generic
  | mysql
  deriving DecidableEq, Repr

namespace Dialect

/-- Characters that start a name. -/
def startsName : Dialect → Char → Bool
  | postgres, c => c.isAlpha || c == '_' || 128 ≤ c.toNat
  | generic, c => Text.isNameStart c || c == '#' || c == '@'
  | mysql, c =>
      Text.isNameStart c || c == '$' || c == '@' || (128 ≤ c.toNat && c.toNat ≤ 0xFFFF)

/-- Characters that continue a name. -/
def continuesName : Dialect → Char → Bool
  | postgres, c => startsName postgres c || c.isDigit || c == '$'
  | generic, c => startsName generic c || c.isDigit || c == '$'
  | mysql, c => startsName mysql c || c.isDigit || 128 ≤ c.toNat

/-- Characters that quote a name. -/
def quotesName : Dialect → Char → Bool
  | postgres, c => c == '"'
  | generic, c => c == '"' || c == '\x60'
  | mysql, c => c == '\x60'

/-- Characters that quote a string. -/
def quotesString : Dialect → Char → Bool
  | mysql, c => c == '\x27' || c == '"'
  | _, c => c == '\x27'

/-- Whether a backslash in a string changes the meaning of the next character. -/
def hasEscapes (d : Dialect) : Bool := d == mysql

/-- Whether digits can be separated by underscores. -/
def separatesDigits (d : Dialect) : Bool := d == postgres

/-- Whether block comments can be nested. -/
def nestsComments (d : Dialect) : Bool := d != mysql

/-- Whether a page can be written with a comma between its bounds. -/
def hasPageComma (d : Dialect) : Bool := d != postgres

/-- Whether operators can be made up from operator characters. -/
def hasFreeOperators (d : Dialect) : Bool := d == postgres

/-- Whether an aggregate can be restricted by a filter. -/
def hasFilters (d : Dialect) : Bool := d != mysql

/-- Whether a selection may have no columns. -/
def allowsNoColumns (d : Dialect) : Bool := d != mysql

/-- Whether options in parentheses may be given for a plan. -/
def hasPlanOptions (d : Dialect) : Bool := d != mysql

end Dialect

end ShardedSql.Sql
