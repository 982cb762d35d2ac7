import ShardedSql.Sql.Token
import ShardedSql.Text.Pieces

/-!
# Libraries for SQL

Statements are parsed, walked over and written by a library.  Its commands and expressions are only
known by what is asked of them: the names that its visitors hand out, whether an expression is a
dotted name, a parameter or a number, and the page clause of a query.
-/

namespace ShardedSql.Sql

/-! ## Names and expressions -/

/-- A part of the name of a table. -/
inductive NamePart (Call : Type) where
  | ident (i : Ident)
  /-- A call that yields the part. -/
  | call (c : Call)
  deriving DecidableEq, Repr

/-- What an expression is, as far as it matters. -/
inductive ExprView where
  /-- A name of several words. -/
  | compound (parts : List Ident)
  /-- A parameter, as written. -/
  | placeholder (mark : String)
  | number (text : String)
  | other
  deriving DecidableEq, Repr

/-! ## Clauses that cut pages -/

/-- The clause that says how many rows are skipped. -/
structure Offset (Expr : Type) where
  value : Expr
  /-- The word after the number, if there is one. -/
  unit : Option String
  deriving DecidableEq, Repr

/-- The clause that cuts a page. -/
inductive PageClause (Expr : Type) where
  /-- Both bounds are optional and named.  Rows may be counted within groups. -/
  | bounds (limit : Option Expr) (offset : Option (Offset Expr)) (groups : List Expr)
  /-- The bounds are separated by a comma, the offset coming first. -/
  | commaBounds (offset limit : Expr)
  deriving DecidableEq, Repr

/-- The standard clause that limits rows. -/
structure Fetch (Expr : Type) where
  /-- How many rows; one when absent. -/
  quantity : Option Expr
  percent : Bool
  withTies : Bool
  deriving DecidableEq, Repr

section Map

variable {α β : Type} (f : α → β)

/-- Changes the expression of an offset. -/
def Offset.map (o : Offset α) : Offset β := { value := f o.value, unit := o.unit }

/-- Changes the expressions of a page clause. -/
def PageClause.map : PageClause α → PageClause β
  | bounds limit offset groups => bounds (limit.map f) (offset.map (·.map f)) (groups.map f)
  | commaBounds offset limit => commaBounds (f offset) (f limit)

/-- Changes the expression of a standard row limit. -/
def Fetch.map (fetch : Fetch α) : Fetch β :=
  { quantity := fetch.quantity.map f, percent := fetch.percent, withTies := fetch.withTies }

end Map

/-! ## Libraries -/

/-- What is used of a library for SQL.  The visitors change every name of a table and every
expression of a command. -/
structure Library where
  Command : Type
  Expr : Type
  Call : Type
  parse? : String → Option (List Command)
  render : Command → String
  visitRelations : (List (NamePart Call) → List (NamePart Call)) → Command → Command
  visitExpressions : (Expr → Expr) → Command → Command
  view : Expr → ExprView
  /-- The expression that is a dotted name. -/
  compound : List Ident → Expr
  number : String → Expr
  /-- The page clause of a query; commands of other kinds have no place for one. -/
  page? : Command → Option (Option (PageClause Expr))
  setPage : Option (PageClause Expr) → Command → Command

namespace Library

/-- The written form of several commands. -/
def renderAll (L : Library) (cs : List L.Command) : String :=
  Text.joined "; " (cs.map L.render)

/-- What a visitor of expressions does that changes dotted names and nothing else. -/
def onCompound (L : Library) (change : List Ident → List Ident) (e : L.Expr) : L.Expr :=
  match L.view e with
  | .compound parts => L.compound (change parts)
  | _ => e

end Library

end ShardedSql.Sql
