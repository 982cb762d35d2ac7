import ShardedSql.Sql.Library

/-!
# Phrases

A parsed statement is a tree of phrases.  Its leaves are words that stand for themselves, names
with the part they play, and parameters; every inner phrase says how its parts are separated when
it is written.  Keywords, spacing and parentheses of the written form are thereby fixed by the
parser, and visitors only touch names and parameters.
-/

namespace ShardedSql.Sql

/-- The word that a part of a name is, where parts are not called for. -/
def NamePart.word : NamePart Empty → Ident
  | ident i => i
  | call c => c.elim

/-- The part a name plays. -/
inductive NameRole where
  /-- Refers to a table; the last part is the table. -/
  | table
  /-- Refers to a column of a table, which is the part before the last one. -/
  | column
  /-- Refers to a column by itself. -/
  | bareColumn
  /-- Declares another name of a table. -/
  | tableAlias
  /-- Declares a query that can be referred to like a table. -/
  | queryName
  /-- Anything else: functions, new names of columns, collations. -/
  | other
  deriving DecidableEq, Repr

/-- What a group of phrases is, as far as names are concerned. -/
inductive GroupSort where
  /-- No scope of its own. -/
  | plain
  /-- A query with the queries it declares. -/
  | query
  /-- A selection or a change with the tables it names. -/
  | selection
  deriving DecidableEq, Repr

/-- A phrase. -/
inductive Phrase where
  /-- Text that stands for itself. -/
  | word (text : String)
  | name (role : NameRole) (parts : List Ident)
  | parameter (mark : String)
  /-- Several phrases with a separator between them. -/
  | group (sort : GroupSort) (separator : String) (parts : List Phrase)
  deriving Repr

namespace Phrase

/-- Phrases separated by spaces. -/
def spaced (parts : List Phrase) : Phrase := group .plain " " parts

/-- Phrases separated by commas. -/
def listed (parts : List Phrase) : Phrase := group .plain ", " parts

/-- Phrases without separator. -/
def joined (parts : List Phrase) : Phrase := group .plain "" parts

/-- A phrase in parentheses. -/
def parenthesised (p : Phrase) : Phrase := joined [word "(", p, word ")"]

/-- A name of one part that is not renamed. -/
def plainName (i : Ident) : Phrase := name .other [i]

/-! ## Writing -/

mutual

/-- The written form of a phrase. -/
def render : Phrase → String
  | word text => text
  | name _ parts => Text.joined "." (parts.map Ident.render)
  | parameter mark => mark
  | group _ separator parts => Text.joined separator (renderAll parts)

/-- The written forms of several phrases. -/
def renderAll : List Phrase → List String
  | [] => []
  | p :: ps => p.render :: renderAll ps

end

/-! ## Visiting

Of the expressions only names and parameters are handed out, since the others are not told apart
from the words around them. -/

mutual

/-- Changes every name of a table. -/
def visitRelations (f : List (NamePart Empty) → List (NamePart Empty)) : Phrase → Phrase
  | name .table parts => name .table ((f (parts.map .ident)).map NamePart.word)
  | name role parts => name role parts
  | group sort separator parts => group sort separator (visitRelationsAll f parts)
  | word text => word text
  | parameter mark => parameter mark

/-- Changes every name of a table in several phrases. -/
def visitRelationsAll (f : List (NamePart Empty) → List (NamePart Empty)) :
    List Phrase → List Phrase
  | [] => []
  | p :: ps => p.visitRelations f :: visitRelationsAll f ps

end

mutual

/-- Changes every name of a column and every parameter. -/
def visitExpressions (f : Phrase → Phrase) : Phrase → Phrase
  | name .column parts => f (name .column parts)
  | name .bareColumn parts => f (name .bareColumn parts)
  | name role parts => name role parts
  | group sort separator parts => group sort separator (visitExpressionsAll f parts)
  | word text => word text
  | parameter mark => f (parameter mark)

/-- Changes every name of a column and every parameter in several phrases. -/
def visitExpressionsAll (f : Phrase → Phrase) : List Phrase → List Phrase
  | [] => []
  | p :: ps => p.visitExpressions f :: visitExpressionsAll f ps

end

/-- What a phrase is as an expression. -/
def view : Phrase → ExprView
  | name .column parts => .compound parts
  | parameter mark => .placeholder mark
  | word text => if text.toList.head?.any Char.isDigit then .number text else .other
  | _ => .other

end Phrase

end ShardedSql.Sql
