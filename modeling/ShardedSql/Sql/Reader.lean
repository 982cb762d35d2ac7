import ShardedSql.Sql.Parser.Command

/-!
# The reader

A library for SQL that reads a part of each dialect: selections with their joins, set operations
and declared queries, changes of rows, definitions, and the bounds of transactions.
-/

namespace ShardedSql.Sql

/-- The library that reads commands as phrases. -/
abbrev reader (dialect : Dialect) : Library where
  Command := Command
  Expr := Phrase
  Call := Empty
  parse? := parse? dialect
  render := Command.render
  visitRelations f := Command.map (Phrase.visitRelations f)
  visitExpressions f := Command.map (Phrase.visitExpressions f)
  view := Phrase.view
  compound := .name .column
  number := .word
  page? := Command.page?
  setPage := Command.setPage

end ShardedSql.Sql
