import ShardedSql.Sql.Phrase

/-!
# Queries and commands

A query keeps its page clause apart, since that is what changes when a page is cut by someone
else.  A command is a query or anything else.
-/

namespace ShardedSql.Sql

/-- A query. -/
structure Query where
  body : List Phrase
  page : Option (PageClause Phrase)
  fetch : Option (Fetch Phrase)
  locks : List Phrase
  deriving Repr

/-- A command. -/
inductive Command where
  | query (q : Query)
  | other (p : Phrase)
  deriving Repr

open Phrase

/-! ## Writing -/

/-- The phrase of an offset. -/
def Offset.phrase (o : Offset Phrase) : Phrase :=
  spaced (word "OFFSET" :: o.value :: (o.unit.map word).toList)

/-- The phrases of a page clause. -/
def PageClause.phrases : PageClause Phrase → List Phrase
  | bounds limit offset groups =>
      (limit.map fun l => spaced [word "LIMIT", l]).toList ++ (offset.map Offset.phrase).toList ++
        (if groups.isEmpty then [] else [spaced [word "BY", listed groups]])
  | commaBounds offset limit => [spaced [word "LIMIT", listed [offset, limit]]]

/-- The phrase of a standard row limit. -/
def Fetch.phrase (f : Fetch Phrase) : Phrase :=
  spaced (word "FETCH FIRST" :: f.quantity.toList ++ (if f.percent then [word "PERCENT"] else []) ++
    [word "ROWS", word (if f.withTies then "WITH TIES" else "ONLY")])

namespace Query

/-- The phrase of a query. -/
def phrase (q : Query) : Phrase :=
  group .query " " (q.body ++ (q.page.map PageClause.phrases).getD [] ++
    (q.fetch.map Fetch.phrase).toList ++ q.locks)

/-- Changes the phrases of a query. -/
def map (f : Phrase → Phrase) (q : Query) : Query :=
  { body := q.body.map f
    page := q.page.map (·.map f)
    fetch := q.fetch.map (·.map f)
    locks := q.locks.map f }

end Query

namespace Command

/-- The phrase of a command. -/
def phrase : Command → Phrase
  | query q => q.phrase
  | other p => p

/-- The written form of a command. -/
def render (c : Command) : String := c.phrase.render

/-- Changes the phrases of a command. -/
def map (f : Phrase → Phrase) : Command → Command
  | query q => query (q.map f)
  | other p => other (f p)

/-- The page clause of a query, if there is a query. -/
def page? : Command → Option (Option (PageClause Phrase))
  | query q => some q.page
  | other _ => none

/-- A query with another page clause. -/
def setPage (page : Option (PageClause Phrase)) : Command → Command
  | query q => query { q with page }
  | other p => other p

end Command

end ShardedSql.Sql
