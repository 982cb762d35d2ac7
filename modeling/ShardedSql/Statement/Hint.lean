import ShardedSql.Text.Blank
import ShardedSql.Text.Case
import ShardedSql.Text.Pieces

/-!
# Hints in comments

A comment can carry `key:value` pairs, separated by commas.  They are taken from the blocks
between `/*` and `*/`; a comment without such a block is read as one block body.  A block that is
not closed extends to the end of the comment.
-/

namespace ShardedSql

/-- Pairs found in comments, in the order of the text. -/
structure Hints where
  entries : List (String × String)
  deriving DecidableEq, Repr

namespace Hints

/-- The pair in one item, if it has a colon and a key. -/
def readItem (item : List Char) : Option (String × String) :=
  match Text.breakOn [':'] item with
  | none => none
  | some (key, value) =>
      let key := Text.trimChars key
      if key.isEmpty then none
      else some (String.ofList key, String.ofList (Text.trimChars value))

/-- The pairs of one block body. -/
def readBody (body : List Char) : List (String × String) :=
  (Text.splitChars ',' body).filterMap readItem

/-- The bodies of the blocks of a text, of which there are at most `fuel`. -/
def blockBodies : (fuel : Nat) → List Char → List (List Char)
  | 0, _ => []
  | fuel + 1, cs =>
      match Text.breakOn ['/', '*'] cs with
      | none => []
      | some (_, rest) =>
          match Text.breakOn ['*', '/'] rest with
          | none => [rest]
          | some (body, rest) => body :: blockBodies fuel rest

/-- The block bodies of one comment. -/
def bodies (comment : List Char) : List (List Char) :=
  if (Text.breakOn ['/', '*'] comment).isSome then blockBodies comment.length comment
  else [comment]

/-- All pairs of a list of comments. -/
def ofComments (comments : List String) : Hints :=
  ⟨comments.flatMap fun c => (bodies c.toList).flatMap readBody⟩

/-- Whether there is no pair. -/
def isEmpty (h : Hints) : Bool :=
  h.entries.isEmpty

/-- The first value of a key, whose letters may differ in case. -/
def get? (h : Hints) (key : String) : Option String :=
  (h.entries.find? fun e => Text.alike e.1 key).map (·.2)

/-- Whether the first value of a key reads `true`. -/
def isTrue (h : Hints) (key : String) : Bool :=
  match h.get? key with
  | some value => Text.alike value "true"
  | none => false

end Hints

end ShardedSql
