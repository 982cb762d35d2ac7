import ShardedSql.Text.Blank
import ShardedSql.Text.Word

/-!
# Text patterns

Regular expressions as data, and what they match.  A pattern is run from a position in a text,
which is given by the characters that are left, and yields every position it can end at.  The
number of rounds of an unbounded repetition is limited by the length of the text, since a round
that consumes nothing adds no position.
-/

namespace ShardedSql

/-- One entry of a character class. -/
inductive ClassItem where
  | range (first last : Char)
  | digit (negated : Bool)
  | word (negated : Bool)
  | space (negated : Bool)
  deriving DecidableEq, Repr

/-- A set of characters. -/
structure CharClass where
  items : List ClassItem
  negated : Bool
  /-- Whether case is ignored. -/
  fold : Bool
  deriving DecidableEq, Repr

/-- A regular expression. -/
inductive Pattern where
  | empty
  | one (set : CharClass)
  | both (first second : Pattern)
  | either (first second : Pattern)
  /-- Between `least` and `most` rounds, without an upper bound when `most` is absent. -/
  | rounds (body : Pattern) (least : Nat) (most : Option Nat)
  | textStart
  | textEnd
  | lineStart
  | lineEnd
  | wordEdge (negated : Bool)
  deriving DecidableEq, Repr

namespace ClassItem

/-- Whether an entry contains a character. -/
def contains (c : Char) : ClassItem → Bool
  | range first last => first ≤ c && c ≤ last
  | digit negated => Text.isDigit c != negated
  | word negated => Text.isWordChar c != negated
  | space negated => Text.isBlank c != negated

end ClassItem

namespace CharClass

/-- Whether a set contains a character. -/
def contains (s : CharClass) (c : Char) : Bool :=
  let listed := fun c => s.items.any (·.contains c)
  (if s.fold then (Text.caseVariants c).any listed else listed c) != s.negated

/-- The set of a single character. -/
def single (c : Char) (fold : Bool) : CharClass :=
  if fold then
    { items := (Text.caseVariants c).map fun c => .range c c, negated := false, fold }
  else { items := [.range c c], negated := false, fold }

/-- All characters, or all but the line feed. -/
def dot (lineFeed : Bool) : CharClass :=
  { items := if lineFeed then [] else [.range '\n' '\n'], negated := true, fold := false }

end CharClass

namespace Pattern

/-- Keeps one of several equal positions. -/
def distinctPositions (ps : List (List Char)) : List (List Char) :=
  ps.foldr (fun p kept => if kept.any (·.length == p.length) then kept else p :: kept) []

/-- Applies a step exactly `n` times. -/
def exactly (step : List Char → List (List Char)) : Nat → List (List Char) → List (List Char)
  | 0, ps => ps
  | n + 1, ps => exactly step n (distinctPositions (ps.flatMap step))

/-- Applies a step up to `n` times. -/
def upTo (step : List Char → List (List Char)) : Nat → List (List Char) → List (List Char)
  | 0, ps => ps
  | n + 1, ps => upTo step n (distinctPositions (ps ++ ps.flatMap step))

/-- The character before a position of a text. -/
def previous? (whole rest : List Char) : Option Char :=
  (whole.take (whole.length - rest.length)).getLast?

/-- Whether a word starts or ends at a position. -/
def atWordEdge (whole rest : List Char) : Bool :=
  ((previous? whole rest).map Text.isWordChar).getD false !=
    (rest.head?.map Text.isWordChar).getD false

/-- The positions at which a match that starts at `rest` can end. -/
def ends (whole : List Char) : Pattern → List Char → List (List Char)
  | empty, rest => [rest]
  | one set, rest =>
      match rest with
      | [] => []
      | c :: rest => if set.contains c then [rest] else []
  | both a b, rest => distinctPositions ((a.ends whole rest).flatMap (b.ends whole))
  | either a b, rest => distinctPositions (a.ends whole rest ++ b.ends whole rest)
  | rounds body least most, rest =>
      let more := rest.length + 1
      let extra := match most with
        | none => more
        | some m => min (m - least) more
      upTo (body.ends whole) extra (exactly (body.ends whole) least [rest])
  | textStart, rest => if rest.length == whole.length then [rest] else []
  | textEnd, rest => if rest.isEmpty then [rest] else []
  | lineStart, rest =>
      if rest.length == whole.length || previous? whole rest == some '\n' then [rest] else []
  | lineEnd, rest => if rest.isEmpty || rest.head? == some '\n' then [rest] else []
  | wordEdge negated, rest => if atWordEdge whole rest != negated then [rest] else []

/-- The positions of a text, from its start to its end. -/
def positions : List Char → List (List Char)
  | [] => [[]]
  | c :: cs => (c :: cs) :: positions cs

/-- Whether the pattern matches somewhere in a text. -/
def matchesIn (p : Pattern) (text : String) : Bool :=
  let whole := text.toList
  (positions whole).any fun start => !(p.ends whole start).isEmpty

end Pattern

end ShardedSql
