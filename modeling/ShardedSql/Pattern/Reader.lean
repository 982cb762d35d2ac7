import ShardedSql.Pattern
import ShardedSql.Text.Pieces

/-!
# Reading patterns

The usual notation: alternatives, repetitions, groups, character classes, escapes, anchors, and
flags that hold for the rest of the group they stand in.  A repetition needs something to repeat;
groups and classes have to be closed.
-/

namespace ShardedSql.Pattern

/-- Flags in force at a point of a pattern. -/
structure Flags where
  fold : Bool := false
  dotAll : Bool := false
  multiLine : Bool := false
  deriving DecidableEq, Repr

/-- Reads decimal digits, with blank characters around them. -/
def readCount (cs : List Char) : Option (Nat × List Char) :=
  let cs := cs.dropWhile Text.isBlank
  let digits := cs.takeWhile Char.isDigit
  if digits.isEmpty then none
  else
    some (digits.foldl (fun n c => n * 10 + (c.toNat - '0'.toNat)) 0,
      (cs.dropWhile Char.isDigit).dropWhile Text.isBlank)

/-- Reads the bounds of a counted repetition after its opening brace. -/
def readBounds (cs : List Char) : Option (Nat × Option Nat × List Char) := do
  let (least, rest) ← readCount cs
  match rest with
  | '\x7d' :: rest => return (least, some least, rest)
  | ',' :: rest =>
      match rest.dropWhile Text.isBlank with
      | '\x7d' :: rest => return (least, none, rest)
      | rest =>
          let (most, rest) ← readCount rest
          match rest with
          | '\x7d' :: rest => if most < least then none else return (least, some most, rest)
          | _ => none
  | _ => none

/-- What an escape stands for. -/
inductive Escape where
  | literal (c : Char)
  | item (i : ClassItem)
  | anchor (p : Pattern)

/-- Value of hexadecimal digits. -/
def hexNumber? (digits : List Char) : Option Nat :=
  if digits.isEmpty then none
  else digits.foldlM (fun n c =>
    if c.isDigit then some (n * 16 + (c.toNat - '0'.toNat))
    else if 'a' ≤ c && c ≤ 'f' then some (n * 16 + (c.toNat - 'a'.toNat + 10))
    else if 'A' ≤ c && c ≤ 'F' then some (n * 16 + (c.toNat - 'A'.toNat + 10))
    else none) 0

/-- The character with a code point, if there is one. -/
def scalar? (n : Nat) : Option Char :=
  if (n < 0xD800 || 0xDFFF < n) && n < 0x110000 then some (Char.ofNat n) else none

/-- Reads a code point of exactly `width` digits, or of any number of digits in braces. -/
def readCodePoint (width : Nat) (cs : List Char) : Option (Escape × List Char) :=
  match cs with
  | '\x7b' :: rest => do
      let (digits, rest) ← Text.breakOn ['\x7d'] rest
      let c ← (hexNumber? digits).bind scalar?
      return (.literal c, rest)
  | cs =>
      if cs.length < width then none
      else do
        let c ← (hexNumber? (cs.take width)).bind scalar?
        return (.literal c, cs.drop width)

/-- Reads an escape after its backslash.  Punctuation stands for itself; letters and digits only
have the meanings listed. -/
def readEscape : List Char → Option (Escape × List Char)
  | [] => none
  | 'd' :: rest => some (.item (.digit false), rest)
  | 'D' :: rest => some (.item (.digit true), rest)
  | 'w' :: rest => some (.item (.word false), rest)
  | 'W' :: rest => some (.item (.word true), rest)
  | 's' :: rest => some (.item (.space false), rest)
  | 'S' :: rest => some (.item (.space true), rest)
  | 'A' :: rest => some (.anchor .textStart, rest)
  | 'z' :: rest => some (.anchor .textEnd, rest)
  | 'b' :: rest => some (.anchor (.wordEdge false), rest)
  | 'B' :: rest => some (.anchor (.wordEdge true), rest)
  | 'n' :: rest => some (.literal '\n', rest)
  | 't' :: rest => some (.literal '\t', rest)
  | 'r' :: rest => some (.literal '\r', rest)
  | 'f' :: rest => some (.literal '\x0c', rest)
  | 'v' :: rest => some (.literal '\x0b', rest)
  | 'a' :: rest => some (.literal '\x07', rest)
  | 'x' :: rest => readCodePoint 2 rest
  | 'u' :: rest => readCodePoint 4 rest
  | 'U' :: rest => readCodePoint 8 rest
  | c :: rest =>
      if c.toNat < 128 && !c.isAlphanum && c != '<' && c != '>' then some (.literal c, rest)
      else none

/-- Reads one entry of a class. -/
def readClassAtom : List Char → Option (Escape × List Char)
  | [] => none
  | '\\' :: rest =>
      match readEscape rest with
      | some (.anchor _, _) => none
      | result => result
  | '[' :: _ => none
  | c :: rest => some (.literal c, rest)

/-- Reads the entries of a class up to its closing bracket.  A bracket right at the start stands
for itself. -/
def readClassItems : (fuel : Nat) → (atStart : Bool) → List Char →
    Option (List ClassItem × List Char)
  | 0, _, _ => none
  | fuel + 1, atStart, cs =>
      match cs with
      | [] => none
      | ']' :: rest =>
          if atStart then
            (readClassItems fuel false rest).map fun (is, rest) => (.range ']' ']' :: is, rest)
          else some ([], rest)
      | cs => do
          let (atom, rest) ← readClassAtom cs
          match atom with
          | .anchor _ => none
          | .item i =>
              match rest with
              | '-' :: d :: _ =>
                  if d == ']' then
                    let (is, rest) ← readClassItems fuel false rest
                    return (i :: is, rest)
                  else none
              | rest =>
                  let (is, rest) ← readClassItems fuel false rest
                  return (i :: is, rest)
          | .literal first =>
              match rest with
              | '-' :: d :: more =>
                  if d == ']' then
                    let (is, rest) ← readClassItems fuel false rest
                    return (.range first first :: is, rest)
                  else
                    match ← readClassAtom (d :: more) with
                    | (.literal last, rest) =>
                        if last < first then none
                        else
                          let (is, rest) ← readClassItems fuel false rest
                          return (.range first last :: is, rest)
                    | _ => none
              | rest =>
                  let (is, rest) ← readClassItems fuel false rest
                  return (.range first first :: is, rest)

/-- Reads a class after its opening bracket. -/
def readClass (flags : Flags) (cs : List Char) : Option (Pattern × List Char) :=
  let (negated, cs) := match cs with
    | '^' :: cs => (true, cs)
    | cs => (false, cs)
  (readClassItems (cs.length + 1) true cs).map fun (items, rest) =>
    (.one { items, negated, fold := flags.fold }, rest)

/-- Reads flag letters up to a colon or a closing parenthesis; the flag tells which of the two it
was. -/
def readFlags : Flags → (on : Bool) → (some : Bool) → List Char →
    Option (Flags × Bool × List Char)
  | flags, on, any, c :: rest =>
      match c with
      | ':' => if on || any then some (flags, true, rest) else none
      | ')' => if any then some (flags, false, rest) else none
      | 'i' => readFlags { flags with fold := on } on true rest
      | 's' => readFlags { flags with dotAll := on } on true rest
      | 'm' => readFlags { flags with multiLine := on } on true rest
      | 'U' => readFlags flags on true rest
      | 'u' => if on then readFlags flags on true rest else none
      | '-' => if on then readFlags flags false false rest else none
      | _ => none
  | _, _, _, [] => none

/-- Reads the name of a group after its opening angle. -/
def skipGroupName (cs : List Char) : Option (List Char) :=
  let isNameChar := fun c : Char =>
    Text.isWordChar c || c == '.' || c == '[' || c == ']'
  match cs with
  | c :: _ =>
      if Text.isNameStart c then
        match cs.dropWhile isNameChar with
        | '>' :: rest => some rest
        | _ => none
      else none
  | [] => none

/-- Several patterns one after the other. -/
def sequence : List Pattern → Pattern
  | [] => .empty
  | [p] => p
  | p :: ps => .both p (sequence ps)

/-- One of several patterns. -/
def alternatives : List Pattern → Pattern
  | [] => .empty
  | [p] => p
  | p :: ps => .either p (alternatives ps)

/-- A part of a pattern under construction: finished alternatives and the parts of the current
one, both in reverse.  A flag group counts as a part that cannot be repeated. -/
structure Draft where
  branches : List Pattern := []
  parts : List (Option Pattern) := []

namespace Draft

/-- The current alternative. -/
def branch (d : Draft) : Pattern :=
  sequence (d.parts.reverse.filterMap id)

/-- Starts a new alternative. -/
def nextBranch (d : Draft) : Draft :=
  { branches := d.branch :: d.branches, parts := [] }

/-- The whole pattern. -/
def finish (d : Draft) : Pattern :=
  alternatives (d.branch :: d.branches).reverse

/-- Adds a part. -/
def push (d : Draft) (p : Pattern) : Draft :=
  { d with parts := some p :: d.parts }

/-- Puts a repetition around the last part. -/
def repeatLast? (d : Draft) (least : Nat) (most : Option Nat) : Option Draft :=
  match d.parts with
  | some p :: parts => some { d with parts := some (.rounds p least most) :: parts }
  | _ => none

end Draft

/-- Drops the mark of a reluctant repetition, which matches the same texts. -/
def skipReluctant : List Char → List Char
  | '?' :: rest => rest
  | cs => cs

/-- Reads a pattern up to its end or to a closing parenthesis, which is left. -/
def readDraft : (fuel : Nat) → Flags → Draft → List Char → Option (Pattern × List Char)
  | 0, _, _, _ => none
  | fuel + 1, flags, draft, cs =>
      let continued (p : Pattern) (rest : List Char) := readDraft fuel flags (draft.push p) rest
      match cs with
      | [] => some (draft.finish, [])
      | ')' :: rest => some (draft.finish, ')' :: rest)
      | '|' :: rest => readDraft fuel flags draft.nextBranch rest
      | '*' :: rest => do
          readDraft fuel flags (← draft.repeatLast? 0 none) (skipReluctant rest)
      | '+' :: rest => do
          readDraft fuel flags (← draft.repeatLast? 1 none) (skipReluctant rest)
      | '?' :: rest => do
          readDraft fuel flags (← draft.repeatLast? 0 (some 1)) (skipReluctant rest)
      | '\x7b' :: rest => do
          let (least, most, rest) ← readBounds rest
          readDraft fuel flags (← draft.repeatLast? least most) (skipReluctant rest)
      | '.' :: rest => continued (.one (.dot flags.dotAll)) rest
      | '^' :: rest => continued (if flags.multiLine then .lineStart else .textStart) rest
      | '$' :: rest => continued (if flags.multiLine then .lineEnd else .textEnd) rest
      | '[' :: rest => do
          let (p, rest) ← readClass flags rest
          continued p rest
      | '\\' :: rest => do
          let (escape, rest) ← readEscape rest
          match escape with
          | .literal c => continued (.one (.single c flags.fold)) rest
          | .item i => continued (.one { items := [i], negated := false, fold := false }) rest
          | .anchor p => continued p rest
      | '(' :: '?' :: 'P' :: '<' :: rest => do
          let rest ← skipGroupName rest
          closeGroup fuel flags draft (readDraft fuel flags {} rest)
      | '(' :: '?' :: '<' :: rest => do
          let rest ← skipGroupName rest
          closeGroup fuel flags draft (readDraft fuel flags {} rest)
      | '(' :: '?' :: rest => do
          let (inner, grouped, rest) ← readFlags flags true false rest
          if grouped then closeGroup fuel flags draft (readDraft fuel inner {} rest)
          else readDraft fuel inner { draft with parts := none :: draft.parts } rest
      | '(' :: rest => closeGroup fuel flags draft (readDraft fuel flags {} rest)
      | c :: rest => continued (.one (.single c flags.fold)) rest
where
  /-- Goes on after a group, whose closing parenthesis has to follow. -/
  closeGroup (fuel : Nat) (flags : Flags) (draft : Draft)
      (body : Option (Pattern × List Char)) : Option (Pattern × List Char) :=
    match body with
    | some (p, ')' :: rest) => readDraft fuel flags (draft.push p) rest
    | _ => none

/-- Reads a pattern. -/
def parse? (text : String) : Option Pattern :=
  let cs := text.toList
  match readDraft (2 * cs.length + 2) {} {} cs with
  | some (p, []) => some p
  | _ => none

/-- Reads a pattern, and tells the texts that match it somewhere. -/
def library (text : String) : Option (String → Bool) := (parse? text).map matchesIn

end ShardedSql.Pattern
