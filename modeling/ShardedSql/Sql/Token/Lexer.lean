import ShardedSql.Sql.Token.Literal
import ShardedSql.Text.Blank

/-!
# Reading tokens

Text is cut into tokens from the left; blanks and comments separate tokens and are dropped.  A
text with an unfinished string, quoted name or comment has no tokens.
-/

namespace ShardedSql.Sql

/-- What is left of a text, after a token or something that is dropped. -/
abbrev Scanned := Option Token × List Char

/-- Marks of several characters, the longer ones first. -/
def longMarks : List String :=
  ["!~~*", "<=>", "->>", "#>>", "!~*", "~~*", "!~~", "::", ":=", "=>", "==", "!=", "<>", "<=",
    ">=", "<<", ">>", "->", "||", "&&", "#>", "#-", "@>", "<@", "@@", "@?", "?|", "?&", "~*", "!~",
    "~~", "^@", "!!"]

/-- Marks of one character. -/
def shortMarks : List Char :=
  ['(', ')', '[', ']', ',', ';', '.', '+', '-', '*', '/', '%', '=', '<', '>', '|', '&', '^', '~',
    '!', '#', '@', ':', '?', '\\', '\x7b', '\x7d']

/-- The longest known mark at the start of a text. -/
def knownMark? (cs : List Char) : Option String :=
  match longMarks.find? fun m => m.toList.isPrefixOf cs with
  | some m => some m
  | none =>
      match cs with
      | c :: _ => if c ∈ shortMarks then some (String.ofList [c]) else none
      | [] => none

/-- Reads a mark. -/
def scanMark (d : Dialect) (cs : List Char) : Option Scanned := do
  let known ← knownMark? cs
  let rest := cs.drop known.length
  if d.hasFreeOperators && isExtensible known then
    return (some (.mark (String.ofList (known.toList ++ rest.takeWhile isOperatorChar))),
      rest.dropWhile isOperatorChar)
  else return (some (.mark known), rest)

/-- Skips the rest of a block comment that is open `depth` times. -/
def skipBlock (nests : Bool) : (depth : Nat) → List Char → Option (List Char)
  | 0, cs => some cs
  | _ + 1, [] => none
  | _ + 1, [_] => none
  | depth + 1, c :: e :: cs =>
      if nests && c == '/' && e == '*' then skipBlock nests (depth + 2) cs
      else if c == '*' && e == '/' then skipBlock nests depth cs
      else skipBlock nests (depth + 1) (e :: cs)

/-- Skips to the end of the line. -/
def skipLine (cs : List Char) : List Char :=
  (cs.dropWhile (· != '\n')).drop 1

/-- Reads an exponent, if there is one. -/
def scanExponent (cs : List Char) : List Char × List Char :=
  match cs with
  | e :: rest =>
      if e == 'e' || e == 'E' then
        let (sign, digits) := match rest with
          | '+' :: ds => (['+'], ds)
          | '-' :: ds => (['-'], ds)
          | ds => ([], ds)
        if (digits.head?.map Char.isDigit).getD false then
          (e :: sign ++ digits.takeWhile Char.isDigit, digits.dropWhile Char.isDigit)
        else ([], cs)
      else ([], cs)
  | [] => ([], [])

/-- Digits at the start of a text; where separators are allowed, an underscore may stand in front of
a digit. -/
def scanDigits (separators : Bool) (isDigit : Char → Bool) : List Char → List Char × List Char
  | [] => ([], [])
  | c :: cs =>
      if isDigit c || (separators && c == '_' && (cs.head?.map Char.isDigit).getD false) then
        let (digits, rest) := scanDigits separators isDigit cs
        (c :: digits, rest)
      else ([], c :: cs)

/-- Reads a number or, where there are no digits, a dot. -/
def scanNumber (d : Dialect) (cs : List Char) : Token × List Char :=
  let (whole, rest) := scanDigits d.separatesDigits Char.isDigit cs
  match whole, rest with
  | ['0'], 'x' :: cs =>
      let (digits, rest) := scanDigits d.separatesDigits (isDigitOf 16) cs
      (markedString 'X' digits, rest)
  | _, _ =>
      let (fraction, rest) := match rest with
        | '.' :: ds =>
            let (digits, rest) := scanDigits d.separatesDigits Char.isDigit ds
            ('.' :: digits, rest)
        | ds => ([], ds)
      if whole.isEmpty && fraction.length == 1 then (.mark ".", rest)
      else
        let (exponent, rest) := scanExponent rest
        let (long, rest) := match rest with
          | 'L' :: cs => (['L'], cs)
          | cs => ([], cs)
        (.number (String.ofList (whole ++ fraction ++ exponent ++ long)), rest)

/-- Reads what starts with a dollar sign: a string between fences, or a parameter. -/
def scanDollar (cs : List Char) : Option (Token × List Char) :=
  let name := cs.takeWhile Text.isWordChar
  match cs.dropWhile Text.isWordChar with
  | '$' :: rest => scanFenced name rest
  | rest => some (.parameter (String.ofList ('$' :: name)), rest)

/-- Whether a text starts a comment that runs to the end of the line. -/
def startsLineComment (d : Dialect) : List Char → Bool
  | '-' :: '-' :: c :: _ => d != .mysql || c == ' '
  | ['-', '-'] => d != .mysql
  | '#' :: _ => d == .mysql
  | _ => false

/-- Reads a word. -/
def scanWord (d : Dialect) (c : Char) (cs : List Char) : Scanned :=
  (some (.word ⟨String.ofList (c :: cs.takeWhile d.continuesName), none⟩),
    cs.dropWhile d.continuesName)

/-- Reads what comes first in a text that is not empty. -/
def scan (d : Dialect) (c : Char) (cs : List Char) : Option Scanned :=
  let token := fun (t : Token × List Char) => (some t.1, t.2)
  if c ∈ [' ', '\t', '\n', '\r'] then some (none, cs)
  else if d.quotesString c then
    (scanQuoted d.hasEscapes c cs).map fun (s, rest) => (some (.string c (String.ofList s)), rest)
  else if d.quotesName c then
    (scanQuoted false c cs).map fun (s, rest) => (some (.word ⟨String.ofList s, some c⟩), rest)
  else if c.isDigit || c == '.' then some (token (scanNumber d (c :: cs)))
  else if startsLineComment d (c :: cs) then some (none, skipLine cs)
  else if c == '/' && cs.head? == some '*' then
    (skipBlock d.nestsComments 1 (cs.drop 1)).map fun rest => (none, rest)
  else if c == '?' && d != .postgres then
    some (some (.parameter (String.ofList ('?' :: cs.takeWhile Char.isDigit))),
      cs.dropWhile Char.isDigit)
  else if d.startsName c then
    let marked :=
      if cs.head? == some '\x27' then scanMarked? d c (cs.drop 1)
      else if c ∈ ['u', 'U'] && d != .mysql && cs.take 2 == ['&', '\x27'] then
        some (scanUnicode (cs.drop 2))
      else none
    match marked with
    | some read => read.map token
    | none => some (scanWord d c cs)
  else if c == '$' then (scanDollar cs).map token
  else if Text.isBlank c then some (none, cs)
  else scanMark d (c :: cs)

/-- Reads at most `fuel` tokens and separators. -/
def scanAll (d : Dialect) : (fuel : Nat) → List Char → Option (List Token)
  | _, [] => some []
  | 0, _ :: _ => none
  | fuel + 1, c :: cs => do
      let (token, rest) ← scan d c cs
      return token.toList ++ (← scanAll d fuel rest)

/-- The tokens of a text. -/
def tokens? (d : Dialect) (text : String) : Option (List Token) :=
  scanAll d text.length text.toList

end ShardedSql.Sql
