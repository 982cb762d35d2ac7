import ShardedSql.Sql.Dialect
import ShardedSql.Sql.Token
import ShardedSql.Text.Percent

/-!
# Strings of special kinds

A letter in front of a quote, or a fence of dollar signs, changes how a string is read.  Such a
string is one token, which is kept in its written form.
-/

namespace ShardedSql.Sql

/-- The character that a backslash and another character stand for. -/
def unescape : Char → Char
  | '0' => '\x00'
  | 'a' => '\x07'
  | 'b' => '\x08'
  | 'f' => '\x0c'
  | 'n' => '\n'
  | 'r' => '\r'
  | 't' => '\t'
  | 'Z' => '\x1a'
  | c => c

/-- Reads up to a closing quote; a doubled quote stands for one.  Where backslashes escape, those
before wildcards are kept. -/
def scanQuoted (escapes : Bool) (quote : Char) : List Char → Option (List Char × List Char)
  | [] => none
  | [c] => if c == quote then some ([], []) else none
  | c :: e :: cs =>
      if c == quote then
        if e == quote then (scanQuoted escapes quote cs).map fun (s, rest) => (quote :: s, rest)
        else some ([], e :: cs)
      else if escapes && c == '\\' then
        let image := if e == '%' || e == '_' then [c, e] else [unescape e]
        (scanQuoted escapes quote cs).map fun (s, rest) => (image ++ s, rest)
      else (scanQuoted escapes quote (e :: cs)).map fun (s, rest) => (c :: s, rest)

/-! ## Strings with their own escapes -/

/-- Whether a character is a digit of a radix of at most sixteen. -/
def isDigitOf (radix : Nat) (c : Char) : Bool :=
  ((Text.hexValue? c).map (decide <| · < radix)).getD false

/-- The number that digits stand for. -/
def digitsValue (radix : Nat) (digits : List Char) : Nat :=
  digits.foldl (fun n c => n * radix + (Text.hexValue? c).getD 0) 0

/-- The character with a number, which may not be zero. -/
def character? (n : Nat) : Option Char :=
  if n ≠ 0 ∧ n.isValidChar then some (Char.ofNat n) else none

/-- The character that digits for one byte stand for; only the ASCII range is allowed. -/
def byteCharacter? (radix : Nat) (digits : List Char) : Option Char :=
  let n := digitsValue radix digits % 256
  if n < 128 then character? n else none

/-- Reads a character given by exactly `width` hexadecimal digits. -/
def readCharacter (width : Nat) (cs : List Char) : Option (Char × List Char) :=
  let digits := cs.take width
  if digits.length == width && digits.all (isDigitOf 16) then
    (character? (digitsValue 16 digits)).map (·, cs.drop width)
  else none

/-- Reads what follows a backslash. -/
def readEscape : List Char → Option (Char × List Char)
  | 'b' :: cs => some ('\x08', cs)
  | 'f' :: cs => some ('\x0c', cs)
  | 'n' :: cs => some ('\n', cs)
  | 'r' :: cs => some ('\r', cs)
  | 't' :: cs => some ('\t', cs)
  | 'u' :: cs => readCharacter 4 cs
  | 'U' :: cs => readCharacter 8 cs
  | 'x' :: cs =>
      let digits := (cs.take 2).takeWhile (isDigitOf 16)
      if digits.isEmpty then some ('x', cs)
      else (byteCharacter? 16 digits).map (·, cs.drop digits.length)
  | c :: cs =>
      if isDigitOf 8 c then
        let digits := (cs.take 2).takeWhile (isDigitOf 8)
        (byteCharacter? 8 (c :: digits)).map (·, cs.drop digits.length)
      else some (c, cs)
  | [] => none

/-- Reads at most `fuel` characters up to a closing quote. -/
def scanEscaped : (fuel : Nat) → List Char → Option (List Char × List Char)
  | 0, _ => none
  | _ + 1, [] => none
  | fuel + 1, '\x27' :: '\x27' :: cs =>
      (scanEscaped fuel cs).map fun (s, rest) => ('\x27' :: s, rest)
  | _ + 1, '\x27' :: cs => some ([], cs)
  | fuel + 1, '\\' :: cs => do
      let (c, cs) ← readEscape cs
      (scanEscaped fuel cs).map fun (s, rest) => (c :: s, rest)
  | fuel + 1, c :: cs => (scanEscaped fuel cs).map fun (s, rest) => (c :: s, rest)

/-- The written form of a character in such a string. -/
def escapedCharacter : Char → List Char
  | '\x27' => ['\\', '\x27']
  | '\\' => ['\\', '\\']
  | '\n' => ['\\', 'n']
  | '\t' => ['\\', 't']
  | '\r' => ['\\', 'r']
  | c => [c]

/-! ## Strings with numbered characters -/

/-- Reads the number of a character, of exactly `width` hexadecimal digits. -/
def readNumbered (width : Nat) (cs : List Char) : Option (Char × List Char) :=
  let digits := cs.take width
  let n := digitsValue 16 digits
  if digits.length == width && digits.all (isDigitOf 16) && decide n.isValidChar then
    some (Char.ofNat n, cs.drop width)
  else none

/-- Reads at most `fuel` characters up to a closing quote; a backslash stands before the number of a
character. -/
def scanNumbered : (fuel : Nat) → List Char → Option (List Char × List Char)
  | 0, _ => none
  | _ + 1, [] => none
  | fuel + 1, '\x27' :: '\x27' :: cs =>
      (scanNumbered fuel cs).map fun (s, rest) => ('\x27' :: s, rest)
  | _ + 1, '\x27' :: cs => some ([], cs)
  | fuel + 1, '\\' :: '\\' :: cs =>
      (scanNumbered fuel cs).map fun (s, rest) => ('\\' :: s, rest)
  | fuel + 1, '\\' :: cs => do
      let (c, cs) ← match cs with
        | '+' :: cs => readNumbered 6 cs
        | cs => readNumbered 4 cs
      (scanNumbered fuel cs).map fun (s, rest) => (c :: s, rest)
  | fuel + 1, c :: cs => (scanNumbered fuel cs).map fun (s, rest) => (c :: s, rest)

/-- The last `width` hexadecimal digits of a number. -/
def hexDigits : (width : Nat) → Nat → List Char
  | 0, _ => []
  | width + 1, n => hexDigits width (n / 16) ++ [Text.upperHexDigit (n % 16)]

/-- The written form of a character in such a string. -/
def numberedCharacter (c : Char) : List Char :=
  if c == '\x27' || c == '\\' then [c, c]
  else if c.toNat < 0x80 then [c]
  else if c.toNat ≤ 0xFFFF then '\\' :: hexDigits 4 c.toNat
  else '\\' :: '+' :: hexDigits 6 c.toNat

/-! ## Tokens -/

/-- The token of a string with numbered characters, the mark in front of it being taken. -/
def scanUnicode (cs : List Char) : Option (Token × List Char) :=
  (scanNumbered (cs.length + 1) cs).map fun (s, rest) =>
    (.literal (String.ofList ('U' :: '&' :: '\x27' :: s.flatMap numberedCharacter ++ ['\x27'])),
      rest)

/-- The token of a string of a special kind. -/
def markedString (letter : Char) (inside : List Char) : Token :=
  .literal (String.ofList (letter :: '\x27' :: inside ++ ['\x27']))

/-- Reads a string after the letter and the quote in front of it; `none` if the letter does not
change how a string is read. -/
def scanMarked? (d : Dialect) (letter : Char) (cs : List Char) :
    Option (Option (Token × List Char)) :=
  let kind := letter.toUpper
  let quoted := fun escapes =>
    (scanQuoted escapes '\x27' cs).map fun (s, rest) => (markedString kind s, rest)
  if kind == 'N' then some (quoted d.hasEscapes)
  else if kind == 'X' then some (quoted true)
  else if kind == 'B' then some (quoted false)
  else if kind == 'E' && d != .mysql then
    some ((scanEscaped (cs.length + 1) cs).map fun (s, rest) =>
      (markedString kind (s.flatMap escapedCharacter), rest))
  else none

/-- Splits a text at the first place where a fence stands. -/
def upToFence (fence : List Char) : List Char → Option (List Char × List Char)
  | [] => if fence.isEmpty then some ([], []) else none
  | c :: cs =>
      if fence.isPrefixOf (c :: cs) then some ([], (c :: cs).drop fence.length)
      else (upToFence fence cs).map fun (s, rest) => (c :: s, rest)

/-- Reads a string between fences of dollar signs with a tag, the first fence being taken. -/
def scanFenced (tag : List Char) (cs : List Char) : Option (Token × List Char) :=
  let fence := '$' :: tag ++ ['$']
  (upToFence fence cs).map fun (s, rest) => (.literal (String.ofList (fence ++ s ++ fence)), rest)

end ShardedSql.Sql
