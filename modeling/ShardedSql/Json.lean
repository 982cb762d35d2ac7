import ShardedSql.Number.Binary64
import ShardedSql.Text.Numeral

/-!
# JSON documents

Documents and their reader.  Whole numbers that fit 64 bits stay exact, all others become
floating-point numbers; minus zero is a floating-point number as well.  A later member of an
object replaces an earlier one of the same name.  Nesting is limited, and nothing but blank
characters may follow the document.
-/

namespace ShardedSql

/-- A JSON document. -/
inductive Json where
  | null
  | bool (b : Bool)
  /-- A whole number between `-2 ^ 63` and `2 ^ 64 - 1`. -/
  | int (n : Int)
  | float (x : Binary64)
  | string (s : String)
  | array (items : List Json)
  | object (members : List (String × Json))
  deriving Repr, Inhabited

namespace Json

/-- Deepest nesting that is read. -/
def maxDepth : Nat := 127

/-- Member of an object. -/
def member? (members : List (String × Json)) (key : String) : Option Json :=
  members.lookup key

/-- Sets a member, replacing an earlier value. -/
def setMember (members : List (String × Json)) (key : String) (value : Json) :
    List (String × Json) :=
  if members.any (·.1 == key) then members.map fun m => if m.1 == key then (key, value) else m
  else members ++ [(key, value)]

/-- The four blank characters of JSON. -/
def isSpace (c : Char) : Bool :=
  c == ' ' || c == '\n' || c == '\t' || c == '\r'

/-- Drops blank characters. -/
def skipSpace (cs : List Char) : List Char :=
  cs.dropWhile isSpace

/-! ## Numbers -/

/-- Appends digits to a significand while it fits 64 bits.  Yields the significand, how many
digits were appended, and the first digit that no longer fits with all that follows. -/
def appendDigits : (significand count : Nat) → List Char → Nat × Nat × List Char
  | significand, count, c :: cs =>
      match Text.digitValue? c with
      | none => (significand, count, c :: cs)
      | some d =>
          if Nat.pow 2 64 - 1 < significand * 10 + d then (significand, count, c :: cs)
          else appendDigits (significand * 10 + d) (count + 1) cs
  | significand, count, [] => (significand, count, [])

/-- Whether a text starts with a digit. -/
def startsWithDigit : List Char → Bool
  | c :: _ => (Text.digitValue? c).isSome
  | [] => false

/-- Drops digits. -/
def skipDigits (cs : List Char) : List Char :=
  cs.dropWhile fun c => (Text.digitValue? c).isSome

/-- The number of leading digits. -/
def digitCount (cs : List Char) : Nat :=
  (cs.takeWhile fun c => (Text.digitValue? c).isSome).length

/-- A floating-point number with a sign. -/
def signedFloat (negative : Bool) (x : Binary64) : Json :=
  float (if negative then x.neg else x)

/-- Scales a significand, failing when the number is too large. -/
def scaledFloat (negative : Bool) (significand : Nat) (exponent : Int) : Option Json :=
  (Binary64.ofScientific? significand exponent).map (signedFloat negative)

/-- Reads the exponent after its letter. -/
def readExponent (negative : Bool) (significand : Nat) (exponent : Int) (cs : List Char) :
    Option (Json × List Char) :=
  let (down, cs) := match cs with
    | '+' :: cs => (false, cs)
    | '-' :: cs => (true, cs)
    | cs => (false, cs)
  if !startsWithDigit cs then none
  else
    let digits := cs.takeWhile fun c => (Text.digitValue? c).isSome
    let rest := skipDigits cs
    match Text.accumulateDigits (Nat.pow 2 31 - 1) .tooLarge 0 digits with
    | .ok n =>
        let e : Int := if down then exponent - n else exponent + n
        (scaledFloat negative significand e).map fun j => (j, rest)
    | .error _ =>
        if significand == 0 || down then some (signedFloat negative (Binary64.ofInt 0), rest)
        else none

/-- Reads what may follow the digits of a significand: an exponent or nothing. -/
def readTail (negative : Bool) (significand : Nat) (exponent : Int) (cs : List Char) :
    Option (Json × List Char) :=
  match cs with
  | 'e' :: rest => readExponent negative significand exponent rest
  | 'E' :: rest => readExponent negative significand exponent rest
  | _ => (scaledFloat negative significand exponent).map fun j => (j, cs)

/-- Reads the digits after the point; digits that no longer fit the significand are dropped. -/
def readFraction (negative : Bool) (significand : Nat) (exponent : Int) (cs : List Char) :
    Option (Json × List Char) :=
  if !startsWithDigit cs then none
  else
    let (significand, count, rest) := appendDigits significand 0 cs
    readTail negative significand (exponent - count) (skipDigits rest)

/-- A whole number: exact when it fits, minus zero and overlong negatives as floats. -/
def wholeNumber (negative : Bool) (n : Nat) : Json :=
  if !negative then int n
  else if n == 0 || Nat.pow 2 63 < n then signedFloat true (Binary64.ofInt n)
  else int (-n)

/-- Reads a number after its sign. -/
def readMagnitude (negative : Bool) (cs : List Char) : Option (Json × List Char) :=
  if !startsWithDigit cs then none
  else
    let leadingZero := match cs with
      | '0' :: rest => startsWithDigit rest
      | _ => false
    if leadingZero then none
    else
      let (significand, _, rest) := appendDigits 0 0 cs
      let dropped := digitCount rest
      match skipDigits rest with
      | '.' :: rest => readFraction negative significand dropped rest
      | 'e' :: rest => readExponent negative significand dropped rest
      | 'E' :: rest => readExponent negative significand dropped rest
      | rest =>
          if dropped == 0 then some (wholeNumber negative significand, rest)
          else (scaledFloat negative significand dropped).map fun j => (j, rest)

/-! ## Strings -/

/-- Value of a hexadecimal digit. -/
def hexValue? (c : Char) : Option Nat :=
  if '0' ≤ c && c ≤ '9' then some (c.toNat - '0'.toNat)
  else if 'a' ≤ c && c ≤ 'f' then some (c.toNat - 'a'.toNat + 10)
  else if 'A' ≤ c && c ≤ 'F' then some (c.toNat - 'A'.toNat + 10)
  else none

/-- Value of four hexadecimal digits. -/
def hexUnit? (a b c d : Char) : Option Nat := do
  let a ← hexValue? a
  let b ← hexValue? b
  let c ← hexValue? c
  let d ← hexValue? d
  return ((a * 16 + b) * 16 + c) * 16 + d

/-- The character of a two-character escape. -/
def simpleEscape? : Char → Option Char
  | '"' => some '"'
  | '\\' => some '\\'
  | '/' => some '/'
  | 'b' => some '\x08'
  | 'f' => some '\x0c'
  | 'n' => some '\n'
  | 'r' => some '\r'
  | 't' => some '\t'
  | _ => none

/-- Reads a string after its opening quote.  Characters outside the basic plane may be escaped as
a pair of surrogates; a lone surrogate is refused, and so is an unescaped control character. -/
def readString : List Char → Option (List Char × List Char)
  | [] => none
  | '"' :: rest => some ([], rest)
  | '\\' :: 'u' :: a :: b :: c :: d :: rest =>
      match hexUnit? a b c d with
      | none => none
      | some n =>
          if 0xDC00 ≤ n && n ≤ 0xDFFF then none
          else if 0xD800 ≤ n && n ≤ 0xDBFF then
            match rest with
            | '\\' :: 'u' :: e :: f :: g :: h :: rest =>
                match hexUnit? e f g h with
                | none => none
                | some m =>
                    if 0xDC00 ≤ m && m ≤ 0xDFFF then
                      let code := 0x10000 + (n - 0xD800) * 0x400 + (m - 0xDC00)
                      (readString rest).map fun (s, rest) => (Char.ofNat code :: s, rest)
                    else none
            | _ => none
          else (readString rest).map fun (s, rest) => (Char.ofNat n :: s, rest)
  | '\\' :: c :: rest =>
      match simpleEscape? c with
      | none => none
      | some e => (readString rest).map fun (s, rest) => (e :: s, rest)
  | c :: rest =>
      if c.toNat < 0x20 then none
      else (readString rest).map fun (s, rest) => (c :: s, rest)

/-! ## Values -/

mutual

/-- Reads a value.  `fuel` bounds the number of steps, `depth` the nesting that is left. -/
def readValue : (fuel depth : Nat) → List Char → Option (Json × List Char)
  | 0, _, _ => none
  | fuel + 1, depth, cs =>
      match skipSpace cs with
      | 'n' :: 'u' :: 'l' :: 'l' :: rest => some (null, rest)
      | 't' :: 'r' :: 'u' :: 'e' :: rest => some (bool true, rest)
      | 'f' :: 'a' :: 'l' :: 's' :: 'e' :: rest => some (bool false, rest)
      | '"' :: rest => (readString rest).map fun (s, rest) => (string (String.ofList s), rest)
      | '-' :: rest => readMagnitude true rest
      | '[' :: rest =>
          match depth with
          | 0 => none
          | depth + 1 =>
              match skipSpace rest with
              | ']' :: rest => some (array [], rest)
              | rest => (readItems fuel depth rest).map fun (js, rest) => (array js, rest)
      | '\x7b' :: rest =>
          match depth with
          | 0 => none
          | depth + 1 =>
              match skipSpace rest with
              | '\x7d' :: rest => some (object [], rest)
              | rest => (readMembers fuel depth [] rest).map fun (ms, rest) => (object ms, rest)
      | rest => readMagnitude false rest

/-- Reads the items of an array up to its closing bracket. -/
def readItems : (fuel depth : Nat) → List Char → Option (List Json × List Char)
  | 0, _, _ => none
  | fuel + 1, depth, cs =>
      match readValue fuel depth cs with
      | none => none
      | some (j, rest) =>
          match skipSpace rest with
          | ']' :: rest => some ([j], rest)
          | ',' :: rest => (readItems fuel depth rest).map fun (js, rest) => (j :: js, rest)
          | _ => none

/-- Reads the members of an object up to its closing brace. -/
def readMembers : (fuel depth : Nat) → List (String × Json) → List Char →
    Option (List (String × Json) × List Char)
  | 0, _, _, _ => none
  | fuel + 1, depth, members, cs =>
      match skipSpace cs with
      | '"' :: rest =>
          match readString rest with
          | none => none
          | some (key, rest) =>
              match skipSpace rest with
              | ':' :: rest =>
                  match readValue fuel depth rest with
                  | none => none
                  | some (j, rest) =>
                      let members := setMember members (String.ofList key) j
                      match skipSpace rest with
                      | '\x7d' :: rest => some (members, rest)
                      | ',' :: rest => readMembers fuel depth members rest
                      | _ => none
              | _ => none
      | _ => none

end

/-- Reads a document. -/
def parse? (text : String) : Option Json :=
  let cs := text.toList
  match readValue (2 * cs.length + 2) maxDepth cs with
  | some (j, rest) => if (skipSpace rest).isEmpty then some j else none
  | none => none

end Json

end ShardedSql
