import ShardedSql.Text.Case
import ShardedSql.Text.Percent

/-!
# Hosts

The host of a URL is an address in brackets or a name.  For the schemes of the web a name is a
domain, or an address of four bytes in one of its many spellings; for all other schemes it is taken
as it is.
-/

namespace ShardedSql.Url

/-- Characters that no host contains. -/
def forbiddenInHost : List Char :=
  ['\x00', '\t', '\n', '\r', ' ', '#', '/', ':', '<', '>', '?', '@', '[', '\\', ']', '^', '|']

/-- Whether a domain cannot contain a character. -/
def isForbiddenInDomain (c : Char) : Bool :=
  c ∈ forbiddenInHost || c == '%' || c.toNat < 0x20 || c.toNat == 0x7F

/-! ## Addresses of four bytes -/

/-- The number with the given digits, if they are digits of the base. -/
def digitsValue? (base : Nat) (cs : List Char) : Option Nat :=
  cs.foldlM (fun n c => do
    let d ← Text.hexValue? c
    if d < base then some (n * base + d) else none) 0

/-- A number in C notation: hexadecimal after `0x`, octal after `0`, else decimal. -/
def cNumber? : List Char → Option Nat
  | [] => none
  | '0' :: 'x' :: cs => digitsValue? 16 cs
  | '0' :: 'X' :: cs => digitsValue? 16 cs
  | ['0'] => some 0
  | '0' :: cs => digitsValue? 8 cs
  | cs => digitsValue? 10 cs

/-- The parts of a domain; a dot at its end counts for nothing. -/
def domainParts (domain : List Char) : List (List Char) :=
  let parts := Text.splitChars '.' domain
  if 1 < parts.length && parts.getLast? == some [] then parts.dropLast else parts

/-- Whether a domain has to be an address: its last part is a number. -/
def endsInNumber (domain : List Char) : Bool :=
  match (domainParts domain).getLast? with
  | some part => !part.isEmpty && (part.all Char.isDigit || (cNumber? part).isSome)
  | none => false

/-- The address with the given parts: all but the last are bytes, and the last fills the rest. -/
def addressOfParts? : List (List Char) → Option Nat
  | parts => do
      let numbers ← parts.mapM cNumber?
      let last ← numbers.getLast?
      let leading := numbers.dropLast
      if 4 < parts.length || leading.any (255 < ·) ||
          Nat.pow 256 (4 - leading.length) ≤ last then none
      else
        return (leading.zipIdx.map fun (n, i) => n * Nat.pow 256 (3 - i)).foldr (· + ·) 0 + last

/-- An address as four decimal numbers. -/
def dottedText (address : Nat) : String :=
  Text.joined "." ([3, 2, 1, 0].map fun i => toString (address / Nat.pow 256 i % 256))

/-! ## Addresses of eight words -/

/-- A word of one to four hexadecimal digits. -/
def word? (cs : List Char) : Option Nat :=
  if cs.isEmpty || 4 < cs.length then none else digitsValue? 16 cs

/-- A decimal byte without leading zeros. -/
def decimalByte? (cs : List Char) : Option Nat :=
  match cs with
  | '0' :: _ :: _ => none
  | [] => none
  | cs => (digitsValue? 10 cs).filter (· < 256)

/-- The two words of four decimal bytes. -/
def wordsOfBytes? (cs : List Char) : Option (List Nat) :=
  match (Text.splitChars '.' cs).mapM decimalByte? with
  | some [a, b, c, d] => some [a * 256 + b, c * 256 + d]
  | _ => none

/-- Words separated by colons; four decimal bytes may stand for the last two. -/
def wordList? (mayEndInBytes : Bool) (cs : List Char) : Option (List Nat) :=
  if cs.isEmpty then some []
  else
    let parts := Text.splitChars ':' cs
    match parts.mapM word? with
    | some words => some words
    | none => do
        if !mayEndInBytes then none
        let words ← parts.dropLast.mapM word?
        return words ++ (← wordsOfBytes? (← parts.getLast?))

/-- The eight words of an address; two colons stand for all the zeros that are missing. -/
def eightWords? (cs : List Char) : Option (List Nat) :=
  match Text.breakOn [':', ':'] cs with
  | none => (wordList? true cs).filter (·.length == 8)
  | some (before, after) => do
      let front ← wordList? false before
      let back ← wordList? true after
      if 7 < front.length + back.length then none
      else return front ++ List.replicate (8 - front.length - back.length) 0 ++ back

/-- The number of zeros at the start of a list of words. -/
def zeroRun (words : List Nat) : Nat :=
  (words.takeWhile (· == 0)).length

/-- Where the first of the longest runs of zeros starts, if it has more than one. -/
def longestZeroRun? (words : List Nat) : Option Nat :=
  let runs := (List.range words.length).map fun i => zeroRun (words.drop i)
  let longest := runs.foldl max 0
  if longest < 2 then none else runs.findIdx? (· == longest)

/-- Words separated by colons. -/
def wordsText (words : List Nat) : String :=
  Text.joined ":" (words.map fun w => String.ofList (Text.hexDigits w))

/-- An address of eight words; the longest run of zeros is left out. -/
def wordsAddressText (words : List Nat) : String :=
  match longestZeroRun? words with
  | none => wordsText words
  | some start =>
      wordsText (words.take start) ++ "::" ++
        wordsText (words.drop (start + zeroRun (words.drop start)))

/-! ## Hosts -/

/-- An address in brackets. -/
def bracketed? (cs : List Char) : Option String := do
  if cs.getLast? != some ']' then none
  let words ← eightWords? cs.tail.dropLast
  return "[" ++ wordsAddressText words ++ "]"

/-- A host that is taken as it is. -/
def plainHost? (cs : List Char) : Option String :=
  if cs.head? == some '[' then bracketed? cs
  else if cs.any (· ∈ forbiddenInHost) then none
  else some (String.ofList (Text.percentEncode Text.isControlOrWide cs))

/-- A domain in ASCII, or an address. -/
def domain? (cs : List Char) : Option String :=
  if cs.head? == some '[' then bracketed? cs
  else do
    let domain := (← Text.percentDecoded? cs).toList.map Char.toLower
    if domain.isEmpty || domain.any (fun c => isForbiddenInDomain c || 0x7F < c.toNat) then none
    if endsInNumber domain then
      return dottedText (← addressOfParts? (domainParts domain))
    else return String.ofList domain

end ShardedSql.Url
