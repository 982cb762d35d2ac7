import ShardedSql.Text.Pieces

/-!
# Percent coding

A character is escaped by writing each of its UTF-8 bytes as a percent sign and two hexadecimal
digits in upper case.
-/

namespace ShardedSql.Text

/-- A hexadecimal digit in upper case. -/
def upperHexDigit (n : Nat) : Char :=
  if n < 10 then Char.ofNat ('0'.toNat + n) else Char.ofNat ('A'.toNat + (n - 10))

/-- A byte as an escape. -/
def percentByte (b : UInt8) : List Char :=
  ['%', upperHexDigit (b.toNat / 16), upperHexDigit (b.toNat % 16)]

/-- Escapes the characters that satisfy `escaped`. -/
def percentEncode (escaped : Char → Bool) (cs : List Char) : List Char :=
  cs.flatMap fun c => if escaped c then (bytes (String.singleton c)).flatMap percentByte else [c]

/-- Value of a hexadecimal digit. -/
def hexValue? (c : Char) : Option Nat :=
  if '0' ≤ c && c ≤ '9' then some (c.toNat - '0'.toNat)
  else if 'a' ≤ c && c ≤ 'f' then some (c.toNat - 'a'.toNat + 10)
  else if 'A' ≤ c && c ≤ 'F' then some (c.toNat - 'A'.toNat + 10)
  else none

/-- The byte of two hexadecimal digits. -/
def hexByte? (high low : Char) : Option UInt8 :=
  match hexValue? high, hexValue? low with
  | some h, some l => some (UInt8.ofNat (h * 16 + l))
  | _, _ => none

/-- Resolves escapes; a percent sign that starts none stands for itself. -/
def percentDecode : List Char → List UInt8
  | '%' :: high :: low :: cs =>
      match hexByte? high low with
      | some b => b :: percentDecode cs
      | none => bytes "%" ++ percentDecode (high :: low :: cs)
  | c :: cs => bytes (String.singleton c) ++ percentDecode cs
  | [] => []

/-- The text of resolved escapes, if its bytes are well formed. -/
def percentDecoded? (cs : List Char) : Option String :=
  ofBytes? (percentDecode cs)

/-- Whether a character is a control character or not in ASCII. -/
def isControlOrWide (c : Char) : Bool :=
  c.toNat < 0x20 || 0x7F ≤ c.toNat

end ShardedSql.Text
