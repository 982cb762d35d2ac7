/-!
# Decimal numerals

Reading of 64-bit integers.  A sign is allowed in front of at least one digit; a minus sign only
for signed numbers.  Digits are consumed from the left and the first obstacle decides the error,
so an overflow found before a wrong character is reported as an overflow.
-/

namespace ShardedSql.Text

/-- Why a text is no numeral of the wanted range. -/
inductive NumeralFault where
  | empty
  /-- A character that is no digit, or a sign alone. -/
  | invalidDigit
  | tooLarge
  | tooSmall
  deriving DecidableEq, Repr

/-- Wording of a numeral fault. -/
def NumeralFault.message : NumeralFault → String
  | .empty => "cannot parse integer from empty string"
  | .invalidDigit => "invalid digit found in string"
  | .tooLarge => "number too large to fit in target type"
  | .tooSmall => "number too small to fit in target type"

/-- Value of a decimal digit. -/
def digitValue? (c : Char) : Option Nat :=
  if '0' ≤ c && c ≤ '9' then some (c.toNat - '0'.toNat) else none

/-- Accumulates digits from the left; exceeding `limit` is reported as `overflow`. -/
def accumulateDigits (limit : Nat) (overflow : NumeralFault) :
    Nat → List Char → Except NumeralFault Nat
  | total, [] => .ok total
  | total, c :: cs =>
      match digitValue? c with
      | none => .error .invalidDigit
      | some d =>
          if limit < total * 10 + d then .error overflow
          else accumulateDigits limit overflow (total * 10 + d) cs

/-- Reads at least one digit. -/
def readMagnitude (limit : Nat) (overflow : NumeralFault) : List Char → Except NumeralFault Nat
  | [] => .error .invalidDigit
  | cs => accumulateDigits limit overflow 0 cs

/-- An unsigned number of at most `limit`. -/
def readUnsigned (limit : Nat) (s : String) : Except NumeralFault Nat :=
  match s.toList with
  | [] => .error .empty
  | '+' :: cs => readMagnitude limit .tooLarge cs
  | cs => readMagnitude limit .tooLarge cs

/-- An unsigned 64-bit number. -/
def readNat64 (s : String) : Except NumeralFault Nat :=
  readUnsigned (Nat.pow 2 64 - 1) s

/-- A signed 64-bit number. -/
def readInt64 (s : String) : Except NumeralFault Int64 :=
  match s.toList with
  | [] => .error .empty
  | '+' :: cs => (readMagnitude (Nat.pow 2 63 - 1) .tooLarge cs).map (Int64.ofNat ·)
  | '-' :: cs => (readMagnitude (Nat.pow 2 63) .tooSmall cs).map fun n => Int64.ofInt (-n)
  | cs => (readMagnitude (Nat.pow 2 63 - 1) .tooLarge cs).map (Int64.ofNat ·)

end ShardedSql.Text
