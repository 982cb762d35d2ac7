/-!
# Binary floating-point words

A 64-bit floating-point number is its word.  Apart from infinities and NaNs a word denotes an
exact multiple of the smallest positive number, so comparison, sums, products and quotients are
computed on integers and rounded once, to the nearest word, a tie going to the even one.

The magnitude part of a word is called its code.  Codes are ordered like the numbers they denote,
and the code of the nearest number is found by one rounded division (`roundCode`).
-/

namespace ShardedSql

namespace Rounding

/-- The integer nearest to a quotient; a half goes to the even neighbour. -/
def halfEven (num den : Nat) : Nat :=
  let q := num / den
  let r := num % den
  if 2 * r < den then q
  else if den < 2 * r then q + 1
  else q + q % 2

/-- The code nearest to `num / den` smallest units, for words with `fractionBits` bits of fraction.
The number is cut to `fractionBits + 1` significant bits when it has more; the carry of a rounding
up to the next power of two moves into the exponent field by itself. -/
def roundCode (fractionBits infinityCode num den : Nat) : Nat :=
  let shift := (num / den).log2 - fractionBits
  min infinityCode (shift * Nat.pow 2 fractionBits + halfEven num (den * Nat.pow 2 shift))

/-- The number of smallest units a code denotes. -/
def unitsOfCode (fractionBits code : Nat) : Nat :=
  if code < Nat.pow 2 fractionBits then code
  else
    (Nat.pow 2 fractionBits + code % Nat.pow 2 fractionBits) *
      Nat.pow 2 (code / Nat.pow 2 fractionBits - 1)

end Rounding

/-- A floating-point number of 64 bits: sign, eleven bits of exponent, 52 bits of fraction. -/
structure Binary64 where
  bits : UInt64
  deriving DecidableEq, Repr

namespace Binary64

open Rounding

/-- Code of infinity; larger codes are NaNs. -/
def infinityCode : Nat := 2047 * Nat.pow 2 52

/-- Binary logarithm of the number of smallest units in one. -/
def unitScale : Nat := 1074

/-- The number with the given sign and code. -/
def ofCode (negative : Bool) (code : Nat) : Binary64 :=
  ⟨UInt64.ofNat (if negative then code + Nat.pow 2 63 else code)⟩

/-- Whether the sign bit is set. -/
def isNegative (x : Binary64) : Bool :=
  Nat.pow 2 63 ≤ x.bits.toNat

/-- The word without its sign bit. -/
def code (x : Binary64) : Nat :=
  x.bits.toNat % Nat.pow 2 63

/-- Not a number. -/
def isNaN (x : Binary64) : Bool :=
  infinityCode < x.code

/-- One of the two infinities. -/
def isInfinite (x : Binary64) : Bool :=
  x.code == infinityCode

/-- Neither infinite nor a NaN. -/
def isFinite (x : Binary64) : Bool :=
  x.code < infinityCode

/-- The magnitude in smallest units; an infinity counts as the power of two above all finite
numbers. -/
def units (x : Binary64) : Nat :=
  unitsOfCode 52 x.code

/-- The number in smallest units. -/
def scaled (x : Binary64) : Int :=
  if x.isNegative then -x.units else x.units

/-- The NaN that computations yield. -/
def nan : Binary64 := ofCode false (infinityCode + Nat.pow 2 51)

/-- The number nearest to a quotient of smallest units. -/
def ofRatio (negative : Bool) (num den : Nat) : Binary64 :=
  ofCode negative (roundCode 52 infinityCode num den)

/-- The number nearest to an integer. -/
def ofInt (n : Int) : Binary64 :=
  ofRatio (n < 0) (n.natAbs * Nat.pow 2 unitScale) 1

/-- Order of two numbers, `none` when one of them is a NaN.  The two zeros are equal. -/
def compare? (x y : Binary64) : Option Ordering :=
  if x.isNaN || y.isNaN then none else some (compare x.scaled y.scaled)

/-- Numeric equality: the two zeros are equal, a NaN equals nothing. -/
def same (x y : Binary64) : Bool :=
  x.compare? y == some .eq

/-- Zero of either sign. -/
def isZero (x : Binary64) : Bool :=
  x.code == 0

/-- Sum, rounded once. -/
def add (x y : Binary64) : Binary64 :=
  if x.isNaN || y.isNaN then nan
  else if x.isInfinite then
    if y.isInfinite && x.isNegative != y.isNegative then nan else x
  else if y.isInfinite then y
  else
    let s := x.scaled + y.scaled
    if s == 0 then ofCode (x.isNegative && y.isNegative) 0 else ofRatio (s < 0) s.natAbs 1

/-- Product, rounded once. -/
def mul (x y : Binary64) : Binary64 :=
  let negative := x.isNegative != y.isNegative
  if x.isNaN || y.isNaN then nan
  else if x.isInfinite || y.isInfinite then
    if x.isZero || y.isZero then nan else ofCode negative infinityCode
  else ofRatio negative (x.units * y.units) (Nat.pow 2 unitScale)

/-- Quotient, rounded once. -/
def div (x y : Binary64) : Binary64 :=
  let negative := x.isNegative != y.isNegative
  if x.isNaN || y.isNaN then nan
  else if x.isInfinite then
    if y.isInfinite then nan else ofCode negative infinityCode
  else if y.isInfinite then ofCode negative 0
  else if y.isZero then
    if x.isZero then nan else ofCode negative infinityCode
  else ofRatio negative (x.units * Nat.pow 2 unitScale) y.units

/-- The same magnitude with the opposite sign. -/
def neg (x : Binary64) : Binary64 :=
  ofCode (!x.isNegative) x.code

/-- A finite number without a fractional part. -/
def isIntegral (x : Binary64) : Bool :=
  x.isFinite && x.units % Nat.pow 2 unitScale == 0

/-- The number without its fractional part. -/
def truncated (x : Binary64) : Int :=
  let n : Int := (x.units / Nat.pow 2 unitScale : Nat)
  if x.isNegative then -n else n

/-- The nearest integer; a half goes away from zero. -/
def rounded (x : Binary64) : Int :=
  let n : Int := ((2 * x.units + Nat.pow 2 unitScale) / (2 * Nat.pow 2 unitScale) : Nat)
  if x.isNegative then -n else n

/-! ## Words of 32 bits -/

/-- Code of infinity in a 32-bit word. -/
def infinityCode32 : Nat := 255 * Nat.pow 2 23

/-- Binary logarithm of the smallest 32-bit number in smallest 64-bit units. -/
def unitRatio32 : Nat := 925

/-- A 32-bit word from sign and code. -/
def word32 (negative : Bool) (code : Nat) : UInt32 :=
  UInt32.ofNat (if negative then code + Nat.pow 2 31 else code)

/-- The nearest number of 32 bits; a NaN keeps its sign and the top of its payload. -/
def toBinary32 (x : Binary64) : UInt32 :=
  if x.isNaN then
    word32 x.isNegative (infinityCode32 + (Nat.pow 2 22 ||| (x.code % Nat.pow 2 52) / Nat.pow 2 29))
  else word32 x.isNegative (roundCode 23 infinityCode32 x.units (Nat.pow 2 unitRatio32))

/-- The 32-bit number nearest to an integer. -/
def intToBinary32 (n : Int) : UInt32 :=
  word32 (n < 0) (roundCode 23 infinityCode32 (n.natAbs * Nat.pow 2 149) 1)

/-- A 32-bit number as a 64-bit one, exactly. -/
def ofBinary32 (w : UInt32) : Binary64 :=
  let negative := Nat.pow 2 31 ≤ w.toNat
  let code := w.toNat % Nat.pow 2 31
  if infinityCode32 < code then nan
  else if code == infinityCode32 then ofCode negative infinityCode
  else ofRatio negative (unitsOfCode 23 code * Nat.pow 2 unitRatio32) 1

/-!
## Decimal fractions

A number in scientific notation is read by rounding its integer significand first and then
multiplying or dividing by a power of ten, each step rounded.  Powers of ten go up to `10 ^ 308`;
smaller numbers are divided by that power repeatedly.  A number too large for a finite word is
refused.
-/

/-- Largest power of ten below infinity. -/
def maxPowerOfTen : Nat := 308

/-- The number nearest to a power of ten. -/
def powerOfTen (n : Nat) : Binary64 :=
  ofInt (Nat.pow 10 n : Nat)

/-- Divides by `10 ^ n`, at most `fuel` times by the largest power and once by the rest. -/
def divideByPower (x : Binary64) (n : Nat) : Nat → Binary64
  | 0 => x
  | fuel + 1 =>
      if n ≤ maxPowerOfTen then x.div (powerOfTen n)
      else if x.isZero then x
      else divideByPower (x.div (powerOfTen maxPowerOfTen)) (n - maxPowerOfTen) fuel

/-- The number `significand * 10 ^ exponent`, unless it is too large. -/
def ofScientific? (significand : Nat) (exponent : Int) : Option Binary64 :=
  let x := ofInt significand
  if exponent < 0 then
    some (divideByPower x exponent.natAbs (exponent.natAbs / maxPowerOfTen + 1))
  else if exponent.natAbs ≤ maxPowerOfTen then
    let y := x.mul (powerOfTen exponent.natAbs)
    if y.isInfinite then none else some y
  else if x.isZero then some x
  else none

end Binary64

end ShardedSql
