import ShardedSql.Number.Binary64

/-!
# Shortest decimal text of a floating-point number

A finite number is written with the fewest digits that read back as the same number; among texts
of that length the nearest one is taken, and of two equally near ones the upper.  The notation is
always positional, without an exponent and without a trailing fraction of zeros.

For one, two, … seventeen digits the search looks at the two neighbours of the number on the grid
of numbers with that many digits.  All arithmetic is exact.
-/

namespace ShardedSql.Shortest

/-- A number with the interval of all numbers that round to it, over a common denominator. -/
structure Target where
  low : Nat
  mid : Nat
  high : Nat
  /-- The common denominator. -/
  den : Nat
  /-- Whether the two ends belong to the interval. -/
  closed : Bool

/-- Interval of the finite number with the given code.  Below a power of two the gap to the lower
neighbour is half the gap to the upper one. -/
def Target.ofCode (code : Nat) : Target :=
  let shift := code / Nat.pow 2 52 - 1
  let mantissa := if code < Nat.pow 2 52 then code else Nat.pow 2 52 + code % Nat.pow 2 52
  let gap := Nat.pow 2 shift
  let mid := 4 * mantissa * gap
  let lowGap := if mantissa == Nat.pow 2 52 && shift != 0 then gap else 2 * gap
  { low := mid - lowGap, mid, high := mid + 2 * gap, den := 4 * Nat.pow 2 Binary64.unitScale
    closed := mantissa % 2 == 0 }

/-- Multiplies numerators and denominator. -/
def Target.scale (t : Target) (num den : Nat) : Target :=
  { t with low := t.low * num, mid := t.mid * num, high := t.high * num, den := t.den * den }

/-- Whether an integer lies in the interval. -/
def Target.admits (t : Target) (n : Nat) : Bool :=
  let v := n * t.den
  if t.closed then t.low ≤ v && v ≤ t.high else t.low < v && v < t.high

/-- The admitted integer nearest to the number, the upper one on a tie. -/
def Target.nearest? (t : Target) : Option Nat :=
  let down := t.mid / t.den
  match t.admits down, t.admits (down + 1) with
  | true, true => some (if 2 * (t.mid % t.den) < t.den then down else down + 1)
  | true, false => some down
  | false, true => some (down + 1)
  | false, false => none

/-- How often a fraction below one tenth can be multiplied by ten and stay below one, up to
`fuel` times. -/
def leadingZeros (num den : Nat) : Nat → Nat
  | 0 => 0
  | fuel + 1 => if den ≤ num * 10 then 0 else leadingZeros (num * 10) den fuel + 1

/-- The position `p` of the first digit: the number lies between `10 ^ (p - 1)` and `10 ^ p`. -/
def Target.position (t : Target) : Int :=
  if t.den ≤ t.mid then (Nat.toDigits 10 (t.mid / t.den)).length
  else -(leadingZeros t.mid t.den 400 : Nat)

/-- The grid point with at most `digits` digits, as an integer times a power of ten. -/
def Target.onGrid? (t : Target) (position : Int) (digits : Nat) : Option (Nat × Int) :=
  let e := position - digits
  (t.scale (Nat.pow 10 (-e).toNat) (Nat.pow 10 e.toNat)).nearest?.map fun n => (n, e)

/-- The decimal with the fewest digits in the interval. -/
def Target.decimal (t : Target) : Nat × Int :=
  let p := t.position
  ((List.range 17).findSome? fun k => t.onGrid? p (k + 1)).getD (t.mid / t.den, 0)

/-- Positional notation of an integer times a power of ten. -/
def positional (n : Nat) (e : Int) : List Char :=
  let digits := Nat.toDigits 10 n
  if 0 ≤ e then digits ++ List.replicate e.toNat '0'
  else
    let places := (-e).toNat
    let padded := List.replicate (places + 1 - digits.length) '0' ++ digits
    let fraction := ((padded.drop (padded.length - places)).reverse.dropWhile (· == '0')).reverse
    let whole := padded.take (padded.length - places)
    if fraction.isEmpty then whole else whole ++ '.' :: fraction

end ShardedSql.Shortest

namespace ShardedSql.Binary64

/-- Decimal text of a number: the shortest that reads back, `NaN`, `inf` or `-inf`. -/
def text (x : Binary64) : String :=
  if x.isNaN then "NaN"
  else
    let magnitude :=
      if x.isInfinite then ['i', 'n', 'f']
      else if x.isZero then ['0']
      else
        let (n, e) := (Shortest.Target.ofCode x.code).decimal
        Shortest.positional n e
    String.ofList (if x.isNegative then '-' :: magnitude else magnitude)

end ShardedSql.Binary64
