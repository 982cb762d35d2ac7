import ShardedSql.Text.Pieces

/-!
# Dates and times of day

Days are counted from 2000-01-01 in the Gregorian calendar, which is extended in both directions,
with a year 0.  A date outside the years -262143 to 262142 does not exist here.
-/

namespace ShardedSql.Postgres

/-- A date. -/
structure Date where
  year : Int
  month : Nat
  day : Nat
  deriving DecidableEq, Repr

namespace Date

/-- Days from the first of March of year 0 to 2000-01-01. -/
def marchOffset : Int := 730425

/-- The date a number of days after 2000-01-01.  Years are counted from March on, so that a leap
day is the last day of its year; 400 of them have 146097 days. -/
def ofDays (days : Int) : Date :=
  let fromMarch := days + marchOffset
  let era := fromMarch / 146097
  let dayOfEra := (fromMarch % 146097).toNat
  let yearOfEra := (dayOfEra - dayOfEra / 1460 + dayOfEra / 36524 - dayOfEra / 146096) / 365
  let dayOfYear := dayOfEra - (365 * yearOfEra + yearOfEra / 4 - yearOfEra / 100)
  let monthFromMarch := (5 * dayOfYear + 2) / 153
  let day := dayOfYear - (153 * monthFromMarch + 2) / 5 + 1
  let month := if monthFromMarch < 10 then monthFromMarch + 3 else monthFromMarch - 9
  { year := era * 400 + yearOfEra + (if month ≤ 2 then 1 else 0), month, day }

/-- The date, if it exists. -/
def inRange? (d : Date) : Option Date :=
  if -262143 ≤ d.year ∧ d.year ≤ 262142 then some d else none

end Date

/-- A number with zeros in front, up to a width. -/
def padded (width n : Nat) : String :=
  let digits := toString n
  String.ofList (List.replicate (width - digits.length) '0') ++ digits

/-- A year: four digits, with a sign if it is negative or has more. -/
def yearText (y : Int) : String :=
  if y < 0 then "-" ++ padded 4 y.natAbs
  else if 9999 < y then "+" ++ padded 4 y.natAbs
  else padded 4 y.natAbs

/-- A date as `2000-01-01`. -/
def Date.text (d : Date) : String :=
  Text.joined "-" [yearText d.year, padded 2 d.month, padded 2 d.day]

/-- Microseconds of a second as a fraction: nothing if there are none, else three digits if that
is exact, else six. -/
def fractionText (microseconds : Nat) : String :=
  if microseconds == 0 then ""
  else if microseconds % 1000 == 0 then "." ++ padded 3 (microseconds / 1000)
  else "." ++ padded 6 microseconds

/-- A time of day as `00:00:00`, with a fraction if there is one. -/
def timeText (microseconds : Nat) : String :=
  let seconds := microseconds / 1000000
  Text.joined ":" [padded 2 (seconds / 3600), padded 2 (seconds / 60 % 60), padded 2 (seconds % 60)]
    ++ fractionText (microseconds % 1000000)

/-- Microseconds of a day. -/
def dayLength : Int := 86400000000

/-- The date of a number of days after 2000-01-01, as a text. -/
def dateText? (days : Int) : Option String :=
  (Date.ofDays days).inRange?.map (·.text)

/-- The moment a number of microseconds after 2000-01-01, as a text with the given mark between date
and time. -/
def momentText? (mark : String) (microseconds : Int) : Option String :=
  (Date.ofDays (microseconds / dayLength)).inRange?.map fun d =>
    d.text ++ mark ++ timeText (microseconds % dayLength).toNat

end ShardedSql.Postgres
