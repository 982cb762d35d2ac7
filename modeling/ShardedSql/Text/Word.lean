import ShardedSql.Text.Word.Table
import ShardedSql.Text.Case

/-!
# Character classes

Decimal digits, word characters, and the comparison of characters that ignores case.
-/

namespace ShardedSql.Text

/-- A decimal digit of any script. -/
def isDigit (c : Char) : Bool :=
  c.isDigit || (128 ≤ c.toNat && inRanges digitRanges c.toNat)

/-- A character that belongs to a word: letter, mark, digit, connector or joiner. -/
def isWordChar (c : Char) : Bool :=
  c.isAlphanum || c == '_' || (128 ≤ c.toNat && inRanges wordRanges c.toNat)

/-- A letter, mark or letter-like number, which can start a name. -/
def isNameStart (c : Char) : Bool :=
  isWordChar c && !isDigit c

/-- The one-character lower-case form, or the character itself. -/
def simpleLower (c : Char) : Char :=
  if c.toNat < 128 then c.toLower else ((mapRuns lowerRuns c.toNat).map Char.ofNat).getD c

/-- The one-character upper-case form, or the character itself. -/
def simpleUpper (c : Char) : Char :=
  if c.toNat < 128 then c.toUpper else ((mapRuns upperRuns c.toNat).map Char.ofNat).getD c

/-- A representative of all characters that differ from `c` only by case. -/
def foldCase (c : Char) : Char :=
  simpleLower (simpleUpper c)

/-- Characters that differ from `c` only by case, as far as one or two mappings reach. -/
def caseVariants (c : Char) : List Char :=
  [c, simpleLower c, simpleUpper c, foldCase c, simpleUpper (foldCase c)]

end ShardedSql.Text
