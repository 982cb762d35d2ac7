/-!
# Blank characters

The characters with the `White_Space` property, and the text operations that depend on them:
trimming, the test for a blank text, and the split into words.
-/

namespace ShardedSql.Text

/-- The `White_Space` property of a character. -/
def isBlank (c : Char) : Bool :=
  let n := c.toNat
  (9 ≤ n && n ≤ 13) || n == 0x20 || n == 0x85 || n == 0xA0 || n == 0x1680 ||
    (0x2000 ≤ n && n ≤ 0x200A) || n == 0x2028 || n == 0x2029 || n == 0x202F || n == 0x205F ||
    n == 0x3000

/-- Drops the longest suffix whose characters all satisfy `p`. -/
def dropEndWhile (p : Char → Bool) (cs : List Char) : List Char :=
  (cs.reverse.dropWhile p).reverse

/-- Drops leading and trailing blank characters. -/
def trimChars (cs : List Char) : List Char :=
  dropEndWhile isBlank (cs.dropWhile isBlank)

/-- The text without leading and trailing blank characters. -/
def trim (s : String) : String :=
  String.ofList (trimChars s.toList)

/-- A text is blank when it has no character other than blank ones. -/
def isBlankText (s : String) : Bool :=
  s.toList.all isBlank

/-- Splits at blank characters, collecting the current word in reverse; empty words vanish. -/
def wordsFrom : List Char → List Char → List (List Char)
  | [], word => if word.isEmpty then [] else [word.reverse]
  | c :: cs, word =>
      if isBlank c then
        if word.isEmpty then wordsFrom cs [] else word.reverse :: wordsFrom cs []
      else wordsFrom cs (c :: word)

/-- The maximal blank-free pieces of a text, in order. -/
def words (s : String) : List String :=
  (wordsFrom s.toList []).map String.ofList

end ShardedSql.Text
