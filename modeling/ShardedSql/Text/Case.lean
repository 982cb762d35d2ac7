import ShardedSql.Text.Case.Table

/-!
# Letter case

Two notions of case live side by side.  Names are looked up with `alike`, which ignores the case
of ASCII letters only.  Texts are folded with `lower` and `upper`, which apply the full case
mapping of every character; a capital sigma at the end of a word is lowered to the final sigma.
-/

namespace ShardedSql.Text

/-- The image of a code point under the first run that contains it. -/
def mapRuns (runs : List CaseRun) (n : Nat) : Option Nat :=
  (runs.find? fun r => r.first ≤ n && n ≤ r.last && (n - r.first) % r.step == 0).map fun r =>
    r.target + (n - r.first)

/-- Membership in a list of closed ranges. -/
def inRanges (ranges : List (Nat × Nat)) (n : Nat) : Bool :=
  ranges.any fun r => r.1 ≤ n && n ≤ r.2

/-- Case mapping of one character: ASCII letters by `ascii`, then special cases, then runs. -/
def mapChar (ascii : Char → Char) (specials : List (Nat × List Nat)) (runs : List CaseRun)
    (c : Char) : List Char :=
  if c.toNat < 128 then [ascii c]
  else
    match specials.lookup c.toNat with
    | some image => image.map Char.ofNat
    | none => [((mapRuns runs c.toNat).map Char.ofNat).getD c]

/-- Lower-case form of one character, outside any context. -/
def lowerChar (c : Char) : List Char :=
  mapChar Char.toLower lowerSpecials lowerRuns c

/-- Upper-case form of one character. -/
def upperChar (c : Char) : List Char :=
  mapChar Char.toUpper upperSpecials upperRuns c

/-- Cased and not case-ignorable. -/
def isCased (c : Char) : Bool :=
  inRanges casedRanges c.toNat

/-- Skipped when looking for a cased neighbour. -/
def isCaseIgnorable (c : Char) : Bool :=
  inRanges caseIgnorableRanges c.toNat

/-- Whether the nearest character that is not case-ignorable is cased. -/
def startsCased (cs : List Char) : Bool :=
  match cs.dropWhile isCaseIgnorable with
  | [] => false
  | c :: _ => isCased c

/-- Lowers a list of characters, given the characters before it in reverse.  A capital sigma with
a cased letter before it and none after it becomes the final sigma. -/
def lowerFrom (before : List Char) : List Char → List Char
  | [] => []
  | c :: cs =>
      let image :=
        if c == 'Σ' then
          if startsCased before && !startsCased cs then ['ς'] else ['σ']
        else lowerChar c
      image ++ lowerFrom (c :: before) cs

/-- Full lower-case form of a text. -/
def lower (s : String) : String :=
  String.ofList (lowerFrom [] s.toList)

/-- Full upper-case form of a text. -/
def upper (s : String) : String :=
  String.ofList (s.toList.flatMap upperChar)

/-- Equality up to the case of ASCII letters, the rule by which names are looked up. -/
def alike (a b : String) : Bool :=
  a.toList.map Char.toLower == b.toList.map Char.toLower

end ShardedSql.Text
