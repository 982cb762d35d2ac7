/-!
# Pieces of texts

Searching, cutting and joining, all on lists of characters.
-/

namespace ShardedSql.Text

/-- The part before the first occurrence of `mark` and the part after it. -/
def breakOn (mark : List Char) : List Char → Option (List Char × List Char)
  | [] => if mark.isEmpty then some ([], []) else none
  | c :: cs =>
      if mark.isPrefixOf (c :: cs) then some ([], (c :: cs).drop mark.length)
      else (breakOn mark cs).map fun (before, after) => (c :: before, after)

/-- Cuts at every occurrence of a character; `n` occurrences give `n + 1` pieces. -/
def splitChars (sep : Char) : List Char → List (List Char)
  | [] => [[]]
  | c :: cs =>
      if c == sep then [] :: splitChars sep cs
      else
        match splitChars sep cs with
        | [] => [[c]]
        | piece :: pieces => (c :: piece) :: pieces

/-- The pieces of a text between the occurrences of a character. -/
def split (sep : Char) (s : String) : List String :=
  (splitChars sep s.toList).map String.ofList

/-- Whether a text ends in another one. -/
def endsWith (s ending : String) : Bool :=
  ending.toList.isSuffixOf s.toList

/-- Texts joined by a separator. -/
def joined (sep : String) (parts : List String) : String :=
  String.intercalate sep parts

/-- Replaces one character by another everywhere. -/
def substitute (old new : Char) (s : String) : String :=
  String.ofList (s.toList.map fun c => if c == old then new else c)

/-- Order of texts by code points, character by character. -/
def orderChars : List Char → List Char → Ordering
  | [], [] => .eq
  | [], _ :: _ => .lt
  | _ :: _, [] => .gt
  | a :: as, b :: bs => (compare a.toNat b.toNat).then (orderChars as bs)

/-- Order of texts by code points, which is also the order of their UTF-8 bytes. -/
def order (a b : String) : Ordering :=
  orderChars a.toList b.toList

/-- The UTF-8 bytes of a text. -/
def bytes (s : String) : List UInt8 :=
  s.toUTF8.data.toList

/-- The text with the given UTF-8 bytes, if they are well formed. -/
def ofBytes? (bs : List UInt8) : Option String :=
  String.fromUTF8? ⟨bs.toArray⟩

/-- Hexadecimal digits of a number, most significant first, lower case. -/
def hexDigits (n : Nat) : List Char :=
  Nat.toDigits 16 n

end ShardedSql.Text
