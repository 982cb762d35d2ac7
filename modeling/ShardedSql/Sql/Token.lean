import ShardedSql.Text.Case

/-!
# Tokens

The words, literals, parameters and marks that SQL text is made of.
-/

namespace ShardedSql.Sql

/-- A word: a keyword or one part of a name.  Quoted words are never keywords. -/
structure Ident where
  text : String
  quote : Option Char := none
  deriving DecidableEq, Repr

/-- The keyword a word may stand for; quoted words stand for none. -/
def Ident.keyword (i : Ident) : String :=
  if i.quote.isSome then "" else Text.upper i.text

/-- The inside of a quoted text, given the last character before it.  A lone quote is doubled; one
of a pair, or one that follows a backslash, is kept as it is. -/
def escapedFrom (quote before : Char) : List Char → List Char
  | [] => []
  | c :: cs =>
      if c == quote then
        if before == '\\' then c :: escapedFrom quote before cs
        else
          match cs with
          | d :: rest =>
              if d == quote then c :: d :: escapedFrom quote c rest
              else c :: c :: escapedFrom quote c (d :: rest)
          | [] => [c, c]
      else c :: escapedFrom quote c cs

/-- A text between quotes. -/
def quotedText (quote : Char) (text : String) : String :=
  String.ofList (quote :: escapedFrom quote '\x00' text.toList ++ [quote])

/-- The written form of a word. -/
def Ident.render (i : Ident) : String :=
  match i.quote with
  | some q => quotedText q i.text
  | none => i.text

/-- A token. -/
inductive Token where
  /-- A keyword or a part of a name. -/
  | word (ident : Ident)
  | number (text : String)
  | string (quote : Char) (text : String)
  /-- A literal of another kind, in its written form. -/
  | literal (text : String)
  | parameter (mark : String)
  /-- Punctuation or an operator. -/
  | mark (text : String)
  deriving DecidableEq, Repr

/-! ## Operators -/

/-- Characters that operators can be made up from. -/
def isOperatorChar (c : Char) : Bool :=
  c ∈ ['+', '-', '*', '/', '<', '>', '=', '~', '!', '@', '#', '%', '^', '&', '|', '\x60', '?']

/-- Whether a mark grows by operator characters that follow it. -/
def isExtensible (mark : String) : Bool :=
  match mark.toList with
  | c :: _ => c ∈ ['-', '<', '>', '!', '~', '#', '@', '&', '|', '%', '?']
  | [] => false

end ShardedSql.Sql
