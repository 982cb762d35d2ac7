import ShardedSql.Fault
import ShardedSql.Text.Case
import ShardedSql.Text.Pieces
import ShardedSql.Text.Word

/-!
# Logging settings

A logging style is one of three words.  A logging level is a list of directives: a level alone, or
a target or span with an optional level.
-/

namespace ShardedSql.Logging

/-- The three styles, in any case. -/
def checkStyle (style : String) : Except Fault Unit :=
  let word := Text.lower style
  if word == "auto" || word == "always" || word == "never" then .ok ()
  else .error (.configuration (.loggingStyle word))

/-- Names and numbers of levels. -/
def isLevel (cs : List Char) : Bool :=
  let word := String.ofList (cs.map Char.toLower)
  ["trace", "debug", "info", "warn", "error", "off", "0", "1", "2", "3", "4", "5"].contains word

/-- Characters of targets. -/
def isTargetChar (c : Char) : Bool :=
  Text.isWordChar c || c == ':' || c == '-'

/-- Drops a target or a span in brackets. -/
def dropScope? : List Char → Option (List Char)
  | '[' :: cs =>
      match cs.dropWhile (· != ']') with
      | ']' :: rest => some rest
      | _ => none
  | c :: cs => if isTargetChar c then some (cs.dropWhile isTargetChar) else none
  | [] => none

/-- What may follow the scopes of a directive: nothing, or an equals sign and possibly a level. -/
def isLevelPart : List Char → Bool
  | [] => true
  | '=' :: cs => cs.isEmpty || isLevel cs
  | _ => false

/-- One directive. -/
def isDirective (cs : List Char) : Bool :=
  isLevel cs ||
    match dropScope? cs with
    | none => false
    | some rest =>
        isLevelPart rest || match dropScope? rest with
          | none => false
          | some rest => isLevelPart rest

/-- A list of directives; the empty text has none. -/
def isFilter (text : String) : Bool :=
  text.isEmpty || (Text.splitChars ',' text.toList).all isDirective

/-- Checks style and level, the style first. -/
def check (level style : String) : Except Fault Unit := do
  checkStyle style
  if isFilter level then .ok () else .error (.configuration (.loggingLevel level))

end ShardedSql.Logging
