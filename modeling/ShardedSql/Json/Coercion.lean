import ShardedSql.Json
import ShardedSql.Number.Shortest
import ShardedSql.Text.Case
import ShardedSql.Text.Pieces

/-!
# Lenient reading of configuration documents

Configuration values are read by what is wanted, not by how they are written: a number or a
boolean may stand for a text, a numeral or a word such as `yes` for a number or a boolean.  A
record may be given by its members or by its fields in order.  Reading either succeeds or fails;
there is no partial result.
-/

namespace ShardedSql.Json

/-- Words that stand for true. -/
def isYes (s : String) : Bool :=
  s == "true" || s == "on" || s == "yes"

/-- Words that stand for false. -/
def isNo (s : String) : Bool :=
  s == "false" || s == "off" || s == "no"

/-- Nearest number of a closed range. -/
def clamp (low high n : Int) : Int :=
  max low (min high n)

/-- A text, or the text of a number or boolean. -/
def asText? : Json → Option String
  | string s => some s
  | bool b => some (if b then "true" else "false")
  | int n => some (toString n)
  | float x => some x.text
  | _ => none

/-- A signed 64-bit number. -/
def asInt? : Json → Option Int
  | int n => if n < Nat.pow 2 63 then some n else none
  | float x => some (clamp (-Nat.pow 2 63) (Nat.pow 2 63 - 1) x.rounded)
  | bool b => some (if b then 1 else 0)
  | string s =>
      let word := Text.lower s
      if isYes word then some 1
      else if isNo word then some 0
      else (Text.readInt64 s).toOption.map (·.toInt)
  | _ => none

/-- A signed 32-bit number; larger ones lose their high bits. -/
def asInt32? (j : Json) : Option Int :=
  j.asInt?.map fun n => Int.bmod n (Nat.pow 2 32)

/-- An unsigned 64-bit number. -/
def asNat? : Json → Option Nat
  | int n => if 0 ≤ n then some n.toNat else none
  | float x => some (clamp 0 (Nat.pow 2 64 - 1) x.rounded).toNat
  | bool b => some (if b then 1 else 0)
  | string s =>
      let word := Text.lower s
      if isYes word then some 1
      else if isNo word then some 0
      else (Text.readNat64 s).toOption
  | _ => none

/-- A boolean. -/
def asBool? : Json → Option Bool
  | bool b => some b
  | int n => some (n != 0)
  | float x => some (!x.isZero)
  | string s =>
      let word := Text.lower s
      if isYes word || word == "1" then some true
      else if isNo word || word == "0" then some false
      else none
  | _ => none

/-- One of several names, in any case, as a text or as the only member of an object. -/
def asChoice? {α : Type} (choices : List (String × α)) : Json → Option α
  | string s => choices.lookup (Text.lower s)
  | object [(s, _)] => choices.lookup (Text.lower s)
  | _ => none

/-- Null, or what a reader makes of anything else. -/
def asOption? {α : Type} (read : Json → Option α) : Json → Option (Option α)
  | null => some none
  | j => (read j).map some

/-- The items of an array. -/
def asList? {α : Type} (read : Json → Option α) : Json → Option (List α)
  | array items => items.mapM read
  | _ => none

/-- The members of an object. -/
def asNamed? {α : Type} (read : Json → Option α) : Json → Option (List (String × α))
  | object members => members.mapM fun (key, j) => (read j).map fun a => (key, a)
  | _ => none

/-! ## Records -/

/-- The fields of a record, by name or by position. -/
inductive Record where
  | byName (members : List (String × Json))
  | byPosition (items : List Json)

/-- The record a value stands for. -/
def asRecord? : Json → Option Record
  | object members => some (.byName members)
  | array items => some (.byPosition items)
  | _ => none

namespace Record

/-- A field, if it is given. -/
def field? : Record → String → Nat → Option Json
  | byName members, key, _ => member? members key
  | byPosition items, _, position => items[position]?

/-- A field that has to be given. -/
def required {α : Type} (r : Record) (key : String) (position : Nat) (read : Json → Option α) :
    Option α :=
  (r.field? key position).bind read

/-- A field with a default. -/
def optional {α : Type} (r : Record) (key : String) (position : Nat) (absent : α)
    (read : Json → Option α) : Option α :=
  match r.field? key position with
  | some j => read j
  | none => some absent

end Record

/-! ## Layers -/

mutual

/-- Puts a document over another: objects are merged member by member, anything else replaces what
was there. -/
def overlay (below above : Json) : Json :=
  match above with
  | object members =>
      object (overlayMembers (match below with
        | object ms => ms
        | _ => []) members)
  | j => j

/-- Puts the members of an object over those of another. -/
def overlayMembers (below : List (String × Json)) : List (String × Json) → List (String × Json)
  | [] => below
  | (key, j) :: rest =>
      overlayMembers (setMember below key (overlay ((member? below key).getD null) j)) rest

end

/-- A value nested in objects along a path. -/
def nested (path : List String) (j : Json) : Json :=
  path.foldr (fun key j => object [(key, j)]) j

/-- Characters of the segments of a dotted name. -/
def isPathChar (c : Char) : Bool :=
  c.isAlphanum || c == '_' || c == '-'

/-- The path a member name of the outermost object stands for: its segments when it is a dotted
name, otherwise the name itself. -/
def pathOf (key : String) : List String :=
  let segments := Text.split '.' key
  if segments.all fun s => !s.isEmpty && s.toList.all isPathChar then segments else [key]

/-- Puts the members of a configuration document over another document. -/
def overlayDocument (below above : Json) : Option Json :=
  match above with
  | object members =>
      some (members.foldl (fun b (key, j) => overlay b (nested (pathOf key) j)) below)
  | _ => none

end ShardedSql.Json
