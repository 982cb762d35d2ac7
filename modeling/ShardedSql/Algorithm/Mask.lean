import ShardedSql.Algorithm
import ShardedSql.Text.Case
import ShardedSql.Text.Pieces

/-!
# Masks

A mask hides the characters after, or before, the first occurrence of a marker in a text by
replacing each of them.  Numbers are masked through their text; other values are left alone.
-/

namespace ShardedSql

/-- Which side of the marker is hidden. -/
inductive MaskSide where
  | after
  | before
  deriving DecidableEq, Repr

/-- A mask. -/
structure Mask where
  side : MaskSide
  marker : String
  replacement : Char
  deriving DecidableEq, Repr

namespace Mask

/-- Sets up a mask. -/
def setUp (name : String) (spec : AlgorithmSpec) : Except Fault Mask := do
  let type := Text.upper spec.type
  let side ←
    if type == "MASK_AFTER_SPECIAL_CHARS" then .ok MaskSide.after
    else if type == "MASK_BEFORE_SPECIAL_CHARS" then .ok MaskSide.before
    else .error (.algorithm (.unknownMaskType type name))
  let marker := (spec.property? "special-chars").getD ""
  if marker.isEmpty then .error (.algorithm (.maskMarker name))
  else
    match ((spec.property? "replace-char").getD "").toList with
    | [replacement] => .ok { side, marker, replacement }
    | _ => .error (.algorithm (.maskReplacement name))

/-- Replaces every character. -/
def hide (m : Mask) (cs : List Char) : List Char :=
  cs.map fun _ => m.replacement

/-- Masks a list of characters; without the marker nothing is hidden. -/
def applyChars (m : Mask) (cs : List Char) : List Char :=
  match Text.breakOn m.marker.toList cs with
  | none => cs
  | some (before, after) =>
      match m.side with
      | .after => before ++ m.marker.toList ++ m.hide after
      | .before => m.hide before ++ m.marker.toList ++ after

/-- Masks a text. -/
def applyText (m : Mask) (s : String) : String :=
  String.ofList (m.applyChars s.toList)

/-- Masks a cell. -/
def apply (m : Mask) : Cell → Cell
  | .text s => .text (m.applyText s)
  | .int n => .text (m.applyText (Cell.int n).display)
  | .float x => .text (m.applyText (Cell.float x).display)
  | c => c

end Mask

end ShardedSql
