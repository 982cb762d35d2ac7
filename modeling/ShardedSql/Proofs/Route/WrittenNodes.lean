import Mathlib.Data.List.TakeWhile
import ShardedSql.Proofs.Text.Pieces
import ShardedSql.Route.DataNode

/-!
# Written data nodes

A data node is written as its data source, a dot and its table.  The data source may have a dot
itself, so that there are two or three segments; the last one is the table.  No segment is blank or
has a comma.

Main results:

- Theorem `DataNode.parse_eq_ok_iff`: which data node is read from a text.
- Theorem `DataNode.parse_written`: the texts that are read are the written data nodes, and each
  data node that is read is written in one way.
-/

namespace ShardedSql

/-- A text is blank when nothing of it is left after trimming. -/
theorem Text.isBlankText_iff {s : String} : isBlankText s = true ↔ trim s = "" := by
  have hall : s.toList.all isBlank = true ↔
      ∀ c ∈ s.toList.dropWhile isBlank, isBlank c = true := by
    have hany := @List.any_dropWhile _ isBlank s.toList
    rw [← Bool.not_eq_false', ← hany, List.any_eq_false]
    simp
  rw [isBlankText, hall, trim, ← String.toList_inj, String.toList_ofList, String.toList_empty,
    trimChars, dropEndWhile, List.reverse_eq_nil_iff, List.dropWhile_eq_nil_iff]
  simp only [List.mem_reverse]

namespace DataNode

variable {text : String} {segments : List String} {node : DataNode}

/-- The segments of a data node, as they stand in a text. -/
structure Spells (text : String) (segments : List String) : Prop where
  joined : Text.joined "." segments = text
  noDot : ∀ s ∈ segments, '.' ∉ s.toList
  twoOrThree : segments.length = 2 ∨ segments.length = 3
  notBlank : ∀ s ∈ segments, Text.trim s ≠ ""
  noComma : ',' ∉ text.toList

/-- A text is split into the segments that it spells. -/
theorem Spells.split (h : Spells text segments) : Text.split '.' text = segments := by
  refine Text.split_eq_iff.mpr ⟨?_, h.noDot, h.joined⟩
  rintro rfl
  rcases h.twoOrThree with hlength | hlength <;> cases hlength

/-- Two or three segments are those of a data node. -/
theorem exists_ofSegments_iff :
    (∃ node, ofSegments? segments = some node) ↔
      segments.length = 2 ∨ segments.length = 3 := by
  rcases segments with _ | ⟨first, _ | ⟨second, _ | ⟨third, _ | ⟨fourth, rest⟩⟩⟩⟩ <;>
    simp [ofSegments?]

/-- A data node is written as its segments with dots between them, and its table is one of them. -/
theorem format_of_segments (h : ofSegments? segments = some node) :
    node.format = Text.joined "." segments ∧ node.table ∈ segments := by
  rcases segments with _ | ⟨first, _ | ⟨second, _ | ⟨third, _ | ⟨fourth, rest⟩⟩⟩⟩ <;> cases h
  · rw [Text.joined, String.intercalate_cons_cons, String.intercalate_singleton]
    exact ⟨rfl, by simp⟩
  · rw [Text.joined, String.intercalate_cons_cons, String.intercalate_cons_cons,
      String.intercalate_singleton]
    simp only [← String.append_assoc]
    exact ⟨rfl, by simp⟩

/-- What is checked when a data node is read: nothing is blank and there is no comma. -/
theorem not_rejected_iff :
    ¬ (text.toList.contains ',' || segments.any Text.isBlankText) = true ↔
      ',' ∉ text.toList ∧ ∀ s ∈ segments, Text.trim s ≠ "" := by
  rw [Bool.or_eq_true, not_or, List.contains_iff_mem, List.any_eq_true]
  simp only [Text.isBlankText_iff, not_exists, not_and, ne_eq]

/-- A data node is read from a text that spells its segments. -/
theorem parse_eq_ok_iff :
    parse text = .ok node ↔
      ∃ segments, Spells text segments ∧ ofSegments? segments = some node := by
  constructor
  · intro h
    simp only [parse] at h
    split at h
    · rename_i read hsegments
      split at h
      · cases h
      · rename_i hkept
        cases h
        rcases not_rejected_iff.mp hkept with ⟨hnoComma, hnotBlank⟩
        rcases Text.split_eq_iff.mp (Eq.refl (Text.split '.' text)) with ⟨-, hnoDot, hjoined⟩
        have hcount := exists_ofSegments_iff.mp ⟨node, hsegments⟩
        exact ⟨_, ⟨hjoined, hnoDot, hcount, hnotBlank, hnoComma⟩, hsegments⟩
    · cases h
  · rintro ⟨segments, hspells, hnode⟩
    have hkept := not_rejected_iff.mpr ⟨hspells.noComma, hspells.notBlank⟩
    simp only [parse, hspells.split, hnode, if_neg hkept]

/-- A data node is written as the text that it is read from. -/
theorem format_of_parse (h : parse text = .ok node) : node.format = text := by
  rcases parse_eq_ok_iff.mp h with ⟨segments, hspells, hnode⟩
  exact (format_of_segments hnode).1.trans hspells.joined

/-- The texts that are read are those that spell two or three segments.  What is read from a text
is written as it, with the last segment for the table, and is read from no other text. -/
theorem parse_written (text : String) :
    ((∃ node, parse text = .ok node) ↔ ∃ segments, Spells text segments) ∧
    ∀ node, parse text = .ok node →
      node.format = text ∧ '.' ∉ node.table.toList ∧ parse node.format = .ok node ∧
        ∀ other, parse other = .ok node → other = text := by
  refine ⟨⟨?_, ?_⟩, ?_⟩
  · rintro ⟨node, h⟩
    rcases parse_eq_ok_iff.mp h with ⟨segments, hspells, -⟩
    exact ⟨segments, hspells⟩
  · rintro ⟨segments, hspells⟩
    rcases exists_ofSegments_iff.mpr hspells.twoOrThree with ⟨node, hnode⟩
    exact ⟨node, parse_eq_ok_iff.mpr ⟨segments, hspells, hnode⟩⟩
  · intro node h
    rcases parse_eq_ok_iff.mp h with ⟨segments, hspells, hnode⟩
    have hformat := format_of_parse h
    refine ⟨hformat, ?_, hformat.symm ▸ h, ?_⟩
    · exact hspells.noDot _ (format_of_segments hnode).2
    · exact fun other hother => (format_of_parse hother).symm.trans hformat

/-- The middle one of three segments is kept with the data source. -/
example : parse "ds_0.db_0.tbl_0" = .ok ⟨"ds_0.db_0", "tbl_0"⟩ := rfl

end DataNode

end ShardedSql
