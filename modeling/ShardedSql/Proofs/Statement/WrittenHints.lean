import Mathlib.Data.List.Infix
import ShardedSql.Proofs.Text.Pieces
import ShardedSql.Statement.Hint

/-!
# Written hints

Pairs are written into the blocks of comments: `key:value` items, separated by commas, between `/*`
and `*/`.  They are read back as they are, whatever else the comments say: the end of a block is
looked for behind its beginning, and the next block behind that end, so that a slash or a star next
to a delimiter is never taken for a part of another one.

Main results:

- Theorem `readBody_writeBody`: the pairs of one block.
- Theorem `blockBodies_append`: the first block of a text, and what is left behind it.
- Theorem `bodies_write`: the blocks of one comment.
- Theorem `ofComments_write`: the pairs of all blocks of all comments, in order.
-/

namespace ShardedSql.Hints

/-! ## Items and bodies -/

/-- A pair that keeps its form in a block. -/
structure Writable (pair : String × String) : Prop where
  keyNotEmpty : pair.1 ≠ ""
  keyTrimmed : Text.trim pair.1 = pair.1
  keyNoColon : ':' ∉ pair.1.toList
  keyNoComma : ',' ∉ pair.1.toList
  valueTrimmed : Text.trim pair.2 = pair.2
  valueNoComma : ',' ∉ pair.2.toList

instance : DecidablePred Writable := fun pair =>
  decidable_of_iff (pair.1 ≠ "" ∧ Text.trim pair.1 = pair.1 ∧ ':' ∉ pair.1.toList ∧
      ',' ∉ pair.1.toList ∧ Text.trim pair.2 = pair.2 ∧ ',' ∉ pair.2.toList)
    ⟨fun ⟨h₁, h₂, h₃, h₄, h₅, h₆⟩ => ⟨h₁, h₂, h₃, h₄, h₅, h₆⟩,
      fun h => ⟨h.keyNotEmpty, h.keyTrimmed, h.keyNoColon, h.keyNoComma, h.valueTrimmed,
        h.valueNoComma⟩⟩

/-- A pair as an item of a block. -/
def writeItem (pair : String × String) : List Char :=
  pair.1.toList ++ [':'] ++ pair.2.toList

/-- The body of a block with some pairs. -/
def writeBody (pairs : List (String × String)) : List Char :=
  [','].intercalate (pairs.map writeItem)

/-- A trimmed text has the characters that trimming leaves. -/
theorem trimChars_of_trim {s : String} (h : Text.trim s = s) :
    Text.trimChars s.toList = s.toList := by
  conv_rhs => rw [← h, Text.trim, String.toList_ofList]

theorem readItem_writeItem {pair : String × String} (h : Writable pair) :
    readItem (writeItem pair) = some pair := by
  have hcolon : Text.Unbordered [':'] := by decide
  have hbreak : Text.breakOn [':'] (writeItem pair) = some (pair.1.toList, pair.2.toList) :=
    hcolon.breakOn_append (mt (List.singleton_infix_iff _ _).mp h.keyNoColon) _
  have hkey : pair.1.toList.isEmpty = false := by
    rw [List.isEmpty_eq_false_iff]
    exact fun hnil => h.keyNotEmpty (String.toList_eq_nil_iff.mp hnil)
  unfold readItem
  simp only [hbreak, trimChars_of_trim h.keyTrimmed, trimChars_of_trim h.valueTrimmed, hkey,
    Bool.false_eq_true, if_false, String.ofList_toList]

/-- The pairs of a block are read from its body. -/
theorem readBody_writeBody {pairs : List (String × String)} (h : ∀ pair ∈ pairs, Writable pair) :
    readBody (writeBody pairs) = pairs := by
  have hitems : (pairs.map writeItem).filterMap readItem = pairs := by
    rw [List.filterMap_map]
    conv_rhs => rw [← List.filterMap_some (l := pairs)]
    exact List.filterMap_congr fun pair hpair => readItem_writeItem (h pair hpair)
  cases pairs with
  | nil => rfl
  | cons first later =>
      have hnoComma : ∀ item ∈ (first :: later).map writeItem, ',' ∉ item := by
        intro item hitem
        rcases List.mem_map.mp hitem with ⟨pair, hpair, rfl⟩
        simp [writeItem, (h pair hpair).keyNoComma, (h pair hpair).valueNoComma]
      rw [readBody, Text.splitChars_eq_splitOn, writeBody,
        List.splitOn_intercalate ',' hnoComma (by simp), hitems]

/-! ## Blocks and comments -/

/-- A block with its pairs, and the text behind it up to the next block or the end of the
comment. -/
structure Block where
  pairs : List (String × String)
  trailing : List Char
  writable : ∀ pair ∈ pairs, Writable pair
  noEnd : ¬ ['*', '/'] <:+: writeBody pairs
  noBeginning : ¬ ['/', '*'] <:+: trailing

/-- A comment with one block or more. -/
structure Comment where
  leading : List Char
  blocks : List Block
  noBeginning : ¬ ['/', '*'] <:+: leading
  blocks_ne_nil : blocks ≠ []

/-- A block as it is written, with the text behind it. -/
def Block.write (block : Block) : List Char :=
  ['/', '*'] ++ (writeBody block.pairs ++ ['*', '/'] ++ block.trailing)

/-- A comment as it is written. -/
def Comment.write (comment : Comment) : String :=
  String.ofList (comment.leading ++ comment.blocks.flatMap Block.write)

/-- The pairs of a comment. -/
def Comment.pairs (comment : Comment) : List (String × String) :=
  comment.blocks.flatMap Block.pairs

theorem unbordered_beginning : Text.Unbordered ['/', '*'] := by decide

theorem unbordered_end : Text.Unbordered ['*', '/'] := by decide

/-- The first block of a text ends where its body does, and the others are looked for behind it. -/
theorem blockBodies_append {leading body : List Char} (hleading : ¬ ['/', '*'] <:+: leading)
    (hbody : ¬ ['*', '/'] <:+: body) (fuel : Nat) (rest : List Char) :
    blockBodies (fuel + 1) (leading ++ ['/', '*'] ++ (body ++ ['*', '/'] ++ rest)) =
      body :: blockBodies fuel rest := by
  rw [blockBodies, unbordered_beginning.breakOn_append hleading]
  simp only [unbordered_end.breakOn_append hbody]

theorem append_flatMap_write (leading : List Char) (block : Block) (blocks : List Block) :
    leading ++ (block :: blocks).flatMap Block.write =
      leading ++ ['/', '*'] ++ (writeBody block.pairs ++ ['*', '/'] ++
        (block.trailing ++ blocks.flatMap Block.write)) := by
  simp [Block.write]

/-- All blocks are found, one after the other. -/
theorem blockBodies_write (blocks : List Block) {fuel : Nat} (hfuel : blocks.length ≤ fuel)
    {leading : List Char} (hleading : ¬ ['/', '*'] <:+: leading) :
    blockBodies fuel (leading ++ blocks.flatMap Block.write) =
      blocks.map fun block => writeBody block.pairs := by
  induction blocks generalizing fuel leading with
  | nil =>
      rw [List.flatMap_nil, List.append_nil]
      cases fuel with
      | zero => rfl
      | succ fuel =>
          rw [blockBodies, Text.breakOn_of_absent hleading]
          rfl
  | cons block blocks ih =>
      cases fuel with
      | zero => cases hfuel
      | succ fuel =>
          -- What is behind the block stands in front of the next one.
          rw [append_flatMap_write, blockBodies_append hleading block.noEnd,
            ih (Nat.le_of_succ_le_succ hfuel) block.noBeginning, List.map_cons]

theorem length_le_length_write (blocks : List Block) :
    blocks.length ≤ (blocks.flatMap Block.write).length := by
  induction blocks with
  | nil => exact Nat.le_refl 0
  | cons block blocks ih =>
      have hwrite : 2 ≤ block.write.length := by simp [Block.write]
      rw [List.flatMap_cons, List.length_append, List.length_cons]
      omega

/-- The blocks of a comment are those that were written. -/
theorem bodies_write (comment : Comment) :
    bodies comment.write.toList = comment.blocks.map fun block => writeBody block.pairs := by
  have hfuel : comment.blocks.length ≤ comment.write.toList.length := by
    have hblocks := length_le_length_write comment.blocks
    rw [Comment.write, String.toList_ofList, List.length_append]
    omega
  have hbegins : (Text.breakOn ['/', '*'] comment.write.toList).isSome = true := by
    rw [Comment.write, String.toList_ofList]
    cases hblocks : comment.blocks with
    | nil => exact absurd hblocks comment.blocks_ne_nil
    | cons block blocks =>
        rw [append_flatMap_write, unbordered_beginning.breakOn_append comment.noBeginning]
        rfl
  rw [bodies, if_pos hbegins, ← blockBodies_write comment.blocks hfuel comment.noBeginning,
    Comment.write, String.toList_ofList]

/-! ## All comments -/

/-- The pairs of a comment are read from its blocks. -/
theorem flatMap_readBody_bodies (comment : Comment) :
    (bodies comment.write.toList).flatMap readBody = comment.pairs := by
  rw [bodies_write, List.flatMap_map, Comment.pairs]
  exact List.flatMap_congr fun block _ => readBody_writeBody block.writable

/-- What is read from comments is what was written into their blocks, and nothing else.  What is
read from two lists of any comments, one behind the other, is what is read from the first list
followed by what is read from the second one. -/
theorem ofComments_write :
    (∀ comments : List Comment,
      ofComments (comments.map Comment.write) = ⟨comments.flatMap Comment.pairs⟩) ∧
    ∀ earlier later : List String,
      ofComments (earlier ++ later) =
        ⟨(ofComments earlier).entries ++ (ofComments later).entries⟩ := by
  constructor
  · intro comments
    rw [ofComments, List.flatMap_map]
    exact congrArg Hints.mk (List.flatMap_congr fun c _ => flatMap_readBody_bodies c)
  · intro earlier later
    rw [ofComments, List.flatMap_append]
    rfl

/-- A comment whose delimiters have further slashes and stars next to them. -/
def crowdedComment : Comment where
  leading := ['/']
  blocks :=
    [{ pairs := [("a", "b:c*"), ("/", "*")]
       trailing := ['*', '/', '/']
       writable := by decide +kernel
       noEnd := by decide
       noBeginning := by decide },
     { pairs := [("/*k", "")]
       trailing := []
       writable := by decide +kernel
       noEnd := by decide
       noBeginning := by decide }]
  noBeginning := by decide
  blocks_ne_nil := by decide

/-- Its pairs are read back. -/
theorem ofComments_write_crowded :
    crowdedComment.write = "//*a:b:c*,/:**/*///*/*k:*/" ∧
    ofComments ["//*a:b:c*,/:**/*///*/*k:*/"] = ⟨[("a", "b:c*"), ("/", "*"), ("/*k", "")]⟩ := by
  have hwrite : crowdedComment.write = "//*a:b:c*,/:**/*///*/*k:*/" := by decide +kernel
  refine ⟨hwrite, ?_⟩
  have hread := ofComments_write.1 [crowdedComment]
  rwa [List.map_singleton, hwrite] at hread

end ShardedSql.Hints
