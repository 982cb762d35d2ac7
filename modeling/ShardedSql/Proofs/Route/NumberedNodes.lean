import Mathlib.Data.List.Forall2
import ShardedSql.Proofs.Route.Selections
import ShardedSql.Proofs.Text.Numeral

/-!
# Numbered nodes

The tables of a sharded table are commonly numbered from zero on, the number standing behind the
last underscore of the name.  A shard is then held by the table of its number, wherever in the list
of nodes the table stands.

Main results:

- Theorem `DataNode.Numbered.unique`: a name ends in one number only.
- Theorem `ShardingAlgorithm.nodeOf_modulo`: integers are held by the node of their remainder.
-/

namespace ShardedSql

/-! ## Numbers of nodes -/

/-- The name of the table ends in an underscore and a number. -/
def DataNode.Numbered (node : DataNode) (k : Nat) : Prop :=
  ∃ stem : String, node.table = stem ++ "_" ++ toString k

/-- The nodes are numbered from zero up to a count, each number being used once, in any order. -/
def NumberedNodes (nodes : List DataNode) (count : Nat) : Prop :=
  ∃ numbers : List Nat, numbers.Perm (List.range count) ∧
    List.Forall₂ DataNode.Numbered nodes numbers

/-- A text ends with another one exactly if it is a stem with that ending. -/
theorem Text.endsWith_iff {s ending : String} :
    Text.endsWith s ending = true ↔ ∃ stem : String, s = stem ++ ending := by
  rw [Text.endsWith, List.isSuffixOf_iff_suffix]
  constructor
  · rintro ⟨stem, hstem⟩
    refine ⟨String.ofList stem, String.toList_inj.mp ?_⟩
    rw [String.toList_append, String.toList_ofList, hstem]
  · rintro ⟨stem, rfl⟩
    exact ⟨stem.toList, String.toList_append.symm⟩

namespace DataNode

variable {node : DataNode} {j k : Nat}

/-- A node is found by its number. -/
theorem numbered_iff : node.Numbered k ↔ Text.endsWith node.table ("_" ++ toString k) = true := by
  rw [Text.endsWith_iff, Numbered]
  simp only [String.append_assoc]

/-- The digits at the end of the name are those of its number. -/
theorem Numbered.digits_eq (h : node.Numbered k) :
    node.table.toList.reverse.takeWhile Char.isDigit = (Nat.toDigits 10 k).reverse := by
  rcases h with ⟨stem, hstem⟩
  have hdigits : ∀ c ∈ (Nat.toDigits 10 k).reverse, c.isDigit = true := fun c hc =>
    Nat.isDigit_of_mem_toDigits (by decide) (by decide) (List.mem_reverse.mp hc)
  have hname : node.table.toList.reverse =
      (Nat.toDigits 10 k).reverse ++ '_' :: stem.toList.reverse := by
    rw [hstem, String.toList_append, String.toList_append, Nat.toString_eq_repr, Nat.toList_repr]
    simp
  rw [hname, List.takeWhile_append_of_pos hdigits, List.takeWhile_cons_of_neg (by decide),
    List.append_nil]

/-- A name ends in one number only. -/
theorem Numbered.unique (hj : node.Numbered j) (hk : node.Numbered k) : j = k := by
  have hdigits : Nat.toDigits 10 j = Nat.toDigits 10 k :=
    List.reverse_inj.mp (hj.digits_eq.symm.trans hk.digits_eq)
  have hnumbers := congrArg (Nat.ofDigitChars 10 · 0) hdigits
  simpa only [Nat.ofDigitChars_ten_toDigits] using hnumbers

end DataNode

/-- The number of a node is among those of all nodes. -/
theorem number_mem_of_mem {nodes : List DataNode} {numbers : List Nat}
    (h : List.Forall₂ DataNode.Numbered nodes numbers) {node : DataNode} (hnode : node ∈ nodes)
    {k : Nat} (hk : node.Numbered k) : k ∈ numbers := by
  induction h with
  | nil => cases hnode
  | cons hfirst _ ih =>
      rcases List.mem_cons.mp hnode with rfl | hnode
      · rw [hk.unique hfirst]
        exact List.mem_cons_self
      · exact List.mem_cons_of_mem _ (ih hnode)

/-- Each number up to the count is that of one of the nodes, and of no other. -/
theorem NumberedNodes.exists_unique {nodes : List DataNode} {count : Nat}
    (h : NumberedNodes nodes count) {k : Nat} (hk : k < count) :
    ∃ node ∈ nodes, node.Numbered k ∧ ∀ other ∈ nodes, other.Numbered k → other = node := by
  rcases h with ⟨numbers, hperm, hnodes⟩
  have hnodup : numbers.Nodup := hperm.nodup_iff.mpr List.nodup_range
  have hmem : k ∈ numbers := hperm.mem_iff.mpr (List.mem_range.mpr hk)
  clear hperm
  induction hnodes with
  | nil => cases hmem
  | @cons node number nodes numbers hnode hnodes ih =>
      rw [List.nodup_cons] at hnodup
      rcases List.mem_cons.mp hmem with rfl | hmem
      · refine ⟨node, List.mem_cons_self, hnode, ?_⟩
        intro other hother hnumbered
        rcases List.mem_cons.mp hother with rfl | hother
        · rfl
        · exact absurd (number_mem_of_mem hnodes hother hnumbered) hnodup.1
      · rcases ih hnodup.2 hmem with ⟨found, hfound, hnumbered, hunique⟩
        refine ⟨found, List.mem_cons_of_mem _ hfound, hnumbered, ?_⟩
        intro other hother hother_k
        rcases List.mem_cons.mp hother with rfl | hother
        · rw [hnode.unique hother_k] at hnodup
          exact absurd hmem hnodup.1
        · exact hunique other hother hother_k

/-! ## Nodes of shards -/

/-- The only element of a property is the one that is found. -/
theorem find?_eq_some_of_unique {α : Type} {p : α → Bool} {xs : List α} {x : α} (hmem : x ∈ xs)
    (hx : p x = true) (hunique : ∀ y ∈ xs, p y = true → y = x) : xs.find? p = some x := by
  cases hfound : xs.find? p with
  | none => exact absurd hx (List.find?_eq_none.mp hfound x hmem)
  | some y => rw [hunique y (List.mem_of_find?_eq_some hfound) (List.find?_some hfound)]

/-- A cell stands for an integer: it is the integer, or a text that is a numeral of it when
trimmed. -/
def Cell.StandsFor (value : Cell) (n : Int64) : Prop :=
  value = .int n ∨ ∃ s, value = .text s ∧ Text.IsNumeral n.toInt (Text.trim s).toList

namespace ShardingAlgorithm

variable {count : UInt64}

/-- A value that stands for an integer is read as it. -/
theorem integerOf_eq_ok {value : Cell} {n : Int64} (h : value.StandsFor n) :
    integerOf value = .ok n := by
  rcases h with rfl | ⟨s, rfl, hs⟩
  · rfl
  · simp only [integerOf, Text.readInt64_eq_ok hs]

/-- A count below `2 ^ 63` is the same number with a sign. -/
theorem toInt_toInt64 (h : count.toNat < Nat.pow 2 63) : count.toInt64.toInt = count.toNat := by
  have hdouble : 2 * count.toBitVec.toNat < 2 ^ 64 := by
    show 2 * count.toNat < Nat.pow 2 64
    have hpow : Nat.pow 2 64 = 2 * Nat.pow 2 63 := by decide
    omega
  exact BitVec.toInt_eq_toNat_of_lt hdouble

/-- The shard of an integer is its remainder, which is not negative. -/
theorem shardIndex_modulo (hcount : count.toNat < Nat.pow 2 63) {value : Cell} {n : Int64}
    (h : value.StandsFor n) :
    (modulo count).shardIndex value = .ok (n.toInt.emod count.toNat).toNat := by
  have hne : ¬ (n == Int64.minValue && count.toInt64 == -1) = true := by
    simp [toInt64_ne_neg_one hcount]
  simp only [shardIndex, integerOf_eq_ok h, bind, Except.bind]
  rw [remainder, if_neg hne, toInt_toInt64 hcount]

/-- A node that is the only one of its number is found by it. -/
theorem nodeOfShard?_eq_some {nodes : List DataNode} {node : DataNode} {k : Nat}
    (hmem : node ∈ nodes) (hnode : node.Numbered k)
    (hunique : ∀ other ∈ nodes, other.Numbered k → other = node) :
    nodeOfShard? nodes k = some node := by
  have hfind := find?_eq_some_of_unique hmem (DataNode.numbered_iff.mp hnode)
    fun other hother hends => hunique other hother (DataNode.numbered_iff.mpr hends)
  rw [nodeOfShard?]
  simp only [hfind]

/-- Integers, and texts that are numerals, are held by the node of their remainder: each remainder
has a node of its own, whatever the order of the nodes. -/
theorem nodeOf_modulo (hpos : 0 < count.toNat) (hcount : count.toNat < Nat.pow 2 63)
    {nodes : List DataNode} (hnodes : NumberedNodes nodes count.toNat) :
    ∃ holder : Nat → DataNode,
      (∀ k < count.toNat, holder k ∈ nodes ∧ (holder k).Numbered k) ∧
      (∀ j < count.toNat, ∀ k < count.toNat, holder j = holder k → j = k) ∧
      ∀ others : List DataNode, others.Perm nodes → ∀ value n, Cell.StandsFor value n →
        (modulo count).nodeOf others value =
          .ok (holder (n.toInt.emod count.toNat).toNat) := by
  have hnonempty : Nonempty DataNode := ⟨⟨"", ""⟩⟩
  choose! holder hmem hnumbered hunique using
    fun k (hk : k < count.toNat) => hnodes.exists_unique hk
  refine ⟨holder, fun k hk => ⟨hmem k hk, hnumbered k hk⟩, ?_, ?_⟩
  · intro j hj k hk hsame
    exact (hnumbered j hj).unique (hsame ▸ hnumbered k hk)
  · intro others hperm value n hvalue
    have hlt : (n.toInt.emod count.toNat).toNat < count.toNat := by
      have hrange := Int.emod_lt_of_pos n.toInt (Int.natCast_pos.mpr hpos)
      have hnonneg := Int.emod_nonneg n.toInt (Int.natCast_ne_zero.mpr (Nat.ne_of_gt hpos))
      change n.toInt.emod count.toNat < count.toNat at hrange
      omega
    have hfind := nodeOfShard?_eq_some (hperm.mem_iff.mpr (hmem _ hlt)) (hnumbered _ hlt)
      fun other hother => hunique _ hlt other (hperm.mem_iff.mp hother)
    simp only [nodeOf, shardIndex_modulo hcount hvalue, bind, Except.bind, hfind]

/-- The orders of twelve tables, the last one first. -/
def orderNodes : List DataNode :=
  (List.range 12).reverse.map fun k => ⟨"ds", "t_order" ++ "_" ++ toString k⟩

/-- Numbers that leave the remainder `1` are held by the second table of `orderNodes`, and not by
the last one, whose number ends in the same digit. -/
theorem nodeOf_modulo_orderNodes :
    0 < (12 : UInt64).toNat ∧ (12 : UInt64).toNat < Nat.pow 2 63 ∧
    NumberedNodes orderNodes (12 : UInt64).toNat ∧
    ∃ node ∈ orderNodes, node.Numbered 1 ∧ ¬ node.Numbered 11 ∧
      (modulo 12).nodeOf orderNodes (.int (-11)) = .ok node ∧
      (modulo 12).nodeOf orderNodes.reverse (.text " +0013 ") = .ok node := by
  have hnodes : NumberedNodes orderNodes (12 : UInt64).toNat := by
    refine ⟨(List.range 12).reverse, List.reverse_perm _, ?_⟩
    rw [orderNodes, List.forall₂_map_left_iff, List.forall₂_same]
    exact fun k _ => ⟨"t_order", rfl⟩
  have hpos : 0 < (12 : UInt64).toNat := by decide
  have hcount : (12 : UInt64).toNat < Nat.pow 2 63 := by decide
  have htrim : (Text.trim " +0013 ").toList = '+' :: ['0', '0', '1', '3'] := by decide +kernel
  have hnumeral : Text.IsNumeral (13 : Int64).toInt (Text.trim " +0013 ").toList := by
    rw [htrim]
    exact .positive ⟨by decide, List.all_eq_true.mp rfl⟩ (by decide)
  rcases nodeOf_modulo hpos hcount hnodes with ⟨holder, hholder, -, hheld⟩
  rcases hholder 1 (by decide) with ⟨hmem, hnumbered⟩
  refine ⟨hpos, hcount, hnodes, holder 1, hmem, hnumbered, ?_, ?_, ?_⟩
  · intro hother
    exact absurd (hnumbered.unique hother) (by decide)
  · exact hheld orderNodes (List.Perm.refl _) _ (-11) (.inl rfl)
  · exact hheld orderNodes.reverse (List.reverse_perm _) _ 13 (.inr ⟨_, rfl, hnumeral⟩)

end ShardingAlgorithm

end ShardedSql
