import Mathlib.Data.List.Perm.Basic
import ShardedSql.Proofs.Merge.Totals

/-!
# Grouped results in any order

The results of several targets arrive in some order, and groups come in the order in which they
first appear.  Under the collation that compares texts as they are, equal cells are the same cell,
so that it does not matter which row of a group comes first: the merged row of a group is the same
in every order, and only the order of the groups changes.

Main results:

- Theorem `Cell.eq_of_order`: cells that compare equal as they are written are the same.
- Theorem `Accumulation.IsTotal.unique`: the total of a column does not depend on the order.
- Theorem `Grouping.mergedRow_perm`: neither does the merged row of a group.
- Theorem `groupRows_perm`: results in another order give the same merged rows in another order.
-/

namespace ShardedSql

open Std

/-- Images of one list and of another order of it are each other's orders, provided that every
element has the same image in both. -/
theorem perm_of_mapM {α β : Type} {f f' : α → Except Fault β} {xs xs' : List α} {ys ys' : List β}
    (hperm : xs.Perm xs')
    (hsame : ∀ x ∈ xs, ∀ y y', f x = .ok y → f' x = .ok y' → y = y')
    (h : xs.mapM f = .ok ys) (h' : xs'.mapM f' = .ok ys') : ys.Perm ys' := by
  rcases List.perm_comp_forall₂ hperm (mapM_eq_ok_iff.mp h') with ⟨zs, hzs, hzsPerm⟩
  have hunique : ys = zs := by
    have hys := mapM_eq_ok_iff.mp h
    clear h h' hzsPerm hperm
    induction hys generalizing zs with
    | nil => exact (List.forall₂_nil_left_iff.mp hzs).symm
    | cons hy _ ih =>
        rcases List.forall₂_cons_left_iff.mp hzs with ⟨z, rest, hz, hrest, rfl⟩
        rw [hsame _ List.mem_cons_self _ _ hy hz,
          ih (fun x hx => hsame x (List.mem_cons_of_mem _ hx)) rest hrest]
  rw [hunique]
  exact hzsPerm

/-! ## Equal cells -/

namespace Cell

/-- Cells that compare equal as they are written are the same, unless one of them is a
floating-point number. -/
theorem eq_of_order {a b : Cell} (ha : a.kind ≠ .float) (hb : b.kind ≠ .float)
    (h : order .binary a b = .ok .eq) : a = b := by
  cases a with
  | null => cases b <;> simp [order] at h ⊢
  | bool a =>
      cases b with
      | bool b =>
          have hsame : compare a.toNat b.toNat = .eq := Except.ok.inj h
          have hbit := congrArg (· == 1) (Nat.compare_eq_eq.mp hsame)
          simpa using hbit
      | _ => simp [order] at h
  | int a =>
      cases b with
      | int b =>
          have hsame : compare a.toInt b.toInt = .eq := Except.ok.inj h
          rw [Int64.toInt_inj.mp (Int.compare_eq_eq.mp hsame)]
      | float _ => exact absurd rfl hb
      | _ => simp [order] at h
  | float _ => exact absurd rfl ha
  | text a =>
      cases b with
      | text b =>
          have hsame : Text.order a b = .eq := Except.ok.inj h
          rw [Text.order_eq_eq.mp hsame]
      | _ => simp [order] at h
  | bytes a =>
      cases b with
      | bytes b =>
          have hsame : orderBytes a b = .eq := Except.ok.inj h
          rw [orderBytes_eq_eq.mp hsame]
      | _ => simp [order] at h

/-- A cell whose key is its own is no floating-point number. -/
theorem Keyable.kind_ne_float {collation : Collation} {c : Cell} (h : c.Keyable collation) :
    c.kind ≠ .float := by
  cases c with
  | float _ => cases h
  | _ => exact fun hkind => by cases hkind

/-- Cells with key bytes of their own that are equal as they are written are the same. -/
theorem eq_of_equals {a b : Cell} (ha : a.Keyable .binary) (hb : b.Keyable .binary)
    (h : equals .binary a b = .ok true) : a = b :=
  eq_of_order ha.kind_ne_float hb.kind_ne_float (equals_eq_true.mp h)

/-! ## Totals -/

/-- A sum does not depend on the order of the cells. -/
theorem integerSum_perm {cells cells' : List Cell} (h : cells.Perm cells') :
    integerSum cells = integerSum cells' := by
  unfold integerSum
  exact (h.map intKey).foldr_eq' (fun a _ b _ c => by omega) 0

/-- The sum of some cells does not depend on their order. -/
theorem IsSum.unique {cells cells' : List Cell} (hperm : cells.Perm cells') {a b : Cell}
    (ha : IsSum cells a) (hb : IsSum cells' b) : a = b := by
  rcases ha with ⟨hnull, rfl⟩ | ⟨⟨c, hc, hsome⟩, m, rfl, hm⟩ <;>
    rcases hb with ⟨hnull', rfl⟩ | ⟨⟨d, hd, hsome'⟩, n, rfl, hn⟩
  · rfl
  · rw [hnull d (hperm.mem_iff.mpr hd)] at hsome'
    cases hsome'
  · rw [hnull' c (hperm.mem_iff.mp hc)] at hsome
    cases hsome
  · rw [integerSum_perm hperm, ← hn] at hm
    rw [Int64.toInt_inj.mp hm]

/-- The best cell is there, or all are null. -/
theorem IsBest.null_or_mem {wanted : Ordering} {collation : Collation} {cells : List Cell}
    {best : Cell} (h : IsBest wanted collation cells best) :
    (∀ c ∈ cells, c.isNull) ∧ best = .null ∨ best ∈ cells ∧ best.isNull = false := by
  rcases h with hnull | ⟨before, after, rfl, hsome, -⟩
  · exact .inl hnull
  · exact .inr ⟨by simp, hsome⟩

/-- Of cells compared as they are written the best one does not depend on their order. -/
theorem IsBest.unique {wanted : Ordering} (hwanted : wanted ≠ .eq) {kind : CellKind}
    (hkind : kind.isOrdered) {cells cells' : List Cell} (hperm : cells.Perm cells')
    (hcells : ∀ c ∈ cells, c.isOf kind) {a b : Cell} (ha : IsBest wanted .binary cells a)
    (hb : IsBest wanted .binary cells' b) : a = b := by
  have hcells' : ∀ c ∈ cells', c.isOf kind := fun c hc => hcells c (hperm.mem_iff.mpr hc)
  rcases ha.null_or_mem with ⟨hnull, rfl⟩ | ⟨hmem, hsome⟩ <;>
    rcases hb.null_or_mem with ⟨hnull', rfl⟩ | ⟨hmem', hsome'⟩
  · rfl
  · rw [hnull b (hperm.mem_iff.mpr hmem')] at hsome'
    cases hsome'
  · rw [hnull' a (hperm.mem_iff.mp hmem)] at hsome
    cases hsome
  · rcases ha.order_cases hkind hcells hsome with ⟨hakind, hall⟩
    rcases hb.order_cases hkind hcells' hsome' with ⟨hbkind, hall'⟩
    have hab := hall b (hperm.mem_iff.mpr hmem') hsome'
    have hba := hall' a (hperm.mem_iff.mp hmem) hsome
    have hfloat : kind ≠ .float := by
      rintro rfl
      cases hkind
    -- Each is as good as the other.
    apply eq_of_order (hakind ▸ hfloat) (hbkind ▸ hfloat)
    rw [order_eq_totalOrder .binary hkind hakind hbkind] at hab ⊢
    rw [order_eq_totalOrder .binary hkind hbkind hakind] at hba
    have hswap : totalOrder .binary b a = (totalOrder .binary a b).swap := OrientedCmp.eq_swap
    rw [hswap] at hba
    revert hab hba hwanted
    cases totalOrder .binary a b <;> cases wanted <;> simp

end Cell

/-- The total of the cells of a column does not depend on their order. -/
theorem Accumulation.IsTotal.unique {k : Accumulation} {cells cells' : List Cell}
    (hperm : cells.Perm cells') (haccepts : k.Accepts cells) {a b : Cell}
    (ha : k.IsTotal .binary cells a) (hb : k.IsTotal .binary cells' b) : a = b := by
  cases k with
  | sum => exact Cell.IsSum.unique hperm ha hb
  | least =>
      rcases haccepts with ⟨kind, hkind, hcells⟩
      exact Cell.IsBest.unique (by decide) hkind hperm hcells ha hb
  | greatest =>
      rcases haccepts with ⟨kind, hkind, hcells⟩
      exact Cell.IsBest.unique (by decide) hkind hperm hcells ha hb

/-! ## Groups -/

namespace Grouping

variable {g : Grouping} {width : Nat} {rows rows' : List Row}

/-- Rows in another order have the same groups. -/
theorem keysOf_perm (h : rows.Perm rows') : (g.keysOf rows).Perm (g.keysOf rows') := by
  apply (List.perm_ext_iff_of_nodup (nodup_distinctly _) (nodup_distinctly _)).mpr
  intro key
  rw [← keysOf, ← keysOf, mem_keysOf, mem_keysOf]
  simp only [h.mem_iff]

/-- An aggregate column is accumulated, or it holds an average. -/
theorem column_cases {c : Nat} (h : c ∈ g.aggregateColumns) :
    (∃ k, (c, k) ∈ g.accumulations) ∨ ∃ a ∈ g.aggregates, ∃ sumColumn countColumn,
      a.kind = .average sumColumn countColumn ∧ a.column = c ∧
        (sumColumn, .sum) ∈ g.accumulations ∧ (countColumn, .sum) ∈ g.accumulations := by
  rcases List.mem_flatMap.mp h with ⟨a, ha, hc⟩
  have hmem : ∀ x ∈ a.accumulations, x ∈ g.accumulations := fun x hx =>
    List.mem_flatMap.mpr ⟨a, ha, hx⟩
  unfold Aggregate.columns at hc
  unfold Aggregate.accumulations at hmem
  cases hkind : a.kind with
  | average sumColumn countColumn =>
      simp only [hkind, List.mem_cons, List.not_mem_nil, or_false] at hc hmem
      rcases hc with rfl | rfl | rfl
      · exact .inr ⟨a, ha, sumColumn, countColumn, hkind, rfl, hmem _ (.inl rfl), hmem _ (.inr rfl)⟩
      · exact .inl ⟨.sum, hmem _ (.inl rfl)⟩
      · exact .inl ⟨.sum, hmem _ (.inr rfl)⟩
  | count | sum | min | max =>
      simp only [hkind, List.mem_singleton] at hc hmem
      exact .inl ⟨_, hc ▸ hmem _ rfl⟩

/-- Two rows that summarise a group in different orders, led by rows that agree on the group
columns, are the same. -/
theorem Summarises.unique (hg : g.collation = .binary) (h : g.Mergeable width rows)
    (hcovered : ∀ c < width, c ∈ g.columns ∨ c ∈ g.aggregateColumns)
    {members members' : List Row} (hperm : members.Perm members')
    (hmembers : ∀ row ∈ members, row ∈ rows) {leader leader' a b : Row} (hleader : leader ∈ rows)
    (hleader' : leader' ∈ rows) (halike : g.alike leader leader')
    (ha : g.Summarises members leader a) (hb : g.Summarises members' leader' b) : a = b := by
  have htotal : ∀ x ∈ g.accumulations, a.cell x.1 = b.cell x.1 := by
    intro x hx
    have haccepts : x.2.Accepts (members.map (·.cell x.1)) := by
      apply (h.accepts x hx).subset
      intro c hc
      rcases List.mem_map.mp hc with ⟨row, hrow, rfl⟩
      exact List.mem_map_of_mem (hmembers row hrow)
    have hatotal := ha.accumulated x hx
    have hbtotal := hb.accumulated x hx
    rw [hg] at hatotal hbtotal
    exact hatotal.unique (hperm.map _) haccepts hbtotal
  have hlength : a.length = width := ha.length_eq.trans (h.length_eq leader hleader)
  apply Row.ext_cell (hlength.trans (hb.length_eq.trans (h.length_eq leader' hleader')).symm)
  intro c hc
  rw [hlength] at hc
  by_cases haggregate : c ∈ g.aggregateColumns
  · rcases column_cases haggregate with
      ⟨k, hk⟩ | ⟨f, hf, sumColumn, countColumn, hkind, rfl, hsum, hcount⟩
    · exact htotal _ hk
    · have haverage := ha.averaged f hf sumColumn countColumn hkind
      rw [htotal _ hsum, htotal _ hcount, hb.averaged f hf sumColumn countColumn hkind] at haverage
      exact (Except.ok.inj haverage).symm
  · have hcolumn : c ∈ g.columns := (hcovered c hc).resolve_right haggregate
    have hequal := alike_iff.mp halike c hcolumn
    have hkeyable := h.keyable leader hleader c hcolumn
    have hkeyable' := h.keyable leader' hleader' c hcolumn
    rw [hg] at hequal hkeyable hkeyable'
    rw [ha.untouched c haggregate, hb.untouched c haggregate]
    exact Cell.eq_of_equals hkeyable hkeyable' hequal

/-- The merged row of a group that has one summarises the rows of the group. -/
theorem exists_leader (h : g.Mergeable width rows) {key : List UInt8} (hkey : key ∈ g.keysOf rows)
    {merged : Row} (hmerged : g.mergedRow rows key = .ok merged) :
    ∃ leader ∈ rows, g.key leader = key ∧ g.Summarises (g.partials rows key) leader merged := by
  rw [keysOf_eq h] at hkey
  rcases List.mem_map.mp hkey with ⟨leader, hleader, rfl⟩
  have hmem := leaders_subset leader hleader
  refine ⟨leader, hmem, rfl, ?_⟩
  rw [partials_eq h hmem]
  rcases mergedRow_cases h hleader with ⟨row, hrow, hsummary, -⟩ | ⟨e, he, -⟩
  · cases hmerged.symm.trans hrow
    exact hsummary
  · cases hmerged.symm.trans he

/-- The merged row of a group is the same for rows in another order. -/
theorem mergedRow_perm (hg : g.collation = .binary) (h : g.Mergeable width rows)
    (hcovered : ∀ c < width, c ∈ g.columns ∨ c ∈ g.aggregateColumns) (hperm : rows.Perm rows')
    {key : List UInt8} (hkey : key ∈ g.keysOf rows) {a b : Row}
    (ha : g.mergedRow rows key = .ok a) (hb : g.mergedRow rows' key = .ok b) : a = b := by
  have h' : g.Mergeable width rows' := h.subset fun row hrow => hperm.mem_iff.mpr hrow
  have hkey' : key ∈ g.keysOf rows' := (keysOf_perm hperm).mem_iff.mp hkey
  rcases exists_leader h hkey ha with ⟨leader, hleader, hsame, hsummary⟩
  rcases exists_leader h' hkey' hb with ⟨leader', hleader', hsame', hsummary'⟩
  have hmem' : leader' ∈ rows := hperm.mem_iff.mpr hleader'
  have halike : g.alike leader leader' :=
    (h.alike_iff_key hleader hmem').mpr (hsame.trans hsame'.symm)
  exact hsummary.unique hg h hcovered (hperm.filter _) (fun row hrow => (List.mem_filter.mp hrow).1)
    hleader hmem' halike hsummary'

end Grouping

/-- Results in another order give the same merged rows in another order: provided that texts are
compared as they are written, that every column is grouped or accumulated, and that the groups can
be told apart and accumulated. -/
theorem groupRows_perm {results results' : List ResultCursor} {shape : Shape} {width : Nat}
    (hperm : results.Perm results') (hnever : ∀ r ∈ results, r.NeverFails)
    (horder : shape.orderBy = [])
    (hcovered : ∀ c < width, c ∈ shape.groupColumns width ∨
      c ∈ (shape.grouping width .binary).aggregateColumns)
    (h : (shape.grouping width .binary).Mergeable width (results.flatMap (·.rows.rest)))
    {merged merged' : List Row} (hmerged : groupRows results shape width .binary = .ok merged)
    (hmerged' : groupRows results' shape width .binary = .ok merged') : merged.Perm merged' := by
  have hrows : (results.flatMap (·.rows.rest)).Perm (results'.flatMap (·.rows.rest)) :=
    hperm.flatMap_right _
  have hunsorted : shape.hasOrder = false := by
    rw [Shape.hasOrder, horder]
    rfl
  have hgroups : ∀ {some : List ResultCursor} {rows : List Row}, some.Perm results →
      groupRows some shape width .binary = .ok rows →
      ((shape.grouping width .binary).keysOf (some.flatMap (·.rows.rest))).mapM
        ((shape.grouping width .binary).mergedRow (some.flatMap (·.rows.rest))) = .ok rows := by
    intro some rows hsome hok
    have hwidth : ∀ r ∈ some, ∀ row ∈ r.rows.rest, row.length = width := by
      intro r hr row hrow
      exact h.length_eq row (List.mem_flatMap.mpr ⟨r, hsome.mem_iff.mp hr, hrow⟩)
    rw [groupRows_eq_ok_iff (fun r hr => hnever r (hsome.mem_iff.mp hr)) hwidth,
      Shape.groupwise] at hok
    simpa [hunsorted] using hok.2
  exact perm_of_mapM (Grouping.keysOf_perm hrows)
    (fun key hkey a b ha hb => Grouping.mergedRow_perm rfl h hcovered hrows hkey ha hb)
    (hgroups (List.Perm.refl _) hmerged) (hgroups hperm.symm hmerged')

/-- Amounts by customer, who is written in one way. -/
def orderedAmounts : List ResultCursor :=
  [.ofRows [⟨"name", "name"⟩, ⟨"sum", "sum"⟩, ⟨"max", "max"⟩]
    [[.text "ann", .int 4, .text "x"], [.text "bob", .null, .text "y"]],
  .ofRows [⟨"name", "name"⟩, ⟨"sum", "sum"⟩, ⟨"max", "max"⟩]
    [[.text "cid", .int 1, .null], [.text "ann", .int 3, .text "z"]]]

/-- The same customers in another order. -/
theorem groupRows_perm_orderedAmounts :
    orderedAmounts.Perm orderedAmounts.reverse ∧ (∀ r ∈ orderedAmounts, r.NeverFails) ∧
    amountShape.orderBy = [] ∧
    (∀ c < 3, c ∈ amountShape.groupColumns 3 ∨
      c ∈ (amountShape.grouping 3 .binary).aggregateColumns) ∧
    (amountShape.grouping 3 .binary).Mergeable 3 (orderedAmounts.flatMap (·.rows.rest)) ∧
    groupRows orderedAmounts amountShape 3 .binary =
      .ok [[.text "ann", .int 7, .text "z"], [.text "bob", .null, .text "y"],
        [.text "cid", .int 1, .null]] ∧
    groupRows orderedAmounts.reverse amountShape 3 .binary =
      .ok [[.text "cid", .int 1, .null], [.text "ann", .int 7, .text "z"],
        [.text "bob", .null, .text "y"]] ∧
    [[.text "ann", .int 7, .text "z"], [.text "bob", .null, .text "y"],
      [.text "cid", .int 1, .null]].Perm
      [[.text "cid", .int 1, .null], [.text "ann", .int 7, .text "z"],
        ([.text "bob", .null, .text "y"] : Row)] := by
  have hperm : orderedAmounts.Perm orderedAmounts.reverse := (List.reverse_perm _).symm
  have hnever : ∀ r ∈ orderedAmounts, r.NeverFails := by
    intro r hr
    simp only [orderedAmounts, List.mem_cons, List.not_mem_nil, or_false] at hr
    rcases hr with rfl | rfl <;> exact (ResultCursor.ofRows_uninterrupted _ _).neverFails
  have hcovered : ∀ c < 3, c ∈ amountShape.groupColumns 3 ∨
      c ∈ (amountShape.grouping 3 .binary).aggregateColumns := by
    decide
  have hmergeable : (amountShape.grouping 3 .binary).Mergeable 3
      (orderedAmounts.flatMap (·.rows.rest)) := by
    refine ⟨⟨by decide, by decide⟩, by decide, by decide +kernel, ?_⟩
    intro x hx
    have hcases : x = (1, .sum) ∨ x = (2, .greatest) := by
      simpa [Grouping.accumulations, Shape.grouping, amountShape, Aggregate.accumulations] using hx
    rcases hcases with rfl | rfl
    · show ∀ c ∈ _, _
      decide
    · exact ⟨.text, rfl, by decide⟩
  have hmerged : groupRows orderedAmounts amountShape 3 .binary =
      .ok [[.text "ann", .int 7, .text "z"], [.text "bob", .null, .text "y"],
        [.text "cid", .int 1, .null]] := by
    apply eq_ok_of_toOption
    decide +kernel
  have hmerged' : groupRows orderedAmounts.reverse amountShape 3 .binary =
      .ok [[.text "cid", .int 1, .null], [.text "ann", .int 7, .text "z"],
        [.text "bob", .null, .text "y"]] := by
    apply eq_ok_of_toOption
    decide +kernel
  exact ⟨hperm, hnever, rfl, hcovered, hmergeable, hmerged, hmerged',
    groupRows_perm hperm hnever rfl hcovered hmergeable hmerged hmerged'⟩

end ShardedSql
