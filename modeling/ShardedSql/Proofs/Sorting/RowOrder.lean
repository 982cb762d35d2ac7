import ShardedSql.Grouping

/-!
# The order of rows

Not all cells compare: `Cell.order` fails on cells of different kinds and on a NaN.  Where every
sort column holds nulls and cells of one kind other than floating-point numbers, it never fails and
agrees with a total preorder of all rows.  Sorting and merging are reasoned about through that
preorder.

Main results:

- Instance `Row.totalOrder_transCmp`: the preorder is total and transitive for every collation and
  every list of criteria.
- Theorem `orderRows_eq_totalOrder`: rows with sortable columns compare without fault, as the
  preorder says.
- Theorem `mayPrecede_eq_isLE`: on such rows `Row.mayPrecede` is the preorder.
- Theorem `nullsPlaced_of_mayPrecede`: of two rows in order, the criterion at which one of them
  turns null says which one it is.
-/

namespace ShardedSql

open Std

/-! ## Texts and byte strings -/

/-- Texts are compared character by character. -/
theorem Text.orderChars_eq_compareLex (as bs : List Char) :
    Text.orderChars as bs = List.compareLex (compareOn Char.toNat) as bs := by
  induction as generalizing bs with
  | nil => cases bs <;> simp [Text.orderChars, List.compareLex]
  | cons a as ih =>
      cases bs with
      | nil => simp [Text.orderChars, List.compareLex]
      | cons b bs =>
          rw [Text.orderChars, List.compareLex_cons_cons, ih]
          rfl

/-- Bytes are compared one by one. -/
theorem orderBytes_eq_compareLex (as bs : List UInt8) :
    orderBytes as bs = List.compareLex (compareOn UInt8.toNat) as bs := by
  induction as generalizing bs with
  | nil => cases bs <;> simp [orderBytes, List.compareLex]
  | cons a as ih =>
      cases bs with
      | nil => simp [orderBytes, List.compareLex]
      | cons b bs =>
          rw [orderBytes, List.compareLex_cons_cons, ih]
          rfl

instance Text.order_transCmp : TransCmp Text.order where
  eq_swap := by
    intro a b
    simp only [Text.order, Text.orderChars_eq_compareLex]
    exact OrientedCmp.eq_swap
  isLE_trans := by
    intro a b c hab hbc
    simp only [Text.order, Text.orderChars_eq_compareLex] at hab hbc ⊢
    exact TransCmp.isLE_trans hab hbc

instance orderBytes_transCmp : TransCmp orderBytes where
  eq_swap := by
    intro a b
    simp only [orderBytes_eq_compareLex]
    exact OrientedCmp.eq_swap
  isLE_trans := by
    intro a b c hab hbc
    simp only [orderBytes_eq_compareLex] at hab hbc ⊢
    exact TransCmp.isLE_trans hab hbc

/-! ## Cells -/

/-- The kinds whose cells all compare with each other. -/
def CellKind.isOrdered : CellKind → Bool
  | .bool | .int | .text | .bytes => true
  | .null | .float => false

namespace Cell

/-- Whether a cell is null or of the given kind. -/
def isOf (kind : CellKind) (c : Cell) : Bool :=
  c.isNull || c.kind == kind

/-- What a boolean cell compares by. -/
def boolKey : Cell → Nat
  | bool b => b.toNat
  | _ => 0

/-- What an integer cell compares by. -/
def intKey : Cell → Int
  | int n => n.toInt
  | _ => 0

/-- What a text cell compares by. -/
def textKey (collation : Collation) : Cell → String
  | text s => collation.fold s
  | _ => ""

/-- What a byte string compares by. -/
def bytesKey : Cell → List UInt8
  | bytes bs => bs
  | _ => []

/-- A total preorder of all cells that extends the order within each ordered kind. -/
def totalOrder (collation : Collation) : Cell → Cell → Ordering :=
  compareLex (compareOn boolKey)
    (compareLex (compareOn intKey)
      (compareLex (fun a b => Text.order (a.textKey collation) (b.textKey collation))
        (fun a b => orderBytes a.bytesKey b.bytesKey)))

/-- A comparison of keys is total and transitive when the keys have such an order. -/
theorem transCmp_onKey {α β : Type} (key : α → β) (cmp : β → β → Ordering) [TransCmp cmp] :
    TransCmp fun a b => cmp (key a) (key b) where
  eq_swap := OrientedCmp.eq_swap
  isLE_trans := TransCmp.isLE_trans

instance totalOrder_transCmp (collation : Collation) : TransCmp (totalOrder collation) := by
  have htext := transCmp_onKey (textKey collation) Text.order
  have hbytes := transCmp_onKey bytesKey orderBytes
  unfold totalOrder
  infer_instance

/-- Cells of one ordered kind compare as the total preorder says. -/
theorem order_eq_totalOrder (collation : Collation) {kind : CellKind} (hkind : kind.isOrdered)
    {a b : Cell} (ha : a.kind = kind) (hb : b.kind = kind) :
    order collation a b = .ok (totalOrder collation a b) := by
  have htext : ∀ s, Text.order s s = .eq := fun s => ReflCmp.compare_self
  have hbytes : orderBytes [] [] = .eq := rfl
  subst ha
  cases a <;> cases b <;> simp [kind, CellKind.isOrdered] at hkind hb <;>
    simp [order, totalOrder, compareLex, compareOn, boolKey, intKey, textKey, bytesKey, htext,
      hbytes]

end Cell

/-! ## Criteria -/

/-- Order of two cells under a criterion, with the total preorder in place of `Cell.order`. -/
def OrderItem.totalOrder (item : OrderItem) (collation : Collation) (a b : Cell) : Ordering :=
  match a.isNull, b.isNull with
  | true, true => .eq
  | true, false => item.nulls.order
  | false, true => item.nulls.order.swap
  | false, false => item.direction.orient (Cell.totalOrder collation a b)

/-- The other way round a comparison is reversed in either direction. -/
theorem Direction.orient_swap (d : Direction) (o : Ordering) :
    d.orient o.swap = (d.orient o).swap := by
  cases d <;> rfl

/-- The order in a direction is that of the cells, taken from left to right or the other way. -/
theorem Direction.isLE_orient (d : Direction) (collation : Collation) (a b : Cell) :
    (d.orient (Cell.totalOrder collation a b)).isLE =
      match d with
      | .ascending => (Cell.totalOrder collation a b).isLE
      | .descending => (Cell.totalOrder collation b a).isLE := by
  cases d with
  | ascending => rfl
  | descending =>
      have hswap : Cell.totalOrder collation b a = (Cell.totalOrder collation a b).swap :=
        OrientedCmp.eq_swap
      rw [hswap]
      rfl

instance OrderItem.totalOrder_transCmp (item : OrderItem) (collation : Collation) :
    TransCmp (item.totalOrder collation) where
  eq_swap := by
    intro a b
    have hcells : Cell.totalOrder collation a b = (Cell.totalOrder collation b a).swap :=
      OrientedCmp.eq_swap
    unfold OrderItem.totalOrder
    cases a.isNull <;> cases b.isNull <;> simp [hcells, Direction.orient_swap]
  isLE_trans := by
    intro a b c hab hbc
    unfold OrderItem.totalOrder at hab hbc ⊢
    -- Only where no cell is null does the order of the cells matter; elsewhere the place of
    -- nulls decides alone.
    cases ha : a.isNull <;> cases hb : b.isNull <;> cases hc : c.isNull <;>
      simp only [ha, hb, hc, Direction.isLE_orient] at hab hbc ⊢
    case false.false.false =>
      cases hd : item.direction <;> simp only [hd] at hab hbc ⊢
      · exact TransCmp.isLE_trans hab hbc
      · exact TransCmp.isLE_trans hbc hab
    all_goals cases hn : item.nulls <;> simp_all [NullPlace.order]

/-- Cells of a sortable column compare under a criterion without fault. -/
theorem OrderItem.order_eq_totalOrder (item : OrderItem) (collation : Collation)
    {kind : CellKind} (hkind : kind.isOrdered) {a b : Cell} (ha : a.isOf kind) (hb : b.isOf kind) :
    item.order collation a b = .ok (item.totalOrder collation a b) := by
  unfold OrderItem.order OrderItem.totalOrder
  cases hna : a.isNull <;> cases hnb : b.isNull <;> try rfl
  have hka : a.kind = kind := by simpa [Cell.isOf, hna] using ha
  have hkb : b.kind = kind := by simpa [Cell.isOf, hnb] using hb
  simp [Cell.order_eq_totalOrder collation hkind hka hkb, Except.map]

/-! ## Rows -/

/-- In every sort column the rows hold nulls and cells of one ordered kind. -/
def Sortable (items : List OrderItem) (rows : List Row) : Prop :=
  ∀ item ∈ items, ∃ kind : CellKind, kind.isOrdered ∧
    ∀ row ∈ rows, ∃ c, row[item.column]? = some c ∧ c.isOf kind

/-- Fewer rows are sortable as well. -/
theorem Sortable.subset {items : List OrderItem} {rows rows' : List Row}
    (h : Sortable items rows) (hsub : ∀ row ∈ rows', row ∈ rows) : Sortable items rows' := by
  intro item hitem
  rcases h item hitem with ⟨kind, hkind, hcells⟩
  exact ⟨kind, hkind, fun row hrow => hcells row (hsub row hrow)⟩

/-- A cell is read at its column. -/
theorem Row.cell_of_getElem? {row : Row} {column : Nat} {c : Cell} (h : row[column]? = some c) :
    row.cell column = c := by
  simp [Row.cell, List.getD, h]

/-- Rows of one length with the same cells are the same. -/
theorem Row.ext_cell {a b : Row} (hlength : a.length = b.length)
    (h : ∀ c < a.length, a.cell c = b.cell c) : a = b := by
  apply List.ext_getElem hlength
  intro c ha hb
  have hcell := h c ha
  rw [Row.cell_of_getElem? (List.getElem?_eq_getElem ha),
    Row.cell_of_getElem? (List.getElem?_eq_getElem hb)] at hcell
  exact hcell

/-- Order of two rows by sort criteria, with the total preorder of cells. -/
def Row.totalOrder (collation : Collation) : List OrderItem → Row → Row → Ordering
  | [] => fun _ _ => .eq
  | item :: items =>
      compareLex (fun a b => item.totalOrder collation (a.cell item.column) (b.cell item.column))
        (totalOrder collation items)

instance Row.totalOrder_transCmp (collation : Collation) (items : List OrderItem) :
    TransCmp (Row.totalOrder collation items) := by
  induction items with
  | nil => exact { eq_swap := rfl, isLE_trans := fun _ _ => rfl }
  | cons item items ih =>
      have hitem := Cell.transCmp_onKey (fun row : Row => row.cell item.column)
        (item.totalOrder collation)
      unfold Row.totalOrder
      infer_instance

/-- Rows with sortable columns compare without fault, as the total preorder says. -/
theorem orderRows_eq_totalOrder (collation : Collation) {items : List OrderItem}
    {left right : Nat → Except Fault Cell} {a b : Row} (h : Sortable items [a, b])
    (hleft : ∀ item ∈ items, left item.column = .ok (a.cell item.column))
    (hright : ∀ item ∈ items, right item.column = .ok (b.cell item.column)) :
    orderRows collation left right items = .ok (Row.totalOrder collation items a b) := by
  induction items with
  | nil => rfl
  | cons item items ih =>
      rcases h item List.mem_cons_self with ⟨kind, hkind, hcells⟩
      rcases hcells a (by simp) with ⟨x, hx, hxk⟩
      rcases hcells b (by simp) with ⟨y, hy, hyk⟩
      have hrest := ih (fun i hi => h i (List.mem_cons_of_mem _ hi))
        (fun i hi => hleft i (List.mem_cons_of_mem _ hi))
        (fun i hi => hright i (List.mem_cons_of_mem _ hi))
      have hitem := item.order_eq_totalOrder collation hkind hxk hyk
      simp only [orderRows, hleft item List.mem_cons_self, hright item List.mem_cons_self,
        Row.cell_of_getElem? hx, Row.cell_of_getElem? hy, Row.totalOrder, compareLex]
      simp only [bind, Except.bind, hitem, hrest]
      cases item.totalOrder collation x y <;> rfl

/-- Whether a row may stand before another under sort criteria. -/
def Row.mayPrecede (collation : Collation) (items : List OrderItem) (a b : Row) : Bool :=
  match Row.order collation items a b with
  | .ok o => o.isLE
  | .error _ => false

/-- On rows with sortable columns, standing in order is the total preorder. -/
theorem mayPrecede_eq_isLE (collation : Collation) {items : List OrderItem} {a b : Row}
    (h : Sortable items [a, b]) :
    Row.mayPrecede collation items a b = (Row.totalOrder collation items a b).isLE := by
  have horder : Row.order collation items a b = .ok (Row.totalOrder collation items a b) :=
    orderRows_eq_totalOrder collation h (fun _ _ => rfl) (fun _ _ => rfl)
  simp [Row.mayPrecede, horder]

/-! ## Places of nulls -/

/-- Where two rows agree up to a criterion, at which exactly one of them is null, the place of
nulls of that criterion says which one it is; its direction plays no part. -/
def NullsPlaced (collation : Collation) (items : List OrderItem) (a b : Row) : Prop :=
  ∀ before item after, items = before ++ item :: after →
    Row.order collation before a b = .ok .eq →
    (a.cell item.column).isNull ≠ (b.cell item.column).isNull →
    ((a.cell item.column).isNull ↔ item.nulls = .first)

/-- Criteria that do not decide leave it to the later ones. -/
theorem orderRows_append_of_eq (collation : Collation) {left right : Nat → Except Fault Cell}
    {before : List OrderItem} (items : List OrderItem)
    (h : orderRows collation left right before = .ok .eq) :
    orderRows collation left right (before ++ items) = orderRows collation left right items := by
  induction before with
  | nil => rfl
  | cons item before ih =>
      simp only [orderRows, List.cons_append] at h ⊢
      cases ha : left item.column with
      | error e => simp [ha, bind, Except.bind] at h
      | ok a =>
          cases hb : right item.column with
          | error e => simp [ha, hb, bind, Except.bind] at h
          | ok b =>
              simp only [ha, hb, bind, Except.bind] at h ⊢
              cases ho : item.order collation a b with
              | error e => simp [ho] at h
              | ok o =>
                  cases o <;> simp only [ho, pure, Except.pure] at h ⊢
                  · cases h
                  · exact ih h
                  · cases h

/-- Rows in order have their nulls where the criteria want them. -/
theorem nullsPlaced_of_mayPrecede {collation : Collation} {items : List OrderItem} {a b : Row}
    (h : Row.mayPrecede collation items a b) : NullsPlaced collation items a b := by
  intro before item after hsplit hequal hnull
  have hfrom : Row.order collation items a b = Row.order collation (item :: after) a b := by
    rw [hsplit]
    exact orderRows_append_of_eq collation _ hequal
  rw [Row.mayPrecede, hfrom] at h
  simp only [Row.order, orderRows, bind, Except.bind] at h
  unfold OrderItem.order at h
  cases ha : (a.cell item.column).isNull <;> cases hb : (b.cell item.column).isNull <;>
    cases hn : item.nulls <;> simp_all [NullPlace.order, Except.pure, pure]

end ShardedSql
