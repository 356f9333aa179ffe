import Mathlib
import Collate.Row.RowOrder

/-!
# The orders of values and cells

The values of every layout are totally preordered, and for layouts of fixed width the order is that
of the keys of a radix sort (`Layout.order_eq_compare_key`), which fit into so many bytes
(`Layout.key_lt`).  A null order and a direction make of any order of values one of cells,
`cellOrder`, and several orders make a lexicographic one, `lexOrder`.
-/

namespace Collate

open Std

/-- An order of values is one of whatever has such values. -/
theorem transCmp_comap {α β : Type} (order : α → α → Ordering) [h : TransCmp order] (f : β → α) :
    TransCmp fun x y => order (f x) (f y) where
  eq_swap := h.eq_swap
  isLE_trans := h.isLE_trans

/-! ### Values -/

namespace Layout

theorem orderBytes_eq_compareLex (as bs : List UInt8) :
    orderBytes as bs = List.compareLex (compareOn UInt8.toNat) as bs := by
  induction as generalizing bs with
  | nil =>
    cases bs with
    | nil => rfl
    | cons b bs => rfl
  | cons a as ih =>
    cases bs with
    | nil => rfl
    | cons b bs =>
      rw [orderBytes, ih, List.compareLex_cons_cons]
      rfl

instance : TransCmp orderBytes := by
  have h : orderBytes = List.compareLex (compareOn UInt8.toNat) := by
    funext as bs
    exact orderBytes_eq_compareLex as bs
  rw [h]
  infer_instance

instance instTransCmpOrder : (l : Layout) → TransCmp l.order
  | flag => inferInstanceAs (TransCmp (compareOn Bool.toNat))
  | number f => inferInstanceAs (TransCmp (compareOn fun w : f.Word => (f.sortKey w).toNat))
  | text =>
    transCmp_comap orderBytes Text.bytes
  | bytes => inferInstanceAs (TransCmp orderBytes)

theorem order_eq_compare_key {l : Layout} {key : l.Value → Nat} (h : l.key? = some key)
    (v w : l.Value) : l.order v w = compare (key v) (key w) := by
  cases l with
  | flag => cases h; rfl
  | number f => cases h; rfl
  | text => simp [key?] at h
  | bytes => simp [key?] at h

theorem key_lt {l : Layout} {key : l.Value → Nat} (h : l.key? = some key) (v : l.Value) :
    key v < 256 ^ l.width := by
  cases l with
  | flag =>
    cases h
    exact Nat.lt_of_lt_of_le (Bool.toNat_lt v) (by decide)
  | number f =>
    cases h
    have bytes : 2 ^ f.bits = 256 ^ f.width := by
      rw [NumberFormat.bits, Nat.pow_mul]
    exact bytes ▸ (f.sortKey v).isLt
  | text => simp [key?] at h
  | bytes => simp [key?] at h

theorem isSome_key? {t : ColumnType} (h : t.isFixedWidth) : ∃ key, t.layout.key? = some key := by
  unfold ColumnType.isFixedWidth at h
  cases hl : t.layout with
  | flag => exact ⟨_, rfl⟩
  | number f => exact ⟨_, rfl⟩
  | text => simp [hl, native?] at h
  | bytes => simp [hl, native?] at h

end Layout

/-! ### Cells -/

variable {α : Type}

/-- The order of cells: nulls go where the null order puts them, and values follow the direction. -/
def cellOrder (nullOrder : NullOrder) (direction : Direction) (order : α → α → Ordering) :
    Option α → Option α → Ordering
  | none, none => .eq
  | none, some _ => nullOrder.nullAgainstValue
  | some _, none => nullOrder.nullAgainstValue.swap
  | some v, some w => direction.apply (order v w)

variable {nullOrder : NullOrder} {direction : Direction} {order : α → α → Ordering}

instance instTransCmpApply (direction : Direction) (order : α → α → Ordering) [TransCmp order] :
    TransCmp fun v w => direction.apply (order v w) :=
  match direction with
  | .ascending => inferInstanceAs (TransCmp order)
  | .descending =>
    { eq_swap := by
        intro v w
        show (order v w).swap = ((order w v).swap).swap
        rw [Ordering.swap_swap, ← OrientedCmp.eq_swap]
      isLE_trans := by
        intro u v w huv hvw
        have swapped : ∀ a b, (order a b).swap = order b a := fun _ _ => OrientedCmp.eq_swap.symm
        simp only [Direction.apply, swapped] at huv hvw ⊢
        exact TransCmp.isLE_trans hvw huv }

instance [TransCmp order] : TransCmp (cellOrder nullOrder direction order) where
  eq_swap {x y} := by
    cases x with
    | none => cases y <;> simp [cellOrder]
    | some v =>
      cases y with
      | none => rfl
      | some w => exact (instTransCmpApply direction order).eq_swap
  isLE_trans {x y z} hxy hyz := by
    cases x with
    | none =>
      cases y <;> cases z <;> cases nullOrder <;> simp_all [cellOrder, NullOrder.nullAgainstValue]
    | some u =>
      cases y with
      | none => cases z <;> cases nullOrder <;> simp_all [cellOrder, NullOrder.nullAgainstValue]
      | some v =>
        cases z with
        | none => exact hyz
        | some w =>
          exact (instTransCmpApply direction order).isLE_trans hxy hyz

theorem cellOrder_eq_iff {x y : Option α} : cellOrder nullOrder direction order x y = .eq ↔
    x = none ∧ y = none ∨ ∃ v w, x = some v ∧ y = some w ∧ order v w = .eq := by
  cases x with
  | none => cases y <;> cases nullOrder <;> simp [cellOrder, NullOrder.nullAgainstValue]
  | some v =>
    cases y with
    | none => cases nullOrder <;> simp [cellOrder, NullOrder.nullAgainstValue]
    | some w => cases direction <;> simp [cellOrder, Direction.apply, Ordering.swap_eq_eq]

/-! ### Several orders -/

/-- The lexicographic order by several orders. -/
def lexOrder : List (α → α → Ordering) → α → α → Ordering
  | [] => fun _ _ => .eq
  | order :: orders => compareLex order (lexOrder orders)

theorem transCmp_lexOrder {orders : List (α → α → Ordering)}
    (h : ∀ order ∈ orders, TransCmp order) : TransCmp (lexOrder orders) := by
  induction orders with
  | nil =>
    exact
      { eq_swap := rfl
        isLE_trans := fun _ _ => rfl }
  | cons order orders ih =>
    rw [List.forall_mem_cons] at h
    have := h.1
    have := ih h.2
    exact inferInstanceAs (TransCmp (compareLex order (lexOrder orders)))

/-- Items tie in a lexicographic order if they tie in each of the orders. -/
theorem lexOrder_eq_iff {orders : List (α → α → Ordering)} {x y : α} :
    lexOrder orders x y = .eq ↔ ∀ order ∈ orders, order x y = .eq := by
  induction orders with
  | nil => simp [lexOrder]
  | cons order orders ih =>
    rw [List.forall_mem_cons, ← ih, lexOrder, compareLex, Ordering.then_eq_eq]

/-- The first of the orders in which items do not tie decides. -/
theorem lexOrder_append_cons {front back : List (α → α → Ordering)} {x y : α}
    (hfront : ∀ order ∈ front, order x y = .eq) (h : order x y ≠ .eq) :
    lexOrder (front ++ order :: back) x y = order x y := by
  induction front with
  | nil =>
    rw [List.nil_append, lexOrder, compareLex]
    cases hxy : order x y with
    | eq => exact absurd hxy h
    | lt => rfl
    | gt => rfl
  | cons first front ih =>
    rw [List.forall_mem_cons] at hfront
    rw [List.cons_append, lexOrder, compareLex, hfront.1, ih hfront.2]
    rfl

/-! ### Sorting by an order -/

section Sorting

variable [TransCmp order]

theorem ne_gt_trans (a b c : α) (hab : order a b != .gt) (hbc : order b c != .gt) :
    order a c != .gt := by
  have le : ∀ {x y : α}, (order x y != .gt) = (order x y).isLE := by
    intro x y
    cases order x y <;> rfl
  rw [le] at hab hbc ⊢
  exact TransCmp.isLE_trans hab hbc

theorem ne_gt_total (order : α → α → Ordering) [h : TransCmp order] (a b : α) :
    (order a b != .gt) || (order b a != .gt) := by
  rw [h.eq_swap (a := b)]
  cases order a b <;> rfl

end Sorting

end Collate
