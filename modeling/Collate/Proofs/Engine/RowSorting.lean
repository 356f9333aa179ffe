import Collate.Proofs.Engine.Buffers
import Collate.Proofs.Sorting.RadixSort

/-!
# Sorting the rows with a value

Whichever way the template asks for, an index engine sorts rows by one stable sort: the merge sort
by the row order (`IndexSorter.sortValid?_holding`).  A comparison sort is that sort as long as
every row is there, and a radix sort is asked for only where the one key orders the rows as its
digits do.
-/

namespace Collate

open Input

namespace Template

variable {t : Template} {batches : List (List Column)} {rows : List Address}

/-- The stable sort of rows by the row order. -/
def sortRows (t : Template) (batches : List (List Column)) (rows : List Address) : List Address :=
  rows.mergeSort fun x y => t.rowOrder batches x y != .gt

/-- Rows that are all there are sorted by comparing them. -/
theorem sort?_buffers (hv : t.Valid) (hfit : ∀ columns ∈ batches, t.Fits columns)
    (hrows : ∀ a ∈ rows, HasRow batches a) :
    RowOrder.sort? ⟨t.comparator.slots, t.policy.nullOrder, t.policy.direction⟩
      (t.buffers batches) rows = some (t.sortRows batches rows) := by
  have compare : ∀ x ∈ rows, ∀ y ∈ rows,
      RowOrder.compare? ⟨t.comparator.slots, t.policy.nullOrder, t.policy.direction⟩
        (t.buffers batches) x y = some (t.rowOrder batches x y) :=
    fun x hx y hy => compare?_buffers hv hfit (hrows x hx) (hrows y hy)
  have sorted : (rows.mergeSort fun x y =>
      RowOrder.compare? ⟨t.comparator.slots, t.policy.nullOrder, t.policy.direction⟩
        (t.buffers batches) x y != some .gt) = t.sortRows batches rows :=
    mergeSort_congr fun x hx y hy => by
      rw [compare x hx y hy]
      rfl
  have mem : ∀ a ∈ t.sortRows batches rows, a ∈ rows := fun a ha => List.mem_mergeSort.1 ha
  rw [RowOrder.sort?, sorted]
  refine if_pos (List.all_eq_true.2 ?_)
  rintro ⟨x, y⟩ hxy
  obtain ⟨hx, hy⟩ := List.of_mem_zip hxy
  show (RowOrder.compare? _ (t.buffers batches) x y).isSome
  rw [compare x (mem x hx) y (mem y (List.mem_of_mem_tail hy))]
  rfl

/-- Where a radix sort is asked for, the rows are sorted as their keys are. -/
theorem radixSort?_buffers (hfit : ∀ columns ∈ batches, t.Fits columns)
    {slot : Nat} {f : FieldSlot} (hkeys : t.keys = [slot])
    (hascending : t.policy.direction = .ascending) (hf : t.fields[slot]? = some f)
    (hfixed : f.type.isFixedWidth) (hrows : ∀ a ∈ rows, HasRow batches a)
    (hvalues : ∀ a ∈ rows, (cell batches slot f.type a).isSome) :
    (buffer batches slot f.type).radixSort? rows = some (true, t.sortRows batches rows) := by
  obtain ⟨key, hkey⟩ := Layout.isSome_key? hfixed
  have hsize : ∀ columns ∈ batches, (cells columns slot f.type).size = rowCount columns :=
    fun columns hm => (hfit columns hm).size_cells hf
  let keyOf (a : Address) : Nat := key ((cell batches slot f.type a).getD f.type.layout.zero)
  have items : rows.mapM ((buffer batches slot f.type).key? key) =
      some (rows.map fun a => (keyOf a, a)) :=
    mapM_eq_some_map fun a ha => by
      show ((buffer batches slot f.type).stored? a).map (fun v => (key v, a)) = _
      rw [stored?_buffer hsize (hrows a ha)]
      rfl
  have small : ∀ a ∈ rows, keyOf a < Radix.base ^ f.type.layout.width := fun a _ =>
    Layout.key_lt hkey _
  have ordered : ∀ x ∈ rows, ∀ y ∈ rows,
      decide (keyOf x ≤ keyOf y) = (t.rowOrder batches x y != .gt) := by
    intro x hx y hy
    obtain ⟨v, hx⟩ := Option.isSome_iff_exists.1 (hvalues x hx)
    obtain ⟨w, hy⟩ := Option.isSome_iff_exists.1 (hvalues y hy)
    have order : t.rowOrder batches x y = compare (key v) (key w) := by
      rw [← Layout.order_eq_compare_key hkey, rowOrder, hkeys]
      simp only [List.map_cons, List.map_nil, lexOrder, compareLex, Ordering.then_eq]
      rw [keyOrder, hf]
      simp only [hx, hy, cellOrder, hascending, Direction.apply]
    simp only [keyOf, hx, hy, Option.getD_some, order]
    rw [Bool.eq_iff_iff, decide_eq_true_iff, bne_iff_ne, Nat.compare_ne_gt]
  have sorted : (Radix.sort f.type.layout.width (rows.map fun a => (keyOf a, a))).map Prod.snd =
      t.sortRows batches rows := by
    show Radix.sortByKey f.type.layout.width keyOf rows = _
    rw [Radix.sortByKey_eq_mergeSort small]
    exact mergeSort_congr ordered
  have hkey' : (buffer batches slot f.type).type.layout.key? = some key := hkey
  rw [ColumnBuffer.radixSort?, hkey']
  simp only
  split_ifs with hlen
  · have few : t.sortRows batches rows = rows := by
      rcases rows with _ | ⟨a, _ | ⟨b, rest⟩⟩
      · exact List.mergeSort_nil
      · exact List.mergeSort_singleton a
      · simp at hlen
    rw [few]
  · rw [items]
    exact congrArg (fun sorted => some (true, sorted)) sorted

end Template

end Collate
