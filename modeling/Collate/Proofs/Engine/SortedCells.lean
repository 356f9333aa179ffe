import Collate.Proofs.Engine.Placement
import Collate.Proofs.Row.ValueOrder

/-!
# The cells of one sorted column

What sorting one column by itself makes of its cells, whichever engine does it: `sortedCells` has
the nulls on their side and the values by a stable sort.  A run of sorted values with a range of
nulls shows its cells segment by segment, and what it shows is a window of all of them
(`SortedRun.emit_eq_extract`).
-/

namespace Collate

variable {α β : Type}

/-- The cells of a column that is sorted by itself. -/
def sortedCells (o : NullOrder) (direction : Direction) (order : α → α → Ordering)
    (cells : List (Option α)) : List (Option α) :=
  o.arrange (cells.filter Option.isNone)
    ((cells.reduceOption.mergeSort fun v w => direction.apply (order v w) != .gt).map some)

theorem filter_isNone_eq_replicate (cells : List (Option α)) :
    cells.filter Option.isNone = List.replicate (cells.countP Option.isNone) none := by
  refine List.eq_replicate_iff.2 ⟨List.countP_eq_length_filter.symm, fun cell h => ?_⟩
  simpa using (List.mem_filter.1 h).2

theorem filter_isSome_eq_map (cells : List (Option α)) :
    cells.filter (fun cell => !cell.isNone) = cells.reduceOption.map some := by
  induction cells with
  | nil => rfl
  | cons cell cells ih =>
    cases cell with
    | none => simpa using ih
    | some a => simpa using ih

theorem length_sortedCells (o : NullOrder) (direction : Direction) (order : α → α → Ordering)
    (cells : List (Option α)) : (sortedCells o direction order cells).length = cells.length := by
  rw [sortedCells, NullOrder.length_arrange, List.length_map, List.length_mergeSort, Nat.add_comm]
  exact List.length_eq_reduceOption_length_add_filter_none.symm

/-! ### Runs of sorted values -/

namespace SortedRun

variable {f : NumberFormat}

/-- All cells of a run. -/
def cells (run : SortedRun f) : Array (Option f.Word) :=
  run.values.mapIdx fun i w =>
    if run.nullRange.start ≤ i ∧ i < run.nullRange.stop then none else some w

theorem getElem?_cells_of_null {run : SortedRun f} {i : Nat} (hi : i < run.values.size)
    (h : run.nullRange.start ≤ i ∧ i < run.nullRange.stop) : run.cells[i]? = some none := by
  rw [cells, Array.getElem?_mapIdx, Array.getElem?_eq_getElem hi, Option.map_some, if_pos h]

theorem getElem?_cells_of_value {run : SortedRun f} {i : Nat}
    (h : ¬(run.nullRange.start ≤ i ∧ i < run.nullRange.stop)) :
    run.cells[i]? = run.values[i]?.map some := by
  rw [cells, Array.getElem?_mapIdx]
  simp only [if_neg h]

theorem size_cells (run : SortedRun f) : run.cells.size = run.values.size := Array.size_mapIdx

/-- A segment of nulls. -/
theorem replicate_eq_extract_cells {run : SortedRun f} {pos next : Nat}
    (h : run.nullRange.start ≤ pos ∧ next ≤ run.nullRange.stop) (hnext : next ≤ run.values.size) :
    Array.replicate (next - pos) none = run.cells.extract pos next := by
  refine Array.ext_getElem? fun i => ?_
  rw [Array.getElem?_extract, Array.getElem?_replicate, size_cells, Nat.min_eq_left hnext]
  by_cases hi : i < next - pos
  · rw [if_pos hi, if_pos hi, getElem?_cells_of_null (by omega) (by omega)]
  · rw [if_neg hi, if_neg hi]

/-- A segment of values. -/
theorem map_extract_eq_extract_cells {run : SortedRun f} {pos next : Nat}
    (h : next ≤ run.nullRange.start ∨ run.nullRange.stop ≤ pos) :
    (run.values.extract pos next).map some = run.cells.extract pos next := by
  refine Array.ext_getElem? fun i => ?_
  rw [Array.getElem?_map, Array.getElem?_extract, Array.getElem?_extract, size_cells]
  by_cases hi : i < min next run.values.size - pos
  · rw [if_pos hi, if_pos hi, getElem?_cells_of_value (by omega)]
  · rw [if_neg hi, if_neg hi]
    rfl

theorem extract_cells_append (run : SortedRun f) {pos next stop : Nat} (hpos : pos ≤ next)
    (hnext : next ≤ stop) :
    run.cells.extract pos next ++ run.cells.extract next stop = run.cells.extract pos stop := by
  rw [Array.extract_append_extract, Nat.min_eq_left hpos, Nat.max_eq_right hnext]

/-- What a run shows of some positions is a window of all its cells. -/
theorem emit_eq_extract (run : SortedRun f) (pos stop : Nat) (h : stop ≤ run.values.size) :
    run.emit pos stop = run.cells.extract pos stop := by
  fun_induction run.emit pos stop with
  | case1 pos hlt hnull next ih =>
    rw [ih, replicate_eq_extract_cells ⟨hnull.1, Nat.min_le_right ..⟩ (by omega),
      run.extract_cells_append (by omega) (by omega)]
  | case2 pos hlt hvalue next ih =>
    have hnext : pos ≤ next ∧ next ≤ stop ∧
        (next ≤ run.nullRange.start ∨ run.nullRange.stop ≤ pos) := by
      simp only [next]
      split_ifs <;> omega
    rw [ih, map_extract_eq_extract_cells hnext.2.2, run.extract_cells_append hnext.1 hnext.2.1]
  | case3 pos hlt =>
    rw [Array.extract_empty_of_stop_le_start (by omega)]

/-- A run whose values outside its nulls are known shows them with the nulls on their side. -/
theorem cells_eq_arrange {run : SortedRun f} {o : NullOrder} {nulls : Nat} {sorted : List f.Word}
    (hsize : run.values.size = nulls + sorted.length)
    (hnull : run.nullRange = (Placement.ofNullOrder o).nullRange run.values.size nulls)
    (hvalues : (run.values.extract
      ((Placement.ofNullOrder o).validRange run.values.size nulls).start
      ((Placement.ofNullOrder o).validRange run.values.size nulls).stop).toList = sorted) :
    run.cells = (o.arrange (List.replicate nulls none) (sorted.map some)).toArray := by
  have value : ∀ i, i < sorted.length → run.values[((Placement.ofNullOrder o).validRange
      run.values.size nulls).start + i]? = sorted[i]? := by
    intro i hi
    rw [← hvalues, Array.getElem?_toList, Array.getElem?_extract, if_pos]
    cases o <;> simp only [Placement.ofNullOrder, Placement.validRange, Region.offset] <;> omega
  refine Array.ext_getElem? fun i => ?_
  cases o with
  | first =>
    simp only [Placement.ofNullOrder, Placement.validRange, Placement.nullRange, Region.offset,
      Nat.zero_add] at value hnull
    have whole : (List.replicate nulls none ++ sorted.map some).toArray[i]? =
      (List.replicate nulls none ++ sorted.map some)[i]? := List.getElem?_toArray
    rw [NullOrder.arrange, whole]
    rcases Nat.lt_or_ge i nulls with hi | hi
    · rw [getElem?_cells_of_null (by omega) (by rw [hnull]; simp only; omega),
        List.getElem?_append_left (by simpa using hi), List.getElem?_replicate, if_pos hi]
    · rw [getElem?_cells_of_value (by rw [hnull]; simp only; omega),
        List.getElem?_append_right (by simpa using hi), List.length_replicate, List.getElem?_map]
      rcases Nat.lt_or_ge (i - nulls) sorted.length with hlt | hge
      · rw [← value _ hlt, Nat.add_sub_cancel' hi]
      · rw [Array.getElem?_eq_none (by omega), List.getElem?_eq_none hge]
  | last =>
    simp only [Placement.ofNullOrder, Placement.validRange, Placement.nullRange, Region.offset,
      Nat.zero_add] at value hnull
    have whole : (sorted.map some ++ List.replicate nulls none).toArray[i]? =
      (sorted.map some ++ List.replicate nulls none)[i]? := List.getElem?_toArray
    rw [NullOrder.arrange, whole]
    rcases Nat.lt_or_ge i sorted.length with hi | hi
    · rw [getElem?_cells_of_value (by rw [hnull]; simp only; omega),
        List.getElem?_append_left (by simpa using hi), List.getElem?_map, value i hi]
    · rw [List.getElem?_append_right (by simpa using hi), List.length_map, List.getElem?_replicate]
      split_ifs with hlt
      · rw [getElem?_cells_of_null (by omega) (by rw [hnull]; simp only; omega)]
      · rw [Array.getElem?_eq_none (by rw [size_cells]; omega)]

end SortedRun

end Collate
