import Collate.Proofs.Engine.Bounds
import Collate.Proofs.Engine.SortedCells

/-!
# Windows of a sorted run

A window of a sorted run is shown by a loop, a segment of nulls or of values at every turn.  A turn
moves on, and only past an end of the null range or to the end of the window
(`SortedRun.turn?_eq`), so the loop comes to its end, keeps within the values
(`SortedRun.emit?_eq`) and is through after three turns (`SortedRun.emitWithin?_eq`).  What it shows
are the cells of the run, in whatever windows they are asked for, and nothing of what is left over
in the null range (`SortedRun.windows_show_cells`).
-/

namespace Collate.SortedRun

variable {f : NumberFormat} {run : SortedRun f} {pos stop : Nat}

/-! ### The loop, turn by turn -/

/-- The cells of the next segment of a window and where it ends, if it keeps within the values. -/
def turn? (run : SortedRun f) (pos stop : Nat) : Option (Array (Option f.Word) × Nat) :=
  if run.nullRange.start ≤ pos ∧ pos < run.nullRange.stop then
    let next := min stop run.nullRange.stop
    (sub? next pos).map fun count => (Array.replicate count none, next)
  else
    let next := if pos < run.nullRange.start then min stop run.nullRange.start else stop
    (slice? run.values pos next).map fun values => (values.map some, next)

/-- What the loop shows if it is through after so many turns. -/
def emitWithin? (run : SortedRun f) : (turns pos stop : Nat) → Option (Array (Option f.Word))
  | 0, pos, stop => if pos < stop then none else some #[]
  | turns + 1, pos, stop =>
    if pos < stop then do
      let (segment, next) ← run.turn? pos stop
      let rest ← run.emitWithin? turns next stop
      return segment ++ rest
    else some #[]

/-- The cells from a position up to another, with no more turns than positions. -/
def emit? (run : SortedRun f) (pos stop : Nat) : Option (Array (Option f.Word)) :=
  run.emitWithin? (stop - pos) pos stop

/-- How many ends of the null range lie behind a position. -/
def endsBehind (run : SortedRun f) (pos : Nat) : Nat :=
  (if pos < run.nullRange.start then 1 else 0) + if pos < run.nullRange.stop then 1 else 0

theorem endsBehind_lt_three (run : SortedRun f) (pos : Nat) : run.endsBehind pos < 3 := by
  unfold endsBehind
  split_ifs <;> omega

/-- A turn shows cells of the run and moves on, to the end of the window or past an end of the null
range. -/
theorem turn?_eq (run : SortedRun f) (hpos : pos < stop) (hstop : stop ≤ run.values.size) :
    ∃ next, run.turn? pos stop = some (run.cells.extract pos next, next) ∧
      pos < next ∧ next ≤ stop ∧ (next = stop ∨ run.endsBehind next < run.endsBehind pos) := by
  unfold turn? endsBehind
  by_cases hnull : run.nullRange.start ≤ pos ∧ pos < run.nullRange.stop
  · have hnext : pos < min stop run.nullRange.stop := by omega
    refine ⟨min stop run.nullRange.stop, ?_, hnext, Nat.min_le_left .., ?_⟩
    · simp only [if_pos hnull, sub?_eq hnext.le, Option.map_some]
      rw [replicate_eq_extract_cells ⟨hnull.1, Nat.min_le_right ..⟩ (by omega)]
    · split_ifs <;> omega
  · rw [if_neg hnull]
    by_cases hbefore : pos < run.nullRange.start
    · have hnext : pos < min stop run.nullRange.start := by omega
      refine ⟨min stop run.nullRange.start, ?_, hnext, Nat.min_le_left .., ?_⟩
      · have hvalues : min stop run.nullRange.start ≤ run.values.size := by omega
        simp only [if_pos hbefore, slice?_eq hnext.le hvalues, Option.map_some]
        rw [map_extract_eq_extract_cells (.inl (Nat.min_le_right ..))]
      · split_ifs <;> omega
    · refine ⟨stop, ?_, hpos, le_rfl, .inl rfl⟩
      simp only [if_neg hbefore, slice?_eq hpos.le hstop, Option.map_some]
      rw [map_extract_eq_extract_cells (.inr (by omega))]

theorem emitWithin?_of_le (turns : Nat) (h : stop ≤ pos) :
    run.emitWithin? turns pos stop = some #[] := by
  cases turns <;> exact if_neg (Nat.not_lt.2 h)

/-- The loop is through when it has as many turns as there are ends of the null range behind its
first position, and one more, or as many as there are positions. -/
theorem emitWithin?_eq {turns : Nat} (hstop : stop ≤ run.values.size)
    (hturns : run.endsBehind pos < turns ∨ stop - pos ≤ turns) :
    run.emitWithin? turns pos stop = some (run.emit pos stop) := by
  rw [emit_eq_extract run pos stop hstop]
  rcases Nat.lt_or_ge pos stop with hpos | hpos
  · induction turns generalizing pos with
    | zero => omega
    | succ turns ih =>
      obtain ⟨next, hturn, hlt, hle, hprogress⟩ := run.turn?_eq hpos hstop
      have hrest : run.emitWithin? turns next stop = some (run.cells.extract next stop) := by
        rcases hle.eq_or_lt with rfl | hnext
        · rw [emitWithin?_of_le turns le_rfl, Array.extract_empty_of_stop_le_start le_rfl]
        · exact ih (by omega) hnext
      rw [← run.extract_cells_append hlt.le hle]
      simp only [emitWithin?, if_pos hpos, hturn, hrest, Option.bind_eq_bind, Option.bind_some]
      rfl
  · rw [emitWithin?_of_le _ hpos, Array.extract_empty_of_stop_le_start hpos]

/-- What is shown of the positions of a run keeps within its values. -/
theorem emit?_eq (run : SortedRun f) (pos stop : Nat) (h : stop ≤ run.values.size) :
    run.emit? pos stop = some (run.emit pos stop) :=
  emitWithin?_eq h (.inr le_rfl)

/-! ### The cells of a window -/

/-- A cell of a run is null where its nulls are, and else the value that stands there. -/
theorem getElem?_cells {i : Nat} (hi : i < run.values.size) :
    run.cells[i]? = if run.nullRange.start ≤ i ∧ i < run.nullRange.stop then some none
      else run.values[i]?.map some := by
  split_ifs with h
  · exact getElem?_cells_of_null hi h
  · exact getElem?_cells_of_value h

theorem size_emit (hstop : stop ≤ run.values.size) : (run.emit pos stop).size = stop - pos := by
  rw [emit_eq_extract run pos stop hstop, Array.size_extract, size_cells, Nat.min_eq_left hstop]

theorem getElem?_emit (hstop : stop ≤ run.values.size) {i : Nat} (hi : i < stop - pos) :
    (run.emit pos stop)[i]? = run.cells[pos + i]? := by
  rw [emit_eq_extract run pos stop hstop, Array.getElem?_extract, size_cells,
    Nat.min_eq_left hstop, if_pos hi]

/-- What is left over in the null range does not matter. -/
theorem cells_congr {other : SortedRun f} (hnulls : other.nullRange = run.nullRange)
    (hsize : other.values.size = run.values.size)
    (hvalues : ∀ i, ¬(run.nullRange.start ≤ i ∧ i < run.nullRange.stop) →
      other.values[i]? = run.values[i]?) : other.cells = run.cells := by
  refine Array.ext_getElem? fun i => ?_
  rcases Nat.lt_or_ge i run.values.size with hi | hi
  · rw [getElem?_cells hi, getElem?_cells (hsize ▸ hi), hnulls]
    split_ifs with h
    · rfl
    · rw [hvalues i h]
  · rw [Array.getElem?_eq_none (by rwa [size_cells, hsize]),
      Array.getElem?_eq_none (by rwa [size_cells])]

/-! ### Windows one after the other -/

/-- The windows from a position to a first cut, from there to the next, and so on. -/
def windows (start : Nat) (cuts : List Nat) : List Range :=
  List.zipWith Range.mk (start :: cuts) cuts

theorem flatMap_emit_windows {start : Nat} {cuts : List Nat}
    (hcuts : (start :: cuts).Pairwise (· ≤ ·)) (hstop : ∀ cut ∈ cuts, cut ≤ run.values.size) :
    ((windows start cuts).flatMap fun window => (run.emit window.start window.stop).toList) =
      (run.emit start (cuts.getLastD start)).toList := by
  induction cuts generalizing start with
  | nil =>
    have hnone : run.emit start start = #[] := by rw [emit, if_neg (Nat.lt_irrefl start)]
    rw [List.getLastD_nil, hnone]
    rfl
  | cons cut cuts ih =>
    obtain ⟨hstart, hcuts⟩ := List.pairwise_cons.1 hcuts
    have hlast : cuts.getLastD cut ∈ cut :: cuts := List.getLastD_mem_cons
    have hle : cut ≤ cuts.getLastD cut := by
      rcases List.mem_cons.1 hlast with heq | hmem
      · exact heq.ge
      · exact (List.pairwise_cons.1 hcuts).1 _ hmem
    have hfirst : windows start (cut :: cuts) = ⟨start, cut⟩ :: windows cut cuts := rfl
    rw [hfirst, List.flatMap_cons, ih hcuts fun c hc => hstop c (List.mem_cons_of_mem _ hc),
      List.getLastD_cons, ← Array.toList_append,
      emit_eq_extract run start cut (hstop cut List.mem_cons_self),
      emit_eq_extract run cut _ (hstop _ hlast), emit_eq_extract run start _ (hstop _ hlast),
      run.extract_cells_append (hstart cut List.mem_cons_self) hle]

/-- In every window of a run the loop is through after three turns, within the values, and shows one
cell for every position: null where the run has its nulls, and else the value that stands there.  So
windows one after the other show what one window shows, and a run with other values left over in its
null range shows the same. -/
theorem windows_show_cells (run : SortedRun f) :
    (∀ start stop, stop ≤ run.values.size →
      run.emitWithin? 3 start stop = some (run.emit start stop) ∧
        (run.emit start stop).size = stop - start ∧
        ∀ i < stop - start, (run.emit start stop)[i]? =
          if run.nullRange.start ≤ start + i ∧ start + i < run.nullRange.stop then some none
          else run.values[start + i]?.map some) ∧
      (∀ start cuts, (start :: cuts).Pairwise (· ≤ ·) → (∀ cut ∈ cuts, cut ≤ run.values.size) →
        ((windows start cuts).flatMap fun window => (run.emit window.start window.stop).toList) =
          (run.emit start (cuts.getLastD start)).toList) ∧
      ∀ other : SortedRun f, other.nullRange = run.nullRange →
        other.values.size = run.values.size →
        (∀ i, ¬(run.nullRange.start ≤ i ∧ i < run.nullRange.stop) →
          other.values[i]? = run.values[i]?) →
        ∀ start stop, stop ≤ run.values.size → other.emit start stop = run.emit start stop := by
  refine ⟨fun start stop hstop => ?_, fun start cuts => flatMap_emit_windows,
    fun other hnulls hsize hvalues start stop hstop => ?_⟩
  · refine ⟨emitWithin?_eq hstop (.inl (run.endsBehind_lt_three start)), size_emit hstop,
      fun i hi => ?_⟩
    rw [getElem?_emit hstop hi, getElem?_cells (by omega)]
  · rw [emit_eq_extract run start stop hstop, emit_eq_extract other start stop (hsize ▸ hstop),
      cells_congr hnulls hsize hvalues]

/-- Two nulls before two values. -/
def nullsFirstRun : SortedRun .int8 := ⟨#[5, 0, 5, 7], ⟨0, 2⟩⟩

/-- A window that begins among the nulls, all cells in three windows, and other values left over. -/
theorem nullsFirstRun_windows :
    3 ≤ nullsFirstRun.values.size ∧
      nullsFirstRun.emitWithin? 3 1 3 = some (nullsFirstRun.emit 1 3) ∧
      (nullsFirstRun.emit 1 3)[0]? = some none ∧ (nullsFirstRun.emit 1 3)[1]? = some (some 5) ∧
      [0, 1, 3, 4].Pairwise (· ≤ ·) ∧ (∀ cut ∈ [1, 3, 4], cut ≤ nullsFirstRun.values.size) ∧
      ((windows 0 [1, 3, 4]).flatMap fun window =>
        (nullsFirstRun.emit window.start window.stop).toList) = (nullsFirstRun.emit 0 4).toList ∧
      (∀ i, ¬(0 ≤ i ∧ i < 2) → #[1, 9, 5, 7][i]? = nullsFirstRun.values[i]?) ∧
      emit ⟨#[1, 9, 5, 7], ⟨0, 2⟩⟩ 0 4 = nullsFirstRun.emit 0 4 := by
  obtain ⟨hwindow, hwindows, hother⟩ := windows_show_cells nullsFirstRun
  obtain ⟨hturns, -, hcells⟩ := hwindow 1 3 (by decide)
  have hcuts : [0, 1, 3, 4].Pairwise (· ≤ ·) := by decide
  have hstop : ∀ cut ∈ [1, 3, 4], cut ≤ nullsFirstRun.values.size := by decide
  have hvalues : ∀ i, ¬(0 ≤ i ∧ i < 2) →
      (#[1, 9, 5, 7] : Array NumberFormat.int8.Word)[i]? = nullsFirstRun.values[i]? := by
    intro i hi
    match i with
    | 0 | 1 => omega
    | 2 | 3 => rfl
    | i + 4 => rfl
  exact ⟨by decide, hturns, hcells 0 (by decide), hcells 1 (by decide), hcuts, hstop,
    hwindows 0 [1, 3, 4] hcuts hstop, hvalues,
    hother ⟨#[1, 9, 5, 7], ⟨0, 2⟩⟩ rfl rfl hvalues 0 4 (by decide)⟩

end Collate.SortedRun
