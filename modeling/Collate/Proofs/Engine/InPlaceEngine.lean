import Collate.Proofs.Engine.Compaction
import Collate.Proofs.Engine.Feeding
import Collate.Proofs.Engine.Gathering
import Collate.Proofs.Engine.SortedCells
import Collate.Proofs.Sorting.RadixSort
import Collate.Proofs.Template.Valid

/-!
# The in-place engine

After any run of accepted batches an in-place engine holds exactly the cells of their only column
(`buffers_holding`), and it sorts them into `sortedCells` (`finalize_holding`, `columns?_values`).
-/

namespace Collate

open Input

/-! ### Words -/

namespace Layout

variable {l : Layout} {f : NumberFormat}

theorem size_words (h : l = .number f) (cells : Array (Option l.Value)) :
    (words h cells).size = cells.size := by
  subst h
  rfl

theorem countP_words (h : l = .number f) (cells : Array (Option l.Value)) :
    (words h cells).countP Option.isNone = cells.countP Option.isNone := by
  subst h
  rfl

/-- Words are sorted as the values are that they stand for. -/
theorem ofWords_sortedCells (h : l = .number f) (o : NullOrder) (direction : Direction)
    (batches : List (Array (Option l.Value))) (start stop : Nat) :
    ofWords h ((sortedCells o direction f.order
      (batches.flatMap fun cells => (words h cells).toList)).toArray.extract start stop) =
      (sortedCells o direction l.order (batches.flatMap Array.toList)).toArray.extract
        start stop := by
  subst h
  rfl

end Layout

namespace InPlaceSorter

variable {kernel : LoadedKernel} {type : ColumnType} {format : NumberFormat}
  {isNumber : type.layout = .number format} {held : List (List Column)} {columns : List Column}

/-- The engine of a kernel with batches of one column in its buffer. -/
def holding (kernel : LoadedKernel) (isNumber : type.layout = .number format)
    (held : List (List Column)) : InPlaceSorter where
  kernel := kernel
  nullOrder := kernel.template.policy.nullOrder
  direction := kernel.template.policy.direction
  type := type
  format := format
  isNumber := isNumber
  phase := .accumulating
    (held.map fun columns => Layout.words isNumber (cells columns 0 type).toArray).toArray
  totalRows := Input.totalRows held
  nullsTotal := (held.map fun columns => nullCount columns 0).sum

theorem fits_self (t : ColumnType) : fits t t := by
  cases t <;> simp [fits]

theorem phase_holding (isNumber : type.layout = .number format) :
    (holding kernel isNumber held).phase = .accumulating (held.map fun columns =>
      Layout.words isNumber (cells columns 0 type).toArray).toArray := rfl

theorem bytes_holding (isNumber : type.layout = .number format) :
    (holding kernel isNumber held).totalRows * (holding kernel isNumber held).format.width =
      Input.totalRows held * format.width := rfl

theorem make_eq_holding {f : FieldSlot} (hs : kernel.template.strategy = .inPlace)
    (hfields : kernel.template.fields = [f]) (hlayout : f.type.layout = .number format) :
    make f.type kernel kernel.template.policy.nullOrder kernel.template.policy.direction =
      .ok (holding kernel hlayout []) := by
  unfold make
  simp only [hs, hfields, fits_self, ne_eq, not_true_eq_false, if_false, if_true]
  split
  · next format' hlayout' =>
    obtain rfl : format' = format := by
      rw [hlayout] at hlayout'
      simpa using hlayout'.symm
    rfl
  · next hother => exact absurd hlayout (hother format)

theorem holding_append (kernel : LoadedKernel) (isNumber : type.layout = .number format)
    (held : List (List Column)) (columns : List Column) :
    holding kernel isNumber (held ++ [columns]) = { holding kernel isNumber held with
      phase := .accumulating
        ((held.map fun columns => Layout.words isNumber (cells columns 0 type).toArray).toArray.push
          (Layout.words isNumber (cells columns 0 type).toArray))
      totalRows := (holding kernel isNumber held).totalRows + rowCount columns
      nullsTotal := (holding kernel isNumber held).nullsTotal + nullCount columns 0 } := by
  simp [holding, Input.totalRows]

/-- A batch that fits is held, unless it has no rows. -/
theorem evaluate_holding {f : FieldSlot} (hf : kernel.template.fields[0]? = some f)
    (htype : f.type = type) (hfit : kernel.template.Fits columns) :
    (holding kernel isNumber held).evaluate columns =
      (.ok (), holding kernel isNumber (held ++ arrived [columns])) := by
  subst htype
  have hcheck : (holding kernel isNumber held).template.checkColumns columns =
      .ok (rowCount columns) := Template.checkColumns_eq_ok_iff.2 ⟨hfit, rfl⟩
  by_cases hrows : rowCount columns = 0
  · have hnone : arrived [columns] = [] := by simp [arrived, hrows]
    rw [hnone, List.append_nil, evaluate, hcheck, hrows]
    rfl
  · have hone : arrived [columns] = [columns] := by simp [arrived, hrows]
    obtain ⟨c, hc, hctype, -⟩ := hfit.getElem? hf
    obtain ⟨rest, rfl⟩ : ∃ rest, columns = c :: rest := by
      cases columns with
      | nil => simp at hc
      | cons c' rest => exact ⟨rest, by simpa using hc⟩
    have hcells : cells (c :: rest) 0 f.type = c.cellsOf hctype := Column.cellsAs_eq_cellsOf hctype
    obtain ⟨rows, hsucc⟩ := Nat.exists_eq_succ_of_ne_zero hrows
    rw [hone, holding_append, evaluate, hcheck, hsucc, hcells]
    show (if h : c.type = .column f.type then _ else _) = _
    rw [dif_pos hctype]
    rfl

theorem buffers_holding (isNumber : type.layout = .number format) {f : FieldSlot}
    (hf : kernel.template.fields[0]? = some f) (htype : f.type = type) :
    Sorter.Buffers kernel.template (fun _ => True) fun held =>
      .inPlace (holding kernel isNumber held) := by
  intro held columns s
  simp only [implies_true, true_and]
  constructor
  · intro h
    have hfit : kernel.template.Fits columns := by
      cases hcheck : (holding kernel isNumber held).template.checkColumns columns with
      | error e =>
        rw [Sorter.evaluate, evaluate, hcheck] at h
        cases h
      | ok rows => exact (Template.checkColumns_eq_ok_iff.1 hcheck).1
    refine ⟨hfit, ?_⟩
    rw [Sorter.evaluate, evaluate_holding hf htype hfit] at h
    cases h
    rfl
  · rintro ⟨hfit, rfl⟩
    rw [Sorter.evaluate, evaluate_holding hf htype hfit]

/-! ### The values that it sorts -/

/-- The words of the held cells. -/
def heldWords (isNumber : type.layout = .number format) (held : List (List Column)) :
    List (Option format.Word) :=
  held.flatMap fun columns => (Layout.words isNumber (cells columns 0 type).toArray).toList

theorem length_heldWords (h : ∀ columns ∈ held, (cells columns 0 type).size = rowCount columns) :
    (heldWords isNumber held).length = Input.totalRows held := by
  rw [heldWords, List.length_flatMap, Input.totalRows]
  refine congrArg List.sum (List.map_congr_left fun columns hm => ?_)
  rw [Array.length_toList, Layout.size_words]
  exact h columns hm

theorem countP_heldWords
    (h : ∀ columns ∈ held, (cells columns 0 type).nullCount = nullCount columns 0) :
    (heldWords isNumber held).countP Option.isNone =
      (held.map fun columns => nullCount columns 0).sum := by
  rw [heldWords, List.countP_flatMap]
  refine congrArg List.sum (List.map_congr_left fun columns hm => ?_)
  rw [← h columns hm, Function.comp_apply, Array.countP_toList, Layout.countP_words]
  rfl

/-- Values are sorted by the order of values, whichever way the template asks for. -/
theorem sortValid_holding (hv : kernel.template.Valid) (values : List format.Word) :
    (holding kernel isNumber held).sortValid values = values.mergeSort fun v w =>
      kernel.template.policy.direction.apply (format.order v w) != .gt := by
  have htemplate : (holding kernel isNumber held).template = kernel.template := rfl
  unfold sortValid
  rw [htemplate]
  cases hcall : kernel.template.sortCall with
  | comparison => rfl
  | radix slot =>
    obtain ⟨-, hascending, -⟩ := hv.sortCall slot hcall
    have small : ∀ w ∈ values, (format.sortKey w).toNat < Radix.base ^ format.width := fun w _ =>
      Layout.key_lt (l := .number format) rfl w
    rw [hascending]
    refine (Radix.sortByKey_eq_mergeSort small).trans (mergeSort_congr fun v _ w _ => ?_)
    rw [Bool.eq_iff_iff, decide_eq_true_iff, bne_iff_ne]
    exact Nat.compare_ne_gt.symm

/-- Moving the values together and sorting them where they stand makes `sortedCells` of cells. -/
theorem cells_sortRange?_compact (o : NullOrder) (direction : Direction)
    (cells : Array (Option format.Word)) :
    ∃ values, sortRange?
        ((Placement.ofNullOrder o).validRange cells.size (cells.countP Option.isNone))
        (fun run => some (run.mergeSort fun v w => direction.apply (format.order v w) != .gt))
        (Compaction.compact o cells (cells.map (·.getD 0))) = some values ∧
      SortedRun.cells ⟨values, (Placement.ofNullOrder o).nullRange cells.size
        (cells.countP Option.isNone)⟩ =
        (sortedCells o direction format.order cells.toList).toArray := by
  obtain ⟨hcompact, hextract⟩ :=
    Compaction.extract_compact o (Compaction.backs_getD cells (0 : format.Word))
  have hle : cells.countP Option.isNone ≤ cells.size := Array.countP_le_size
  have hsome := Compaction.length_reduceOption cells
  generalize hregion :
    (Placement.ofNullOrder o).validRange cells.size (cells.countP Option.isNone) = region
    at hextract ⊢
  have hbounds : region.start ≤ region.stop ∧ region.stop ≤ cells.size ∧
      region.stop - region.start = cells.toList.reduceOption.length := by
    rw [← hregion]
    exact ⟨Nat.le_add_right .., Placement.stop_validRange_le o hle,
      (Placement.stop_sub_start_validRange ..).trans hsome.symm⟩
  let sort (run : List format.Word) : Option (List format.Word) :=
    some (run.mergeSort fun v w => direction.apply (format.order v w) != .gt)
  obtain ⟨values, hsort, hsize, hvalues⟩ := extract_sortRange? sort
    (Compaction.compact o cells (cells.map (·.getD 0))) hbounds.1
    (hbounds.2.1.trans_eq hcompact.symm) (congrArg sort hextract)
    (by rw [List.length_mergeSort, hbounds.2.2])
  rw [hcompact] at hsize
  refine ⟨values, hsort, ?_⟩
  rw [sortedCells, filter_isNone_eq_replicate, Array.countP_toList]
  refine SortedRun.cells_eq_arrange ?_ (by rw [hsize]) (by rw [hsize, hregion]; exact hvalues)
  rw [hsize, List.length_mergeSort, hsome]
  omega

/-- What an in-place engine makes of the values that it holds, by its template. -/
theorem sortedRun?_eq (isNumber : type.layout = .number format) (hv : kernel.template.Valid)
    (batches : Array (Array (Option format.Word))) :
    (holding kernel isNumber held).sortedRun? batches =
      (sortRange? (kernel.template.placement.validRange (Input.totalRows held)
          (held.map fun columns => nullCount columns 0).sum)
        (fun run => some (run.mergeSort fun v w =>
          kernel.template.policy.direction.apply (format.order v w) != .gt))
        (Compaction.compact kernel.template.policy.nullOrder batches.flatten
          (batches.flatten.map (·.getD 0)))).bind
        fun values => some ⟨values, kernel.template.placement.nullRange (Input.totalRows held)
          (held.map fun columns => nullCount columns 0).sum⟩ := by
  have hvalid : (fun run : List format.Word =>
      (some ((holding kernel isNumber held).sortValid run) : Option (List format.Word))) =
      fun run => some (run.mergeSort fun v w =>
        kernel.template.policy.direction.apply (format.order v w) != .gt) := by
    funext run
    exact congrArg some (sortValid_holding hv run)
  rw [← hvalid]
  rfl

/-- What an in-place engine makes of the cells that it holds is `sortedCells`. -/
theorem sortedRun?_holding (isNumber : type.layout = .number format) (hv : kernel.template.Valid)
    (hsize : ∀ columns ∈ held, (cells columns 0 type).size = rowCount columns)
    (hnulls : ∀ columns ∈ held, (cells columns 0 type).nullCount = nullCount columns 0) :
    ∃ run, (holding kernel isNumber held).sortedRun? (held.map fun columns =>
        Layout.words isNumber (cells columns 0 type).toArray).toArray = some run ∧
      run.cells = (sortedCells kernel.template.policy.nullOrder kernel.template.policy.direction
        format.order (heldWords isNumber held)).toArray := by
  let joined : Array (Option format.Word) := (held.map fun columns =>
    Layout.words isNumber (cells columns 0 type).toArray).toArray.flatten
  have hwords : joined.toList = heldWords isNumber held := by
    rw [Array.toList_flatten, List.toList_toArray, List.map_map, heldWords, List.flatMap]
    rfl
  have hlength : joined.size = Input.totalRows held := by
    rw [← Array.length_toList, hwords, length_heldWords hsize]
  have hcount : joined.countP Option.isNone =
      (held.map fun columns => nullCount columns 0).sum := by
    rw [← Array.countP_toList, hwords, countP_heldWords hnulls]
  obtain ⟨values, hsort, hcells⟩ := cells_sortRange?_compact kernel.template.policy.nullOrder
    kernel.template.policy.direction joined
  rw [hwords] at hcells
  refine ⟨_, ?_, hcells⟩
  rw [hlength, hcount, ← hv.placement] at hsort
  rw [sortedRun?_eq isNumber hv, hsort, hlength, hcount, ← hv.placement]
  rfl

/-! ### What it shows -/

/-- With its bytes reserved an in-place engine sorts what it holds. -/
theorem finalize_of_reserve (isNumber : type.layout = .number format)
    (hv : kernel.template.Valid)
    (hsize : ∀ columns ∈ held, (cells columns 0 type).size = rowCount columns)
    (hnulls : ∀ columns ∈ held, (cells columns 0 type).nullCount = nullCount columns 0)
    {b b' : Budget} {reservation : Nat} (hreserve : b.reserve
      (Input.totalRows held * format.width) "sort_values" = .ok (reservation, b')) :
    ∃ run, (holding kernel isNumber held).finalize b =
        (.ok ⟨.values type format isNumber run, reservation⟩, { holding kernel isNumber held with
          phase := .finalized ⟨.values type format isNumber run, reservation⟩ }, b') ∧
      run.cells = (sortedCells kernel.template.policy.nullOrder kernel.template.policy.direction
        format.order (heldWords isNumber held)).toArray := by
  obtain ⟨run, hrun, hcells⟩ := sortedRun?_holding isNumber hv hsize hnulls
  refine ⟨run, ?_, hcells⟩
  simp only [finalize, phase_holding, bytes_holding, hreserve, hrun]
  rfl

/-- An in-place engine that the budget admits sorts what it holds. -/
theorem finalize_holding (isNumber : type.layout = .number format) (hv : kernel.template.Valid)
    (hsize : ∀ columns ∈ held, (cells columns 0 type).size = rowCount columns)
    (hnulls : ∀ columns ∈ held, (cells columns 0 type).nullCount = nullCount columns 0) {b : Budget}
    (hbudget : b.ledger.used.toNat + Input.totalRows held * format.width ≤
      b.ledger.capacity.toNat) :
    ∃ run reservation b', (holding kernel isNumber held).finalize b =
        (.ok ⟨.values type format isNumber run, reservation⟩, { holding kernel isNumber held with
          phase := .finalized ⟨.values type format isNumber run, reservation⟩ }, b') ∧
      run.cells = (sortedCells kernel.template.policy.nullOrder kernel.template.policy.direction
        format.order (heldWords isNumber held)).toArray := by
  obtain ⟨reservation, b', hreserve⟩ := Budget.exists_reserve "sort_values" hbudget
  obtain ⟨run, hfinal, hcells⟩ := finalize_of_reserve isNumber hv hsize hnulls hreserve
  exact ⟨run, reservation, b', hfinal, hcells⟩

theorem size_values {o : NullOrder} {direction : Direction} {run : SortedRun format}
    (hcells : run.cells =
      (sortedCells o direction format.order (heldWords isNumber held)).toArray) :
    run.values.size = (columnCells held 0 type).length := by
  rw [← SortedRun.size_cells, hcells, List.size_toArray, length_sortedCells, heldWords, columnCells,
    List.length_flatMap, List.length_flatMap]
  refine congrArg List.sum (List.map_congr_left fun columns _ => ?_)
  rw [Array.length_toList, Array.length_toList, Layout.size_words]

/-- The windows of what an in-place engine makes are those of `sortedCells`. -/
theorem columns?_values {o : NullOrder} {direction : Direction} {run : SortedRun format}
    (hcells : run.cells = (sortedCells o direction format.order (heldWords isNumber held)).toArray)
    (start stop : Nat) :
    (SortedRows.values type format isNumber run).columns? start stop =
      if start ≤ stop ∧ stop ≤ (columnCells held 0 type).length then
        some [.ofArray (.column type) ((sortedCells o direction type.layout.order
          (columnCells held 0 type)).toArray.extract start stop)]
      else none := by
  have hsize := size_values hcells
  have hmap : columnCells held 0 type =
      (held.map fun columns => (cells columns 0 type).toArray).flatMap Array.toList := by
    rw [columnCells, List.flatMap_map]
  have hwords : heldWords isNumber held =
      (held.map fun columns => (cells columns 0 type).toArray).flatMap fun cells =>
        (Layout.words isNumber cells).toList := by
    rw [heldWords, List.flatMap_map]
  rw [SortedRows.columns?]
  show (if start ≤ stop ∧ stop ≤ run.values.size then _ else none) = _
  rw [hsize]
  split_ifs with h
  · rw [SortedRun.emit_eq_extract run start stop (hsize ▸ h.2), hcells, hwords,
      Layout.ofWords_sortedCells, ← hmap]
  · rfl

end InPlaceSorter

namespace Sorter

variable {kernel : LoadedKernel}

theorem ofKernel_inPlace {f : FieldSlot} {format : NumberFormat}
    (hs : kernel.template.strategy = .inPlace) (hfields : kernel.template.fields = [f])
    (hlayout : f.type.layout = .number format) :
    ofKernel kernel = .ok (.inPlace (.holding kernel hlayout [])) := by
  have hplace : f.type.supportsInPlace := by
    rw [ColumnType.supportsInPlace, hlayout]
    rfl
  rw [ofKernel, hs]
  simp only
  rw [hfields]
  simp only
  rw [if_pos hplace, InPlaceSorter.make_eq_holding hs hfields hlayout]
  rfl

theorem layout_of_supportsInPlace {t : ColumnType} (h : t.supportsInPlace) :
    ∃ format, t.layout = .number format := by
  unfold ColumnType.supportsInPlace at h
  cases ht : t.layout <;> simp_all [Layout.container]

end Sorter

end Collate
