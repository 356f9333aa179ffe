import Collate.Proofs.Engine.Calls
import Collate.Proofs.Engine.Windows
import Collate.Proofs.Sorting.CountingPass

/-!
# Engines keep within their buffers

What an engine does next without a look at the bounds keeps within them, in every state that it can
come to: the two counters go together, every address that is stored leads to a row of every buffer,
and values are moved, sorted and shown where they are (`Sorter.InBounds`, `ResultCursor.InBounds`).
All of it follows from what a sorter holds (`Sorter.Holds.inBounds`) and a cursor reads
(`ResultCursor.Reads.inBounds`), so no run of calls comes to a fault
(`SortContext.runs_keep_in_bounds`).
-/

namespace Collate

open Input

/-! ### What the bounds are -/

/-- The types of the columns that rows show. -/
def SortedRows.types : SortedRows → List ColumnType
  | .addresses columns _ => columns.map (·.type)
  | .values type .. => [type]

/-- Every address leads to a cell of every column, and every window of values is one of them. -/
def SortedRows.InBounds : SortedRows → Prop
  | .addresses columns rows => ∀ a ∈ rows, ∀ column ∈ columns, (column.cell? a).isSome
  | .values _ _ _ run => ∀ start stop, start ≤ stop → stop ≤ run.values.size →
    run.emit? start stop = some (run.emit start stop)

/-- The regions of rows with a value and of rows with a null key are there. -/
structure Placement.InBounds (p : Placement) (total nulls : Nat) : Prop where
  validRange : p.validRange? total nulls = some (p.validRange total nulls)
  nullRange : p.nullRange? total nulls = some (p.nullRange total nulls)

/-- What an index engine does next keeps within its buffers. -/
structure IndexSorter.InBounds (s : IndexSorter) : Prop where
  placement : s.template.placement.InBounds s.totalRows s.nullsTotal
  radix : ∀ (places : Nat) (items : List (Nat × Address)),
    Radix.sort? places items = some (Radix.sort places items)
  phase : match s.phase with
    | .accumulating columns batchRows =>
      columns.map (·.type) = s.template.columnTypes ∧ (arrivals batchRows).length = s.totalRows ∧
        (∀ a ∈ arrivals batchRows, ∀ column ∈ columns, (column.cell? a).isSome) ∧
        (∀ a ∈ arrivals batchRows, ∀ b ∈ arrivals batchRows,
          (s.order.compare? columns a b).isSome) ∧
        (s.sortedAddresses? columns batchRows).isSome
    | .finalized result => result.rows.types = s.template.columnTypes ∧ result.rows.InBounds
    | .failed => False

/-- What an in-place engine does next keeps within its buffers. -/
structure InPlaceSorter.InBounds (s : InPlaceSorter) : Prop where
  placement : s.template.placement.InBounds s.totalRows s.nullsTotal
  radix : ∀ (places : Nat) (items : List (Nat × s.format.Word)),
    Radix.sort? places items = some (Radix.sort places items)
  types : s.template.columnTypes = [s.type]
  phase : match s.phase with
    | .accumulating batches =>
      batches.flatten.size = s.totalRows ∧
        Compaction.compact? s.nullOrder batches.flatten (batches.flatten.map (·.getD 0)) =
          some (s.joined batches) ∧
        (s.sortedRun? batches).isSome
    | .finalized result => result.rows.types = s.template.columnTypes ∧ result.rows.InBounds

/-- What a sorter does next keeps within its buffers. -/
def Sorter.InBounds : Sorter → Prop
  | .indexed s => s.InBounds
  | .inPlace s => s.InBounds

/-- What a cursor does next keeps within its rows.  Its windows lead to cells of the declared types,
and are the columns of these cells unless the offsets of one of them do not count its bytes. -/
structure ResultCursor.InBounds (c : ResultCursor) : Prop where
  rows : c.result.rows.InBounds
  remaining : c.remaining? = some c.remaining
  window : ∀ start stop, start ≤ stop → stop ≤ c.total → ∃ columns,
    columns.map (·.type) = c.schema.map (·.type) ∧
      c.result.rows.window start stop =
        if ∀ column ∈ columns, column.Counted then .ok columns else .error .overflow

/-! ### Rows of a sort -/

variable {t : Template} {kernel : LoadedKernel} {held : List (List Column)} {rows : SortedRows}

theorem ColumnBuffer.type_of_column? {b : ColumnBuffer} {as : List Address} {c : Column}
    (h : b.column? as = some c) : c.type = .column b.type := by
  rw [column?, Option.map_eq_some_iff] at h
  obtain ⟨cells, -, rfl⟩ := h
  rfl

/-- The columns of rows have their types. -/
theorem SortedRows.map_type_columns? {start stop : Nat} {columns : List Column}
    (h : rows.columns? start stop = some columns) :
    columns.map (·.type) = rows.types.map DataType.column := by
  unfold columns? at h
  split_ifs at h
  cases rows with
  | addresses buffers as =>
    have hcolumns := mapM_eq_some_iff.1 h
    rw [types, List.map_map]
    rw [← List.forall₂_eq_eq_eq, List.forall₂_map_left_iff, List.forall₂_map_right_iff]
    exact hcolumns.flip.imp fun _ _ hb => ColumnBuffer.type_of_column? hb
  | values type format isNumber run =>
    cases h
    rfl

theorem SortedRows.Sorted.types (h : rows.Sorted t held) : rows.types = t.columnTypes := by
  have htypes := map_type_columns? (h.columns? 0 0 le_rfl (Nat.zero_le _))
  rw [Template.map_type_sortedWindow] at htypes
  exact (List.map_injective_iff.2 (fun _ _ h => by cases h; rfl) htypes).symm

theorem SortedRows.Sorted.inBounds (h : rows.Sorted t held) : rows.InBounds := by
  have hcolumns := h.columns? 0 (totalRows held) (Nat.zero_le _) le_rfl
  have hsize := h.size
  cases rows with
  | addresses columns as =>
    intro a ha column hcolumn
    rw [SortedRows.columns?, if_pos ⟨Nat.zero_le _, hsize.ge⟩] at hcolumns
    have hsome := isSome_of_mapM hcolumns column hcolumn
    rw [← hsize] at hsome
    change (column.column? (as.extract 0 as.size).toList).isSome at hsome
    rw [Array.extract_size] at hsome
    obtain ⟨c, hc⟩ := Option.isSome_iff_exists.1 hsome
    rw [ColumnBuffer.column?, Option.map_eq_some_iff] at hc
    obtain ⟨cells, hcells, -⟩ := hc
    exact isSome_of_mapM hcells a (Array.mem_toList_iff.2 ha)
  | values type format isNumber run =>
    exact fun start stop _ hstop => SortedRun.emit?_eq run start stop hstop

/-! ### What sorters hold -/

/-- Of the rows of batches no more are null than there are, so there is room for both regions. -/
theorem Template.Held.placement_inBounds (h : t.Held held) {slot : Nat} {f : FieldSlot}
    (hf : t.fields[slot]? = some f) (p : Placement) :
    p.InBounds (totalRows held) (held.map fun columns => nullCount columns slot).sum := by
  have hle : (held.map fun columns => nullCount columns slot).sum ≤ totalRows held := by
    rw [← countP_columnCells fun columns hm => (h.fits columns hm).nullCount_cells hf,
      ← length_columnCells fun columns hm => (h.fits columns hm).size_cells hf]
    exact List.countP_le_length
  exact ⟨p.validRange?_eq hle, p.nullRange?_eq hle⟩

theorem IndexSorter.inBounds_holding (hv : kernel.template.Valid)
    (hs : kernel.template.strategy = .indexed) (h : kernel.template.Held held) :
    (holding kernel held).InBounds := by
  have hb := h.addressable hs
  have harrivals := arrivals_eq_addresses hb
  refine ⟨h.placement_inBounds (List.getElem?_eq_getElem hv.partitionSlot_lt) _,
    Radix.sort?_eq, ?_⟩
  show (kernel.template.buffers held).map (·.type) = _ ∧ (arrivals _).length = _ ∧ _
  rw [harrivals]
  refine ⟨?_, length_addresses held, fun a ha column hcolumn => ?_, fun a ha b hb' => ?_, ?_⟩
  · refine List.ext_getElem? fun slot => ?_
    rw [List.getElem?_map, Template.getElem?_buffers, Option.map_map]
    exact (List.getElem?_map ..).symm
  · obtain ⟨slot, hslot⟩ := List.mem_iff_getElem?.1 hcolumn
    rw [Template.getElem?_buffers, Option.map_eq_some_iff] at hslot
    obtain ⟨f, hf, rfl⟩ := hslot
    rw [cell?_buffer (fun columns hm => (h.fits columns hm).size_cells hf)
      ((mem_addresses hb).1 ha)]
    rfl
  · have hcompare := Template.compare?_buffers hv h.fits ((mem_addresses hb).1 ha)
      ((mem_addresses hb).1 hb')
    exact hcompare ▸ rfl
  · exact sortedAddresses?_holding hv h.fits hb ▸ rfl

theorem InPlaceSorter.inBounds_holding {f : FieldSlot} {format : NumberFormat}
    (hv : kernel.template.Valid) (hfields : kernel.template.fields = [f])
    (isNumber : f.type.layout = .number format) (h : kernel.template.Held held) :
    (holding kernel isNumber held).InBounds := by
  have hf : kernel.template.fields[0]? = some f := by rw [hfields]; rfl
  have hsize : ∀ columns ∈ held, (cells columns 0 f.type).size = rowCount columns :=
    fun columns hm => (h.fits columns hm).size_cells hf
  refine ⟨h.placement_inBounds hf _, Radix.sort?_eq, ?_, ?_⟩
  · show kernel.template.columnTypes = [f.type]
    rw [Template.columnTypes, hfields]
    rfl
  · refine ⟨?_, Compaction.compact?_eq _ Array.size_map, ?_⟩
    · show (held.map fun columns => Layout.words isNumber
        (cells columns 0 f.type).toArray).toArray.flatten.size = Input.totalRows held
      have hlength : (heldWords isNumber held).length = Input.totalRows held :=
        length_heldWords hsize
      rw [← hlength, heldWords, ← Array.length_toList, Array.toList_flatten, List.toList_toArray,
        List.map_map, List.flatMap]
      rfl
    · obtain ⟨run, hrun, -⟩ := sortedRun?_holding isNumber hv hsize fun columns hm =>
        (h.fits columns hm).nullCount_cells hf
      exact hrun ▸ rfl

namespace Sorter

variable {s : Sorter}

theorem Filled.inBounds (h : Filled kernel held s) (hv : kernel.template.Valid)
    (hheld : kernel.template.Held held) : s.InBounds := by
  cases h with
  | indexed hs => exact IndexSorter.inBounds_holding hv hs hheld
  | inPlace hs hfields isNumber =>
    exact InPlaceSorter.inBounds_holding hv hfields isNumber hheld

theorem inBounds_done {result : SortedResult} (h : s.InBounds)
    (htypes : result.rows.types = s.template.columnTypes) (hrows : result.rows.InBounds) :
    (s.done result).InBounds := by
  cases s with
  | indexed s => exact ⟨h.placement, h.radix, htypes, hrows⟩
  | inPlace s => exact ⟨h.placement, h.radix, h.types, htypes, hrows⟩

theorem Holds.inBounds (h : Holds kernel held s) : s.InBounds := by
  obtain hfilled | ⟨filled, result, hfilled, rfl, hsorted⟩ := h.state
  · exact hfilled.inBounds h.valid h.batches
  · exact inBounds_done (hfilled.inBounds h.valid h.batches)
      (hfilled.template ▸ hsorted.types) hsorted.inBounds

end Sorter

theorem ResultCursor.Reads.inBounds {c : ResultCursor} (h : c.Reads t held) : c.InBounds where
  rows := h.rows.inBounds
  remaining := sub?_eq (h.total ▸ h.offset)
  window start stop hstart hstop := by
    refine ⟨_, ?_, SortedRows.window_of_columns? (h.rows.columns? start stop hstart
      (h.total ▸ hstop))⟩
    rw [Template.map_type_sortedWindow, Template.checkSchema_eq_ok_iff.1 h.schema]

/-! ### Runs -/

namespace SortContext

/-- The answers of runs are no faults. -/
theorem Good.not_fault {x : SortContext} (h : Good x) {calls : List Call}
    (hcalls : ∀ c ∈ calls, c.Valid) :
    ∀ step ∈ x.steps calls, ∀ e, step.2.error? = some e → ¬e.IsFault := by
  induction calls generalizing x with
  | nil => exact List.forall_mem_nil _
  | cons c calls ih =>
    rw [List.forall_mem_cons] at hcalls
    rw [steps, List.forall_mem_cons]
    refine ⟨fun e he => ?_, ih (h.call_good hcalls.1) hcalls.2⟩
    obtain ⟨hnone, -⟩ | ⟨e', he', hfault, -⟩ := h.call hcalls.1
    · rw [hnone] at he
      cases he
    · rw [he'] at he
      cases he
      exact hfault

/-- Kernels of valid templates keep within their buffers.  Each can be made, and no run of calls
comes to a fault: wherever it ends, what every sorter and every cursor does next without a look at
the bounds keeps within them. -/
theorem runs_keep_in_bounds (capacity : UInt64) {calls : List Call}
    (hcalls : ∀ c ∈ calls, c.Valid) :
    let x := (ofCapacity capacity).after calls
    (∀ step ∈ (ofCapacity capacity).steps calls, ∀ e, step.2.error? = some e → ¬e.IsFault) ∧
      (∀ kernel : LoadedKernel, kernel.template.validate = .ok () →
        ∃ id, (x.call (.make kernel)).1 = .made (.ok id)) ∧
      (∀ id s, x.sorters.get? id = some s → s.InBounds) ∧
      ∀ id c, x.cursors.get? id = some c → c.InBounds := by
  intro x
  have hstart := good_ofCapacity capacity
  have hx : Good x := hstart.after hcalls
  refine ⟨hstart.not_fault hcalls, fun kernel hv => ?_, fun id s hs => ?_, fun id c hc => ?_⟩
  · obtain ⟨y, hy, -⟩ := hx.make (Template.validate_eq_ok_iff.1 hv)
    exact ⟨x.next, by rw [call, hy]⟩
  · obtain ⟨kernel, held, hholds⟩ := hx.sorters id s hs
    exact hholds.inBounds
  · obtain ⟨t, held, hreads⟩ := hx.cursors id c hc
    exact hreads.inBounds

/-- A kernel is fed, also with a batch that has no columns, and read to the end and further. -/
def readingRun : List Call :=
  .make Sorter.downwardKernel :: .evaluate 0 [] ::
    (Sorter.smallBatches.map fun columns => .evaluate 0 columns) ++
    [.finish 0, .openCursor 0 [⟨"k", .column .int8, true⟩], .nextBatch 1, .pull 1, .nextBatch 1,
      .pull 1, .evaluate 0 []]

theorem readingRun_keeps_in_bounds :
    (∀ c ∈ readingRun, c.Valid) ∧
      (∀ step ∈ (ofCapacity 64).steps readingRun, ∀ e, step.2.error? = some e → ¬e.IsFault) ∧
      ∀ id c, ((ofCapacity 64).after readingRun).cursors.get? id = some c → c.InBounds :=
  have valid : ∀ c ∈ readingRun, c.Valid := by
    simp only [readingRun, Sorter.smallBatches, List.map_cons, List.map_nil, List.cons_append,
      List.nil_append, List.forall_mem_cons, Call.Valid, List.not_mem_nil, false_imp_iff,
      implies_true, and_true]
    decide
  have bounds := runs_keep_in_bounds 64 valid
  ⟨valid, bounds.1, bounds.2.2.2⟩

end SortContext

end Collate
