import Collate.Proofs.Engine.Holding

/-!
# Reading a sort

A cursor over the sort of batches (`ResultCursor.Reads`) moves on by a batch of the template at a
time, and only when the batch could be made (`Reads.nextBatch_of_lt`); at the end it stays.  The
batches are the list `Template.output`, the sorted columns cut into batches, which put together are
the sorted columns again (`columnCells_output`); each read gives the next one
(`Reads.nextBatch_made`, `Reads.pull_made`), unless it is refused because the offsets of a column do
not count its bytes or for its nulls (`Reads.nextBatch_refused`, `Reads.pull_refused`).
-/

namespace Collate

open Input

variable {t : Template} {held : List (List Column)} {schema : List Field}

namespace Template

/-! ### Schemas -/

theorem checkSchema_eq_ok_iff : t.checkSchema schema = .ok () ↔
    schema.map (·.type) = t.columnTypes.map DataType.column := by
  have hall : ((t.fields.zip schema).forM fun x =>
      check (x.2.type = .column x.1.type)
        (Misuse.schemaType x.2.name x.2.type (.column x.1.type))) =
        .ok () ↔ ∀ x ∈ t.fields.zip schema, x.2.type = .column x.1.type := by
    rw [forM_eq_ok_iff]
    exact forall₂_congr fun x _ => check_eq_ok_iff
  have unfolded : t.checkSchema schema = .ok () ↔ schema.length = t.fields.length ∧
      ∀ x ∈ t.fields.zip schema, x.2.type = .column x.1.type := by
    rw [← hall]
    exact check_bind_eq_ok_iff
  rw [unfolded, columnTypes, List.map_map]
  constructor
  · rintro ⟨hlen, htypes⟩
    refine List.ext_getElem (by simpa using hlen) fun i hi hi' => ?_
    have hi₁ : i < t.fields.length := by simpa using hi'
    have hi₂ : i < schema.length := by simpa using hi
    have hm : (t.fields[i], schema[i]) ∈ t.fields.zip schema :=
      List.mem_iff_getElem.2 ⟨i, by simp; omega, by simp⟩
    simpa using htypes _ hm
  · intro h
    refine ⟨by simpa using congrArg List.length h, ?_⟩
    rintro ⟨f, field⟩ hm
    obtain ⟨i, hi⟩ := List.mem_iff_getElem?.1 hm
    obtain ⟨hf, hfield⟩ := List.getElem?_zip_eq_some.1 hi
    have := congrArg (·[i]?) h
    simpa [hf, hfield] using this

theorem length_of_checkSchema (h : t.checkSchema schema = .ok ()) :
    schema.length = t.fields.length := by
  simpa [columnTypes] using congrArg List.length (checkSchema_eq_ok_iff.1 h)

/-- A schema that declares a column free of nulls is right about the batches. -/
def AllowsNulls (schema : List Field) (batches : List (List Column)) : Prop :=
  ∀ (slot : Nat) (field : Field), schema[slot]? = some field → field.nullable = false →
    ∀ columns ∈ batches, nullCount columns slot = 0

theorem allowsNulls_of_nullable (h : ∀ field ∈ schema, field.nullable) :
    AllowsNulls schema held := by
  intro slot field hfield hnullable
  have := h field (List.mem_of_getElem? hfield)
  rw [hnullable] at this
  cases this

/-! ### Windows as batches -/

theorem getElem?_sortedWindow (t : Template) (held : List (List Column)) (start stop slot : Nat) :
    (t.sortedWindow held start stop)[slot]? = t.fields[slot]?.map fun f : FieldSlot =>
      .ofArray (.column f.type) ((t.sortedColumn held slot f.type).toArray.extract start stop) := by
  rw [sortedWindow, List.getElem?_mapIdx]

theorem length_sortedWindow (t : Template) (held : List (List Column)) (start stop : Nat) :
    (t.sortedWindow held start stop).length = t.fields.length := List.length_mapIdx

theorem map_type_sortedWindow (t : Template) (held : List (List Column)) (start stop : Nat) :
    (t.sortedWindow held start stop).map (·.type) = t.columnTypes.map DataType.column := by
  refine List.ext_getElem? fun slot => ?_
  rw [List.getElem?_map, getElem?_sortedWindow, columnTypes, List.map_map, List.getElem?_map,
    Option.map_map]
  rfl

/-- The cells of a column of a window are those of the sorted column. -/
theorem cells_sortedWindow {slot : Nat} {f : FieldSlot} (hf : t.fields[slot]? = some f)
    (start stop : Nat) : (cells (t.sortedWindow held start stop) slot f.type).toArray.toList =
      (t.sortedColumn held slot f.type).extract start stop := by
  rw [cells, getElem?_sortedWindow, hf]
  show (Column.cellsAs (.ofArray (.column f.type) _) f.type).toArray.toList = _
  rw [Column.cellsAs_eq_cellsOf rfl]
  exact Array.toList_extract

/-- The columns of a window have its rows. -/
theorem Held.length_of_mem_sortedWindow (h : t.Held held) {start stop : Nat}
    (hstop : stop ≤ totalRows held) {c : Column} (hc : c ∈ t.sortedWindow held start stop) :
    c.length = stop - start := by
  obtain ⟨slot, hslot⟩ := List.mem_iff_getElem?.1 hc
  rw [getElem?_sortedWindow, Option.map_eq_some_iff] at hslot
  obtain ⟨f, hf, rfl⟩ := hslot
  show ((t.sortedColumn held slot f.type).toArray.extract start stop).size = _
  rw [Array.size_extract, List.size_toArray, h.length_sortedColumn hf, Nat.min_eq_left hstop]

/-- A column without nulls has none in any window. -/
theorem Held.nullCount_extract (h : t.Held held) {slot : Nat} {f : FieldSlot}
    (hf : t.fields[slot]? = some f) (hnone : ∀ columns ∈ held, nullCount columns slot = 0)
    (start stop : Nat) :
    ((t.sortedColumn held slot f.type).toArray.extract start stop).countP Option.isNone = 0 := by
  have hcount : (t.sortedColumn held slot f.type).countP Option.isNone = 0 := by
    rw [(h.perm_sortedColumn hf).countP_eq,
      countP_columnCells fun columns hm => (h.fits columns hm).nullCount_cells hf]
    exact List.sum_eq_zero fun n hn => by
      obtain ⟨columns, hm, rfl⟩ := List.mem_map.1 hn
      exact hnone columns hm
  rw [← Array.countP_toList, Array.toList_extract, List.extract_eq_take_drop]
  exact Nat.le_zero.1 (hcount ▸ ((List.take_sublist _ _).trans (List.drop_sublist _ _)).countP_le)

/-- A schema that allows the nulls of the batches allows those of every window. -/
theorem Held.nullsIn?_sortedWindow (h : t.Held held) (hnulls : AllowsNulls schema held)
    (start stop : Nat) : RecordBatch.nullsIn? schema (t.sortedWindow held start stop) = none := by
  rw [RecordBatch.nullsIn?, Option.map_eq_none_iff, List.find?_eq_none]
  rintro ⟨field, c⟩ hm
  obtain ⟨slot, hslot⟩ := List.mem_iff_getElem?.1 hm
  obtain ⟨hfield, hc⟩ := List.getElem?_zip_eq_some.1 hslot
  rw [getElem?_sortedWindow, Option.map_eq_some_iff] at hc
  obtain ⟨f, hf, rfl⟩ := hc
  intro hbad
  simp only [Bool.and_eq_true, Bool.not_eq_true', decide_eq_true_eq] at hbad
  have := h.nullCount_extract hf (hnulls slot field hfield hbad.1) start stop
  exact absurd this (Nat.pos_iff_ne_zero.1 hbad.2)

/-- A window is a batch of a schema that declares its types, unless it has a null in a column that
the schema declares free of nulls. -/
theorem Held.make_sortedWindow_eq (h : t.Held held) (hv : t.Valid)
    (hschema : t.checkSchema schema = .ok ()) {start stop : Nat}
    (hstop : stop ≤ totalRows held) : RecordBatch.make schema (t.sortedWindow held start stop) =
      match RecordBatch.nullsIn? schema (t.sortedWindow held start stop) with
      | some name => .error (.nulls name)
      | none => .ok ⟨schema, stop - start, t.sortedWindow held start stop⟩ := by
  have hlength : schema.length = t.fields.length := length_of_checkSchema hschema
  have hrows : ∀ c ∈ t.sortedWindow held start stop, c.length = stop - start :=
    fun c => h.length_of_mem_sortedWindow hstop
  unfold RecordBatch.make
  rw [if_neg (by rw [length_sortedWindow, hlength]; exact not_not.2 rfl)]
  cases hwindow : t.sortedWindow held start stop with
  | nil =>
    have := length_sortedWindow t held start stop
    rw [hwindow] at this
    exact absurd (List.length_eq_zero_iff.1 this.symm) hv.fields
  | cons first rest =>
    rw [hwindow, List.forall_mem_cons] at hrows
    have hall : rest.all (·.length = first.length) := by
      simpa [hrows.1] using hrows.2
    cases RecordBatch.nullsIn? schema (first :: rest) with
    | some name => rfl
    | none =>
      rw [← hrows.1]
      exact if_pos hall

/-- The batch of a window under a schema, if the offsets of its columns count their bytes. -/
def makeBatch (t : Template) (held : List (List Column)) (schema : List Field) (start stop : Nat) :
    Except BatchError RecordBatch :=
  if ∀ c ∈ t.sortedWindow held start stop, c.Counted then
    RecordBatch.make schema (t.sortedWindow held start stop)
  else .error .overflow

/-- A window is a batch of a schema that declares its types and allows its nulls. -/
theorem Held.make_sortedWindow (h : t.Held held) (hv : t.Valid)
    (hschema : t.checkSchema schema = .ok ()) (hnulls : AllowsNulls schema held) {start stop : Nat}
    (hstop : stop ≤ totalRows held) : RecordBatch.make schema (t.sortedWindow held start stop) =
      .ok ⟨schema, stop - start, t.sortedWindow held start stop⟩ := by
  rw [h.make_sortedWindow_eq hv hschema hstop, h.nullsIn?_sortedWindow hnulls]

/-! ### The output in batches -/

/-- How many batches there are. -/
def batchCount (t : Template) (held : List (List Column)) : Nat :=
  (totalRows held + t.batchSize - 1) / t.batchSize

/-- Where a batch begins, or where the rows end. -/
def batchStart (t : Template) (held : List (List Column)) (k : Nat) : Nat :=
  min (k * t.batchSize) (totalRows held)

/-- The batches of the sorted columns under a schema. -/
def output (t : Template) (held : List (List Column)) (schema : List Field) : List RecordBatch :=
  (List.range (t.batchCount held)).map fun k =>
    ⟨schema, t.batchStart held (k + 1) - t.batchStart held k,
      t.sortedWindow held (t.batchStart held k) (t.batchStart held (k + 1))⟩

theorem lt_batchCount_iff (hn : t.batchSize ≠ 0) (k : Nat) :
    k < t.batchCount held ↔ k * t.batchSize < totalRows held := by
  have hpos : 0 < t.batchSize := Nat.pos_of_ne_zero hn
  rw [batchCount, ← Nat.succ_le_iff, Nat.le_div_iff_mul_le hpos, Nat.succ_mul]
  omega

theorem getElem?_output (hn : t.batchSize ≠ 0) (k : Nat) : (t.output held schema)[k]? =
    if k * t.batchSize < totalRows held then
      some ⟨schema, t.batchStart held (k + 1) - t.batchStart held k,
        t.sortedWindow held (t.batchStart held k) (t.batchStart held (k + 1))⟩
    else none := by
  rw [output, List.getElem?_map]
  split_ifs with h
  · rw [List.getElem?_range ((lt_batchCount_iff hn k).2 h)]
    rfl
  · rw [List.getElem?_eq_none (by
      rw [List.length_range, ← not_lt, lt_batchCount_iff hn]
      exact h)]
    rfl

theorem batchStart_succ_le (t : Template) (held : List (List Column)) (k : Nat) :
    t.batchStart held (k + 1) ≤ totalRows held := Nat.min_le_right _ _

theorem take_append_extract {α : Type} (l : List α) (k b : Nat) :
    l.take (k * b) ++ l.extract (min (k * b) l.length) (min ((k + 1) * b) l.length) =
      l.take ((k + 1) * b) := by
  rw [List.extract_eq_take_drop, Nat.succ_mul]
  rcases Nat.le_total (k * b) l.length with hk | hk
  · rw [Nat.min_eq_left hk, List.take_add]
    congr 1
    rcases Nat.le_total (k * b + b) l.length with hb | hb
    · rw [Nat.min_eq_left hb, Nat.add_sub_cancel_left]
    · rw [Nat.min_eq_right hb, List.take_of_length_le (by simp),
        List.take_of_length_le (by simp; omega)]
  · rw [Nat.min_eq_right hk, List.drop_length, List.take_nil, List.append_nil,
      List.take_of_length_le hk, List.take_of_length_le (by omega)]

/-- The first batches, put together, are the first rows. -/
theorem flatMap_extract_range {α : Type} (l : List α) (b n : Nat) :
    (List.range n).flatMap (fun k => l.extract (min (k * b) l.length)
      (min ((k + 1) * b) l.length)) = l.take (n * b) := by
  induction n with
  | zero => simp
  | succ n ih =>
    rw [List.range_succ, List.flatMap_append, ih, List.flatMap_singleton, take_append_extract]

/-- The batches, put together, are the sorted columns. -/
theorem Held.columnCells_output (h : t.Held held) (hn : t.batchSize ≠ 0) (schema : List Field)
    {slot : Nat} {f : FieldSlot} (hf : t.fields[slot]? = some f) :
    columnCells ((t.output held schema).map (·.columns)) slot f.type =
      t.sortedColumn held slot f.type := by
  have hlength := h.length_sortedColumn hf
  have hall : totalRows held ≤ t.batchCount held * t.batchSize := by
    by_contra hlt
    exact Nat.lt_irrefl _ ((lt_batchCount_iff hn _).2 (not_le.1 hlt))
  rw [columnCells, output, List.map_map, List.flatMap_map]
  simp only [Function.comp_apply, cells_sortedWindow hf, batchStart, ← hlength]
  rw [flatMap_extract_range, List.take_of_length_le (hlength.trans_le hall)]

/-! ### Batches that are refused -/

/-- The offsets of the columns of a batch count their bytes. -/
def CountsBytes (t : Template) (held : List (List Column)) (k : Nat) : Prop :=
  ∀ c ∈ t.sortedWindow held (t.batchStart held k) (t.batchStart held (k + 1)), c.Counted

instance (t : Template) (held : List (List Column)) : DecidablePred (t.CountsBytes held) :=
  fun _ => List.decidableBAll _ _

/-- Why a batch is refused: its bytes are not counted, or a field that is declared free of nulls has
some there. -/
def refusal? (t : Template) (held : List (List Column)) (schema : List Field) (k : Nat) :
    Option BatchError :=
  if t.CountsBytes held k then
    (RecordBatch.nullsIn? schema
      (t.sortedWindow held (t.batchStart held k) (t.batchStart held (k + 1)))).map .nulls
  else some .overflow

theorem countsBytes_iff {k : Nat} : t.CountsBytes held k ↔
    ∀ (slot : Nat) (f : FieldSlot), t.fields[slot]? = some f →
      f.type.layout.byteCount ((t.sortedColumn held slot f.type).extract (t.batchStart held k)
        (t.batchStart held (k + 1))) ≤ f.type.byteLimit := by
  have hcounted : ∀ slot (f : FieldSlot), (Column.ofArray (.column f.type)
      ((t.sortedColumn held slot f.type).toArray.extract (t.batchStart held k)
        (t.batchStart held (k + 1)))).Counted ↔
      f.type.layout.byteCount ((t.sortedColumn held slot f.type).extract (t.batchStart held k)
        (t.batchStart held (k + 1))) ≤ f.type.byteLimit := fun slot f => by
    rw [Column.counted_ofArray_iff, Array.toList_extract]
  constructor
  · intro h slot f hf
    refine (hcounted slot f).1 (h _ (List.mem_of_getElem? (i := slot) ?_))
    rw [getElem?_sortedWindow, hf, Option.map_some]
  · intro h c hc
    obtain ⟨slot, hslot⟩ := List.mem_iff_getElem?.1 hc
    rw [getElem?_sortedWindow, Option.map_eq_some_iff] at hslot
    obtain ⟨f, hf, rfl⟩ := hslot
    exact (hcounted slot f).2 (h slot f hf)

/-- The offsets of a column count the bytes of all its rows. -/
def CountsAll (t : Template) (held : List (List Column)) : Prop :=
  ∀ (slot : Nat) (f : FieldSlot), t.fields[slot]? = some f →
    f.type.layout.byteCount (columnCells held slot f.type) ≤ f.type.byteLimit

/-- Columns of numbers have no bytes that offsets count. -/
theorem countsAll_of_numbers
    (h : ∀ f ∈ t.fields, ∃ format, f.type.layout = .number format) : t.CountsAll held := by
  intro slot f hf
  obtain ⟨format, hlayout⟩ := h f (List.mem_of_getElem? hf)
  rw [Layout.byteCount_of_number hlayout]
  exact Nat.zero_le _

/-- Where the bytes of all rows are counted, those of every batch are. -/
theorem Held.countsBytes (h : t.Held held) (hall : t.CountsAll held) (k : Nat) :
    t.CountsBytes held k := by
  refine countsBytes_iff.2 fun slot f hf => ?_
  calc f.type.layout.byteCount ((t.sortedColumn held slot f.type).extract (t.batchStart held k)
        (t.batchStart held (k + 1)))
      ≤ f.type.layout.byteCount (t.sortedColumn held slot f.type) := by
        rw [List.extract_eq_take_drop]
        exact Layout.byteCount_le_of_sublist ((List.take_sublist _ _).trans (List.drop_sublist _ _))
    _ = f.type.layout.byteCount (columnCells held slot f.type) :=
        Layout.byteCount_eq_of_perm (h.perm_sortedColumn hf)
    _ ≤ f.type.byteLimit := hall slot f hf

/-- Behind the last row there are no bytes. -/
theorem countsBytes_of_le {k : Nat} (h : totalRows held ≤ k * t.batchSize) :
    t.CountsBytes held k := by
  refine countsBytes_iff.2 fun slot f _ => ?_
  have hstart : t.batchStart held k = totalRows held := Nat.min_eq_right h
  have hstop : t.batchStart held (k + 1) ≤ totalRows held := t.batchStart_succ_le held k
  have hempty : (t.sortedColumn held slot f.type).extract (t.batchStart held k)
      (t.batchStart held (k + 1)) = [] := by
    rw [List.extract_eq_take_drop, Nat.sub_eq_zero_of_le (hstop.trans hstart.ge), List.take_zero]
  rw [hempty, Layout.byteCount_nil]
  exact Nat.zero_le _

/-- The offsets of the columns of the first output batches count their bytes. -/
theorem all_take_output_iff (hn : t.batchSize ≠ 0) (k : Nat) :
    ((t.output held schema).take (k + 1)).all (·.Counted) ↔ ∀ j ≤ k, t.CountsBytes held j := by
  simp only [List.all_eq_true, decide_eq_true_eq]
  constructor
  · intro h j hj
    by_cases hlt : j * t.batchSize < totalRows held
    · have hbatch : (t.output held schema)[j]? = _ := getElem?_output hn j
      rw [if_pos hlt] at hbatch
      exact h _ (List.mem_of_getElem?
        ((List.getElem?_take_of_lt (Nat.lt_succ_of_le hj)).trans hbatch))
    · exact countsBytes_of_le (Nat.le_of_not_lt hlt)
  · intro h batch hbatch
    obtain ⟨j, hj⟩ := List.mem_iff_getElem?.1 hbatch
    rw [List.getElem?_take] at hj
    split_ifs at hj with hlt
    rw [getElem?_output hn] at hj
    split_ifs at hj
    cases hj
    exact h j (Nat.le_of_lt_succ hlt)

/-- A batch can be made unless it is refused. -/
theorem Held.makeBatch_eq (h : t.Held held) (hv : t.Valid)
    (hschema : t.checkSchema schema = .ok ()) (k : Nat) :
    t.makeBatch held schema (t.batchStart held k) (t.batchStart held (k + 1)) =
      match t.refusal? held schema k with
      | some e => .error e
      | none => .ok ⟨schema, t.batchStart held (k + 1) - t.batchStart held k,
        t.sortedWindow held (t.batchStart held k) (t.batchStart held (k + 1))⟩ := by
  by_cases hcounts : t.CountsBytes held k
  · have hmake : t.makeBatch held schema (t.batchStart held k) (t.batchStart held (k + 1)) =
        RecordBatch.make schema
          (t.sortedWindow held (t.batchStart held k) (t.batchStart held (k + 1))) := if_pos hcounts
    rw [hmake, h.make_sortedWindow_eq hv hschema (t.batchStart_succ_le held k), refusal?,
      if_pos hcounts]
    cases RecordBatch.nullsIn? schema
      (t.sortedWindow held (t.batchStart held k) (t.batchStart held (k + 1))) <;> rfl
  · rw [refusal?, if_neg hcounts]
    exact if_neg hcounts

/-- A schema that allows the nulls of the batches refuses only those whose bytes are not counted. -/
theorem Held.refusal?_eq (h : t.Held held) (hnulls : AllowsNulls schema held) (k : Nat) :
    t.refusal? held schema k = if t.CountsBytes held k then none else some .overflow := by
  rw [refusal?, h.nullsIn?_sortedWindow hnulls]
  rfl

theorem Held.refusal?_eq_none (h : t.Held held) (hnulls : AllowsNulls schema held)
    (hcounts : ∀ k, t.CountsBytes held k) (k : Nat) : t.refusal? held schema k = none :=
  (h.refusal?_eq hnulls k).trans (if_pos (hcounts k))

/-- A batch that is refused has rows. -/
theorem Held.lt_of_refusal? (h : t.Held held) {k : Nat} {e : BatchError}
    (hrefused : t.refusal? held schema k = some e) : k * t.batchSize < totalRows held := by
  by_contra hle
  have hstart : t.batchStart held k = totalRows held := Nat.min_eq_right (Nat.le_of_not_lt hle)
  have hstop : t.batchStart held (k + 1) ≤ totalRows held := t.batchStart_succ_le held k
  rw [refusal?, if_pos (countsBytes_of_le (Nat.le_of_not_lt hle)), RecordBatch.nullsIn?,
    Option.map_map, Option.map_eq_some_iff] at hrefused
  obtain ⟨⟨field, c⟩, hfind, -⟩ := hrefused
  have hbad := List.find?_some hfind
  simp only [Bool.and_eq_true, decide_eq_true_eq] at hbad
  have hlength := h.length_of_mem_sortedWindow hstop
    (List.of_mem_zip (List.mem_of_find?_eq_some hfind)).2
  have hnulls : c.nullCount ≤ c.length := Array.countP_le_size
  omega

end Template

/-! ### Cursors -/

namespace ResultCursor

/-- A read gives a batch and moves the cursor on, or it gives none and the cursor stays; the budget
is not asked. -/
theorem nextBatch_cases (c : ResultCursor) :
    (∃ batch offset, c.nextBatch = (.ok batch, { c with offset })) ∨
      ∃ e, c.nextBatch = (.error e, c) ∧ ∀ b, e ≠ .budget b := by
  unfold nextBatch
  dsimp only
  split
  · split
    · exact .inr ⟨_, rfl, fun _ h => by cases h⟩
    · exact .inr ⟨_, rfl, fun _ h => by cases h⟩
    · split
      · exact .inl ⟨_, _, rfl⟩
      · exact .inr ⟨_, rfl, fun _ h => by cases h⟩
  · exact .inr ⟨_, rfl, fun _ h => by cases h⟩

/-- A cursor over the sort of batches, under a schema of its types. -/
structure Reads (t : Template) (held : List (List Column)) (c : ResultCursor) : Prop where
  valid : t.Valid
  batches : t.Held held
  rows : c.result.rows.Sorted t held
  schema : t.checkSchema c.schema = .ok ()
  batchSize : c.batchSize = t.batchSize
  offset : c.offset ≤ totalRows held

variable {c : ResultCursor} {result : SortedResult}

theorem reads_ofResult (hv : t.Valid) (hheld : t.Held held)
    (hschema : t.checkSchema schema = .ok ()) (hsorted : result.rows.Sorted t held) :
    (ofResult schema result t.batchSize).Reads t held where
  valid := hv
  batches := hheld
  rows := hsorted
  schema := hschema
  batchSize := Nat.max_eq_left (Nat.one_le_iff_ne_zero.2 hv.batchSize)
  offset := Nat.zero_le _

namespace Reads

theorem total (h : c.Reads t held) : c.total = totalRows held := h.rows.size

theorem hasNext_iff (h : c.Reads t held) : c.hasNext ↔ c.offset < totalRows held := by
  rw [hasNext, decide_eq_true_iff, h.total]

/-- Where rows are left, the cursor makes a batch of the next ones and moves behind them, or it
stays where it is. -/
theorem nextBatch_of_lt (h : c.Reads t held) (hlt : c.offset < totalRows held) :
    c.nextBatch = match t.makeBatch held c.schema c.offset
        (min (c.offset + t.batchSize) (totalRows held)) with
      | .ok batch => (.ok batch, { c with offset := min (c.offset + t.batchSize) (totalRows held) })
      | .error e => (.error (.batch e), c) := by
  have hstop : c.offset + min c.batchSize c.remaining =
      min (c.offset + t.batchSize) (totalRows held) := by
    rw [remaining, h.total, h.batchSize]
    omega
  have hwindow := SortedRows.window_of_columns? (h.rows.columns? c.offset
    (min (c.offset + t.batchSize) (totalRows held)) (by omega) (Nat.min_le_right _ _))
  rw [ResultCursor.nextBatch, if_pos (h.hasNext_iff.2 hlt)]
  simp only [hstop, hwindow, Template.makeBatch]
  split_ifs
  · cases hmake : RecordBatch.make c.schema (t.sortedWindow held c.offset
      (min (c.offset + t.batchSize) (totalRows held))) <;> simp only [hmake]
  · rfl

theorem nextBatch_of_le (h : c.Reads t held) (hle : totalRows held ≤ c.offset) :
    c.nextBatch = (.error (.exhausted (totalRows held)), c) := by
  rw [ResultCursor.nextBatch, if_neg (by rw [h.hasNext_iff]; omega), h.total]

theorem pull_of_lt (h : c.Reads t held) (hlt : c.offset < totalRows held) :
    c.pull = (some c.nextBatch.1, c.nextBatch.2) := by
  rw [ResultCursor.pull, if_pos (h.hasNext_iff.2 hlt)]

theorem pull_of_le (h : c.Reads t held) (hle : totalRows held ≤ c.offset) : c.pull = (none, c) := by
  rw [ResultCursor.pull, if_neg (by rw [h.hasNext_iff]; omega)]

/-- A read gives a batch and moves the cursor on, or it gives none and the cursor stays. -/
theorem nextBatch (h : c.Reads t held) :
    (∃ batch c', c.nextBatch = (.ok batch, c') ∧ c'.Reads t held ∧ c'.schema = c.schema) ∨
      ∃ e, c.nextBatch = (.error e, c) ∧ ¬e.IsFault := by
  by_cases hlt : c.offset < totalRows held
  · have hnext := h.nextBatch_of_lt hlt
    split at hnext
    · exact .inl ⟨_, _, hnext, { h with offset := Nat.min_le_right _ _ }, rfl⟩
    · exact .inr ⟨_, hnext, id⟩
  · exact .inr ⟨_, h.nextBatch_of_le (not_lt.1 hlt), id⟩

theorem pull (h : c.Reads t held) :
    (∃ batch c', c.pull = (some (.ok batch), c') ∧ c'.Reads t held ∧ c'.schema = c.schema) ∨
      (∃ e, c.pull = (some (.error e), c) ∧ ¬e.IsFault) ∨ c.pull = (none, c) := by
  by_cases hlt : c.offset < totalRows held
  · rw [h.pull_of_lt hlt]
    obtain ⟨batch, c', hnext, hc'⟩ | ⟨e, hnext, he⟩ := h.nextBatch
    · exact .inl ⟨batch, c', by rw [hnext], hc'⟩
    · exact .inr (.inl ⟨e, by rw [hnext], he⟩)
  · exact .inr (.inr (h.pull_of_le (not_lt.1 hlt)))

/-! ### The reads in a row -/

/-- Behind so many batches, the next read gives the next batch unless it is refused, or says that
there is none, and the cursor is then behind one more. -/
theorem nextBatch_made (h : c.Reads t held) {k : Nat} (hk : c.offset = t.batchStart held k)
    (hmade : t.refusal? held c.schema k = none) :
    c.nextBatch = (match (t.output held c.schema)[k]? with
      | some batch => .ok batch
      | none => .error (.exhausted (totalRows held)),
      { c with offset := t.batchStart held (k + 1) }) := by
  rw [Template.getElem?_output h.valid.batchSize]
  split_ifs with hlt
  · have hstart : t.batchStart held k = k * t.batchSize := Nat.min_eq_left hlt.le
    have hnext : t.batchStart held (k + 1) =
        min (c.offset + t.batchSize) (totalRows held) := by
      rw [hk, hstart, Template.batchStart, Nat.succ_mul]
    rw [h.nextBatch_of_lt (by omega), ← hnext, hk,
      h.batches.makeBatch_eq h.valid h.schema k, hmade]
  · have hend : t.batchStart held k = totalRows held := Nat.min_eq_right (not_lt.1 hlt)
    have hnext : t.batchStart held (k + 1) = c.offset := by
      rw [hk, hend, Template.batchStart, Nat.succ_mul]
      omega
    rw [h.nextBatch_of_le (by omega), hnext]

theorem pull_made (h : c.Reads t held) {k : Nat} (hk : c.offset = t.batchStart held k)
    (hmade : t.refusal? held c.schema k = none) :
    c.pull = ((t.output held c.schema)[k]?.map .ok,
      { c with offset := t.batchStart held (k + 1) }) := by
  have hnext := h.nextBatch_made hk hmade
  have hoffset : c.offset < totalRows held ↔ k * t.batchSize < totalRows held := by
    rw [hk, Template.batchStart]
    omega
  rw [Template.getElem?_output h.valid.batchSize] at hnext ⊢
  by_cases hlt : k * t.batchSize < totalRows held
  · rw [if_pos hlt] at hnext ⊢
    rw [h.pull_of_lt (hoffset.2 hlt), hnext]
    rfl
  · rw [if_neg hlt] at hnext ⊢
    rw [h.nextBatch_of_le (by omega)] at hnext
    rw [h.pull_of_le (by omega)]
    exact congrArg (Prod.mk none) (Prod.ext_iff.1 hnext).2

/-- A read of a batch that is refused leaves the cursor in front of it. -/
theorem nextBatch_refused (h : c.Reads t held) {k : Nat} {e : BatchError}
    (hk : c.offset = t.batchStart held k) (hrefused : t.refusal? held c.schema k = some e) :
    c.nextBatch = (.error (.batch e), c) := by
  have hlt := h.batches.lt_of_refusal? hrefused
  have hstart : t.batchStart held k = k * t.batchSize := Nat.min_eq_left hlt.le
  have hnext : t.batchStart held (k + 1) = min (c.offset + t.batchSize) (totalRows held) := by
    rw [hk, hstart, Template.batchStart, Nat.succ_mul]
  rw [h.nextBatch_of_lt (by omega), ← hnext, hk, h.batches.makeBatch_eq h.valid h.schema k,
    hrefused]

theorem pull_refused (h : c.Reads t held) {k : Nat} {e : BatchError}
    (hk : c.offset = t.batchStart held k) (hrefused : t.refusal? held c.schema k = some e) :
    c.pull = (some (.error (.batch e)), c) := by
  have hlt := h.batches.lt_of_refusal? hrefused
  have hoffset : c.offset < totalRows held := by
    rw [hk, Template.batchStart]
    omega
  rw [h.pull_of_lt hoffset, h.nextBatch_refused hk hrefused]

end Reads

end ResultCursor

end Collate
