import Collate.Engine.RecordBatch
import Collate.Proofs.Answers

/-!
# Input batches

A kernel takes batches, each a list of columns.  The batches without rows leave no trace
(`Input.arrived` drops them), and a row has an address: the number of its batch among the others and
its position there.  `Input.cell` looks a row up in the batches themselves, so statements about
kernels need not speak of their buffers.  `Template.checkColumns_eq_ok_iff` says which batches a
kernel takes.
-/

namespace Collate

/-- The cells of a column as cells of a type; as cells of any other type it has none. -/
def Column.cellsAs (c : Column) (t : ColumnType) : Cells t.Value :=
  if h : c.type = .column t then c.cellsOf h else .ofArray #[]

namespace Input

/-- The rows of a batch, by its first column. -/
def rowCount (columns : List Column) : Nat := (columns.head?.map Column.length).getD 0

/-- The batches that have rows, in order of arrival. -/
def arrived (batches : List (List Column)) : List (List Column) :=
  batches.filter fun columns => rowCount columns ≠ 0

/-- How many rows there are. -/
def totalRows (batches : List (List Column)) : Nat := (batches.map rowCount).sum

/-- The batches have a row at the address. -/
def HasRow (batches : List (List Column)) (a : Address) : Prop :=
  ∃ columns, batches[a.batch.toNat]? = some columns ∧ a.row.toNat < rowCount columns

/-- The addresses of the rows of a batch. -/
def batchAddresses (batch rows : Nat) : List Address :=
  (List.range rows).map fun row => ⟨.ofNat batch, .ofNat row⟩

/-- The addresses of all rows, in order of arrival. -/
def addresses (batches : List (List Column)) : List Address :=
  batches.zipIdx.flatMap fun (columns, batch) => batchAddresses batch (rowCount columns)

/-- The cells of a column of a batch. -/
def cells (columns : List Column) (slot : Nat) (t : ColumnType) : Cells t.Value :=
  match columns[slot]? with
  | some c => c.cellsAs t
  | none => .ofArray #[]

/-- The cell of a row in a column: a value, or nothing where it is null. -/
def cell (batches : List (List Column)) (slot : Nat) (t : ColumnType) (a : Address) :
    Option t.Value :=
  (batches[a.batch.toNat]?.bind fun columns => (cells columns slot t).get? a.row.toNat).join

/-- The nulls of a column of a batch. -/
def nullCount (columns : List Column) (slot : Nat) : Nat :=
  (columns[slot]?.map Column.nullCount).getD 0

/-- The cells of a column of all batches, in order of arrival. -/
def columnCells (batches : List (List Column)) (slot : Nat) (t : ColumnType) :
    List (Option t.Value) :=
  batches.flatMap fun columns => (cells columns slot t).toArray.toList

/-- The batches can be told apart by numbers of 32 bits, and so can the rows of each. -/
structure Addressable (batches : List (List Column)) : Prop where
  batches_lt : batches.length < 2 ^ 32
  rows_lt : ∀ columns ∈ batches, rowCount columns < 2 ^ 32

end Input

open Input

/-! ### Columns -/

namespace Column

theorem cellsAs_eq_cellsOf {c : Column} {t : ColumnType} (h : c.type = .column t) :
    c.cellsAs t = c.cellsOf h := by
  rw [cellsAs, dif_pos h]

theorem size_cellsAs {c : Column} {t : ColumnType} (h : c.type = .column t) :
    (c.cellsAs t).size = c.length := by
  rw [cellsAs_eq_cellsOf h]
  obtain ⟨type, cells⟩ := c
  cases h
  rfl

theorem nullCount_cellsAs {c : Column} {t : ColumnType} (h : c.type = .column t) :
    (c.cellsAs t).nullCount = c.nullCount := by
  rw [cellsAs_eq_cellsOf h]
  obtain ⟨type, cells⟩ := c
  cases h
  rfl

end Column

/-! ### Accepted batches -/

namespace Template

variable {t : Template} {columns : List Column}

/-- A batch that fits the fields of a template: a column for each field, of its type, all with as
many rows as the first one, and no more rows than can be numbered. -/
structure Fits (t : Template) (columns : List Column) : Prop where
  nonempty : columns ≠ []
  length_eq : columns.length = t.fields.length
  column : ∀ (slot : Nat) (f : FieldSlot) (c : Column), t.fields[slot]? = some f →
    columns[slot]? = some c → c.type = .column f.type ∧ c.length = rowCount columns
  rows_lt : rowCount columns < 2 ^ 32

theorem checkColumn_eq_ok_iff {rows : Nat} {f : FieldSlot} {c : Column} :
    checkColumn rows f c = .ok () ↔ c.type = .column f.type ∧ c.length = rows := by
  simp [checkColumn, check_bind_eq_ok_iff]

theorem forM_checkColumn_eq_ok_iff {rows : Nat} :
    ((t.fields.zip columns).forM fun x => checkColumn rows x.1 x.2) = .ok () ↔
      ∀ (slot : Nat) (f : FieldSlot) (c : Column), t.fields[slot]? = some f →
        columns[slot]? = some c → c.type = .column f.type ∧ c.length = rows := by
  rw [forM_eq_ok_iff]
  constructor
  · intro h slot f c hf hc
    exact checkColumn_eq_ok_iff.1
      (h (f, c) (List.mem_of_getElem? (List.getElem?_zip_eq_some.2 ⟨hf, hc⟩)))
  · rintro h ⟨f, c⟩ hm
    obtain ⟨slot, hslot⟩ := List.mem_iff_getElem?.1 hm
    obtain ⟨hf, hc⟩ := List.getElem?_zip_eq_some.1 hslot
    exact checkColumn_eq_ok_iff.2 (h slot f c hf hc)

/-- A kernel takes exactly the batches that fit its template. -/
theorem checkColumns_eq_ok_iff {rows : Nat} :
    t.checkColumns columns = .ok rows ↔ t.Fits columns ∧ rows = rowCount columns := by
  unfold checkColumns
  split_ifs with hlen
  · simp only [false_iff, not_and]
    exact fun h => absurd h.length_eq hlen
  · cases columns with
    | nil =>
      simp only [reduceCtorEq, false_iff, not_and]
      exact fun h => absurd rfl h.nonempty
    | cons first rest =>
      have hrows : rowCount (first :: rest) = first.length := rfl
      dsimp only
      cases hcheck : (t.fields.zip (first :: rest)).forM fun x =>
          checkColumn first.length x.1 x.2 with
      | error e =>
        simp only [reduceCtorEq, false_iff, not_and]
        intro h
        have := forM_checkColumn_eq_ok_iff.2 h.column
        rw [hrows, hcheck] at this
        cases this
      | ok u =>
        have hcolumns := forM_checkColumn_eq_ok_iff.1 hcheck
        simp only
        split_ifs with hlt
        · simp only [Except.ok.injEq]
          constructor
          · rintro rfl
            exact ⟨⟨by simp, not_not.1 hlen, hcolumns, hlt⟩, rfl⟩
          · rintro ⟨-, rfl⟩
            rfl
        · simp only [false_iff, not_and]
          exact fun h => absurd h.rows_lt hlt

/-- What fits is a matter of the fields only. -/
theorem Fits.of_fields {t' : Template} (h : t.Fits columns) (hfields : t'.fields = t.fields) :
    t'.Fits columns :=
  ⟨h.nonempty, hfields ▸ h.length_eq, hfields ▸ h.column, h.rows_lt⟩

theorem Fits.getElem? (h : t.Fits columns) {slot : Nat} {f : FieldSlot}
    (hf : t.fields[slot]? = some f) :
    ∃ c, columns[slot]? = some c ∧ c.type = .column f.type ∧ c.length = rowCount columns := by
  have hlt : slot < columns.length := by
    rw [h.length_eq]
    exact (List.getElem?_eq_some_iff.1 hf).1
  exact ⟨columns[slot], List.getElem?_eq_getElem hlt, h.column slot f _ hf
    (List.getElem?_eq_getElem hlt)⟩

theorem Fits.size_cells (h : t.Fits columns) {slot : Nat} {f : FieldSlot}
    (hf : t.fields[slot]? = some f) : (cells columns slot f.type).size = rowCount columns := by
  obtain ⟨c, hc, htype, hlength⟩ := h.getElem? hf
  rw [cells, hc, ← hlength]
  exact Column.size_cellsAs htype

theorem Fits.nullCount_cells (h : t.Fits columns) {slot : Nat} {f : FieldSlot}
    (hf : t.fields[slot]? = some f) :
    (cells columns slot f.type).nullCount = nullCount columns slot := by
  obtain ⟨c, hc, htype, -⟩ := h.getElem? hf
  rw [cells, nullCount, hc]
  exact Column.nullCount_cellsAs htype

end Template

/-! ### Addresses -/

namespace Input

variable {batches : List (List Column)}

theorem getElem?_of_mem_zipIdx {columns : List Column} {batch : Nat}
    (h : (columns, batch) ∈ batches.zipIdx) : batches[batch]? = some columns := by
  simpa using List.mem_zipIdx_iff_getElem?.1 h

theorem batch_lt_of_mem_zipIdx {columns : List Column} {batch : Nat}
    (h : (columns, batch) ∈ batches.zipIdx) : batch < batches.length :=
  (List.getElem?_eq_some_iff.1 (getElem?_of_mem_zipIdx h)).1

theorem toNat_ofNat_of_lt {n : Nat} (h : n < 2 ^ 32) : (UInt32.ofNat n).toNat = n := by
  rw [UInt32.toNat_ofNat', Nat.mod_eq_of_lt h]

/-- The addresses are those of the rows. -/
theorem mem_addresses (h : Addressable batches) {a : Address} :
    a ∈ addresses batches ↔ HasRow batches a := by
  simp only [addresses, batchAddresses, List.mem_flatMap, List.mem_map, List.mem_range, HasRow]
  constructor
  · rintro ⟨⟨columns, batch⟩, hm, row, hrow, rfl⟩
    have hcolumns := getElem?_of_mem_zipIdx hm
    have hbatch := toNat_ofNat_of_lt ((batch_lt_of_mem_zipIdx hm).trans h.batches_lt)
    have hlt := toNat_ofNat_of_lt (hrow.trans (h.rows_lt columns (List.mem_of_getElem? hcolumns)))
    exact ⟨columns, by rwa [hbatch], by rwa [hlt]⟩
  · rintro ⟨columns, hcolumns, hrow⟩
    refine ⟨(columns, a.batch.toNat), List.mem_zipIdx_iff_getElem?.2 (by simpa using hcolumns),
      a.row.toNat, hrow, ?_⟩
    simp

/-- The addresses stand in order of arrival. -/
theorem pairwise_addresses (h : Addressable batches) :
    (addresses batches).Pairwise fun a b => a.order b = .lt := by
  rw [addresses, List.pairwise_flatMap]
  constructor
  · rintro ⟨columns, batch⟩ hm
    have hrows := h.rows_lt columns (List.mem_of_getElem? (getElem?_of_mem_zipIdx hm))
    simp only [batchAddresses, List.pairwise_map]
    refine List.pairwise_lt_range.imp_of_mem fun {row row'} hrow hrow' hlt => ?_
    rw [List.mem_range] at hrow hrow'
    simp only [Address.order, Nat.compare_eq_eq.2 rfl, Ordering.then_eq_lt, reduceCtorEq, true_and,
      false_or, toNat_ofNat_of_lt (hrow.trans hrows), toNat_ofNat_of_lt (hrow'.trans hrows)]
    exact Nat.compare_eq_lt.2 hlt
  · have hpair : batches.zipIdx.Pairwise fun e e' => e.2 < e'.2 := by
      rw [← List.pairwise_map, List.zipIdx_map_snd]
      exact List.pairwise_lt_range'
    refine hpair.imp_of_mem fun {e e'} hm hm' hlt a ha b hb => ?_
    obtain ⟨row, -, rfl⟩ := List.mem_map.1 ha
    obtain ⟨row', -, rfl⟩ := List.mem_map.1 hb
    have hbatch := (batch_lt_of_mem_zipIdx hm).trans h.batches_lt
    have hbatch' := (batch_lt_of_mem_zipIdx hm').trans h.batches_lt
    simp only [Address.order, Ordering.then_eq_lt, toNat_ofNat_of_lt hbatch,
      toNat_ofNat_of_lt hbatch']
    exact Or.inl (Nat.compare_eq_lt.2 hlt)

theorem length_addresses (batches : List (List Column)) :
    (addresses batches).length = totalRows batches := by
  have rows : ((fun e : List Column × Nat => (batchAddresses e.2 (rowCount e.1)).length)) =
      rowCount ∘ Prod.fst := by
    funext e
    simp [batchAddresses]
  rw [addresses, List.length_flatMap, totalRows, rows, ← List.map_map, List.zipIdx_map_fst]

end Input

end Collate
