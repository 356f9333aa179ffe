import Collate.Proofs.Engine.SortedRows
import Collate.Proofs.Template.Lowering

/-!
# The engines agree

A request with one column of numbers can be sorted by either engine.  Both show the same cells, bit
for bit and in the same order: `sortedCells` of what arrived (`openCursor_inPlace`,
`openCursor_indexed`), so a reader cannot tell their cursors apart
(`pulls_inPlace_eq_pulls_indexed`).
-/

namespace Collate

open Input

/-! ### The index engine with one key -/

namespace IndexSorter

variable {kernel : LoadedKernel} {t : Template} {held : List (List Column)} {slot : Nat}
  {f : FieldSlot}

/-- In the column of the only key, the sorted addresses lead to the sorted cells. -/
theorem map_cell_sortedAddresses (hv : t.Valid) (hkeys : t.keys = [slot])
    (hf : t.fields[slot]? = some f) (hfit : ∀ columns ∈ held, t.Fits columns)
    (hb : Addressable held) : (t.sortedAddresses held).map (cell held slot f.type) =
      sortedCells t.policy.nullOrder t.policy.direction f.type.layout.order
        (columnCells held slot f.type) := by
  have hslot : slot = t.partitionSlot := by
    have := hv.partition
    rw [hkeys] at this
    simpa using this
  have hnull : ∀ a, t.hasNullKey held a = (cell held slot f.type a).isNone := fun a => by
    rw [hslot] at hf ⊢
    exact hasNullKey_eq_isNone hv hf a
  have horder : ∀ x y, t.rowOrder held x y = cellOrder t.policy.nullOrder t.policy.direction
      f.type.layout.order (cell held slot f.type x) (cell held slot f.type y) := by
    intro x y
    rw [Template.rowOrder, hkeys]
    simp only [List.map_cons, List.map_nil, lexOrder, compareLex, Ordering.then_eq]
    rw [Template.keyOrder, hf]
  have hcells := map_cell_addresses hb fun columns hm => (hfit columns hm).size_cells hf
  have nulls : ((addresses held).filter (t.hasNullKey held)).map (cell held slot f.type) =
      (columnCells held slot f.type).filter Option.isNone := by
    rw [← hcells, List.filter_map]
    exact congrArg _ (List.filter_congr fun a _ => hnull a)
  have values :
      ((addresses held).filter fun a => !t.hasNullKey held a).map (cell held slot f.type) =
        (columnCells held slot f.type).reduceOption.map some := by
    rw [← filter_isSome_eq_map, ← hcells, List.filter_map]
    exact congrArg _ (List.filter_congr fun a _ => congrArg not (hnull a))
  rw [Template.sortedAddresses, NullOrder.map_arrange, nulls, Template.sortRows,
    List.map_mergeSort (s := fun x y => cellOrder t.policy.nullOrder t.policy.direction
      f.type.layout.order x y != .gt) fun a _ b _ => by rw [horder], values, sortedCells]
  exact congrArg _ (List.map_mergeSort (f := some) fun v _ w _ => rfl).symm

theorem columns?_indexed (hv : kernel.template.Valid) (hkeys : kernel.template.keys = [0])
    (hf : kernel.template.fields = [f]) (hfit : ∀ columns ∈ held, kernel.template.Fits columns)
    (hb : Addressable held) (reservation start stop : Nat) :
    (result kernel held reservation).rows.columns? start stop =
      if start ≤ stop ∧ stop ≤ (columnCells held 0 f.type).length then
        some [.ofArray (.column f.type) ((sortedCells kernel.template.policy.nullOrder
          kernel.template.policy.direction f.type.layout.order
          (columnCells held 0 f.type)).toArray.extract start stop)]
      else none := by
  have hf0 : kernel.template.fields[0]? = some f := by rw [hf]; rfl
  have hlength := length_columnCells fun columns hm => (hfit columns hm).size_cells hf0
  rw [columns?_result hfit hb, hf, List.mapIdx_cons, List.mapIdx_nil,
    map_cell_sortedAddresses hv hkeys hf0 hfit hb, hlength]

end IndexSorter

/-! ### Cursors -/

namespace ResultCursor

/-- The first answers of a cursor. -/
def pulls : Nat → ResultCursor → List (Option (Except KernelError RecordBatch))
  | 0, _ => []
  | n + 1, c => c.pull.1 :: pulls n c.pull.2

/-- Cursors at one position over rows with the same windows. -/
structure Alike (c₁ c₂ : ResultCursor) : Prop where
  schema : c₁.schema = c₂.schema
  batchSize : c₁.batchSize = c₂.batchSize
  offset : c₁.offset = c₂.offset
  total : c₁.total = c₂.total
  window : ∀ start stop, c₁.result.rows.window start stop = c₂.result.rows.window start stop

variable {c₁ c₂ : ResultCursor}

theorem Alike.hasNext (h : Alike c₁ c₂) : c₁.hasNext = c₂.hasNext := by
  rw [ResultCursor.hasNext, ResultCursor.hasNext, h.offset, h.total]

theorem Alike.nextBatch (h : Alike c₁ c₂) :
    c₁.nextBatch.1 = c₂.nextBatch.1 ∧ Alike c₁.nextBatch.2 c₂.nextBatch.2 := by
  unfold ResultCursor.nextBatch
  simp only [h.hasNext, remaining, h.offset, h.batchSize, h.total, h.window, h.schema]
  split_ifs
  · split
    · exact ⟨rfl, h⟩
    · exact ⟨rfl, h⟩
    · split
      · exact ⟨rfl, rfl, rfl, rfl, h.total, h.window⟩
      · exact ⟨rfl, h⟩
  · exact ⟨rfl, h⟩

theorem Alike.pull (h : Alike c₁ c₂) : c₁.pull.1 = c₂.pull.1 ∧ Alike c₁.pull.2 c₂.pull.2 := by
  unfold ResultCursor.pull
  rw [h.hasNext]
  split_ifs
  · exact ⟨congrArg some h.nextBatch.1, h.nextBatch.2⟩
  · exact ⟨rfl, h⟩

/-- A reader cannot tell such cursors apart. -/
theorem Alike.pulls (h : Alike c₁ c₂) (n : Nat) :
    ResultCursor.pulls n c₁ = ResultCursor.pulls n c₂ := by
  induction n generalizing c₁ c₂ with
  | zero => rfl
  | succ n ih =>
    rw [ResultCursor.pulls, ResultCursor.pulls, h.pull.1, ih h.pull.2]

/-- A cursor at the first of the cells of one column. -/
structure Shows (c : ResultCursor) (schema : List Field) (batchSize : Nat) (type : ColumnType)
    (cells : List (Option type.Value)) : Prop where
  schema : c.schema = schema
  batchSize : c.batchSize = max batchSize 1
  offset : c.offset = 0
  total : c.total = cells.length
  window : ∀ start stop, c.result.rows.window start stop =
    if start ≤ stop ∧ stop ≤ cells.length then
      .ok [.ofArray (.column type) (cells.toArray.extract start stop)]
    else .error .absent

namespace Shows

variable {schema : List Field} {batchSize : Nat} {type : ColumnType}
  {cells : List (Option type.Value)}

theorem alike (h : c₁.Shows schema batchSize type cells)
    (h' : c₂.Shows schema batchSize type cells) : Alike c₁ c₂ where
  schema := h.schema.trans h'.schema.symm
  batchSize := h.batchSize.trans h'.batchSize.symm
  offset := h.offset.trans h'.offset.symm
  total := h.total.trans h'.total.symm
  window start stop := (h.window start stop).trans (h'.window start stop).symm

/-- All rows together are the column. -/
theorem window_total (h : c₁.Shows schema batchSize type cells) :
    c₁.result.rows.window 0 c₁.total = .ok [.ofArray (.column type) cells.toArray] := by
  rw [h.window, if_pos ⟨Nat.zero_le _, h.total.le⟩, h.total,
    Array.extract_eq_self_of_le List.size_toArray.le]

end Shows

end ResultCursor

/-! ### Kernels of one request -/

namespace Template

variable {t : Template}

theorem checkSchema_of_fields_eq {t' : Template} (hfields : t.fields = t'.fields)
    (schema : List Field) : t.checkSchema schema = t'.checkSchema schema := by
  rw [checkSchema, checkSchema, hfields]

end Template

namespace Sorter

variable {spec : SortSpec} {batchSize : Nat} {kernel kernel' : LoadedKernel}
  {sorter sorter' fed' : Sorter} {batches held : List (List Column)} {schema : List Field}

theorem openCursor_of_finalize {s after : Sorter} {result : SortedResult} {b b' : Budget}
    (hschema : s.template.checkSchema schema = .ok ())
    (h : s.finalize b = (.ok result, after, b')) :
    (s.openCursor b schema).1 = .ok (.ofResult schema result after.template.batchSize) := by
  rw [openCursor, hschema]
  simp only [h]
  rfl

/-- A filled in-place engine opens a cursor on the sorted cells. -/
theorem openCursor_inPlace {f : FieldSlot} {format : NumberFormat} (hv : kernel.template.Valid)
    (hfields : kernel.template.fields = [f]) (hlayout : f.type.layout = .number format)
    (hfit : ∀ columns ∈ held, kernel.template.Fits columns) {b : Budget}
    (hbudget : b.ledger.used.toNat + Input.totalRows held * f.type.layout.width ≤
      b.ledger.capacity.toNat)
    (hschema : kernel.template.checkSchema schema = .ok ()) :
    ∃ c, ((inPlace (.holding kernel hlayout held)).openCursor b schema).1 = .ok c ∧
      c.Shows schema kernel.template.batchSize f.type
        (sortedCells kernel.template.policy.nullOrder kernel.template.policy.direction
          f.type.layout.order (columnCells held 0 f.type)) := by
  have hf : kernel.template.fields[0]? = some f := by rw [hfields]; rfl
  rw [hlayout] at hbudget
  obtain ⟨run, reservation, left, hfinal, hcells⟩ := InPlaceSorter.finalize_holding hlayout hv
    (fun columns hm => (hfit columns hm).size_cells hf)
    (fun columns hm => (hfit columns hm).nullCount_cells hf) hbudget
  refine ⟨_, openCursor_of_finalize (s := .inPlace (.holding kernel hlayout held)) hschema
    (congrArg (fun x => (x.1, inPlace x.2.1, x.2.2)) hfinal), rfl, rfl, rfl, ?_,
    fun start stop => ?_⟩
  · rw [length_sortedCells]
    exact InPlaceSorter.size_values hcells
  · rw [length_sortedCells]
    exact SortedRows.window_of_number hlayout (InPlaceSorter.size_values hcells)
      (InPlaceSorter.columns?_values hcells start stop)

/-- A filled index engine with one column of numbers opens a cursor on the sorted cells. -/
theorem openCursor_indexed {f : FieldSlot} {format : NumberFormat} (hv : kernel.template.Valid)
    (hfields : kernel.template.fields = [f]) (hkeys : kernel.template.keys = [0])
    (hlayout : f.type.layout = .number format)
    (hfit : ∀ columns ∈ held, kernel.template.Fits columns) (hb : Addressable held) {b : Budget}
    (hbudget : b.ledger.used.toNat + Input.totalRows held * Address.width ≤
      b.ledger.capacity.toNat)
    (hschema : kernel.template.checkSchema schema = .ok ()) :
    ∃ c, ((indexed (.holding kernel held)).openCursor b schema).1 = .ok c ∧
      c.Shows schema kernel.template.batchSize f.type
        (sortedCells kernel.template.policy.nullOrder kernel.template.policy.direction
          f.type.layout.order (columnCells held 0 f.type)) := by
  have hf : kernel.template.fields[0]? = some f := by rw [hfields]; rfl
  obtain ⟨reservation, left, hfinal⟩ := IndexSorter.finalize_holding hv hfit hb hbudget
  have hsize := (IndexSorter.size_result kernel held reservation).trans
    (length_columnCells fun columns hm => (hfit columns hm).size_cells hf).symm
  refine ⟨_, openCursor_of_finalize (s := .indexed (.holding kernel held)) hschema
    (congrArg (fun x => (x.1, indexed x.2.1, x.2.2)) hfinal), rfl, rfl, rfl, ?_,
    fun start stop => ?_⟩
  · rw [length_sortedCells]
    exact hsize
  · rw [length_sortedCells]
    exact SortedRows.window_of_number hlayout hsize
      (IndexSorter.columns?_indexed hv hkeys hfields hfit hb reservation start stop)

/-- The in-place kernel and the index kernel of one request answer alike: whatever batches the index
kernel takes the in-place kernel takes too, and under budgets that admit their buffers both open a
cursor on the same column, so that every number of pulls gives the same answers. -/
theorem pulls_inPlace_eq_pulls_indexed
    (hplace : Template.ofSpec spec .inPlace batchSize = .ok kernel.template)
    (hindex : Template.ofSpec spec .indexed batchSize = .ok kernel'.template)
    (hmake : ofKernel kernel = .ok sorter) (hmake' : ofKernel kernel' = .ok sorter')
    (hfeed : sorter'.feed batches = .ok fed') {b b' : Budget}
    (hbudget : b.ledger.used.toNat + Input.totalRows (arrived batches) *
      (spec.column spec.firstKey).type.layout.width ≤ b.ledger.capacity.toNat)
    (hbudget' : b'.ledger.used.toNat + Input.totalRows (arrived batches) * Address.width ≤
      b'.ledger.capacity.toNat)
    (hschema : kernel.template.checkSchema schema = .ok ()) :
    ∃ fed c c', sorter.feed batches = .ok fed ∧ (fed.openCursor b schema).1 = .ok c ∧
      (fed'.openCursor b' schema).1 = .ok c' ∧ (∀ n, c.pulls n = c'.pulls n) ∧
      c.result.rows.window 0 c.total = .ok [.ofArray (.column (spec.column spec.firstKey).type)
        (sortedCells spec.nullOrder spec.direction (spec.column spec.firstKey).type.layout.order
          (columnCells (arrived batches) 0 (spec.column spec.firstKey).type)).toArray] ∧
      c'.result.rows.window 0 c'.total = c.result.rows.window 0 c.total := by
  obtain ⟨ht, hv⟩ := Template.ofSpec_eq_ok_iff.1 hplace
  obtain ⟨ht', hv'⟩ := Template.ofSpec_eq_ok_iff.1 hindex
  have hs : kernel.template.strategy = .inPlace := by rw [ht]; rfl
  have hs' : kernel'.template.strategy = .indexed := by rw [ht']; rfl
  have hsame : kernel'.template.fields = kernel.template.fields := by rw [ht, ht']; rfl
  have hkeys' : kernel'.template.keys = kernel.template.keys := by rw [ht, ht']; rfl
  have hpolicy : kernel'.template.policy = kernel.template.policy := by rw [ht, ht']; rfl
  have hsize : kernel'.template.batchSize = kernel.template.batchSize := by rw [ht, ht']; rfl
  obtain ⟨f, hfields, hkeys, hnumbers⟩ := hv.strategy hs
  obtain ⟨format, hlayout⟩ := layout_of_supportsInPlace hnumbers
  have htype : f.type = (spec.column spec.firstKey).type :=
    Template.type_of_lower (ht ▸ hfields) (ht ▸ hkeys)
  rw [← htype] at hbudget ⊢
  rw [ofKernel_inPlace hs hfields hlayout, Except.ok.injEq] at hmake
  rw [ofKernel_indexed hs', Except.ok.injEq] at hmake'
  subst hmake hmake'
  -- Both engines hold what arrived.
  obtain ⟨hfit', hlt, rfl⟩ := (feed_indexed_eq_ok_iff hv').1 hfeed
  have hfit : ∀ columns ∈ batches, kernel.template.Fits columns := fun columns hm =>
    (hfit' columns hm).of_fields hsame.symm
  have hf : kernel.template.fields[0]? = some f := by rw [hfields]; rfl
  have hfed := (feed_eq_ok_iff [] (InPlaceSorter.buffers_holding hlayout hf rfl)).2
    ⟨hfit, fun _ _ _ => trivial, rfl⟩
  -- Both open a cursor on the sorted cells of what arrived.
  obtain ⟨c, hopen, hshows⟩ :=
    openCursor_inPlace hv hfields hlayout (fits_arrived hfit) hbudget hschema
  obtain ⟨c', hopen', hshows'⟩ :=
    openCursor_indexed hv' (hsame.trans hfields) (hkeys'.trans hkeys) hlayout (fits_arrived hfit')
      (addressable_arrived hfit hlt) hbudget'
      ((Template.checkSchema_of_fields_eq hsame schema).trans hschema)
  rw [hpolicy, hsize] at hshows'
  have hcells : c.result.rows.window 0 c.total = .ok [.ofArray (.column f.type)
      (sortedCells spec.nullOrder spec.direction f.type.layout.order
        (columnCells (arrived batches) 0 f.type)).toArray] := by
    rw [hshows.window_total, ht]
    rfl
  exact ⟨_, c, c', hfed, hopen, hopen', (hshows.alike hshows').pulls, hcells,
    hshows'.window_total.trans hshows.window_total.symm⟩

/-- A request for one column of floats, downwards and with nulls in front. -/
def floatSpec : SortSpec where
  columns := [⟨"x", .float32, true⟩]
  firstKey := ⟨0, by decide⟩
  otherKeys := []
  nullOrder := .first
  direction := .descending

/-- A kernel of the request for an engine. -/
def floatKernel (strategy : Strategy) : LoadedKernel :=
  ⟨"floats", .lower floatSpec strategy 2, ⟨"floats.kernel"⟩⟩

/-- Two batches of floats: two that are not numbers and differ in their bits, and a null. -/
def floatBatches : List (List Column) :=
  [[.ofArray (.column .float32) #[some 0x7fc00001#32, none, some 0x3f800000#32]],
    [.ofArray (.column .float32) #[some 0xffc00002#32]]]

theorem pulls_floats :
    ∃ fed c c', (inPlace (.holding (floatKernel .inPlace)
        (rfl : ColumnType.float32.layout = .number .float32) [])).feed floatBatches = .ok fed ∧
      (fed.openCursor (.ofCapacity 16) [⟨"x", .column .float32, true⟩]).1 = .ok c ∧
      ((indexed (.holding (floatKernel .indexed) (arrived floatBatches))).openCursor
        (.ofCapacity 32) [⟨"x", .column .float32, true⟩]).1 = .ok c' ∧
      (∀ n, c.pulls n = c'.pulls n) ∧
      c.result.rows.window 0 c.total = .ok [.ofArray (.column .float32)
        (sortedCells .first .descending ColumnType.float32.layout.order
          (columnCells (arrived floatBatches) 0 .float32)).toArray] ∧
      c'.result.rows.window 0 c'.total = c.result.rows.window 0 c.total :=
  have lowered : Template.ofSpec floatSpec .inPlace 2 = .ok (floatKernel .inPlace).template :=
    Template.ofSpec_inPlace (by decide) rfl rfl
  have lowered' : Template.ofSpec floatSpec .indexed 2 = .ok (floatKernel .indexed).template :=
    Template.ofSpec_indexed (by decide)
  have feeds : (indexed (.holding (floatKernel .indexed) [])).feed floatBatches =
      .ok (indexed (.holding (floatKernel .indexed) (arrived floatBatches))) := rfl
  pulls_inPlace_eq_pulls_indexed lowered lowered' (ofKernel_inPlace rfl rfl rfl)
    (ofKernel_indexed rfl) feeds (by decide) (by decide) rfl

end Sorter

end Collate
