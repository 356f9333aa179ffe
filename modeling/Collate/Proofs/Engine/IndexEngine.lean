import Collate.Proofs.Engine.Feeding
import Collate.Proofs.Engine.Placement
import Collate.Proofs.Engine.RowSorting
import Collate.Template.Lowering

/-!
# The index engine

After any run of accepted batches an index engine holds exactly their columns (`buffers_holding`),
and what it makes of them is a function of the batches alone: `Template.sortedAddresses`
(`sortedAddresses?_holding`).  `finish_indexed` says what these addresses are: every row once, the
rows with a null in the first key together on their side and in order of arrival, and the others in
the order of rows, those that tie in order of arrival.
-/

namespace Collate

open Input

/-! ### Written addresses -/

namespace Address

/-- The addresses that are written one after the other. -/
def listOfBytes (bs : List UInt8) : List Address :=
  (List.range (bs.length / width)).map fun i => ofBytes (bs.drop (width * i))

theorem length_bytes (a : Address) : a.bytes.length = width := by
  simp [bytes, width]

theorem length_flatMap_bytes (as : List Address) :
    (as.flatMap bytes).length = width * as.length := by
  induction as with
  | nil => rfl
  | cons a as ih =>
    rw [List.flatMap_cons, List.length_append, ih, length_bytes, List.length_cons, Nat.mul_succ,
      Nat.add_comm]

theorem ofBytes_append (a : Address) (bs : List UInt8) : ofBytes (a.bytes ++ bs) = a := by
  have front : (a.bytes ++ bs).take 4 = a.bytes.take 4 :=
    List.take_append_of_le_length (by simp [bytes])
  have back : ((a.bytes ++ bs).drop 4).take 4 = (a.bytes.drop 4).take 4 := by
    rw [List.drop_append_of_le_length (by simp [bytes]),
      List.take_append_of_le_length (by simp [bytes])]
  rw [ofBytes, front, back]
  exact ofBytes_bytes a

/-- Written addresses are read back. -/
theorem listOfBytes_flatMap_bytes (as : List Address) : listOfBytes (as.flatMap bytes) = as := by
  have width_pos : 0 < width := by decide
  induction as with
  | nil => rfl
  | cons a as ih =>
    rw [listOfBytes, length_flatMap_bytes, Nat.mul_div_cancel_left _ width_pos] at ih ⊢
    rw [List.length_cons, List.range_succ_eq_map, List.map_cons, List.map_map, List.flatMap_cons]
    have rest : (fun i => ofBytes ((a.bytes ++ as.flatMap bytes).drop (width * i))) ∘ Nat.succ =
        fun i => ofBytes ((as.flatMap bytes).drop (width * i)) := by
      funext i
      have hdrop : width * i.succ = a.bytes.length + width * i := by
        rw [length_bytes, Nat.mul_succ, Nat.add_comm]
      rw [Function.comp_apply, hdrop, List.drop_length_add_append]
    rw [rest, ih, Nat.mul_zero, List.drop_zero, ofBytes_append]

end Address

/-! ### The sorted addresses of batches -/

namespace Template

/-- The row is null in a column. -/
def isNullAt (t : Template) (batches : List (List Column)) (slot : Nat) (a : Address) : Bool :=
  t.fields[slot]?.any fun f => (cell batches slot f.type a).isNone

/-- The row is null in the first key. -/
def hasNullKey (t : Template) (batches : List (List Column)) (a : Address) : Bool :=
  t.keys.head?.any fun slot => t.isNullAt batches slot a

/-- The addresses of all rows as an index engine sorts them. -/
def sortedAddresses (t : Template) (batches : List (List Column)) : List Address :=
  t.policy.nullOrder.arrange ((addresses batches).filter (t.hasNullKey batches))
    (t.sortRows batches ((addresses batches).filter fun a => !t.hasNullKey batches a))

/-- The addresses are those of the rows of batches, sorted as the template says. -/
structure IsSorted (t : Template) (batches : List (List Column)) (rows : List Address) : Prop where
  nodup : rows.Nodup
  mem_iff : ∀ a, a ∈ rows ↔ HasRow batches a
  /-- The rows with a null in the first key are together on the side of the null order and in order
  of arrival; the others are in the order of rows, and those that tie in order of arrival. -/
  regions : ∃ nulls values, rows = t.policy.nullOrder.arrange nulls values ∧
    (∀ a ∈ nulls, t.hasNullKey batches a) ∧ (∀ a ∈ values, ¬t.hasNullKey batches a) ∧
    (nulls.Pairwise fun a b => a.order b = .lt) ∧
    values.Pairwise fun a b =>
      t.rowOrder batches a b ≠ .gt ∧ (t.rowOrder batches a b = .eq → a.order b = .lt)

variable {t : Template} {batches : List (List Column)}

theorem perm_sortedAddresses (t : Template) (batches : List (List Column)) :
    (t.sortedAddresses batches).Perm (addresses batches) :=
  (NullOrder.arrange_perm.trans ((List.Perm.refl _).append (List.mergeSort_perm _ _))).trans
    (List.filter_append_perm _ _)

theorem isSorted_sortedAddresses (h : Addressable batches) :
    t.IsSorted batches (t.sortedAddresses batches) where
  nodup := by
    refine (perm_sortedAddresses t batches).nodup_iff.2 ((pairwise_addresses h).imp ?_)
    rintro a b hab rfl
    simp [Address.order] at hab
  mem_iff a := (perm_sortedAddresses t batches).mem_iff.trans (mem_addresses h)
  regions := by
    refine ⟨_, _, rfl, fun a ha => (List.mem_filter.1 ha).2, fun a ha => ?_,
      (pairwise_addresses h).filter _, ?_⟩
    · have := (List.mem_filter.1 (List.mem_mergeSort.1 ha)).2
      simpa using this
    · refine (pairwise_mergeSort_of_pairwise ne_gt_trans (ne_gt_total _)
        ((pairwise_addresses h).filter _)).imp fun {a b} hab =>
          ⟨by simpa using hab.1, fun htie => ?_⟩
      refine hab.2 ?_
      have hswap : t.rowOrder batches b a = (t.rowOrder batches a b).swap :=
        Std.OrientedCmp.eq_swap
      rw [hswap, htie]
      rfl

end Template

/-! ### What an index engine holds -/

namespace IndexSorter

variable {kernel : LoadedKernel} {held : List (List Column)} {columns : List Column}

/-- The engine of a kernel with batches in its buffers. -/
def holding (kernel : LoadedKernel) (held : List (List Column)) : IndexSorter where
  kernel := kernel
  order := ⟨kernel.template.comparator.slots, kernel.template.policy.nullOrder,
    kernel.template.policy.direction⟩
  phase := .accumulating (kernel.template.buffers held)
    (held.map fun columns => .ofNat (rowCount columns)).toArray
  totalRows := Input.totalRows held
  nullsTotal := (held.map fun columns => nullCount columns kernel.template.partitionSlot).sum

theorem phase_holding : (holding kernel held).phase = .accumulating (kernel.template.buffers held)
    (held.map fun columns => .ofNat (rowCount columns)).toArray := rfl

theorem totalRows_holding : (holding kernel held).totalRows = Input.totalRows held := rfl

theorem make_eq_holding (hs : kernel.template.strategy = .indexed) :
    make kernel kernel.template.policy.nullOrder kernel.template.policy.direction =
      .ok (holding kernel []) := by
  rw [make, hs]
  simp only [ne_eq, not_true_eq_false, if_false]
  rw [holding, Template.buffers_nil]
  rfl

theorem holding_append (kernel : LoadedKernel) (held : List (List Column)) (columns : List Column) :
    holding kernel (held ++ [columns]) = { holding kernel held with
      phase := .accumulating (kernel.template.buffers (held ++ [columns]))
        ((held.map fun columns => .ofNat (rowCount columns)).toArray.push
          (.ofNat (rowCount columns)))
      totalRows := (holding kernel held).totalRows + rowCount columns
      nullsTotal := (holding kernel held).nullsTotal +
        nullCount columns kernel.template.partitionSlot } := by
  simp [holding, Input.totalRows]

/-- A batch that fits is held, unless it has no rows. -/
theorem evaluate_holding (hv : kernel.template.Valid) (hfit : kernel.template.Fits columns)
    (hroom : rowCount columns ≠ 0 → held.length < 2 ^ 32 - 1) :
    (holding kernel held).evaluate columns =
      (.ok (), holding kernel (held ++ arrived [columns])) := by
  have hcheck : (holding kernel held).template.checkColumns columns = .ok (rowCount columns) :=
    Template.checkColumns_eq_ok_iff.2 ⟨hfit, rfl⟩
  obtain ⟨partition, hpartition, -⟩ :=
    hfit.getElem? (List.getElem?_eq_getElem hv.partitionSlot_lt)
  have hpush := Template.pushAll_buffers held hfit
  have hnulls : nullCount columns kernel.template.partitionSlot = partition.nullCount := by
    rw [nullCount, hpartition]
    rfl
  by_cases hrows : rowCount columns = 0
  · have hnone : arrived [columns] = [] := by simp [arrived, hrows]
    rw [hnone, List.append_nil, evaluate, hcheck, hrows]
    rfl
  · have hone : arrived [columns] = [columns] := by simp [arrived, hrows]
    have hsize : (held.map fun columns => UInt32.ofNat (rowCount columns)).toArray.size <
        2 ^ 32 - 1 := by
      rw [List.size_toArray, List.length_map]
      exact hroom hrows
    have hslot : columns[(holding kernel held).template.partitionSlot]? = some partition :=
      hpartition
    obtain ⟨rows, hsucc⟩ := Nat.exists_eq_succ_of_ne_zero hrows
    rw [hone, holding_append, hnulls, hsucc]
    simp only [evaluate, phase_holding, hcheck, hsucc, if_pos hsize, hpush, hslot]

/-- A batch with rows that can no longer be numbered is refused. -/
theorem evaluate_full (hfit : kernel.template.Fits columns) (hrows : rowCount columns ≠ 0)
    (hfull : ¬held.length < 2 ^ 32 - 1) : (holding kernel held).evaluate columns =
      (.error (.misuse .batchCount), holding kernel held) := by
  have hcheck : (holding kernel held).template.checkColumns columns = .ok (rowCount columns) :=
    Template.checkColumns_eq_ok_iff.2 ⟨hfit, rfl⟩
  have hsize : ¬(held.map fun columns => UInt32.ofNat (rowCount columns)).toArray.size <
      2 ^ 32 - 1 := by
    rwa [List.size_toArray, List.length_map]
  obtain ⟨rows, hsucc⟩ := Nat.exists_eq_succ_of_ne_zero hrows
  simp only [evaluate, phase_holding, hcheck, hsucc, if_neg hsize]

theorem evaluate_eq_ok_iff (hv : kernel.template.Valid) {s : IndexSorter} :
    (holding kernel held).evaluate columns = (.ok (), s) ↔
      kernel.template.Fits columns ∧ (rowCount columns ≠ 0 → held.length < 2 ^ 32 - 1) ∧
        s = holding kernel (held ++ arrived [columns]) := by
  constructor
  · intro h
    have hfit : kernel.template.Fits columns := by
      cases hcheck : (holding kernel held).template.checkColumns columns with
      | ok rows => exact (Template.checkColumns_eq_ok_iff.1 hcheck).1
      | error e =>
        rw [evaluate, hcheck] at h
        cases h
    have hroom : rowCount columns ≠ 0 → held.length < 2 ^ 32 - 1 := by
      intro hrows
      by_contra hfull
      rw [evaluate_full hfit hrows hfull] at h
      cases h
    rw [evaluate_holding hv hfit hroom] at h
    cases h
    exact ⟨hfit, hroom, rfl⟩
  · rintro ⟨hfit, hroom, rfl⟩
    exact evaluate_holding hv hfit hroom

theorem buffers_holding (hv : kernel.template.Valid) :
    Sorter.Buffers kernel.template (· < 2 ^ 32 - 1) fun held => .indexed (holding kernel held) := by
  intro held columns s
  rw [Sorter.evaluate, Prod.mk.injEq]
  constructor
  · rintro ⟨hanswer, rfl⟩
    obtain ⟨hfit, hroom, hs⟩ := (evaluate_eq_ok_iff hv).1 (Prod.ext hanswer rfl)
    exact ⟨hfit, hroom, congrArg Sorter.indexed hs⟩
  · rintro ⟨hfit, hroom, rfl⟩
    rw [evaluate_holding hv hfit hroom]
    exact ⟨rfl, rfl⟩

/-! ### The addresses that it sorts -/

theorem arrivals_eq_addresses (h : Addressable held) :
    arrivals (held.map fun columns => .ofNat (rowCount columns)).toArray = addresses held := by
  rw [arrivals, addresses, List.toList_toArray, List.zipIdx_map, List.flatMap_map]
  refine List.flatMap_congr fun item hm => ?_
  obtain ⟨columns, batch⟩ := item
  have hrows := toNat_ofNat_of_lt
    (h.rows_lt columns (List.mem_of_getElem? (getElem?_of_mem_zipIdx hm)))
  show (List.range (UInt32.ofNat (rowCount columns)).toNat).map _ = _
  rw [hrows]
  rfl

variable {t : Template}

theorem hasNullKey_eq_isNone (hv : t.Valid) {f : FieldSlot}
    (hf : t.fields[t.partitionSlot]? = some f) (a : Address) :
    t.hasNullKey held a = (cell held t.partitionSlot f.type a).isNone := by
  rw [Template.hasNullKey, hv.partition, Option.any_some, Template.isNullAt, hf, Option.any_some]

theorem countP_hasNullKey (hv : t.Valid) (hfit : ∀ columns ∈ held, t.Fits columns)
    (hb : Addressable held) : (addresses held).countP (t.hasNullKey held) =
      (held.map fun columns => nullCount columns t.partitionSlot).sum := by
  have hf := List.getElem?_eq_getElem hv.partitionSlot_lt
  rw [← countP_columnCells fun columns hm => (hfit columns hm).nullCount_cells hf,
    ← map_cell_addresses hb fun columns hm => (hfit columns hm).size_cells hf, List.countP_map]
  exact List.countP_congr fun a _ => by rw [hasNullKey_eq_isNone hv hf, Function.comp_apply]

/-- Sorting the rows with a value, in either way, is sorting by the order of rows. -/
theorem sortValid?_holding (hv : kernel.template.Valid)
    (hfit : ∀ columns ∈ held, kernel.template.Fits columns) (rows : List Address)
    (hrows : ∀ a ∈ rows, HasRow held a)
    (hvalues : ∀ a ∈ rows, kernel.template.hasNullKey held a = false) :
    (holding kernel held).sortValid? (kernel.template.buffers held) rows =
      some (kernel.template.sortRows held rows) := by
  have compared := Template.sort?_buffers hv hfit hrows
  have htemplate : (holding kernel held).template = kernel.template := rfl
  rw [sortValid?, htemplate]
  cases hcall : kernel.template.sortCall with
  | comparison => exact compared
  | radix slot =>
    obtain ⟨hkeys, hascending, f, hf, hfixed⟩ := hv.sortCall slot hcall
    obtain rfl : slot = kernel.template.partitionSlot := by
      have := hv.partition
      rw [hkeys] at this
      simpa using this
    have hsome : ∀ a ∈ rows,
        (cell held kernel.template.partitionSlot f.type a).isSome := fun a ha => by
      have := hvalues a ha
      rw [hasNullKey_eq_isNone hv hf] at this
      simpa using this
    have radix := Template.radixSort?_buffers hfit hkeys hascending hf hfixed hrows hsome
    simp only [Template.getElem?_buffers, hf, Option.map_some, Option.bind_eq_bind,
      Option.bind_some, radix]
    rfl

theorem sortedAddresses?_holding (hv : kernel.template.Valid)
    (hfit : ∀ columns ∈ held, kernel.template.Fits columns) (hb : Addressable held) :
    (holding kernel held).sortedAddresses? (kernel.template.buffers held)
        (held.map fun columns => .ofNat (rowCount columns)).toArray =
      some (kernel.template.sortedAddresses held).toArray := by
  have hf := List.getElem?_eq_getElem hv.partitionSlot_lt
  have hnull : ∀ a ∈ addresses held,
      (buffer held kernel.template.partitionSlot _).isNull? a =
        some (kernel.template.hasNullKey held a) := fun a ha => by
    rw [hasNullKey_eq_isNone hv hf]
    exact isNull?_buffer (fun columns hm => (hfit columns hm).size_cells hf)
      ((mem_addresses hb).1 ha)
  have placed := place?_ofNullOrder kernel.template.policy.nullOrder hnull
  have sorted := sortValid?_holding hv hfit
    ((addresses held).filter fun a => !kernel.template.hasNullKey held a)
    (fun a ha => (mem_addresses hb).1 (List.mem_of_mem_filter ha))
    (fun a ha => by simpa using (List.mem_filter.1 ha).2)
  have count : ((addresses held).filter (kernel.template.hasNullKey held)).length +
      ((addresses held).filter fun a => !kernel.template.hasNullKey held a).length =
        (addresses held).length := by
    rw [← List.length_append]
    exact (List.filter_append_perm _ _).length_eq
  have arranged := sortRange?_arrange kernel.template.policy.nullOrder
    ((addresses held).filter (kernel.template.hasNullKey held)) sorted
  rw [count, ← List.countP_eq_length_filter] at arranged
  rw [countP_hasNullKey hv hfit hb, length_addresses, ← hv.placement] at placed arranged
  rw [sortedAddresses?, arrivals_eq_addresses hb]
  show (do
    let partition ← (kernel.template.buffers held)[kernel.template.partitionSlot]?
    let placed ← place? partition _ _ _ _
    sortRange? _ _ placed) = _
  rw [Template.getElem?_buffers, hf]
  exact (congrArg (Option.bind · _) placed).trans arranged

/-- What an index engine makes of the batches that it holds. -/
def result (kernel : LoadedKernel) (held : List (List Column)) (reservation : Nat) : SortedResult :=
  ⟨.addresses (kernel.template.buffers held) (kernel.template.sortedAddresses held).toArray,
    reservation⟩

/-- With its bytes reserved an index engine sorts what it holds. -/
theorem finalize_of_reserve (hv : kernel.template.Valid)
    (hfit : ∀ columns ∈ held, kernel.template.Fits columns) (hb : Addressable held)
    {b b' : Budget} {reservation : Nat} (hreserve : b.reserve
      (Input.totalRows held * Address.width) "sort_indices" = .ok (reservation, b')) :
    (holding kernel held).finalize b = (.ok (result kernel held reservation),
      { holding kernel held with phase := .finalized (result kernel held reservation) }, b') := by
  simp only [finalize, phase_holding, totalRows_holding, hreserve,
    sortedAddresses?_holding hv hfit hb, result]

/-- An index engine that the budget admits sorts what it holds. -/
theorem finalize_holding (hv : kernel.template.Valid)
    (hfit : ∀ columns ∈ held, kernel.template.Fits columns) (hb : Addressable held) {b : Budget}
    (hbudget : b.ledger.used.toNat + Input.totalRows held * Address.width ≤
      b.ledger.capacity.toNat) :
    ∃ reservation b', (holding kernel held).finalize b = (.ok (result kernel held reservation),
      { holding kernel held with phase := .finalized (result kernel held reservation) }, b') := by
  obtain ⟨reservation, b', hreserve⟩ := Budget.exists_reserve "sort_indices" hbudget
  exact ⟨reservation, b', finalize_of_reserve hv hfit hb hreserve⟩

end IndexSorter

/-! ### The index engine sorts -/

namespace Sorter

variable {kernel : LoadedKernel} {sorter fed : Sorter} {batches : List (List Column)}

theorem ofKernel_indexed (hs : kernel.template.strategy = .indexed) :
    ofKernel kernel = .ok (.indexed (.holding kernel [])) := by
  rw [ofKernel, hs]
  simp only
  rw [IndexSorter.make_eq_holding hs]
  rfl

/-- An index engine takes every run of batches that fit, as long as it can number them. -/
theorem feed_indexed_eq_ok_iff (hv : kernel.template.Valid) :
    (indexed (.holding kernel [])).feed batches = .ok fed ↔
      (∀ columns ∈ batches, kernel.template.Fits columns) ∧ (arrived batches).length < 2 ^ 32 ∧
        fed = .indexed (.holding kernel (arrived batches)) := by
  rw [feed_eq_ok_iff [] (IndexSorter.buffers_holding hv)]
  simp only [List.length_nil, Nat.zero_le, Nat.zero_add, true_implies, List.nil_append]
  constructor
  · rintro ⟨hfit, hroom, rfl⟩
    refine ⟨hfit, ?_, rfl⟩
    by_contra hmany
    have := hroom ((arrived batches).length - 1) (by omega)
    omega
  · rintro ⟨hfit, hlt, rfl⟩
    exact ⟨hfit, fun n hn => by omega, rfl⟩

theorem fits_arrived {t : Template} (hfit : ∀ columns ∈ batches, t.Fits columns) :
    ∀ columns ∈ arrived batches, t.Fits columns := fun columns hm =>
  hfit columns (List.mem_of_mem_filter hm)

theorem addressable_arrived {t : Template} (hfit : ∀ columns ∈ batches, t.Fits columns)
    (hlt : (arrived batches).length < 2 ^ 32) : Addressable (arrived batches) :=
  ⟨hlt, fun columns hm => (fits_arrived hfit columns hm).rows_lt⟩

/-- The index engine sorts: of a valid template, after any run of accepted batches, and under a
budget that admits the addresses, it answers with the written addresses of all rows of the batches,
sorted as the template says. -/
theorem finish_indexed (hv : kernel.template.validate = .ok ())
    (hs : kernel.template.strategy = .indexed) (hmake : ofKernel kernel = .ok sorter)
    (hfeed : sorter.feed batches = .ok fed) {b : Budget}
    (hbudget : b.ledger.used.toNat + Input.totalRows (arrived batches) * Address.width ≤
      b.ledger.capacity.toNat) :
    ∃ bs after b', fed.finish b = (.ok (some bs), after, b') ∧
      bs.length = Address.width * Input.totalRows (arrived batches) ∧
      kernel.template.IsSorted (arrived batches) (Address.listOfBytes bs) := by
  rw [Template.validate_eq_ok_iff] at hv
  rw [ofKernel_indexed hs, Except.ok.injEq] at hmake
  subst hmake
  obtain ⟨hfit, hlt, rfl⟩ := (feed_indexed_eq_ok_iff hv).1 hfeed
  have hb := addressable_arrived hfit hlt
  obtain ⟨reservation, b', hfinal⟩ :=
    IndexSorter.finalize_holding hv (fits_arrived hfit) hb hbudget
  refine ⟨(kernel.template.sortedAddresses (arrived batches)).flatMap Address.bytes,
    .indexed { IndexSorter.holding kernel (arrived batches) with
      phase := .finalized (IndexSorter.result kernel (arrived batches) reservation) },
    b', ?_, ?_, ?_⟩
  · rw [finish, finalize, hfinal]
    rfl
  · rw [Address.length_flatMap_bytes,
      (Template.perm_sortedAddresses kernel.template (arrived batches)).length_eq,
      length_addresses]
  · rw [Address.listOfBytes_flatMap_bytes]
    exact Template.isSorted_sortedAddresses hb

/-- A kernel that sorts a column of small numbers downwards, with nulls at the end. -/
def downwardKernel : LoadedKernel where
  signature := "downward"
  template := {
    revision := Template.currentRevision
    strategy := .indexed
    policy := ⟨.last, .descending⟩
    batchSize := 2
    fields := [.ofColumn 0 "k" .int8]
    keys := [0]
    partitionSlot := 0
    comparator := .ofKeys 0 [] .descending
    placement := .ofNullOrder .last
    sortCall := .comparison }
  artifact := ⟨"downward.kernel"⟩

/-- Two batches of small numbers with an empty one between them. -/
def smallBatches : List (List Column) :=
  [[.ofArray (.column .int8) #[some 3#8, none]], [.ofArray (.column .int8) #[]],
    [.ofArray (.column .int8) #[some 7#8]]]

theorem finish_downward :
    ∃ bs after b',
      (indexed (.holding downwardKernel (arrived smallBatches))).finish (.ofCapacity 24) =
        (.ok (some bs), after, b') ∧
      bs.length = Address.width * Input.totalRows (arrived smallBatches) ∧
      downwardKernel.template.IsSorted (arrived smallBatches) (Address.listOfBytes bs) :=
  have feeds : (indexed (.holding downwardKernel [])).feed smallBatches =
      .ok (indexed (.holding downwardKernel (arrived smallBatches))) := rfl
  finish_indexed (by decide) rfl (ofKernel_indexed rfl) feeds (by decide)

end Sorter

end Collate
