import Collate.Proofs.Engine.SortedRows

/-!
# What a sorter holds

`Sorter.Holds` is the invariant of the sorters of valid templates: a sorter holds batches with rows
that fit, and either has them in its buffers or is done with them and has the rows of their sort.
One lemma for each entry point says all that it can do to such a sorter: it answers and the sorter
holds what it should, or it refuses and the sorter stays as it is (`Holds.evaluate`,
`Holds.finalize`, `Holds.finish`, `Holds.openCursor`).
-/

namespace Collate

open Input

/-- Errors of an engine that has gone wrong: an access outside a buffer or a list, a buffer of
another type than its column, an engine that failed before. -/
def KernelError.IsFault : KernelError → Prop
  | .fault | .misuse .failed | .misuse (.bufferType ..) => True
  | _ => False

instance (e : KernelError) : Decidable e.IsFault := by
  unfold KernelError.IsFault
  split <;> infer_instance

namespace Template

variable {t : Template} {columns : List Column} {schema : List Field}

theorem checkColumn_error {rows : Nat} {f : FieldSlot} {c : Column} {e : Misuse}
    (h : checkColumn rows f c = .error e) : ¬(KernelError.misuse e).IsFault := by
  unfold checkColumn check at h
  split_ifs at h <;> simp only [bind, Except.bind, reduceCtorEq, Except.error.injEq] at h <;>
    subst h <;> exact id

/-- A batch that does not fit is refused by one of the checks. -/
theorem checkColumns_of_not_fits (hv : t.Valid) (h : ¬t.Fits columns) :
    ∃ e, t.checkColumns columns = .error (.misuse e) ∧ ¬(KernelError.misuse e).IsFault := by
  cases hcheck : t.checkColumns columns with
  | ok rows => exact absurd (checkColumns_eq_ok_iff.1 hcheck).1 h
  | error e =>
    unfold checkColumns at hcheck
    split_ifs at hcheck with hlen
    · cases hcheck
      exact ⟨_, rfl, id⟩
    · cases columns with
      | nil => exact absurd (List.length_eq_zero_iff.1 (not_not.1 hlen).symm) hv.fields
      | cons first rest =>
        dsimp only at hcheck
        split at hcheck
        · next e' hall =>
          cases hcheck
          obtain ⟨⟨f, c⟩, -, hc⟩ := exists_error_of_forM hall
          exact ⟨e', rfl, checkColumn_error hc⟩
        · split_ifs at hcheck
          cases hcheck
          exact ⟨_, rfl, id⟩

theorem checkSchema_error {e : Misuse} (h : t.checkSchema schema = .error e) :
    ¬(KernelError.misuse e).IsFault := by
  unfold checkSchema at h
  by_cases hlen : schema.length = t.fields.length
  · rw [check, if_pos hlen] at h
    obtain ⟨⟨slot, f⟩, -, hf⟩ := exists_error_of_forM h
    change check (f.type = .column slot.type) _ = _ at hf
    unfold check at hf
    split_ifs at hf
    cases hf
    exact id
  · rw [check, if_neg hlen] at h
    cases h
    exact id

theorem Held.append_arrived {batches : List (List Column)} (h : t.Held batches)
    (hfit : t.Fits columns)
    (hroom : t.strategy = .indexed → rowCount columns ≠ 0 → batches.length < 2 ^ 32 - 1) :
    t.Held (batches ++ arrived [columns]) where
  fits := by
    rw [List.forall_mem_append]
    exact ⟨h.fits, Sorter.fits_arrived fun _ hm => List.mem_singleton.1 hm ▸ hfit⟩
  room hs := by
    have hlt := h.room hs
    rw [List.length_append, Sorter.length_arrived_singleton]
    split_ifs with hrows
    · exact hlt
    · have := hroom hs hrows
      omega

end Template

/-! ### Sorters with batches in their buffers -/

namespace Sorter

variable {kernel : LoadedKernel} {held : List (List Column)} {columns : List Column} {s : Sorter}

/-- The bytes that sorting what is buffered takes. -/
def bytes : Sorter → Nat
  | indexed s => s.totalRows * Address.width
  | inPlace s => s.totalRows * s.format.width

/-- What the bytes are for. -/
def tag : Sorter → String
  | indexed _ => "sort_indices"
  | inPlace _ => "sort_values"

/-- The budget has room for what sorting takes, unless the sorter is done. -/
def AdmittedBy (s : Sorter) (b : Budget) : Prop :=
  s.result? = none → b.ledger.used.toNat + s.bytes ≤ b.ledger.capacity.toNat

/-- The sorter can number one more batch. -/
def HasRoom : Sorter → Prop
  | indexed s =>
    match s.phase with
    | .accumulating _ batchRows => batchRows.size < 2 ^ 32 - 1
    | _ => False
  | inPlace _ => True

/-- The sorter with a result. -/
def done (s : Sorter) (result : SortedResult) : Sorter :=
  match s with
  | indexed s => indexed { s with phase := .finalized result }
  | inPlace s => inPlace { s with phase := .finalized result }

/-- What sorting makes of the buffered batches; of a sorter that is done it makes nothing more. -/
def sortedRows? : Sorter → Option SortedRows
  | indexed s =>
    match s.phase with
    | .accumulating columns batchRows =>
      (s.sortedAddresses? columns batchRows).map (.addresses columns)
    | _ => none
  | inPlace s =>
    match s.phase with
    | .accumulating batches => (s.sortedRun? batches).map (.values s.type s.format s.isNumber)
    | _ => none

/-- A sorter with rows to sort has their bytes reserved and is done with them, or the budget refuses
the bytes and it stays as it is. -/
theorem finalize_of_sortedRows? {rows : SortedRows} (h : s.sortedRows? = some rows) (b : Budget) :
    s.finalize b = match b.reserve s.bytes s.tag with
      | .ok (reservation, b') => (.ok ⟨rows, reservation⟩, s.done ⟨rows, reservation⟩, b')
      | .error e => (.error (.budget e), s, b) := by
  cases s with
  | indexed s =>
    cases hphase : s.phase with
    | accumulating columns batchRows =>
      simp only [sortedRows?, hphase, Option.map_eq_some_iff] at h
      obtain ⟨as, has, rfl⟩ := h
      simp only [finalize, IndexSorter.finalize, hphase, bytes, tag, has]
      cases b.reserve (s.totalRows * Address.width) "sort_indices" <;> rfl
    | finalized result => simp [sortedRows?, hphase] at h
    | failed => simp [sortedRows?, hphase] at h
  | inPlace s =>
    cases hphase : s.phase with
    | accumulating batches =>
      simp only [sortedRows?, hphase, Option.map_eq_some_iff] at h
      obtain ⟨run, hrun, rfl⟩ := h
      simp only [finalize, InPlaceSorter.finalize, hphase, bytes, tag, hrun]
      cases b.reserve (s.totalRows * s.format.width) "sort_values" <;> rfl
    | finalized result => simp [sortedRows?, hphase] at h

/-- A sorter of a kernel with batches in its buffers. -/
inductive Filled (kernel : LoadedKernel) (held : List (List Column)) : Sorter → Prop
  | indexed (hs : kernel.template.strategy = .indexed) :
    Filled kernel held (.indexed (.holding kernel held))
  | inPlace {f : FieldSlot} {format : NumberFormat} (hs : kernel.template.strategy = .inPlace)
    (hfields : kernel.template.fields = [f]) (isNumber : f.type.layout = .number format) :
    Filled kernel held (.inPlace (.holding kernel isNumber held))

theorem exists_filled (hv : kernel.template.Valid) :
    ∃ s, ofKernel kernel = .ok s ∧ Filled kernel [] s := by
  cases hs : kernel.template.strategy with
  | indexed => exact ⟨_, ofKernel_indexed hs, .indexed hs⟩
  | inPlace =>
    obtain ⟨f, hfields, -, hnumbers⟩ := hv.strategy hs
    obtain ⟨format, isNumber⟩ := layout_of_supportsInPlace hnumbers
    exact ⟨_, ofKernel_inPlace hs hfields isNumber, .inPlace hs hfields isNumber⟩

namespace Filled

theorem template (h : Filled kernel held s) : s.template = kernel.template := by
  cases h <;> rfl

theorem result? (h : Filled kernel held s) : s.result? = none := by
  cases h <;> rfl

theorem lt_of_hasRoom (h : Filled kernel held s) (hroom : s.HasRoom)
    (hindexed : kernel.template.strategy = .indexed) : held.length < 2 ^ 32 - 1 := by
  cases h with
  | indexed hs =>
    have hsize : (held.map fun columns => UInt32.ofNat (rowCount columns)).toArray.size <
        2 ^ 32 - 1 := hroom
    rwa [List.size_toArray, List.length_map] at hsize
  | inPlace hs =>
    rw [hs] at hindexed
    cases hindexed

/-- A batch that fits goes into the buffers while there is room. -/
theorem evaluate_of_fits (h : Filled kernel held s) (hv : kernel.template.Valid)
    (hfit : kernel.template.Fits columns) (hroom : kernel.template.strategy = .indexed →
      rowCount columns ≠ 0 → held.length < 2 ^ 32 - 1) :
    ∃ s', s.evaluate columns = (.ok (), s') ∧ Filled kernel (held ++ arrived [columns]) s' := by
  cases h with
  | indexed hs =>
    exact ⟨_, congrArg (fun x => (x.1, Sorter.indexed x.2))
      (IndexSorter.evaluate_holding hv hfit (hroom hs)), .indexed hs⟩
  | inPlace hs hfields isNumber =>
    exact ⟨_, congrArg (fun x => (x.1, Sorter.inPlace x.2))
      (InPlaceSorter.evaluate_holding (by rw [hfields]; rfl) rfl hfit),
      .inPlace hs hfields isNumber⟩

theorem evaluate_of_checkColumns (h : Filled kernel held s) {e : KernelError}
    (hcheck : kernel.template.checkColumns columns = .error e) :
    s.evaluate columns = (.error e, s) := by
  cases h with
  | indexed hs =>
    have hcheck : (IndexSorter.holding kernel held).template.checkColumns columns = .error e :=
      hcheck
    rw [Sorter.evaluate, IndexSorter.evaluate, hcheck]
    rfl
  | inPlace hs hfields isNumber =>
    have hcheck : (InPlaceSorter.holding kernel isNumber held).template.checkColumns columns =
        .error e := hcheck
    rw [Sorter.evaluate, InPlaceSorter.evaluate, hcheck]
    rfl

/-- A batch goes into the buffers, or the sorter stays as it is. -/
theorem evaluate (h : Filled kernel held s) (hv : kernel.template.Valid)
    (hheld : kernel.template.Held held) (columns : List Column) :
    (∃ s', s.evaluate columns = (.ok (), s') ∧
        kernel.template.Held (held ++ arrived [columns]) ∧
        Filled kernel (held ++ arrived [columns]) s') ∨
      ∃ e, s.evaluate columns = (.error (.misuse e), s) ∧ ¬(KernelError.misuse e).IsFault := by
  by_cases hfit : kernel.template.Fits columns
  · by_cases hroom : kernel.template.strategy = .indexed → rowCount columns ≠ 0 →
        held.length < 2 ^ 32 - 1
    · obtain ⟨s', hs', hfilled⟩ := h.evaluate_of_fits hv hfit hroom
      exact .inl ⟨s', hs', hheld.append_arrived hfit hroom, hfilled⟩
    · simp only [Classical.not_imp] at hroom
      obtain ⟨hindexed, hrows, hfull⟩ := hroom
      refine .inr ⟨.batchCount, ?_, id⟩
      cases h with
      | indexed hs =>
        exact congrArg (fun x => (x.1, Sorter.indexed x.2))
          (IndexSorter.evaluate_full hfit hrows hfull)
      | inPlace hs => rw [hs] at hindexed; cases hindexed
  · obtain ⟨e, he, hfault⟩ := Template.checkColumns_of_not_fits hv hfit
    exact .inr ⟨e, h.evaluate_of_checkColumns he, hfault⟩

/-- Sorting makes the rows of the sort of what the sorter holds. -/
theorem exists_sortedRows (h : Filled kernel held s) (hv : kernel.template.Valid)
    (hheld : kernel.template.Held held) :
    ∃ rows, s.sortedRows? = some rows ∧ rows.Sorted kernel.template held := by
  cases h with
  | indexed hs =>
    refine ⟨_, ?_, IndexSorter.sorted_result hs hheld 0⟩
    simp only [sortedRows?, IndexSorter.phase_holding,
      IndexSorter.sortedAddresses?_holding hv hheld.fits (hheld.addressable hs)]
    rfl
  | @inPlace f format hs hfields isNumber =>
    have hf : kernel.template.fields[0]? = some f := by rw [hfields]; rfl
    obtain ⟨run, hrun, hcells⟩ := InPlaceSorter.sortedRun?_holding isNumber hv
      (fun columns hm => (hheld.fits columns hm).size_cells hf)
      (fun columns hm => (hheld.fits columns hm).nullCount_cells hf)
    refine ⟨_, ?_, InPlaceSorter.sorted_values hs hfields isNumber hheld hcells⟩
    simp only [sortedRows?, InPlaceSorter.phase_holding, hrun]
    rfl

/-- The sorter sorts what it holds, or the budget refuses the bytes and all stays as it is. -/
theorem finalize (h : Filled kernel held s) (hv : kernel.template.Valid)
    (hheld : kernel.template.Held held) (b : Budget) :
    (∃ result b', b.reserve s.bytes s.tag = .ok (result.reservation, b') ∧
        s.finalize b = (.ok result, s.done result, b') ∧
        result.rows.Sorted kernel.template held) ∨
      ∃ e, b.reserve s.bytes s.tag = .error e ∧ s.finalize b = (.error (.budget e), s, b) := by
  obtain ⟨rows, hrows, hsorted⟩ := h.exists_sortedRows hv hheld
  have hfinal := finalize_of_sortedRows? hrows b
  cases hreserve : b.reserve s.bytes s.tag with
  | error e => exact .inr ⟨e, rfl, by rw [hfinal, hreserve]⟩
  | ok reserved =>
    obtain ⟨reservation, b'⟩ := reserved
    exact .inl ⟨⟨rows, reservation⟩, b', rfl, by rw [hfinal, hreserve], hsorted⟩

end Filled

/-! ### Sorters that are done -/

variable {result : SortedResult}

theorem evaluate_done (s : Sorter) (result : SortedResult) (columns : List Column) :
    (s.done result).evaluate columns = (.error (.misuse .finalized), s.done result) := by
  cases s <;> rfl

theorem finalize_done (s : Sorter) (result : SortedResult) (b : Budget) :
    (s.done result).finalize b = (.ok result, s.done result, b) := by
  cases s <;> rfl

theorem result?_done (s : Sorter) (result : SortedResult) :
    (s.done result).result? = some result := by
  cases s <;> rfl

theorem template_done (s : Sorter) (result : SortedResult) :
    (s.done result).template = s.template := by
  cases s <;> rfl

/-! ### The invariant -/

/-- The sorter of a valid kernel holds batches: it has them in its buffers, or it is done with
them. -/
structure Holds (kernel : LoadedKernel) (held : List (List Column)) (s : Sorter) : Prop where
  valid : kernel.template.Valid
  batches : kernel.template.Held held
  state : Filled kernel held s ∨ ∃ filled result, Filled kernel held filled ∧
    s = filled.done result ∧ result.rows.Sorted kernel.template held

theorem Filled.holds (h : Filled kernel [] s) (hv : kernel.template.Valid) : Holds kernel [] s :=
  ⟨hv, ⟨List.forall_mem_nil _, fun _ => by decide⟩, .inl h⟩

theorem exists_holds (hv : kernel.template.Valid) :
    ∃ s, ofKernel kernel = .ok s ∧ Holds kernel [] s := by
  obtain ⟨s, hs, hfilled⟩ := exists_filled hv
  exact ⟨s, hs, hfilled.holds hv⟩

/-- A sorter that the budget admits has its bytes reserved. -/
theorem AdmittedBy.not_refused {b : Budget} {e : BudgetError} (h : s.AdmittedBy b)
    (hresult : s.result? = none) : b.reserve s.bytes s.tag ≠ .error e := by
  obtain ⟨reservation, b', hreserve⟩ := Budget.exists_reserve s.tag (h hresult)
  rw [hreserve]
  exact fun hrefused => by cases hrefused

namespace Holds

theorem template (h : Holds kernel held s) : s.template = kernel.template := by
  obtain hfilled | ⟨filled, result, hfilled, rfl, -⟩ := h.state
  · exact hfilled.template
  · rw [template_done, hfilled.template]

/-- A sorter without a result has its batches in its buffers. -/
theorem filled (h : Holds kernel held s) (hresult : s.result? = none) : Filled kernel held s := by
  obtain hfilled | ⟨filled, result, -, rfl, -⟩ := h.state
  · exact hfilled
  · rw [result?_done] at hresult
    cases hresult

/-- A batch is held, or the sorter stays as it is. -/
theorem evaluate (h : Holds kernel held s) (columns : List Column) :
    (∃ s', s.evaluate columns = (.ok (), s') ∧ Holds kernel (held ++ arrived [columns]) s') ∨
      ∃ e, s.evaluate columns = (.error (.misuse e), s) ∧ ¬(KernelError.misuse e).IsFault := by
  obtain hfilled | ⟨filled, result, -, rfl, -⟩ := h.state
  · obtain ⟨s', hs', hheld, hfilled'⟩ | hrefused := hfilled.evaluate h.valid h.batches columns
    · exact .inl ⟨s', hs', h.valid, hheld, .inl hfilled'⟩
    · exact .inr hrefused
  · exact .inr ⟨_, evaluate_done filled result columns, id⟩

/-- A sorter comes to the sort of what it holds, or the budget refuses the bytes and all stays as it
is. -/
theorem finalize (h : Holds kernel held s) (b : Budget) :
    (∃ result s' b', s.finalize b = (.ok result, s', b') ∧ Holds kernel held s' ∧
        s'.result? = some result ∧ result.rows.Sorted kernel.template held) ∨
      ∃ e, s.finalize b = (.error (.budget e), s, b) ∧ s.result? = none ∧
        b.reserve s.bytes s.tag = .error e := by
  obtain hfilled | ⟨filled, result, hfilled, rfl, hsorted⟩ := h.state
  · obtain ⟨result, b', -, hfinal, hsorted⟩ | ⟨e, hreserve, hrefused⟩ :=
      hfilled.finalize h.valid h.batches b
    · exact .inl ⟨result, s.done result, b', hfinal,
        ⟨h.valid, h.batches, .inr ⟨s, result, hfilled, rfl, hsorted⟩⟩, result?_done s result,
        hsorted⟩
    · exact .inr ⟨e, hrefused, hfilled.result?, hreserve⟩
  · exact .inl ⟨result, _, b, finalize_done filled result b, h, result?_done filled result, hsorted⟩

/-- A sorter that is asked for its result holds what it held. -/
theorem of_finalize (h : Holds kernel held s) (b : Budget) :
    Holds kernel held (s.finalize b).2.1 := by
  obtain ⟨result, s', b', hs, hholds, -⟩ | ⟨e, hs, -⟩ := h.finalize b
  · exact hs ▸ hholds
  · exact hs ▸ h

/-- A sorter answers with what the sort of its batches writes, or the budget refuses the bytes and
all stays as it is. -/
theorem finish (h : Holds kernel held s) (b : Budget) :
    (∃ s' b', s.finish b = (.ok (kernel.template.written held), s', b') ∧ Holds kernel held s') ∨
      ∃ e, s.finish b = (.error (.budget e), s, b) ∧ s.result? = none ∧
        b.reserve s.bytes s.tag = .error e := by
  unfold Sorter.finish
  obtain ⟨result, s', b', hfinal, hholds, -, hsorted⟩ | ⟨e, hrefused, hrest⟩ := h.finalize b
  · refine .inl ⟨s', b', ?_, hholds⟩
    rw [hfinal, ← hsorted.written]
    rfl
  · refine .inr ⟨e, ?_, hrest⟩
    rw [hrefused]
    rfl

/-- A sorter opens a cursor on the sort of its batches, or the schema does not declare its types or
the budget refuses the bytes, and all stays as it is. -/
theorem openCursor (h : Holds kernel held s) (b : Budget) (schema : List Field) :
    (∃ result s' b', s.openCursor b schema =
          (.ok (.ofResult schema result kernel.template.batchSize), s', b') ∧
        kernel.template.checkSchema schema = .ok () ∧ Holds kernel held s' ∧
        result.rows.Sorted kernel.template held) ∨
      (∃ e, s.openCursor b schema = (.error (.misuse e), s, b) ∧
        kernel.template.checkSchema schema = .error e) ∨
      ∃ e, s.openCursor b schema = (.error (.budget e), s, b) ∧ s.result? = none ∧
        b.reserve s.bytes s.tag = .error e := by
  rw [Sorter.openCursor, h.template]
  cases hschema : kernel.template.checkSchema schema with
  | error e => exact .inr (.inl ⟨e, rfl, rfl⟩)
  | ok =>
    obtain ⟨result, s', b', hfinal, hholds, -, hsorted⟩ | ⟨e, hrefused, hrest⟩ := h.finalize b
    · refine .inl ⟨result, s', b', ?_, rfl, hholds, hsorted⟩
      simp only [hfinal, hholds.template]
      rfl
    · refine .inr (.inr ⟨e, ?_, hrest⟩)
      simp only [hrefused]
      rfl

end Holds

end Sorter

end Collate
