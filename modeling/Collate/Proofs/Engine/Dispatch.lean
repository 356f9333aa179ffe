import Collate.Proofs.Engine.Bisimulation
import Collate.Proofs.Engine.Delivery

/-!
# Radix sorts and comparison sorts

A template that asks for a radix sort can as well ask for a comparison sort.  Sorters of two kernels
that differ only in this make the same of what they hold (`Sorter.Filled.sortedRows?_withKernel`),
so one with the other kernel in its place takes every step alike (`Sorter.bisimulation_recalled`),
and no run of a context tells them apart (`SortContext.sort_calls_cannot_be_told_apart`).
-/

namespace Collate

open Input

/-! ### Sorters of another kernel -/

/-- The engine with another kernel. -/
def IndexSorter.withKernel (s : IndexSorter) (kernel : LoadedKernel) : IndexSorter :=
  { s with kernel }

/-- The engine with another kernel. -/
def InPlaceSorter.withKernel (s : InPlaceSorter) (kernel : LoadedKernel) : InPlaceSorter :=
  { s with kernel }

variable {kernel kernel' : LoadedKernel} {call : SortCall} {held : List (List Column)}

theorem IndexSorter.evaluate_withKernel {s : IndexSorter}
    (ht : kernel'.template = { s.template with sortCall := call }) (columns : List Column) :
    (s.withKernel kernel').evaluate columns =
      ((s.evaluate columns).1, (s.evaluate columns).2.withKernel kernel') := by
  have hcheck : kernel'.template.checkColumns columns = s.template.checkColumns columns := by
    rw [ht]
    rfl
  have hslot : kernel'.template.partitionSlot = s.template.partitionSlot := by rw [ht]
  have htemplate : (s.withKernel kernel').template = kernel'.template := rfl
  have hphase : (s.withKernel kernel').phase = s.phase := rfl
  unfold evaluate
  rw [htemplate, hphase, hcheck, hslot]
  repeat' split
  all_goals rfl

theorem InPlaceSorter.evaluate_withKernel {s : InPlaceSorter}
    (ht : kernel'.template = { s.template with sortCall := call }) (columns : List Column) :
    (s.withKernel kernel').evaluate columns =
      ((s.evaluate columns).1, (s.evaluate columns).2.withKernel kernel') := by
  have hcheck : kernel'.template.checkColumns columns = s.template.checkColumns columns := by
    rw [ht]
    rfl
  have htemplate : (s.withKernel kernel').template = kernel'.template := rfl
  unfold evaluate
  rw [htemplate, hcheck]
  obtain ⟨_, _, _, type, _, _, phase, _, _⟩ := s
  cases phase with
  | finalized result => rfl
  | accumulating batches =>
    rcases (template _).checkColumns columns with e | _ | rows
    · rfl
    · rfl
    · cases columns with
      | nil => rfl
      | cons c rest =>
        by_cases htype : c.type = .column type
        · simp only [dif_pos htype]
          exact dif_pos htype
        · simp only [dif_neg htype]
          exact dif_neg htype

theorem IndexSorter.withKernel_holding
    (ht : kernel'.template = { kernel.template with sortCall := call })
    (held : List (List Column)) :
    (holding kernel held).withKernel kernel' = holding kernel' held := by
  unfold withKernel holding
  rw [ht]
  rfl

theorem InPlaceSorter.withKernel_holding {type : ColumnType} {format : NumberFormat}
    (ht : kernel'.template = { kernel.template with sortCall := call })
    (isNumber : type.layout = .number format) (held : List (List Column)) :
    (holding kernel isNumber held).withKernel kernel' = holding kernel' isNumber held := by
  unfold withKernel holding
  rw [ht]

/-- Values are sorted alike, whichever way the templates ask for. -/
theorem InPlaceSorter.sortedRun?_withKernel {type : ColumnType} {format : NumberFormat}
    (ht : kernel'.template = { kernel.template with sortCall := call })
    (hv : kernel.template.Valid) (hv' : kernel'.template.Valid)
    (isNumber : type.layout = .number format) (batches : Array (Array (Option format.Word))) :
    (holding kernel' isNumber held).sortedRun? batches =
      (holding kernel isNumber held).sortedRun? batches := by
  rw [sortedRun?_eq isNumber hv', sortedRun?_eq isNumber hv, ht]
  rfl

namespace Sorter

variable {s : Sorter}

/-- The sorter with another kernel. -/
def withKernel : Sorter → LoadedKernel → Sorter
  | indexed s, kernel => indexed (s.withKernel kernel)
  | inPlace s, kernel => inPlace (s.withKernel kernel)

theorem template_withKernel (s : Sorter) (kernel : LoadedKernel) :
    (s.withKernel kernel).template = kernel.template := by
  cases s <;> rfl

theorem result?_withKernel (s : Sorter) (kernel : LoadedKernel) :
    (s.withKernel kernel).result? = s.result? := by
  cases s with
  | indexed s => rfl
  | inPlace s =>
    obtain ⟨_, _, _, _, _, _, phase, _, _⟩ := s
    cases phase <;> rfl

theorem withKernel_done (s : Sorter) (result : SortedResult) (kernel : LoadedKernel) :
    (s.done result).withKernel kernel = (s.withKernel kernel).done result := by
  cases s <;> rfl

theorem bytes_withKernel (s : Sorter) (kernel : LoadedKernel) :
    (s.withKernel kernel).bytes = s.bytes ∧ (s.withKernel kernel).tag = s.tag := by
  cases s <;> exact ⟨rfl, rfl⟩

theorem evaluate_withKernel (ht : kernel'.template = { s.template with sortCall := call })
    (columns : List Column) : (s.withKernel kernel').evaluate columns =
      ((s.evaluate columns).1, (s.evaluate columns).2.withKernel kernel') := by
  cases s with
  | indexed s =>
    exact congrArg (fun x => (x.1, Sorter.indexed x.2)) (IndexSorter.evaluate_withKernel ht columns)
  | inPlace s =>
    exact congrArg (fun x => (x.1, Sorter.inPlace x.2))
      (InPlaceSorter.evaluate_withKernel ht columns)

/-- Rows are sorted alike, whichever way the templates ask for. -/
theorem Filled.sortedRows?_withKernel (h : Filled kernel held s) (hv : kernel.template.Valid)
    (hv' : kernel'.template.Valid) (hheld : kernel.template.Held held)
    (ht : kernel'.template = { kernel.template with sortCall := call }) :
    (s.withKernel kernel').sortedRows? = s.sortedRows? := by
  have hheld' : kernel'.template.Held held := hheld.of_eq (by rw [ht]) (by rw [ht])
  cases h with
  | indexed hs =>
    have hs' : kernel'.template.strategy = .indexed := by rw [ht, hs]
    have hrows : kernel'.template.sortedAddresses held = kernel.template.sortedAddresses held := by
      rw [ht]
      rfl
    have hbuffers : kernel'.template.buffers held = kernel.template.buffers held := by
      rw [ht]
      rfl
    have hsorted := IndexSorter.sortedAddresses?_holding hv' hheld'.fits (hheld'.addressable hs')
    rw [hrows, hbuffers] at hsorted
    rw [withKernel, IndexSorter.withKernel_holding ht]
    simp only [sortedRows?, IndexSorter.phase_holding, hbuffers, hsorted,
      IndexSorter.sortedAddresses?_holding hv hheld.fits (hheld.addressable hs)]
  | inPlace hs hfields isNumber =>
    rw [withKernel, InPlaceSorter.withKernel_holding ht]
    simp only [sortedRows?, InPlaceSorter.phase_holding]
    exact congrArg (Option.map _) (InPlaceSorter.sortedRun?_withKernel ht hv hv' isNumber _)

/-- A sorter comes to its result alike, whichever way the templates ask for. -/
theorem Holds.finalize_withKernel (h : Holds kernel held s) (hv' : kernel'.template.Valid)
    (ht : kernel'.template = { kernel.template with sortCall := call }) (b : Budget) :
    (s.withKernel kernel').finalize b =
      ((s.finalize b).1, (s.finalize b).2.1.withKernel kernel', (s.finalize b).2.2) := by
  obtain hfilled | ⟨filled, result, -, rfl, -⟩ := h.state
  · obtain ⟨rows, hrows, -⟩ := hfilled.exists_sortedRows h.valid h.batches
    have hrows' := (hfilled.sortedRows?_withKernel h.valid hv' h.batches ht).trans hrows
    obtain ⟨hbytes, htag⟩ := s.bytes_withKernel kernel'
    rw [finalize_of_sortedRows? hrows b, finalize_of_sortedRows? hrows' b, hbytes, htag]
    cases b.reserve s.bytes s.tag with
    | error e => rfl
    | ok reserved => simp only [withKernel_done]
  · rw [withKernel_done, finalize_done, finalize_done, withKernel_done]

/-- Kernels that differ only in the call for their sort make sorters that differ only in them. -/
theorem Filled.ofKernel_withKernel (h : Filled kernel [] s)
    (ht : kernel'.template = { kernel.template with sortCall := call }) :
    ofKernel kernel' = .ok (s.withKernel kernel') := by
  have hstrategy : kernel'.template.strategy = kernel.template.strategy := by rw [ht]
  have hfields' : kernel'.template.fields = kernel.template.fields := by rw [ht]
  cases h with
  | indexed hs =>
    rw [withKernel, IndexSorter.withKernel_holding ht, ofKernel_indexed (hstrategy.trans hs)]
  | inPlace hs hfields isNumber =>
    rw [withKernel, InPlaceSorter.withKernel_holding ht,
      ofKernel_inPlace (hstrategy.trans hs) (hfields'.trans hfields) isNumber]

/-! ### Sorters that cannot be told apart -/

/-- The same sorters, or sorters with the same batches of two kernels. -/
def Recalled (kernel kernel' : LoadedKernel) (s s' : Sorter) : Prop :=
  s = s' ∨ ∃ held, Holds kernel held s ∧ s' = s.withKernel kernel'

open SortContext in
/-- Kernels that differ only in the call for their sort cannot be told apart. -/
theorem bisimulation_recalled (hv' : kernel'.template.Valid)
    (ht : kernel'.template = { kernel.template with sortCall := call }) :
    Bisimulation (Recalled kernel kernel') where
  refl s := .inl rfl
  result? := by
    rintro s s' (rfl | ⟨held, -, rfl⟩)
    · rfl
    · exact (s.result?_withKernel kernel').symm
  evaluate columns := by
    rintro s s' b (rfl | ⟨held, h, rfl⟩)
    · exact ⟨rfl, .inl rfl, rfl⟩
    · have htemplate : kernel'.template = { s.template with sortCall := call } := h.template ▸ ht
      dsimp only
      rw [evaluate_withKernel htemplate]
      refine ⟨rfl, .inr ?_, rfl⟩
      obtain ⟨s₁, hs₁, hholds⟩ | ⟨e, hs₁, -⟩ := h.evaluate columns
      · exact ⟨_, by rw [hs₁]; exact hholds, rfl⟩
      · exact ⟨held, by rw [hs₁]; exact h, rfl⟩
  finish := by
    rintro s s' b (rfl | ⟨held, h, rfl⟩)
    · exact ⟨rfl, .inl rfl, rfl⟩
    · rw [Sorter.finish, Sorter.finish, h.finalize_withKernel hv' ht]
      refine ⟨rfl, .inr ⟨held, ?_, rfl⟩, rfl⟩
      exact h.of_finalize b
  openCursor schema := by
    rintro s s' b (rfl | ⟨held, h, rfl⟩)
    · exact ⟨rfl, .inl rfl, rfl⟩
    · have hschema : kernel'.template.checkSchema schema = kernel.template.checkSchema schema := by
        rw [ht]
        rfl
      have hsize : kernel'.template.batchSize = kernel.template.batchSize := by rw [ht]
      dsimp only
      rw [Sorter.openCursor, Sorter.openCursor, template_withKernel, h.template, hschema]
      cases kernel.template.checkSchema schema with
      | error e => exact ⟨rfl, .inr ⟨held, h, rfl⟩, rfl⟩
      | ok =>
        simp only [h.finalize_withKernel hv' ht, template_withKernel, hsize,
          (h.of_finalize b).template, true_and, and_true]
        exact .inr ⟨held, h.of_finalize b, rfl⟩

end Sorter

namespace SortContext

/-- Kernels that differ only in the call for their sort can be made in any context, and the contexts
cannot be told apart then. -/
theorem related_make (x₀ : SortContext) (hv : kernel.template.Valid) (hv' : kernel'.template.Valid)
    (ht : kernel'.template = { kernel.template with sortCall := call }) :
    ∃ x x', x₀.call (.make kernel) = (.made (.ok x₀.next), x) ∧
      x₀.call (.make kernel') = (.made (.ok x₀.next), x') ∧ x.Keeps x₀.next kernel [] ∧
      Related (Sorter.Recalled kernel kernel') x x' := by
  obtain ⟨s, hs, hfilled⟩ := Sorter.exists_filled hv
  have hs' := hfilled.ofKernel_withKernel ht
  have hholds := hfilled.holds hv
  have hrecalled : Sorter.Recalled kernel kernel' s (s.withKernel kernel') := .inr ⟨[], hholds, rfl⟩
  simp only [SortContext.call, SortContext.make, hs, hs']
  refine ⟨_, _, rfl, rfl, ⟨Nat.lt_succ_self x₀.next, s, ?_, hholds⟩,
    (Related.refl (Sorter.bisimulation_recalled hv' ht) x₀).insert_sorter x₀.next hrecalled
      x₀.budget (x₀.next + 1)⟩
  show (x₀.sorters.insert x₀.next s).get? x₀.next = _
  rw [Table.get?_insert, if_pos rfl]

/-- A radix sort cannot be told from a comparison sort.  Two kernels of valid templates that differ
only in the call for the sort can be made in any context; every run answers the same with the one as
with the other.  So once the budget admits the sorter, both answer with the same sorted order of the
rows that they have taken, and under every schema that declares their types and allows their nulls
both open a cursor that delivers the same batches, the rows in that order. -/
theorem sort_calls_cannot_be_told_apart (x₀ : SortContext) {kernel kernel' : LoadedKernel}
    {call : SortCall} (hv : kernel.template.validate = .ok ())
    (hv' : kernel'.template.validate = .ok ())
    (ht : kernel'.template = { kernel.template with sortCall := call }) :
    ∃ id x x', x₀.call (.make kernel) = (.made (.ok id), x) ∧
      x₀.call (.make kernel') = (.made (.ok id), x') ∧
      (∀ calls, x.steps calls = x'.steps calls) ∧
      ∀ before : List Call, .dropSorter id ∉ before → (x.after before).Admits id →
        let y := x.after before
        let y' := x'.after before
        let held := taken id (x.steps before)
        ∃ written, kernel.template.IsWritten held written ∧
          (y.call (.finish id)).1 = .finished (.ok written) ∧
          (y'.call (.finish id)).1 = .finished (.ok written) ∧
          ∀ schema, kernel.template.checkSchema schema = .ok () →
            Template.AllowsNulls schema held →
            ∃ out, kernel.template.Delivers held written schema out ∧
              ∃ cursor z z', y.call (.openCursor id schema) = (.opened (.ok cursor), z) ∧
                y'.call (.openCursor id schema) = (.opened (.ok cursor), z') ∧
                (∀ later, z.steps later = z'.steps later) ∧
                z.ReadsAs cursor (deliveredAnswer (totalRows held) out) := by
  rw [Template.validate_eq_ok_iff] at hv hv'
  have hR := Sorter.bisimulation_recalled hv' ht
  obtain ⟨x, x', hmake, hmake', hkeeps, hrel⟩ := related_make x₀ hv hv' ht
  refine ⟨x₀.next, x, x', hmake, hmake', fun calls => (hrel.run hR calls).1,
    fun before hbefore hadmits => ?_⟩
  intro y y' held
  have hy : y.Keeps x₀.next kernel held := hkeeps.after hbefore
  have hyy' : Related (Sorter.Recalled kernel kernel') y y' := (hrel.run hR before).2
  have hheld : kernel.template.Held held := hy.batches
  refine ⟨kernel.template.written held, hheld.isWritten_written, hy.finish hadmits,
    (hyy'.call hR _).1.symm.trans (hy.finish hadmits), fun schema hschema hnulls => ?_⟩
  obtain ⟨z, hopen, hreading⟩ := hy.openCursor hadmits hschema
  obtain ⟨hanswer, hzz'⟩ := hyy'.call hR (.openCursor x₀.next schema)
  rcases hopen' : y'.call (.openCursor x₀.next schema) with ⟨answer, z'⟩
  rw [hopen, hopen'] at hanswer hzz'
  obtain rfl : .opened (.ok y.next) = answer := hanswer
  refine ⟨kernel.template.output held schema, hheld.delivers_output hv hschema hnulls, y.next, z,
    z', hopen, rfl, fun later => (hzz'.run hR later).1, hreading.readsAs_delivered hnulls⟩

/-- A kernel that sorts small numbers upwards, nulls first. -/
def upwardKernel (sortCall : SortCall) : LoadedKernel where
  signature := "upward"
  template := {
    revision := Template.currentRevision
    strategy := .indexed
    policy := ⟨.first, .ascending⟩
    batchSize := 2
    fields := [.ofColumn 0 "k" .int8]
    keys := [0]
    partitionSlot := 0
    comparator := .ofKeys 0 [] .ascending
    placement := .ofNullOrder .first
    sortCall := sortCall }
  artifact := ⟨"upward.kernel"⟩

/-- The calls that feed a kernel three small batches. -/
def feedCalls : List Call := Sorter.smallBatches.map fun columns => .evaluate 0 columns

theorem upwardKernels_alike :
    ∃ x x', (ofCapacity 24).call (.make (upwardKernel .comparison)) = (.made (.ok 0), x) ∧
      (ofCapacity 24).call (.make (upwardKernel (.radix 0))) = (.made (.ok 0), x') ∧
      (∀ calls, x.steps calls = x'.steps calls) ∧
      ∃ written out cursor z z',
        (upwardKernel .comparison).template.IsWritten (arrived Sorter.smallBatches) written ∧
        ((x.after feedCalls).call (.finish 0)).1 = .finished (.ok written) ∧
        ((x'.after feedCalls).call (.finish 0)).1 = .finished (.ok written) ∧
        (upwardKernel .comparison).template.Delivers (arrived Sorter.smallBatches) written
          [⟨"k", .column .int8, true⟩] out ∧
        (x.after feedCalls).call (.openCursor 0 [⟨"k", .column .int8, true⟩]) =
          (.opened (.ok cursor), z) ∧
        (x'.after feedCalls).call (.openCursor 0 [⟨"k", .column .int8, true⟩]) =
          (.opened (.ok cursor), z') ∧
        (∀ later, z.steps later = z'.steps later) ∧
        z.ReadsAs cursor fun k => readAnswer 3 out[k]? := by
  have hvalid : (upwardKernel .comparison).template.validate = .ok () := by decide
  have hvalid' : (upwardKernel (.radix 0)).template.validate = .ok () := by decide
  obtain ⟨id, x, x', hmake, hmake', hsteps, hrun⟩ :=
    sort_calls_cannot_be_told_apart (ofCapacity 24) hvalid hvalid' rfl
  have hmade : (ofCapacity 24).call (.make (upwardKernel .comparison)) =
      (.made (.ok 0), ((ofCapacity 24).call (.make (upwardKernel .comparison))).2) := rfl
  rw [hmade] at hmake
  cases hmake
  have hadmits : (SortContext.after ((ofCapacity 24).call (.make (upwardKernel .comparison))).2
      feedCalls).Admits 0 :=
    admits_of_get?
      (s := .indexed (.holding (upwardKernel .comparison) (arrived Sorter.smallBatches)))
      rfl fun _ => by decide
  obtain ⟨written, hwritten, hfinish, hfinish', hopen⟩ := hrun feedCalls (by simp [feedCalls])
    hadmits
  obtain ⟨out, hdelivers, cursor, z, z', hz, hz', halike, hreads⟩ :=
    hopen [⟨"k", .column .int8, true⟩] rfl (Template.allowsNulls_of_nullable (by simp))
  have hcounts : (upwardKernel .comparison).template.CountsAll (arrived Sorter.smallBatches) :=
    Template.countsAll_of_numbers (List.forall_mem_singleton.2 ⟨.int8, rfl⟩)
  exact ⟨_, x', rfl, hmake', hsteps, written, out, cursor, z, z', hwritten, hfinish, hfinish',
    hdelivers, hz, hz', halike, hreads.of_counted (hdelivers.counted hcounts)⟩

end SortContext

end Collate
