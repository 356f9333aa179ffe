import Collate.Proofs.Engine.Bisimulation
import Collate.Proofs.Engine.Taking

/-!
# Calls that fail

A call that fails leaves its context as it is, so it could as well not have been made: without the
failed calls a run has the same answers and ends in the same context
(`SortContext.Good.steps_of_succeeded`).  Contexts that are the same answer alike (`Same.call`), and
the invariant `SortContext.Good` has it that a failed call changes nothing.
-/

namespace Collate

open Input

namespace SortContext

variable {x y : SortContext}

/-! ### Runs without their failed calls -/

/-- The call was answered without an error. -/
def succeeded (step : Call × Answer) : Bool := step.2.error?.isNone

theorem Good.same_of_failed (h : Good x) {c : Call} (hc : c.Valid)
    (hfailed : (x.call c).1.error? ≠ none) : Same (x.call c).2 x := by
  obtain ⟨hnone, -⟩ | ⟨e, -, -, hsame⟩ := h.call hc
  · exact absurd hnone hfailed
  · exact hsame

theorem Good.steps_of_succeeded (h : Good x) {calls : List Call}
    (hcalls : ∀ c ∈ calls, c.Valid) :
    x.steps (((x.steps calls).filter succeeded).map Prod.fst) = (x.steps calls).filter succeeded ∧
      Same (x.after (((x.steps calls).filter succeeded).map Prod.fst)) (x.after calls) := by
  induction calls generalizing x with
  | nil => exact ⟨rfl, Same.refl x⟩
  | cons c calls ih =>
    rw [List.forall_mem_cons] at hcalls
    obtain ⟨hsteps, hsame⟩ := ih (h.call_good hcalls.1) hcalls.2
    rw [steps, List.filter_cons]
    split_ifs with hsucceeded
    · refine ⟨?_, hsame⟩
      rw [List.map_cons, steps, hsteps]
    · -- The failed call has changed nothing, so the rest runs from here as it did from behind it.
      have hfailed : (x.call c).1.error? ≠ none := fun hnone => hsucceeded (by
        rw [succeeded, hnone]
        rfl)
      obtain ⟨hsteps', hsame'⟩ := (h.same_of_failed hcalls.1 hfailed).run
        ((((x.call c).2.steps calls).filter succeeded).map Prod.fst)
      exact ⟨hsteps'.symm.trans hsteps, hsame'.symm.trans hsame⟩

/-! ### Kernels that the budget refused -/

namespace Good

variable {id : Nat} {s : Sorter}

theorem exists_keeps (h : Good x) (hs : x.sorters.get? id = some s) :
    ∃ kernel held, x.Keeps id kernel held := by
  obtain ⟨kernel, held, hholds⟩ := h.sorters id s hs
  exact ⟨kernel, held, h.given id s hs, s, hs, hholds⟩

/-- A sorter without a result takes the batches that fit. -/
theorem evaluate_of_fits (h : Good x) (hs : x.sorters.get? id = some s) (hresult : s.result? = none)
    {columns : List Column} (hfit : s.template.Fits columns) (hroom : s.HasRoom) :
    (x.call (.evaluate id columns)).1 = .evaluated (.ok ()) := by
  obtain ⟨kernel, held, hholds⟩ := h.sorters id s hs
  have hfilled := hholds.filled hresult
  obtain ⟨s', hs', -⟩ := hfilled.evaluate_of_fits hholds.valid (hfilled.template ▸ hfit)
    fun hindexed _ => hfilled.lt_of_hasRoom hroom hindexed
  simp only [SortContext.call, SortContext.evaluate, SortContext.onSorter, hs, hs']

/-- A sorter that the budget refuses has no result. -/
theorem exists_of_refused (h : Good x) {c : Call}
    (hc : c = .finish id ∨ ∃ schema, c = .openCursor id schema) {e : BudgetError}
    (hrefused : (x.call c).1.error? = some (.budget e)) :
    ∃ s, x.sorters.get? id = some s ∧ s.result? = none := by
  cases hs : x.sorters.get? id with
  | none =>
    obtain rfl | ⟨schema, rfl⟩ := hc <;>
      simp [SortContext.call, SortContext.finish, SortContext.openCursor, SortContext.onSorter, hs,
        Answer.error?, errorOf?] at hrefused
  | some s =>
    refine ⟨s, rfl, ?_⟩
    obtain ⟨kernel, held, hholds⟩ := h.sorters id s hs
    obtain rfl | ⟨schema, rfl⟩ := hc
    · obtain ⟨s', b', hs', -⟩ | ⟨e, -, hresult, -⟩ := hholds.finish x.budget
      · simp [SortContext.call, SortContext.finish, SortContext.onSorter, hs, hs', Answer.error?,
          errorOf?] at hrefused
      · exact hresult
    · obtain ⟨result, s', b', hs', -⟩ | ⟨e', hs', -⟩ | ⟨e, -, hresult, -⟩ :=
        hholds.openCursor x.budget schema
      · simp [SortContext.call, SortContext.openCursor, SortContext.onSorter, hs, hs',
          Answer.error?, errorOf?] at hrefused
      · simp [SortContext.call, SortContext.openCursor, SortContext.onSorter, hs, hs',
          Answer.error?, errorOf?] at hrefused
      · exact hresult

end Good

/-! ### Failed calls leave no trace -/

/-- Failed calls leave no trace.  In every run with valid kernels a call that fails leaves the
context the same, so that without its failed calls the run has the same answers and ends in the same
context.  In particular a kernel that the budget has refused goes on: it takes the batches that fit,
and once the budget admits it, it finishes with the answer that it gives where the refused call was
not made. -/
theorem failed_calls_leave_no_trace (capacity : UInt64) {calls : List Call}
    (hcalls : ∀ c ∈ calls, c.Valid) :
    let x := (ofCapacity capacity).after calls
    let kept := ((ofCapacity capacity).steps calls).filter succeeded
    (∀ c : Call, c.Valid → (x.call c).1.error? ≠ none → Same (x.call c).2 x) ∧
      ((ofCapacity capacity).steps (kept.map Prod.fst) = kept ∧
        Same ((ofCapacity capacity).after (kept.map Prod.fst)) x) ∧
      ∀ id c e, (c = .finish id ∨ ∃ schema, c = .openCursor id schema) →
        (x.call c).1.error? = some (.budget e) →
        (∃ s, x.sorters.get? id = some s ∧ ∀ columns, s.template.Fits columns → s.HasRoom →
          ((x.call c).2.call (.evaluate id columns)).1 = .evaluated (.ok ())) ∧
        ∀ later : List Call, .dropSorter id ∉ later →
          ∃ s, ((x.call c).2.after later).sorters.get? id = some s ∧
            (s.AdmittedBy ((x.call c).2.after later).budget → ∃ written,
              (((x.call c).2.after later).call (.finish id)).1 = .finished (.ok written) ∧
              ((x.after later).call (.finish id)).1 = .finished (.ok written)) := by
  intro x kept
  have hx : Good x := (good_ofCapacity capacity).after hcalls
  refine ⟨fun c hc hfailed => hx.same_of_failed hc hfailed,
    (good_ofCapacity capacity).steps_of_succeeded hcalls, fun id c e hc hrefused => ?_⟩
  have hsame : Same (x.call c).2 x :=
    hx.same_of_failed (by obtain rfl | ⟨schema, rfl⟩ := hc <;> trivial)
      (by rw [hrefused]; exact Option.some_ne_none _)
  obtain ⟨s, hs, hresult⟩ := hx.exists_of_refused hc hrefused
  refine ⟨⟨s, hs, fun columns hfit hroom => ?_⟩, fun later hkept => ?_⟩
  · exact (hsame.call _).1.trans (hx.evaluate_of_fits hs hresult hfit hroom)
  · have hafter := (hsame.run later).2
    obtain ⟨kernel, held, hkeeps⟩ := (hsame.good hx).exists_keeps ((hsame.sorters id).trans hs)
    have hlast := hkeeps.after hkept
    obtain ⟨s', hs', -⟩ := hlast.2
    refine ⟨s', hs', fun hadmitted => ?_⟩
    have hwritten := hlast.finish fun s'' hs'' => by
      rw [hs', Option.some.injEq] at hs''
      exact hs'' ▸ hadmitted
    exact ⟨_, hwritten, (hafter.symm.call (.finish id)).1.trans hwritten⟩

/-- A kernel is made and fed: of four batches one has no column. -/
def refusedRun : List Call :=
  .make Sorter.downwardKernel :: .evaluate 0 [] ::
    Sorter.smallBatches.map fun columns => .evaluate 0 columns

/-- Under a budget of 16 bytes the three rows cannot be sorted, and the kernel goes on. -/
theorem refusedRun_leaves_no_trace :
    (((ofCapacity 16).after refusedRun).call (.finish 0)).1 =
        .finished (.error (.budget ⟨"sort_indices", 24, 16, 0⟩)) ∧
      Same (((ofCapacity 16).after refusedRun).call (.finish 0)).2
        ((ofCapacity 16).after refusedRun) ∧
      (ofCapacity 16).steps ((((ofCapacity 16).steps refusedRun).filter succeeded).map Prod.fst) =
        ((ofCapacity 16).steps refusedRun).filter succeeded :=
  have valid : ∀ c ∈ refusedRun, c.Valid := by
    simp only [refusedRun, Sorter.smallBatches, List.map_cons, List.map_nil, List.forall_mem_cons,
      Call.Valid, List.not_mem_nil, false_imp_iff, implies_true, and_true]
    decide
  have refused : (((ofCapacity 16).after refusedRun).call (.finish 0)).1 =
      .finished (.error (.budget ⟨"sort_indices", 24, 16, 0⟩)) := rfl
  have traceless := failed_calls_leave_no_trace 16 valid
  ⟨refused, traceless.1 (.finish 0) trivial (by rw [refused]; exact Option.some_ne_none _),
    traceless.2.1.1⟩

end SortContext

end Collate
