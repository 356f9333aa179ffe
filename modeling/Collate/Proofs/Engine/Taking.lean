import Collate.Proofs.Engine.Calls

/-!
# What a sorter has taken

However the calls of a context are interleaved, a sorter holds the batches that it has taken, until
it is dropped (`SortContext.Keeps.after`): an induction on the run over one step lemma
(`SortContext.Keeps.call`).  So it answers with what the sort of these batches writes as soon as the
budget admits it (`SortContext.Keeps.finish`).
-/

namespace Collate

open Input

namespace SortContext

variable {x : SortContext} {id : Nat}

/-! ### Batches taken -/

/-- The batch that a sorter took in a step. -/
def takenIn (id : Nat) : Call × Answer → Option (List Column)
  | (.evaluate i columns, .evaluated (.ok ())) => if i = id then some columns else none
  | _ => none

/-- The batches with rows that a sorter took in a run. -/
def taken (id : Nat) (steps : List (Call × Answer)) : List (List Column) :=
  arrived (steps.filterMap (takenIn id))

theorem taken_cons (id : Nat) (step : Call × Answer) (steps : List (Call × Answer)) :
    taken id (step :: steps) = taken id [step] ++ taken id steps := by
  rw [taken, taken, taken, arrived, arrived, arrived, ← List.filter_append, ← List.filterMap_append,
    List.singleton_append]

theorem taken_of_none {step : Call × Answer} (h : takenIn id step = none) :
    taken id [step] = [] := by
  simp [taken, h, arrived]

theorem takenIn_of_ne {c : Call} (h : c.sorter? ≠ some id) (a : Answer) :
    takenIn id (c, a) = none := by
  unfold takenIn
  split
  · next heq =>
    cases heq
    exact if_neg fun hi => h (congrArg some hi)
  · rfl

/-! ### Batches held -/

/-- The sorter holds batches, under a number that has been given out. -/
def Keeps (x : SortContext) (id : Nat) (kernel : LoadedKernel) (held : List (List Column)) : Prop :=
  id < x.next ∧ ∃ s, x.sorters.get? id = some s ∧ Sorter.Holds kernel held s

variable {kernel : LoadedKernel} {held : List (List Column)}

theorem Keeps.batches (h : x.Keeps id kernel held) : kernel.template.Held held := by
  obtain ⟨-, s, -, hholds⟩ := h
  exact hholds.batches

theorem Keeps.of_eq {y : SortContext} (h : x.Keeps id kernel held) (hnext : x.next ≤ y.next)
    (hsorter : y.sorters.get? id = x.sorters.get? id) : y.Keeps id kernel held :=
  ⟨h.1.trans_le hnext, hsorter ▸ h.2⟩

/-- After a step of its own a sorter holds what the step makes it hold. -/
theorem Keeps.onSorter {α : Type} (h : x.Keeps id kernel held)
    (step : Sorter → Budget → Except KernelError α × Sorter × Budget) (held' : List (List Column))
    (hstep : ∀ s, x.sorters.get? id = some s → Sorter.Holds kernel held s →
      Sorter.Holds kernel held' (step s x.budget).2.1) :
    (x.onSorter id step).2.Keeps id kernel held' := by
  obtain ⟨hlt, s, hs, hholds⟩ := h
  unfold SortContext.onSorter
  simp only [hs]
  refine ⟨hlt, (step s x.budget).2.1, ?_, hstep s hs hholds⟩
  show (x.sorters.insert id _).get? id = _
  rw [Table.get?_insert, if_pos rfl]

/-- The sorter takes the batch if it succeeds. -/
theorem Keeps.evaluate (h : x.Keeps id kernel held) (columns : List Column) :
    (x.call (.evaluate id columns)).2.Keeps id kernel
      (held ++ taken id [(.evaluate id columns, (x.call (.evaluate id columns)).1)]) := by
  refine h.onSorter (fun s b => ((s.evaluate columns).1, (s.evaluate columns).2, b)) _
    fun s hs hholds => ?_
  have hanswer : (x.call (.evaluate id columns)).1 = .evaluated (s.evaluate columns).1 := by
    simp only [SortContext.call, SortContext.evaluate, SortContext.onSorter, hs]
  rw [hanswer]
  obtain ⟨s', hs', hholds'⟩ | ⟨e, hs', -⟩ := hholds.evaluate columns
  · simp only [hs']
    simpa [taken, takenIn] using hholds'
  · simp only [hs']
    rwa [taken_of_none rfl, List.append_nil]

theorem Keeps.snd_finish (h : x.Keeps id kernel held) : (x.finish id).2.Keeps id kernel held := by
  refine h.onSorter Sorter.finish held fun s _ hholds => ?_
  obtain ⟨s', b', hs', hholds'⟩ | ⟨e, hs', -⟩ := hholds.finish x.budget
  · exact hs' ▸ hholds'
  · exact hs' ▸ hholds

theorem Keeps.snd_openCursor (h : x.Keeps id kernel held) (schema : List Field) :
    (x.openCursor id schema).2.Keeps id kernel held := by
  have hrest := h.onSorter (fun s b => s.openCursor b schema) held fun s _ hholds => by
    obtain ⟨result, s', b', hs', -, hholds', -⟩ | ⟨e, hs', -⟩ | ⟨e, hs', -⟩ :=
      hholds.openCursor x.budget schema
    · exact hs' ▸ hholds'
    · exact hs' ▸ hholds
    · exact hs' ▸ hholds
  unfold SortContext.openCursor
  split
  · next hx =>
    rw [hx] at hrest
    exact hrest.of_eq (Nat.le_succ _) rfl
  · next hx =>
    rw [hx] at hrest
    exact hrest

/-- In a call a sorter takes a batch or it does not, until it is dropped. -/
theorem Keeps.call (h : x.Keeps id kernel held) {c : Call} (hc : c ≠ .dropSorter id) :
    (x.call c).2.Keeps id kernel (held ++ taken id [(c, (x.call c).1)]) := by
  by_cases hown : c.sorter? = some id
  · cases c with
    | evaluate i columns =>
      cases hown
      exact h.evaluate columns
    | finish i =>
      cases hown
      rw [taken_of_none rfl, List.append_nil]
      exact h.snd_finish
    | openCursor i schema =>
      cases hown
      rw [taken_of_none rfl, List.append_nil]
      exact h.snd_openCursor schema
    | dropSorter i =>
      cases hown
      exact absurd rfl hc
    | _ => cases hown
  · rw [taken_of_none (takenIn_of_ne hown _), List.append_nil]
    exact h.of_eq (next_le_call x c) (get?_sorters_call h.1 hown)

/-- A sorter holds what it has taken in a run. -/
theorem Keeps.after (h : x.Keeps id kernel held) {calls : List Call}
    (hcalls : .dropSorter id ∉ calls) :
    (x.after calls).Keeps id kernel (held ++ taken id (x.steps calls)) := by
  induction calls generalizing x held with
  | nil => simpa [SortContext.after, steps, taken, arrived] using h
  | cons c calls ih =>
    rw [List.mem_cons, not_or] at hcalls
    rw [steps, taken_cons, ← List.append_assoc]
    exact ih (h.call (Ne.symm hcalls.1)) hcalls.2

/-! ### Making and finishing -/

/-- The budget has room for what sorting takes, unless the sorter is done. -/
def Admits (x : SortContext) (id : Nat) : Prop :=
  ∀ s, x.sorters.get? id = some s → s.AdmittedBy x.budget

theorem admits_of_get? {s : Sorter} (hs : x.sorters.get? id = some s) (h : s.AdmittedBy x.budget) :
    x.Admits id := by
  intro s' hs'
  rw [hs] at hs'
  cases hs'
  exact h

theorem keeps_make (x : SortContext) (hv : kernel.template.Valid) :
    ∃ y, x.call (.make kernel) = (.made (.ok x.next), y) ∧ y.Keeps x.next kernel [] := by
  obtain ⟨s, hs, hholds⟩ := Sorter.exists_holds hv
  simp only [SortContext.call, SortContext.make, hs]
  refine ⟨_, rfl, Nat.lt_succ_self x.next, s, ?_, hholds⟩
  show (x.sorters.insert x.next s).get? x.next = _
  rw [Table.get?_insert, if_pos rfl]

/-- A sorter that the budget admits answers with what the sort of its batches writes. -/
theorem Keeps.finish (h : x.Keeps id kernel held) (hadmits : x.Admits id) :
    (x.call (.finish id)).1 = .finished (.ok (kernel.template.written held)) := by
  obtain ⟨-, s, hs, hholds⟩ := h
  obtain ⟨s', b', hs', -⟩ | ⟨e, -, hresult, hrefused⟩ := hholds.finish x.budget
  · simp only [SortContext.call, SortContext.finish, SortContext.onSorter, hs, hs']
  · exact absurd hrefused ((hadmits s hs).not_refused hresult)

end SortContext

end Collate
