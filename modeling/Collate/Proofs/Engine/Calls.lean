import Collate.Engine.SortContext
import Collate.Proofs.Engine.Cursors

/-!
# Calls of a context

A context is driven by calls, each of which is answered (`SortContext.call`); a run of calls leaves
a record of its steps and a context.  `SortContext.Good` is the invariant of contexts whose kernels
are valid: every sorter holds batches and every cursor reads the sort of some.  One step lemma says
all that a call can do there (`Good.call`): it is answered without an error and the context is good,
or its error is no fault and nothing has changed.  `Good.after` carries the invariant through runs.
-/

namespace Collate

open Input

namespace SortContext

/-! ### Calls and runs -/

/-- Makes a kernel and takes it in: its number. -/
def make (x : SortContext) (kernel : LoadedKernel) : Except KernelError Nat × SortContext :=
  match Sorter.ofKernel kernel with
  | .ok s => (.ok (x.add s).1, (x.add s).2)
  | .error e => (.error e, x)

/-- A call; sorters and cursors are given by their numbers. -/
inductive Call
  | make (kernel : LoadedKernel)
  | evaluate (id : Nat) (columns : List Column)
  | finish (id : Nat)
  | openCursor (id : Nat) (schema : List Field)
  | nextBatch (cursor : Nat)
  | pull (cursor : Nat)
  | dropSorter (id : Nat)
  | dropCursor (cursor : Nat)

/-- What a call is answered. -/
inductive Answer
  | made (id : Except KernelError Nat)
  | evaluated (answer : Except KernelError Unit)
  | finished (written : Except KernelError (Option (List UInt8)))
  | opened (cursor : Except KernelError Nat)
  | batch (batch : Except KernelError RecordBatch)
  | pulled (batch : Option (Except KernelError RecordBatch))
  | dropped

/-- The error of a result. -/
def errorOf? {α : Type} : Except KernelError α → Option KernelError
  | .ok _ => none
  | .error e => some e

theorem exists_ok_of_errorOf? {α : Type} {r : Except KernelError α} (h : errorOf? r = none) :
    ∃ a, r = .ok a := by
  cases r with
  | ok a => exact ⟨a, rfl⟩
  | error e => cases h

/-- The error with which a call failed. -/
def Answer.error? : Answer → Option KernelError
  | made a => errorOf? a
  | evaluated a => errorOf? a
  | finished a => errorOf? a
  | opened a => errorOf? a
  | batch a => errorOf? a
  | pulled a => a.bind errorOf?
  | dropped => none

/-- The kernels that are made are of valid templates. -/
def Call.Valid : Call → Prop
  | .make kernel => kernel.template.validate = .ok ()
  | _ => True

/-- Answers a call. -/
def call (x : SortContext) : Call → Answer × SortContext
  | .make kernel => (.made (x.make kernel).1, (x.make kernel).2)
  | .evaluate id columns => (.evaluated (x.evaluate id columns).1, (x.evaluate id columns).2)
  | .finish id => (.finished (x.finish id).1, (x.finish id).2)
  | .openCursor id schema => (.opened (x.openCursor id schema).1, (x.openCursor id schema).2)
  | .nextBatch cursor => (.batch (x.nextBatch cursor).1, (x.nextBatch cursor).2)
  | .pull cursor => (.pulled (x.pull cursor).1, (x.pull cursor).2)
  | .dropSorter id => (.dropped, x.dropSorter id)
  | .dropCursor cursor => (.dropped, x.dropCursor cursor)

/-- The context after a run. -/
def after (x : SortContext) : List Call → SortContext
  | [] => x
  | c :: calls => (x.call c).2.after calls

/-- The calls of a run with their answers. -/
def steps (x : SortContext) : List Call → List (Call × Answer)
  | [] => []
  | c :: calls => (c, (x.call c).1) :: (x.call c).2.steps calls

/-! ### The same context -/

/-- The contexts have the same budget, sorters and cursors. -/
structure Same (x y : SortContext) : Prop where
  budget : x.budget = y.budget
  sorters : ∀ id, x.sorters.get? id = y.sorters.get? id
  cursors : ∀ id, x.cursors.get? id = y.cursors.get? id
  next : x.next = y.next

variable {x y : SortContext}

theorem Same.refl (x : SortContext) : Same x x := ⟨rfl, fun _ => rfl, fun _ => rfl, rfl⟩

/-! ### Frames -/

theorem sorters_releaseUnheld (x : SortContext) (reservation : Nat) :
    (x.releaseUnheld reservation).sorters = x.sorters := by
  unfold releaseUnheld
  split_ifs <;> rfl

theorem cursors_releaseUnheld (x : SortContext) (reservation : Nat) :
    (x.releaseUnheld reservation).cursors = x.cursors := by
  unfold releaseUnheld
  split_ifs <;> rfl

theorem next_releaseUnheld (x : SortContext) (reservation : Nat) :
    (x.releaseUnheld reservation).next = x.next := by
  unfold releaseUnheld
  split_ifs <;> rfl

/-- The sorter that a call is about. -/
def Call.sorter? : Call → Option Nat
  | .evaluate id _ | .finish id | .openCursor id _ | .dropSorter id => some id
  | _ => none

/-- The cursor that a call is about. -/
def Call.cursor? : Call → Option Nat
  | .nextBatch cursor | .pull cursor | .dropCursor cursor => some cursor
  | _ => none

theorem onSorter_frame {α : Type} (x : SortContext) (i : Nat)
    (step : Sorter → Budget → Except KernelError α × Sorter × Budget) :
    (x.onSorter i step).2.cursors = x.cursors ∧ (x.onSorter i step).2.next = x.next ∧
      ∀ id, i ≠ id → (x.onSorter i step).2.sorters.get? id = x.sorters.get? id := by
  unfold onSorter
  cases x.sorters.get? i with
  | none => exact ⟨rfl, rfl, fun _ _ => rfl⟩
  | some s =>
    refine ⟨rfl, rfl, fun id hi => ?_⟩
    show (x.sorters.insert i _).get? id = _
    rw [Table.get?_insert, if_neg (Ne.symm hi)]

theorem openCursor_frame (x : SortContext) (i : Nat) (schema : List Field) :
    x.next ≤ (x.openCursor i schema).2.next ∧
      (∀ id, i ≠ id → (x.openCursor i schema).2.sorters.get? id = x.sorters.get? id) ∧
      ∀ cursor, cursor < x.next →
        (x.openCursor i schema).2.cursors.get? cursor = x.cursors.get? cursor := by
  obtain ⟨hcursors, hnext, hsorters⟩ := onSorter_frame x i fun s b => s.openCursor b schema
  unfold openCursor
  split
  · next c y hx =>
    rw [hx] at hcursors hnext hsorters
    refine ⟨hnext ▸ Nat.le_succ _, hsorters, fun cursor hlt => ?_⟩
    show (y.cursors.insert y.next c).get? cursor = _
    rw [Table.get?_insert, if_neg (hnext ▸ hlt.ne)]
    exact congrArg (Table.get? · cursor) hcursors
  · next hx =>
    rw [hx] at hcursors hnext hsorters
    exact ⟨hnext.ge, hsorters, fun cursor _ => congrArg (Table.get? · cursor) hcursors⟩

theorem dropSorter_frame (x : SortContext) (i : Nat) :
    (x.dropSorter i).cursors = x.cursors ∧ (x.dropSorter i).next = x.next ∧
      ∀ id, (x.dropSorter i).sorters.get? id = if id = i then none else x.sorters.get? id := by
  unfold dropSorter
  cases hs : x.sorters.get? i with
  | none =>
    refine ⟨rfl, rfl, fun id => ?_⟩
    split_ifs with hi
    · rw [hi, hs]
    · rfl
  | some s =>
    simp only
    split
    · refine ⟨cursors_releaseUnheld _ _, next_releaseUnheld _ _, fun id => ?_⟩
      rw [sorters_releaseUnheld, Table.get?_erase]
    · exact ⟨rfl, rfl, fun id => Table.get?_erase _ _ _⟩

theorem dropCursor_frame (x : SortContext) (i : Nat) :
    (x.dropCursor i).sorters = x.sorters ∧ (x.dropCursor i).next = x.next ∧
      ∀ cursor, (x.dropCursor i).cursors.get? cursor =
        if cursor = i then none else x.cursors.get? cursor := by
  unfold dropCursor
  cases hc : x.cursors.get? i with
  | none =>
    refine ⟨rfl, rfl, fun cursor => ?_⟩
    split_ifs with hi
    · rw [hi, hc]
    · rfl
  | some c =>
    refine ⟨sorters_releaseUnheld _ _, next_releaseUnheld _ _, fun cursor => ?_⟩
    show (SortContext.releaseUnheld _ _).cursors.get? cursor = _
    rw [cursors_releaseUnheld, Table.get?_erase]

/-- Numbers are not given out twice. -/
theorem next_le_call (x : SortContext) (c : Call) : x.next ≤ (x.call c).2.next := by
  cases c with
  | make kernel =>
    simp only [call, make]
    cases Sorter.ofKernel kernel with
    | error e => exact le_rfl
    | ok s => exact Nat.le_succ _
  | evaluate i columns => exact (onSorter_frame x i _).2.1.ge
  | finish i => exact (onSorter_frame x i _).2.1.ge
  | openCursor i schema => exact (openCursor_frame x i schema).1
  | nextBatch i =>
    simp only [call, nextBatch]
    split <;> exact le_rfl
  | pull i =>
    simp only [call, pull]
    split <;> exact le_rfl
  | dropSorter i => exact (dropSorter_frame x i).2.1.ge
  | dropCursor i => exact (dropCursor_frame x i).2.1.ge

/-- Calls about others leave a sorter as it is. -/
theorem get?_sorters_call {c : Call} {id : Nat} (hlt : id < x.next) (hc : c.sorter? ≠ some id) :
    (x.call c).2.sorters.get? id = x.sorters.get? id := by
  cases c with
  | make kernel =>
    simp only [call, make]
    cases Sorter.ofKernel kernel with
    | error e => rfl
    | ok s =>
      show (x.sorters.insert x.next s).get? id = _
      rw [Table.get?_insert, if_neg hlt.ne]
  | evaluate i columns => exact (onSorter_frame x i _).2.2 id fun hi => hc (congrArg some hi)
  | finish i => exact (onSorter_frame x i _).2.2 id fun hi => hc (congrArg some hi)
  | openCursor i schema =>
    exact (openCursor_frame x i schema).2.1 id fun hi => hc (congrArg some hi)
  | nextBatch i =>
    simp only [call, nextBatch]
    split <;> rfl
  | pull i =>
    simp only [call, pull]
    split <;> rfl
  | dropSorter i =>
    refine ((dropSorter_frame x i).2.2 id).trans (if_neg fun hi => hc ?_)
    rw [hi]
    rfl
  | dropCursor i => exact congrArg (Table.get? · id) (dropCursor_frame x i).1

/-- Calls about others leave a cursor as it is. -/
theorem get?_cursors_call {c : Call} {cursor : Nat} (hlt : cursor < x.next)
    (hc : c.cursor? ≠ some cursor) :
    (x.call c).2.cursors.get? cursor = x.cursors.get? cursor := by
  cases c with
  | make kernel =>
    simp only [call, make]
    cases Sorter.ofKernel kernel <;> rfl
  | evaluate i columns => exact congrArg (Table.get? · cursor) (onSorter_frame x i _).1
  | finish i => exact congrArg (Table.get? · cursor) (onSorter_frame x i _).1
  | openCursor i schema => exact (openCursor_frame x i schema).2.2 cursor hlt
  | nextBatch i =>
    have hi : cursor ≠ i := fun hi => hc (congrArg some hi.symm)
    simp only [call, nextBatch]
    split
    · rfl
    · rw [Table.get?_insert, if_neg hi]
  | pull i =>
    have hi : cursor ≠ i := fun hi => hc (congrArg some hi.symm)
    simp only [call, pull]
    split
    · rfl
    · rw [Table.get?_insert, if_neg hi]
  | dropSorter i => exact congrArg (Table.get? · cursor) (dropSorter_frame x i).1
  | dropCursor i =>
    refine ((dropCursor_frame x i).2.2 cursor).trans (if_neg fun hi => hc ?_)
    rw [hi]
    rfl

/-! ### Single steps -/

/-- A step of a sorter does all or nothing: where sorters hold batches, it answers and they still
do, or it refuses and all stays as it is. -/
def Atomic {α : Type} (post : α → Prop)
    (step : Sorter → Budget → Except KernelError α × Sorter × Budget) : Prop :=
  ∀ kernel held s b, Sorter.Holds kernel held s →
    (∃ a s' b', step s b = (.ok a, s', b') ∧ post a ∧ ∃ held', Sorter.Holds kernel held' s') ∨
      ∃ e, step s b = (.error e, s, b) ∧ ¬e.IsFault

theorem atomic_evaluate (columns : List Column) : Atomic (fun _ => True) fun s b =>
    ((s.evaluate columns).1, (s.evaluate columns).2, b) := by
  intro kernel held s b h
  obtain ⟨s', hs', hholds⟩ | ⟨e, hs', hfault⟩ := h.evaluate columns
  · exact .inl ⟨_, _, _, congrArg (fun x => (x.1, x.2, b)) hs', trivial, _, hholds⟩
  · exact .inr ⟨_, congrArg (fun x => (x.1, x.2, b)) hs', hfault⟩

theorem atomic_finish : Atomic (fun _ => True) Sorter.finish := by
  intro kernel held s b h
  obtain ⟨s', b', hs', hholds⟩ | ⟨e, hs', -⟩ := h.finish b
  · exact .inl ⟨_, _, _, hs', trivial, _, hholds⟩
  · exact .inr ⟨_, hs', id⟩

theorem atomic_openCursor (schema : List Field) :
    Atomic (fun c : ResultCursor => ∃ t held, c.Reads t held) fun s b => s.openCursor b schema := by
  intro kernel held s b h
  obtain ⟨result, s', b', hs', hschema, hholds, hsorted⟩ | ⟨e, hs', hschema⟩ | ⟨e, hs', -⟩ :=
    h.openCursor b schema
  · exact .inl ⟨_, _, _, hs', ⟨_, _, ResultCursor.reads_ofResult h.valid h.batches hschema hsorted⟩,
      _, hholds⟩
  · exact .inr ⟨_, hs', Template.checkSchema_error hschema⟩
  · exact .inr ⟨_, hs', id⟩

/-! ### The invariant -/

/-- Every sorter holds batches under a number that has been given out, and every cursor reads the
sort of some. -/
structure Good (x : SortContext) : Prop where
  given : ∀ id s, x.sorters.get? id = some s → id < x.next
  sorters : ∀ id s, x.sorters.get? id = some s → ∃ kernel held, Sorter.Holds kernel held s
  cursors : ∀ id c, x.cursors.get? id = some c → ∃ t held, ResultCursor.Reads t held c

theorem good_ofCapacity (capacity : UInt64) : Good (ofCapacity capacity) :=
  ⟨fun _ _ h => (by cases h), fun _ _ h => (by cases h), fun _ _ h => (by cases h)⟩

namespace Good

theorem insert_sorter (h : Good x) {id : Nat} {s : Sorter}
    (hs : ∃ kernel held, Sorter.Holds kernel held s) (budget : Budget) {next : Nat}
    (hid : id < next) (hnext : x.next ≤ next) :
    Good { x with budget, sorters := x.sorters.insert id s, next } where
  given i s' hs' := by
    rw [Table.get?_insert] at hs'
    split_ifs at hs' with hi
    · exact hi ▸ hid
    · exact (h.given i s' hs').trans_le hnext
  sorters i s' hs' := by
    rw [Table.get?_insert] at hs'
    split_ifs at hs' with hi
    · cases hs'
      exact hs
    · exact h.sorters i s' hs'
  cursors := h.cursors

theorem insert_cursor (h : Good x) {id : Nat} {c : ResultCursor} (hc : ∃ t held, c.Reads t held)
    {next : Nat} (hnext : x.next ≤ next) :
    Good { x with cursors := x.cursors.insert id c, next } where
  given i s hs := (h.given i s hs).trans_le hnext
  sorters := h.sorters
  cursors i c' hc' := by
    rw [Table.get?_insert] at hc'
    split_ifs at hc' with hi
    · cases hc'
      exact hc
    · exact h.cursors i c' hc'

theorem releaseUnheld (h : Good x) (reservation : Nat) : Good (x.releaseUnheld reservation) := by
  unfold SortContext.releaseUnheld
  split_ifs
  · exact h
  · exact ⟨h.given, h.sorters, h.cursors⟩

theorem dropSorter (h : Good x) (id : Nat) : Good (x.dropSorter id) := by
  have hrest : Good { x with sorters := x.sorters.erase id } :=
    ⟨fun i s hs => h.given i s (Table.get?_of_get?_erase hs),
      fun i s hs => h.sorters i s (Table.get?_of_get?_erase hs), h.cursors⟩
  unfold SortContext.dropSorter
  split
  · exact h
  · simp only
    split
    · exact hrest.releaseUnheld _
    · exact hrest

theorem dropCursor (h : Good x) (id : Nat) : Good (x.dropCursor id) := by
  have hrest : Good { x with cursors := x.cursors.erase id } :=
    ⟨h.given, h.sorters, fun i c hc => h.cursors i c (Table.get?_of_get?_erase hc)⟩
  unfold SortContext.dropCursor
  split
  · exact h
  · exact hrest.releaseUnheld _

end Good

theorem same_insert_sorter {id : Nat} {s : Sorter} (hs : x.sorters.get? id = some s) :
    Same { x with sorters := x.sorters.insert id s } x where
  budget := rfl
  sorters i := by
    show (x.sorters.insert id s).get? i = _
    rw [Table.get?_insert]
    split_ifs with hi
    · rw [hi, hs]
    · rfl
  cursors _ := rfl
  next := rfl

theorem same_insert_cursor {id : Nat} {c : ResultCursor} (hc : x.cursors.get? id = some c) :
    Same { x with cursors := x.cursors.insert id c } x where
  budget := rfl
  sorters _ := rfl
  cursors i := by
    show (x.cursors.insert id c).get? i = _
    rw [Table.get?_insert]
    split_ifs with hi
    · rw [hi, hc]
    · rfl
  next := rfl

theorem Same.good (h : Same x y) (hy : Good y) : Good x where
  given id s hs := h.next ▸ hy.given id s (h.sorters id ▸ hs)
  sorters id s hs := hy.sorters id s (h.sorters id ▸ hs)
  cursors id c hc := hy.cursors id c (h.cursors id ▸ hc)

/-- An answer of a call in a good context: it is no error and the context is good, or its error is
no fault and the context is the same. -/
def Settles (x : SortContext) (error? : Option KernelError) (y : SortContext) : Prop :=
  (error? = none ∧ Good y) ∨ ∃ e, error? = some e ∧ ¬e.IsFault ∧ Same y x

/-- A result settles where it is an answer and a good context, or no fault and the same one. -/
theorem settles_of_result {α : Type} {r : Except KernelError α × SortContext}
    (h : (∃ a y, r = (.ok a, y) ∧ Good y) ∨ ∃ e y, r = (.error e, y) ∧ ¬e.IsFault ∧ Same y x) :
    Settles x (errorOf? r.1) r.2 := by
  obtain ⟨a, y, rfl, hgood⟩ | ⟨e, y, rfl, hrest⟩ := h
  · exact .inl ⟨rfl, hgood⟩
  · exact .inr ⟨e, rfl, hrest⟩

namespace Good

/-- Steps that do all or nothing settle. -/
theorem onSorter {α : Type} {post : α → Prop}
    {step : Sorter → Budget → Except KernelError α × Sorter × Budget} (h : Good x)
    (hstep : Atomic post step) (id : Nat) :
    (∃ a y, x.onSorter id step = (.ok a, y) ∧ post a ∧ Good y) ∨
      ∃ e y, x.onSorter id step = (.error e, y) ∧ ¬e.IsFault ∧ Same y x := by
  unfold SortContext.onSorter
  cases hs : x.sorters.get? id with
  | none => exact .inr ⟨_, x, rfl, not_false, Same.refl x⟩
  | some s =>
    obtain ⟨kernel, held, hholds⟩ := h.sorters id s hs
    obtain ⟨a, s', b', hs', hpost, held', hholds'⟩ | ⟨e, hs', hfault⟩ :=
      hstep kernel held s x.budget hholds
    · simp only [hs']
      exact .inl ⟨a, _, rfl, hpost, h.insert_sorter ⟨kernel, held', hholds'⟩ b'
        (h.given id s hs) le_rfl⟩
    · simp only [hs']
      exact .inr ⟨e, _, rfl, hfault, same_insert_sorter hs⟩

theorem make (h : Good x) {kernel : LoadedKernel} (hv : kernel.template.Valid) :
    ∃ y, x.make kernel = (.ok x.next, y) ∧ Good y := by
  obtain ⟨s, hs, hholds⟩ := Sorter.exists_holds hv
  rw [SortContext.make, hs]
  exact ⟨_, rfl, h.insert_sorter ⟨kernel, [], hholds⟩ x.budget (Nat.lt_succ_self x.next)
    (Nat.le_succ x.next)⟩

theorem openCursor (h : Good x) (id : Nat) (schema : List Field) :
    (∃ a y, x.openCursor id schema = (.ok a, y) ∧ Good y) ∨
      ∃ e y, x.openCursor id schema = (.error e, y) ∧ ¬e.IsFault ∧ Same y x := by
  unfold SortContext.openCursor
  obtain ⟨c, y, hy, hc, hgood⟩ | ⟨e, y, hy, hrest⟩ := h.onSorter (atomic_openCursor schema) id
  · simp only [hy]
    exact .inl ⟨_, _, rfl, hgood.insert_cursor hc (Nat.le_succ y.next)⟩
  · simp only [hy]
    exact .inr ⟨e, y, rfl, hrest⟩

theorem nextBatch (h : Good x) (id : Nat) :
    (∃ a y, x.nextBatch id = (.ok a, y) ∧ Good y) ∨
      ∃ e y, x.nextBatch id = (.error e, y) ∧ ¬e.IsFault ∧ Same y x := by
  unfold SortContext.nextBatch
  cases hc : x.cursors.get? id with
  | none => exact .inr ⟨_, x, rfl, not_false, Same.refl x⟩
  | some c =>
    obtain ⟨t, held, hreads⟩ := h.cursors id c hc
    obtain ⟨batch, c', hc', hreads', -⟩ | ⟨e, hc', hfault⟩ := hreads.nextBatch
    · simp only [hc']
      exact .inl ⟨batch, _, rfl, h.insert_cursor ⟨t, held, hreads'⟩ le_rfl⟩
    · simp only [hc']
      exact .inr ⟨e, _, rfl, hfault, same_insert_cursor hc⟩

theorem pull (h : Good x) (id : Nat) :
    (∃ a y, x.pull id = (a, y) ∧ a.bind errorOf? = none ∧ Good y) ∨
      ∃ e y, x.pull id = (some (.error e), y) ∧ ¬e.IsFault ∧ Same y x := by
  unfold SortContext.pull
  cases hc : x.cursors.get? id with
  | none => exact .inr ⟨_, x, rfl, not_false, Same.refl x⟩
  | some c =>
    obtain ⟨t, held, hreads⟩ := h.cursors id c hc
    obtain ⟨batch, c', hc', hreads', -⟩ | ⟨e, hc', hfault⟩ | hc' := hreads.pull
    · simp only [hc']
      exact .inl ⟨_, _, rfl, rfl, h.insert_cursor ⟨t, held, hreads'⟩ le_rfl⟩
    · simp only [hc']
      exact .inr ⟨e, _, rfl, hfault, same_insert_cursor hc⟩
    · simp only [hc']
      exact .inl ⟨_, _, rfl, rfl, (same_insert_cursor hc).good h⟩

/-- A call does all or nothing. -/
theorem call (h : Good x) {c : Call} (hc : c.Valid) :
    Settles x (x.call c).1.error? (x.call c).2 := by
  cases c with
  | make kernel =>
    obtain ⟨y, hy, hgood⟩ := h.make (Template.validate_eq_ok_iff.1 hc)
    exact settles_of_result (.inl ⟨_, y, hy, hgood⟩)
  | evaluate id columns =>
    obtain ⟨a, y, hy, -, hgood⟩ | hrefused := h.onSorter (atomic_evaluate columns) id
    · exact settles_of_result (.inl ⟨a, y, hy, hgood⟩)
    · exact settles_of_result (.inr hrefused)
  | finish id =>
    obtain ⟨a, y, hy, -, hgood⟩ | hrefused := h.onSorter atomic_finish id
    · exact settles_of_result (.inl ⟨a, y, hy, hgood⟩)
    · exact settles_of_result (.inr hrefused)
  | openCursor id schema => exact settles_of_result (h.openCursor id schema)
  | nextBatch cursor => exact settles_of_result (h.nextBatch cursor)
  | pull cursor =>
    obtain ⟨a, y, hy, hnone, hgood⟩ | ⟨e, y, hy, hrest⟩ := h.pull cursor
    · rw [SortContext.call, hy]
      exact .inl ⟨hnone, hgood⟩
    · rw [SortContext.call, hy]
      exact .inr ⟨e, rfl, hrest⟩
  | dropSorter id => exact .inl ⟨rfl, h.dropSorter id⟩
  | dropCursor cursor => exact .inl ⟨rfl, h.dropCursor cursor⟩

theorem call_good (h : Good x) {c : Call} (hc : c.Valid) : Good (x.call c).2 := by
  obtain ⟨-, hgood⟩ | ⟨e, -, -, hsame⟩ := h.call hc
  · exact hgood
  · exact hsame.good h

/-- Runs keep the invariant. -/
theorem after (h : Good x) {calls : List Call} (hcalls : ∀ c ∈ calls, c.Valid) :
    Good (x.after calls) := by
  induction calls generalizing x with
  | nil => exact h
  | cons c calls ih =>
    rw [List.forall_mem_cons] at hcalls
    exact ih (h.call_good hcalls.1) hcalls.2

end Good

end SortContext

end Collate
