import Collate.Proofs.Engine.Calls

/-!
# Contexts that cannot be told apart

Two contexts that differ in their sorters only, and these by a relation that every step of a sorter
keeps and no answer shows (`SortContext.Bisimulation`), answer every call alike and are then related
again (`SortContext.Related.call`); so they cannot be told apart by any run
(`SortContext.Related.run`).
-/

namespace Collate

open Input

namespace SortContext

variable {x y : SortContext} {R : Sorter → Sorter → Prop}

/-! ### Reservations held -/

/-- The reservation that a sorter, on the left, or a cursor, on the right, holds. -/
def holding? (x : SortContext) : Nat ⊕ Nat → Option Nat
  | .inl id => ((x.sorters.get? id).bind Sorter.result?).map (·.reservation)
  | .inr cursor => (x.cursors.get? cursor).map (·.result.reservation)

theorem mem_heldReservations_iff {r : Nat} :
    r ∈ x.heldReservations ↔ ∃ holder, x.holding? holder = some r := by
  rw [Sum.exists]
  simp only [heldReservations, holding?, List.mem_append, List.mem_filterMap, List.mem_map,
    Prod.exists, Option.map_eq_some_iff, Option.bind_eq_some_iff, Table.mem_entries_iff]
  refine or_congr (exists_congr fun id => ?_) Iff.rfl
  constructor
  · rintro ⟨s, hs, result, hresult, hr⟩
    exact ⟨result, ⟨s, hs, hresult⟩, hr⟩
  · rintro ⟨result, ⟨s, hs, hresult⟩, hr⟩
    exact ⟨s, hs, result, hresult, hr⟩

/-! ### Related contexts -/

/-- The contexts have related sorters under the same numbers, and the same budget and cursors. -/
structure Related (R : Sorter → Sorter → Prop) (x y : SortContext) : Prop where
  budget : x.budget = y.budget
  sorters : ∀ id, Option.Rel R (x.sorters.get? id) (y.sorters.get? id)
  cursors : ∀ id, x.cursors.get? id = y.cursors.get? id
  next : x.next = y.next

/-- Related sorters answer alike, ask the same of the budget and are related again. -/
def Alike {α : Type} (R : Sorter → Sorter → Prop)
    (step : Sorter → Budget → Except KernelError α × Sorter × Budget) : Prop :=
  ∀ s s' b, R s s' → (step s b).1 = (step s' b).1 ∧ R (step s b).2.1 (step s' b).2.1 ∧
    (step s b).2.2 = (step s' b).2.2

/-- A relation of sorters that their steps keep and no answer shows. -/
structure Bisimulation (R : Sorter → Sorter → Prop) : Prop where
  refl : ∀ s, R s s
  result? : ∀ s s', R s s' → s.result? = s'.result?
  evaluate : ∀ columns, Alike R fun s b => ((s.evaluate columns).1, (s.evaluate columns).2, b)
  finish : Alike R Sorter.finish
  openCursor : ∀ schema, Alike R fun s b => s.openCursor b schema

theorem alike_eq {α : Type} (step : Sorter → Budget → Except KernelError α × Sorter × Budget) :
    Alike Eq step := by
  rintro s s' b rfl
  exact ⟨rfl, rfl, rfl⟩

theorem bisimulation_eq : Bisimulation Eq where
  refl _ := rfl
  result? _ _ := congrArg Sorter.result?
  evaluate _ := alike_eq _
  finish := alike_eq _
  openCursor _ := alike_eq _

namespace Related

theorem refl (hR : Bisimulation R) (x : SortContext) : Related R x x where
  budget := rfl
  sorters id := by
    cases x.sorters.get? id with
    | none => exact .none
    | some s => exact .some (hR.refl s)
  cursors _ := rfl
  next := rfl

theorem get?_sorters (h : Related R x y) (id : Nat) :
    (x.sorters.get? id = none ∧ y.sorters.get? id = none) ∨
      ∃ s s', x.sorters.get? id = some s ∧ y.sorters.get? id = some s' ∧ R s s' := by
  have hrel := h.sorters id
  revert hrel
  generalize x.sorters.get? id = s?, y.sorters.get? id = s'?
  rintro (⟨hs⟩ | _)
  · exact .inr ⟨_, _, rfl, rfl, hs⟩
  · exact .inl ⟨rfl, rfl⟩

theorem holding? (h : Related R x y) (hR : Bisimulation R) : x.holding? = y.holding? := by
  funext holder
  cases holder with
  | inl id =>
    simp only [SortContext.holding?]
    obtain ⟨hs, hs'⟩ | ⟨s, s', hs, hs', hrel⟩ := h.get?_sorters id
    · rw [hs, hs']
    · rw [hs, hs', Option.bind_some, Option.bind_some, hR.result? s s' hrel]
  | inr cursor => simp only [SortContext.holding?, h.cursors]

theorem insert_sorter (h : Related R x y) (id : Nat) {s s' : Sorter} (hs : R s s')
    (budget : Budget) (next : Nat) :
    Related R { x with budget, sorters := x.sorters.insert id s, next }
      { y with budget, sorters := y.sorters.insert id s', next } where
  budget := rfl
  sorters i := by
    simp only [Table.get?_insert]
    split_ifs
    · exact .some hs
    · exact h.sorters i
  cursors := h.cursors
  next := rfl

theorem insert_cursor (h : Related R x y) (id : Nat) (c : ResultCursor) (next : Nat) :
    Related R { x with cursors := x.cursors.insert id c, next }
      { y with cursors := y.cursors.insert id c, next } where
  budget := h.budget
  sorters := h.sorters
  cursors i := by simp only [Table.get?_insert, h.cursors]
  next := rfl

theorem releaseUnheld (h : Related R x y) (hR : Bisimulation R) (reservation : Nat) :
    Related R (x.releaseUnheld reservation) (y.releaseUnheld reservation) := by
  have hmem : reservation ∈ x.heldReservations ↔ reservation ∈ y.heldReservations := by
    rw [mem_heldReservations_iff, mem_heldReservations_iff, h.holding? hR]
  unfold SortContext.releaseUnheld
  simp only [hmem]
  split_ifs
  · exact h
  · exact ⟨congrArg (·.release reservation) h.budget, h.sorters, h.cursors, h.next⟩

theorem dropSorter (h : Related R x y) (hR : Bisimulation R) (id : Nat) :
    Related R (x.dropSorter id) (y.dropSorter id) := by
  have hrest : Related R { x with sorters := x.sorters.erase id }
      { y with sorters := y.sorters.erase id } := by
    refine ⟨h.budget, fun i => ?_, h.cursors, h.next⟩
    simp only [Table.get?_erase]
    split_ifs
    · exact .none
    · exact h.sorters i
  unfold SortContext.dropSorter
  obtain ⟨hs, hs'⟩ | ⟨s, s', hs, hs', hrel⟩ := h.get?_sorters id
  · simp only [hs, hs']
    exact h
  · simp only [hs, hs', hR.result? s s' hrel]
    cases s'.result? with
    | none => exact hrest
    | some result => exact hrest.releaseUnheld hR result.reservation

theorem dropCursor (h : Related R x y) (hR : Bisimulation R) (id : Nat) :
    Related R (x.dropCursor id) (y.dropCursor id) := by
  have hrest : Related R { x with cursors := x.cursors.erase id }
      { y with cursors := y.cursors.erase id } :=
    ⟨h.budget, h.sorters, fun i => by simp only [Table.get?_erase, h.cursors], h.next⟩
  unfold SortContext.dropCursor
  rw [h.cursors]
  cases y.cursors.get? id with
  | none => exact h
  | some c => exact hrest.releaseUnheld hR c.result.reservation

theorem onSorter {α : Type} {step : Sorter → Budget → Except KernelError α × Sorter × Budget}
    (h : Related R x y) (hstep : Alike R step) (id : Nat) :
    (x.onSorter id step).1 = (y.onSorter id step).1 ∧
      Related R (x.onSorter id step).2 (y.onSorter id step).2 := by
  unfold SortContext.onSorter
  obtain ⟨hs, hs'⟩ | ⟨s, s', hs, hs', hrel⟩ := h.get?_sorters id
  · rw [hs, hs']
    exact ⟨rfl, h⟩
  · obtain ⟨hanswer, hrel', hbudget⟩ := hstep s s' y.budget hrel
    rw [hs, hs', h.budget, h.next]
    refine ⟨hanswer, ?_⟩
    dsimp only
    rw [hbudget]
    exact h.insert_sorter id hrel' _ y.next

theorem openCursor (h : Related R x y) (hR : Bisimulation R) (id : Nat) (schema : List Field) :
    (x.openCursor id schema).1 = (y.openCursor id schema).1 ∧
      Related R (x.openCursor id schema).2 (y.openCursor id schema).2 := by
  unfold SortContext.openCursor
  obtain ⟨hanswer, hrel⟩ := h.onSorter (hR.openCursor schema) id
  rcases hx : x.onSorter id fun s b => s.openCursor b schema with ⟨a, x'⟩
  rcases hy : y.onSorter id fun s b => s.openCursor b schema with ⟨a', y'⟩
  rw [hx, hy] at hanswer hrel
  obtain rfl : a = a' := hanswer
  cases a with
  | ok c =>
    simp only
    rw [hrel.next]
    exact ⟨rfl, hrel.insert_cursor y'.next c (y'.next + 1)⟩
  | error e => exact ⟨rfl, hrel⟩

/-- Related contexts answer a call alike, and are then related. -/
theorem call (h : Related R x y) (hR : Bisimulation R) (c : Call) :
    (x.call c).1 = (y.call c).1 ∧ Related R (x.call c).2 (y.call c).2 := by
  cases c with
  | make kernel =>
    simp only [SortContext.call, SortContext.make]
    cases Sorter.ofKernel kernel with
    | ok s =>
      simp only [add]
      rw [h.next, h.budget]
      exact ⟨rfl, h.insert_sorter y.next (hR.refl s) y.budget (y.next + 1)⟩
    | error e => exact ⟨rfl, h⟩
  | evaluate id columns =>
    obtain ⟨hanswer, hrel⟩ := h.onSorter (hR.evaluate columns) id
    exact ⟨congrArg Answer.evaluated hanswer, hrel⟩
  | finish id =>
    obtain ⟨hanswer, hrel⟩ := h.onSorter hR.finish id
    exact ⟨congrArg Answer.finished hanswer, hrel⟩
  | openCursor id schema =>
    obtain ⟨hanswer, hrel⟩ := h.openCursor hR id schema
    exact ⟨congrArg Answer.opened hanswer, hrel⟩
  | nextBatch cursor =>
    simp only [SortContext.call, SortContext.nextBatch]
    rw [h.cursors]
    cases y.cursors.get? cursor with
    | none => exact ⟨rfl, h⟩
    | some c => exact ⟨rfl, h.next ▸ h.insert_cursor cursor _ x.next⟩
  | pull cursor =>
    simp only [SortContext.call, SortContext.pull]
    rw [h.cursors]
    cases y.cursors.get? cursor with
    | none => exact ⟨rfl, h⟩
    | some c => exact ⟨rfl, h.next ▸ h.insert_cursor cursor _ x.next⟩
  | dropSorter id => exact ⟨rfl, h.dropSorter hR id⟩
  | dropCursor cursor => exact ⟨rfl, h.dropCursor hR cursor⟩

/-- Related contexts answer a run alike, and are then related. -/
theorem run (h : Related R x y) (hR : Bisimulation R) (calls : List Call) :
    x.steps calls = y.steps calls ∧ Related R (x.after calls) (y.after calls) := by
  induction calls generalizing x y with
  | nil => exact ⟨rfl, h⟩
  | cons c calls ih =>
    obtain ⟨hanswer, hrel⟩ := h.call hR c
    obtain ⟨hsteps, hafter⟩ := ih hrel
    refine ⟨?_, hafter⟩
    rw [steps, steps, hanswer, hsteps]

end Related

/-! ### The same context -/

namespace Same

theorem related (h : Same x y) : Related Eq x y where
  budget := h.budget
  sorters id := by
    rw [h.sorters]
    cases y.sorters.get? id with
    | none => exact .none
    | some s => exact .some rfl
  cursors := h.cursors
  next := h.next

theorem of_related (h : Related Eq x y) : Same x y where
  budget := h.budget
  sorters id := by
    obtain ⟨hs, hs'⟩ | ⟨s, s', hs, hs', rfl⟩ := h.get?_sorters id
    · rw [hs, hs']
    · rw [hs, hs']
  cursors := h.cursors
  next := h.next

theorem symm (h : Same x y) : Same y x :=
  ⟨h.budget.symm, fun id => (h.sorters id).symm, fun id => (h.cursors id).symm, h.next.symm⟩

theorem trans {z : SortContext} (h : Same x y) (h' : Same y z) : Same x z :=
  ⟨h.budget.trans h'.budget, fun id => (h.sorters id).trans (h'.sorters id),
    fun id => (h.cursors id).trans (h'.cursors id), h.next.trans h'.next⟩

theorem holding? (h : Same x y) : x.holding? = y.holding? := h.related.holding? bisimulation_eq

/-- Contexts that are the same answer a call alike, and are then the same. -/
theorem call (h : Same x y) (c : Call) :
    (x.call c).1 = (y.call c).1 ∧ Same (x.call c).2 (y.call c).2 := by
  obtain ⟨hanswer, hrel⟩ := h.related.call bisimulation_eq c
  exact ⟨hanswer, of_related hrel⟩

/-- Contexts that are the same answer a run alike, and are then the same. -/
theorem run (h : Same x y) (calls : List Call) :
    x.steps calls = y.steps calls ∧ Same (x.after calls) (y.after calls) := by
  obtain ⟨hsteps, hrel⟩ := h.related.run bisimulation_eq calls
  exact ⟨hsteps, of_related hrel⟩

end Same

end SortContext

end Collate
