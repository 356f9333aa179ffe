import Collate.Engine.Sorter
import Collate.Proofs.Budget
import Collate.Proofs.Engine.Input

/-!
# Feeding sorters

`Sorter.feed` runs a sorter over batches as long as each is accepted.  For a family of states that
are named by the batches with rows that they hold, one step decides every run (`feed_eq_ok_iff`).
-/

namespace Collate

open Input

namespace Sorter

/-- Buffers batches, one after the other, as long as each is accepted. -/
def feed (s : Sorter) : List (List Column) → Except KernelError Sorter
  | [] => .ok s
  | columns :: batches =>
    match s.evaluate columns with
    | (.ok (), s) => s.feed batches
    | (.error e, _) => .error e

/-- The states `state held` take the batches that fit a template, and hold those with rows while
there is room for one more. -/
def Buffers (t : Template) (room : Nat → Prop) (state : List (List Column) → Sorter) : Prop :=
  ∀ held columns s, (state held).evaluate columns = (.ok (), s) ↔
    t.Fits columns ∧ (rowCount columns ≠ 0 → room held.length) ∧
      s = state (held ++ arrived [columns])

variable {t : Template} {room : Nat → Prop} {state : List (List Column) → Sorter}
  {held batches : List (List Column)} {s : Sorter}

theorem arrived_cons (columns : List Column) (batches : List (List Column)) :
    arrived (columns :: batches) = arrived [columns] ++ arrived batches := by
  rw [arrived, arrived, arrived, ← List.filter_append, List.singleton_append]

theorem length_arrived_singleton (columns : List Column) :
    (arrived [columns]).length = if rowCount columns = 0 then 0 else 1 := by
  by_cases h : rowCount columns = 0 <;> simp [arrived, h]

/-- A run of accepted batches holds those with rows behind what was held before. -/
theorem feed_eq_ok_iff (held : List (List Column)) (h : Buffers t room state) :
    (state held).feed batches = .ok s ↔
      (∀ columns ∈ batches, t.Fits columns) ∧
        (∀ n, held.length ≤ n → n < held.length + (arrived batches).length → room n) ∧
        s = state (held ++ arrived batches) := by
  induction batches generalizing held with
  | nil =>
    simp only [feed, Except.ok.injEq, List.not_mem_nil, false_imp_iff, implies_true, true_and]
    constructor
    · rintro rfl
      exact ⟨fun n _ hlt => by simp [arrived] at hlt; omega, by simp [arrived]⟩
    · rintro ⟨-, rfl⟩
      simp [arrived]
  | cons columns batches ih =>
    rw [List.forall_mem_cons, arrived_cons, ← List.append_assoc, List.length_append, feed]
    have hlen := length_arrived_singleton columns
    cases hs : (state held).evaluate columns with
    | mk answer next =>
      cases answer with
      | error e =>
        simp only [reduceCtorEq, false_iff]
        rintro ⟨⟨hfits, -⟩, hroom, -⟩
        have hok := (h held columns _).2 ⟨hfits, fun hrows => hroom _ le_rfl ?_, rfl⟩
        · rw [hs] at hok
          cases hok
        · rw [hlen, if_neg hrows]
          omega
      | ok =>
        obtain ⟨hfits, hone, rfl⟩ := (h held columns next).1 hs
        simp only
        rw [ih, List.length_append]
        constructor
        · rintro ⟨hrest, hroom, rfl⟩
          refine ⟨⟨hfits, hrest⟩, fun n hle hlt => ?_, rfl⟩
          by_cases hn : held.length + (arrived [columns]).length ≤ n
          · exact hroom n hn (by omega)
          · split_ifs at hlen with hrows
            · omega
            · obtain rfl : n = held.length := by omega
              exact hone hrows
        · rintro ⟨⟨-, hrest⟩, hroom, rfl⟩
          exact ⟨hrest, fun n hle hlt => hroom n (by omega) (by omega), rfl⟩

end Sorter

end Collate
