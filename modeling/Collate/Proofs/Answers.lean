import Mathlib

/-!
# Answers without an error

When steps that can fail answer without an error: one after another (`bind_eq_ok_iff`), and for all
items of a list (`mapM_eq_ok_iff`, `exists_mapM_eq_ok_iff`, `mapM_eq_some_iff`, `forM_eq_ok_iff`).
Where they do not, one of them has the error that comes out (`exists_error_of_forM`).
-/

namespace Collate

variable {ε α β : Type}

theorem bind_eq_ok_iff {x : Except ε α} {next : α → Except ε β} {b : β} :
    (x >>= next) = .ok b ↔ ∃ a, x = .ok a ∧ next a = .ok b := by
  cases x <;> simp [bind, Except.bind]

theorem then_eq_ok_iff {x : Except ε Unit} {next : Unit → Except ε β} {b : β} :
    (x >>= next) = .ok b ↔ x = .ok () ∧ next () = .ok b := by
  cases x <;> simp [bind, Except.bind]

theorem mapM_eq_ok_iff {f : α → Except ε β} {xs : List α} {ys : List β} :
    xs.mapM f = .ok ys ↔ List.Forall₂ (fun x y => f x = .ok y) xs ys := by
  induction xs generalizing ys with
  | nil => cases ys <;> simp [pure, Except.pure]
  | cons x xs ih =>
    rw [List.mapM_cons, bind_eq_ok_iff, List.forall₂_cons_left_iff]
    refine exists_congr fun y => ?_
    rw [bind_eq_ok_iff]
    simp only [ih, pure, Except.pure, Except.ok.injEq]
    constructor
    · rintro ⟨hy, zs, hzs, rfl⟩
      exact ⟨zs, hy, hzs, rfl⟩
    · rintro ⟨zs, hy, hzs, rfl⟩
      exact ⟨hy, zs, hzs, rfl⟩

theorem exists_mapM_eq_ok_iff {f : α → Except ε β} {xs : List α} :
    (∃ ys, xs.mapM f = .ok ys) ↔ ∀ x ∈ xs, ∃ y, f x = .ok y := by
  simp only [mapM_eq_ok_iff]
  induction xs with
  | nil => exact ⟨fun _ => List.forall_mem_nil _, fun _ => ⟨[], .nil⟩⟩
  | cons x xs ih =>
    rw [List.forall_mem_cons, ← ih]
    constructor
    · rintro ⟨_, h⟩
      cases h with
      | cons hx hxs => exact ⟨⟨_, hx⟩, _, hxs⟩
    · rintro ⟨⟨y, hx⟩, ys, hxs⟩
      exact ⟨y :: ys, .cons hx hxs⟩

theorem mapM_eq_some_iff {f : α → Option β} {xs : List α} {ys : List β} :
    xs.mapM f = some ys ↔ List.Forall₂ (fun x y => f x = some y) xs ys := by
  induction xs generalizing ys with
  | nil => cases ys <;> simp
  | cons x xs ih =>
    simp only [List.mapM_cons, Option.bind_eq_bind, Option.bind_eq_some_iff,
      List.forall₂_cons_left_iff, ← ih, Option.pure_def, Option.some.injEq]
    constructor
    · rintro ⟨y, hy, zs, hzs, rfl⟩
      exact ⟨y, zs, hy, hzs, rfl⟩
    · rintro ⟨y, zs, hy, hzs, rfl⟩
      exact ⟨y, hy, zs, hzs, rfl⟩

theorem isSome_of_mapM {f : α → Option β} {xs : List α} {ys : List β} (h : xs.mapM f = some ys) :
    ∀ x ∈ xs, (f x).isSome := by
  rw [mapM_eq_some_iff] at h
  induction h with
  | nil => exact List.forall_mem_nil _
  | cons hx _ ih =>
    rw [List.forall_mem_cons]
    exact ⟨hx ▸ rfl, ih⟩

theorem forM_eq_ok_iff {f : α → Except ε Unit} {l : List α} :
    l.forM f = .ok () ↔ ∀ a ∈ l, f a = .ok () := by
  induction l with
  | nil => simp [pure, Except.pure]
  | cons a l ih =>
    rw [List.forall_mem_cons, ← ih]
    exact then_eq_ok_iff

/-- Steps in a row that do not all answer end with the error of one of them. -/
theorem exists_error_of_forM {f : α → Except ε Unit} {l : List α} {e : ε}
    (h : l.forM f = .error e) : ∃ a ∈ l, f a = .error e := by
  induction l with
  | nil => cases h
  | cons a l ih =>
    change (f a >>= fun _ => l.forM f) = _ at h
    cases hf : f a with
    | error e' =>
      rw [hf] at h
      exact ⟨a, List.mem_cons_self, hf.trans h⟩
    | ok =>
      rw [hf] at h
      obtain ⟨b, hb, hfb⟩ := ih h
      exact ⟨b, List.mem_cons_of_mem a hb, hfb⟩

end Collate
