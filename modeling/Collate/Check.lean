/-!
# Checks

A check lets a computation go on where a condition holds, and stops it with an error where it does
not.  Of several checks in a row the first that fails decides the error.
-/

namespace Collate

/-- Goes on where the condition holds. -/
def check {ε : Type} (p : Prop) [Decidable p] (e : ε) : Except ε Unit :=
  if p then .ok () else .error e

variable {ε : Type} {p : Prop} [Decidable p] {e : ε}

@[simp] theorem check_eq_ok_iff {u : Unit} : check p e = .ok u ↔ p := by
  unfold check
  split <;> simp [*]

theorem check_bind_eq_ok_iff {α : Type} {next : Unit → Except ε α} {a : α} :
    (check p e >>= next) = .ok a ↔ p ∧ next () = .ok a := by
  unfold check
  split <;> simp [*, bind, Except.bind]

end Collate
