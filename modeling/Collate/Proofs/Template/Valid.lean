import Collate.Proofs.Answers
import Collate.Template.Basic

/-!
# Valid templates

`Template.validate` accepts exactly the templates that obey its rules
(`Template.validate_eq_ok_iff`).  The rules are kept as one structure, `Template.Valid`, from which
the proofs about engines take what they need.
-/

namespace Collate

namespace Template

/-- The rules of templates. -/
structure Valid (t : Template) : Prop where
  revision : t.revision = currentRevision
  batchSize : t.batchSize ≠ 0
  fields : t.fields ≠ []
  columns : ∀ (slot : Nat) (f : FieldSlot), t.fields[slot]? = some f →
    f = .ofColumn slot f.name f.type
  keys : ∀ slot ∈ t.keys, slot < t.fields.length
  partition : t.keys.head? = some t.partitionSlot
  comparatorSlots : t.comparator.slots = t.keys
  comparatorDirection : ∀ link ∈ t.comparator.links, link.direction = t.policy.direction
  placement : t.placement = .ofNullOrder t.policy.nullOrder
  sortCall : ∀ slot, t.sortCall = .radix slot →
    t.keys = [slot] ∧ t.policy.direction = .ascending ∧
      ∃ f, t.fields[slot]? = some f ∧ f.type.isFixedWidth
  strategy : t.strategy = .inPlace →
    ∃ f, t.fields = [f] ∧ t.keys = [0] ∧ f.type.supportsInPlace

/-! ### The single checks -/

theorem checkFields_eq_ok_iff {position : Nat} {fields : List FieldSlot} :
    checkFields position fields = .ok () ↔
      ∀ (i : Nat) (f : FieldSlot), fields[i]? = some f →
        f = .ofColumn (position + i) f.name f.type := by
  induction fields generalizing position with
  | nil => simp [checkFields]
  | cons f fields ih =>
    simp only [checkFields, check_bind_eq_ok_iff, ih]
    constructor
    · rintro ⟨hslot, ⟨hstorage, hbuilder⟩, hrest⟩ i g hg
      cases i with
      | zero =>
        obtain rfl : f = g := by simpa using hg
        cases f
        simp_all [FieldSlot.ofColumn]
      | succ i =>
        have := hrest i g (by simpa using hg)
        rwa [Nat.add_right_comm, Nat.add_assoc] at this
    · intro h
      have hf := h 0 f rfl
      refine ⟨?_, ⟨?_, ?_⟩, fun i g hg => ?_⟩
      · rw [hf]
        rfl
      · rw [hf]
        rfl
      · rw [hf]
        rfl
      · have := h (i + 1) g (by simpa using hg)
        rwa [← Nat.add_assoc, Nat.add_right_comm] at this

theorem checkKeys_eq_ok_iff {count : Nat} {keys : List Nat} :
    checkKeys count keys = .ok () ↔ ∀ slot ∈ keys, slot < count := by
  unfold checkKeys
  cases h : keys.find? (count ≤ ·) with
  | none => simpa using h
  | some k =>
    have hk := List.find?_some h
    simp only [decide_eq_true_eq] at hk
    simp only [reduceCtorEq, false_iff, not_forall]
    exact ⟨k, List.mem_of_find?_eq_some h, by omega⟩

theorem checkSortCall_eq_ok_iff {t : Template} :
    t.checkSortCall = .ok () ↔ ∀ slot, t.sortCall = .radix slot →
      t.keys = [slot] ∧ t.policy.direction = .ascending ∧
        ∃ f, t.fields[slot]? = some f ∧ f.type.isFixedWidth := by
  unfold checkSortCall
  cases t.sortCall with
  | comparison => simp
  | radix slot =>
    simp only [check_bind_eq_ok_iff, SortCall.radix.injEq, forall_eq']
    cases t.fields[slot]? <;> simp

theorem checkStrategy_eq_ok_iff {t : Template} :
    t.checkStrategy = .ok () ↔ (t.strategy = .inPlace →
      ∃ f, t.fields = [f] ∧ t.keys = [0] ∧ f.type.supportsInPlace) := by
  cases hs : t.strategy with
  | indexed => simp [checkStrategy, hs]
  | inPlace =>
    simp only [checkStrategy, hs]
    split
    · simp_all
    · next h =>
      simp only [reduceCtorEq, forall_const, false_iff, not_exists, not_and]
      exact fun f hf hk => absurd hk (h f hf)

/-! ### All checks -/

theorem validate_eq_ok_iff {t : Template} : t.validate = .ok () ↔ t.Valid := by
  simp only [validate, then_eq_ok_iff, check_eq_ok_iff, checkFields_eq_ok_iff, checkKeys_eq_ok_iff,
    checkSortCall_eq_ok_iff, checkStrategy_eq_ok_iff, Nat.zero_add]
  constructor
  · rintro ⟨h₁, h₂, h₃, h₄, -, h₆, h₇, h₈, h₉, h₁₀, h₁₁, h₁₂⟩
    exact ⟨h₁, h₂, h₃, h₄, h₆, h₇, h₈, h₉, h₁₀, h₁₁, h₁₂⟩
  · rintro ⟨h₁, h₂, h₃, h₄, h₅, h₆, h₇, h₈, h₉, h₁₀, h₁₁⟩
    refine ⟨h₁, h₂, h₃, h₄, ?_, h₅, h₆, h₇, h₈, h₉, h₁₀, h₁₁⟩
    rintro hk
    simp [hk] at h₆

namespace Valid

variable {t : Template}

theorem partitionSlot_mem (h : t.Valid) : t.partitionSlot ∈ t.keys :=
  List.mem_of_mem_head? (h.partition ▸ rfl)

theorem partitionSlot_lt (h : t.Valid) : t.partitionSlot < t.fields.length :=
  h.keys _ h.partitionSlot_mem

end Valid

end Template

end Collate
