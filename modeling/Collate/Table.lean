/-!
# Tables

A finite map as a list of bindings with distinct keys.  Looking up a key after a binding was put in
or taken out is settled by `get?_insert` and `get?_erase`.
-/

namespace Collate

/-- A finite map. -/
structure Table (κ α : Type) where
  entries : List (κ × α) := []
  distinct : (entries.map Prod.fst).Nodup := by simp

namespace Table

variable {κ α : Type}

instance : EmptyCollection (Table κ α) := ⟨{}⟩

instance : Inhabited (Table κ α) := ⟨∅⟩

/-- The keys that satisfy a test, with their values. -/
def filter (t : Table κ α) (keep : κ → Bool) : Table κ α where
  entries := t.entries.filter fun e => keep e.1
  distinct := t.distinct.sublist (List.filter_sublist.map Prod.fst)

/-- The keys. -/
def keys (t : Table κ α) : List κ := t.entries.map Prod.fst

variable [DecidableEq κ]

/-- The value of a key. -/
def get? (t : Table κ α) (k : κ) : Option α := (t.entries.find? fun e => e.1 = k).map Prod.snd

/-- The key has a value. -/
def contains (t : Table κ α) (k : κ) : Bool := (t.get? k).isSome

/-- Takes a key out. -/
def erase (t : Table κ α) (k : κ) : Table κ α := t.filter fun l => l ≠ k

/-- Gives a key a value, in place of any that it had. -/
def insert (t : Table κ α) (k : κ) (a : α) : Table κ α where
  entries := (k, a) :: (t.erase k).entries
  distinct := by
    refine List.nodup_cons.2 ⟨?_, (t.erase k).distinct⟩
    simp [erase, filter]

@[simp] theorem get?_empty (k : κ) : (∅ : Table κ α).get? k = none := rfl

theorem mem_entries_iff {t : Table κ α} {k : κ} {a : α} :
    (k, a) ∈ t.entries ↔ t.get? k = some a := by
  obtain ⟨entries, distinct⟩ := t
  simp only [get?]
  induction entries with
  | nil => simp
  | cons e es ih =>
    obtain ⟨l, b⟩ := e
    rw [List.map_cons, List.nodup_cons] at distinct
    by_cases same : l = k
    · subst same
      have other : (l, a) ∉ es := fun h =>
        distinct.1 (List.mem_map.2 ⟨(l, a), h, rfl⟩)
      simp [other, eq_comm]
    · have other : k ≠ l := fun h => same h.symm
      simp only [List.mem_cons, Prod.mk.injEq, other, false_and, false_or, ih distinct.2]
      simp [same]

theorem mem_keys_iff {t : Table κ α} {k : κ} : k ∈ t.keys ↔ ∃ a, t.get? k = some a := by
  rw [keys, List.mem_map]
  constructor
  · rintro ⟨⟨l, a⟩, h, rfl⟩
    exact ⟨a, mem_entries_iff.1 h⟩
  · rintro ⟨a, h⟩
    exact ⟨(k, a), mem_entries_iff.2 h, rfl⟩

theorem get?_filter (t : Table κ α) (keep : κ → Bool) (k : κ) :
    (t.filter keep).get? k = if keep k then t.get? k else none := by
  simp only [get?, filter]
  induction t.entries with
  | nil => simp
  | cons e es ih =>
    by_cases same : e.1 = k
    · subst same
      by_cases kept : keep e.1
      · simp [kept]
      · simpa [kept] using ih
    · by_cases kept : keep e.1
      · simpa [kept, same] using ih
      · simpa [kept, same] using ih

theorem get?_erase (t : Table κ α) (k l : κ) :
    (t.erase k).get? l = if l = k then none else t.get? l := by
  unfold erase
  rw [get?_filter]
  by_cases h : l = k <;> simp [h]

/-- What is left when a key is taken out was there before. -/
theorem get?_of_get?_erase {t : Table κ α} {k l : κ} {a : α} (h : (t.erase k).get? l = some a) :
    t.get? l = some a := by
  rw [get?_erase] at h
  split at h
  · cases h
  · exact h

theorem get?_insert (t : Table κ α) (k : κ) (a : α) (l : κ) :
    (t.insert k a).get? l = if l = k then some a else t.get? l := by
  by_cases h : l = k
  · subst h
    simp [get?, insert]
  · have other : ¬k = l := fun e => h e.symm
    have rest := get?_erase t k l
    simp only [get?, h, if_false] at rest
    simp [get?, insert, other, rest, h]

end Table

end Collate
