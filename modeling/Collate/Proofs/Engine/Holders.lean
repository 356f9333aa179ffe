import Collate.Proofs.Engine.Failures

/-!
# Holders of reservations

A sorter reserves bytes when it first comes to its result (`Sorter.Holds.finalize_ok`), those of the
rows that it has taken; the result is then held by the sorter and by the cursors on it.
`SortContext.holding?` says which reservation a sorter or cursor holds, and how each change of a
context changes that.
-/

namespace Collate

open Input

/-- The bytes that a row takes in the result of a kernel: those of an address, or of a value of the
only column. -/
def Template.rowWidth (t : Template) : Nat :=
  match t.strategy, t.fields with
  | .indexed, _ => Address.width
  | .inPlace, f :: _ => f.type.layout.width
  | .inPlace, [] => 0

/-! ### The bytes of a sorter -/

namespace Sorter

variable {kernel : LoadedKernel} {held : List (List Column)} {columns : List Column}
  {s s' : Sorter} {b b' : Budget} {result : SortedResult}

/-- The bytes that a row takes in the result. -/
def rowWidth : Sorter → Nat
  | indexed _ => Address.width
  | inPlace s => s.format.width

theorem bytes_eq (s : Sorter) : s.bytes = s.totalRows * s.rowWidth := by
  cases s <;> rfl

theorem totalRows_done (s : Sorter) (result : SortedResult) :
    (s.done result).totalRows = s.totalRows := by
  cases s <;> rfl

theorem rowWidth_done (s : Sorter) (result : SortedResult) :
    (s.done result).rowWidth = s.rowWidth := by
  cases s <;> rfl

theorem Filled.totalRows (h : Filled kernel held s) : s.totalRows = Input.totalRows held := by
  cases h <;> rfl

theorem Filled.rowWidth (h : Filled kernel held s) : s.rowWidth = kernel.template.rowWidth := by
  cases h with
  | indexed hs =>
    rw [Template.rowWidth, hs]
    rfl
  | inPlace hs hfields isNumber =>
    rw [Template.rowWidth, hs, hfields]
    simp only [isNumber]
    rfl

/-- A sorter that takes a batch has no result, and has as many rows more. -/
theorem Holds.evaluate_ok (h : Holds kernel held s) (hs : s.evaluate columns = (.ok (), s')) :
    s.result? = none ∧ s'.result? = none ∧ s'.rowWidth = s.rowWidth ∧
      s'.totalRows = s.totalRows + rowCount columns := by
  obtain hfilled | ⟨filled, result, -, rfl, -⟩ := h.state
  · obtain ⟨s'', hs'', -, hfilled'⟩ | ⟨e, hs'', -⟩ := hfilled.evaluate h.valid h.batches columns
    · obtain rfl : s'' = s' := by
        rw [hs'', Prod.mk.injEq] at hs
        exact hs.2
      refine ⟨hfilled.result?, hfilled'.result?, hfilled'.rowWidth.trans hfilled.rowWidth.symm, ?_⟩
      rw [hfilled'.totalRows, hfilled.totalRows, Input.totalRows, Input.totalRows, List.map_append,
        List.sum_append, Nat.add_left_cancel_iff]
      by_cases hrows : rowCount columns = 0 <;> simp [arrived, hrows]
    · rw [hs''] at hs
      cases hs
  · rw [evaluate_done] at hs
    cases hs

/-- A sorter with a result gives it out again and takes nothing from the budget; one without has its
bytes reserved and is done. -/
theorem Holds.finalize_ok (h : Holds kernel held s) (hs : s.finalize b = (.ok result, s', b')) :
    (s.result? = some result ∧ s' = s ∧ b' = b) ∨
      s.result? = none ∧ s' = s.done result ∧
        b.reserve s.bytes s.tag = .ok (result.reservation, b') := by
  obtain hfilled | ⟨filled, r, -, rfl, -⟩ := h.state
  · obtain ⟨r, b'', hreserve, hs', -⟩ | ⟨e, -, hs'⟩ := hfilled.finalize h.valid h.batches b
    · rw [hs', Prod.mk.injEq, Prod.mk.injEq, Except.ok.injEq] at hs
      obtain ⟨rfl, rfl, rfl⟩ := hs
      exact .inr ⟨hfilled.result?, rfl, hreserve⟩
    · rw [hs'] at hs
      cases hs
  · rw [finalize_done, Prod.mk.injEq, Prod.mk.injEq, Except.ok.injEq] at hs
    obtain ⟨rfl, rfl, rfl⟩ := hs
    exact .inl ⟨result?_done filled r, rfl, rfl⟩

end Sorter

theorem ResultCursor.result_nextBatch (c : ResultCursor) : c.nextBatch.2.result = c.result := by
  obtain ⟨batch, offset, hnext⟩ | ⟨e, hnext, -⟩ := c.nextBatch_cases
  · rw [hnext]
  · rw [hnext]

theorem ResultCursor.result_pull (c : ResultCursor) : c.pull.2.result = c.result := by
  unfold pull
  split
  · exact c.result_nextBatch
  · rfl

namespace SortContext

variable {x y : SortContext} {id cursor r : Nat} {columns : List Column} {schema : List Field}

/-! ### Calls that are answered -/

/-- A step of a sorter that is answered found the sorter, and stores what it left of it. -/
theorem exists_of_onSorter {α : Type} {a : α}
    {step : Sorter → Budget → Except KernelError α × Sorter × Budget}
    (h : (x.onSorter id step).1 = .ok a) :
    ∃ s s' b', x.sorters.get? id = some s ∧ step s x.budget = (.ok a, s', b') ∧
      x.onSorter id step = (.ok a, { x with budget := b', sorters := x.sorters.insert id s' }) := by
  unfold onSorter at h ⊢
  cases hs : x.sorters.get? id with
  | none => simp only [hs, reduceCtorEq] at h
  | some s =>
    simp only [hs] at h ⊢
    exact ⟨s, (step s x.budget).2.1, (step s x.budget).2.2, rfl, Prod.ext h rfl, Prod.ext h rfl⟩

theorem exists_of_evaluate (h : (x.evaluate id columns).1 = .ok ()) :
    ∃ s s', x.sorters.get? id = some s ∧ s.evaluate columns = (.ok (), s') ∧
      (x.evaluate id columns).2 = { x with sorters := x.sorters.insert id s' } := by
  obtain ⟨s, s', b', hs, hstep, hrest⟩ := exists_of_onSorter h
  simp only [Prod.mk.injEq] at hstep
  obtain ⟨hanswer, rfl, rfl⟩ := hstep
  exact ⟨s, _, hs, Prod.ext hanswer rfl, congrArg Prod.snd hrest⟩

theorem exists_of_finish {written : Option (List UInt8)} (h : (x.finish id).1 = .ok written) :
    ∃ s result s' b', x.sorters.get? id = some s ∧
      s.finalize x.budget = (.ok result, s', b') ∧
      (x.finish id).2 = { x with budget := b', sorters := x.sorters.insert id s' } := by
  obtain ⟨s, s', b', hs, hstep, hrest⟩ := exists_of_onSorter h
  rcases hfinal : s.finalize x.budget with ⟨_ | result, s'', b''⟩
  · simp [Sorter.finish, hfinal, Except.map] at hstep
  · simp only [Sorter.finish, hfinal, Prod.mk.injEq] at hstep
    obtain ⟨-, rfl, rfl⟩ := hstep
    exact ⟨s, result, s'', b'', hs, hfinal, congrArg Prod.snd hrest⟩

theorem exists_of_openCursor (h : (x.openCursor id schema).1 = .ok cursor) :
    ∃ s result s' b' c, x.sorters.get? id = some s ∧
      s.finalize x.budget = (.ok result, s', b') ∧ c.result = result ∧ cursor = x.next ∧
      (x.openCursor id schema).2 = ⟨b', x.sorters.insert id s', x.cursors.insert x.next c,
        x.next + 1⟩ := by
  unfold openCursor at h ⊢
  rcases hopen : x.onSorter id fun s b => s.openCursor b schema with ⟨_ | c, y⟩
  · simp only [hopen, reduceCtorEq] at h
  · obtain ⟨s, s', b', hs, hstep, hrest⟩ := exists_of_onSorter (congrArg Prod.fst hopen)
    obtain rfl := congrArg Prod.snd (hopen.symm.trans hrest)
    simp only [hopen, Except.ok.injEq] at h ⊢
    unfold Sorter.openCursor at hstep
    cases hschema : s.template.checkSchema schema with
    | error e => simp [hschema] at hstep
    | ok =>
      rcases hfinal : s.finalize x.budget with ⟨_ | result, s'', b''⟩
      · simp [hschema, hfinal, Except.map] at hstep
      · simp only [hschema, hfinal, Except.map, Prod.mk.injEq, Except.ok.injEq] at hstep
        obtain ⟨rfl, rfl, rfl⟩ := hstep
        exact ⟨s, result, s'', b'', _, hs, hfinal, rfl, h.symm, rfl⟩

/-! ### Reservations held -/

theorem holding?_of_sorter {s : Sorter} (hs : x.sorters.get? id = some s) :
    x.holding? (.inl id) = s.result?.map (·.reservation) := by
  rw [holding?, hs, Option.bind_some]

theorem holding?_of_cursor {c : ResultCursor} (hc : x.cursors.get? cursor = some c) :
    x.holding? (.inr cursor) = some c.result.reservation := by
  rw [holding?, hc, Option.map_some]

/-- Contexts that differ in one sorter differ in what that sorter holds. -/
theorem holding?_eq_update_sorter {held : Option Nat} (hcursors : y.cursors = x.cursors)
    (hsorters : ∀ i, i ≠ id → y.sorters.get? i = x.sorters.get? i)
    (hheld : y.holding? (.inl id) = held) :
    y.holding? = Function.update x.holding? (.inl id) held := by
  refine Function.eq_update_iff.2 ⟨hheld, fun holder hne => ?_⟩
  cases holder with
  | inl i => simp only [holding?, hsorters i fun hi => hne (congrArg Sum.inl hi)]
  | inr i => simp only [holding?, hcursors]

/-- Contexts that differ in one cursor differ in what that cursor holds. -/
theorem holding?_eq_update_cursor {held : Option Nat} (hsorters : y.sorters = x.sorters)
    (hcursors : ∀ i, i ≠ cursor → y.cursors.get? i = x.cursors.get? i)
    (hheld : y.holding? (.inr cursor) = held) :
    y.holding? = Function.update x.holding? (.inr cursor) held := by
  refine Function.eq_update_iff.2 ⟨hheld, fun holder hne => ?_⟩
  cases holder with
  | inl i => simp only [holding?, hsorters]
  | inr i => simp only [holding?, hcursors i fun hi => hne (congrArg Sum.inr hi)]

theorem holding?_insert_sorter (x : SortContext) (budget : Budget) (id : Nat) (s : Sorter)
    (next : Nat) :
    ({ x with budget, sorters := x.sorters.insert id s, next } : SortContext).holding? =
      Function.update x.holding? (.inl id) (s.result?.map (·.reservation)) := by
  refine holding?_eq_update_sorter rfl (fun i hi => ?_) ?_
  · rw [Table.get?_insert, if_neg hi]
  · simp [holding?, Table.get?_insert]

theorem holding?_insert_cursor (x : SortContext) (cursor : Nat) (c : ResultCursor) (next : Nat) :
    ({ x with cursors := x.cursors.insert cursor c, next } : SortContext).holding? =
      Function.update x.holding? (.inr cursor) (some c.result.reservation) := by
  refine holding?_eq_update_cursor rfl (fun i hi => ?_) ?_
  · rw [Table.get?_insert, if_neg hi]
  · simp [holding?, Table.get?_insert]

theorem holding?_erase_sorter (x : SortContext) (id : Nat) :
    ({ x with sorters := x.sorters.erase id } : SortContext).holding? =
      Function.update x.holding? (.inl id) none := by
  refine holding?_eq_update_sorter rfl (fun i hi => ?_) ?_
  · rw [Table.get?_erase, if_neg hi]
  · simp [holding?, Table.get?_erase]

theorem holding?_erase_cursor (x : SortContext) (cursor : Nat) :
    ({ x with cursors := x.cursors.erase cursor } : SortContext).holding? =
      Function.update x.holding? (.inr cursor) none := by
  refine holding?_eq_update_cursor rfl (fun i hi => ?_) ?_
  · rw [Table.get?_erase, if_neg hi]
  · simp [holding?, Table.get?_erase]

/-- A sorter with the result that was there before leaves what is held. -/
theorem holding?_insert_sorter_of_eq {s : Sorter}
    (hs : (x.sorters.get? id).bind Sorter.result? = s.result?) (next : Nat) :
    ({ x with sorters := x.sorters.insert id s, next } : SortContext).holding? = x.holding? := by
  rw [holding?_insert_sorter x x.budget id s next, Function.update_eq_self_iff, ← hs]
  rfl

/-- So does a cursor on the result that was there before. -/
theorem holding?_insert_cursor_of_eq {c c' : ResultCursor} (hc : x.cursors.get? cursor = some c)
    (hresult : c'.result = c.result) :
    ({ x with cursors := x.cursors.insert cursor c' } : SortContext).holding? = x.holding? := by
  rw [holding?_insert_cursor x cursor c' x.next, Function.update_eq_self_iff, hresult]
  simp only [holding?, hc, Option.map_some]

/-- A value under a key that had none is one value more. -/
theorem exists_update_some {κ α : Type} [DecidableEq κ] {f : κ → Option α} {k : κ}
    (h : f k = none) (a b : α) :
    (∃ l, Function.update f k (some a) l = some b) ↔ b = a ∨ ∃ l, f l = some b := by
  constructor
  · rintro ⟨l, hl⟩
    by_cases hk : l = k
    · rw [hk, Function.update_self, Option.some.injEq] at hl
      exact .inl hl.symm
    · rw [Function.update_of_ne hk] at hl
      exact .inr ⟨l, hl⟩
  · rintro (rfl | ⟨l, hl⟩)
    · exact ⟨k, Function.update_self ..⟩
    · have hk : l ≠ k := by
        rintro rfl
        rw [h] at hl
        cases hl
      exact ⟨l, (Function.update_of_ne hk ..).trans hl⟩

/-- Without the value of a key there is one value less. -/
theorem exists_iff_of_update_none {κ α : Type} [DecidableEq κ] {f : κ → Option α} {k : κ} {a : α}
    (h : f k = some a) (b : α) :
    (∃ l, f l = some b) ↔ b = a ∨ ∃ l, Function.update f k none l = some b := by
  have hput : Function.update (Function.update f k none) k (some a) = f := by
    rw [Function.update_idem, ← h, Function.update_eq_self]
  have hmore := exists_update_some (Function.update_self k none f) a b
  rwa [hput] at hmore

end SortContext

end Collate
