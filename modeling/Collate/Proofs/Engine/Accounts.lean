import Collate.Proofs.Budget
import Collate.Proofs.Engine.Holders

/-!
# The accounts of a context

The record of a run says which kernels came to a result, how many rows each of them took and which
kernel a cursor belongs to; these are its books (`SortContext.Books`).  The budget of the context
agrees with them (`SortContext.Accounted`): it has a reservation for exactly the results that a
sorter or a cursor still holds, of the bytes that the books say.  A lemma for each change carries
this through it, and they make up the step lemma (`SortContext.Accounted.call`).
-/

namespace Collate

open Input

namespace SortContext

variable {x y : SortContext} {id cursor r : Nat}

/-! ### Books -/

/-- What the record of a run says about its results. -/
structure Books where
  /-- the bytes of a row in the result of a kernel -/
  width : Nat → Nat := fun _ => 0
  /-- the rows that a kernel has taken -/
  rows : Nat → Nat := fun _ => 0
  /-- the kernels that have come to a result, in this order -/
  sorted : List Nat := []
  /-- the kernel on whose result a cursor was opened -/
  origin : Nat → Option Nat := fun _ => none

namespace Books

/-- The bytes of the result of a kernel. -/
def bytes (books : Books) (id : Nat) : Nat := books.rows id * books.width id

/-- A kernel has come to a result, now or before. -/
def sort (books : Books) (id : Nat) : Books :=
  if id ∈ books.sorted then books else { books with sorted := books.sorted ++ [id] }

/-- Enters a call with its answer. -/
def enter (books : Books) : Call × Answer → Books
  | (.make kernel, .made (.ok id)) =>
    { books with width := Function.update books.width id kernel.template.rowWidth }
  | (.evaluate id columns, .evaluated (.ok ())) =>
    { books with rows := Function.update books.rows id (books.rows id + rowCount columns) }
  | (.finish id, .finished (.ok _)) => books.sort id
  | (.openCursor id _, .opened (.ok cursor)) =>
    let books := books.sort id
    { books with origin := Function.update books.origin cursor (some id) }
  | _ => books

/-- The books of a run. -/
def ofSteps (steps : List (Call × Answer)) : Books := steps.foldl enter {}

/-- The kernel whose result a holder would hold. -/
def kernel? (books : Books) : Nat ⊕ Nat → Option Nat
  | .inl id => some id
  | .inr cursor => books.origin cursor

variable {books : Books}

theorem enter_of_failed {c : Call} {a : Answer} (h : a.error? ≠ none) :
    books.enter (c, a) = books := by
  unfold enter
  split
  iterate 4
    next heq =>
      cases heq
      exact absurd rfl h
  rfl

theorem sort_of_mem (h : id ∈ books.sorted) : books.sort id = books := if_pos h

theorem sort_of_notMem (h : id ∉ books.sorted) :
    books.sort id = { books with sorted := books.sorted ++ [id] } := if_neg h

end Books

/-! ### Books that agree with a context -/

/-- The books say what the sorters have taken, of whom the results are that they and the cursors
hold, and of how many bytes the reservations are. -/
structure Recorded (x : SortContext) (books : Books) : Prop where
  distinct : books.sorted.Nodup
  given : ∀ id, x.next ≤ id → books.rows id = 0 ∧ id ∉ books.sorted ∧ books.origin id = none
  sorter : ∀ id s, x.sorters.get? id = some s → s.totalRows = books.rows id ∧
    s.rowWidth = books.width id ∧ (s.result? = none → id ∉ books.sorted)
  holder : ∀ holder r, x.holding? holder = some r →
    ∃ id, books.kernel? holder = some id ∧ books.sorted[r]? = some id
  next : x.budget.next = books.sorted.length
  bytes : ∀ r reservation, x.budget.get? r = some reservation →
    ∃ id, books.sorted[r]? = some id ∧ reservation.bytes.toNat = books.bytes id

/-- Beside this, the reservations are those that sorters and cursors hold. -/
structure Accounted (x : SortContext) (books : Books) : Prop extends x.Recorded books where
  held : ∀ r, (x.budget.get? r).isSome ↔ ∃ holder, x.holding? holder = some r

theorem accounted_ofCapacity (capacity : UInt64) : (ofCapacity capacity).Accounted {} where
  distinct := List.nodup_nil
  given _ _ := ⟨rfl, List.not_mem_nil, rfl⟩
  sorter _ _ h := by cases h
  holder holder r h := by cases holder <;> cases h
  next := rfl
  bytes _ _ h := by cases h
  held r := by
    refine iff_of_false Bool.false_ne_true ?_
    rintro ⟨holder, h⟩
    cases holder <;> cases h

/-- What is recorded stays so where sorters and cursors are only taken away. -/
theorem Recorded.of_le (h : x.Recorded books) (hbudget : y.budget = x.budget)
    (hnext : y.next = x.next)
    (hsorters : ∀ id s, y.sorters.get? id = some s → x.sorters.get? id = some s)
    (hholding : ∀ holder r, y.holding? holder = some r → x.holding? holder = some r) :
    y.Recorded books where
  distinct := h.distinct
  given id hid := h.given id (hnext ▸ hid)
  sorter id s hs := h.sorter id s (hsorters id s hs)
  holder holder r hr := h.holder holder r (hholding holder r hr)
  next := hbudget ▸ h.next
  bytes r reservation hr := h.bytes r reservation (hbudget ▸ hr)

theorem Recorded.release (h : x.Recorded books) (r : Nat) :
    ({ x with budget := x.budget.release r } : SortContext).Recorded books where
  distinct := h.distinct
  given := h.given
  sorter := h.sorter
  holder := h.holder
  next := (Budget.next_release _ _).trans h.next
  bytes i reservation hi := by
    rw [Budget.get?_release] at hi
    split_ifs at hi
    exact h.bytes i reservation hi

namespace Accounted

theorem of_holding (h : x.Accounted books) (hbudget : y.budget = x.budget)
    (hnext : y.next = x.next)
    (hsorters : ∀ id s, y.sorters.get? id = some s → x.sorters.get? id = some s)
    (hholding : y.holding? = x.holding?) : y.Accounted books where
  toRecorded := h.toRecorded.of_le hbudget hnext hsorters fun holder r hr => hholding ▸ hr
  held r := by
    rw [hbudget, hholding]
    exact h.held r

theorem same (h : x.Accounted books) (hsame : Same y x) : y.Accounted books :=
  h.of_holding hsame.budget hsame.next (fun id _ hs => hsame.sorters id ▸ hs) hsame.holding?

/-- A kernel that is made has taken nothing. -/
theorem make (h : x.Accounted books) (hgood : Good x) {s : Sorter} (hrows : s.totalRows = 0)
    (hresult : s.result? = none) :
    ({ x with sorters := x.sorters.insert x.next s, next := x.next + 1 } : SortContext).Accounted
      { books with width := Function.update books.width x.next s.rowWidth } := by
  obtain ⟨hnorows, hunsorted, -⟩ := h.given x.next le_rfl
  have hfree : x.sorters.get? x.next = none :=
    Option.eq_none_iff_forall_ne_some.2 fun s hs => (hgood.given _ s hs).false
  have hold : (x.sorters.get? x.next).bind Sorter.result? = s.result? := by
    rw [hfree, hresult]
    rfl
  have hholding := holding?_insert_sorter_of_eq hold (x.next + 1)
  refine ⟨⟨h.distinct, fun id hid => h.given id ((Nat.le_succ _).trans hid), fun id s' hs' => ?_,
    fun holder r hr => h.holder holder r (hholding ▸ hr), h.next, fun r reservation hr => ?_⟩,
    fun r => hholding ▸ h.held r⟩
  · change (x.sorters.insert x.next s).get? id = some s' at hs'
    rw [Table.get?_insert] at hs'
    split_ifs at hs' with hid
    · cases hs'
      subst hid
      dsimp only
      rw [Function.update_self]
      exact ⟨hrows.trans hnorows.symm, rfl, fun _ => hunsorted⟩
    · obtain ⟨hrows', hwidth', hunsorted'⟩ := h.sorter id s' hs'
      exact ⟨hrows', hwidth'.trans (Function.update_of_ne hid ..).symm, hunsorted'⟩
  · obtain ⟨id, hid, hbytes⟩ := h.bytes r reservation hr
    have hne : id ≠ x.next := fun heq => hunsorted (heq ▸ List.mem_of_getElem? hid)
    refine ⟨id, hid, hbytes.trans ?_⟩
    dsimp only [Books.bytes]
    rw [Function.update_of_ne hne]

/-- A kernel that has no result takes rows. -/
theorem evaluate (h : x.Accounted books) (hgood : Good x) {s s' : Sorter} {n : Nat}
    (hs : x.sorters.get? id = some s) (hresult : s.result? = none) (hresult' : s'.result? = none)
    (hwidth : s'.rowWidth = s.rowWidth) (hrows : s'.totalRows = s.totalRows + n) :
    ({ x with sorters := x.sorters.insert id s' } : SortContext).Accounted
      { books with rows := Function.update books.rows id (books.rows id + n) } := by
  obtain ⟨hrows₀, hwidth₀, hunsorted⟩ := h.sorter id s hs
  have hold : (x.sorters.get? id).bind Sorter.result? = s'.result? := by
    rw [hs, hresult']
    exact hresult
  have hholding := holding?_insert_sorter_of_eq hold x.next
  refine ⟨⟨h.distinct, fun i hi => ?_, fun i s'' hs'' => ?_,
    fun holder r hr => h.holder holder r (hholding ▸ hr), h.next, fun r reservation hr => ?_⟩,
    fun r => hholding ▸ h.held r⟩
  · have hne : i ≠ id := ((hgood.given id s hs).trans_le hi).ne'
    dsimp only
    rw [Function.update_of_ne hne]
    exact h.given i hi
  · change (x.sorters.insert id s').get? i = some s'' at hs''
    rw [Table.get?_insert] at hs''
    split_ifs at hs'' with hi
    · cases hs''
      subst hi
      dsimp only
      rw [hrows, hrows₀, Function.update_self]
      exact ⟨rfl, hwidth.trans hwidth₀, fun _ => hunsorted hresult⟩
    · obtain ⟨hrows', hrest⟩ := h.sorter i s'' hs''
      exact ⟨hrows'.trans (Function.update_of_ne hi ..).symm, hrest⟩
  · obtain ⟨i, hi, hbytes⟩ := h.bytes r reservation hr
    have hne : i ≠ id := fun heq => hunsorted hresult (heq ▸ List.mem_of_getElem? hi)
    refine ⟨i, hi, hbytes.trans ?_⟩
    dsimp only [Books.bytes]
    rw [Function.update_of_ne hne]

/-- A kernel that has no result has its bytes reserved and is done. -/
theorem sort (h : x.Accounted books) (hgood : Good x) {s : Sorter} {result : SortedResult}
    {b' : Budget} (hs : x.sorters.get? id = some s) (hresult : s.result? = none)
    (hreserve : x.budget.reserve s.bytes s.tag = .ok (result.reservation, b')) :
    ({ x with budget := b', sorters := x.sorters.insert id (s.done result) } :
      SortContext).Accounted { books with sorted := books.sorted ++ [id] } := by
  obtain ⟨hrows, hwidth, hunsorted⟩ := h.sorter id s hs
  replace hunsorted := hunsorted hresult
  obtain ⟨hroom, hnext, rfl⟩ := Budget.reserve_eq_ok_iff.1 hreserve
  rw [h.next] at hnext
  have hnone : x.holding? (.inl id) = none := by
    rw [holding?_of_sorter hs, hresult, Option.map_none]
  have hholding := holding?_insert_sorter x (x.budget.grant s.bytes s.tag) id (s.done result) x.next
  rw [Sorter.result?_done, Option.map_some] at hholding
  have hlast : (books.sorted ++ [id])[result.reservation]? = some id := by
    rw [hnext, List.getElem?_concat_length]
  have hkept : ∀ {r i : Nat}, books.sorted[r]? = some i → (books.sorted ++ [id])[r]? = some i :=
    fun hr => (List.getElem?_append_left (List.getElem?_eq_some_iff.1 hr).1).trans hr
  have hnew : ∀ {i : Nat}, i ∉ books.sorted → i ≠ id → i ∉ books.sorted ++ [id] := by
    intro i hi hne hm
    obtain hm | hm := List.mem_append.1 hm
    · exact hi hm
    · exact hne (List.mem_singleton.1 hm)
  refine ⟨⟨?_, fun i hi => ?_, fun i s' hs' => ?_, fun holder r hr => ?_, ?_,
    fun r reservation hr => ?_⟩, fun r => ?_⟩
  · exact List.nodup_append_comm.1 (List.nodup_cons.2 ⟨hunsorted, h.distinct⟩)
  · obtain ⟨hnorows, hi', horigin⟩ := h.given i hi
    exact ⟨hnorows, hnew hi' ((hgood.given id s hs).trans_le hi).ne', horigin⟩
  · change (x.sorters.insert id (s.done result)).get? i = some s' at hs'
    rw [Table.get?_insert] at hs'
    split_ifs at hs' with hi
    · cases hs'
      subst hi
      rw [Sorter.totalRows_done, Sorter.rowWidth_done, Sorter.result?_done]
      exact ⟨hrows, hwidth, fun hnone => by cases hnone⟩
    · obtain ⟨hrows', hwidth', hunsorted'⟩ := h.sorter i s' hs'
      exact ⟨hrows', hwidth', fun hnone => hnew (hunsorted' hnone) hi⟩
  · rw [hholding] at hr
    by_cases hholder : holder = .inl id
    · rw [hholder, Function.update_self, Option.some.injEq] at hr
      exact ⟨id, by rw [hholder]; rfl, hr ▸ hlast⟩
    · rw [Function.update_of_ne hholder] at hr
      obtain ⟨i, hi, hsorted⟩ := h.holder holder r hr
      exact ⟨i, hi, hkept hsorted⟩
  · rw [List.length_append]
    exact congrArg (· + 1) h.next
  · rw [Budget.get?_grant, h.next, ← hnext] at hr
    split_ifs at hr with hr'
    · cases hr
      refine ⟨id, hr' ▸ hlast, ?_⟩
      rw [(Budget.toNat_grant hroom).1, Sorter.bytes_eq, hrows, hwidth]
      rfl
    · obtain ⟨i, hi, hbytes⟩ := h.bytes r reservation hr
      exact ⟨i, hkept hi, hbytes⟩
  · rw [hholding, exists_update_some hnone, Budget.get?_grant, ← h.held, h.next, ← hnext]
    split_ifs with hr <;> simp [hr]

/-- A kernel comes to its result, for which it reserves bytes the first time. -/
theorem finalize (h : x.Accounted books) (hgood : Good x) {s s' : Sorter} {result : SortedResult}
    {b' : Budget} (hs : x.sorters.get? id = some s)
    (hfinal : s.finalize x.budget = (.ok result, s', b')) :
    let y : SortContext := { x with budget := b', sorters := x.sorters.insert id s' }
    y.Accounted (books.sort id) ∧ y.holding? (.inl id) = some result.reservation ∧
      Budget.Moves x.budget y.budget := by
  obtain ⟨kernel, held, hholds⟩ := hgood.sorters id s hs
  obtain ⟨hresult, rfl, rfl⟩ | ⟨hresult, rfl, hreserve⟩ := hholds.finalize_ok hfinal
  · -- The result has been there, and with it the entry in the books.
    have hsame : Same { x with sorters := x.sorters.insert id s' } x := same_insert_sorter hs
    have hown : x.holding? (.inl id) = some result.reservation := by
      rw [holding?_of_sorter hs, hresult, Option.map_some]
    obtain ⟨i, hi, hsorted⟩ := h.holder _ _ hown
    cases hi
    rw [Books.sort_of_mem (List.mem_of_getElem? hsorted)]
    exact ⟨h.same hsame, hsame.holding? ▸ hown, .stay _⟩
  · rw [Books.sort_of_notMem ((h.sorter id s hs).2.2 hresult)]
    refine ⟨h.sort hgood hs hresult hreserve, ?_, .reserve hreserve⟩
    rw [holding?_insert_sorter, Function.update_self, Sorter.result?_done]
    rfl

/-- A cursor is opened on the result of a kernel. -/
theorem insert_cursor (h : x.Accounted books) {c : ResultCursor}
    (hc : x.holding? (.inl id) = some c.result.reservation) :
    ({ x with cursors := x.cursors.insert x.next c, next := x.next + 1 } : SortContext).Accounted
      { books with origin := Function.update books.origin x.next (some id) } := by
  have hholding := holding?_insert_cursor x x.next c (x.next + 1)
  have hfree : x.holding? (.inr x.next) = none := by
    refine Option.eq_none_iff_forall_ne_some.2 fun r hr => ?_
    obtain ⟨i, hi, -⟩ := h.holder _ r hr
    exact Option.some_ne_none i (hi.symm.trans (h.given x.next le_rfl).2.2)
  refine ⟨⟨h.distinct, fun i hi => ?_, h.sorter, fun holder r hr => ?_, h.next, h.bytes⟩,
    fun r => ?_⟩
  · obtain ⟨hnorows, hnew, horigin⟩ := h.given i ((Nat.le_succ _).trans hi)
    exact ⟨hnorows, hnew, (Function.update_of_ne (Nat.lt_of_succ_le hi).ne' ..).trans horigin⟩
  · rw [hholding] at hr
    by_cases hholder : holder = .inr x.next
    · rw [hholder, Function.update_self, Option.some.injEq] at hr
      obtain ⟨i, hi, hsorted⟩ := h.holder _ _ hc
      cases hi
      exact ⟨id, by rw [hholder]; exact Function.update_self .., hr ▸ hsorted⟩
    · rw [Function.update_of_ne hholder] at hr
      obtain ⟨i, hi, hsorted⟩ := h.holder holder r hr
      refine ⟨i, ?_, hsorted⟩
      cases holder with
      | inl i => exact hi
      | inr cursor =>
        exact (Function.update_of_ne (fun heq => hholder (congrArg Sum.inr heq)) ..).trans hi
  · rw [hholding, exists_update_some hfree]
    refine (h.held r).trans ⟨.inr, ?_⟩
    rintro (rfl | hr)
    · exact ⟨_, hc⟩
    · exact hr

/-- What held a reservation is taken away; if nothing else holds it, it is given back. -/
theorem drop (h : x.Accounted books) {holder : Nat ⊕ Nat} (hy : y.Recorded books)
    (hbudget : y.budget = x.budget) (hr : x.holding? holder = some r)
    (hholding : y.holding? = Function.update x.holding? holder none) :
    (y.releaseUnheld r).Accounted books := by
  have hheld : ∀ i, (y.budget.get? i).isSome ↔ i = r ∨ ∃ holder, y.holding? holder = some i := by
    intro i
    rw [hbudget, h.held, exists_iff_of_update_none hr, hholding]
  unfold SortContext.releaseUnheld
  split_ifs with hmem
  · rw [mem_heldReservations_iff] at hmem
    refine ⟨hy, fun i => (hheld i).trans ⟨?_, .inr⟩⟩
    rintro (rfl | hi)
    · exact hmem
    · exact hi
  · rw [mem_heldReservations_iff] at hmem
    refine ⟨hy.release r, fun i => ?_⟩
    rw [Budget.get?_release]
    split_ifs with hi
    · subst hi
      exact iff_of_false Bool.false_ne_true hmem
    · exact (hheld i).trans ⟨fun h => h.resolve_left hi, .inr⟩

theorem dropSorter (h : x.Accounted books) (id : Nat) : (x.dropSorter id).Accounted books := by
  have kept (i : Nat) (s : Sorter) (hs : (x.sorters.erase id).get? i = some s) :
      x.sorters.get? i = some s := Table.get?_of_get?_erase hs
  have hholding := holding?_erase_sorter x id
  have hrest : ({ x with sorters := x.sorters.erase id } : SortContext).Recorded books :=
    h.toRecorded.of_le rfl rfl kept fun holder r hr => by
      rw [hholding, Function.update_apply] at hr
      split_ifs at hr
      exact hr
  unfold SortContext.dropSorter
  cases hs : x.sorters.get? id with
  | none => exact h
  | some s =>
    simp only
    cases hresult : s.result? with
    | none =>
      have hnone : x.holding? (.inl id) = none := by
        rw [holding?_of_sorter hs, hresult, Option.map_none]
      exact h.of_holding rfl rfl kept (by rw [hholding, ← hnone, Function.update_eq_self])
    | some result =>
      have hown : x.holding? (.inl id) = some result.reservation := by
        rw [holding?_of_sorter hs, hresult, Option.map_some]
      exact h.drop hrest rfl hown hholding

theorem dropCursor (h : x.Accounted books) (cursor : Nat) :
    (x.dropCursor cursor).Accounted books := by
  have hholding := holding?_erase_cursor x cursor
  have hrest : ({ x with cursors := x.cursors.erase cursor } : SortContext).Recorded books :=
    h.toRecorded.of_le rfl rfl (fun _ _ hs => hs) fun holder r hr => by
      rw [hholding, Function.update_apply] at hr
      split_ifs at hr
      exact hr
  unfold SortContext.dropCursor
  cases hc : x.cursors.get? cursor with
  | none => exact h
  | some c => exact h.drop hrest rfl (holding?_of_cursor hc) hholding

end Accounted

/-! ### Calls -/

theorem moves_releaseUnheld (x : SortContext) (r : Nat) :
    Budget.Moves x.budget (x.releaseUnheld r).budget := by
  unfold releaseUnheld
  split_ifs
  · exact .stay _
  · exact .release _ _

theorem moves_dropSorter (x : SortContext) (id : Nat) :
    Budget.Moves x.budget (x.dropSorter id).budget := by
  unfold dropSorter
  cases x.sorters.get? id with
  | none => exact .stay _
  | some s =>
    simp only
    cases s.result? with
    | none => exact .stay _
    | some result => exact moves_releaseUnheld { x with sorters := x.sorters.erase id } _

theorem moves_dropCursor (x : SortContext) (cursor : Nat) :
    Budget.Moves x.budget (x.dropCursor cursor).budget := by
  unfold dropCursor
  cases x.cursors.get? cursor with
  | none => exact .stay _
  | some c => exact moves_releaseUnheld { x with cursors := x.cursors.erase cursor } _

/-- A read leaves what is held. -/
theorem Accounted.advance (h : x.Accounted books) {c c' : ResultCursor}
    (hc : x.cursors.get? cursor = some c) (hresult : c'.result = c.result) :
    ({ x with cursors := x.cursors.insert cursor c' } : SortContext).Accounted books :=
  h.of_holding rfl rfl (fun _ _ hs => hs) (holding?_insert_cursor_of_eq hc hresult)

/-- In a call the budget moves, and the books go with it. -/
theorem Accounted.call (h : x.Accounted books) (hgood : Good x) {c : Call} (hc : c.Valid) :
    (x.call c).2.Accounted (books.enter (c, (x.call c).1)) ∧
      Budget.Moves x.budget (x.call c).2.budget := by
  by_cases hfailed : (x.call c).1.error? ≠ none
  · have hsame := hgood.same_of_failed hc hfailed
    rw [Books.enter_of_failed hfailed, hsame.budget]
    exact ⟨h.same hsame, .stay _⟩
  rw [not_not] at hfailed
  cases c with
  | make kernel =>
    obtain ⟨s, hs, hfilled⟩ := Sorter.exists_filled (Template.validate_eq_ok_iff.1 hc)
    have hmade := h.make hgood hfilled.totalRows hfilled.result?
    rw [hfilled.rowWidth] at hmade
    simp only [SortContext.call, SortContext.make, hs]
    exact ⟨hmade, .stay _⟩
  | evaluate id columns =>
    obtain ⟨u, hanswer⟩ := exists_ok_of_errorOf? hfailed
    obtain ⟨s, s', hs, hs', hy⟩ := exists_of_evaluate hanswer
    obtain ⟨kernel, held, hholds⟩ := hgood.sorters id s hs
    obtain ⟨hresult, hresult', hwidth, hrows⟩ := hholds.evaluate_ok hs'
    rw [SortContext.call, hanswer, hy]
    exact ⟨h.evaluate hgood hs hresult hresult' hwidth hrows, .stay _⟩
  | finish id =>
    obtain ⟨written, hanswer⟩ := exists_ok_of_errorOf? hfailed
    obtain ⟨s, result, s', b', hs, hfinal, hy⟩ := exists_of_finish hanswer
    obtain ⟨hsorted, -, hmoves⟩ := h.finalize hgood hs hfinal
    rw [SortContext.call, hanswer, hy]
    exact ⟨hsorted, hmoves⟩
  | openCursor id schema =>
    obtain ⟨cursor, hanswer⟩ := exists_ok_of_errorOf? hfailed
    obtain ⟨s, result, s', b', c, hs, hfinal, rfl, rfl, hy⟩ := exists_of_openCursor hanswer
    obtain ⟨hsorted, hheld, hmoves⟩ := h.finalize hgood hs hfinal
    rw [SortContext.call, hanswer, hy]
    exact ⟨hsorted.insert_cursor hheld, hmoves⟩
  | nextBatch cursor =>
    simp only [SortContext.call, SortContext.nextBatch]
    cases hcursor : x.cursors.get? cursor with
    | none => exact ⟨h, .stay _⟩
    | some c => exact ⟨h.advance hcursor c.result_nextBatch, .stay _⟩
  | pull cursor =>
    simp only [SortContext.call, SortContext.pull]
    cases hcursor : x.cursors.get? cursor with
    | none => exact ⟨h, .stay _⟩
    | some c => exact ⟨h.advance hcursor c.result_pull, .stay _⟩
  | dropSorter id => exact ⟨h.dropSorter id, moves_dropSorter x id⟩
  | dropCursor cursor => exact ⟨h.dropCursor cursor, moves_dropCursor x cursor⟩

end SortContext

end Collate
