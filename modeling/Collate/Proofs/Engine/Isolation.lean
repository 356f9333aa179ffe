import Collate.Proofs.Budget
import Collate.Proofs.Engine.Agreement
import Collate.Proofs.Engine.Taking

/-!
# Kernels that share a context

The only thing that the kernels of a context share is the budget, and what comes from it is a
refusal, which leaves no trace, or the number of a reservation, which no answer shows.  So a kernel
has the same answers in a context of its own without a limit: `SortContext.Isolated` relates the two
contexts, a call about others changes only the first of them (`Isolated.call_other`), and a call
about the kernel or one of its cursors is refused by the budget or answered alike
(`Isolated.call_own`).  An induction on the run of the shared context gives
`SortContext.kernels_do_not_interfere`.
-/

namespace Collate

open Input

/-! ### Sorters and cursors alone -/

/-- The greatest capacity of a budget. -/
def Budget.unlimited : Budget := .ofCapacity 0xffffffffffffffff

/-- The result under the first number of a budget. -/
def SortedResult.alone (result : SortedResult) : SortedResult := { result with reservation := 0 }

namespace ResultCursor

/-- The cursor on the result under that number. -/
def alone (c : ResultCursor) : ResultCursor := { c with result := c.result.alone }

theorem nextBatch_alone (c : ResultCursor) :
    c.alone.nextBatch = (c.nextBatch.1, c.nextBatch.2.alone) := by
  obtain ⟨schema, ⟨rows, reservation⟩, batchSize, offset⟩ := c
  simp only [alone, SortedResult.alone, nextBatch, hasNext, total, remaining]
  by_cases hnext : offset < rows.size
  · simp only [hnext, decide_true, if_true]
    cases rows.window offset (offset + min batchSize (rows.size - offset)) with
    | error e => cases e <;> rfl
    | ok columns =>
      dsimp only
      cases RecordBatch.make schema columns <;> rfl
  · simp only [hnext, decide_false, Bool.false_eq_true, if_false]

theorem pull_alone (c : ResultCursor) : c.alone.pull = (c.pull.1, c.pull.2.alone) := by
  have hnext : c.alone.hasNext = c.hasNext := rfl
  unfold pull
  rw [nextBatch_alone, hnext]
  split <;> rfl

/-- A cursor asks nothing of the budget. -/
theorem nextBatch_ne_budget (c : ResultCursor) (e : BudgetError) :
    c.nextBatch.1 ≠ .error (.budget e) := by
  obtain ⟨batch, offset, hnext⟩ | ⟨e', hnext, hbudget⟩ := c.nextBatch_cases
  · simp [hnext]
  · simpa [hnext] using hbudget e

theorem pull_ne_budget (c : ResultCursor) (e : BudgetError) :
    c.pull.1 ≠ some (.error (.budget e)) := by
  unfold pull
  split
  · exact fun h => c.nextBatch_ne_budget e (Option.some.inj h)
  · simp

end ResultCursor

namespace Sorter

variable {kernel : LoadedKernel} {held : List (List Column)} {s : Sorter}

/-- The sorter with its result under that number. -/
def alone (s : Sorter) : Sorter :=
  match s.result? with
  | some result => s.done result.alone
  | none => s

theorem alone_of_none (h : s.result? = none) : s.alone = s := by
  rw [alone, h]

theorem done_done (s : Sorter) (result result' : SortedResult) :
    (s.done result).done result' = s.done result' := by
  cases s <;> rfl

theorem alone_done (s : Sorter) (result : SortedResult) :
    (s.done result).alone = s.done result.alone := by
  rw [alone, result?_done]
  exact done_done s result result.alone

/-- A step of a sorter that the budget refuses, or that a sorter alone does as well: it answers the
same but for the number of the reservation. -/
def Private {α : Type} (number : α → α)
    (step : Sorter → Budget → Except KernelError α × Sorter × Budget) : Prop :=
  ∀ kernel held s b b', Holds kernel held s → (s.result? = none → b' = .unlimited) →
    (∃ e, step s b = (.error (.budget e), s, b)) ∨
      ∃ answer s₁ b₁ b₁', step s b = (answer, s₁, b₁) ∧
        step s.alone b' = (answer.map number, s₁.alone, b₁') ∧
        (∀ e, answer ≠ .error (.budget e)) ∧ (∃ held₁, Holds kernel held₁ s₁) ∧
        (s₁.result? = none → b₁' = .unlimited)

theorem private_evaluate (columns : List Column) : Private (fun a => a) fun s b =>
    ((s.evaluate columns).1, (s.evaluate columns).2, b) := by
  intro kernel held s b b' h hb'
  obtain hfilled | ⟨filled, result, -, rfl, -⟩ := h.state
  · rw [alone_of_none hfilled.result?]
    obtain ⟨s', hs', hheld, hfilled'⟩ | ⟨e, hs', -⟩ := hfilled.evaluate h.valid h.batches columns
    · simp only [hs']
      exact .inr ⟨.ok (), s', b, b', rfl, by rw [alone_of_none hfilled'.result?]; rfl,
        fun _ => by simp, ⟨_, h.valid, hheld, .inl hfilled'⟩, fun _ => hb' hfilled.result?⟩
    · simp only [hs']
      exact .inr ⟨.error (.misuse e), s, b, b', rfl, by rw [alone_of_none hfilled.result?]; rfl,
        fun _ => by simp, ⟨held, h⟩, hb'⟩
  · rw [alone_done]
    simp only [evaluate_done]
    exact .inr ⟨.error (.misuse .finalized), filled.done result, b, b', rfl,
      by rw [alone_done]; rfl, fun _ => by simp, ⟨held, h⟩, hb'⟩

/-- What the budget of a shared context admits, one without a limit admits. -/
theorem reserve_unlimited {b b₁ : Budget} {bytes reservation : Nat} {tag : String}
    (h : b.reserve bytes tag = .ok (reservation, b₁)) :
    ∃ b₁', Budget.unlimited.reserve bytes tag = .ok (0, b₁') := by
  have hroom := (Budget.reserve_eq_ok_iff.1 h).1
  have hlt : b.ledger.capacity.toNat < 2 ^ 64 := b.ledger.capacity.toNat_lt
  refine ⟨_, Budget.reserve_eq_ok_iff.2 ⟨?_, rfl, rfl⟩⟩
  show 0 + bytes ≤ 2 ^ 64 - 1
  omega

theorem private_finalize : Private SortedResult.alone finalize := by
  intro kernel held s b b' h hb'
  obtain hfilled | ⟨filled, result, -, rfl, -⟩ := h.state
  · rw [alone_of_none hfilled.result?, hb' hfilled.result?]
    obtain ⟨rows, hrows, hsorted⟩ := hfilled.exists_sortedRows h.valid h.batches
    have hfinal := finalize_of_sortedRows? hrows b
    cases hreserve : b.reserve s.bytes s.tag with
    | error e => exact .inl ⟨e, by rw [hfinal, hreserve]⟩
    | ok reserved =>
      obtain ⟨reservation, b₁⟩ := reserved
      obtain ⟨b₁', hreserve'⟩ := reserve_unlimited hreserve
      refine .inr ⟨.ok ⟨rows, reservation⟩, s.done ⟨rows, reservation⟩, b₁, b₁',
        by rw [hfinal, hreserve], ?_, fun _ => by simp,
        ⟨held, h.valid, h.batches, .inr ⟨s, _, hfilled, rfl, hsorted⟩⟩, fun hnone => ?_⟩
      · rw [finalize_of_sortedRows? hrows, hreserve', alone_done]
        rfl
      · rw [result?_done] at hnone
        cases hnone
  · rw [alone_done, finalize_done, finalize_done]
    refine .inr ⟨.ok result, filled.done result, b, b', rfl, by rw [alone_done]; rfl,
      fun _ => by simp, ⟨held, h⟩, hb'⟩

theorem template_alone (s : Sorter) : s.alone.template = s.template := by
  unfold alone
  split
  · exact template_done ..
  · rfl

/-- What is made of the answer of such a step is no more than the answer. -/
theorem Private.map {α β : Type} {number : α → α} {number' : β → β}
    {step : Sorter → Budget → Except KernelError α × Sorter × Budget} (h : Private number step)
    {f : Sorter → α → β} (hf : ∀ s a, f s.alone (number a) = number' (f s a)) :
    Private number' fun s b => ((step s b).1.map (f (step s b).2.1), (step s b).2) := by
  intro kernel held s b b' hholds hb'
  obtain ⟨e, hs⟩ | ⟨answer, s₁, b₁, b₁', hs, hs', hanswer, hrest⟩ := h kernel held s b b' hholds hb'
  · simp only [hs]
    exact .inl ⟨e, rfl⟩
  · simp only [hs, hs']
    refine .inr ⟨_, s₁, b₁, b₁', rfl, ?_, fun e heq => ?_, hrest⟩
    · cases answer with
      | error e => rfl
      | ok a => exact congrArg (fun answer => (Except.ok answer, s₁.alone, b₁')) (hf s₁ a)
    · cases answer with
      | error e' =>
        cases heq
        exact hanswer e rfl
      | ok a => cases heq

theorem private_finish : Private (fun a => a) finish :=
  private_finalize.map (f := fun _ result => writtenAddresses result.rows) fun _ _ => rfl

theorem private_openCursor (schema : List Field) :
    Private ResultCursor.alone fun s b => s.openCursor b schema := by
  have hopen : Private ResultCursor.alone _ := private_finalize.map
    (f := fun s result => ResultCursor.ofResult schema result s.template.batchSize)
    fun s result => by rw [template_alone]; rfl
  intro kernel held s b b' h hb'
  simp only [openCursor, template_alone]
  cases s.template.checkSchema schema with
  | error e => exact .inr ⟨_, s, b, b', rfl, rfl, fun _ => by simp, ⟨held, h⟩, hb'⟩
  | ok => exact hopen kernel held s b b' h hb'

end Sorter

namespace SortContext

variable {x x' y : SortContext} {kernel : LoadedKernel} {id cursor : Nat} {own : List Nat}

/-! ### A run seen by one kernel -/

/-- The call as it is made of a kernel alone: the kernel has the number 0 then and its cursors have
those from 1 on, in the order in which they were opened. -/
def Call.alone? (id : Nat) (own : List Nat) : Call → Option Call
  | .make _ => none
  | .evaluate i columns => if i = id then some (.evaluate 0 columns) else none
  | .finish i => if i = id then some (.finish 0) else none
  | .openCursor i schema => if i = id then some (.openCursor 0 schema) else none
  | .nextBatch i => (own.idxOf? i).map fun k => .nextBatch (k + 1)
  | .pull i => (own.idxOf? i).map fun k => .pull (k + 1)
  | .dropSorter i => if i = id then some (.dropSorter 0) else none
  | .dropCursor i => (own.idxOf? i).map fun k => .dropCursor (k + 1)

/-- The answer as a kernel alone gives it: the next cursor has the next number. -/
def Answer.alone (own : List Nat) : Answer → Answer
  | .opened (.ok _) => .opened (.ok (own.length + 1))
  | a => a

/-- The cursors of a kernel after a step. -/
def ownAfter (id : Nat) (own : List Nat) : Call × Answer → List Nat
  | (.openCursor i _, .opened (.ok cursor)) => if i = id then own ++ [cursor] else own
  | _ => own

/-- The call failed because the budget refused bytes. -/
def Answer.isRefusal (a : Answer) : Bool :=
  match a.error? with
  | some (.budget _) => true
  | _ => false

/-- What a kernel sees of a run: the calls about it and its cursors that the budget did not
refuse. -/
def project (id : Nat) (own : List Nat) : List (Call × Answer) → List (Call × Answer)
  | [] => []
  | (c, a) :: steps =>
    let rest := project id (ownAfter id own (c, a)) steps
    match c.alone? id own with
    | some c' => if a.isRefusal then rest else (c', a.alone own) :: rest
    | none => rest

theorem Call.sorter?_ne_of_alone? {c : Call} (h : c.alone? id own = none) :
    c.sorter? ≠ some id := by
  cases c <;> simp_all [Call.alone?, Call.sorter?]

theorem getElem?_of_idxOf? {i k : Nat} (h : own.idxOf? i = some k) : own[k]? = some i := by
  obtain ⟨hlt, heq, -⟩ := List.idxOf?_eq_some_iff.1 h
  rw [List.getElem?_eq_getElem hlt, heq]

/-- Only a call about a kernel can open a cursor on it. -/
theorem ownAfter_of_alone? {c : Call} (h : c.alone? id own = none) (a : Answer) :
    ownAfter id own (c, a) = own := by
  unfold ownAfter
  split
  · next heq =>
    cases heq
    exact if_neg fun hi => Call.sorter?_ne_of_alone? h (congrArg some hi)
  · rfl

theorem isRefusal_of_ne {α : Type} {a : Answer} {answer : Except KernelError α}
    (ha : a.error? = errorOf? answer) (h : ∀ e, answer ≠ .error (.budget e)) :
    a.isRefusal = false := by
  unfold Answer.isRefusal
  rw [ha]
  cases answer with
  | ok a => rfl
  | error e =>
    cases e with
    | budget e => exact absurd rfl (h e)
    | _ => rfl

theorem isRefusal_of_eq {a : Answer} {e : BudgetError} (ha : a.error? = some (.budget e)) :
    a.isRefusal = true := by
  rw [Answer.isRefusal, ha]

theorem isRefusal_pull (c : ResultCursor) : (Answer.pulled c.pull.1).isRefusal = false := by
  have hpull := c.pull_ne_budget
  cases hanswer : c.pull.1 with
  | none => rfl
  | some batch =>
    rw [hanswer] at hpull
    exact isRefusal_of_ne (a := .pulled (some batch)) rfl fun e heq => hpull e (congrArg some heq)

/-! ### The kernel among others and alone -/

/-- A kernel and its cursors in a context with others and in one of their own. -/
structure Isolated (kernel : LoadedKernel) (id : Nat) (own : List Nat) (x y : SortContext) :
    Prop where
  next : y.next = own.length + 1
  sorter_lt : id < x.next
  cursors_lt : ∀ cursor ∈ own, cursor < x.next
  distinct : own.Nodup
  holds : ∀ s, x.sorters.get? id = some s → ∃ held, Sorter.Holds kernel held s
  sorter : y.sorters.get? 0 = (x.sorters.get? id).map Sorter.alone
  cursors : ∀ (k cursor : Nat), own[k]? = some cursor →
    y.cursors.get? (k + 1) = (x.cursors.get? cursor).map ResultCursor.alone
  budget : ∀ s, x.sorters.get? id = some s → s.result? = none → y.budget = .unlimited

/-- A call about the kernel is refused by the budget, and the contexts stay as they are, or it is
answered as it is answered alone. -/
def Mirrored (kernel : LoadedKernel) (id : Nat) (own : List Nat) (x y : SortContext)
    (c c' : Call) : Prop :=
  let after := ownAfter id own (c, (x.call c).1)
  ((x.call c).1.isRefusal = true ∧ Isolated kernel id after (x.call c).2 y) ∨
    ((x.call c).1.isRefusal = false ∧ (y.call c').1 = (x.call c).1.alone own ∧
      Isolated kernel id after (x.call c).2 (y.call c').2)

namespace Isolated

/-- What changes others changes nothing here. -/
theorem of_eq (h : Isolated kernel id own x y) (hnext : x.next ≤ x'.next)
    (hsorter : x'.sorters.get? id = x.sorters.get? id)
    (hcursors : ∀ cursor ∈ own, x'.cursors.get? cursor = x.cursors.get? cursor) :
    Isolated kernel id own x' y where
  next := h.next
  sorter_lt := h.sorter_lt.trans_le hnext
  cursors_lt cursor hm := (h.cursors_lt cursor hm).trans_le hnext
  distinct := h.distinct
  holds := hsorter ▸ h.holds
  sorter := hsorter ▸ h.sorter
  cursors k cursor hk := (hcursors cursor (List.mem_of_getElem? hk)) ▸ h.cursors k cursor hk
  budget := hsorter ▸ h.budget

theorem insert_sorter (h : Isolated kernel id own x y) {s : Sorter} {b b' : Budget}
    (hholds : ∃ held, Sorter.Holds kernel held s) (hb' : s.result? = none → b' = .unlimited) :
    Isolated kernel id own { x with budget := b, sorters := x.sorters.insert id s }
      { y with budget := b', sorters := y.sorters.insert 0 s.alone } := by
  have hsorter : (x.sorters.insert id s).get? id = some s := by
    rw [Table.get?_insert, if_pos rfl]
  refine { h with holds := fun s' hs' => ?_, sorter := ?_, budget := fun s' hs' => ?_ }
  · obtain rfl : s = s' := Option.some.inj (hsorter.symm.trans hs')
    exact hholds
  · show (y.sorters.insert 0 s.alone).get? 0 = ((x.sorters.insert id s).get? id).map _
    rw [hsorter, Table.get?_insert, if_pos rfl]
    rfl
  · obtain rfl : s = s' := Option.some.inj (hsorter.symm.trans hs')
    exact hb'

/-- A step of the kernel is refused by the budget, or is the same alone. -/
theorem onSorter {α : Type} {number : α → α}
    {step : Sorter → Budget → Except KernelError α × Sorter × Budget}
    (h : Isolated kernel id own x y) (hstep : Sorter.Private number step) :
    (∃ e x', x.onSorter id step = (.error (.budget e), x') ∧ Isolated kernel id own x' y) ∨
      ∃ answer x' y', x.onSorter id step = (answer, x') ∧
        y.onSorter 0 step = (answer.map number, y') ∧ (∀ e, answer ≠ .error (.budget e)) ∧
        Isolated kernel id own x' y' := by
  have hsorter := h.sorter
  unfold SortContext.onSorter
  cases hs : x.sorters.get? id with
  | none =>
    rw [hs] at hsorter
    simp only [hsorter, Option.map_none]
    exact .inr ⟨.error .absent, x, y, rfl, rfl, fun _ => by simp, h⟩
  | some s =>
    rw [hs] at hsorter
    simp only [hsorter, Option.map_some]
    obtain ⟨held, hholds⟩ := h.holds s hs
    obtain ⟨e, hs₁⟩ | ⟨answer, s₁, b₁, b₁', hs₁, hs₁', hanswer, hholds₁, hb₁'⟩ :=
      hstep kernel held s x.budget y.budget hholds (h.budget s hs)
    · simp only [hs₁]
      have hsame := same_insert_sorter hs
      exact .inl ⟨e, _, rfl, h.of_eq le_rfl (hsame.sorters id) fun cursor _ => rfl⟩
    · simp only [hs₁, hs₁']
      exact .inr ⟨answer, _, _, rfl, rfl, hanswer, h.insert_sorter hholds₁ hb₁'⟩

theorem index_eq_iff (h : Isolated kernel id own x y) {k k' cursor cursor' : Nat}
    (hk : own[k]? = some cursor) (hk' : own[k']? = some cursor') : k = k' ↔ cursor = cursor' := by
  constructor
  · rintro rfl
    exact Option.some.inj (hk.symm.trans hk')
  · rintro rfl
    exact (List.getElem?_inj (List.getElem?_eq_some_iff.1 hk).1 h.distinct).1 (hk.trans hk'.symm)

theorem insert_cursor (h : Isolated kernel id own x y) (c : ResultCursor) :
    Isolated kernel id (own ++ [x.next])
      { x with cursors := x.cursors.insert x.next c, next := x.next + 1 }
      { y with cursors := y.cursors.insert y.next c.alone, next := y.next + 1 } where
  next := by
    rw [List.length_append]
    exact congrArg (· + 1) h.next
  sorter_lt := h.sorter_lt.trans (Nat.lt_succ_self _)
  cursors_lt cursor hm := by
    obtain hm | hm := List.mem_append.1 hm
    · exact (h.cursors_lt cursor hm).trans (Nat.lt_succ_self _)
    · exact List.mem_singleton.1 hm ▸ Nat.lt_succ_self _
  distinct := List.nodup_append_comm.1
    (List.nodup_cons.2 ⟨fun hm => (h.cursors_lt _ hm).false, h.distinct⟩)
  holds := h.holds
  sorter := h.sorter
  cursors k cursor hk := by
    rw [Table.get?_insert, Table.get?_insert, h.next]
    obtain hlt | heq := Nat.lt_succ_iff_lt_or_eq.1
      ((List.getElem?_eq_some_iff.1 hk).1.trans_eq List.length_append)
    · rw [List.getElem?_append_left hlt] at hk
      rw [if_neg (Nat.succ_lt_succ hlt).ne,
        if_neg (h.cursors_lt cursor (List.mem_of_getElem? hk)).ne]
      exact h.cursors k cursor hk
    · rw [heq, List.getElem?_concat_length] at hk
      cases hk
      rw [heq, if_pos rfl, if_pos rfl]
      rfl
  budget := h.budget

/-- A read moves a cursor on. -/
theorem set_cursor (h : Isolated kernel id own x y) {k : Nat} (hk : own[k]? = some cursor)
    (c : ResultCursor) :
    Isolated kernel id own { x with cursors := x.cursors.insert cursor c }
      { y with cursors := y.cursors.insert (k + 1) c.alone } := by
  refine { h with cursors := fun k' cursor' hk' => ?_ }
  rw [Table.get?_insert, Table.get?_insert]
  by_cases hsame : k' = k
  · rw [if_pos (congrArg (· + 1) hsame), if_pos ((h.index_eq_iff hk' hk).1 hsame)]
    rfl
  · rw [if_neg (fun heq => hsame (Nat.succ.inj heq)),
      if_neg (fun heq => hsame ((h.index_eq_iff hk' hk).2 heq))]
    exact h.cursors k' cursor' hk'

theorem dropSorter (h : Isolated kernel id own x y) :
    Isolated kernel id own (x.dropSorter id) (y.dropSorter 0) := by
  obtain ⟨hcursors, hnext, hsorters⟩ := dropSorter_frame x id
  obtain ⟨hcursors', hnext', hsorters'⟩ := dropSorter_frame y 0
  have hnone : (x.dropSorter id).sorters.get? id = none := (hsorters id).trans (if_pos rfl)
  refine ⟨hnext'.trans h.next, hnext ▸ h.sorter_lt, hnext ▸ h.cursors_lt, h.distinct,
    fun s hs => ?_, ?_, fun k cursor hk => ?_, fun s hs => ?_⟩
  · rw [hnone] at hs
    cases hs
  · rw [hnone]
    exact (hsorters' 0).trans (if_pos rfl)
  · rw [hcursors, hcursors']
    exact h.cursors k cursor hk
  · rw [hnone] at hs
    cases hs

theorem dropCursor (h : Isolated kernel id own x y) {k : Nat} (hk : own[k]? = some cursor) :
    Isolated kernel id own (x.dropCursor cursor) (y.dropCursor (k + 1)) := by
  obtain ⟨hsorters, hnext, hcursors⟩ := dropCursor_frame x cursor
  obtain ⟨hsorters', hnext', hcursors'⟩ := dropCursor_frame y (k + 1)
  refine ⟨hnext'.trans h.next, hnext ▸ h.sorter_lt, hnext ▸ h.cursors_lt, h.distinct,
    hsorters ▸ h.holds, ?_, fun k' cursor' hk' => ?_, fun s hs hresult => ?_⟩
  · rw [hsorters, hsorters']
    exact h.sorter
  · rw [hcursors, hcursors']
    by_cases hsame : k' = k
    · rw [if_pos (congrArg (· + 1) hsame), if_pos ((h.index_eq_iff hk' hk).1 hsame)]
      rfl
    · rw [if_neg (fun heq => hsame (Nat.succ.inj heq)),
        if_neg (fun heq => hsame ((h.index_eq_iff hk' hk).2 heq))]
      exact h.cursors k' cursor' hk'
  · -- Nothing has been reserved, so there is nothing to give back.
    have hbudget := h.budget s (hsorters ▸ hs) hresult
    unfold SortContext.dropCursor SortContext.releaseUnheld
    cases y.cursors.get? (k + 1) with
    | none => exact hbudget
    | some c =>
      dsimp only
      split_ifs
      · exact hbudget
      · exact (congrArg (Budget.release · c.result.reservation) hbudget).trans rfl

/-! ### Calls -/

/-- A call about others changes nothing for the kernel. -/
theorem call_other (h : Isolated kernel id own x y) {c : Call} (hc : c.alone? id own = none) :
    Isolated kernel id own (x.call c).2 y := by
  have hcursor : ∀ cursor ∈ own, c.cursor? ≠ some cursor := by
    intro cursor hm heq
    cases c <;> simp_all [Call.alone?, Call.cursor?, List.idxOf?_eq_none_iff]
  exact h.of_eq (next_le_call x c) (get?_sorters_call h.sorter_lt (Call.sorter?_ne_of_alone? hc))
    fun cursor hm => get?_cursors_call (h.cursors_lt cursor hm) (hcursor cursor hm)

/-- A step of the kernel that opens no cursor. -/
theorem call_onSorter {α : Type}
    {step : Sorter → Budget → Except KernelError α × Sorter × Budget} {c c' : Call}
    {f : Except KernelError α → Answer} (h : Isolated kernel id own x y)
    (hstep : Sorter.Private (fun a => a) step)
    (hc : x.call c = (f (x.onSorter id step).1, (x.onSorter id step).2))
    (hc' : y.call c' = (f (y.onSorter 0 step).1, (y.onSorter 0 step).2))
    (herror : ∀ a, (f a).error? = errorOf? a) (halone : ∀ a, (f a).alone own = f a)
    (hown : ∀ a, ownAfter id own (c, f a) = own) : Mirrored kernel id own x y c c' := by
  unfold Mirrored
  rw [hc, hc', hown, halone]
  obtain ⟨e, x', hx, h'⟩ | ⟨answer, x', y', hx, hy, hanswer, h'⟩ := h.onSorter hstep
  · rw [hx]
    exact .inl ⟨isRefusal_of_eq (herror _), h'⟩
  · rw [hx, hy]
    refine .inr ⟨isRefusal_of_ne (herror _) hanswer, ?_, h'⟩
    cases answer <;> rfl

/-- A cursor that the kernel opens is one of its own. -/
theorem call_openCursor (h : Isolated kernel id own x y) (schema : List Field) :
    Mirrored kernel id own x y (.openCursor id schema) (.openCursor 0 schema) := by
  unfold Mirrored
  simp only [SortContext.call, SortContext.openCursor]
  obtain ⟨e, x', hx, h'⟩ | ⟨answer, x', y', hx, hy, hanswer, h'⟩ :=
    h.onSorter (Sorter.private_openCursor schema)
  · rw [hx]
    exact .inl ⟨rfl, h'⟩
  · rw [hx, hy]
    cases answer with
    | error e => exact .inr ⟨isRefusal_of_ne rfl hanswer, rfl, h'⟩
    | ok c =>
      have hcursor := h'.insert_cursor c
      have hown : ownAfter id own (.openCursor id schema, .opened (.ok x'.next)) =
          own ++ [x'.next] := if_pos rfl
      simp only [Except.map]
      rw [hown]
      exact .inr ⟨rfl, congrArg (fun i => Answer.opened (.ok i)) h'.next, hcursor⟩

/-- A call about the kernel is refused by the budget and leaves it as it is, or is answered as it is
answered alone. -/
theorem call_own (h : Isolated kernel id own x y) {c c' : Call} (hc : c.alone? id own = some c') :
    Mirrored kernel id own x y c c' := by
  cases c with
  | make kernel => cases hc
  | evaluate i columns =>
    obtain ⟨rfl, ⟨⟩⟩ := Option.ite_none_right_eq_some.1 hc
    exact h.call_onSorter (f := .evaluated) (Sorter.private_evaluate columns) rfl rfl
      (fun _ => rfl) (fun _ => rfl) fun _ => rfl
  | finish i =>
    obtain ⟨rfl, ⟨⟩⟩ := Option.ite_none_right_eq_some.1 hc
    exact h.call_onSorter (f := .finished) Sorter.private_finish rfl rfl
      (fun _ => rfl) (fun _ => rfl) fun _ => rfl
  | openCursor i schema =>
    obtain ⟨rfl, ⟨⟩⟩ := Option.ite_none_right_eq_some.1 hc
    exact h.call_openCursor schema
  | nextBatch i =>
    obtain ⟨k, hk, rfl⟩ := Option.map_eq_some_iff.1 hc
    have hcursor := h.cursors k i (getElem?_of_idxOf? hk)
    simp only [Mirrored, SortContext.call, SortContext.nextBatch]
    cases hi : x.cursors.get? i with
    | none =>
      rw [hi] at hcursor
      simp only [hcursor, Option.map_none]
      exact .inr ⟨rfl, rfl, h⟩
    | some c =>
      rw [hi] at hcursor
      simp only [hcursor, Option.map_some, c.nextBatch_alone]
      exact .inr ⟨isRefusal_of_ne rfl c.nextBatch_ne_budget, rfl,
        h.set_cursor (getElem?_of_idxOf? hk) _⟩
  | pull i =>
    obtain ⟨k, hk, rfl⟩ := Option.map_eq_some_iff.1 hc
    have hcursor := h.cursors k i (getElem?_of_idxOf? hk)
    simp only [Mirrored, SortContext.call, SortContext.pull]
    cases hi : x.cursors.get? i with
    | none =>
      rw [hi] at hcursor
      simp only [hcursor, Option.map_none]
      exact .inr ⟨rfl, rfl, h⟩
    | some c =>
      rw [hi] at hcursor
      simp only [hcursor, Option.map_some, c.pull_alone]
      exact .inr ⟨isRefusal_pull c, rfl, h.set_cursor (getElem?_of_idxOf? hk) _⟩
  | dropSorter i =>
    obtain ⟨rfl, ⟨⟩⟩ := Option.ite_none_right_eq_some.1 hc
    exact .inr ⟨rfl, rfl, h.dropSorter⟩
  | dropCursor i =>
    obtain ⟨k, hk, rfl⟩ := Option.map_eq_some_iff.1 hc
    exact .inr ⟨rfl, rfl, h.dropCursor (getElem?_of_idxOf? hk)⟩

/-- What the kernel sees of a run is a run of it alone. -/
theorem steps (h : Isolated kernel id own x y) (calls : List Call) :
    y.steps ((project id own (x.steps calls)).map Prod.fst) = project id own (x.steps calls) := by
  induction calls generalizing x y own with
  | nil => rfl
  | cons c calls ih =>
    rw [SortContext.steps, project]
    cases hc : c.alone? id own with
    | none =>
      rw [ownAfter_of_alone? hc]
      exact ih (h.call_other hc)
    | some c' =>
      obtain ⟨hrefused, h'⟩ | ⟨hanswered, hanswer, h'⟩ := h.call_own hc
      · simp only [hrefused, if_true]
        exact ih h'
      · simp only [hanswered, Bool.false_eq_true, if_false, List.map_cons, SortContext.steps]
        rw [hanswer, ih h']

end Isolated

/-- An empty context without a limit. -/
def unlimited : SortContext := { budget := .unlimited }

/-- A kernel that is made has no cursors yet. -/
theorem isolated_make (x : SortContext) (hv : kernel.template.Valid) :
    ∃ x' y, x.call (.make kernel) = (.made (.ok x.next), x') ∧
      unlimited.call (.make kernel) = (.made (.ok 0), y) ∧
      Isolated kernel x.next [] x' y := by
  obtain ⟨s, hs, hfilled⟩ := Sorter.exists_filled hv
  simp only [SortContext.call, SortContext.make, hs]
  have hsorter : (x.sorters.insert x.next s).get? x.next = some s := by
    rw [Table.get?_insert, if_pos rfl]
  refine ⟨_, _, rfl, rfl, rfl, Nat.lt_succ_self x.next, List.forall_mem_nil _, List.nodup_nil,
    fun s' hs' => ⟨[], ?_⟩, ?_, fun k cursor hk => (by cases hk),
    fun _ _ _ => rfl⟩
  · obtain rfl : s = s' := Option.some.inj (hsorter.symm.trans hs')
    exact hfilled.holds hv
  · show ((∅ : Table Nat Sorter).insert 0 s).get? 0 =
      ((x.sorters.insert x.next s).get? x.next).map _
    rw [hsorter, Table.get?_insert, if_pos rfl, Option.map_some,
      Sorter.alone_of_none hfilled.result?]

/-- Kernels that share a context do not interfere.  Whatever is called of a context in which a
kernel has been made, with other kernels and cursors in it: without the calls about the others, and
without its own calls that the budget refused, the kernel and its cursors have had the same answers
as in a context of their own without a limit. -/
theorem kernels_do_not_interfere (x₀ : SortContext) {kernel : LoadedKernel}
    (hv : kernel.template.validate = .ok ()) :
    ∃ id x y, x₀.call (.make kernel) = (.made (.ok id), x) ∧
      unlimited.call (.make kernel) = (.made (.ok 0), y) ∧
      ∀ calls : List Call, y.steps ((project id [] (x.steps calls)).map Prod.fst) =
        project id [] (x.steps calls) := by
  obtain ⟨x, y, hx, hy, h⟩ := isolated_make x₀ (Template.validate_eq_ok_iff.1 hv)
  exact ⟨x₀.next, x, y, hx, hy, h.steps⟩

/-- A context with a kernel of floats, under a budget of 12 bytes. -/
def crowdedContext : SortContext :=
  (ofCapacity 12).after [.make (Sorter.floatKernel .inPlace)]

/-- The other kernel of the context uses up the budget, so that one made behind it is refused until
the other is dropped. -/
def crowdedRun : List Call :=
  Sorter.floatBatches.mapIdx (fun id columns => .evaluate id columns) ++
    [.finish 0, .finish 1, .dropSorter 0, .openCursor 1 [⟨"x", .column .float32, true⟩], .pull 2,
      .pull 2]

theorem crowdedRun_seen_alone :
    ∃ x y, crowdedContext.call (.make (Sorter.floatKernel .inPlace)) = (.made (.ok 1), x) ∧
      unlimited.call (.make (Sorter.floatKernel .inPlace)) = (.made (.ok 0), y) ∧
      (project 1 [] (x.steps crowdedRun)).length = 4 ∧
      y.steps ((project 1 [] (x.steps crowdedRun)).map Prod.fst) =
        project 1 [] (x.steps crowdedRun) := by
  have hvalid : (Sorter.floatKernel .inPlace).template.validate = .ok () := by decide
  obtain ⟨id, x, y, hx, hy, halone⟩ := kernels_do_not_interfere crowdedContext hvalid
  have hmade : crowdedContext.call (.make (Sorter.floatKernel .inPlace)) =
      (.made (.ok 1), (crowdedContext.call (.make (Sorter.floatKernel .inPlace))).2) := rfl
  rw [hmade] at hx
  cases hx
  exact ⟨_, y, hmade, hy, by cbv, halone crowdedRun⟩

end SortContext

end Collate
