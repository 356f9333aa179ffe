import Collate.Proofs.Engine.Delivery
import Collate.Proofs.Engine.SameRows

/-!
# Draining a cursor

What a cursor gives in a run, put together, is the sorted rows up to where the cursor stands
(`SortContext.Gives.after`): an induction on the run over one step lemma (`SortContext.Gives.call`),
for every schema and whatever else is called in between.  A cursor that says that no batches are
left stands behind the last row, so what it has given is all of the sort
(`SortContext.Gives.column_of_drained`).  With `Template.SameRows` this gives: how the rows come in
batches, and how they go out in batches, does not matter (`SortContext.cuts_do_not_matter`).
-/

namespace Collate

open Input

theorem RecordBatch.columns_of_make {schema : List Field} {columns : List Column}
    {batch : RecordBatch} (h : make schema columns = .ok batch) : batch.columns = columns := by
  unfold make at h
  split_ifs at h
  cases columns with
  | nil => cases h
  | cons first rest =>
    dsimp only at h
    split at h
    · cases h
    · split_ifs at h
      cases h
      rfl

variable {t : Template} {held : List (List Column)} {schema : List Field}

theorem Template.columns_of_makeBatch {start stop : Nat} {batch : RecordBatch}
    (h : t.makeBatch held schema start stop = .ok batch) :
    batch.columns = t.sortedWindow held start stop := by
  unfold makeBatch at h
  split_ifs at h
  exact RecordBatch.columns_of_make h

/-! ### One read -/

/-- A cursor moves on behind a batch that shows the rows in between. -/
structure ResultCursor.MovesTo (t : Template) (held : List (List Column)) (c c' : ResultCursor)
    (batch : RecordBatch) : Prop where
  reads : c'.Reads t held
  le : c.offset ≤ c'.offset
  columns : batch.columns = t.sortedWindow held c.offset c'.offset

/-- A read moves the cursor on behind the batch that it gives; or it gives none and the cursor
stays, and if there are none left then it is behind the last row. -/
theorem ResultCursor.Reads.moves {c : ResultCursor} (h : c.Reads t held) :
    (∃ batch c', c.nextBatch = (.ok batch, c') ∧ c.MovesTo t held c' batch) ∨
      (∃ e, c.nextBatch = (.error (.batch e), c)) ∨
      c.nextBatch = (.error (.exhausted (totalRows held)), c) ∧ c.offset = totalRows held := by
  by_cases hlt : c.offset < totalRows held
  · have hnext := h.nextBatch_of_lt hlt
    split at hnext
    · next batch hmake =>
      exact .inl ⟨batch, _, hnext, { h with offset := Nat.min_le_right _ _ },
        Nat.le_min.2 ⟨Nat.le_add_right _ _, hlt.le⟩, Template.columns_of_makeBatch hmake⟩
    · exact .inr (.inl ⟨_, hnext⟩)
  · have hle := not_lt.1 hlt
    exact .inr (.inr ⟨h.nextBatch_of_le hle, Nat.le_antisymm h.offset hle⟩)

namespace SortContext

variable {x : SortContext} {cursor : Nat} {steps : List (Call × Answer)}

/-! ### What a cursor gives -/

/-- The batch that a cursor gave in a step. -/
def givenIn (cursor : Nat) : Call × Answer → Option RecordBatch
  | (.nextBatch i, .batch (.ok batch)) => if i = cursor then some batch else none
  | (.pull i, .pulled (some (.ok batch))) => if i = cursor then some batch else none
  | _ => none

/-- The batches that a cursor gave in a run. -/
def given (cursor : Nat) (steps : List (Call × Answer)) : List RecordBatch :=
  steps.filterMap (givenIn cursor)

/-- A cursor said in a step that there are no batches left. -/
def SaysDone (cursor : Nat) : Call × Answer → Prop
  | (.nextBatch i, .batch (.error (.exhausted _))) => i = cursor
  | (.pull i, .pulled none) => i = cursor
  | _ => False

/-- A cursor said in a run that there are no batches left. -/
def Drained (cursor : Nat) (steps : List (Call × Answer)) : Prop :=
  ∃ step ∈ steps, SaysDone cursor step

theorem givenIn_of_not_reads {c : Call} (hreads : c.reads cursor = false) (a : Answer) :
    givenIn cursor (c, a) = none := by
  unfold givenIn
  split
  · next heq =>
    cases heq
    simpa [Call.reads] using hreads
  · next heq =>
    cases heq
    simpa [Call.reads] using hreads
  · rfl

theorem not_saysDone_of_not_reads {c : Call} (hreads : c.reads cursor = false) (a : Answer) :
    ¬SaysDone cursor (c, a) := by
  unfold SaysDone
  split
  · next heq =>
    cases heq
    simpa [Call.reads] using hreads
  · next heq =>
    cases heq
    simpa [Call.reads] using hreads
  · exact id

/-- A cursor has given the sorted rows up to where it stands, in columns of their types; if it has
said that no batches are left then it stands behind the last row. -/
structure Gave (t : Template) (held : List (List Column)) (cursor : Nat) (c : ResultCursor)
    (steps : List (Call × Answer)) : Prop where
  reads : c.Reads t held
  types : ∀ batch ∈ given cursor steps,
    batch.columns.map (·.type) = t.columnTypes.map DataType.column
  column : ∀ (slot : Nat) (f : FieldSlot), t.fields[slot]? = some f →
    columnCells ((given cursor steps).map (·.columns)) slot f.type =
      (t.sortedColumn held slot f.type).take c.offset
  drained : Drained cursor steps → c.offset = totalRows held

namespace Gave

variable {c c' : ResultCursor} {step : Call × Answer}

/-- A step in which the cursor gives nothing. -/
theorem kept (h : Gave t held cursor c steps) (hnone : givenIn cursor step = none)
    (hdone : SaysDone cursor step → c.offset = totalRows held) :
    Gave t held cursor c (steps ++ [step]) := by
  have hgiven : given cursor (steps ++ [step]) = given cursor steps := by
    simp [given, hnone]
  refine ⟨h.reads, hgiven ▸ h.types, hgiven ▸ h.column, ?_⟩
  rintro ⟨s, hs, hsays⟩
  rcases List.mem_append.1 hs with hs | hs
  · exact h.drained ⟨s, hs, hsays⟩
  · exact hdone (List.mem_singleton.1 hs ▸ hsays)

/-- A step in which the cursor gives a batch and moves on. -/
theorem moved (h : Gave t held cursor c steps) {batch : RecordBatch}
    (hsome : givenIn cursor step = some batch) (hmoves : c.MovesTo t held c' batch)
    (hdone : ¬SaysDone cursor step) : Gave t held cursor c' (steps ++ [step]) := by
  have hgiven : given cursor (steps ++ [step]) = given cursor steps ++ [batch] := by
    simp [given, hsome]
  refine ⟨hmoves.reads, ?_, fun slot f hf => ?_, ?_⟩
  · rw [hgiven, List.forall_mem_append]
    refine ⟨h.types, fun b hb => ?_⟩
    rw [List.mem_singleton.1 hb, hmoves.columns]
    exact t.map_type_sortedWindow held _ _
  · obtain ⟨n, hn⟩ := Nat.exists_eq_add_of_le hmoves.le
    have hcolumn := h.column slot f hf
    rw [columnCells] at hcolumn
    rw [hgiven, List.map_append, columnCells, List.flatMap_append, hcolumn, List.map_singleton,
      List.flatMap_singleton, hmoves.columns, Template.cells_sortedWindow hf,
      List.extract_eq_take_drop, hn, Nat.add_sub_cancel_left, List.take_add]
  · rintro ⟨s, hs, hsays⟩
    rcases List.mem_append.1 hs with hs | hs
    · -- a cursor behind the last row moves nowhere
      have hend := h.drained ⟨s, hs, hsays⟩
      exact Nat.le_antisymm hmoves.reads.offset (hend ▸ hmoves.le)
    · exact absurd (List.mem_singleton.1 hs ▸ hsays) hdone

theorem nextBatch (h : Gave t held cursor c steps) : Gave t held cursor c.nextBatch.2
    (steps ++ [(.nextBatch cursor, .batch c.nextBatch.1)]) := by
  obtain ⟨batch, c', hnext, hmoves⟩ | ⟨e, hnext⟩ | ⟨hnext, hend⟩ := h.reads.moves
  · rw [hnext]
    exact h.moved (if_pos rfl) hmoves id
  · rw [hnext]
    exact h.kept rfl False.elim
  · rw [hnext]
    exact h.kept rfl fun _ => hend

theorem pull (h : Gave t held cursor c steps) : Gave t held cursor c.pull.2
    (steps ++ [(.pull cursor, .pulled c.pull.1)]) := by
  by_cases hlt : c.offset < totalRows held
  · rw [h.reads.pull_of_lt hlt]
    obtain ⟨batch, c', hnext, hmoves⟩ | ⟨e, hnext⟩ | ⟨-, hend⟩ := h.reads.moves
    · rw [hnext]
      exact h.moved (if_pos rfl) hmoves id
    · rw [hnext]
      exact h.kept rfl False.elim
    · exact absurd hend hlt.ne
  · have hle := not_lt.1 hlt
    rw [h.reads.pull_of_le hle]
    exact h.kept rfl fun _ => Nat.le_antisymm h.reads.offset hle

end Gave

/-- Under its number the context has a cursor that has given the sorted rows up to where it
stands. -/
def Gives (x : SortContext) (t : Template) (held : List (List Column)) (cursor : Nat)
    (steps : List (Call × Answer)) : Prop :=
  cursor < x.next ∧ ∃ c, x.cursors.get? cursor = some c ∧ Gave t held cursor c steps

theorem Reading.gives (h : x.Reading cursor t held schema 0) : x.Gives t held cursor [] := by
  obtain ⟨hlt, c, hc, hreads, -, hoffset⟩ := h
  have hzero : c.offset = 0 := by rw [hoffset, Template.batchStart, Nat.zero_mul, Nat.zero_min]
  refine ⟨hlt, c, hc, hreads, by simp [given], fun slot f _ => ?_, ?_⟩
  · rw [hzero]
    rfl
  · rintro ⟨s, hs, -⟩
    cases hs

namespace Gives

theorem insert_cursor (h : cursor < x.next) {c : ResultCursor} (hc : Gave t held cursor c steps) :
    Gives { x with cursors := x.cursors.insert cursor c } t held cursor steps :=
  ⟨h, c, by rw [Table.get?_insert, if_pos rfl], hc⟩

/-- In a call a cursor gives a batch and moves on or it stays, until it is dropped. -/
theorem call (h : x.Gives t held cursor steps) {c : Call} (hc : c ≠ .dropCursor cursor) :
    (x.call c).2.Gives t held cursor (steps ++ [(c, (x.call c).1)]) := by
  obtain ⟨hlt, r, hr, hgave⟩ := h
  by_cases hreads : c.reads cursor
  · cases c with
    | nextBatch i =>
      obtain rfl : i = cursor := by simpa [Call.reads] using hreads
      simp only [SortContext.call, SortContext.nextBatch, hr]
      exact insert_cursor hlt hgave.nextBatch
    | pull i =>
      obtain rfl : i = cursor := by simpa [Call.reads] using hreads
      simp only [SortContext.call, SortContext.pull, hr]
      exact insert_cursor hlt hgave.pull
    | _ => cases hreads
  · have hreads : c.reads cursor = false := by simpa using hreads
    refine ⟨hlt.trans_le (next_le_call x c), r, ?_, hgave.kept (givenIn_of_not_reads hreads _)
      fun hsays => absurd hsays (not_saysDone_of_not_reads hreads _)⟩
    rw [get?_cursors_call hlt (Call.cursor?_ne hc hreads), hr]

/-- In a run a cursor gives the sorted rows one after the other. -/
theorem after (h : x.Gives t held cursor steps) {calls : List Call}
    (hcalls : .dropCursor cursor ∉ calls) :
    (x.after calls).Gives t held cursor (steps ++ x.steps calls) := by
  induction calls generalizing x steps with
  | nil => simpa [SortContext.after, SortContext.steps] using h
  | cons c calls ih =>
    rw [List.mem_cons, not_or] at hcalls
    rw [SortContext.steps, List.append_cons]
    exact ih (h.call (Ne.symm hcalls.1)) hcalls.2

/-- A cursor that has no batches left has given all sorted rows. -/
theorem column_of_drained (h : x.Gives t held cursor steps) (hdrained : Drained cursor steps)
    {slot : Nat} {f : FieldSlot} (hf : t.fields[slot]? = some f) :
    columnCells ((given cursor steps).map (·.columns)) slot f.type =
      t.sortedColumn held slot f.type := by
  obtain ⟨-, c, -, hgave⟩ := h
  rw [hgave.column slot f hf, hgave.drained hdrained, ← hgave.reads.batches.length_sortedColumn hf,
    List.take_length]

theorem types (h : x.Gives t held cursor steps) : ∀ batch ∈ given cursor steps,
    batch.columns.map (·.type) = t.columnTypes.map DataType.column := by
  obtain ⟨-, c, -, hgave⟩ := h
  exact hgave.types

end Gives

/-! ### Draining -/

/-- Where no batch is refused, pulls give the output batches one after the other, and then
nothing. -/
theorem Reading.steps_pulls {k : Nat} (h : x.Reading cursor t held schema k)
    (hmade : ∀ k, t.refusal? held schema k = none) (n : Nat) :
    x.steps (List.replicate n (.pull cursor)) = (List.range n).map fun i =>
      (.pull cursor, .pulled ((t.output held schema)[k + i]?.map .ok)) := by
  induction n generalizing x k with
  | zero => rfl
  | succ n ih =>
    have hreads : Call.reads cursor (.pull cursor) := by simp [Call.reads]
    obtain ⟨hanswer, hnext⟩ := h.call_made (hmade k) hreads
    rw [List.replicate_succ, SortContext.steps, ih hnext, hanswer, List.range_succ_eq_map,
      List.map_cons, List.map_map]
    refine congrArg (List.cons _) (List.map_congr_left fun i _ => ?_)
    rw [Function.comp_apply, Nat.add_right_comm, Nat.add_assoc]

/-- So the cursor is drained by as many pulls as there are rows, and one more. -/
theorem Reading.drained (h : x.Reading cursor t held schema 0)
    (hnulls : Template.AllowsNulls schema held) (hcounts : ∀ k, t.CountsBytes held k) :
    Drained cursor (x.steps (List.replicate (totalRows held + 1) (.pull cursor))) := by
  have hend : ¬totalRows held * t.batchSize < totalRows held :=
    not_lt.2 (Nat.le_mul_of_pos_right _ (Nat.pos_of_ne_zero h.valid.batchSize))
  refine ⟨(.pull cursor, .pulled none), ?_, rfl⟩
  rw [h.steps_pulls (h.batches.refusal?_eq_none hnulls hcounts)]
  refine List.mem_map.2 ⟨totalRows held, List.mem_range.2 (Nat.lt_succ_self _), ?_⟩
  rw [Nat.zero_add, Template.getElem?_output h.valid.batchSize, if_neg hend]
  rfl

/-- Drained batches agree: their columns have the types of the template, and put together they are
the same. -/
structure SameOutput (t : Template) (out out' : List RecordBatch) : Prop where
  types : ∀ batch ∈ out ++ out', batch.columns.map (·.type) = t.columnTypes.map DataType.column
  rows : t.SameRows (out.map (·.columns)) (out'.map (·.columns))

theorem Gives.sameOutput {t' : Template} {held' : List (List Column)} {x' : SortContext}
    {cursor' : Nat} {steps' : List (Call × Answer)} {batchSize : Nat} (hv : t.Valid)
    (ht : t' = { t with batchSize }) (h : x.Gives t held cursor steps)
    (h' : x'.Gives t' held' cursor' steps') (hrows : t.SameRows held held')
    (hdrained : Drained cursor steps) (hdrained' : Drained cursor' steps') :
    SameOutput t (given cursor steps) (given cursor' steps') := by
  subst ht
  refine ⟨?_, fun slot f hf => ?_⟩
  · rw [List.forall_mem_append]
    exact ⟨h.types, h'.types⟩
  · have hheld : t.Held held := by
      obtain ⟨-, c, -, hgave⟩ := h
      exact hgave.reads.batches
    have hheld' : t.Held held' := by
      obtain ⟨-, c, -, hgave⟩ := h'
      exact hgave.reads.batches.of_eq rfl rfl
    rw [h.column_of_drained hdrained hf, h'.column_of_drained hdrained' hf]
    exact hrows.sortedColumn_eq hv hheld hheld' hf

/-- Where rows are cut into batches does not matter.  Two kernels of valid templates that differ
only in the size of their batches can be made in any two contexts.  If after any runs in which they
are not dropped they have taken the same rows, in whatever batches, and the budgets admit them, then
they open cursors under every two schemas that declare their types.  Such a cursor is drained by
pulls if its schema allows the nulls of the rows and the offsets of its columns count the bytes of
every batch; and whatever runs drain the two cursors, the batches that they have given are the same
columns when they are put together. -/
theorem cuts_do_not_matter (x₀ x₀' : SortContext) {kernel kernel' : LoadedKernel} {batchSize : Nat}
    (hv : kernel.template.validate = .ok ()) (hv' : kernel'.template.validate = .ok ())
    (ht : kernel'.template = { kernel.template with batchSize }) :
    ∃ id x id' x', x₀.call (.make kernel) = (.made (.ok id), x) ∧
      x₀'.call (.make kernel') = (.made (.ok id'), x') ∧
      ∀ before before' : List Call, .dropSorter id ∉ before → .dropSorter id' ∉ before' →
        (x.after before).Admits id → (x'.after before').Admits id' →
        let held := taken id (x.steps before)
        let held' := taken id' (x'.steps before')
        kernel.template.SameRows held held' →
        ∀ schema schema', kernel.template.checkSchema schema = .ok () →
          kernel.template.checkSchema schema' = .ok () →
          ∃ cursor y cursor' y',
            (x.after before).call (.openCursor id schema) = (.opened (.ok cursor), y) ∧
            (x'.after before').call (.openCursor id' schema') = (.opened (.ok cursor'), y') ∧
            (Template.AllowsNulls schema held → (∀ k, kernel.template.CountsBytes held k) →
              Drained cursor (y.steps (List.replicate (totalRows held + 1) (.pull cursor)))) ∧
            (Template.AllowsNulls schema' held' → (∀ k, kernel'.template.CountsBytes held' k) →
              Drained cursor' (y'.steps (List.replicate (totalRows held' + 1) (.pull cursor')))) ∧
            ∀ later later' : List Call, .dropCursor cursor ∉ later → .dropCursor cursor' ∉ later' →
              Drained cursor (y.steps later) → Drained cursor' (y'.steps later') →
              SameOutput kernel.template (given cursor (y.steps later))
                (given cursor' (y'.steps later')) := by
  rw [Template.validate_eq_ok_iff] at hv hv'
  have hchecks : ∀ schema, kernel'.template.checkSchema schema =
      kernel.template.checkSchema schema := by
    intro schema
    rw [ht]
    rfl
  obtain ⟨x, hmake, hkeeps⟩ := keeps_make x₀ hv
  obtain ⟨x', hmake', hkeeps'⟩ := keeps_make x₀' hv'
  refine ⟨x₀.next, x, x₀'.next, x', hmake, hmake', ?_⟩
  intro before before' hbefore hbefore' hadmits hadmits' held held' hrows schema schema' hschema
    hschema'
  have hy : (x.after before).Keeps x₀.next kernel held := hkeeps.after hbefore
  have hy' : (x'.after before').Keeps x₀'.next kernel' held' := hkeeps'.after hbefore'
  obtain ⟨y, hopen, hreading⟩ := hy.openCursor hadmits hschema
  obtain ⟨y', hopen', hreading'⟩ := hy'.openCursor hadmits' ((hchecks schema').trans hschema')
  refine ⟨_, y, _, y', hopen, hopen', hreading.drained, hreading'.drained, ?_⟩
  intro later later' hlater hlater' hdrained hdrained'
  exact (hreading.gives.after hlater).sameOutput hv ht (hreading'.gives.after hlater') hrows
    hdrained hdrained'

/-- A kernel that differs from another in the size of its batches only. -/
def unitKernel : LoadedKernel :=
  { Sorter.downwardKernel with template := { Sorter.downwardKernel.template with batchSize := 1 } }

/-- The rows of the small batches, cut at another point and with no empty batch. -/
def recutBatches : List (List Column) :=
  [[.ofArray (.column .int8) #[some 3#8]], [.ofArray (.column .int8) #[none, some 7#8]]]

/-- Feeds a context batches to the sorter of the first kernel. -/
def fedWith (kernel : LoadedKernel) (batches : List (List Column)) : SortContext :=
  ((ofCapacity 24).call (.make kernel)).2.after (batches.map fun columns => .evaluate 0 columns)

theorem keeps_fedWith {kernel : LoadedKernel} (hv : kernel.template.Valid)
    (batches : List (List Column)) :
    (fedWith kernel batches).Keeps 0 kernel (taken 0 (((ofCapacity 24).call (.make kernel)).2.steps
      (batches.map fun columns => .evaluate 0 columns))) := by
  obtain ⟨x, hmake, hkeeps⟩ := keeps_make (ofCapacity 24) hv
  obtain rfl : ((ofCapacity 24).call (.make kernel)).2 = x := congrArg Prod.snd hmake
  exact hkeeps.after (by simp)

theorem smallBatches_recut :
    ∃ cursor y cursor' y',
      (fedWith Sorter.downwardKernel Sorter.smallBatches).call
        (.openCursor 0 [⟨"k", .column .int8, true⟩]) = (.opened (.ok cursor), y) ∧
      (fedWith unitKernel recutBatches).call
        (.openCursor 0 [⟨"k", .column .int8, true⟩]) = (.opened (.ok cursor'), y') ∧
      SameOutput Sorter.downwardKernel.template
        (given cursor (y.steps (List.replicate 4 (.pull cursor))))
        (given cursor' (y'.steps (List.replicate 4 (.pull cursor')))) := by
  have hvalid : Sorter.downwardKernel.template.validate = .ok () := by decide
  have hvalid' : unitKernel.template.validate = .ok () := by decide
  obtain ⟨id, x, id', x', hmake, hmake', hrun⟩ :=
    cuts_do_not_matter (ofCapacity 24) (ofCapacity 24) hvalid hvalid' rfl
  have hmade : (ofCapacity 24).call (.make Sorter.downwardKernel) =
      (.made (.ok 0), ((ofCapacity 24).call (.make Sorter.downwardKernel)).2) := rfl
  have hmade' : (ofCapacity 24).call (.make unitKernel) =
      (.made (.ok 0), ((ofCapacity 24).call (.make unitKernel)).2) := rfl
  rw [hmade] at hmake
  rw [hmade'] at hmake'
  cases hmake
  cases hmake'
  have hadmits : (fedWith Sorter.downwardKernel Sorter.smallBatches).Admits 0 :=
    admits_of_get? (s := .indexed (.holding Sorter.downwardKernel (arrived Sorter.smallBatches)))
      rfl fun _ => by decide
  have hadmits' : (fedWith unitKernel recutBatches).Admits 0 :=
    admits_of_get? (s := .indexed (.holding unitKernel (arrived recutBatches)))
      rfl fun _ => by decide
  have hrows : Sorter.downwardKernel.template.SameRows (arrived Sorter.smallBatches)
      (arrived recutBatches) := by
    intro slot f hf
    cases slot with
    | zero =>
      cases hf
      rfl
    | succ slot => cases hf
  obtain ⟨cursor, y, cursor', y', hopen, hopen', hdrained, hdrained', hsame⟩ :=
    hrun (Sorter.smallBatches.map fun columns => .evaluate 0 columns)
      (recutBatches.map fun columns => .evaluate 0 columns) (by simp) (by simp) hadmits hadmits'
      hrows [⟨"k", .column .int8, true⟩] [⟨"k", .column .int8, true⟩] rfl rfl
  have nullable : ∀ field ∈ [(⟨"k", .column .int8, true⟩ : Field)], field.nullable := by simp
  have numbers : ∀ f ∈ Sorter.downwardKernel.template.fields,
      ∃ format, f.type.layout = .number format := List.forall_mem_singleton.2 ⟨.int8, rfl⟩
  have hheld : Sorter.downwardKernel.template.Held (arrived Sorter.smallBatches) :=
    (keeps_fedWith (Template.validate_eq_ok_iff.1 hvalid) Sorter.smallBatches).batches
  have hheld' : unitKernel.template.Held (arrived recutBatches) :=
    (keeps_fedWith (Template.validate_eq_ok_iff.1 hvalid') recutBatches).batches
  exact ⟨cursor, y, cursor', y', hopen, hopen', hsame _ _ (by simp) (by simp)
    (hdrained (Template.allowsNulls_of_nullable nullable)
      (hheld.countsBytes (Template.countsAll_of_numbers numbers)))
    (hdrained' (Template.allowsNulls_of_nullable nullable)
      (hheld'.countsBytes (Template.countsAll_of_numbers numbers)))⟩

end SortContext

end Collate
