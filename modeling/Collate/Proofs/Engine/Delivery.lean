import Collate.Proofs.Engine.Taking

/-!
# Cursors deliver the sorted rows

However the calls of a context are interleaved, a cursor reads the batches of its sort one after the
other, whatever becomes of the sorter, up to the first that is refused
(`SortContext.Reading.readsAs_made`, `SortContext.Reading.readsAs_refused`): an induction on the run
(`SortContext.reads_answered`), with a step lemma for the reads of the cursor and a frame lemma for
all other calls.  With what a sorter has taken this gives: every cursor of a kernel delivers the
rows that the kernel has taken, each once and in the order that the kernel answers with
(`SortContext.cursors_deliver_sorted_rows`).
-/

namespace Collate

open Input

/-! ### What is delivered -/

namespace Template

/-- A kernel writes the addresses of all rows in sorted order, or nothing where it sorts values. -/
def IsWritten (t : Template) (held : List (List Column)) (written : Option (List UInt8)) : Prop :=
  match t.strategy, written with
  | .indexed, some bytes => bytes.length = Address.width * totalRows held ∧
    t.IsSorted held (Address.listOfBytes bytes)
  | .inPlace, none => True
  | _, _ => False

/-- A column in the order of the written addresses, or sorted by itself where nothing is written. -/
def writtenColumn (t : Template) (held : List (List Column)) (written : Option (List UInt8))
    (slot : Nat) (type : ColumnType) : List (Option type.Value) :=
  match written with
  | some bytes => (Address.listOfBytes bytes).map (cell held slot type)
  | none => sortedCells t.policy.nullOrder t.policy.direction type.layout.order
    (columnCells held slot type)

/-- Batches deliver the rows of batches: they are full up to the last one, and put together their
columns are those of the rows in the written order.  If the offsets of the columns count the bytes
of all rows, they count those of every batch. -/
structure Delivers (t : Template) (held : List (List Column)) (written : Option (List UInt8))
    (schema : List Field) (out : List RecordBatch) : Prop where
  count : out.length = (totalRows held + t.batchSize - 1) / t.batchSize
  made : ∀ batch ∈ out, RecordBatch.make schema batch.columns = .ok batch
  full : ∀ k batch, k + 1 < out.length → out[k]? = some batch → batch.rows = t.batchSize
  last : ∀ batch, out.getLast? = some batch → 0 < batch.rows ∧ batch.rows ≤ t.batchSize
  column : ∀ (slot : Nat) (f : FieldSlot), t.fields[slot]? = some f →
    columnCells (out.map (·.columns)) slot f.type = t.writtenColumn held written slot f.type
  once : ∀ (slot : Nat) (f : FieldSlot), t.fields[slot]? = some f →
    (columnCells (out.map (·.columns)) slot f.type).Perm (columnCells held slot f.type)
  counted : t.CountsAll held → ∀ batch ∈ out, batch.Counted

variable {t : Template} {held : List (List Column)} {schema : List Field}

theorem Held.isWritten_written (h : t.Held held) : t.IsWritten held (t.written held) := by
  unfold IsWritten written
  cases hs : t.strategy with
  | inPlace => trivial
  | indexed =>
    refine ⟨?_, ?_⟩
    · rw [Address.length_flatMap_bytes, (perm_sortedAddresses t held).length_eq, length_addresses]
    · rw [Address.listOfBytes_flatMap_bytes]
      exact isSorted_sortedAddresses (h.addressable hs)

theorem writtenColumn_written (t : Template) (held : List (List Column)) (slot : Nat)
    (type : ColumnType) :
    t.writtenColumn held (t.written held) slot type = t.sortedColumn held slot type := by
  unfold writtenColumn written sortedColumn
  cases t.strategy with
  | inPlace => rfl
  | indexed =>
    simp only
    rw [Address.listOfBytes_flatMap_bytes]

theorem Held.delivers_output (h : t.Held held) (hv : t.Valid)
    (hschema : t.checkSchema schema = .ok ()) (hnulls : AllowsNulls schema held) :
    t.Delivers held (t.written held) schema (t.output held schema) where
  count := by rw [output, List.length_map, List.length_range, batchCount]
  made batch hm := by
    obtain ⟨k, -, rfl⟩ := List.mem_map.1 hm
    exact h.make_sortedWindow hv hschema hnulls (t.batchStart_succ_le held k)
  full k batch hk hbatch := by
    rw [output, List.length_map, List.length_range, lt_batchCount_iff hv.batchSize] at hk
    rw [getElem?_output hv.batchSize] at hbatch
    split_ifs at hbatch
    cases hbatch
    simp only [batchStart]
    rw [Nat.min_eq_left hk.le, Nat.min_eq_left (by rw [Nat.succ_mul] at hk; omega), Nat.succ_mul]
    omega
  last batch hbatch := by
    rw [List.getLast?_eq_getElem?, getElem?_output hv.batchSize] at hbatch
    split_ifs at hbatch with hlt
    cases hbatch
    have hpos := Nat.pos_of_ne_zero hv.batchSize
    simp only [batchStart]
    rw [Nat.min_eq_left hlt.le, Nat.succ_mul]
    omega
  column slot f hf := by
    rw [h.columnCells_output hv.batchSize schema hf, writtenColumn_written]
  once slot f hf := by
    rw [h.columnCells_output hv.batchSize schema hf]
    exact h.perm_sortedColumn hf
  counted hall batch hm := by
    obtain ⟨k, -, rfl⟩ := List.mem_map.1 hm
    exact h.countsBytes hall k

end Template

namespace SortContext

variable {x : SortContext} {id cursor : Nat} {kernel : LoadedKernel} {held : List (List Column)}

/-! ### What a cursor reads -/

/-- The call reads a cursor. -/
def Call.reads (cursor : Nat) : Call → Bool
  | .nextBatch i => i = cursor
  | .pull i => i = cursor
  | _ => false

theorem Call.cursor?_ne {c : Call} (hc : c ≠ .dropCursor cursor) (hreads : c.reads cursor = false) :
    c.cursor? ≠ some cursor := by
  cases c <;> simp_all [Call.reads, Call.cursor?]

/-- The reads of a cursor in a run. -/
def readsOf (cursor : Nat) (steps : List (Call × Answer)) : List (Call × Answer) :=
  steps.filter fun step => step.1.reads cursor

/-- The answer of a read that comes to a batch, or of one behind all of them. -/
def readAnswer (total : Nat) (batch? : Option RecordBatch) : Call → Answer
  | .pull _ => .pulled (batch?.map .ok)
  | _ => .batch (match batch? with
    | some batch => .ok batch
    | none => .error (.exhausted total))

/-- The cursor reads the sort of batches and is behind so many output batches, under a number that
has been given out. -/
def Reading (x : SortContext) (cursor : Nat) (t : Template) (held : List (List Column))
    (schema : List Field) (k : Nat) : Prop :=
  cursor < x.next ∧ ∃ c, x.cursors.get? cursor = some c ∧ c.Reads t held ∧ c.schema = schema ∧
    c.offset = t.batchStart held k

variable {t : Template} {schema : List Field} {k : Nat}

theorem Reading.of_eq {y : SortContext} (h : x.Reading cursor t held schema k)
    (hnext : x.next ≤ y.next) (hcursor : y.cursors.get? cursor = x.cursors.get? cursor) :
    y.Reading cursor t held schema k :=
  ⟨h.1.trans_le hnext, hcursor ▸ h.2⟩

/-- Other calls leave a cursor as it is, until it is dropped. -/
theorem Reading.call_other (h : x.Reading cursor t held schema k) {c : Call}
    (hc : c ≠ .dropCursor cursor) (hreads : c.reads cursor = false) :
    (x.call c).2.Reading cursor t held schema k :=
  h.of_eq (next_le_call x c) (get?_cursors_call h.1 (Call.cursor?_ne hc hreads))

theorem Reading.valid (h : x.Reading cursor t held schema k) : t.Valid := by
  obtain ⟨-, r, -, hr, -⟩ := h
  exact hr.valid

theorem Reading.batches (h : x.Reading cursor t held schema k) : t.Held held := by
  obtain ⟨-, r, -, hr, -⟩ := h
  exact hr.batches

theorem reading_insert (hlt : cursor < x.next) {r : ResultCursor} (hr : r.Reads t held)
    (hoffset : r.offset = t.batchStart held k) :
    ({ x with cursors := x.cursors.insert cursor r } : SortContext).Reading cursor t held
      r.schema k := by
  refine ⟨hlt, r, ?_, hr, rfl, hoffset⟩
  show (x.cursors.insert cursor r).get? cursor = some r
  rw [Table.get?_insert, if_pos rfl]

/-- A read is answered with what the cursor reads, and leaves the cursor where that leaves it. -/
theorem call_of_reads {r r' : ResultCursor} {batch : Except KernelError RecordBatch}
    {pulled : Option (Except KernelError RecordBatch)} (hr : x.cursors.get? cursor = some r)
    (hbatch : r.nextBatch = (batch, r')) (hpulled : r.pull = (pulled, r')) {c : Call}
    (hreads : c.reads cursor) : x.call c = (match c with
      | .pull _ => .pulled pulled
      | _ => .batch batch, { x with cursors := x.cursors.insert cursor r' }) := by
  cases c with
  | nextBatch i =>
    obtain rfl : i = cursor := by simpa [Call.reads] using hreads
    simp only [SortContext.call, SortContext.nextBatch, hr, hbatch]
  | pull i =>
    obtain rfl : i = cursor := by simpa [Call.reads] using hreads
    simp only [SortContext.call, SortContext.pull, hr, hpulled]
  | _ => cases hreads

/-- A read gives the next output batch unless it is refused, or says that there is none, and the
cursor is behind one more. -/
theorem Reading.call_made (h : x.Reading cursor t held schema k)
    (hmade : t.refusal? held schema k = none) {c : Call} (hreads : c.reads cursor) :
    (x.call c).1 = readAnswer (totalRows held) (t.output held schema)[k]? c ∧
      (x.call c).2.Reading cursor t held schema (k + 1) := by
  obtain ⟨hlt, r, hr, hr', rfl, hoffset⟩ := h
  rw [call_of_reads hr (hr'.nextBatch_made hoffset hmade) (hr'.pull_made hoffset hmade) hreads]
  refine ⟨?_, ?_⟩
  · cases c with
    | pull i => rfl
    | _ => rfl
  · have hmoved : ({ r with offset := t.batchStart held (k + 1) } : ResultCursor).Reads t held :=
      { hr' with offset := Nat.min_le_right _ _ }
    exact reading_insert hlt hmoved rfl

/-- The answer of a read that is refused. -/
def refusedAnswer (e : KernelError) : Call → Answer
  | .pull _ => .pulled (some (.error e))
  | _ => .batch (.error e)

/-- A read of a batch that is refused leaves the cursor where it is. -/
theorem Reading.call_refused {e : BatchError} (h : x.Reading cursor t held schema k)
    (hrefused : t.refusal? held schema k = some e) {c : Call} (hreads : c.reads cursor) :
    (x.call c).1 = refusedAnswer (.batch e) c ∧ (x.call c).2.Reading cursor t held schema k := by
  obtain ⟨hlt, r, hr, hr', rfl, hoffset⟩ := h
  rw [call_of_reads hr (hr'.nextBatch_refused hoffset hrefused)
    (hr'.pull_refused hoffset hrefused) hreads]
  refine ⟨?_, reading_insert hlt hr' hoffset⟩
  cases c with
  | pull i => rfl
  | _ => rfl

/-- The reads of a run are answered one after the other, by an invariant that counts them: other
calls keep it, and under it a read is answered and counted. -/
theorem reads_answered (invariant : Nat → SortContext → Prop) (answer : Nat → Call → Answer)
    (hother : ∀ k x c, invariant k x → c ≠ .dropCursor cursor → c.reads cursor = false →
      invariant k (x.call c).2)
    (hread : ∀ k x c, invariant k x → c.reads cursor →
      (x.call c).1 = answer k c ∧ invariant (k + 1) (x.call c).2)
    (h : invariant k x) {calls : List Call} (hcalls : .dropCursor cursor ∉ calls) (i : Nat)
    (step : Call × Answer) (hstep : (readsOf cursor (x.steps calls))[i]? = some step) :
    step.2 = answer (k + i) step.1 := by
  induction calls generalizing x k i with
  | nil => cases hstep
  | cons c calls ih =>
    rw [List.mem_cons, not_or] at hcalls
    rw [SortContext.steps, readsOf, List.filter_cons] at hstep
    split_ifs at hstep with hreads
    · obtain ⟨hanswer, hnext⟩ := hread k x c h hreads
      cases i with
      | zero =>
        cases hstep
        exact hanswer
      | succ i =>
        rw [ih hnext hcalls.2 i hstep, Nat.add_right_comm, Nat.add_assoc]
    · exact ih (hother k x c h (Ne.symm hcalls.1) (by simpa using hreads)) hcalls.2 i hstep

/-- In every run in which a cursor is not dropped, its reads are answered like this. -/
def ReadsAs (x : SortContext) (cursor : Nat) (answer : Nat → Call → Answer) : Prop :=
  ∀ later : List Call, .dropCursor cursor ∉ later → ∀ (i : Nat) (step : Call × Answer),
    (readsOf cursor (x.steps later))[i]? = some step → step.2 = answer i step.1

/-- Where no batch is refused, the reads of a cursor give the output batches one after the other. -/
theorem Reading.readsAs_made (h : x.Reading cursor t held schema 0)
    (hmade : ∀ k, t.refusal? held schema k = none) :
    x.ReadsAs cursor fun i => readAnswer (totalRows held) (t.output held schema)[i]? := by
  intro later hlater i step hstep
  have hanswer := reads_answered (fun k x => x.Reading cursor t held schema k)
    (fun k => readAnswer (totalRows held) (t.output held schema)[k]?)
    (fun _ _ _ h => h.call_other) (fun k _ _ h => h.call_made (hmade k)) h hlater i step hstep
  rwa [Nat.zero_add] at hanswer

/-- The reads of a cursor give the output batches up to the first one that is refused, and then its
refusal for ever. -/
theorem Reading.readsAs_refused {stop : Nat} {e : BatchError}
    (h : x.Reading cursor t held schema 0)
    (hmade : ∀ j < stop, t.refusal? held schema j = none)
    (hrefused : t.refusal? held schema stop = some e) :
    x.ReadsAs cursor fun i call =>
      if i < stop then readAnswer (totalRows held) (t.output held schema)[i]? call
      else refusedAnswer (.batch e) call := by
  intro later hlater i step hstep
  -- The cursor counts the reads up to the refused batch and stays in front of it.
  have hanswer := reads_answered (fun k x => x.Reading cursor t held schema (min k stop))
    (fun k call => if k < stop then readAnswer (totalRows held) (t.output held schema)[k]? call
      else refusedAnswer (.batch e) call)
    (fun _ _ _ h => h.call_other) ?_ ((Nat.zero_min stop).symm ▸ h) hlater i step hstep
  · rwa [Nat.zero_add] at hanswer
  · intro k x c h hreads
    by_cases hlt : k < stop
    · rw [Nat.min_eq_left hlt.le] at h
      rw [Nat.min_eq_left (Nat.succ_le_of_lt hlt), if_pos hlt]
      exact h.call_made (hmade k hlt) hreads
    · have hle : stop ≤ k := Nat.le_of_not_lt hlt
      rw [Nat.min_eq_right hle] at h
      rw [Nat.min_eq_right (Nat.le_succ_of_le hle), if_neg hlt]
      exact h.call_refused hrefused hreads

/-- The answer of a read of one batch after the other: the batch, or that there are none left.  A
batch in which the offsets of a column do not count its bytes is refused, and so are all reads from
then on. -/
def deliveredAnswer (total : Nat) (out : List RecordBatch) (k : Nat) (call : Call) : Answer :=
  if (out.take (k + 1)).all (·.Counted) then readAnswer total out[k]? call
  else refusedAnswer (.batch .overflow) call

/-- Where all bytes are counted, no read is refused. -/
theorem ReadsAs.of_counted {total : Nat} {out : List RecordBatch}
    (h : x.ReadsAs cursor (deliveredAnswer total out))
    (hcounted : ∀ batch ∈ out, batch.Counted) :
    x.ReadsAs cursor fun k => readAnswer total out[k]? :=
  fun later hlater k step hstep => (h later hlater k step hstep).trans
    (if_pos (List.all_eq_true.2 fun batch hbatch =>
      decide_eq_true (hcounted batch (List.mem_of_mem_take hbatch))))

/-- Under a schema that allows the nulls of the rows, the reads of a cursor deliver the output
batches. -/
theorem Reading.readsAs_delivered (h : x.Reading cursor t held schema 0)
    (hnulls : Template.AllowsNulls schema held) :
    x.ReadsAs cursor (deliveredAnswer (totalRows held) (t.output held schema)) := by
  have hrefusal := h.batches.refusal?_eq hnulls
  have hanswer : ∀ k call, deliveredAnswer (totalRows held) (t.output held schema) k call =
      if ∀ j ≤ k, t.CountsBytes held j then
        readAnswer (totalRows held) (t.output held schema)[k]? call
      else refusedAnswer (.batch .overflow) call :=
    fun k call => if_congr (Template.all_take_output_iff h.valid.batchSize k) rfl rfl
  by_cases hall : ∀ k, t.CountsBytes held k
  · intro later hlater k step hstep
    rw [hanswer, if_pos fun j _ => hall j]
    exact h.readsAs_made (h.batches.refusal?_eq_none hnulls hall) later hlater k step hstep
  · have hstop : ∃ k, ¬t.CountsBytes held k := not_forall.1 hall
    have hcounts : ∀ j < Nat.find hstop, t.CountsBytes held j :=
      fun j hj => not_not.1 (Nat.find_min hstop hj)
    intro later hlater k step hstep
    have hiff : (∀ j ≤ k, t.CountsBytes held j) ↔ k < Nat.find hstop :=
      ⟨fun hle => not_le.1 fun hfind => Nat.find_spec hstop (hle _ hfind),
        fun hlt j hj => hcounts j (hj.trans_lt hlt)⟩
    rw [hanswer, if_congr hiff rfl rfl]
    exact h.readsAs_refused (fun j hj => (hrefusal j).trans (if_pos (hcounts j hj)))
      ((hrefusal _).trans (if_neg (Nat.find_spec hstop))) later hlater k step hstep

/-! ### Cursors of a kernel -/

/-- A cursor that has been opened reads the sort of what the sorter holds. -/
theorem Keeps.reading (h : x.Keeps id kernel held) {z : SortContext}
    (hopen : x.call (.openCursor id schema) = (.opened (.ok cursor), z)) :
    kernel.template.checkSchema schema = .ok () ∧
      z.Reading cursor kernel.template held schema 0 := by
  obtain ⟨-, s, hs, hholds⟩ := h
  have not_refused : ∀ e, s.openCursor x.budget schema ≠ (.error e, s, x.budget) := by
    intro e hs'
    simp only [SortContext.call, SortContext.openCursor, SortContext.onSorter, hs, hs'] at hopen
    cases hopen
  obtain ⟨result, s', b', hs', hschema, -, hsorted⟩ | ⟨e, hs', -⟩ | ⟨e, hs', -⟩ :=
    hholds.openCursor x.budget schema
  · simp only [SortContext.call, SortContext.openCursor, SortContext.onSorter, hs, hs'] at hopen
    cases hopen
    refine ⟨hschema, Nat.lt_succ_self x.next, _, ?_,
      ResultCursor.reads_ofResult hholds.valid hholds.batches hschema hsorted, rfl, ?_⟩
    · show (x.cursors.insert x.next _).get? x.next = _
      rw [Table.get?_insert, if_pos rfl]
    · rw [Template.batchStart, Nat.zero_mul, Nat.zero_min]
      rfl
  · exact absurd hs' (not_refused _)
  · exact absurd hs' (not_refused _)

/-- A sorter that the budget admits opens a cursor on the sort of its batches. -/
theorem Keeps.openCursor (h : x.Keeps id kernel held) (hadmits : x.Admits id)
    (hschema : kernel.template.checkSchema schema = .ok ()) :
    ∃ y, x.call (.openCursor id schema) = (.opened (.ok x.next), y) ∧
      y.Reading x.next kernel.template held schema 0 := by
  obtain ⟨hlt, s, hs, hholds⟩ := h
  obtain ⟨result, s', b', hs', -⟩ | ⟨e, -, hrefused⟩ | ⟨e, -, hresult, hrefused⟩ :=
    hholds.openCursor x.budget schema
  · have hopen : ∃ y, x.call (.openCursor id schema) = (.opened (.ok x.next), y) := by
      simp only [SortContext.call, SortContext.openCursor, SortContext.onSorter, hs, hs']
      exact ⟨_, rfl⟩
    obtain ⟨y, hy⟩ := hopen
    exact ⟨y, hy, (Keeps.reading ⟨hlt, s, hs, hholds⟩ hy).2⟩
  · rw [hschema] at hrefused
    cases hrefused
  · exact absurd hrefused ((hadmits s hs).not_refused hresult)

/-- Cursors deliver the sorted rows.  A kernel of a valid template can be made in any context.
After any run in which it is not dropped it holds the batches that it has taken; if the budget
admits it then, it answers with a sorted order of their rows, and under every schema that declares
its types and allows its nulls it opens a cursor.  In every run in which that cursor is not dropped,
whatever becomes of the kernel, the reads of the cursor give the rows in that order, batch by batch,
and then say that there are none left; only a batch in which the offsets of a column do not count
its bytes is never given. -/
theorem cursors_deliver_sorted_rows (x₀ : SortContext) {kernel : LoadedKernel}
    (hv : kernel.template.validate = .ok ()) :
    ∃ id x, x₀.call (.make kernel) = (.made (.ok id), x) ∧
      ∀ before : List Call, .dropSorter id ∉ before → (x.after before).Admits id →
        let y := x.after before
        let held := taken id (x.steps before)
        ∃ written, kernel.template.IsWritten held written ∧
          (y.call (.finish id)).1 = .finished (.ok written) ∧
          ∀ schema, kernel.template.checkSchema schema = .ok () →
            Template.AllowsNulls schema held →
            ∃ out, kernel.template.Delivers held written schema out ∧
              ∃ cursor z, y.call (.openCursor id schema) = (.opened (.ok cursor), z) ∧
                z.ReadsAs cursor (deliveredAnswer (totalRows held) out) := by
  rw [Template.validate_eq_ok_iff] at hv
  obtain ⟨x, hmake, hkeeps⟩ := keeps_make x₀ hv
  refine ⟨x₀.next, x, hmake, fun before hbefore hadmits => ?_⟩
  intro y held
  have hy : y.Keeps x₀.next kernel held := hkeeps.after hbefore
  have hheld : kernel.template.Held held := hy.batches
  refine ⟨kernel.template.written held, hheld.isWritten_written, hy.finish hadmits,
    fun schema hschema hnulls => ?_⟩
  obtain ⟨z, hopen, hreading⟩ := hy.openCursor hadmits hschema
  refine ⟨kernel.template.output held schema, hheld.delivers_output hv hschema hnulls, y.next, z,
    hopen, hreading.readsAs_delivered hnulls⟩

/-- A context with a kernel that has been fed three small batches. -/
def fedContext : SortContext :=
  ((ofCapacity 24).call (.make Sorter.downwardKernel)).2.after
    (Sorter.smallBatches.map fun columns => .evaluate 0 columns)

theorem cursor_delivers_smallBatches :
    ∃ written out cursor z, Sorter.downwardKernel.template.Delivers (arrived Sorter.smallBatches)
        written [⟨"k", .column .int8, true⟩] out ∧
      fedContext.call (.openCursor 0 [⟨"k", .column .int8, true⟩]) = (.opened (.ok cursor), z) ∧
      z.ReadsAs cursor fun k => readAnswer 3 out[k]? := by
  have hvalid : Sorter.downwardKernel.template.validate = .ok () := by decide
  obtain ⟨id, x, hmake, hrun⟩ := cursors_deliver_sorted_rows (ofCapacity 24) hvalid
  have hmade : (ofCapacity 24).call (.make Sorter.downwardKernel) =
      (.made (.ok 0), ((ofCapacity 24).call (.make Sorter.downwardKernel)).2) := rfl
  rw [hmade] at hmake
  cases hmake
  have hadmits : fedContext.Admits 0 :=
    admits_of_get? (s := .indexed (.holding Sorter.downwardKernel (arrived Sorter.smallBatches)))
      rfl fun _ => by decide
  obtain ⟨written, -, -, hopen⟩ := hrun
    (Sorter.smallBatches.map fun columns => .evaluate 0 columns) (by simp) hadmits
  have hnulls : Template.AllowsNulls [⟨"k", .column .int8, true⟩]
      (arrived Sorter.smallBatches) := Template.allowsNulls_of_nullable (by simp)
  obtain ⟨out, hdelivers, cursor, z, hz, hreads⟩ :=
    hopen [⟨"k", .column .int8, true⟩] rfl hnulls
  have hcounts : Sorter.downwardKernel.template.CountsAll (arrived Sorter.smallBatches) :=
    Template.countsAll_of_numbers (List.forall_mem_singleton.2 ⟨.int8, rfl⟩)
  exact ⟨written, out, cursor, z, hdelivers, hz, hreads.of_counted (hdelivers.counted hcounts)⟩

end SortContext

end Collate
