import Collate.Proofs.Engine.Draining

/-!
# Exhausted cursors

A cursor moves on only behind a batch that could be made, and a schema is not looked at for nulls
when the cursor is opened.  So a cursor whose schema allows the nulls of the rows is exhausted after
as many reads as there are batches, if the offsets of the columns count the bytes of each; and any
other one gives the batches up to the first that is refused, and from then on this refusal again and
again (`SortContext.Reading.readsAs_refused`).  Both together are
`SortContext.ends_iff_allowsNulls_and_countsBytes`.
-/

namespace Collate

open Input

variable {t : Template} {held : List (List Column)} {schema : List Field}

/-! ### Refused batches -/

namespace Template

theorem refusal?_eq_none_iff {k : Nat} : t.refusal? held schema k = none ↔
    t.CountsBytes held k ∧ RecordBatch.nullsIn? schema
      (t.sortedWindow held (t.batchStart held k) (t.batchStart held (k + 1))) = none := by
  unfold refusal?
  split_ifs with hcounts
  · rw [Option.map_eq_none_iff, and_iff_right hcounts]
  · exact iff_of_false id fun h => hcounts h.1

/-- A batch is refused because its bytes are not counted, or for one of the fields. -/
theorem refusal?_cases {k : Nat} {e : BatchError} (h : t.refusal? held schema k = some e) :
    e = .overflow ∧ ¬t.CountsBytes held k ∨
      ∃ field ∈ schema, field.nullable = false ∧ e = .nulls field.name := by
  unfold refusal? at h
  split_ifs at h with hcounts
  · rw [RecordBatch.nullsIn?, Option.map_map, Option.map_eq_some_iff] at h
    obtain ⟨⟨field, c⟩, hfind, rfl⟩ := h
    have hbad := List.find?_some hfind
    simp only [Bool.and_eq_true, Bool.not_eq_true', decide_eq_true_eq] at hbad
    exact .inr ⟨field, (List.of_mem_zip (List.mem_of_find?_eq_some hfind)).1, hbad.1, rfl⟩
  · cases h
    exact .inl ⟨rfl, hcounts⟩

/-- A batch that is not refused has no null in a column that is declared free of nulls. -/
theorem isSome_of_refusal? {k slot : Nat} {field : Field} {f : FieldSlot}
    (h : t.refusal? held schema k = none) (hfield : schema[slot]? = some field)
    (hnullable : field.nullable = false) (hf : t.fields[slot]? = some f) :
    ∀ cell ∈ (t.sortedColumn held slot f.type).extract (t.batchStart held k)
      (t.batchStart held (k + 1)), cell.isSome := by
  have hnulls := (refusal?_eq_none_iff.1 h).2
  rw [RecordBatch.nullsIn?, Option.map_eq_none_iff, List.find?_eq_none] at hnulls
  intro cell hcell
  have hcolumn := t.getElem?_sortedWindow held (t.batchStart held k)
    (t.batchStart held (k + 1)) slot
  rw [hf, Option.map_some] at hcolumn
  have hzip : (schema.zip (t.sortedWindow held (t.batchStart held k)
      (t.batchStart held (k + 1))))[slot]? = some (field, _) :=
    List.getElem?_zip_eq_some.2 ⟨hfield, hcolumn⟩
  have hkept : ¬(!field.nullable && 0 < Column.nullCount (.ofArray (.column f.type) _)) = true :=
    hnulls _ (List.mem_of_getElem? hzip)
  rw [hnullable, Bool.not_false, Bool.true_and, decide_eq_true_iff, Nat.not_lt,
    Nat.le_zero] at hkept
  have hnone : ((t.sortedColumn held slot f.type).toArray.extract (t.batchStart held k)
      (t.batchStart held (k + 1))).countP Option.isNone = 0 := hkept
  rw [Array.countP_eq_zero] at hnone
  have := hnone cell (by rwa [← Array.mem_toList_iff, Array.toList_extract])
  simpa [Option.isSome_iff_ne_none] using this

/-- A schema that refuses no batch allows the nulls of the rows. -/
theorem Held.allowsNulls_of_refusal? (h : t.Held held) (hv : t.Valid)
    (hschema : t.checkSchema schema = .ok ()) (hnone : ∀ k, t.refusal? held schema k = none) :
    AllowsNulls schema held := by
  intro slot field hfield hnullable
  have hslot : slot < t.fields.length :=
    length_of_checkSchema hschema ▸ (List.getElem?_eq_some_iff.1 hfield).1
  have hf : t.fields[slot]? = some t.fields[slot] := List.getElem?_eq_getElem hslot
  generalize t.fields[slot] = f at hf
  have hsorted : ∀ cell ∈ t.sortedColumn held slot f.type, cell.isSome := by
    rw [← h.columnCells_output hv.batchSize schema hf, columnCells, output, List.map_map,
      List.flatMap_map]
    intro cell hcell
    obtain ⟨k, -, hk⟩ := List.mem_flatMap.1 hcell
    rw [Function.comp_apply, cells_sortedWindow hf] at hk
    exact isSome_of_refusal? (hnone k) hfield hnullable hf cell hk
  have hcount : (columnCells held slot f.type).countP Option.isNone = 0 := by
    rw [← (h.perm_sortedColumn hf).countP_eq, List.countP_eq_zero]
    intro cell hcell
    simpa [Option.isSome_iff_ne_none] using hsorted cell hcell
  rw [countP_columnCells fun columns hm => (h.fits columns hm).nullCount_cells hf,
    List.sum_eq_zero_iff, List.forall_mem_map] at hcount
  exact hcount

/-- Of the batches that are refused there is a first one. -/
theorem Held.exists_refusal (h : t.Held held) (hv : t.Valid)
    (hschema : t.checkSchema schema = .ok ())
    (hnot : ¬(AllowsNulls schema held ∧ ∀ k, t.CountsBytes held k)) :
    ∃ k e, t.refusal? held schema k = some e ∧ ∀ j < k, t.refusal? held schema j = none := by
  have hrefused : ∃ k, t.refusal? held schema k ≠ none := by
    by_contra hnone
    simp only [not_exists, not_not] at hnone
    exact hnot ⟨h.allowsNulls_of_refusal? hv hschema hnone,
      fun k => (refusal?_eq_none_iff.1 (hnone k)).1⟩
  classical
  obtain ⟨e, he⟩ := Option.ne_none_iff_exists'.1 (Nat.find_spec hrefused)
  exact ⟨Nat.find hrefused, e, he, fun j hj => not_not.1 (Nat.find_min hrefused hj)⟩

end Template

namespace SortContext

variable {x : SortContext} {id cursor : Nat} {kernel : LoadedKernel}

/-! ### The end -/

/-- A pull says that there are no batches left, after at most so many others. -/
def EndsWithin (x : SortContext) (cursor n : Nat) : Prop :=
  ∃ i ≤ n, (x.steps (List.replicate (i + 1) (.pull cursor)))[i]? =
    some (.pull cursor, .pulled none)

/-- Where no batch is refused, a pull behind the last one says that there are none left. -/
theorem Reading.endsWithin (h : x.Reading cursor t held schema 0)
    (hmade : ∀ k, t.refusal? held schema k = none) :
    x.EndsWithin cursor (t.batchCount held) := by
  refine ⟨t.batchCount held, le_rfl, ?_⟩
  have hend : ¬t.batchCount held * t.batchSize < totalRows held := by
    rw [← Template.lt_batchCount_iff h.valid.batchSize]
    exact Nat.lt_irrefl _
  rw [h.steps_pulls hmade, List.getElem?_map, List.getElem?_range (Nat.lt_succ_self _),
    Option.map_some, Nat.zero_add, Template.getElem?_output h.valid.batchSize, if_neg hend]
  rfl

/-- In front of a refused batch no number of pulls comes to the end. -/
theorem Reading.not_endsWithin {stop : Nat} {e : BatchError}
    (h : x.Reading cursor t held schema 0)
    (hmade : ∀ j < stop, t.refusal? held schema j = none)
    (hrefused : t.refusal? held schema stop = some e) (n : Nat) : ¬x.EndsWithin cursor n := by
  rintro ⟨i, -, hi⟩
  have hreads : (.pull cursor, .pulled none) ∈
      readsOf cursor (x.steps (List.replicate (i + 1) (.pull cursor))) :=
    List.mem_filter.2 ⟨List.mem_of_getElem? hi, by simp [Call.reads]⟩
  obtain ⟨j, hj⟩ := List.mem_iff_getElem?.1 hreads
  have hanswer := h.readsAs_refused hmade hrefused _ (by simp) j _ hj
  simp only at hanswer
  split_ifs at hanswer with hlt
  · have hrows : j * t.batchSize < totalRows held :=
      (Nat.mul_le_mul_right _ hlt.le).trans_lt (h.batches.lt_of_refusal? hrefused)
    rw [Template.getElem?_output h.valid.batchSize, if_pos hrows] at hanswer
    cases hanswer
  · cases hanswer

/-- A cursor comes to its end if and only if its schema allows the nulls of the rows and the offsets
of the columns count the bytes of every batch.  A kernel of a valid template can be made in any
context.  After any run in which it is not dropped, whatever cursor it opens then ends within as
many pulls as there are batches if this is so of what the kernel has taken, and else never.  In
every run in which the cursor is not dropped, its reads give in the first case all batches and then
say that there are none left; in the second case they give the batches up to one, and then for ever
the error that this one has a null in a field that the schema declares free of nulls, or that its
bytes are not counted. -/
theorem ends_iff_allowsNulls_and_countsBytes (x₀ : SortContext) {kernel : LoadedKernel}
    (hv : kernel.template.validate = .ok ()) :
    ∃ id x, x₀.call (.make kernel) = (.made (.ok id), x) ∧
      ∀ before : List Call, .dropSorter id ∉ before →
        let held := taken id (x.steps before)
        let count := (totalRows held + kernel.template.batchSize - 1) / kernel.template.batchSize
        ∀ schema cursor z,
          (x.after before).call (.openCursor id schema) = (.opened (.ok cursor), z) →
          (z.EndsWithin cursor count ↔
            Template.AllowsNulls schema held ∧ ∀ k, kernel.template.CountsBytes held k) ∧
          ((∃ n, z.EndsWithin cursor n) ↔
            Template.AllowsNulls schema held ∧ ∀ k, kernel.template.CountsBytes held k) ∧
          ∃ out : List RecordBatch, out.length = count ∧
            (Template.AllowsNulls schema held → (∀ k, kernel.template.CountsBytes held k) →
              z.ReadsAs cursor fun i => readAnswer (totalRows held) out[i]?) ∧
            (¬(Template.AllowsNulls schema held ∧ ∀ k, kernel.template.CountsBytes held k) →
              ∃ stop < count, ∃ e,
                (e = .overflow ∧ ¬kernel.template.CountsBytes held stop ∨
                  ∃ field ∈ schema, field.nullable = false ∧ e = .nulls field.name) ∧
                z.ReadsAs cursor fun i call =>
                  if i < stop then readAnswer (totalRows held) out[i]? call
                  else refusedAnswer (.batch e) call) := by
  rw [Template.validate_eq_ok_iff] at hv
  obtain ⟨x, hmake, hkeeps⟩ := keeps_make x₀ hv
  refine ⟨x₀.next, x, hmake, fun before hbefore => ?_⟩
  intro held count schema cursor z hopen
  have hy : (x.after before).Keeps x₀.next kernel held := hkeeps.after hbefore
  have hheld : kernel.template.Held held := hy.batches
  obtain ⟨hschema, hreading⟩ := hy.reading hopen
  have hends : Template.AllowsNulls schema held ∧ (∀ k, kernel.template.CountsBytes held k) →
      z.EndsWithin cursor count :=
    fun h => hreading.endsWithin (hheld.refusal?_eq_none h.1 h.2)
  have hrefusal : ¬(Template.AllowsNulls schema held ∧
      ∀ k, kernel.template.CountsBytes held k) → ∀ n, ¬z.EndsWithin cursor n := by
    intro hnot
    obtain ⟨stop, e, hrefused, hmade⟩ := hheld.exists_refusal hv hschema hnot
    exact hreading.not_endsWithin hmade hrefused
  refine ⟨⟨fun h => ?_, hends⟩, ⟨fun ⟨n, h⟩ => ?_, fun h => ⟨_, hends h⟩⟩,
    kernel.template.output held schema, ?_, fun hnulls hcounts => ?_, fun hnot => ?_⟩
  · by_contra hnot
    exact hrefusal hnot _ h
  · by_contra hnot
    exact hrefusal hnot n h
  · rw [Template.output, List.length_map, List.length_range, Template.batchCount]
  · exact hreading.readsAs_made (hheld.refusal?_eq_none hnulls hcounts)
  · obtain ⟨stop, e, hrefused, hmade⟩ := hheld.exists_refusal hv hschema hnot
    have hlt : stop < count :=
      (Template.lt_batchCount_iff hv.batchSize stop).2 (hheld.lt_of_refusal? hrefused)
    exact ⟨stop, hlt, e, Template.refusal?_cases hrefused,
      hreading.readsAs_refused hmade hrefused⟩

/-- A schema that declares the column of small numbers free of nulls. -/
def filledSchema : List Field := [⟨"k", .column .int8, false⟩]

theorem not_allowsNulls_filledSchema {batches : List (List Column)} {columns : List Column}
    (hmem : columns ∈ batches) (hnull : nullCount columns 0 ≠ 0) :
    ¬Template.AllowsNulls filledSchema batches :=
  fun h => hnull (h 0 ⟨"k", .column .int8, false⟩ rfl rfl columns hmem)

theorem smallBatches_end : ∃ z z',
    fedContext.call (.openCursor 0 filledSchema) = (.opened (.ok 1), z) ∧
    fedContext.call (.openCursor 0 [⟨"k", .column .int8, true⟩]) = (.opened (.ok 1), z') ∧
    (∀ n, ¬z.EndsWithin 1 n) ∧ z'.EndsWithin 1 2 := by
  have hvalid : Sorter.downwardKernel.template.validate = .ok () := by decide
  obtain ⟨id, x, hmake, hrun⟩ := ends_iff_allowsNulls_and_countsBytes (ofCapacity 24) hvalid
  have hmade : (ofCapacity 24).call (.make Sorter.downwardKernel) =
      (.made (.ok 0), ((ofCapacity 24).call (.make Sorter.downwardKernel)).2) := rfl
  rw [hmade] at hmake
  cases hmake
  have hends := hrun (Sorter.smallBatches.map fun columns => .evaluate 0 columns) (by simp)
  have hkeeps : fedContext.Keeps 0 Sorter.downwardKernel (arrived Sorter.smallBatches) :=
    keeps_fedWith (Template.validate_eq_ok_iff.1 hvalid) Sorter.smallBatches
  have hadmits : fedContext.Admits 0 :=
    admits_of_get? (s := .indexed (.holding Sorter.downwardKernel (arrived Sorter.smallBatches)))
      rfl fun _ => by decide
  have hnulls : ¬Template.AllowsNulls filledSchema (arrived Sorter.smallBatches) :=
    not_allowsNulls_filledSchema List.mem_cons_self (by decide)
  have hnulls' : Template.AllowsNulls [⟨"k", .column .int8, true⟩]
      (arrived Sorter.smallBatches) := Template.allowsNulls_of_nullable (by simp)
  have hschema : Sorter.downwardKernel.template.checkSchema filledSchema = .ok () := rfl
  have hschema' : Sorter.downwardKernel.template.checkSchema [⟨"k", .column .int8, true⟩] =
    .ok () := rfl
  obtain ⟨z, hopen, -⟩ := hkeeps.openCursor hadmits hschema
  obtain ⟨z', hopen', -⟩ := hkeeps.openCursor hadmits hschema'
  refine ⟨z, z', hopen, hopen', fun n hn => ?_, ?_⟩
  · exact hnulls ((hends filledSchema 1 z hopen).2.1.1 ⟨n, hn⟩).1
  · exact (hends [⟨"k", .column .int8, true⟩] 1 z' hopen').1.2 ⟨hnulls',
      hkeeps.batches.countsBytes
        (Template.countsAll_of_numbers (List.forall_mem_singleton.2 ⟨.int8, rfl⟩))⟩

/-- A null row under a schema without nulls: no number of pulls comes to the end. -/
theorem null_never_ends :
    ∃ z, (fedWith Sorter.downwardKernel [[.ofArray (.column .int8) #[none]]]).call
        (.openCursor 0 filledSchema) = (.opened (.ok 1), z) ∧ ∀ n, ¬z.EndsWithin 1 n := by
  have hv : Sorter.downwardKernel.template.Valid := Template.validate_eq_ok_iff.1 (by decide)
  let held : List (List Column) := [[.ofArray (.column .int8) #[none]]]
  have hkeeps : (fedWith Sorter.downwardKernel held).Keeps 0 Sorter.downwardKernel held :=
    keeps_fedWith hv held
  have hadmits : (fedWith Sorter.downwardKernel held).Admits 0 :=
    admits_of_get? (s := .indexed (.holding Sorter.downwardKernel held)) rfl fun _ => by decide
  have hschema : Sorter.downwardKernel.template.checkSchema filledSchema = .ok () := rfl
  have hnulls : ¬Template.AllowsNulls filledSchema held :=
    not_allowsNulls_filledSchema List.mem_cons_self (by decide)
  obtain ⟨z, hopen, hreading⟩ := hkeeps.openCursor hadmits hschema
  obtain ⟨stop, e, hrefused, hmade⟩ :=
    hkeeps.batches.exists_refusal hv hschema fun h => hnulls h.1
  exact ⟨z, hopen, hreading.not_endsWithin hmade hrefused⟩

end SortContext

end Collate
