import Collate.Proofs.Json.Answers
import Collate.Proofs.Template.Depth

/-!
# Bounds of templates that were read

Whatever the text of a document is like, a template that is read from it has sizes of 64 bits and a
chain of comparisons that is shorter than the reader may go deep (`Template.ensures_reader`).  So a
template that a source holds is portable (`Template.portable_of_ofSource`): what could be read once
can be read again after it has been written.
-/

namespace Collate

open Json.Reader

/-! ### Columns and chains -/

/-- The position of a column, where it has been read, is a size. -/
def FieldSlot.Draft.Fits (d : Draft) : Prop := ∀ n ∈ d.slot, n < 2 ^ 64

theorem FieldSlot.ensures_reader (depth : Nat) :
    Ensures (FieldSlot.reader depth) fun f => f.slot < 2 ^ 64 := by
  refine ensures_record fun inner _ => ensures_recordOf (I := Draft.Fits) ?_ ?_ ?_
  · intro n hn
    cases hn
  · simp only [Draft.shape, List.forall_mem_cons, List.not_mem_nil, false_implies, implies_true,
      and_true]
    exact ⟨keptBy_member ensures_size fun d n _ hn => by simpa [Draft.Fits] using hn,
      keptBy_other fun d _ hd => hd, keptBy_other fun d _ hd => hd, keptBy_other fun d _ hd => hd,
      keptBy_other fun d _ hd => hd⟩
  · intro d f hd hfinish
    simp only [Draft.shape, bind_eq_ok_iff, required_eq_ok_iff] at hfinish
    obtain ⟨slot, hslot, _, _, _, _, _, _, _, _, hf⟩ := hfinish
    cases hf
    exact hd slot hslot

/-- The links that break the ties of a link, where they have been read, are at most `count`. -/
def CompareChain.Draft.Within (count : Nat) (d : Draft) : Prop :=
  ∀ c ∈ d.tieBreak.join, c.links.length ≤ count

/-- A reader that may go `depth` levels deep reads no more links than that. -/
theorem CompareChain.ensures_reader (depth : Nat) :
    Ensures (CompareChain.reader depth) fun c => c.links.length ≤ depth := by
  induction depth with
  | zero => exact ensures_noRecord
  | succ depth ih =>
    refine ensures_recordOf (I := Draft.Within depth) ?_ ?_ ?_
    · intro c hc
      cases hc
    · simp only [Draft.shape, List.forall_mem_cons, List.not_mem_nil, false_implies, implies_true,
        and_true]
      exact ⟨keptBy_other fun d _ hd => hd, keptBy_other fun d _ hd => hd,
        keptBy_member (ensures_optional ih) fun d o _ ho => ho⟩
    · intro d c hd hfinish
      simp only [Draft.shape, bind_eq_ok_iff, required_eq_ok_iff] at hfinish
      obtain ⟨slot, -, direction, -, hc⟩ := hfinish
      cases hc
      rw [links, List.length_cons, Nat.succ_le_succ_iff]
      cases hjoin : d.tieBreak.join with
      | none => exact Nat.zero_le _
      | some c => exact hd c hjoin

/-! ### Templates -/

namespace Template

variable {t : Template} {text : String} {depth : Nat}

/-- What has been read of a template is within the bounds of a reader. -/
structure Draft.Within (depth : Nat) (d : Draft) : Prop where
  batchSize : ∀ n ∈ d.batchSize, n < 2 ^ 64
  fields : ∀ fields ∈ d.fields, ∀ f ∈ fields, f.slot < 2 ^ 64
  comparator : ∀ c ∈ d.comparator, c.links.length ≤ depth

/-- The sizes of a template have 64 bits, and its chain of comparisons has at most `depth` links. -/
structure Within (depth : Nat) (t : Template) : Prop where
  batchSize : t.batchSize < 2 ^ 64
  slots : ∀ f ∈ t.fields, f.slot < 2 ^ 64
  links : t.comparator.links.length ≤ depth

theorem ensures_reader (depth : Nat) : Ensures (Template.reader (depth + 1)) (Within depth) := by
  refine ensures_recordOf (I := Draft.Within depth) ⟨?_, ?_, ?_⟩ ?_ ?_
  · intro n hn
    cases hn
  · intro fields hfields
    cases hfields
  · intro c hc
    cases hc
  · simp only [Draft.shape, List.forall_mem_cons, List.not_mem_nil, false_implies, implies_true,
      and_true]
    refine ⟨keptBy_other ?_, keptBy_other ?_, keptBy_other ?_, keptBy_member ensures_size ?_,
      keptBy_member (ensures_list FieldSlot.ensures_reader depth) ?_, keptBy_other ?_,
      keptBy_other ?_, keptBy_member (CompareChain.ensures_reader depth) ?_, keptBy_other ?_,
      keptBy_other ?_⟩
    case refine_4 => exact fun d n hd hn => ⟨by simpa using hn, hd.fields, hd.comparator⟩
    case refine_5 => exact fun d fs hd hfs => ⟨hd.batchSize, by simpa using hfs, hd.comparator⟩
    case refine_8 => exact fun d c hd hc => ⟨hd.batchSize, hd.fields, by simpa using hc⟩
    all_goals exact fun d _ hd => ⟨hd.batchSize, hd.fields, hd.comparator⟩
  · intro d t hd hfinish
    simp only [Draft.shape, bind_eq_ok_iff, required_eq_ok_iff] at hfinish
    obtain ⟨_, -, _, -, _, -, batchSize, hbatch, fields, hfields, _, -, _, -, chain, hchain, _, -,
      _, -, ht⟩ := hfinish
    cases ht
    exact ⟨hd.batchSize _ hbatch, hd.fields _ hfields, hd.comparator _ hchain⟩

theorem Within.length_fields (h : t.Within depth) (hvalid : t.Valid) :
    t.fields.length ≤ 2 ^ 64 := by
  by_contra hlt
  have hget := List.getElem?_eq_getElem (show 2 ^ 64 < t.fields.length by omega)
  have hslot := h.slots _ (List.mem_of_getElem? hget)
  rw [hvalid.columns _ _ hget] at hslot
  exact absurd hslot (Nat.lt_irrefl _)

theorem Within.length_keys (h : t.Within depth) (hvalid : t.Valid) : t.keys.length ≤ depth := by
  rw [← hvalid.comparatorSlots, CompareChain.slots, List.length_map]
  exact h.links

theorem ensures_sourceReader : Ensures Source.reader (Within 125) := by
  show Ensures (recordOf _ _) _
  refine ensures_recordOf (I := fun d : Source.Draft => ∀ t ∈ d.kernel, t.Within 125) ?_ ?_ ?_
  · intro t ht
    cases ht
  · simp only [Source.Draft.shape, List.forall_mem_cons, List.not_mem_nil, false_implies,
      implies_true, and_true]
    exact ⟨keptBy_other fun d _ hd => hd,
      keptBy_member (ensures_reader 125) fun d t _ ht => by simpa using ht⟩
  · intro d t hd hfinish
    simp only [Source.Draft.shape, bind_eq_ok_iff, required_eq_ok_iff] at hfinish
    obtain ⟨_, -, hkernel⟩ := hfinish
    exact hd t hkernel

theorem ofSource_eq_ok_iff :
    ofSource text = .ok t ↔ Source.reader.run (Text.bytes text) = .ok t ∧ t.Valid := by
  rw [ofSource, ← validate_eq_ok_iff]
  cases Source.reader.run (Text.bytes text) with
  | error e => simp
  | ok t' => cases hvalid : t'.validate <;> grind

/-- A template that a source holds is portable. -/
theorem portable_of_ofSource (h : ofSource text = .ok t) : t.Portable := by
  obtain ⟨hread, hvalid⟩ := ofSource_eq_ok_iff.1 h
  have hwithin := ensures_sourceReader.run hread
  exact (hvalid.portable_iff hwithin.batchSize (hwithin.length_fields hvalid)).2
    (hwithin.length_keys hvalid)

end Template

end Collate
