import Collate.Proofs.Json.Refusals
import Collate.Proofs.Template.RoundTrip

/-!
# How deep templates nest

Every key adds a container to the document of a template, as a link of the chain of comparisons
holds the next one; nothing else in a document nests deeper with its size
(`Template.nesting_document_le`).  So a valid template whose numbers fit 64 bits is portable if and
only if it has at most 125 keys (`Template.Valid.portable_iff`), and the source of any other one is
refused, although it was rendered from a valid template (`Template.Valid.ofSource_source_of_lt`).
-/

namespace Collate

open Json.Reader

/-! ### Nesting -/

namespace Json

theorem nesting_array_le {n : Nat} {items : List Json} (h : ∀ item ∈ items, item.nesting ≤ n) :
    (array items).nesting ≤ n + 1 := by
  rw [nesting, Nat.add_le_add_iff_right]
  induction items with
  | nil => exact Nat.zero_le _
  | cons item items ih =>
    rw [List.forall_mem_cons] at h
    exact Nat.max_le.2 ⟨h.1, ih h.2⟩

theorem nesting_object_le {n : Nat} {members : List (String × Json)}
    (h : ∀ m ∈ members, m.2.nesting ≤ n) : (object members).nesting ≤ n + 1 := by
  rw [nesting, Nat.add_le_add_iff_right]
  induction members with
  | nil => exact Nat.zero_le _
  | cons m members ih =>
    rw [List.forall_mem_cons] at h
    exact Nat.max_le.2 ⟨h.1, ih h.2⟩

end Json

theorem ColumnType.nesting_json_le (t : ColumnType) : t.json.nesting ≤ 2 := by
  cases t <;> simp [ColumnType.json, Json.ofNat, Json.nesting, Json.nestingMembers]

theorem FieldSlot.nesting_json_le (f : FieldSlot) : f.json.nesting ≤ 3 := by
  refine Json.nesting_object_le ?_
  simp [Json.ofNat, Json.nesting, f.type.nesting_json_le]

theorem SortCall.nesting_json_le (c : SortCall) : c.json.nesting ≤ 2 := by
  cases c <;> simp [SortCall.json, Json.ofNat, Json.nesting, Json.nestingMembers]

/-- No more containers nest in a chain than it has links. -/
theorem CompareChain.nesting_links_le (link : CompareLink) (rest : List CompareLink) :
    (linksJson link rest).nesting ≤ rest.length + 1 := by
  induction rest generalizing link with
  | nil => simp [linksJson, Json.ofNat, Json.nesting, Json.nestingMembers]
  | cons next rest ih =>
    refine Json.nesting_object_le ?_
    simpa [Json.ofNat, Json.nesting] using ih next

namespace Template

variable {t : Template}

/-- Beside the chain, the deepest part of a document is the list of the columns. -/
theorem nesting_document_le (t : Template) :
    t.document.nesting ≤ max 4 (t.comparator.rest.length + 1) + 2 := by
  have hfields : (Json.array (t.fields.map (·.json))).nesting ≤ 4 := by
    refine Json.nesting_array_le fun item hitem => ?_
    obtain ⟨f, -, rfl⟩ := List.mem_map.1 hitem
    exact f.nesting_json_le
  have hkeys : (Json.array (t.keys.map .ofNat)).nesting ≤ 1 := by
    refine Json.nesting_array_le fun item hitem => ?_
    obtain ⟨k, -, rfl⟩ := List.mem_map.1 hitem
    exact Nat.le_refl _
  have hchain : t.comparator.json.nesting ≤ t.comparator.rest.length + 1 :=
    CompareChain.nesting_links_le _ _
  have hkernel : t.json.nesting ≤ max 4 (t.comparator.rest.length + 1) + 1 := by
    have hcall := t.sortCall.nesting_json_le
    have hpolicy : t.policy.json.nesting = 1 := rfl
    have hplacement : t.placement.json.nesting = 1 := rfl
    refine Json.nesting_object_le ?_
    simp only [List.forall_mem_cons, List.not_mem_nil, false_implies, implies_true, and_true,
      hpolicy, hplacement]
    refine ⟨Nat.zero_le _, Nat.zero_le _, ?_, Nat.zero_le _, ?_, ?_, Nat.zero_le _, ?_, ?_, ?_⟩ <;>
      omega
  refine Json.nesting_object_le ?_
  simpa [Json.nesting] using hkernel

/-- A valid template can be read from its document if and only if it has at most 125 keys. -/
theorem Valid.portable_iff (h : t.Valid) (hbatch : t.batchSize < 2 ^ 64)
    (hfields : t.fields.length ≤ 2 ^ 64) : t.Portable ↔ t.keys.length ≤ 125 := by
  refine ⟨Portable.length_keys, fun hkeys => ⟨h, hbatch, hfields, ?_⟩⟩
  have hnesting := t.nesting_document_le
  have hlength := h.length_rest
  rw [Json.maxDepth]
  omega

end Template

/-! ### Sources that are refused -/

/-- A chain is refused at the first link that stands deeper than a reader may go. -/
theorem refusesJson_links {link : CompareLink} {rest : List CompareLink} {depth : Nat}
    (hslots : ∀ l ∈ link :: rest, l.slot < 2 ^ 64) (hdepth : depth ≤ rest.length) :
    RefusesJson (CompareChain.reader depth) (CompareChain.linksJson link rest) .tooDeep := by
  induction depth generalizing link rest with
  | zero =>
    obtain ⟨m, ms, hobject⟩ := exists_linksJson link rest
    rw [hobject]
    exact refusesJson_noRecord _ _
  | succ depth ih =>
    obtain ⟨next, rest, rfl⟩ := List.exists_cons_of_length_pos (Nat.zero_lt_of_lt hdepth)
    rw [List.forall_mem_cons] at hslots
    have hnext := ih hslots.2 (Nat.le_of_succ_le_succ hdepth)
    have hbreak : RefusesJson (optional (CompareChain.reader depth))
        (CompareChain.linksJson next rest) .tooDeep := by
      obtain ⟨m, ms, hobject⟩ := exists_linksJson next rest
      rw [hobject] at hnext ⊢
      exact refusesJson_optional hnext
    exact refusesJson_recordOf
      (.member rfl rfl (readsJson_size hslots.1)
        (.member rfl rfl (readsJson_direction _ _) (.nil _)))
      rfl rfl hbreak []

namespace Template

variable {t : Template}

/-- A valid template is refused where its chain of comparisons nests too deep. -/
theorem refusesJson (h : t.Valid) (hbatch : t.batchSize < 2 ^ 64)
    (hfields : t.fields.length ≤ 2 ^ 64) {depth : Nat} (hkeys : depth + 4 < t.keys.length) :
    RefusesJson (Template.reader (depth + 5)) t.json .tooDeep := by
  have hchain : depth + 4 ≤ t.comparator.rest.length := by
    have := h.length_rest
    omega
  have hlinks := refusesJson_links (h.slot_lt_of_mem_links hfields) hchain
  exact refusesJson_recordOf (fills_head h hbatch hfields depth) rfl rfl hlinks
    [("placement", t.placement.json), ("sort_call", t.sortCall.json)]

/-- The source of a valid template with more than 125 keys is refused. -/
theorem Valid.ofSource_source_of_lt (h : t.Valid) (hbatch : t.batchSize < 2 ^ 64)
    (hfields : t.fields.length ≤ 2 ^ 64) (hkeys : 125 < t.keys.length) :
    ofSource t.source = .error (.parse .tooDeep) := by
  have hkernel : RefusesJson (Template.reader (121 + 5)) t.json .tooDeep :=
    refusesJson h hbatch hfields hkeys
  have hdocument : RefusesJson Source.reader t.document .tooDeep :=
    refusesJson_recordOf (.member rfl rfl readsJson_text (.nil _)) rfl rfl hkernel []
  have hread : Source.reader.run (Text.bytes t.source) = .error .tooDeep :=
    hdocument.run (.lines 0)
  rw [ofSource, hread]

end Template

end Collate
