import Collate.Proofs.Json.Records
import Collate.Proofs.Template.Valid
import Collate.Template.Source

/-!
# Templates that were written

Every part of a template is read back from its JSON form, and so is the template itself where it
does not nest too deep and its numbers fit 64 bits (`Template.readsJson`).  Such a template, which
is called portable, is read back from its source (`Template.Portable.ofSource_source`) and from its
text (`Template.Portable.ofBytes_text`).
-/

namespace Collate

/-! ### Nesting -/

namespace Json

mutual

/-- How deep the containers of a value nest. -/
def nesting : Json → Nat
  | array items => nestingItems items + 1
  | object members => nestingMembers members + 1
  | _ => 0

/-- How deep the containers of items nest. -/
def nestingItems : List Json → Nat
  | [] => 0
  | item :: items => max (nesting item) (nestingItems items)

/-- How deep the containers of members nest. -/
def nestingMembers : List (String × Json) → Nat
  | [] => 0
  | (_, value) :: members => max (nesting value) (nestingMembers members)

end

theorem nesting_lt_of_mem (name : String) {value : Json} {members : List (String × Json)}
    (h : (name, value) ∈ members) : value.nesting < (object members).nesting := by
  rw [nesting, Nat.lt_succ_iff]
  induction members with
  | nil => cases h
  | cons m members ih =>
    rw [nestingMembers]
    rcases List.mem_cons.1 h with rfl | h
    · exact Nat.le_max_left _ _
    · exact Nat.le_trans (ih h) (Nat.le_max_right _ _)

end Json

/-- Every link of a chain nests in the one before. -/
theorem CompareChain.length_le_nesting (link : CompareLink) (rest : List CompareLink) :
    rest.length < (linksJson link rest).nesting := by
  induction rest generalizing link with
  | nil => exact Nat.succ_pos _
  | cons next rest ih =>
    refine Nat.lt_of_le_of_lt (ih next) (Json.nesting_lt_of_mem "tie_break" ?_)
    simp

/-- The document of a template's source. -/
def Template.document (t : Template) : Json :=
  .object [("generator", .string Source.generator), ("kernel", t.json)]

open Json.Reader

variable {α : Type}

/-! ### Choices -/

theorem readsJson_nullOrder (o : NullOrder) (depth : Nat) :
    ReadsJson (NullOrder.reader depth) (.string o.tag) o :=
  readsJson_variant (by cases o <;> rfl)

theorem readsJson_direction (d : Direction) (depth : Nat) :
    ReadsJson (Direction.reader depth) (.string d.tag) d :=
  readsJson_variant (by cases d <;> rfl)

theorem readsJson_strategy (s : Strategy) (depth : Nat) :
    ReadsJson (Strategy.reader depth) (.string s.tag) s :=
  readsJson_variant (by cases s <;> rfl)

theorem readsJson_region (r : Region) (depth : Nat) :
    ReadsJson (Region.reader depth) (.string r.tag) r :=
  readsJson_variant (by cases r <;> rfl)

/-! ### Column types -/

theorem readsJson_columnType (t : ColumnType) (depth : Nat) :
    ReadsJson (ColumnType.reader (depth + 2)) t.json t := by
  cases t with
  | decimal128 precision scale =>
    refine readsJson_payload (v := recordVariant "Decimal128" fun depth =>
      record depth "struct variant ColumnType::Decimal128" fun _ =>
        ColumnType.DecimalDraft.shape) rfl ?_
    show ReadsJson (record (depth + 1) _ fun _ => ColumnType.DecimalDraft.shape) _ _
    refine readsJson_record ⟨_, .member rfl rfl (readsJson_natural (by decide) precision.toNat_lt)
      (.member rfl rfl (readsJson_integer scale.le_toInt scale.toInt_lt ?_ ?_) (.nil _)), ?_⟩
    · have := scale.le_toInt
      omega
    · have := scale.toInt_lt
      omega
    · show Except.ok _ = Except.ok _
      simp
  | _ => exact readsJson_variant rfl

/-! ### Records -/

theorem readsJson_policy (p : Policy) (depth : Nat) :
    ReadsJson (Policy.reader (depth + 1)) p.json p :=
  readsJson_record ⟨_, .member rfl rfl (readsJson_nullOrder _ _)
    (.member rfl rfl (readsJson_direction _ _) (.nil _)), rfl⟩

theorem readsJson_fieldSlot {f : FieldSlot} (h : f.slot < 2 ^ 64) (depth : Nat) :
    ReadsJson (FieldSlot.reader (depth + 3)) f.json f :=
  readsJson_record ⟨_, .member rfl rfl (readsJson_size h) (.member rfl rfl readsJson_text
    (.member rfl rfl (readsJson_columnType _ _) (.member rfl rfl readsJson_text
      (.member rfl rfl readsJson_text (.nil _))))), rfl⟩

theorem readsJson_placement (p : Placement) (depth : Nat) :
    ReadsJson (Placement.reader (depth + 1)) p.json p :=
  readsJson_record ⟨_, .member rfl rfl (readsJson_region _ _)
    (.member rfl rfl (readsJson_region _ _) (.nil _)), rfl⟩

theorem readsJson_sortCall {c : SortCall} (h : ∀ slot, c = .radix slot → slot < 2 ^ 64)
    (depth : Nat) : ReadsJson (SortCall.reader (depth + 2)) c.json c := by
  cases c with
  | comparison => exact readsJson_variant rfl
  | radix slot =>
    have hpayload : ReadsJson (SortCall.radixReader (depth + 1)) (.object [("slot", .ofNat slot)])
        (.radix slot) :=
      readsJson_record ⟨_, .member rfl rfl (readsJson_size (h slot rfl)) (.nil _), rfl⟩
    exact readsJson_payload (v := recordVariant "Radix" SortCall.radixReader) rfl hpayload

/-! ### Chains -/

theorem exists_linksJson (link : CompareLink) (rest : List CompareLink) :
    ∃ m ms, CompareChain.linksJson link rest = .object (m :: ms) := by
  cases rest <;> exact ⟨_, _, rfl⟩

/-- Every link is read one level further in than the one before. -/
theorem readsJson_links {link : CompareLink} {rest : List CompareLink} {depth : Nat}
    (hslots : ∀ l ∈ link :: rest, l.slot < 2 ^ 64) (hdepth : rest.length < depth) :
    ReadsJson (CompareChain.reader depth) (CompareChain.linksJson link rest) ⟨link, rest⟩ := by
  induction rest generalizing link depth with
  | nil =>
    obtain ⟨depth, rfl⟩ := Nat.exists_eq_succ_of_ne_zero (Nat.ne_zero_of_lt hdepth)
    exact readsJson_recordOf ⟨_, .member rfl rfl (readsJson_size (hslots _ List.mem_cons_self))
      (.member rfl rfl (readsJson_direction _ _)
        (.member rfl rfl (readsJson_null _) (.nil _))), rfl⟩
  | cons next rest ih =>
    obtain ⟨depth, rfl⟩ := Nat.exists_eq_succ_of_ne_zero (Nat.ne_zero_of_lt hdepth)
    rw [List.forall_mem_cons] at hslots
    have hnext := ih hslots.2 (Nat.lt_of_succ_lt_succ hdepth)
    have hbreak : ReadsJson (optional (CompareChain.reader depth))
        (CompareChain.linksJson next rest) (some ⟨next, rest⟩) := by
      obtain ⟨m, ms, hobject⟩ := exists_linksJson next rest
      rw [hobject] at hnext ⊢
      exact readsJson_some Json.noConfusion hnext
    exact readsJson_recordOf ⟨_, .member rfl rfl (readsJson_size hslots.1)
      (.member rfl rfl (readsJson_direction _ _) (.member rfl rfl hbreak (.nil _))), rfl⟩

/-! ### Templates -/

namespace Template

variable {t : Template}

theorem Valid.slot_lt (h : t.Valid) (hfields : t.fields.length ≤ 2 ^ 64) {slot : Nat}
    (hslot : slot ∈ t.keys) : slot < 2 ^ 64 :=
  Nat.lt_of_lt_of_le (h.keys slot hslot) hfields

theorem Valid.length_rest (h : t.Valid) : t.comparator.rest.length + 1 = t.keys.length := by
  rw [← h.comparatorSlots, CompareChain.slots, List.length_map, CompareChain.links,
    List.length_cons]

theorem Valid.slot_lt_of_mem_links (h : t.Valid) (hfields : t.fields.length ≤ 2 ^ 64) :
    ∀ l ∈ t.comparator.links, l.slot < 2 ^ 64 := by
  intro l hl
  refine h.slot_lt hfields ?_
  rw [← h.comparatorSlots]
  exact List.mem_map_of_mem hl

theorem Valid.slot_lt_of_mem_fields (h : t.Valid) (hfields : t.fields.length ≤ 2 ^ 64) :
    ∀ f ∈ t.fields, f.slot < 2 ^ 64 := by
  intro f hf
  obtain ⟨i, hi, rfl⟩ := List.getElem_of_mem hf
  rw [h.columns i _ (List.getElem?_eq_getElem hi)]
  exact Nat.lt_of_lt_of_le hi hfields

theorem Valid.slot_lt_of_radix (h : t.Valid) (hfields : t.fields.length ≤ 2 ^ 64) :
    ∀ slot, t.sortCall = .radix slot → slot < 2 ^ 64 := by
  intro slot hslot
  refine h.slot_lt hfields ?_
  rw [(h.sortCall slot hslot).1]
  exact List.mem_singleton_self slot

/-- The members before the comparator are read. -/
theorem fills_head (h : t.Valid) (hbatch : t.batchSize < 2 ^ 64)
    (hfields : t.fields.length ≤ 2 ^ 64) (depth : Nat) :
    Fills (Draft.shape (depth + 4)) (Draft.shape (depth + 4)).start
      [("revision", .ofNat t.revision.toNat),
        ("strategy", .string t.strategy.tag),
        ("policy", t.policy.json),
        ("batch_size", .ofNat t.batchSize),
        ("fields", .array (t.fields.map (·.json))),
        ("keys", .array (t.keys.map .ofNat)),
        ("partition_slot", .ofNat t.partitionSlot)]
      { revision := t.revision.toNat, strategy := t.strategy, policy := t.policy,
        batchSize := t.batchSize, fields := t.fields, keys := t.keys,
        partitionSlot := t.partitionSlot } := by
  have hcolumns : ReadsJson (list (depth + 4) FieldSlot.reader) (.array (t.fields.map (·.json)))
      t.fields :=
    readsJson_list (List.forall₂_map_left_iff.2 (List.forall₂_same.2 fun f hf =>
      readsJson_fieldSlot (h.slot_lt_of_mem_fields hfields f hf) depth))
  have hkeyList : ReadsJson (list (depth + 4) fun _ => size) (.array (t.keys.map .ofNat)) t.keys :=
    readsJson_list (List.forall₂_map_left_iff.2
      (List.forall₂_same.2 fun k hk => readsJson_size (h.slot_lt hfields hk)))
  exact .member rfl rfl (readsJson_natural (by decide) t.revision.toNat_lt)
    (.member rfl rfl (readsJson_strategy _ _) (.member rfl rfl (readsJson_policy _ _)
    (.member rfl rfl (readsJson_size hbatch) (.member rfl rfl hcolumns
    (.member rfl rfl hkeyList
    (.member rfl rfl (readsJson_size (h.slot_lt hfields h.partitionSlot_mem)) (.nil _)))))))

/-- A valid template is read back where its chain of comparisons does not nest too deep. -/
theorem readsJson (h : t.Valid) (hbatch : t.batchSize < 2 ^ 64) (hfields : t.fields.length ≤ 2 ^ 64)
    {depth : Nat} (hkeys : t.keys.length ≤ depth + 4) :
    ReadsJson (Template.reader (depth + 5)) t.json t := by
  have hchain : t.comparator.rest.length < depth + 4 := by
    have := h.length_rest
    omega
  refine readsJson_record ⟨_, (fills_head h hbatch hfields depth).append
    (.member rfl rfl (readsJson_links (h.slot_lt_of_mem_links hfields) hchain)
    (.member rfl rfl (readsJson_placement _ _)
    (.member rfl rfl (readsJson_sortCall (h.slot_lt_of_radix hfields) _) (.nil _)))), ?_⟩
  show Except.ok _ = Except.ok _
  simp

theorem Valid.length_keys_lt_nesting (h : t.Valid) : t.keys.length + 1 < t.document.nesting := by
  have hlength := h.length_rest
  have hchain : t.comparator.rest.length < t.comparator.json.nesting :=
    CompareChain.length_le_nesting _ _
  have hkernel : t.comparator.json.nesting < t.json.nesting :=
    Json.nesting_lt_of_mem "comparator" (by simp)
  have hdocument : t.json.nesting < t.document.nesting :=
    Json.nesting_lt_of_mem "kernel" (by simp)
  omega

/-- A valid template whose numbers fit 64 bits and whose document can be read. -/
structure Portable (t : Template) : Prop where
  valid : t.Valid
  batchSize : t.batchSize < 2 ^ 64
  fields : t.fields.length ≤ 2 ^ 64
  nesting : t.document.nesting ≤ Json.maxDepth

namespace Portable

theorem length_keys (h : t.Portable) : t.keys.length ≤ 125 := by
  have hlt := h.valid.length_keys_lt_nesting
  have hle := h.nesting
  rw [Json.maxDepth] at hle
  omega

/-- The template is read back from its source. -/
theorem ofSource_source (h : t.Portable) : ofSource t.source = .ok t := by
  have hkernel : ReadsJson (Template.reader (121 + 5)) t.json t :=
    readsJson h.valid h.batchSize h.fields h.length_keys
  have hdocument : ReadsJson Source.reader t.document t :=
    readsJson_record ⟨_, .member rfl rfl readsJson_text (.member rfl rfl hkernel (.nil _)), rfl⟩
  have hread : Source.reader.run (Text.bytes t.source) = .ok t := (hdocument (.lines 0)).run
  rw [ofSource, hread]
  simp only [validate_eq_ok_iff.2 h.valid]

/-- The template is read back from its text. -/
theorem ofBytes_text (h : t.Portable) : ofBytes (Text.bytes t.text) = .ok t := by
  have hread : ReadsJson (Template.reader (122 + 5)) t.json t :=
    readsJson h.valid h.batchSize h.fields (Nat.le_trans h.length_keys (by decide))
  exact (hread .tight).run

end Portable

end Template

end Collate
