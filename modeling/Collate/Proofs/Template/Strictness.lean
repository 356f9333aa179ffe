import Collate.Proofs.Compilation
import Collate.Proofs.Json.Extension

/-!
# Sources with further members

A further member in one object of a source is refused if the object is the document itself or names
a variant, that is a column type or a sort call.  In every other object it is passed over, whatever
its value, and the source holds the same template as before (`Template.further_members_decided`).
-/

namespace Collate

open Json Json.Reader

/-- The members whose values are variants that may have a payload. -/
def namesVariant (name : String) : Bool := name = "column_type" || name = "sort_call"

/-! ### Parts of templates -/

theorem eq_unitVariant_of_mem_variants {v : Variant ColumnType} (hv : v ∈ ColumnType.variants)
    (hname : v.name ≠ "Decimal128") : ∃ t, v = unitVariant v.name t := by
  simp only [ColumnType.variants, List.mem_append, List.mem_map, List.mem_singleton] at hv
  rcases hv with (⟨t, -, rfl⟩ | rfl) | ⟨t, -, rfl⟩
  · exact ⟨t, rfl⟩
  · exact absurd rfl hname
  · exact ⟨t, rfl⟩

theorem overlooks_decimal (precision : UInt8) (scale : Int8) (depth : Nat) :
    Overlooks namesVariant false
      (record (depth + 1) "struct variant ColumnType::Decimal128" fun _ =>
        ColumnType.DecimalDraft.shape)
      (.object [("precision", .ofNat precision.toNat), ("scale", .number scale.toInt)])
      (.decimal128 precision scale) := by
  have hle := scale.le_toInt
  have hlt := scale.toInt_lt
  refine overlooks_record ⟨_, .member rfl rfl
    (overlooks_atom rfl (readsJson_natural (by decide) precision.toNat_lt))
    (.member rfl rfl (overlooks_atom rfl (readsJson_integer hle hlt ?_ ?_)) (.nil _)), ?_⟩ rfl rfl
  · omega
  · omega
  · show Except.ok _ = Except.ok _
    simp

theorem overlooks_columnType (t : ColumnType) (depth : Nat) :
    Overlooks namesVariant true (ColumnType.reader (depth + 2)) t.json t := by
  cases t with
  | decimal128 precision scale =>
    exact overlooks_payload (v := recordVariant "Decimal128" fun depth =>
      record depth "struct variant ColumnType::Decimal128" fun _ =>
        ColumnType.DecimalDraft.shape) rfl
      (fun _ hv hname => eq_unitVariant_of_mem_variants hv hname)
      (overlooks_decimal precision scale depth)
  | _ => exact overlooks_atom rfl (readsJson_columnType _ depth)

theorem overlooks_policy (p : Policy) (depth : Nat) :
    Overlooks namesVariant false (Policy.reader (depth + 1)) p.json p :=
  overlooks_record ⟨_, .member rfl rfl (overlooks_atom rfl (readsJson_nullOrder _ _))
    (.member rfl rfl (overlooks_atom rfl (readsJson_direction _ _)) (.nil _)), rfl⟩ rfl rfl

theorem overlooks_fieldSlot {f : FieldSlot} (h : f.slot < 2 ^ 64) (depth : Nat) :
    Overlooks namesVariant false (FieldSlot.reader (depth + 3)) f.json f :=
  overlooks_record ⟨_, .member rfl rfl (overlooks_atom rfl (readsJson_size h))
    (.member rfl rfl (overlooks_atom rfl readsJson_text)
    (.member rfl rfl (overlooks_columnType _ _)
    (.member rfl rfl (overlooks_atom rfl readsJson_text)
    (.member rfl rfl (overlooks_atom rfl readsJson_text) (.nil _))))), rfl⟩ rfl rfl

theorem overlooks_placement (p : Placement) (depth : Nat) :
    Overlooks namesVariant false (Placement.reader (depth + 1)) p.json p :=
  overlooks_record ⟨_, .member rfl rfl (overlooks_atom rfl (readsJson_region _ _))
    (.member rfl rfl (overlooks_atom rfl (readsJson_region _ _)) (.nil _)), rfl⟩ rfl rfl

theorem overlooks_sortCall {c : SortCall} (h : ∀ slot, c = .radix slot → slot < 2 ^ 64)
    (depth : Nat) : Overlooks namesVariant true (SortCall.reader (depth + 2)) c.json c := by
  cases c with
  | comparison => exact overlooks_atom rfl (readsJson_sortCall h depth)
  | radix slot =>
    refine overlooks_payload (v := recordVariant "Radix" SortCall.radixReader) rfl ?_ ?_
    · intro v hv hname
      rcases List.mem_pair.1 hv with rfl | rfl
      · exact absurd rfl hname
      · exact ⟨.comparison, rfl⟩
    · show Overlooks _ false (SortCall.radixReader (depth + 1)) _ _
      exact overlooks_record ⟨_, .member rfl rfl
        (overlooks_atom rfl (readsJson_size (h slot rfl))) (.nil _), rfl⟩ rfl rfl

/-- A further member in a link of a chain is overlooked at any depth. -/
theorem overlooks_links {link : CompareLink} {rest : List CompareLink} {depth : Nat}
    (hslots : ∀ l ∈ link :: rest, l.slot < 2 ^ 64) (hdepth : rest.length < depth) :
    Overlooks namesVariant false (CompareChain.reader depth) (CompareChain.linksJson link rest)
      ⟨link, rest⟩ := by
  induction rest generalizing link depth with
  | nil =>
    obtain ⟨depth, rfl⟩ := Nat.exists_eq_succ_of_ne_zero (Nat.ne_zero_of_lt hdepth)
    exact overlooks_recordOf ⟨_,
      .member rfl rfl (overlooks_atom rfl (readsJson_size (hslots _ List.mem_cons_self)))
      (.member rfl rfl (overlooks_atom rfl (readsJson_direction _ _))
      (.member rfl rfl (overlooks_atom rfl (readsJson_null _)) (.nil _))), rfl⟩ rfl rfl
  | cons next rest ih =>
    obtain ⟨depth, rfl⟩ := Nat.exists_eq_succ_of_ne_zero (Nat.ne_zero_of_lt hdepth)
    rw [List.forall_mem_cons] at hslots
    have hnext := ih hslots.2 (Nat.lt_of_succ_lt_succ hdepth)
    have hbreak : Overlooks namesVariant false (optional (CompareChain.reader depth))
        (CompareChain.linksJson next rest) (some ⟨next, rest⟩) := by
      obtain ⟨m, ms, hobject⟩ := exists_linksJson next rest
      rw [hobject] at hnext ⊢
      exact hnext.optional
    exact overlooks_recordOf ⟨_, .member rfl rfl (overlooks_atom rfl (readsJson_size hslots.1))
      (.member rfl rfl (overlooks_atom rfl (readsJson_direction _ _))
      (.member rfl rfl hbreak (.nil _))), rfl⟩ rfl rfl

/-! ### Templates -/

namespace Template

variable {t : Template}

theorem overlooksJson (h : t.Valid) (hbatch : t.batchSize < 2 ^ 64)
    (hfields : t.fields.length ≤ 2 ^ 64) {depth : Nat} (hkeys : t.keys.length ≤ depth + 4) :
    Overlooks namesVariant false (Template.reader (depth + 5)) t.json t := by
  have hcolumns : Overlooks namesVariant false (list (depth + 4) FieldSlot.reader)
      (.array (t.fields.map (·.json))) t.fields :=
    overlooks_list (List.forall₂_map_left_iff.2 (List.forall₂_same.2 fun f hf =>
      overlooks_fieldSlot (h.slot_lt_of_mem_fields hfields f hf) depth))
  have hkeyList : Overlooks namesVariant false (list (depth + 4) fun _ => size)
      (.array (t.keys.map .ofNat)) t.keys :=
    overlooks_list (List.forall₂_map_left_iff.2 (List.forall₂_same.2 fun k hk =>
      overlooks_atom rfl (readsJson_size (h.slot_lt hfields hk))))
  have hchain : t.comparator.rest.length < depth + 4 := by
    have := h.length_rest
    omega
  refine overlooks_record ⟨_,
    .member rfl rfl (overlooks_atom rfl (readsJson_natural (by decide) t.revision.toNat_lt))
    (.member rfl rfl (overlooks_atom rfl (readsJson_strategy _ _))
    (.member rfl rfl (overlooks_policy _ _)
    (.member rfl rfl (overlooks_atom rfl (readsJson_size hbatch))
    (.member rfl rfl hcolumns
    (.member rfl rfl hkeyList
    (.member rfl rfl (overlooks_atom rfl (readsJson_size (h.slot_lt hfields h.partitionSlot_mem)))
    (.member rfl rfl (overlooks_links (h.slot_lt_of_mem_links hfields) hchain)
    (.member rfl rfl (overlooks_placement _ _)
    (.member rfl rfl (overlooks_sortCall (h.slot_lt_of_radix hfields) _) (.nil _)))))))))), ?_⟩
    rfl rfl
  show Except.ok _ = Except.ok _
  simp

theorem Portable.overlooks_document (h : t.Portable) :
    Overlooks namesVariant true Source.reader t.document t := by
  have hkernel : Overlooks namesVariant false (Template.reader (121 + 5)) t.json t :=
    overlooksJson h.valid h.batchSize h.fields h.length_keys
  exact overlooks_record ⟨_, .member rfl rfl (overlooks_atom rfl readsJson_text)
    (.member rfl rfl hkernel (.nil _)), rfl⟩ rfl rfl

/-- A further member in one object of a source that can be read makes it unreadable if the object is
closed, and makes no difference otherwise.  The objects of a source have all their members, so the
further one is unknown to the object. -/
theorem further_members_decided (h : ofSource t.source = .ok t) {m : String × Json}
    {path : List Json.Step} {document : Json} (hext : Extended m path t.document document)
    (spacing : Spacing) (signature : String) :
    if closedAt namesVariant true path then
      ∃ e, ofSource (document.render spacing) = .error (.parse e) ∧
        Toolchain.standard.compile signature (document.render spacing) =
          .error (.compile signature (.source (.parse e)))
    else
      ofSource (document.render spacing) = .ok t ∧
        Toolchain.standard.compile signature (document.render spacing) =
          .ok (Artifact.encode t) := by
  have hportable := portable_of_ofSource h
  have hdocument := hportable.overlooks_document
  split
  · rename_i hclosed
    obtain ⟨e, he⟩ := hdocument.refuses hext hclosed
    have hrefuse : ofSource (document.render spacing) = .error (.parse e) := by
      rw [ofSource, show Source.reader.run (Text.bytes (document.render spacing)) = .error e from
        he.run spacing]
    exact ⟨e, hrefuse, Toolchain.compile_of_error hrefuse⟩
  · rename_i hopen
    have hread : ofSource (document.render spacing) = .ok t := by
      refine ofSource_eq_ok_iff.2 ⟨?_, hportable.valid⟩
      exact (hdocument.overlooks hext (Bool.not_eq_true _ ▸ hopen) spacing).run
    exact ⟨hread, Toolchain.compile_eq_ok_iff.2 ⟨t, hread, rfl⟩⟩

/-- A request to sort one column of decimals. -/
def amounts : Template :=
  .lower
    { columns := [⟨"amount", .decimal128 10 2, true⟩]
      firstKey := ⟨0, by decide⟩
      otherKeys := []
      nullOrder := .last
      direction := .descending }
    .indexed 64

/-- The document of the request, with further members in the policy and in the type of the
column. -/
def amountsWith (policy columnType : List (String × Json)) : Json :=
  .object [("generator", .string Source.generator), ("kernel", .object [
    ("revision", .ofNat 1),
    ("strategy", .string "Indexed"),
    ("policy", .object
      ([("null_order", .string "Last"), ("direction", .string "Descending")] ++ policy)),
    ("batch_size", .ofNat 64),
    ("fields", .array [.object [
      ("slot", .ofNat 0),
      ("name", .string "amount"),
      ("column_type", .object (("Decimal128", .object [
        ("precision", .ofNat 10), ("scale", .number 2)]) :: columnType)),
      ("storage", .string "PrimitiveColumn<Decimal128Type>"),
      ("builder", .string "PrimitiveBuilder<Decimal128Type>")]]),
    ("keys", .array [.ofNat 0]),
    ("partition_slot", .ofNat 0),
    ("comparator", .object [
      ("slot", .ofNat 0), ("direction", .string "Descending"), ("tie_break", .null)]),
    ("placement", .object [("valid", .string "Front"), ("null", .string "Tail")]),
    ("sort_call", .string "Comparison")])]

theorem extended_policy (m : String × Json) (h : m.1 ∉ ["null_order", "direction"]) :
    Extended m [.member "kernel", .member "policy"] amounts.document (amountsWith [m] []) :=
  @Extended.member _ _ _ _ _ [_] [] <|
    @Extended.member _ _ _ _ _ [_, _] [_, _, _, _, _, _, _] <|
      @Extended.here _ [_, _] [] (by simpa [eq_comm] using h)

theorem extended_columnType (m : String × Json) (h : m.1 ≠ "Decimal128") :
    Extended m [.member "kernel", .member "fields", .item 0, .member "column_type"]
      amounts.document (amountsWith [] [m]) :=
  @Extended.member _ _ _ _ _ [_] [] <|
    @Extended.member _ _ _ _ _ [_, _, _, _] [_, _, _, _, _] <|
      @Extended.item _ _ _ _ [] [] <|
        @Extended.member _ _ _ _ _ [_, _] [_, _] <|
          @Extended.here _ [_] [] fun _ hm => by
            obtain rfl := List.mem_singleton.1 hm
            exact h.symm

theorem ofSource_amounts : ofSource amounts.source = .ok amounts := by
  decide +kernel

/-- A member that no object of a document has. -/
def extra : String × Json := ("extra", .array [.null])

theorem further_members_of_amounts :
    ofSource amounts.source = .ok amounts ∧
      Extended extra [.member "kernel", .member "policy"] amounts.document
        (amountsWith [extra] []) ∧
      ofSource (amountsWith [extra] []).pretty = .ok amounts ∧
      Extended extra [.member "kernel", .member "fields", .item 0, .member "column_type"]
        amounts.document (amountsWith [] [extra]) ∧
      ∃ e, ofSource (amountsWith [] [extra]).pretty = .error e := by
  have hpolicy := extended_policy extra (by decide)
  have htype := extended_columnType extra (by decide)
  have hoverlooked := further_members_decided ofSource_amounts hpolicy (.lines 0) ""
  have hrefused := further_members_decided ofSource_amounts htype (.lines 0) ""
  rw [if_neg (by decide)] at hoverlooked
  rw [if_pos (by decide)] at hrefused
  obtain ⟨e, he, -⟩ := hrefused
  exact ⟨ofSource_amounts, hpolicy, hoverlooked.1, htype, _, he⟩

/-- Not every further member is refused. -/
theorem not_every_further_member_refused :
    ¬∀ (t : Template) (m : String × Json) (path : List Json.Step) (document : Json)
      (signature : String),
      ofSource t.source = .ok t → Extended m path t.document document →
        (∃ e, ofSource document.pretty = .error e) ∧
          ∃ e, Toolchain.standard.compile signature document.pretty = .error e := by
  intro hrefused
  have hloose : ofSource (amountsWith [extra] []).pretty = .ok amounts := by decide +kernel
  obtain ⟨⟨e, he⟩, -⟩ :=
    hrefused amounts extra _ _ "" ofSource_amounts (extended_policy extra (by decide))
  rw [hloose] at he
  cases he

end Template

end Collate
