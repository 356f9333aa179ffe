import Collate.Proofs.Signature.CanonicalText
import Collate.Proofs.SortSpec
import Collate.Proofs.Template.Lowering

/-!
# What canonical texts tell apart

Accepted requests with equal templates have equal canonical texts.  The converse needs that no name
is ambiguous, and every ambiguous name breaks it (`Signature.canonicalText_eq_iff`): the text of
some request that has a column of this name is also the text of another request, with another
template.
-/

namespace Collate

/-! ### What templates depend on -/

namespace SortSpec

open Signature (shown)

variable {spec spec' : SortSpec}

theorem getElem?_shown (i : Fin spec.columns.length) :
    (spec.columns.map shown)[i.val]? = some (shown (spec.column i)) := by
  rw [List.getElem?_map, List.getElem?_eq_getElem i.isLt]
  rfl

theorem map_shown_keys (spec : SortSpec) : ((spec.keys.map spec.column).map shown).map some =
    spec.keySlots.map fun slot => (spec.columns.map shown)[slot]? := by
  simp only [keySlots, List.map_map]
  exact List.map_congr_left fun i _ => (getElem?_shown i).symm

/-- Over the same columns, the keys of accepted requests are told apart by their names. -/
theorem shown_keys_eq_iff (hspec : spec.Accepted)
    (hcolumns : spec.columns.map shown = spec'.columns.map shown) :
    (spec.keys.map spec.column).map shown = (spec'.keys.map spec'.column).map shown ↔
      spec.keySlots = spec'.keySlots := by
  constructor
  · intro h
    have hlen := congrArg List.length h
    simp only [List.length_map] at hlen
    refine List.ext_getElem (by simpa [keySlots] using hlen) fun n h₁ h₂ => ?_
    simp only [keySlots, List.length_map] at h₁ h₂
    have hn : shown (spec.column spec.keys[n]) = shown (spec'.column spec'.keys[n]) := by
      have := List.getElem_of_eq h (i := n) (by simpa using h₁)
      simpa using this
    have hlt : spec'.keys[n].val < spec.columns.length := by
      have hlength := congrArg List.length hcolumns
      rw [List.length_map, List.length_map] at hlength
      exact hlength.symm ▸ spec'.keys[n].isLt
    have hsame : shown (spec.column ⟨spec'.keys[n], hlt⟩) = shown (spec'.column spec'.keys[n]) := by
      rw [← Option.some_inj, ← getElem?_shown, ← getElem?_shown, hcolumns]
    have hmem : (⟨spec'.keys[n], hlt⟩ : Fin spec.columns.length) ∈
        positions spec.columns (spec.column spec.keys[n]).name :=
      mem_positions.2 (congrArg Prod.fst (hsame.trans hn.symm))
    rw [accepted_iff.1 hspec _ (List.getElem_mem _), List.mem_singleton] at hmem
    simpa [keySlots] using (congrArg Fin.val hmem).symm
  · intro h
    refine List.map_injective_iff.2 (Option.some_injective _) ?_
    rw [map_shown_keys, map_shown_keys, h, hcolumns]

end SortSpec

namespace Template

open Signature (shown)

variable {spec spec' : SortSpec} {batchSize batchSize' : Nat}

theorem map_fields_lower (spec : SortSpec) (strategy : Strategy) (batchSize : Nat) :
    (lower spec strategy batchSize).fields.map (fun f => (f.name, f.type)) =
      spec.columns.map shown := by
  refine List.ext_getElem? fun slot => ?_
  rw [List.getElem?_map, getElem?_fields_lower, List.getElem?_map, Option.map_map]
  rfl

theorem fields_lower (spec : SortSpec) (strategy : Strategy) (batchSize : Nat) :
    (lower spec strategy batchSize).fields =
      (spec.columns.map shown).mapIdx fun slot c => .ofColumn slot c.1 c.2 := by
  refine List.ext_getElem? fun slot => ?_
  rw [getElem?_fields_lower, List.getElem?_mapIdx, List.getElem?_map, Option.map_map]
  rfl

/-- The templates of two requests agree exactly if policy, batch size, keys and columns do. -/
theorem lower_select_eq_iff :
    lower spec (.select spec) batchSize = lower spec' (.select spec') batchSize' ↔
      (spec.nullOrder = spec'.nullOrder ∧ spec.direction = spec'.direction) ∧
        batchSize = batchSize' ∧ spec.keySlots = spec'.keySlots ∧
        spec.columns.map shown = spec'.columns.map shown := by
  constructor
  · intro h
    refine ⟨Policy.mk.inj (congrArg Template.policy h), congrArg Template.batchSize h,
      congrArg Template.keys h, ?_⟩
    rw [← map_fields_lower spec (.select spec) batchSize, h, map_fields_lower]
  · rintro ⟨⟨hnulls, hdirection⟩, rfl, hkeys, hcolumns⟩
    obtain ⟨hfirst, hothers⟩ := List.cons.inj hkeys
    have htype : (spec.column spec.firstKey).type = (spec'.column spec'.firstKey).type := by
      have := SortSpec.getElem?_shown spec.firstKey
      rw [hfirst, hcolumns, SortSpec.getElem?_shown, Option.some_inj] at this
      exact (congrArg Prod.snd this).symm
    have hempty : spec.otherKeys.isEmpty = spec'.otherKeys.isEmpty := by
      rw [← List.isEmpty_map (f := Fin.val), hothers, List.isEmpty_map]
    have hlength : spec.columns.length = spec'.columns.length := by
      rw [← List.length_map (f := shown), hcolumns, List.length_map]
    have hstrategy : Strategy.select spec = Strategy.select spec' := by
      rw [Strategy.select, Strategy.select, SortSpec.isSingleColumn, SortSpec.isSingleColumn, htype,
        hempty, hlength]
    have hcall : SortCall.ofSpec spec = SortCall.ofSpec spec' := by
      rw [SortCall.ofSpec, SortCall.ofSpec, hempty, hdirection, htype, hfirst]
    have hfields : (lower spec (.select spec) batchSize).fields =
        (lower spec' (.select spec') batchSize).fields := by
      rw [fields_lower, fields_lower, hcolumns]
    rw [Template.mk.injEq]
    refine ⟨rfl, hstrategy, ?_, rfl, hfields, hkeys, hfirst, ?_, ?_, hcall⟩
    · exact congrArg₂ Policy.mk hnulls hdirection
    · show CompareChain.ofKeys _ _ _ = CompareChain.ofKeys _ _ _
      rw [hfirst, hothers, hdirection]
    · exact congrArg Placement.ofNullOrder hnulls

end Template

namespace Signature

variable {spec spec' : SortSpec} {batchSize batchSize' : Nat}

/-! ### Equal templates -/

theorem canonicalText_eq_of_shown (hnulls : spec.nullOrder = spec'.nullOrder)
    (hdirection : spec.direction = spec'.direction)
    (hkeys : (spec.keys.map spec.column).map shown = (spec'.keys.map spec'.column).map shown)
    (hcolumns : spec.columns.map shown = spec'.columns.map shown) :
    canonicalText spec batchSize = canonicalText spec' batchSize := by
  have hkeyTexts : ∀ spec, keyTexts spec = (((spec.keys.map spec.column).map shown).map
      fun c => c.1 ++ ": " ++ c.2.canonical).mapIdx fun i text => s!"[sort_key_{i}]" ++ text := by
    intro spec
    refine List.ext_getElem (by simp [keyTexts]) fun i h₁ h₂ => ?_
    simp [keyTexts, describe, shown]
  have hcolumnTexts : ∀ spec : SortSpec, spec.columns.map describe =
      (spec.columns.map shown).map fun c => c.1 ++ ": " ++ c.2.canonical := by
    intro spec
    rw [List.map_map]
    rfl
  rw [canonicalText, canonicalText, hkeyTexts, hkeyTexts, hcolumnTexts, hcolumnTexts, hkeys, hnulls,
    hdirection, hcolumns]

/-! ### Colliding texts -/

/-- The text of a request, which has a column of the name, is the text of one with another
template. -/
def Collides (name : String) : Prop :=
  ∃ spec spec' : SortSpec, spec.Accepted ∧ spec'.Accepted ∧ (∃ c ∈ spec.columns, c.name = name) ∧
    ∀ batchSize, 0 < batchSize → canonicalText spec batchSize = canonicalText spec' batchSize ∧
      Template.ofSpec spec (.select spec) batchSize ≠
        Template.ofSpec spec' (.select spec') batchSize

variable {name before after : String} {type : ColumnType}

theorem keysText_append (i : Nat) (cs ds : List OutputColumn) :
    keysText i (cs ++ ds) = keysText i cs ++ keysText (i + cs.length) ds := by
  induction cs generalizing i with
  | nil => rfl
  | cons c cs ih =>
    rw [List.cons_append, keysText, keysText, ih, List.length_cons, Nat.add_right_comm,
      Nat.add_assoc]
    simp only [List.append_assoc]

/-- Two lists of columns with keys that are written alike. -/
theorem collides_of_text_eq (columns columns' keys keys' : List OutputColumn) (hne : keys ≠ [])
    (hne' : keys' ≠ []) (hname : ∃ c ∈ columns, c.name = name)
    (hkeys : ∀ key ∈ keys, columns.filter (fun c => c.name = key.name) = [key])
    (hkeys' : ∀ key ∈ keys', columns'.filter (fun c => c.name = key.name) = [key])
    (htext : keysText 0 keys ++ ("[schema]".toList ++ columnsText columns) =
      keysText 0 keys' ++ ("[schema]".toList ++ columnsText columns'))
    (hdiffer : keys.map shown ≠ keys'.map shown ∨ columns.map shown ≠ columns'.map shown) :
    Collides name := by
  obtain ⟨spec, hspec, hnulls, hdirection, rfl, rfl⟩ := SortSpec.exists_accepted hne hkeys
  obtain ⟨spec', hspec', hnulls', hdirection', rfl, rfl⟩ := SortSpec.exists_accepted hne' hkeys'
  refine ⟨spec, spec', hspec, hspec', hname, fun batchSize hpos => ⟨?_, ?_⟩⟩
  · refine String.toList_injective ?_
    rw [toList_canonicalText, toList_canonicalText, hnulls, hnulls', hdirection, hdirection', htext]
  · rw [Template.ofSpec_select hpos.ne', Template.ofSpec_select hpos.ne']
    intro h
    obtain ⟨-, -, hslots, hcolumns⟩ := Template.lower_select_eq_iff.1 (Except.ok.inj h)
    rcases hdiffer with hdiffer | hdiffer
    · exact hdiffer ((SortSpec.shown_keys_eq_iff hspec hcolumns).2 hslots)
    · exact hdiffer hcolumns

/-- A name that is longer than another one differs from it. -/
theorem ne_of_toList_length_lt {a b : String} (h : a.toList.length < b.toList.length) : a ≠ b := by
  rintro rfl
  exact Nat.lt_irrefl _ h

/-- A name with `", "` in it stands for two columns. -/
theorem collides_column (before after : String) (type : ColumnType) :
    Collides (before ++ ": " ++ type.canonical ++ ", " ++ after) := by
  have hkey := ne_of_toList_length_lt (a := before)
    (b := before ++ ": " ++ type.canonical ++ ", " ++ after ++ "k") (by simp)
  have hkey' := ne_of_toList_length_lt (a := after)
    (b := before ++ ": " ++ type.canonical ++ ", " ++ after ++ "k") (by simp; omega)
  have hkey'' := ne_of_toList_length_lt (a := before ++ ": " ++ type.canonical ++ ", " ++ after)
    (b := before ++ ": " ++ type.canonical ++ ", " ++ after ++ "k") (by simp)
  generalize before ++ ": " ++ type.canonical ++ ", " ++ after ++ "k" = key at hkey hkey' hkey''
  refine collides_of_text_eq
    [⟨key, .int32, false⟩, ⟨before ++ ": " ++ type.canonical ++ ", " ++ after, .int32, false⟩]
    [⟨key, .int32, false⟩, ⟨before, type, false⟩, ⟨after, .int32, false⟩]
    [⟨key, .int32, false⟩] [⟨key, .int32, false⟩] (by simp) (by simp) (by simp) ?_ ?_ ?_ (by simp)
  · simp [hkey'']
  · simp [hkey, hkey']
  · simp [columnsText, toList_describe]

/-- A name with `"[schema]"` in it stands for the end of the keys and the first column. -/
theorem collides_schema (before after : String) (type : ColumnType) :
    Collides (before ++ ": " ++ type.canonical ++ "[schema]" ++ after) := by
  obtain ⟨name, hname⟩ : ∃ name, name = before ++ ": " ++ type.canonical ++ "[schema]" ++ after :=
    ⟨_, rfl⟩
  have hlength : before.toList.length < name.toList.length := by
    simp [hname]
  have hbefore : before ≠ name := ne_of_toList_length_lt hlength
  have hlonger : before ≠ after ++ ": " ++ ColumnType.int32.canonical ++ "[schema]" ++ name := by
    refine ne_of_toList_length_lt (Nat.lt_of_lt_of_le hlength ?_)
    simp only [String.toList_append, List.length_append]
    exact Nat.le_add_left _ _
  rw [← hname]
  refine collides_of_text_eq [⟨name, .int32, false⟩, ⟨before, type, false⟩]
    [⟨after ++ ": " ++ ColumnType.int32.canonical ++ "[schema]" ++ name, .int32, false⟩,
      ⟨before, type, false⟩]
    [⟨name, .int32, false⟩] [⟨before, type, false⟩] (by simp) (by simp) (by simp) ?_ ?_ ?_ ?_
  · simp [hbefore]
  · simp [hlonger.symm]
  · simp [keysText, columnsText, toList_describe, hname]
  · simp [shown, hbefore.symm]

theorem filter_map_name {names : List String} (hnodup : names.Nodup) (type : ColumnType)
    {key : String} (hkey : key ∈ names) :
    (names.map fun name => (⟨name, type, false⟩ : OutputColumn)).filter (fun c => c.name = key) =
      [⟨key, type, false⟩] := by
  rw [List.filter_map]
  show (names.filter fun name => name = key).map _ = _
  rw [List.filter_eq, List.count_eq_one_of_mem hnodup hkey]
  rfl

/-- A name with the number of a key in it stands for two keys. -/
theorem collides_key (before after : String) (type : ColumnType) (i : Nat) :
    Collides (before ++ ": " ++ type.canonical ++ s!"[sort_key_{i + 1}]" ++ after) := by
  obtain ⟨name, hname⟩ :
      ∃ name, name = before ++ ": " ++ type.canonical ++ s!"[sort_key_{i + 1}]" ++ after := ⟨_, rfl⟩
  rw [← hname]
  -- All columns have one type, so that it does not matter which of the names are equal.
  have hfilter : ∀ keys ⊆ [name, before, after], ∀ key ∈ keys.map fun name => ⟨name, type, false⟩,
      ([name, before, after].dedup.map fun name => (⟨name, type, false⟩ : OutputColumn)).filter
        (fun c => c.name = key.name) = [key] := by
    intro keys hsub key hkey
    obtain ⟨key, hmem, rfl⟩ := List.mem_map.1 hkey
    exact filter_map_name (List.nodup_dedup _) type (List.mem_dedup.2 (hsub hmem))
  refine collides_of_text_eq _ _ _ _ ?_ ?_ ?_
    (hfilter (List.replicate i before ++ [name]) ?_)
    (hfilter (List.replicate i before ++ [before, after]) ?_) ?_ ?_
  · simp
  · simp
  · exact ⟨_, List.mem_map_of_mem (List.mem_dedup.2 List.mem_cons_self), rfl⟩
  · intro key
    simp
    rintro (⟨-, rfl⟩ | rfl) <;> simp
  · intro key
    simp
    rintro (⟨-, rfl⟩ | rfl | rfl) <;> simp
  · rw [List.map_append, List.map_append, keysText_append, keysText_append]
    simp [keysText, toList_describe, hname]
  · exact Or.inl fun h => by simpa using congrArg List.length h

theorem collides_of_ambiguous (h : Ambiguous name) : Collides name := by
  obtain ⟨before, type, separator, after, hseparator, rfl⟩ := h
  cases hseparator with
  | column => exact collides_column before after type
  | schema => exact collides_schema before after type
  | key i => exact collides_key before after type i

/-! ### Faithful texts -/

theorem not_ambiguous_of_colon_notMem (h : ':' ∉ name.toList) : ¬Ambiguous name := by
  rintro ⟨before, type, separator, after, -, rfl⟩
  simp at h

/-- The canonical texts of two requests, one of them accepted, are equal if and only if the
templates are, unless a name is ambiguous, and every ambiguous name is part of a text that two
accepted requests with different templates have in common. -/
theorem canonicalText_eq_iff {spec spec' : SortSpec} {batchSize batchSize' : Nat}
    (hspec : spec.Accepted) (hpos : 0 < batchSize) (hpos' : 0 < batchSize') :
    (Template.ofSpec spec (.select spec) batchSize =
        Template.ofSpec spec' (.select spec') batchSize' →
      canonicalText spec batchSize = canonicalText spec' batchSize') ∧
    ((∀ c ∈ spec.columns ++ spec'.columns, ¬Ambiguous c.name) →
      canonicalText spec batchSize = canonicalText spec' batchSize' →
      Template.ofSpec spec (.select spec) batchSize =
        Template.ofSpec spec' (.select spec') batchSize') ∧
    ∀ name, Ambiguous name → Collides name := by
  rw [Template.ofSpec_select hpos.ne', Template.ofSpec_select hpos'.ne', Except.ok.injEq,
    Template.lower_select_eq_iff]
  refine ⟨?_, ?_, fun name => collides_of_ambiguous⟩
  · rintro ⟨⟨hnulls, hdirection⟩, rfl, hslots, hcolumns⟩
    exact canonicalText_eq_of_shown hnulls hdirection
      ((SortSpec.shown_keys_eq_iff hspec hcolumns).2 hslots) hcolumns
  · intro hnames h
    rw [List.forall_mem_append] at hnames
    obtain ⟨hpolicy, hsize, hkeys, hcolumns⟩ := eq_of_canonicalText_eq hnames.1 hnames.2 h
    exact ⟨hpolicy, hsize, (SortSpec.shown_keys_eq_iff hspec hcolumns).1 hkeys, hcolumns⟩

/-- A request with one key and, behind it, columns with the given names and types. -/
def keyed (others : List (String × ColumnType)) : SortSpec where
  columns := ⟨"k", .int32, true⟩ :: others.map fun c => ⟨c.1, c.2, true⟩
  firstKey := ⟨0, Nat.zero_lt_succ _⟩
  otherKeys := []
  nullOrder := .first
  direction := .ascending

theorem ofSpec_keyed_ne {others others' : List (String × ColumnType)} {batchSize : Nat}
    (hpos : 0 < batchSize) (h : others.length ≠ others'.length) :
    Template.ofSpec (keyed others) (.select (keyed others)) batchSize ≠
      Template.ofSpec (keyed others') (.select (keyed others')) batchSize := by
  rw [Template.ofSpec_select hpos.ne', Template.ofSpec_select hpos.ne']
  intro heq
  have hlength := congrArg List.length (Template.lower_select_eq_iff.1 (Except.ok.inj heq)).2.2.2
  simp only [keyed, List.length_map, List.length_cons] at hlength
  omega

theorem canonicalText_eq_iff_keyed :
    canonicalText (keyed [("a", .int32)]) 1 ≠
        canonicalText (keyed [("a", .int32), ("b", .utf8)]) 1 ∧
      Ambiguous "a: int32, b" ∧ Collides "a: int32, b" := by
  have haccepted : (keyed [("a", .int32)]).Accepted :=
    ⟨[⟨"k", .column .int32, true⟩],
      [⟨"k", .column .int32, true⟩, ⟨"a", .column .int32, true⟩], rfl⟩
  have hambiguous : Ambiguous "a: int32, b" := ⟨"a", .int32, ", ", "b", .column, by decide +kernel⟩
  obtain ⟨-, hfaithful, hcollides⟩ :=
    @canonicalText_eq_iff (keyed [("a", .int32)]) (keyed [("a", .int32), ("b", .utf8)]) 1 1
      haccepted Nat.one_pos Nat.one_pos
  refine ⟨fun h => ofSpec_keyed_ne Nat.one_pos (by decide) (hfaithful ?_ h), hambiguous,
    hcollides _ hambiguous⟩
  intro c hc
  refine not_ambiguous_of_colon_notMem ?_
  revert c
  decide

/-- A name that reads like the end of one column and the beginning of another. -/
theorem canonicalText_collision :
    SortSpec.ofFlags [⟨"k", .column .int32, true⟩]
        [⟨"k", .column .int32, true⟩, ⟨"a: int32, b", .column .utf8, true⟩] true true =
      .ok (keyed [("a: int32, b", .utf8)]) ∧
    SortSpec.ofFlags [⟨"k", .column .int32, true⟩]
        [⟨"k", .column .int32, true⟩, ⟨"a", .column .int32, true⟩, ⟨"b", .column .utf8, true⟩]
        true true =
      .ok (keyed [("a", .int32), ("b", .utf8)]) ∧
    canonicalText (keyed [("a: int32, b", .utf8)]) 600 =
      canonicalText (keyed [("a", .int32), ("b", .utf8)]) 600 ∧
    Template.ofSpec (keyed [("a: int32, b", .utf8)])
        (.select (keyed [("a: int32, b", .utf8)])) 600 ≠
      Template.ofSpec (keyed [("a", .int32), ("b", .utf8)])
        (.select (keyed [("a", .int32), ("b", .utf8)])) 600 :=
  ⟨rfl, rfl, by decide +kernel, ofSpec_keyed_ne (by decide) (by decide)⟩

end Signature

end Collate
