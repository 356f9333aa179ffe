import Collate.Proofs.SortSpec
import Collate.Proofs.Template.Lowering
import Collate.Template.Source

/-!
# From names to positions

A request is accepted if and only if there are keys and fields, all fields can be sorted, and every
key names one field and has its type (`SortSpec.exists_resolve_iff`).  The positions that have been
found are the only ones of their names (`SortSpec.onlyAt_of_resolve`), and nothing after that looks
at the names again: the template of the request lists the fields and these positions, and obeys the
rules for the engine that is selected and for every other one that can sort the request
(`Template.valid_lower_iff`).  `SortSpec.resolve_and_lower` puts the stages together.
-/

namespace Collate

/-- The name occurs at this position and at no other one. -/
def OnlyAt (names : List String) (name : String) (i : Nat) : Prop :=
  ∀ j, names[j]? = some name ↔ j = i

namespace SortSpec

variable {keys fields : List Field} {o : NullOrder} {d : Direction} {spec : SortSpec}
  {columns : List OutputColumn}

/-! ### One key -/

theorem length_positions (columns : List OutputColumn) (name : String) :
    (positions columns name).length = (columns.map (·.name)).count name := by
  rw [← List.length_map columns.get, map_positions, ← List.countP_eq_length_filter, List.count,
    List.countP_map]
  rfl

theorem onlyAt_of_positions {name : String} {i : Fin columns.length}
    (h : positions columns name = [i]) : OnlyAt (columns.map (·.name)) name i := by
  intro j
  rw [List.getElem?_map, Option.map_eq_some_iff]
  constructor
  · rintro ⟨c, hc, hname⟩
    obtain ⟨hj, rfl⟩ := List.getElem?_eq_some_iff.1 hc
    have hmem : (⟨j, hj⟩ : Fin columns.length) ∈ positions columns name := mem_positions.2 hname
    rw [h, List.mem_singleton] at hmem
    exact congrArg Fin.val hmem
  · rintro rfl
    have hname : (columns.get i).name = name := mem_positions.1 (h ▸ List.mem_singleton_self i)
    exact ⟨columns.get i, List.getElem?_eq_getElem i.isLt, hname⟩

/-- A key is found if its name occurs once, and there with its type. -/
theorem exists_locate_iff {key : Field} : (∃ i, locate columns key = .ok i) ↔
    (columns.map (·.name)).count key.name = 1 ∧
      ∀ c ∈ columns, c.name = key.name → key.type = .column c.type := by
  simp only [locate_eq_ok_iff, ← length_positions]
  constructor
  · rintro ⟨i, hpositions, htype⟩
    refine ⟨hpositions ▸ rfl, fun c hc hname => ?_⟩
    obtain ⟨j, rfl⟩ := List.get_of_mem hc
    have hj : j ∈ positions columns key.name := mem_positions.2 hname
    rw [hpositions, List.mem_singleton] at hj
    rw [hj, htype]
  · rintro ⟨hlength, htype⟩
    obtain ⟨i, hi⟩ := List.length_eq_one_iff.1 hlength
    have hname : (columns.get i).name = key.name := mem_positions.1 (hi ▸ List.mem_singleton_self i)
    exact ⟨i, hi, htype _ (List.get_mem columns i) hname⟩

/-! ### All keys and fields -/

theorem mapM_outputColumn_eq_ok_iff :
    fields.mapM outputColumn = .ok columns ↔ fields = columns.map OutputColumn.field := by
  simp only [mapM_eq_ok_iff, outputColumn_eq_ok_iff]
  rw [← List.forall₂_eq_eq_eq, List.forall₂_map_right_iff]

/-- What is found for keys and fields: the columns of the fields, and the position of every key. -/
theorem resolve_eq_ok_iff : resolve keys fields o d = .ok spec ↔
    fields = spec.columns.map OutputColumn.field ∧
      keys.mapM (locate spec.columns) = .ok spec.keys ∧
      spec.nullOrder = o ∧ spec.direction = d := by
  rcases keys with _ | ⟨firstKey, otherKeys⟩
  · simp [resolve, SortSpec.keys, pure, Except.pure]
  rcases eq_or_ne fields [] with rfl | hfields
  · have hne : [] ≠ spec.columns.map OutputColumn.field := fun h =>
      spec.columns_ne_nil (List.map_eq_nil_iff.1 h.symm)
    simp [resolve, hne]
  rw [resolve_cons hfields]
  simp only [mapM_outputColumn_eq_ok_iff]
  constructor
  · rintro ⟨columns, first, others, hcolumns, hfirst, hothers, rfl⟩
    refine ⟨hcolumns, mapM_eq_ok_iff.2 (.cons hfirst (mapM_eq_ok_iff.1 hothers)), rfl, rfl⟩
  · rintro ⟨hcolumns, hkeys, rfl, rfl⟩
    cases mapM_eq_ok_iff.1 hkeys with
    | cons hfirst hothers => exact ⟨_, _, _, hcolumns, hfirst, mapM_eq_ok_iff.2 hothers, rfl⟩

theorem map_name_field : (columns.map OutputColumn.field).map (·.name) = columns.map (·.name) := by
  rw [List.map_map]
  rfl

theorem exists_columns_iff :
    (∃ columns : List OutputColumn, fields = columns.map OutputColumn.field) ↔
      ∀ f ∈ fields, ∃ type, f.type = .column type := by
  simp only [← mapM_outputColumn_eq_ok_iff, exists_mapM_eq_ok_iff, outputColumn_eq_ok_iff]
  refine forall₂_congr fun f _ => ⟨?_, ?_⟩
  · rintro ⟨c, rfl⟩
    exact ⟨c.type, rfl⟩
  · rintro ⟨type, htype⟩
    exact ⟨⟨f.name, type, f.nullable⟩, by rw [OutputColumn.field, ← htype]⟩

/-- The requests that are accepted. -/
theorem exists_resolve_iff : (∃ spec, resolve keys fields o d = .ok spec) ↔
    keys ≠ [] ∧ fields ≠ [] ∧ (∀ f ∈ fields, ∃ type, f.type = .column type) ∧
      ∀ key ∈ keys, (fields.map (·.name)).count key.name = 1 ∧
        ∀ f ∈ fields, f.name = key.name → f.type = key.type := by
  have found : ∀ {columns : List OutputColumn} {key : Field},
      (∃ i, locate columns key = .ok i) ↔
        ((columns.map OutputColumn.field).map (·.name)).count key.name = 1 ∧
          ∀ f ∈ columns.map OutputColumn.field, f.name = key.name → f.type = key.type := by
    intro columns key
    rw [exists_locate_iff, map_name_field, List.forall_mem_map]
    exact and_congr_right fun _ => forall₂_congr fun c _ => imp_congr_right fun _ => eq_comm
  simp only [resolve_eq_ok_iff]
  constructor
  · rintro ⟨spec, rfl, hkeys, -⟩
    refine ⟨?_, ?_, exists_columns_iff.1 ⟨_, rfl⟩, ?_⟩
    · rintro rfl
      cases hkeys
    · exact fun h => spec.columns_ne_nil (List.map_eq_nil_iff.1 h)
    · intro key hkey
      exact found.1 (exists_mapM_eq_ok_iff.1 ⟨_, hkeys⟩ key hkey)
  · rintro ⟨hkeys, -, htypes, hnames⟩
    obtain ⟨columns, rfl⟩ := exists_columns_iff.2 htypes
    obtain ⟨slots, hslots⟩ := exists_mapM_eq_ok_iff.2 fun key hkey => found.2 (hnames key hkey)
    cases slots with
    | nil =>
      cases mapM_eq_ok_iff.1 hslots
      exact absurd rfl hkeys
    | cons first others => exact ⟨⟨columns, first, others, o, d⟩, rfl, hslots, rfl, rfl⟩

/-- The positions that are found for the keys are the only ones of their names. -/
theorem onlyAt_of_resolve (h : resolve keys fields o d = .ok spec) :
    List.Forall₂ (fun key slot => OnlyAt (fields.map (·.name)) key.name slot)
      keys spec.keySlots := by
  obtain ⟨rfl, hkeys, -⟩ := resolve_eq_ok_iff.1 h
  rw [keySlots, List.forall₂_map_right_iff, map_name_field]
  exact (mapM_eq_ok_iff.1 hkeys).imp fun key i hi => onlyAt_of_positions (locate_eq_ok_iff.1 hi).1

end SortSpec

/-! ### The template -/

namespace Template

variable {spec : SortSpec} {strategy : Strategy} {batchSize : Nat}

/-- The rules allow the template of a request if batches have rows and the engine can sort it. -/
theorem valid_lower_iff : (lower spec strategy batchSize).Valid ↔
    batchSize ≠ 0 ∧ (strategy = .inPlace →
      spec.isSingleColumn ∧ (spec.column spec.firstKey).type.supportsInPlace) := by
  constructor
  · intro h
    refine ⟨h.batchSize, fun hs => ?_⟩
    obtain ⟨f, hfields, hkeys, hnumbers⟩ := h.strategy hs
    have hcolumns : spec.columns.length = 1 := by
      have : (lower spec strategy batchSize).fields.length = 1 := congrArg List.length hfields
      rwa [lower, List.length_mapIdx] at this
    have hothers : spec.otherKeys = [] := by
      have : (spec.firstKey :: spec.otherKeys).map Fin.val = [0] := hkeys
      exact List.map_eq_nil_iff.1 (List.cons.inj this).2
    refine ⟨?_, type_of_lower hfields hkeys ▸ hnumbers⟩
    simp [SortSpec.isSingleColumn, hothers, hcolumns]
  · rintro ⟨hn, hs⟩
    exact valid_lower hn hs

/-- The template lists the fields of the request. -/
theorem declared_fields_lower (spec : SortSpec) (strategy : Strategy) (batchSize : Nat) :
    (lower spec strategy batchSize).fields.map (fun f => (f.name, DataType.column f.type)) =
      (spec.columns.map OutputColumn.field).map fun f => (f.name, f.type) := by
  apply List.ext_getElem?
  intro slot
  rw [List.getElem?_map, getElem?_fields_lower, Option.map_map, List.getElem?_map,
    List.getElem?_map, Option.map_map]
  rfl

end Template

theorem Source.ofSpec_eq_ok_iff {spec : SortSpec} {strategy : Strategy} {batchSize : Nat}
    {source : Source} : ofSpec spec strategy batchSize = .ok source ↔
    source = ⟨.lower spec strategy batchSize, (Template.lower spec strategy batchSize).source⟩ ∧
      (Template.lower spec strategy batchSize).Valid := by
  rw [ofSpec]
  cases ht : Template.ofSpec spec strategy batchSize with
  | error e =>
    simp only [reduceCtorEq, false_iff, not_and]
    intro _ hv
    rw [Template.ofSpec_eq_ok_iff.2 ⟨rfl, hv⟩] at ht
    cases ht
  | ok t =>
    obtain ⟨rfl, hv⟩ := Template.ofSpec_eq_ok_iff.1 ht
    simp only [Except.ok.injEq, hv, and_true, eq_comm]

namespace SortSpec

variable {keys fields : List Field} {o : NullOrder} {d : Direction} {spec : SortSpec}

/-- The request of one key and one field, of a type that can be sorted in place. -/
theorem single_iff (h : resolve keys fields o d = .ok spec) :
    (spec.isSingleColumn ∧ (spec.column spec.firstKey).type.supportsInPlace) ↔
      keys.length = 1 ∧ ∃ f type, fields = [f] ∧ f.type = .column type ∧ type.supportsInPlace := by
  obtain ⟨rfl, hkeys, -⟩ := resolve_eq_ok_iff.1 h
  have hlength : keys.length = spec.otherKeys.length + 1 := (mapM_eq_ok_iff.1 hkeys).length_eq
  have hfirst : ∀ c, spec.columns = [c] → spec.column spec.firstKey = c := by
    intro c hc
    exact List.mem_singleton.1 (hc ▸ List.get_mem spec.columns spec.firstKey)
  simp only [isSingleColumn, Bool.and_eq_true, List.isEmpty_iff, beq_iff_eq]
  constructor
  · rintro ⟨⟨hothers, hcolumns⟩, hnumbers⟩
    obtain ⟨c, hc⟩ := List.length_eq_one_iff.1 hcolumns
    rw [hfirst c hc] at hnumbers
    refine ⟨?_, c.field, c.type, ?_, rfl, hnumbers⟩
    · rw [hlength, hothers, List.length_nil]
    · rw [hc, List.map_singleton]
  · rintro ⟨hone, f, type, hf, htype, hnumbers⟩
    obtain ⟨c, hc, rfl⟩ := List.map_eq_singleton_iff.1 hf
    obtain rfl : c.type = type := DataType.column.inj htype
    refine ⟨⟨?_, ?_⟩, ?_⟩
    · rw [← List.length_eq_zero_iff]
      omega
    · rw [hc, List.length_singleton]
    · rwa [hfirst c hc]

/-- A request is accepted if and only if there are keys and fields, the fields can be sorted, and
every key names one field and has its type.  Then the engine that is selected for it has a source,
whose template obeys the rules, lists the fields, and has the positions of the keys; and another
engine has one if it is the index engine, or the request is for one column of numbers by itself. -/
theorem resolve_and_lower (keys fields : List Field) (o : NullOrder) (d : Direction) :
    ((∃ spec, resolve keys fields o d = .ok spec) ↔
      keys ≠ [] ∧ fields ≠ [] ∧ (∀ f ∈ fields, ∃ type, f.type = .column type) ∧
        ∀ key ∈ keys, (fields.map (·.name)).count key.name = 1 ∧
          ∀ f ∈ fields, f.name = key.name → f.type = key.type) ∧
    ∀ spec, resolve keys fields o d = .ok spec → ∀ batchSize, 1 ≤ batchSize →
      (∃ source, Source.ofSpec spec (.select spec) batchSize = .ok source ∧
        source.template.validate = .ok () ∧
        source.template.fields.map (fun f => (f.name, DataType.column f.type)) =
          fields.map (fun f => (f.name, f.type)) ∧
        List.Forall₂ (fun key slot => OnlyAt (fields.map (·.name)) key.name slot)
          keys source.template.keys) ∧
      ∀ strategy, (∃ source, Source.ofSpec spec strategy batchSize = .ok source) ↔
        strategy = .indexed ∨ strategy = .inPlace ∧ keys.length = 1 ∧
          ∃ f type, fields = [f] ∧ f.type = .column type ∧ type.supportsInPlace := by
  refine ⟨exists_resolve_iff, fun spec h batchSize hbatch => ?_⟩
  have hn : batchSize ≠ 0 := Nat.ne_of_gt hbatch
  refine ⟨?_, fun strategy => ?_⟩
  · have hvalid : (Template.lower spec (.select spec) batchSize).Valid :=
      (Template.ofSpec_eq_ok_iff.1 (Template.ofSpec_select hn)).2
    refine ⟨_, Source.ofSpec_eq_ok_iff.2 ⟨rfl, hvalid⟩, Template.validate_eq_ok_iff.2 hvalid, ?_,
      onlyAt_of_resolve h⟩
    obtain ⟨rfl, -⟩ := resolve_eq_ok_iff.1 h
    exact Template.declared_fields_lower ..
  · simp only [Source.ofSpec_eq_ok_iff, exists_and_right, exists_eq, true_and,
      Template.valid_lower_iff, ← single_iff h]
    cases strategy with
    | indexed => simp [hn]
    | inPlace => simp [hn]

/-- A schema in which two fields have the same name. -/
def notedFields : List Field :=
  [⟨"note", .column .utf8, true⟩, ⟨"id", .column .int64, false⟩, ⟨"note", .column .binary, true⟩]

/-- The key of a request that gives it twice. -/
def idKey : Field := ⟨"id", .column .int64, true⟩

theorem resolve_notedFields : ∃ spec source,
    resolve [idKey, idKey] notedFields .first .ascending = .ok spec ∧
      Source.ofSpec spec (.select spec) 8 = .ok source ∧ source.template.keys = [1, 1] ∧
      ¬ ∃ source, Source.ofSpec spec .inPlace 8 = .ok source := by
  obtain ⟨haccepted, hlowered⟩ :=
    resolve_and_lower [idKey, idKey] notedFields .first .ascending
  obtain ⟨spec, hspec⟩ := haccepted.2 (by simp [idKey, notedFields])
  obtain ⟨⟨source, hsource, -, -, hkeys⟩, hengine⟩ := hlowered spec hspec 8 (by decide)
  refine ⟨spec, source, hspec, hsource, ?_, fun h => ?_⟩
  · have hslot : ∀ slot, OnlyAt (notedFields.map (·.name)) idKey.name slot → slot = 1 :=
      fun slot h => ((h 1).1 rfl).symm
    obtain ⟨slot, slots, h, hslots, hkeys⟩ := List.forall₂_cons_left_iff.1 hkeys
    obtain ⟨slot', _, h', hnil, rfl⟩ := List.forall₂_cons_left_iff.1 hslots
    rw [hkeys, hslot slot h, hslot slot' h', List.forall₂_nil_left_iff.1 hnil]
  · rcases (hengine .inPlace).1 h with h | ⟨-, hlength, -⟩
    · cases h
    · cases hlength

end SortSpec

end Collate
