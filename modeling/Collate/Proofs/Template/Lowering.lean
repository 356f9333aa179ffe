import Collate.Proofs.Template.Valid
import Collate.Template.Lowering

/-!
# Lowered templates

The template of a request obeys the rules as soon as its batches have rows and the engine can sort
it (`Template.valid_lower`): the index engine sorts every request, and the in-place engine those
with one column of numbers.  In particular the engine that is selected for a request can
(`Template.ofSpec_select`).
-/

namespace Collate

namespace Template

variable {spec : SortSpec} {strategy : Strategy} {batchSize : Nat} {t : Template}

theorem getElem?_fields_lower (slot : Nat) : (lower spec strategy batchSize).fields[slot]? =
    spec.columns[slot]?.map fun c => .ofColumn slot c.name c.type :=
  List.getElem?_mapIdx

theorem getElem?_fields_lower_key (strategy : Strategy) (batchSize : Nat)
    (i : Fin spec.columns.length) :
    (lower spec strategy batchSize).fields[i.val]? =
      some (.ofColumn i (spec.column i).name (spec.column i).type) := by
  rw [getElem?_fields_lower, List.getElem?_eq_getElem i.isLt]
  rfl

theorem slots_ofKeys (firstKey : Nat) (otherKeys : List Nat) (direction : Direction) :
    (CompareChain.ofKeys firstKey otherKeys direction).slots = firstKey :: otherKeys := by
  simp [CompareChain.ofKeys, CompareChain.slots, CompareChain.links, Function.comp_def]

theorem sortCall_ofSpec_eq_radix {slot : Nat} (h : SortCall.ofSpec spec = .radix slot) :
    slot = spec.firstKey ∧ spec.otherKeys = [] ∧ spec.direction = .ascending ∧
      (spec.column spec.firstKey).type.isFixedWidth := by
  unfold SortCall.ofSpec at h
  split_ifs at h with hradix
  simp only [Bool.and_eq_true, List.isEmpty_iff, decide_eq_true_eq] at hradix
  exact ⟨(SortCall.radix.inj h).symm, hradix.1.1, hradix.1.2, hradix.2⟩

/-- The template of a request obeys the rules if batches have rows and the engine can sort it. -/
theorem valid_lower (hn : batchSize ≠ 0) (hs : strategy = .inPlace →
      spec.isSingleColumn ∧ (spec.column spec.firstKey).type.supportsInPlace) :
    (lower spec strategy batchSize).Valid where
  revision := rfl
  batchSize := hn
  fields := by
    rw [← List.length_pos_iff]
    show 0 < (spec.columns.mapIdx _).length
    rw [List.length_mapIdx]
    exact Nat.lt_of_le_of_lt (Nat.zero_le _) spec.firstKey.isLt
  columns slot f hf := by
    rw [getElem?_fields_lower, Option.map_eq_some_iff] at hf
    obtain ⟨c, -, rfl⟩ := hf
    rfl
  keys slot hslot := by
    obtain ⟨i, -, rfl⟩ := List.mem_map.1 (show slot ∈ spec.keys.map Fin.val from hslot)
    show i.val < (spec.columns.mapIdx _).length
    rw [List.length_mapIdx]
    exact i.isLt
  partition := rfl
  comparatorSlots := slots_ofKeys ..
  comparatorDirection link hlink := by
    rcases List.mem_cons.1 hlink with rfl | hlink
    · rfl
    · obtain ⟨slot, -, rfl⟩ := List.mem_map.1 hlink
      rfl
  placement := rfl
  sortCall slot hcall := by
    obtain ⟨rfl, hothers, hascending, hfixed⟩ := sortCall_ofSpec_eq_radix hcall
    refine ⟨?_, hascending, _, getElem?_fields_lower_key _ _ spec.firstKey, hfixed⟩
    show (spec.firstKey :: spec.otherKeys).map Fin.val = _
    rw [hothers]
    rfl
  strategy hstrategy := by
    obtain ⟨hsingle, hnumbers⟩ := hs hstrategy
    simp only [SortSpec.isSingleColumn, Bool.and_eq_true, List.isEmpty_iff, beq_iff_eq] at hsingle
    have hslot : spec.firstKey.val = 0 := by
      have := spec.firstKey.isLt
      omega
    have hfield := getElem?_fields_lower_key strategy batchSize spec.firstKey
    rw [hslot] at hfield
    refine ⟨.ofColumn 0 (spec.column spec.firstKey).name (spec.column spec.firstKey).type, ?_, ?_,
      hnumbers⟩
    · have hlen : (lower spec strategy batchSize).fields.length = 1 := by
        show (spec.columns.mapIdx _).length = 1
        rw [List.length_mapIdx, hsingle.2]
      obtain ⟨f, hf⟩ := List.length_eq_one_iff.1 hlen
      rw [hf] at hfield ⊢
      rw [← Option.some.inj hfield]
    · show (spec.firstKey :: spec.otherKeys).map Fin.val = _
      rw [hsingle.1]
      simp [hslot]

theorem ofSpec_eq_ok_iff :
    ofSpec spec strategy batchSize = .ok t ↔ t = lower spec strategy batchSize ∧ t.Valid := by
  rw [ofSpec]
  show ((lower spec strategy batchSize).validate >>= fun _ => Except.ok _) = _ ↔ _
  rw [then_eq_ok_iff, validate_eq_ok_iff]
  constructor
  · rintro ⟨hv, h⟩
    cases h
    exact ⟨rfl, hv⟩
  · rintro ⟨rfl, hv⟩
    exact ⟨hv, rfl⟩

theorem ofSpec_indexed (hn : batchSize ≠ 0) :
    ofSpec spec .indexed batchSize = .ok (lower spec .indexed batchSize) :=
  ofSpec_eq_ok_iff.2 ⟨rfl, valid_lower hn fun h => by cases h⟩

theorem ofSpec_inPlace (hn : batchSize ≠ 0) (hsingle : spec.isSingleColumn)
    (hnumbers : (spec.column spec.firstKey).type.supportsInPlace) :
    ofSpec spec .inPlace batchSize = .ok (lower spec .inPlace batchSize) :=
  ofSpec_eq_ok_iff.2 ⟨rfl, valid_lower hn fun _ => ⟨hsingle, hnumbers⟩⟩

/-- The engine that is selected for a request can sort it. -/
theorem ofSpec_select (hn : batchSize ≠ 0) :
    ofSpec spec (.select spec) batchSize = .ok (lower spec (.select spec) batchSize) := by
  refine ofSpec_eq_ok_iff.2 ⟨rfl, valid_lower hn fun h => ?_⟩
  unfold Strategy.select at h
  split_ifs at h with hselect
  simpa using hselect

/-- The column of the only key is the column of the only field. -/
theorem type_of_lower {f : FieldSlot} (hfields : (lower spec strategy batchSize).fields = [f])
    (hkeys : (lower spec strategy batchSize).keys = [0]) :
    f.type = (spec.column spec.firstKey).type := by
  have hslot : spec.firstKey.val = 0 := by
    have : (lower spec strategy batchSize).keys.head? = some spec.firstKey.val := rfl
    rw [hkeys] at this
    simpa using this.symm
  have hfield := getElem?_fields_lower_key strategy batchSize spec.firstKey
  rw [hfields, hslot] at hfield
  obtain rfl := Option.some.inj hfield
  rfl

end Template

end Collate
