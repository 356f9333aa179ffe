import Collate.Proofs.Template.Lowering

/-!
# Canonical templates

The checks of a template leave no freedom beyond its choices: the engine, the policy, the rows of a
batch, the names and types of the columns, the keys, and how the rows are sorted.  The comparison
of rows is checked by two walks along its links, one for the columns and one for the directions;
together they leave one chain (`CompareChain.eq_ofKeys_iff`).  So the accepted templates are those
with all other parts derived, and two of them with the same choices are equal
(`Template.validate_accepts_canonical`).
-/

namespace Collate

namespace CompareChain

variable {direction : Direction}

theorem links_ofKeys (firstKey : Nat) (otherKeys : List Nat) (direction : Direction) :
    (ofKeys firstKey otherKeys direction).links =
      (firstKey :: otherKeys).map fun key => ⟨key, direction⟩ :=
  rfl

theorem eq_of_links_eq {c c' : CompareChain} (h : c.links = c'.links) : c = c' := by
  obtain ⟨hfirst, hrest⟩ := List.cons.inj h
  cases c
  cases c'
  rw [mk.injEq]
  exact ⟨hfirst, hrest⟩

/-- The two walks along the links agree with the keys and the direction at every link, and stop
where the keys stop. -/
theorem links_eq_map_iff {links : List CompareLink} {keys : List Nat} :
    links = keys.map (fun key => ⟨key, direction⟩) ↔
      links.map (·.slot) = keys ∧ ∀ link ∈ links, link.direction = direction := by
  induction links generalizing keys with
  | nil =>
    constructor
    · intro h
      exact ⟨(List.map_eq_nil_iff.1 h.symm).symm, List.forall_mem_nil _⟩
    · rintro ⟨rfl, -⟩
      rfl
  | cons link links ih =>
    cases keys with
    | nil => simp
    | cons key keys =>
      rw [List.map_cons, List.cons.injEq, ih, List.map_cons, List.cons.injEq, List.forall_mem_cons]
      have hlink : link = ⟨key, direction⟩ ↔ link.slot = key ∧ link.direction = direction := by
        cases link
        exact CompareLink.mk.injEq .. ▸ Iff.rfl
      rw [hlink]
      exact and_and_and_comm

/-- The columns in order and the direction of every link determine the chain. -/
theorem eq_ofKeys_iff {c : CompareChain} {firstKey : Nat} {otherKeys : List Nat} :
    c = ofKeys firstKey otherKeys direction ↔
      c.slots = firstKey :: otherKeys ∧ ∀ link ∈ c.links, link.direction = direction := by
  refine Iff.trans ?_ links_eq_map_iff
  rw [← links_ofKeys]
  exact ⟨congrArg links, eq_of_links_eq⟩

end CompareChain

namespace Template

/-- The name and type of every column. -/
def columns (t : Template) : List (String × ColumnType) := t.fields.map fun f => (f.name, f.type)

/-- The template is current and of use, and all parts that follow from others do. -/
structure Canonical (t : Template) : Prop where
  revision : t.revision = currentRevision
  batchSize : 0 < t.batchSize
  fields : t.fields ≠ []
  columns : ∀ (slot : Nat) (f : FieldSlot), t.fields[slot]? = some f →
    f = .ofColumn slot f.name f.type
  keys : t.keys ≠ []
  keysInRange : ∀ key ∈ t.keys, key < t.fields.length
  partition : t.keys.head? = some t.partitionSlot
  comparator : ∃ firstKey otherKeys, t.keys = firstKey :: otherKeys ∧
    t.comparator = .ofKeys firstKey otherKeys t.policy.direction
  placement : t.placement = .ofNullOrder t.policy.nullOrder
  sortCall : t.sortCall = .comparison ∨ ∃ key f, t.sortCall = .radix key ∧ t.keys = [key] ∧
    t.fields[key]? = some f ∧ f.type.isFixedWidth ∧ t.policy.direction = .ascending
  strategy : t.strategy = .inPlace →
    ∃ f, t.fields = [f] ∧ t.keys = [0] ∧ f.type.supportsInPlace

variable {t t' : Template}

theorem Valid.canonical (h : t.Valid) : t.Canonical where
  revision := h.revision
  batchSize := Nat.pos_of_ne_zero h.batchSize
  fields := h.fields
  columns := h.columns
  keys := List.ne_nil_of_mem h.partitionSlot_mem
  keysInRange := h.keys
  partition := h.partition
  comparator := by
    obtain ⟨firstKey, otherKeys, hkeys⟩ := List.exists_cons_of_ne_nil
      (List.ne_nil_of_mem h.partitionSlot_mem)
    refine ⟨firstKey, otherKeys, hkeys, CompareChain.eq_ofKeys_iff.2 ⟨?_, h.comparatorDirection⟩⟩
    rw [h.comparatorSlots, hkeys]
  placement := h.placement
  sortCall := by
    cases hcall : t.sortCall with
    | comparison => exact .inl rfl
    | radix key =>
      obtain ⟨hkeys, hascending, f, hf, hfixed⟩ := h.sortCall key hcall
      exact .inr ⟨key, f, rfl, hkeys, hf, hfixed, hascending⟩
  strategy := h.strategy

theorem Canonical.valid (h : t.Canonical) : t.Valid := by
  obtain ⟨firstKey, otherKeys, hkeys, hchain⟩ := h.comparator
  obtain ⟨hslots, hdirections⟩ := CompareChain.eq_ofKeys_iff.1 hchain
  refine ⟨h.revision, Nat.ne_of_gt h.batchSize, h.fields, h.columns, h.keysInRange, h.partition,
    hslots.trans hkeys.symm, hdirections, h.placement, ?_, h.strategy⟩
  intro key hcall
  rcases h.sortCall with hcomparison | ⟨key', f, hradix, hkeys, hf, hfixed, hascending⟩
  · rw [hcomparison] at hcall
    cases hcall
  · obtain rfl : key' = key := SortCall.radix.inj (hradix.symm.trans hcall)
    exact ⟨hkeys, hascending, f, hf, hfixed⟩

/-- Columns whose other parts are derived are determined by their names and types. -/
theorem Canonical.fields_eq (h : t.Canonical) :
    t.fields = t.columns.mapIdx fun slot c => .ofColumn slot c.1 c.2 := by
  apply List.ext_getElem?
  intro slot
  rw [List.getElem?_mapIdx, Template.columns, List.getElem?_map, Option.map_map]
  cases hf : t.fields[slot]? with
  | none => rfl
  | some f => exact congrArg some (h.columns slot f hf)

theorem Canonical.eq (h : t.Canonical) (h' : t'.Canonical) (hstrategy : t.strategy = t'.strategy)
    (hpolicy : t.policy = t'.policy) (hbatch : t.batchSize = t'.batchSize)
    (hcolumns : t.columns = t'.columns) (hkeys : t.keys = t'.keys)
    (hcall : t.sortCall = t'.sortCall) : t = t' := by
  have hrevision : t.revision = t'.revision := h.revision.trans h'.revision.symm
  have hfields : t.fields = t'.fields := by rw [h.fields_eq, h'.fields_eq, hcolumns]
  have hpartition : t.partitionSlot = t'.partitionSlot := by
    apply Option.some.inj
    rw [← h.partition, ← h'.partition, hkeys]
  have hcomparator : t.comparator = t'.comparator := by
    obtain ⟨firstKey, otherKeys, hk, hchain⟩ := h.comparator
    obtain ⟨firstKey', otherKeys', hk', hchain'⟩ := h'.comparator
    obtain ⟨rfl, rfl⟩ := List.cons.inj (hk.symm.trans (hkeys.trans hk'))
    rw [hchain, hchain', hpolicy]
  have hplacement : t.placement = t'.placement := by rw [h.placement, h'.placement, hpolicy]
  cases t
  cases t'
  rw [mk.injEq]
  exact ⟨hrevision, hstrategy, hpolicy, hbatch, hfields, hkeys, hpartition, hcomparator,
    hplacement, hcall⟩

/-- The accepted templates are the canonical ones, and those with the same choices are equal. -/
theorem validate_accepts_canonical :
    (∀ t : Template, t.validate = .ok () ↔ t.Canonical) ∧
      ∀ t t' : Template, t.validate = .ok () → t'.validate = .ok () →
        t.strategy = t'.strategy → t.policy = t'.policy → t.batchSize = t'.batchSize →
        t.columns = t'.columns → t.keys = t'.keys → t.sortCall = t'.sortCall → t = t' := by
  have accepted : ∀ t : Template, t.validate = .ok () ↔ t.Canonical := by
    intro t
    rw [validate_eq_ok_iff]
    exact ⟨Valid.canonical, Canonical.valid⟩
  refine ⟨accepted, fun t t' h h' => ?_⟩
  rw [accepted] at h h'
  exact h.eq h'

/-- The request for two of three columns, the second one first. -/
def threeColumns : SortSpec where
  columns := [⟨"id", .int64, false⟩, ⟨"city", .utf8, true⟩, ⟨"seen", .date32, true⟩]
  firstKey := ⟨1, by decide⟩
  otherKeys := [⟨0, by decide⟩]
  nullOrder := .last
  direction := .descending

/-- The template of that request, with every part written out. -/
def threeColumnsTemplate : Template where
  revision := 1
  strategy := .indexed
  policy := ⟨.last, .descending⟩
  batchSize := 64
  fields := [.ofColumn 0 "id" .int64, .ofColumn 1 "city" .utf8, .ofColumn 2 "seen" .date32]
  keys := [1, 0]
  partitionSlot := 1
  comparator := ⟨⟨1, .descending⟩, [⟨0, .descending⟩]⟩
  placement := ⟨.front, .tail⟩
  sortCall := .comparison

theorem lower_threeColumns : threeColumnsTemplate.validate = .ok () ∧
    (lower threeColumns .indexed 64).validate = .ok () ∧
    threeColumnsTemplate = lower threeColumns .indexed 64 := by
  have haccepted : threeColumnsTemplate.validate = .ok () := by decide
  have hlowered : (lower threeColumns .indexed 64).validate = .ok () := by decide
  exact ⟨haccepted, hlowered,
    validate_accepts_canonical.2 _ _ haccepted hlowered rfl rfl rfl rfl rfl rfl⟩

end Template

end Collate
