import Collate.Proofs.Answers
import Collate.SortSpec

/-!
# Accepted sort requests

A request is accepted if it is what `SortSpec.resolve` finds for some keys and fields.  That is the
case if and only if no other column has the name of a key (`SortSpec.accepted_iff`), and there is an
accepted request for all columns and keys for which this holds (`SortSpec.exists_accepted`).
-/

namespace Collate

namespace SortSpec

/-- The request is what is found for some keys among some fields. -/
def Accepted (spec : SortSpec) : Prop :=
  ∃ keys fields, resolve keys fields spec.nullOrder spec.direction = .ok spec

variable {spec : SortSpec} {columns : List OutputColumn}

theorem outputColumn_eq_ok_iff {f : Field} {c : OutputColumn} :
    outputColumn f = .ok c ↔ f = c.field := by
  obtain ⟨name, type, nullable⟩ := f
  obtain ⟨name', type', nullable'⟩ := c
  cases type <;> simp [outputColumn, OutputColumn.field]

theorem locate_eq_ok_iff {key : Field} {i : Fin columns.length} :
    locate columns key = .ok i ↔
      positions columns key.name = [i] ∧ key.type = .column (columns.get i).type := by
  show _ ↔ _ ∧ key.type = .column columns[i].type
  unfold locate
  split
  · next j hj =>
    rw [hj, List.singleton_inj]
    split_ifs with htype
    · constructor
      · rintro h
        cases h
        exact ⟨rfl, htype⟩
      · rintro ⟨rfl, -⟩
        rfl
    · simp only [false_iff, not_and]
      rintro rfl
      exact htype
  · next hne =>
    simp only [reduceCtorEq, false_iff, not_and]
    exact fun h => absurd h (hne i)

theorem mem_positions {name : String} {i : Fin columns.length} :
    i ∈ positions columns name ↔ (columns.get i).name = name := by
  simp [positions]

theorem resolve_cons {firstKey : Field} {otherKeys fields : List Field} (hfields : fields ≠ [])
    (o : NullOrder) (d : Direction) :
    resolve (firstKey :: otherKeys) fields o d = .ok spec ↔
      ∃ columns first others, fields.mapM outputColumn = .ok columns ∧
        locate columns firstKey = .ok first ∧ otherKeys.mapM (locate columns) = .ok others ∧
        spec = ⟨columns, first, others, o, d⟩ := by
  cases fields with
  | nil => exact absurd rfl hfields
  | cons f fs =>
    rw [resolve, bind_eq_ok_iff]
    · simp only [bind_eq_ok_iff, pure, Except.pure, Except.ok.injEq, exists_and_left,
        eq_comm (a := spec)]
    · exact hfields

theorem columns_ne_nil (spec : SortSpec) : spec.columns ≠ [] :=
  List.ne_nil_of_length_pos (Nat.zero_lt_of_lt spec.firstKey.isLt)

/-- A request is accepted if and only if every key is the only column of its name. -/
theorem accepted_iff :
    spec.Accepted ↔ ∀ i ∈ spec.keys, positions spec.columns (spec.column i).name = [i] := by
  constructor
  · rintro ⟨keys, fields, h⟩
    generalize spec.nullOrder = o, spec.direction = d at h
    rcases keys with _ | ⟨firstKey, otherKeys⟩
    · cases h
    rcases eq_or_ne fields [] with rfl | hfields
    · cases h
    obtain ⟨columns, first, others, -, hfirst, hothers, rfl⟩ := (resolve_cons hfields _ _).1 h
    have alone : ∀ (key : Field) (i : Fin columns.length), locate columns key = .ok i →
        positions columns columns[i].name = [i] := by
      intro key i hi
      have hpos := (locate_eq_ok_iff.1 hi).1
      have hname : columns[i].name = key.name := mem_positions.1 (hpos ▸ List.mem_singleton_self i)
      rw [hname, hpos]
    show ∀ i ∈ first :: others, positions columns columns[i].name = [i]
    intro i hi
    rcases List.mem_cons.1 hi with rfl | hi
    · exact alone firstKey _ hfirst
    · obtain ⟨n, hn, hget⟩ := List.getElem_of_mem hi
      have hlocated := List.forall₂_iff_get.1 (mapM_eq_ok_iff.1 hothers)
      have hother := alone _ _ (hlocated.2 n (hlocated.1 ▸ hn) hn)
      rwa [List.get_eq_getElem, hget] at hother
  · intro h
    have located : ∀ i ∈ spec.keys, locate spec.columns (spec.column i).field = .ok i :=
      fun i hi => locate_eq_ok_iff.2 ⟨h i hi, rfl⟩
    refine ⟨spec.keys.map fun i => (spec.column i).field, spec.columns.map OutputColumn.field,
      (resolve_cons ?_ _ _).2 ⟨spec.columns, spec.firstKey, spec.otherKeys, ?_, ?_, ?_, rfl⟩⟩
    · exact fun hnil => spec.columns_ne_nil (List.map_eq_nil_iff.1 hnil)
    · exact mapM_eq_ok_iff.2 (List.forall₂_map_left_iff.2
        (List.forall₂_same.2 fun c _ => outputColumn_eq_ok_iff.2 rfl))
    · exact located _ List.mem_cons_self
    · exact mapM_eq_ok_iff.2 (List.forall₂_map_left_iff.2
        (List.forall₂_same.2 fun i hi => located i (List.mem_cons_of_mem _ hi)))

theorem map_positions (columns : List OutputColumn) (name : String) :
    (positions columns name).map columns.get = columns.filter fun c => c.name = name := by
  conv_rhs => rw [← List.map_getElem_finRange columns, List.filter_map]
  rfl

/-- The keys are the only columns of their names, so there is an accepted request for them. -/
theorem exists_accepted {keys : List OutputColumn} (hne : keys ≠ [])
    (hkeys : ∀ key ∈ keys, columns.filter (fun c => c.name = key.name) = [key]) :
    ∃ spec : SortSpec, spec.Accepted ∧ spec.nullOrder = .first ∧ spec.direction = .ascending ∧
      spec.columns = columns ∧ spec.keys.map spec.column = keys := by
  have located : ∀ key ∈ keys, ∃ i : Fin columns.length,
      positions columns columns[i].name = [i] ∧ columns[i] = key := by
    intro key hkey
    have hmap := map_positions columns key.name
    rw [hkeys key hkey, List.map_eq_singleton_iff] at hmap
    obtain ⟨i, hi, rfl⟩ := hmap
    exact ⟨i, hi, rfl⟩
  obtain ⟨found, hfound, hmap⟩ : ∃ found : List (Fin columns.length),
      (∀ i ∈ found, positions columns columns[i].name = [i]) ∧
        found.map (fun i => columns[i]) = keys := by
    clear hne hkeys
    induction keys with
    | nil => exact ⟨[], List.forall_mem_nil _, rfl⟩
    | cons key keys ih =>
      obtain ⟨⟨i, hi, rfl⟩, hrest⟩ := List.forall_mem_cons.1 located
      obtain ⟨found, hfound, rfl⟩ := ih hrest
      exact ⟨i :: found, List.forall_mem_cons.2 ⟨hi, hfound⟩, rfl⟩
  rcases found with _ | ⟨first, others⟩
  · exact absurd hmap.symm hne
  · exact ⟨⟨columns, first, others, .first, .ascending⟩, accepted_iff.2 hfound, rfl, rfl, rfl, hmap⟩

end SortSpec

end Collate
