import Collate.Engine.SortKernel
import Collate.Proofs.Cache.Transparency
import Collate.Proofs.Engine.Holding
import Collate.Proofs.SortSpec
import Collate.Proofs.Template.Depth

/-!
# Requests to an empty cache

Every accepted request has a source for the engine that is selected for it, but the compiler reads
the source of at most 125 keys, because the comparison of each key is a container in the one of the
key before.  So a cache that was opened over an empty directory answers a request with the kernel of
its template, or fails to compile it, as its keys are at most 125 or more
(`SortKernel.ofFields_of_opened`).
-/

namespace Collate

/-! ### Accepted requests -/

namespace SortSpec

variable {keys fields : List Field} {nullsFirst asc : Bool} {spec : SortSpec}

/-- A request has as many columns and keys as it is made from. -/
theorem length_of_ofFlags (h : ofFlags keys fields nullsFirst asc = .ok spec) :
    spec.columns.length = fields.length ∧ spec.keys.length = keys.length := by
  rw [ofFlags] at h
  rcases keys with _ | ⟨firstKey, otherKeys⟩
  · cases h
  rcases eq_or_ne fields [] with rfl | hfields
  · cases h
  obtain ⟨columns, first, others, hcolumns, -, hothers, rfl⟩ := (resolve_cons hfields _ _).1 h
  have hlength := (mapM_eq_ok_iff.1 hothers).length_eq
  refine ⟨(mapM_eq_ok_iff.1 hcolumns).length_eq.symm, ?_⟩
  rw [keys, List.length_cons, List.length_cons, hlength]

end SortSpec

namespace Template

variable {spec : SortSpec} {strategy : Strategy} {batchSize : Nat}

theorem length_fields_lower :
    (lower spec strategy batchSize).fields.length = spec.columns.length :=
  List.length_mapIdx

theorem length_keys_lower : (lower spec strategy batchSize).keys.length = spec.keys.length :=
  List.length_map _

theorem valid_lower_select (hn : batchSize ≠ 0) : (lower spec (.select spec) batchSize).Valid :=
  (ofSpec_eq_ok_iff.1 (ofSpec_select hn)).2

end Template

theorem Source.ofSpec_select {spec : SortSpec} {batchSize : Nat} (hn : batchSize ≠ 0) :
    ofSpec spec (.select spec) batchSize =
      .ok ⟨.lower spec (.select spec) batchSize,
        (Template.lower spec (.select spec) batchSize).source⟩ := by
  rw [ofSpec, Template.ofSpec_select hn]

/-! ### Opened caches -/

namespace KernelCache

variable {config : Config} {toolchain : Toolchain} {c : KernelCache} {v v' : Volume} {L : Location}

/-- A cache that has just been opened remembers nothing. -/
theorem eq_of_opened (h : opened config toolchain v = (.ok c, v')) :
    c = { store := ⟨⟨config.cacheDir⟩⟩, toolchain, lockTimeout := config.lockTimeoutMs } := by
  unfold opened at h
  cases hvalid : config.validate with
  | error e =>
    simp only [hvalid] at h
    cases h
  | ok u =>
    cases hmake : ArtifactStore.reportedAt ⟨config.cacheDir⟩
        (Volume.makeDirectory ⟨config.cacheDir⟩) v with
    | mk answer w =>
      cases answer with
      | error e =>
        have hstore : ArtifactStore.opened ⟨config.cacheDir⟩ v = (.error e, w) :=
          Volume.bind_apply_error hmake
        simp only [hvalid] at h
        rw [Volume.bind_apply_error hstore] at h
        cases h
      | ok u =>
        have hstore : ArtifactStore.opened ⟨config.cacheDir⟩ v = (.ok ⟨⟨config.cacheDir⟩⟩, w) := by
          rw [ArtifactStore.opened, Volume.bind_apply hmake]
          rfl
        simp only [hvalid] at h
        rw [Volume.bind_apply hstore] at h
        cases h
        rfl

end KernelCache

namespace SortKernel

variable {keys fields : List Field} {nullsFirst asc : Bool} {spec : SortSpec} {batchSize : Nat}
  {config : Config} {c : KernelCache} {v v' : Volume} {L : Location}

theorem ofFields_apply (hspec : SortSpec.ofFlags keys fields nullsFirst asc = .ok spec)
    (hbatch : 0 < batchSize ∧ batchSize < 2 ^ 32) (state : KernelCache × Volume) :
    ofFields keys fields nullsFirst asc batchSize state =
      match KernelCache.obtainSpec spec (.select spec) batchSize state with
      | (.ok loaded, state) => (ofLoaded (.select spec) (.ofSpec spec batchSize) loaded, state)
      | (.error e, state) => (.error (.cache e), state) := by
  rw [ofFields, hspec]
  exact if_pos hbatch

/-- The kernel of a valid template has an engine. -/
theorem exists_ofLoaded {strategy : Strategy} {signature : Signature} {loaded : LoadedKernel}
    (hv : loaded.template.Valid) (hs : loaded.template.strategy = strategy) :
    ∃ sorter, ofLoaded strategy signature loaded = .ok ⟨strategy, signature, loaded, sorter⟩ := by
  obtain ⟨sorter, hsorter, -⟩ := Sorter.exists_holds hv
  refine ⟨sorter, ?_⟩
  rw [ofLoaded, if_pos hs, hsorter]
  rfl

/-- What comes of a request to a cache over an empty directory. -/
theorem obtainSpec_of_opened (hbatch : 0 < batchSize) (hfits : batchSize < 2 ^ 64)
    (hfields : spec.columns.length ≤ 2 ^ 64)
    (hopened : KernelCache.opened config .standard v = (.ok c, v'))
    (hempty : Session.Vacant v' L) (hleads : v'.Leads ⟨config.cacheDir⟩ L) :
    ∃ state, KernelCache.obtainSpec spec (.select spec) batchSize (c, v') =
      (if spec.keys.length ≤ 125 then
        .ok ⟨(Signature.ofSpec spec batchSize).key, .lower spec (.select spec) batchSize,
          c.store.artifactPath (Signature.ofSpec spec batchSize).key⟩
      else
        .error (.compile (Signature.ofSpec spec batchSize).key (.source (.parse .tooDeep))), state)
      := by
  let t := Template.lower spec (.select spec) batchSize
  have hvalid : t.Valid := Template.valid_lower_select (Nat.ne_zero_of_lt hbatch)
  have hslots : t.fields.length ≤ 2 ^ 64 := Template.length_fields_lower.trans_le hfields
  have hkeys : t.keys.length = spec.keys.length := Template.length_keys_lower
  have hgood : Session.Good (fun _ => t) L ⟨[], v'⟩ := hempty.good
  have hserves : v'.Serves L none := hgood.volume.serves
  obtain ⟨hroot, htoolchain, hnew⟩ : v'.Leads c.store.root L ∧ c.toolchain = .standard ∧
      c.memoized? (Signature.ofSpec spec batchSize).key = none := by
    obtain rfl := KernelCache.eq_of_opened hopened
    exact ⟨hleads, rfl, Table.get?_empty _⟩
  rw [KernelCache.obtainSpec, Source.ofSpec_select (Nat.ne_zero_of_lt hbatch)]
  split_ifs with hlength
  · have hportable : t.Portable :=
      (hvalid.portable_iff hfits hslots).2 (hkeys.trans_le hlength)
    have hsame : ∀ t', v'.template? L (Signature.ofSpec spec batchSize).key = some t' → t' = t := by
      intro t' ht'
      rw [hempty.template?_eq_none] at ht'
      cases ht'
    obtain ⟨w, hobtain, -⟩ :=
      KernelCache.obtain_apply hserves hroot htoolchain hportable hsame hnew
    exact ⟨_, hobtain⟩
  · have hrefused : Template.ofSource (Source.mk t t.source).text = .error (.parse .tooDeep) :=
      hvalid.ofSource_source_of_lt hfits hslots (by omega)
    have hnone : v'.artifact? L (Signature.ofSpec spec batchSize).key = none := by
      rw [Volume.artifact?, Volume.content?, hempty.empty]
      rfl
    obtain ⟨w, hobtain, -⟩ :=
      KernelCache.obtain_refused hserves hroot htoolchain hrefused hnone hnew
    exact ⟨_, hobtain⟩

/-- A request of at most 125 keys is answered with the kernel of its template. -/
theorem ofFields_of_length_le (hspec : SortSpec.ofFlags keys fields nullsFirst asc = .ok spec)
    (hbatch : 0 < batchSize ∧ batchSize < 2 ^ 32) (hfields : fields.length ≤ 2 ^ 64)
    (hopened : KernelCache.opened config .standard v = (.ok c, v'))
    (hempty : Session.Vacant v' L) (hleads : v'.Leads ⟨config.cacheDir⟩ L)
    (hkeys : keys.length ≤ 125) :
    ∃ kernel state, ofFields keys fields nullsFirst asc batchSize (c, v') = (.ok kernel, state) ∧
      kernel.loaded.template = .lower spec (.select spec) batchSize := by
  obtain ⟨hcolumns, hlength⟩ := SortSpec.length_of_ofFlags hspec
  obtain ⟨state, hobtain⟩ := obtainSpec_of_opened hbatch.1
    (hbatch.2.trans (by decide)) (hcolumns.trans_le hfields) hopened hempty hleads
  rw [if_pos (hlength.trans_le hkeys)] at hobtain
  let signature := Signature.ofSpec spec batchSize
  let loaded : LoadedKernel := ⟨signature.key, .lower spec (.select spec) batchSize,
    c.store.artifactPath signature.key⟩
  have hvalid : loaded.template.Valid :=
    Template.valid_lower_select (Nat.ne_zero_of_lt hbatch.1)
  obtain ⟨sorter, hsorter⟩ : ∃ sorter, ofLoaded (.select spec) signature loaded =
      .ok ⟨.select spec, signature, loaded, sorter⟩ := exists_ofLoaded hvalid rfl
  rw [ofFields_apply hspec hbatch, hobtain]
  simp only
  rw [hsorter]
  exact ⟨_, _, rfl, rfl⟩

/-- A request of more than 125 keys is not compiled. -/
theorem ofFields_of_lt_length (hspec : SortSpec.ofFlags keys fields nullsFirst asc = .ok spec)
    (hbatch : 0 < batchSize ∧ batchSize < 2 ^ 32) (hfields : fields.length ≤ 2 ^ 64)
    (hopened : KernelCache.opened config .standard v = (.ok c, v'))
    (hempty : Session.Vacant v' L) (hleads : v'.Leads ⟨config.cacheDir⟩ L)
    (hkeys : 125 < keys.length) :
    ∃ state, ofFields keys fields nullsFirst asc batchSize (c, v') =
      (.error (.cache (.compile (Signature.ofSpec spec batchSize).key
        (.source (.parse .tooDeep)))), state) := by
  obtain ⟨hcolumns, hlength⟩ := SortSpec.length_of_ofFlags hspec
  obtain ⟨state, hobtain⟩ := obtainSpec_of_opened hbatch.1
    (hbatch.2.trans (by decide)) (hcolumns.trans_le hfields) hopened hempty hleads
  rw [if_neg (by omega)] at hobtain
  rw [ofFields_apply hspec hbatch, hobtain]
  exact ⟨_, rfl⟩

/-- Every accepted request has a source.  A cache over a directory that is empty once the cache has
been opened answers with a kernel of the template of this source if the keys are at most 125, and
else does not compile it, since its containers nest too deep to be read. -/
theorem ofFields_of_opened (hspec : SortSpec.ofFlags keys fields nullsFirst asc = .ok spec)
    (hbatch : 0 < batchSize ∧ batchSize < 2 ^ 32) (hfields : fields.length ≤ 2 ^ 64)
    (hopened : KernelCache.opened config .standard v = (.ok c, v'))
    (hempty : Session.Vacant v' L) (hleads : v'.Leads ⟨config.cacheDir⟩ L) :
    ∃ source, Source.ofSpec spec (.select spec) batchSize = .ok source ∧
      (keys.length ≤ 125 → ∃ kernel state,
        ofFields keys fields nullsFirst asc batchSize (c, v') = (.ok kernel, state) ∧
          kernel.loaded.template = source.template) ∧
      (125 < keys.length → ∃ state,
        ofFields keys fields nullsFirst asc batchSize (c, v') =
          (.error (.cache (.compile (Signature.ofSpec spec batchSize).key
            (.source (.parse .tooDeep)))), state)) :=
  ⟨_, Source.ofSpec_select (Nat.ne_zero_of_lt hbatch.1),
    ofFields_of_length_le hspec hbatch hfields hopened hempty hleads,
    ofFields_of_lt_length hspec hbatch hfields hopened hempty hleads⟩

/-! ### A key that is given again and again -/

/-- The column of a request. -/
def onlyField : Field := ⟨"k", .column .int64, true⟩

/-- A request that names its column several times more. -/
def repeating (times : Nat) : SortSpec where
  columns := [⟨"k", .int64, true⟩]
  firstKey := ⟨0, by decide⟩
  otherKeys := List.replicate times ⟨0, by decide⟩
  nullOrder := .last
  direction := .ascending

theorem ofFlags_repeating (times : Nat) :
    SortSpec.ofFlags (List.replicate (times + 1) onlyField) [onlyField] false true =
      .ok (repeating times) := by
  have hlocate : SortSpec.locate (repeating times).columns onlyField =
      .ok (repeating times).firstKey :=
    SortSpec.locate_eq_ok_iff.2 ⟨rfl, rfl⟩
  have hothers : List.Forall₂ (fun key i => SortSpec.locate (repeating times).columns key = .ok i)
      (List.replicate times onlyField) (repeating times).otherKeys := by
    refine List.forall₂_iff_get.2 ⟨?_, fun i h h' => ?_⟩
    · rw [repeating, List.length_replicate, List.length_replicate]
    · rw [List.eq_of_mem_replicate (List.get_mem (List.replicate times onlyField) ⟨i, h⟩),
        List.eq_of_mem_replicate (List.get_mem (repeating times).otherKeys ⟨i, h'⟩)]
      exact hlocate
  exact (SortSpec.resolve_cons (List.cons_ne_nil _ _) _ _).2
    ⟨_, _, _, rfl, hlocate, mapM_eq_ok_iff.2 hothers, rfl⟩

/-- The longest requests that are answered have 125 keys. -/
theorem ofFields_repeating_longest :
    SortSpec.ofFlags (List.replicate 125 onlyField) [onlyField] false true =
        .ok (repeating 124) ∧
      KernelCache.opened Session.topConfig .standard {} = (.ok Session.topCache, {}) ∧
      ∃ kernel state, ofFields (List.replicate 125 onlyField) [onlyField] false true 64
          (Session.topCache, {}) = (.ok kernel, state) ∧
        kernel.loaded.template = .lower (repeating 124) .indexed 64 := by
  have hbatch : 0 < 64 ∧ 64 < 2 ^ 32 := by decide
  have hopened := Session.opened_top Session.leads_top
  obtain ⟨source, hsource, hanswered, -⟩ := ofFields_of_opened (ofFlags_repeating 124) hbatch
    (by decide) hopened Session.vacant_top Session.leads_top
  rw [Source.ofSpec_select (by decide), Except.ok.injEq] at hsource
  obtain rfl := hsource
  exact ⟨ofFlags_repeating 124, hopened, hanswered List.length_replicate.le⟩

/-- A request that names its column 126 times is accepted, and no kernel is made for it. -/
theorem ofFields_repeating_refused :
    SortSpec.ofFlags (List.replicate 126 onlyField) [onlyField] false true =
        .ok (repeating 125) ∧
      KernelCache.opened Session.topConfig .standard {} = (.ok Session.topCache, {}) ∧
      ¬ ∃ kernel state, ofFields (List.replicate 126 onlyField) [onlyField] false true 64
          (Session.topCache, {}) = (.ok kernel, state) := by
  have hopened := Session.opened_top Session.leads_top
  refine ⟨ofFlags_repeating 125, hopened, ?_⟩
  rintro ⟨kernel, state, hanswered⟩
  have hkeys : 125 < (List.replicate 126 onlyField).length := by
    rw [List.length_replicate]
    decide
  have hbatch : 0 < 64 ∧ 64 < 2 ^ 32 := by decide
  obtain ⟨state', hrefused⟩ := ofFields_of_lt_length (ofFlags_repeating 125) hbatch (by decide)
    hopened Session.vacant_top Session.leads_top hkeys
  rw [hrefused] at hanswered
  cases hanswered

end SortKernel

end Collate
