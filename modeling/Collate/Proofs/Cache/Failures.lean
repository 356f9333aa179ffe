import Collate.Proofs.Cache.Steps
import Collate.Proofs.Cache.Transparency

/-!
# Requests that fail

A request for a kernel that fails leaves no artifact and no new source of its signature, whatever
made it fail (`KernelCache.loadOrBuild_error`).  All steps of a request touch only files of the
signature, and the toolchain runs at most once (`KernelCache.works_loadOrBuild`).  So the request
fails cleanly (`KernelCache.obtain_fails_cleanly`).
-/

namespace Collate

namespace ArtifactStore

open Volume

variable {s : ArtifactStore} {key : String} {v v' w : Volume} {L : Location}

/-- What is left of the files of a signature after work that failed: no artifact, and no source that
was not there before. -/
structure Cleaned (s : ArtifactStore) (key : String) (v v' : Volume) : Prop where
  artifact : ∀ bytes, v'.find (s.artifactPath key) ≠ .ok (some (.file bytes))
  source : ∀ bytes, v'.find (s.sourcePath key) = .ok (some (.file bytes)) →
    v.find (s.sourcePath key) = .ok (some (.file bytes))

theorem Cleaned.refl (h : ∀ bytes, v.find (s.artifactPath key) ≠ .ok (some (.file bytes))) :
    s.Cleaned key v v :=
  ⟨h, fun _ hfile => hfile⟩

theorem Cleaned.trans (h : s.Cleaned key v w) (h' : s.Cleaned key w v') : s.Cleaned key v v' :=
  ⟨h'.artifact, fun bytes hbytes => h.source bytes (h'.source bytes hbytes)⟩

/-- Files that are the same are as clean as they were. -/
theorem Cleaned.of_touches {F G : Set Location} (h : s.Cleaned key v w) (hw : w.Enters s.root L)
    (hk : IsKey key) (hsame : Touches F G w v') (hartifact : L.push (artifactName key) ∉ F)
    (hsource : L.push (sourceName key) ∉ F) : s.Cleaned key v v' := by
  have hfindArtifact : w.find (s.artifactPath key) = v'.find (s.artifactPath key) :=
    hsame.find_join hw (isFileName_artifact hk) hartifact
  have hfindSource : w.find (s.sourcePath key) = v'.find (s.sourcePath key) :=
    hsame.find_join hw (isFileName_source hk) hsource
  refine ⟨fun bytes => ?_, fun bytes => ?_⟩
  · rw [← hfindArtifact]
    exact h.artifact bytes
  · rw [← hfindSource]
    exact h.source bytes

/-- Forgetting a signature cleans up, even where it fails. -/
theorem cleaned_evict {answer : Except CacheError Unit} (hv : v.Enters s.root L) (hk : IsKey key)
    (h : s.evict key v = (answer, v')) : s.Cleaned key v v' := by
  have hgone : ∀ {p : Path}, v'.find p = .ok none →
      ∀ bytes, v'.find p ≠ .ok (some (.file bytes)) := by
    intro p hnone bytes hfile
    rw [hnone] at hfile
    cases hfile
  rcases evict_cases hv hk h with ⟨-, hartifact, hsource, -⟩ | ⟨-, ⟨rfl, hartifact⟩ |
    ⟨hartifact, -, hsame⟩⟩
  · exact ⟨hgone hartifact, fun bytes hfile => absurd hfile (hgone hsource bytes)⟩
  · exact ⟨hartifact, fun _ hfile => hfile⟩
  · refine ⟨hgone hartifact, fun bytes hfile => ?_⟩
    have hne : L.push (sourceName key) ∉ ({L.push (artifactName key)} : Set Location) := fun hmem =>
      artifactName_ne_sourceName (push_inj.1 (Set.mem_singleton_iff.1 hmem)).symm
    exact (hsame.find_join hv (isFileName_source hk) hne).trans hfile

end ArtifactStore

namespace KernelCache

open Volume ArtifactStore

variable {α β : Type} {c c' : KernelCache} {v v' w : Volume} {L : Location} {key : String}
  {step : Step α} {next : α → Step β} {m n : Nat}

/-! ### What is left of the files of a signature -/

/-- Whatever is a file in the place of an artifact is loaded, or refused because it does not
open. -/
theorem load_of_file {bytes : List UInt8}
    (h : v.find (c.store.artifactPath key) = .ok (some (.file bytes))) :
    c.load v key = match Artifact.decode bytes with
      | .ok t => .ok (some ⟨key, t, c.store.artifactPath key⟩)
      | .error e => .error (.load key (.artifact e)) := by
  have hfile : v.read (c.store.artifactPath key) = .ok bytes := read_eq_ok_iff.2 h
  have hread : c.store.read v key = .ok (some bytes) := by
    unfold ArtifactStore.read
    rw [hfile]
  unfold load
  cases hdecode : Artifact.decode bytes <;> simp only [hread, hdecode]

theorem not_file_of_load (h : c.load v key = .ok none) (bytes : List UInt8) :
    v.find (c.store.artifactPath key) ≠ .ok (some (.file bytes)) := by
  intro hfile
  rw [load_of_file hfile] at h
  cases hdecode : Artifact.decode bytes with
  | ok t => simp only [hdecode] at h; cases h
  | error e => simp only [hdecode] at h; cases h

/-- An artifact that is not loaded after it was published is not left. -/
theorem publish_error {bytes : List UInt8} {e : CacheError} (hv : v.Enters c.store.root L)
    (hk : IsKey key)
    (hnone : ∀ bytes, v.find (c.store.artifactPath key) ≠ .ok (some (.file bytes)))
    (h : publish key bytes (c, v) = (.error e, (c', v'))) : c.store.Cleaned key v v' := by
  rcases bind_cases h with ⟨e', hcommit, -⟩ | ⟨p, c₁, w, hcommit, hload⟩
  · obtain ⟨-, hcommit⟩ := onStore_cases hcommit
    rcases commit_cases hv hk hcommit with ⟨-, hsame⟩ | ⟨hok, -⟩
    · refine (Cleaned.refl hnone).of_touches hv hk hsame (fun hmem => ?_) fun hmem => ?_
      · exact artifactName_ne_temporaryName (push_inj.1 (Set.mem_singleton_iff.1 hmem))
      · exact sourceName_ne_temporaryName (push_inj.1 (Set.mem_singleton_iff.1 hmem))
    · cases hok
  · obtain ⟨rfl, hcommit⟩ := onStore_cases hcommit
    rcases commit_cases hv hk hcommit with ⟨⟨e', hok⟩, -⟩ | ⟨-, hsame⟩
    · cases hok
    have hsource : v.find (c₁.store.sourcePath key) = w.find (c₁.store.sourcePath key) := by
      refine hsame.find_join hv (isFileName_source hk) ?_
      rintro (hmem | hmem)
      · exact sourceName_ne_temporaryName (push_inj.1 hmem)
      · exact artifactName_ne_sourceName (push_inj.1 (Set.mem_singleton_iff.1 hmem)).symm
    have hcleaned : c₁.store.Cleaned key w v' := by
      rw [bind_apply look_ok] at hload
      cases hloaded : c₁.load w key with
      | error e' =>
        rw [hloaded] at hload
        rcases bind_cases hload with ⟨e'', hevict, -⟩ | ⟨u, c₂, w', hevict, hthrow⟩
        · exact cleaned_evict (hv.of_keeps hsame.keeps) hk (onStore_cases hevict).2
        · obtain ⟨-, hstate⟩ := Prod.mk.inj hthrow
          obtain ⟨-, rfl⟩ := Prod.mk.inj hstate
          exact cleaned_evict (hv.of_keeps hsame.keeps) hk (onStore_cases hevict).2
      | ok kernel? =>
        rw [hloaded] at hload
        cases kernel? with
        | some kernel => cases (Prod.mk.inj hload).1
        | none =>
          obtain ⟨-, hstate⟩ := Prod.mk.inj hload
          obtain ⟨-, rfl⟩ := Prod.mk.inj hstate
          exact .refl (not_file_of_load hloaded)
    exact ⟨hcleaned.artifact, fun bytes hfile => hsource.trans (hcleaned.source bytes hfile)⟩

/-- A source that is not compiled leaves no artifact and no source. -/
theorem compile_error {text : String} {e : CacheError} (hv : v.Enters c.store.root L)
    (hk : IsKey key)
    (hnone : ∀ bytes, v.find (c.store.artifactPath key) ≠ .ok (some (.file bytes)))
    (h : compile key text (c, v) = (.error e, (c', v'))) : c.store.Cleaned key v v' := by
  rcases bind_cases h with ⟨e', hwrite, -⟩ | ⟨p, c₁, v₁, hwrite, hcompile⟩
  · obtain ⟨-, hwrite⟩ := onStore_cases hwrite
    rcases writeSource_cases hv hk hwrite with ⟨-, rfl⟩ | ⟨hok, -⟩
    · exact .refl hnone
    · cases hok
  · obtain ⟨rfl, hwrite⟩ := onStore_cases hwrite
    rcases writeSource_cases hv hk hwrite with ⟨⟨e', hok⟩, -⟩ | ⟨-, hwritten⟩
    · cases hok
    have hv₁ := hv.of_keeps hwritten.keeps
    have hfile := isFileName_artifact hk
    have hne : L.push (artifactName key) ∉ ({L.push (sourceName key)} : Set Location) :=
      fun hmem => artifactName_ne_sourceName (push_inj.1 (Set.mem_singleton_iff.1 hmem))
    have hclean : ∀ {answer w}, c₁.store.removeSource key v₁ = (answer, w) →
        w.Enters c₁.store.root L ∧ c₁.store.Cleaned key v w := by
      intro answer w hremove
      obtain ⟨hgone, hsame⟩ := removeSource_leaves hv₁ hk hremove
      have hartifact : v.find (c₁.store.artifactPath key) = w.find (c₁.store.artifactPath key) :=
        (hwritten.find_join hv hfile hne).trans (hsame.find_join hv₁ hfile hne)
      refine ⟨hv₁.of_keeps hsame.keeps, ?_, fun bytes hsource => absurd hsource (hgone bytes)⟩
      rw [← hartifact]
      exact hnone
    rw [bind_apply (runToolchain_apply _ _)] at hcompile
    rcases bind_cases hcompile with ⟨e', hremove, -⟩ | ⟨u, c₂, v₂, hremove, hpublish⟩
    · exact (hclean (onStore_cases hremove).2).2
    · obtain ⟨rfl, hremoved⟩ := onStore_cases hremove
      obtain ⟨hv₂, hcleaned⟩ := hclean hremoved
      cases hcompiled : c₁.toolchain.compile key text with
      | error e' =>
        rw [hcompiled] at hpublish
        obtain ⟨-, hstate⟩ := Prod.mk.inj hpublish
        obtain ⟨-, rfl⟩ := Prod.mk.inj hstate
        exact hcleaned
      | ok bytes =>
        rw [hcompiled] at hpublish
        cases bytes with
        | nil =>
          obtain ⟨-, hstate⟩ := Prod.mk.inj hpublish
          obtain ⟨-, rfl⟩ := Prod.mk.inj hstate
          exact hcleaned
        | cons b bs =>
          exact hcleaned.trans (publish_error (c := { c₁ with compiles := c₁.compiles + 1 }) hv₂ hk
            hcleaned.artifact hpublish)

/-- A compilation that fails leaves no artifact, and no source that was not there before. -/
theorem build_error {synthesize : Except SourceError Source} {e : CacheError}
    (hv : v.Enters c.store.root L) (hk : IsKey key)
    (hnone : ∀ bytes, v.find (c.store.artifactPath key) ≠ .ok (some (.file bytes)))
    (h : build key synthesize (c, v) = (.error e, (c', v'))) : c.store.Cleaned key v v' := by
  rw [build_eq, bind_apply change_apply] at h
  cases synthesize with
  | error e' =>
    obtain ⟨-, hstate⟩ := Prod.mk.inj h
    obtain ⟨-, rfl⟩ := Prod.mk.inj hstate
    exact .refl hnone
  | ok source => exact compile_error (c := { c with syntheses := c.syntheses + 1 }) hv hk hnone h

/-- A kernel that is neither loaded nor compiled leaves no artifact, and no source that was not
there before. -/
theorem loadOrBuild_error {synthesize : Except SourceError Source} {e : CacheError}
    (hv : v.Enters c.store.root L) (hk : IsKey key)
    (h : loadOrBuild key synthesize (c, v) = (.error e, (c', v'))) :
    c.store.Cleaned key v v' := by
  unfold loadOrBuild at h
  rw [bind_apply look_ok] at h
  cases hload : c.load v key with
  | ok kernel? =>
    rw [hload] at h
    cases kernel? with
    | some kernel => cases (Prod.mk.inj h).1
    | none => exact build_error hv hk (not_file_of_load hload) h
  | error e' =>
    rw [hload] at h
    cases e' with
    | load signature failure =>
      rcases bind_cases h with ⟨e'', hevict, -⟩ | ⟨u, c₁, w, hevict, hbuild⟩
      · exact cleaned_evict hv hk (onStore_cases hevict).2
      · obtain ⟨rfl, hevicted⟩ := onStore_cases hevict
        have hcleaned := cleaned_evict hv hk hevicted
        exact hcleaned.trans (build_error (hv.of_keeps (evict_touches hv hk hevicted).keeps) hk
          hcleaned.artifact hbuild)
    | _ =>
      obtain ⟨-, hstate⟩ := Prod.mk.inj h
      obtain ⟨-, rfl⟩ := Prod.mk.inj hstate
      refine .refl fun bytes hfile => ?_
      rw [load_of_file hfile] at hload
      cases hdecode : Artifact.decode bytes <;> simp only [hdecode] at hload <;> cases hload

/-! ### What else is touched -/

/-- A cache apart from what it counts. -/
def uncounted (c : KernelCache) : KernelCache := { c with syntheses := 0, compiles := 0 }

/-- What the work on a signature may do: only its files are touched and the toolchain runs at most
so often. -/
structure Worked (key : String) (L : Location) (n : Nat) (s s' : KernelCache × Volume) : Prop where
  cache : s'.1.uncounted = s.1.uncounted
  compiles : s'.1.compiles ≤ s.1.compiles + n
  volume : Touches (filesIn L (workNames key)) (filesIn L (workNames key)) s.2 s'.2

/-- A step works on a signature, in whatever directory. -/
def Works (key : String) (n : Nat) (step : Step α) : Prop :=
  ∀ L s, s.2.Enters s.1.store.root L → Worked key L n s (step s).2

theorem Worked.store {s s' : KernelCache × Volume} (h : Worked key L n s s') :
    s'.1.store = s.1.store := by
  show s'.1.uncounted.store = s.1.uncounted.store
  rw [h.cache]

theorem Worked.loaded {s s' : KernelCache × Volume} (h : Worked key L n s s') :
    s'.1.loaded = s.1.loaded := by
  show s'.1.uncounted.loaded = s.1.uncounted.loaded
  rw [h.cache]

theorem Works.bind (hstep : Works key m step) (hnext : ∀ a, Works key n (next a)) :
    Works key (m + n) (step >>= next) := by
  rintro L ⟨c, v⟩ hv
  have hfirst := hstep L (c, v) hv
  obtain ⟨first, c₁, v₁, happly⟩ := exists_outcome step (c, v)
  rw [happly] at hfirst
  cases first with
  | error e =>
    rw [bind_apply_error happly]
    exact ⟨hfirst.cache, Nat.le_trans hfirst.compiles (by omega), hfirst.volume⟩
  | ok a =>
    rw [bind_apply happly]
    have hv₁ : v₁.Enters c₁.store.root L := by
      have hstore : c₁.store = c.store := hfirst.store
      rw [hstore]
      exact hv.of_keeps hfirst.volume.keeps
    have hsecond := hnext a L (c₁, v₁) hv₁
    refine ⟨hsecond.cache.trans hfirst.cache, Nat.le_trans hsecond.compiles ?_,
      hfirst.volume.trans hsecond.volume⟩
    have := hfirst.compiles
    simp only at this ⊢
    omega

theorem Works.mono (h : Works key m step) (hle : m ≤ n) : Works key n step := fun L s hs =>
  ⟨(h L s hs).cache, Nat.le_trans (h L s hs).compiles (Nat.add_le_add_left hle _),
    (h L s hs).volume⟩

theorem works_look (f : KernelCache → Volume → Except CacheError α) : Works key 0 (look f) :=
  fun _ _ _ => ⟨rfl, Nat.le_refl _, .refl _ _ _⟩

theorem works_throw (e : CacheError) : Works key 0 (throw e : Step α) :=
  fun _ _ _ => ⟨rfl, Nat.le_refl _, .refl _ _ _⟩

theorem works_pure (a : α) : Works key 0 (pure a : Step α) :=
  fun _ _ _ => ⟨rfl, Nat.le_refl _, .refl _ _ _⟩

theorem works_onStore {action : ArtifactStore → Volume.Action CacheError α}
    (h : ∀ {s : ArtifactStore} {v v' : Volume} {L : Location} {answer : Except CacheError α},
      v.Enters s.root L → action s v = (answer, v') →
        Touches (filesIn L (workNames key)) (filesIn L (workNames key)) v v') :
    Works key 0 (onStore action) :=
  fun _ _ hs => ⟨rfl, Nat.le_refl _, h hs (Prod.mk.eta).symm⟩

theorem works_runToolchain (text : String) : Works key 1 (runToolchain key text) := by
  rintro L ⟨c, v⟩ -
  rw [runToolchain_apply]
  exact ⟨rfl, Nat.le_refl _, .refl _ _ _⟩

theorem works_change {f : KernelCache → KernelCache} (hf : ∀ c, (f c).uncounted = c.uncounted)
    (hcompiles : ∀ c, (f c).compiles = c.compiles) : Works key 0 (change f) :=
  fun _ s _ => ⟨hf s.1, (hcompiles s.1).le, .refl _ _ _⟩

theorem works_writeSource (hk : IsKey key) (text : String) :
    Works key 0 (onStore (·.writeSource key text)) :=
  works_onStore fun {s v v' L answer} hv h => by
    have hmem : {L.push (sourceName key)} ⊆ filesIn L (workNames key) :=
      Set.singleton_subset_iff.2 (push_mem_filesIn.2 (sourceName_mem_workNames key))
    rcases writeSource_cases hv hk h with ⟨-, rfl⟩ | ⟨-, hsame⟩
    · exact .refl _ _ _
    · exact hsame.mono hmem (Set.empty_subset _)

theorem works_removeSource (hk : IsKey key) : Works key 0 (onStore (·.removeSource key)) :=
  works_onStore fun {s v v' L answer} hv h => by
    have hmem : {L.push (sourceName key)} ⊆ filesIn L (workNames key) :=
      Set.singleton_subset_iff.2 (push_mem_filesIn.2 (sourceName_mem_workNames key))
    exact (removeSource_leaves hv hk h).2.mono hmem hmem

theorem works_commit (hk : IsKey key) (bytes : List UInt8) :
    Works key 0 (onStore (·.commit key bytes)) :=
  works_onStore fun {s v v' L answer} hv h => by
    have htemporary : temporary v L key ∈ filesIn L (workNames key) :=
      push_mem_filesIn.2 (temporaryName_mem_workNames key _)
    have hartifact : L.push (artifactName key) ∈ filesIn L (workNames key) :=
      push_mem_filesIn.2 (artifactName_mem_workNames key)
    have hone := Set.singleton_subset_iff.2 htemporary
    have hboth := Set.pair_subset htemporary hartifact
    rcases commit_cases hv hk h with ⟨-, hsame⟩ | ⟨-, hsame⟩
    · exact hsame.mono hone hone
    · exact hsame.mono hboth hboth

theorem works_evict (hk : IsKey key) : Works key 0 (onStore (·.evict key)) :=
  works_onStore fun {s v v' L answer} hv h => by
    have hboth : {L.push (artifactName key), L.push (sourceName key)} ⊆
        filesIn L (workNames key) :=
      Set.pair_subset (push_mem_filesIn.2 (artifactName_mem_workNames key))
        (push_mem_filesIn.2 (sourceName_mem_workNames key))
    exact (evict_touches hv hk h).mono hboth hboth

theorem works_publish (hk : IsKey key) (bytes : List UInt8) : Works key 0 (publish key bytes) := by
  refine Works.bind (m := 0) (n := 0) (works_commit hk bytes) fun p => ?_
  refine Works.bind (m := 0) (n := 0) (works_look _) fun loaded => ?_
  rcases loaded with e | _ | kernel
  · exact Works.bind (m := 0) (n := 0) (works_evict hk) fun _ => works_throw e
  · exact works_throw _
  · exact works_pure kernel

theorem works_compile (hk : IsKey key) (text : String) : Works key 1 (compile key text) := by
  refine Works.bind (m := 0) (n := 1) (works_writeSource hk text) fun p => ?_
  refine Works.bind (m := 1) (n := 0) (works_runToolchain text) fun compiled => ?_
  refine Works.bind (m := 0) (n := 0) (works_removeSource hk) fun u => ?_
  rcases compiled with e | _ | ⟨b, bs⟩
  · exact works_throw e
  · exact Works.bind (m := 0) (n := 0) (works_look _) fun name => works_throw _
  · exact works_publish hk (b :: bs)

theorem works_build (hk : IsKey key) (synthesize : Except SourceError Source) :
    Works key 1 (build key synthesize) := by
  rw [build_eq]
  refine Works.bind (m := 0) (n := 1) (works_change (fun _ => rfl) fun _ => rfl) fun u => ?_
  cases synthesize with
  | error e => exact (works_throw _).mono (Nat.zero_le 1)
  | ok source => exact works_compile hk source.text

theorem works_loadOrBuild (hk : IsKey key) (synthesize : Except SourceError Source) :
    Works key 1 (loadOrBuild key synthesize) := by
  refine Works.bind (m := 0) (n := 1) (works_look _) fun loaded => ?_
  rcases loaded with e | _ | kernel
  · cases e with
    | load signature failure =>
      exact Works.bind (m := 0) (n := 1) (works_evict hk) fun _ => works_build hk synthesize
    | _ => exact (works_throw _).mono (Nat.zero_le 1)
  · exact works_build hk synthesize
  · exact (works_pure kernel).mono (Nat.zero_le 1)

/-! ### Failing cleanly -/

/-- What a request that failed leaves behind. -/
structure FailsCleanly (signature : Signature) (c c' : KernelCache) (v v' : Volume) : Prop where
  /-- the cache remembers the same kernels -/
  loaded : c'.loaded = c.loaded
  /-- the toolchain ran at most once -/
  compiles : c'.compiles ≤ c.compiles + 1
  /-- nothing is touched but files of the signature -/
  elsewhere : ∀ l, (∀ L, v.Enters c.store.root L → l ∉ filesIn L (names signature.key)) →
    v'.node? l = v.node? l
  /-- all files of all other signatures are found as before -/
  others : ∀ other : Signature, other.key ≠ signature.key → ∀ name ∈ names other.key,
    v'.find (c.store.root.join name) = v.find (c.store.root.join name)
  /-- a source that is there was there before -/
  source : ∀ bytes, v'.read (c.store.sourcePath signature.key) = .ok bytes →
    v.read (c.store.sourcePath signature.key) = .ok bytes
  /-- once the lock was taken, no artifact is left, whether it would open or not -/
  artifact : c.CanLock v signature.key →
    ∀ bytes, v'.read (c.store.artifactPath signature.key) ≠ .ok bytes
  /-- a lock that was taken is free again -/
  free : c.CanLock v signature.key → c'.CanLock v' signature.key
  /-- where the lock is not taken, the cache and all artifacts and sources are as before -/
  waiting : ¬c.CanLock v signature.key → c' = c ∧ ∀ other : Signature,
    v'.find (c.store.artifactPath other.key) = v.find (c.store.artifactPath other.key) ∧
      v'.find (c.store.sourcePath other.key) = v.find (c.store.sourcePath other.key)

variable {signature : Signature} {synthesize : Except SourceError Source} {e : CacheError}

/-- A request whose lock is not taken touches the file of the lock at most. -/
theorem failsCleanly_of_touchesIn (h : ¬c.CanLock v signature.key)
    (hsame : c.store.TouchesIn {lockName signature.key} ∅ v v') :
    FailsCleanly signature c c v v' := by
  have hfind : ∀ other : Signature, ∀ name ∈ names other.key, name ≠ lockName signature.key →
      v'.find (c.store.root.join name) = v.find (c.store.root.join name) :=
    fun other name hname hne => hsame.find (isFileName_of_mem_names other.isKey_key hname) hne
  have hartifact : ∀ other : Signature,
      v'.find (c.store.artifactPath other.key) = v.find (c.store.artifactPath other.key) :=
    fun other => hfind other _ (Or.inr (artifactName_mem_workNames _)) artifactName_ne_lockName
  have hsource : ∀ other : Signature,
      v'.find (c.store.sourcePath other.key) = v.find (c.store.sourcePath other.key) :=
    fun other => hfind other _ (Or.inr (sourceName_mem_workNames _)) sourceName_ne_lockName
  exact
    { loaded := rfl
      compiles := Nat.le_succ _
      elsewhere := fun l hl => hsame.node? fun L hv hmem =>
        hl L hv (filesIn_mono (Set.singleton_subset_iff.2 (Set.mem_insert _ _)) hmem)
      others := fun other hother name hname => hfind other name hname fun heq =>
        hother (key_eq_of_mem_names hname (heq ▸ Set.mem_insert _ _))
      source := fun bytes hbytes => by
        rw [read_eq_ok_iff] at hbytes ⊢
        rwa [← hsource]
      artifact := fun hcan => absurd hcan h
      free := fun hcan => absurd hcan h
      waiting := fun _ => ⟨rfl, fun other => ⟨hartifact other, hsource other⟩⟩ }

/-- A request that fails under the lock touches the files of its signature only, and cleans up. -/
theorem failsCleanly_of_build {w : Volume} (h : c.CanLock v signature.key)
    (hv : v.Enters c.store.root L)
    (hlocate : v.locate (c.store.lockPath signature.key) = .ok (L.push (lockName signature.key)))
    (hfile : v.node? (L.push (lockName signature.key)) ≠ some .directory)
    (hfree : v.isLocked (L.push (lockName signature.key)) = false)
    (hbuild : loadOrBuild signature.key synthesize (c, withLock v L signature.key) =
      (.error e, (c', w))) : FailsCleanly signature c c' v (w.unlock v.fresh) := by
  have hk := signature.isKey_key
  have hlocked := touches_withLock hfile
  have hv₀ := hv.of_keeps hlocked.keeps
  have hworked : Worked signature.key L 1 (c, withLock v L signature.key)
      (loadOrBuild signature.key synthesize (c, withLock v L signature.key)).2 :=
    works_loadOrBuild hk synthesize L _ hv₀
  rw [hbuild] at hworked
  obtain ⟨hsame, hunlocked⟩ := touches_underLock hfile hfree hworked.volume
  have hstore : c'.store = c.store := hworked.store
  have hclean : c.store.Cleaned signature.key v (w.unlock v.fresh) := by
    have hcleaned := loadOrBuild_error hv₀ hk hbuild
    have hsource : v.find (c.store.sourcePath signature.key) =
        (withLock v L signature.key).find (c.store.sourcePath signature.key) :=
      hlocked.find_join hv (isFileName_source hk) fun hmem =>
        sourceName_ne_lockName (push_inj.1 (Set.mem_singleton_iff.1 hmem))
    refine Cleaned.of_touches (w := w) ⟨hcleaned.artifact, fun bytes hbytes => ?_⟩
      (hv₀.of_keeps hworked.volume.keeps) hk (touches_unlock w v.fresh) (Set.notMem_empty _)
      (Set.notMem_empty _)
    rw [hsource]
    exact hcleaned.source bytes hbytes
  exact
    { loaded := hworked.loaded
      compiles := hworked.compiles
      elsewhere := fun l hl => (hsame.nodes l (hl L hv)).symm
      others := fun other hother name hname =>
        (hsame.find_join hv (isFileName_of_mem_names other.isKey_key hname) fun hmem =>
          hother (key_eq_of_mem_names hname (push_mem_filesIn.1 hmem))).symm
      source := fun bytes hbytes => by
        rw [read_eq_ok_iff] at hbytes ⊢
        exact hclean.source bytes hbytes
      artifact := fun _ bytes hbytes => hclean.artifact bytes (read_eq_ok_iff.1 hbytes)
      free := fun _ => by
        rw [canLock_iff, hstore]
        exact ⟨_, hsame.locate.1 hlocate, fun heq => hfile ((hsame.directories _).2 heq), hunlocked⟩
      waiting := fun hnot => absurd h hnot }

/-- Whatever the toolchain and the source are, and whatever the cache and its directory hold: a
request for a kernel that fails leaves the kernels that the cache remembers and the files of all
other signatures as they were.  No artifact and no new source is left of its own signature, the
lock is free again, and the toolchain ran at most once.  If the lock could not be taken, nothing
was touched but perhaps the file of the lock. -/
theorem obtain_fails_cleanly (h : obtain signature synthesize (c, v) = (.error e, (c', v'))) :
    FailsCleanly signature c c' v v' := by
  unfold obtain at h
  rw [bind_apply (look_ok (f := fun c _ => c.memoized? signature.key))] at h
  cases hmemo : c.memoized? signature.key with
  | some kernel =>
    rw [hmemo] at h
    cases (Prod.mk.inj h).1
  | none =>
    rw [hmemo] at h
    rcases underLock_cases signature.isKey_key h with ⟨hcan, -, rfl, hsame⟩ |
      ⟨L, w, hcan, hv, hlocate, hfile, hfree, hstep, rfl⟩
    · exact failsCleanly_of_touchesIn hcan hsame
    · have hbuild : loadOrBuild signature.key synthesize (c, withLock v L signature.key) =
          (.error e, (c', w)) := by
        rcases bind_cases hstep with ⟨e', hbuild, heq⟩ | ⟨kernel, c₁, w₁, -, hreturn⟩
        · rw [hbuild, heq]
        · cases (Prod.mk.inj hreturn).1
      exact failsCleanly_of_build hcan hv hlocate hfile hfree hbuild

/-! ### A toolchain whose output does not open -/

/-- A cache whose toolchain gives one byte, whatever the source is. -/
def garbling : KernelCache := ⟨⟨⟨"/"⟩⟩, ⟨"garbling", fun _ _ => .ok [0]⟩, none, ∅, 0, 0⟩

/-- A directory with one artifact, which does not open. -/
def leftover (key : String) : Volume := ({} : Volume).written (#[].push (artifactName key)) [0]

theorem becomes_leftover (key : String) : Becomes {} (leftover key) #[] none
    (Function.update (({} : Volume).content? #[]) (artifactName key) (some [0])) := by
  have hfiles : ∀ name, ({} : Volume).node? (#[].push name) ≠ some .directory := fun name => by
    rw [Session.vacant_top.empty]
    simp
  have hserves : ({} : Volume).Serves #[] none := ⟨rfl, hfiles, fun _ hlock => by cases hlock⟩
  exact hserves.becomes_update (some [0]) (node?_written (hfiles _)) fun _ hlock => by cases hlock

/-- The artifact that was left and the one that is compiled do not open, and neither is there in the
end. -/
theorem obtain_fails_cleanly_garbled : ∃ v', obtain (.ofSpec Session.single 600)
      (.ok ⟨Template.lower Session.single .inPlace 600, ""⟩)
      (garbling, leftover (Signature.ofSpec Session.single 600).key) =
        (.error (.load (Signature.ofSpec Session.single 600).key (.artifact (.truncated 1))),
          (garbling.counted 1, v')) ∧
    FailsCleanly (.ofSpec Session.single 600) garbling (garbling.counted 1)
      (leftover (Signature.ofSpec Session.single 600).key) v' := by
  have hleft := becomes_leftover (Signature.ofSpec Session.single 600).key
  have hleads :
      (leftover (Signature.ofSpec Session.single 600).key).Leads garbling.store.root #[] :=
    Session.leads_top.of_keeps hleft.keeps
  have hclosed : (leftover (Signature.ofSpec Session.single 600).key).template? #[]
      (Signature.ofSpec Session.single 600).key = none := by
    rw [Volume.template?, Volume.artifact?, hleft.content, Function.update_self]
    rfl
  obtain ⟨v', hobtain, -⟩ := obtain_unloadable ⟨Template.lower Session.single .inPlace 600, ""⟩
    hleft.serves hleads hclosed (Table.get?_empty _) rfl (List.cons_ne_nil 0 []) rfl
  exact ⟨v', hobtain, obtain_fails_cleanly hobtain⟩

end KernelCache

end Collate
