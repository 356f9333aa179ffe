import Collate.Proofs.Cache.Obtaining
import Collate.Proofs.Template.Lowering

/-!
# Caches over one directory

Any number of caches with the standard toolchain work over one directory, in which artifacts are
also deleted, or overwritten by bytes that do not open (`Session.Step`).  As long as all requests
for a signature bring the same template, every kernel that a cache remembers and every artifact that
opens holds the template of its signature (`Session.Good`), and so does every kernel that is
obtained (`Session.obtain_template`).
-/

namespace Collate

/-- Caches with the volume under them. -/
structure Session where
  caches : List KernelCache
  volume : Volume

namespace Session

open ArtifactStore (artifactName)

variable {templates : String → Template} {L : Location} {s s' : Session} {v v' : Volume}
  {key : String}

/-- What happens to caches over one directory, where a signature stands for one template. -/
inductive Step (templates : String → Template) (L : Location) : Session → Session → Prop
  /-- a cache is opened over the directory, by any path -/
  | opened {s : Session} {config : Config} {c : KernelCache} {v : Volume}
      (hp : s.volume.Leads ⟨config.cacheDir⟩ L)
      (h : KernelCache.opened config .standard s.volume = (.ok c, v)) :
      Step templates L s ⟨s.caches ++ [c], v⟩
  /-- a kernel is obtained from one of the caches -/
  | obtained {s : Session} {i : Nat} {c c' : KernelCache} {v : Volume} {signature : Signature}
      {answer : Except CacheError LoadedKernel} (hc : s.caches[i]? = some c)
      (ht : (templates signature.key).Portable)
      (h : KernelCache.obtain signature
        (.ok ⟨templates signature.key, (templates signature.key).source⟩) (c, s.volume) =
          (answer, (c', v))) : Step templates L s ⟨s.caches.set i c', v⟩
  /-- one of the caches forgets a signature -/
  | evicted {s : Session} {i : Nat} {c c' : KernelCache} {v : Volume} {signature : Signature}
      {answer : Except CacheError Unit} (hc : s.caches[i]? = some c)
      (h : KernelCache.evict signature (c, s.volume) = (answer, (c', v))) :
      Step templates L s ⟨s.caches.set i c', v⟩
  /-- an artifact is deleted, by any path -/
  | deleted {s : Session} {p : Path} {key : String} {answer : Except IoError Unit} {v : Volume}
      (hp : s.volume.locate p = .ok (L.push (artifactName key)))
      (h : Volume.remove p s.volume = (answer, v)) : Step templates L s ⟨s.caches, v⟩
  /-- an artifact is overwritten by bytes that do not open -/
  | overwritten {s : Session} {p : Path} {key : String} {bytes : List UInt8} {e : ArtifactError}
      {answer : Except IoError Unit} {v : Volume}
      (hp : s.volume.locate p = .ok (L.push (artifactName key)))
      (hbytes : Artifact.decode bytes = .error e)
      (h : Volume.write p bytes s.volume = (answer, v)) : Step templates L s ⟨s.caches, v⟩

/-- The cache works over the directory and remembers only kernels of their templates. -/
structure GoodCache (templates : String → Template) (L : Location) (v : Volume) (c : KernelCache) :
    Prop where
  leads : v.Leads c.store.root L
  toolchain : c.toolchain = .standard
  loaded : ∀ key kernel, c.memoized? key = some kernel → kernel.template = templates key

/-- The directory holds files, and its artifacts open to their templates, if they open. -/
structure GoodVolume (templates : String → Template) (L : Location) (v : Volume) : Prop where
  serves : v.Serves L none
  artifacts : ∀ key t, v.template? L key = some t → t = templates key

/-- The invariant of sessions. -/
structure Good (templates : String → Template) (L : Location) (s : Session) : Prop where
  volume : GoodVolume templates L s.volume
  caches : ∀ c ∈ s.caches, GoodCache templates L s.volume c

/-! ### Artifacts that are changed -/

theorem template?_update {bytes : Option (List UInt8)}
    (h : v'.artifact? L = Function.update (v.artifact? L) key bytes) (other : String) :
    v'.template? L other = if other = key then bytes.bind fun b => (Artifact.decode b).toOption
      else v.template? L other := by
  rw [Volume.template?, h, Function.update_apply]
  split_ifs <;> rfl

/-- An artifact that is gone or does not open does no harm. -/
theorem GoodVolume.update {bytes : Option (List UInt8)} (hv : GoodVolume templates L v)
    (h : v.Stores v' L none (Function.update (v.artifact? L) key bytes))
    (hbytes : (bytes.bind fun b => (Artifact.decode b).toOption) = none) :
    GoodVolume templates L v' := by
  refine ⟨h.serves, fun other t ht => ?_⟩
  rw [template?_update h.artifacts, hbytes] at ht
  split_ifs at ht
  exact hv.artifacts other t ht

/-- An artifact may be replaced by the one of its template. -/
theorem GoodVolume.renewed (hv : GoodVolume templates L v) (ht : (templates key).Portable)
    (h : v.Stores v' L none (v.renewed L key (templates key))) : GoodVolume templates L v' := by
  have hartifacts := h.artifacts
  refine ⟨h.serves, fun other t hother => ?_⟩
  cases hopens : v.template? L key with
  | some t' =>
    rw [Volume.renewed, hopens] at hartifacts
    rw [Volume.template?_of_artifact? hartifacts] at hother
    exact hv.artifacts other t hother
  | none =>
    rw [Volume.renewed, hopens] at hartifacts
    rw [template?_update hartifacts, Option.bind_some, Artifact.decode_encode ht] at hother
    split_ifs at hother with heq
    · rw [heq]
      exact (Option.some.inj hother).symm
    · exact hv.artifacts other t hother

theorem GoodCache.of_keeps {c : KernelCache} (hc : GoodCache templates L v c)
    (h : Volume.Keeps v v') : GoodCache templates L v' c :=
  ⟨hc.leads.of_keeps h, hc.toolchain, hc.loaded⟩

/-! ### What a step keeps -/

/-- The volume is changed, and no cache but one. -/
theorem Good.set {i : Nat} {c' : KernelCache} (hs : Good templates L s)
    (hv : GoodVolume templates L v') (hk : Volume.Keeps s.volume v')
    (hc : GoodCache templates L v' c') : Good templates L ⟨s.caches.set i c', v'⟩ := by
  refine ⟨hv, fun c hmem => ?_⟩
  rcases List.mem_or_eq_of_mem_set hmem with hmem | rfl
  · exact (hs.caches c hmem).of_keeps hk
  · exact hc

theorem opened_of_validate {config : Config} (hvalid : config.validate = .ok ())
    (hp : v.Leads ⟨config.cacheDir⟩ L) (hL : v.node? L = some .directory) (toolchain : Toolchain) :
    KernelCache.opened config toolchain v =
      (.ok { store := ⟨⟨config.cacheDir⟩⟩, toolchain, lockTimeout := config.lockTimeoutMs },
        v) := by
  have hmake : ArtifactStore.opened ⟨config.cacheDir⟩ v = (.ok ⟨⟨config.cacheDir⟩⟩, v) := by
    rw [ArtifactStore.opened, Volume.bind_apply
      (ArtifactStore.reportedAt_apply (Volume.Leads.makeDirectory_of_locate hp.locate hL))]
    rfl
  unfold KernelCache.opened
  simp only [hvalid]
  rw [Volume.bind_apply hmake]
  rfl

theorem Good.opened {config : Config} {c : KernelCache} (hs : Good templates L s)
    (hp : s.volume.Leads ⟨config.cacheDir⟩ L)
    (h : KernelCache.opened config .standard s.volume = (.ok c, v)) :
    Good templates L ⟨s.caches ++ [c], v⟩ := by
  cases hvalid : config.validate with
  | error e =>
    unfold KernelCache.opened at h
    simp only [hvalid] at h
    cases h
  | ok u =>
    rw [opened_of_validate hvalid hp hs.volume.serves.directory] at h
    obtain ⟨hc, rfl⟩ := Prod.mk.inj h
    obtain rfl := Except.ok.inj hc
    refine ⟨hs.volume, fun c' hmem => ?_⟩
    rcases List.mem_append.1 hmem with hmem | hmem
    · exact hs.caches c' hmem
    · obtain rfl := List.mem_singleton.1 hmem
      refine ⟨hp, rfl, fun key kernel hkernel => ?_⟩
      rw [KernelCache.memoized?, Table.get?_empty] at hkernel
      cases hkernel

/-- What a cache does to obtain a kernel. -/
theorem GoodVolume.obtain_apply {c : KernelCache} {signature : Signature}
    (hv : GoodVolume templates L v) (hc : GoodCache templates L v c)
    (ht : (templates signature.key).Portable) :
    ∃ kernel c' v', KernelCache.obtain signature
        (.ok ⟨templates signature.key, (templates signature.key).source⟩) (c, v) =
          (.ok kernel, (c', v')) ∧
      kernel.template = templates signature.key ∧
      (c'.syntheses = c.syntheses + (if c.memoized? signature.key = none ∧
          v.template? L signature.key = none then 1 else 0) ∧
        c'.compiles = c.compiles + (if c.memoized? signature.key = none ∧
          v.template? L signature.key = none then 1 else 0)) ∧
      GoodVolume templates L v' ∧ Volume.Keeps v v' ∧ GoodCache templates L v' c' := by
  cases hmemo : c.memoized? signature.key with
  | some kernel =>
    refine ⟨kernel, c, v, KernelCache.obtain_of_memoized hmemo, hc.loaded _ _ hmemo, ?_, hv,
      .refl v, hc⟩
    simp
  | none =>
    obtain ⟨v', hobtain, hstores⟩ := KernelCache.obtain_apply hv.serves hc.leads hc.toolchain ht
      (hv.artifacts signature.key) hmemo
    refine ⟨_, _, v', hobtain, rfl, ?_, hv.renewed ht hstores, hstores.keeps,
      hc.leads.of_keeps hstores.keeps, hc.toolchain, fun key kernel hkernel => ?_⟩
    · simp [KernelCache.counted]
    · rw [KernelCache.memoized?, Table.get?_insert] at hkernel
      split_ifs at hkernel with heq
      · rw [heq, ← Option.some.inj hkernel]
      · exact hc.loaded key kernel hkernel

theorem GoodVolume.evict {c c' : KernelCache} {signature : Signature}
    {answer : Except CacheError Unit} (hv : GoodVolume templates L v)
    (hc : GoodCache templates L v c)
    (h : KernelCache.evict signature (c, v) = (answer, (c', v'))) :
    GoodVolume templates L v' ∧ Volume.Keeps v v' ∧ GoodCache templates L v' c' := by
  obtain ⟨w, hevict, hstores⟩ : ∃ w, KernelCache.evict signature (c, v) = _ ∧ _ :=
    KernelCache.evict_apply hv.serves hc.leads
  rw [hevict] at h
  obtain ⟨-, h⟩ := Prod.mk.inj h
  obtain ⟨rfl, rfl⟩ := Prod.mk.inj h
  refine ⟨hv.update hstores rfl, hstores.keeps, hc.leads.of_keeps hstores.keeps, hc.toolchain,
    fun key kernel hkernel => ?_⟩
  rw [KernelCache.memoized?, Table.get?_erase] at hkernel
  split_ifs at hkernel
  exact hc.loaded key kernel hkernel

theorem Good.deleted {p : Path} {answer : Except IoError Unit} (hs : Good templates L s)
    (hp : s.volume.locate p = .ok (L.push (artifactName key)))
    (h : Volume.remove p s.volume = (answer, v)) : Good templates L ⟨s.caches, v⟩ := by
  have hv := hs.volume
  cases hcontent : s.volume.content? L (artifactName key) with
  | none =>
    rw [Volume.remove_of_content_none hv.serves hp hcontent] at h
    obtain ⟨-, rfl⟩ := Prod.mk.inj h
    exact hs
  | some bytes =>
    obtain ⟨w, hremove, hbecomes⟩ := Volume.remove_of_content_some hv.serves hp hcontent
    rw [hremove] at h
    obtain ⟨-, rfl⟩ := Prod.mk.inj h
    exact ⟨hv.update hbecomes.stores_artifact rfl,
      fun c hc => (hs.caches c hc).of_keeps hbecomes.keeps⟩

theorem Good.overwritten {p : Path} {bytes : List UInt8} {e : ArtifactError}
    {answer : Except IoError Unit} (hs : Good templates L s)
    (hp : s.volume.locate p = .ok (L.push (artifactName key)))
    (hbytes : Artifact.decode bytes = .error e)
    (h : Volume.write p bytes s.volume = (answer, v)) : Good templates L ⟨s.caches, v⟩ := by
  have hv := hs.volume
  cases hslash : p.endsInSlash with
  | true =>
    have hsame := Volume.write_of_endsInSlash (v := s.volume) hslash bytes
    rw [h] at hsame
    obtain rfl : v = s.volume := hsame
    exact hs
  | false =>
    obtain ⟨w, hwrite, hbecomes⟩ := Volume.write_of_locate hv.serves hp hslash bytes
    rw [hwrite] at h
    obtain ⟨-, rfl⟩ := Prod.mk.inj h
    refine ⟨hv.update hbecomes.stores_artifact ?_,
      fun c hc => (hs.caches c hc).of_keeps hbecomes.keeps⟩
    rw [Option.bind_some, hbytes]
    rfl

/-- The invariant is kept, whatever happens next. -/
theorem Good.step (hs : Good templates L s) (h : Step templates L s s') : Good templates L s' := by
  cases h with
  | opened hp h => exact hs.opened hp h
  | obtained hc ht h =>
    have hcache := hs.caches _ (List.mem_of_getElem? hc)
    obtain ⟨kernel, c', v', hobtain, -, -, hv, hkeeps, hc'⟩ := hs.volume.obtain_apply hcache ht
    rw [hobtain] at h
    obtain ⟨-, h⟩ := Prod.mk.inj h
    obtain ⟨rfl, rfl⟩ := Prod.mk.inj h
    exact hs.set hv hkeeps hc'
  | evicted hc h =>
    obtain ⟨hv, hkeeps, hc'⟩ := hs.volume.evict (hs.caches _ (List.mem_of_getElem? hc)) h
    exact hs.set hv hkeeps hc'
  | deleted hp h => exact hs.deleted hp h
  | overwritten hp hbytes h => exact hs.overwritten hp hbytes h

/-! ### Sessions -/

/-- An empty directory without locks. -/
structure Vacant (v : Volume) (L : Location) : Prop where
  directory : v.node? L = some .directory
  empty : ∀ name, v.node? (L.push name) = none
  locks : ∀ lock ∈ v.locks, ∀ name, lock.2 ≠ L.push name

theorem Vacant.serves (h : Vacant v L) : v.Serves L none where
  directory := h.directory
  files name hname := by
    rw [h.empty] at hname
    cases hname
  locks lock hlock name hname := absurd hname (h.locks lock hlock name)

theorem Vacant.content?_eq (h : Vacant v L) : v.content? L = fun _ => none := by
  funext name
  rw [Volume.content?, h.empty]
  rfl

theorem Vacant.template?_eq_none (h : Vacant v L) (key : String) : v.template? L key = none := by
  rw [Volume.template?, Volume.artifact?, h.content?_eq]
  rfl

/-- The invariant holds before the first cache is opened over an empty directory. -/
theorem Vacant.good (h : Vacant v L) : Good templates L ⟨[], v⟩ := by
  refine ⟨⟨h.serves, fun key t ht => ?_⟩, fun c hc => absurd hc List.not_mem_nil⟩
  rw [h.template?_eq_none] at ht
  cases ht

theorem Good.run (hs : Good templates L s) (h : Relation.ReflTransGen (Step templates L) s s') :
    Good templates L s' := by
  induction h with
  | refl => exact hs
  | tail _ hstep ih => exact ih.step hstep

/-! ### A directory at the top of a volume -/

/-- A directory at the top of a volume, and a wait of no more than five milliseconds for a lock. -/
def topConfig : Config := { cacheDir := "/", lockTimeoutMs := some 5 }

/-- The cache that is opened at the top of a volume. -/
def topCache : KernelCache := ⟨⟨⟨"/"⟩⟩, .standard, some 5, ∅, 0, 0⟩

theorem vacant_top : Vacant {} #[] :=
  ⟨rfl, fun _ => if_neg Array.push_ne_empty, fun _ hlock => absurd hlock List.not_mem_nil⟩

theorem leads_top : Volume.Leads {} ⟨"/"⟩ #[] := by
  have hroom : "/".utf8ByteSize + Volume.storeNameLength ≤ Volume.maxPathLength := by
    have hslash : "/".utf8ByteSize = 1 := rfl
    rw [hslash]
    decide
  exact ⟨Volume.Leads.locate_top, hroom⟩

theorem opened_top (h : v.Leads ⟨"/"⟩ #[]) :
    KernelCache.opened topConfig .standard v = (.ok topCache, v) :=
  opened_of_validate (by decide) h rfl .standard

/-- Whatever happened in a directory that was empty, every kernel that is obtained has the template
of its signature; and it is made, by one synthesis and one compilation, exactly where the cache does
not remember it and no artifact of it opens. -/
theorem obtain_template {i : Nat} {c : KernelCache} {signature : Signature} (hv : Vacant v L)
    (hrun : Relation.ReflTransGen (Step templates L) ⟨[], v⟩ s) (hc : s.caches[i]? = some c)
    (ht : (templates signature.key).Portable) :
    ∃ kernel c' v', KernelCache.obtain signature
        (.ok ⟨templates signature.key, (templates signature.key).source⟩) (c, s.volume) =
          (.ok kernel, (c', v')) ∧
      kernel.template = templates signature.key ∧
      c'.syntheses = c.syntheses + (if c.memoized? signature.key = none ∧
        s.volume.template? L signature.key = none then 1 else 0) ∧
      c'.compiles = c.compiles + (if c.memoized? signature.key = none ∧
        s.volume.template? L signature.key = none then 1 else 0) := by
  have hs : Good templates L s := hv.good.run hrun
  obtain ⟨kernel, c', v', hobtain, htemplate, ⟨hsyntheses, hcompiles⟩, -⟩ :=
    hs.volume.obtain_apply (hs.caches c (List.mem_of_getElem? hc)) ht
  exact ⟨kernel, c', v', hobtain, htemplate, hsyntheses, hcompiles⟩

/-- A request to sort one column of numbers. -/
def single : SortSpec where
  columns := [⟨"k", .int32, true⟩]
  firstKey := ⟨0, by decide⟩
  otherKeys := []
  nullOrder := .first
  direction := .ascending

theorem portable_single : (Template.lower single .inPlace 600).Portable where
  valid := Template.valid_lower (by decide) fun _ => ⟨rfl, rfl⟩
  batchSize := by decide
  fields := by decide
  nesting := by decide

/-- A kernel is obtained, its artifact is overwritten by a byte, and a second cache is opened. -/
theorem exists_run_overwritten (templates : String → Template) (signature : Signature)
    (ht : (templates signature.key).Portable) : ∃ c v,
    Relation.ReflTransGen (Step templates #[]) ⟨[], {}⟩ ⟨[c, topCache], v⟩ ∧
      v.artifact? #[] signature.key = some [0] := by
  have hopened : Step templates #[] ⟨[], {}⟩ ⟨[topCache], {}⟩ :=
    .opened leads_top (opened_top leads_top)
  have hgood : Good templates #[] ⟨[topCache], {}⟩ := vacant_top.good.step hopened
  obtain ⟨kernel, c, v, hobtain, -, -, hv, hkeeps, -⟩ :=
    hgood.volume.obtain_apply (hgood.caches topCache List.mem_cons_self) ht
  have hobtained : Step templates #[] ⟨[topCache], {}⟩ ⟨[c], v⟩ := .obtained (i := 0) rfl ht hobtain
  have hname : IsFileName (artifactName signature.key) :=
    ArtifactStore.isFileName_extension signature.isKey_key (by decide : "kernel" ∈ _)
  have hlocate : v.locate (topCache.store.artifactPath signature.key) =
      .ok (#[].push (artifactName signature.key)) :=
    ArtifactStore.locate_file hv.serves (leads_top.of_keeps hkeeps) hname
  obtain ⟨w, hwrite, hbecomes⟩ := Volume.write_of_locate hv.serves hlocate
    (Path.endsInSlash_join topCache.store.root hname.toIsName) [0]
  have hoverwritten : Step templates #[] ⟨[c], v⟩ ⟨[c], w⟩ :=
    .overwritten hlocate (rfl : Artifact.decode [0] = .error _) hwrite
  have hleads := leads_top.of_keeps (hkeeps.trans hbecomes.keeps)
  refine ⟨c, w, .tail (.tail (.tail (.single hopened) hobtained) hoverwritten)
    (.opened hleads (opened_top hleads)), ?_⟩
  rw [hbecomes.stores_artifact.artifacts, Function.update_self]

theorem obtain_template_overwritten : ∃ c v,
    Relation.ReflTransGen (Step (fun _ => Template.lower single .inPlace 600) #[]) ⟨[], {}⟩
        ⟨[c, topCache], v⟩ ∧
      v.artifact? #[] (Signature.ofSpec single 600).key = some [0] ∧
      ∃ kernel c' v', KernelCache.obtain (.ofSpec single 600)
          (.ok ⟨Template.lower single .inPlace 600, (Template.lower single .inPlace 600).source⟩)
          (topCache, v) = (.ok kernel, (c', v')) ∧
        kernel.template = Template.lower single .inPlace 600 ∧ c'.syntheses = 1 ∧
          c'.compiles = 1 := by
  obtain ⟨c, v, hrun, hartifact⟩ := exists_run_overwritten
    (fun _ => Template.lower single .inPlace 600) (.ofSpec single 600) portable_single
  have hnew : topCache.memoized? (Signature.ofSpec single 600).key = none ∧
      v.template? #[] (Signature.ofSpec single 600).key = none := by
    refine ⟨Table.get?_empty _, ?_⟩
    rw [Volume.template?, hartifact]
    rfl
  obtain ⟨kernel, c', v', hobtain, htemplate, hsyntheses, hcompiles⟩ :=
    obtain_template (i := 1) vacant_top hrun rfl portable_single
  rw [if_pos hnew] at hsyntheses hcompiles
  exact ⟨c, v, hrun, hartifact, kernel, c', v', hobtain, htemplate, hsyntheses, hcompiles⟩

end Session

end Collate
