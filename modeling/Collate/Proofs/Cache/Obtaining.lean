import Collate.Cache.KernelCache
import Collate.Proofs.Artifact
import Collate.Proofs.Cache.Store

/-!
# Obtaining and evicting kernels

What a cache with the standard toolchain does over a directory in which all artifacts of a signature
that open hold the same template: it remembers, loads or compiles the kernel with this template
(`KernelCache.obtain_apply`), and counts one synthesis and one compilation where it compiles.  A
kernel whose source is refused is not answered (`KernelCache.obtain_refused`).
-/

namespace Collate

namespace Volume

variable {v : Volume} {L : Location} {key : String} {t : Template}

/-- The template of the artifact of a signature, if the artifact is there and opens. -/
def template? (v : Volume) (L : Location) (key : String) : Option Template :=
  (v.artifact? L key).bind fun bytes => (Artifact.decode bytes).toOption

/-- The artifacts after the one of a signature was replaced, unless it opens. -/
def renewed (v : Volume) (L : Location) (key : String) (t : Template) :
    String → Option (List UInt8) :=
  match v.template? L key with
  | some _ => v.artifact? L
  | none => Function.update (v.artifact? L) key (some (Artifact.encode t))

theorem template?_of_artifact? {v' : Volume} (h : v'.artifact? L = v.artifact? L) :
    v'.template? L key = v.template? L key := by
  rw [template?, template?, h]

theorem renewed_of_artifact? {v' : Volume} (h : v'.artifact? L = v.artifact? L) :
    v'.renewed L key t = v.renewed L key t := by
  rw [renewed, renewed, template?_of_artifact? h, h]

end Volume

namespace KernelCache

open Volume (Stores Serves Leads)

variable {α β : Type} {c c' : KernelCache} {v v' : Volume} {L : Location} {own : Option Nat}
  {key : String} {t : Template}

/-! ### Steps in a row -/

theorem bind_apply {step : Step α} {next : α → Step β} {a : α}
    (h : step (c, v) = (.ok a, (c', v'))) : (step >>= next) (c, v) = next a (c', v') := by
  show ExceptT.bindCont next (step (c, v)).1 (step (c, v)).2 = _
  rw [h]
  rfl

theorem bind_apply_error {step : Step α} {next : α → Step β} {e : CacheError}
    (h : step (c, v) = (.error e, (c', v'))) : (step >>= next) (c, v) = (.error e, (c', v')) := by
  show ExceptT.bindCont next (step (c, v)).1 (step (c, v)).2 = _
  rw [h]
  rfl

theorem change_apply {f : KernelCache → KernelCache} : change f (c, v) = (.ok (), (f c, v)) := rfl

theorem onStore_apply (action : ArtifactStore → Volume.Action CacheError α)
    {a : Except CacheError α} (h : action c.store v = (a, v')) :
    onStore action (c, v) = (a, (c, v')) := by
  rw [onStore, onVolume, h]

theorem look_apply {answer : KernelCache → Volume → Except CacheError α} {a : Except CacheError α}
    (h : answer c v = a) : look answer (c, v) = (a, (c, v)) := by
  rw [look, h]

/-! ### Loading -/

theorem load_of_artifact_none (hv : v.Serves L own) (hp : v.Leads c.store.root L) (hk : IsKey key)
    (h : v.artifact? L key = none) : c.load v key = .ok none := by
  unfold load
  rw [ArtifactStore.read_apply hv hp hk, h]

theorem load_of_decode_ok {bytes : List UInt8} (hv : v.Serves L own) (hp : v.Leads c.store.root L)
    (hk : IsKey key) (h : v.artifact? L key = some bytes) (hd : Artifact.decode bytes = .ok t) :
    c.load v key = .ok (some ⟨key, t, c.store.artifactPath key⟩) := by
  unfold load
  rw [ArtifactStore.read_apply hv hp hk, h]
  simp only [hd]

theorem load_of_decode_error {bytes : List UInt8} {e : ArtifactError} (hv : v.Serves L own)
    (hp : v.Leads c.store.root L) (hk : IsKey key) (h : v.artifact? L key = some bytes)
    (hd : Artifact.decode bytes = .error e) : c.load v key = .error (.load key (.artifact e)) := by
  unfold load
  rw [ArtifactStore.read_apply hv hp hk, h]
  simp only [hd]

/-! ### Building -/

/-- The cache after syntheses and compilations. -/
def counted (c : KernelCache) (n : Nat) : KernelCache :=
  { c with syntheses := c.syntheses + n, compiles := c.compiles + n }

/-- The source is written, compiled and removed again. -/
theorem exists_compile (hv : v.Serves L own) (hp : v.Leads c.store.root L) (hk : IsKey key)
    (source : String) :
    ∃ v₁ v₂, onStore (·.writeSource key source) ({ c with syntheses := c.syntheses + 1 }, v) =
        (.ok (c.store.sourcePath key), ({ c with syntheses := c.syntheses + 1 }, v₁)) ∧
      runToolchain key source ({ c with syntheses := c.syntheses + 1 }, v₁) =
        (.ok (c.toolchain.compile key source), (c.counted 1, v₁)) ∧
      onStore (·.removeSource key) (c.counted 1, v₁) = (.ok (), (c.counted 1, v₂)) ∧
      Stores v v₂ L own (v.artifact? L) := by
  obtain ⟨v₁, hwrite, hs₁⟩ := ArtifactStore.writeSource_apply hv hp hk source
  obtain ⟨v₂, hremove, hs₂⟩ :=
    ArtifactStore.removeSource_apply hs₁.serves (hp.of_keeps hs₁.keeps) hk
  rw [hs₁.artifacts] at hs₂
  refine ⟨v₁, v₂, onStore_apply (·.writeSource key source) hwrite, ?_,
    onStore_apply (·.removeSource key) hremove, hs₁.trans hs₂⟩
  unfold runToolchain
  rw [bind_apply change_apply, look]
  rfl

/-- A portable template is compiled, and its artifact opens. -/
theorem build_apply (hv : v.Serves L own) (hp : v.Leads c.store.root L) (hk : IsKey key)
    (hc : c.toolchain = .standard) (ht : t.Portable) :
    ∃ v', build key (.ok ⟨t, t.source⟩) (c, v) =
        (.ok ⟨key, t, c.store.artifactPath key⟩, (c.counted 1, v')) ∧
      Stores v v' L own (Function.update (v.artifact? L) key (some (Artifact.encode t))) := by
  obtain ⟨v₁, v₂, hsource, htool, hclean, hs₂⟩ := exists_compile hv hp hk t.source
  have hp₂ := hp.of_keeps hs₂.keeps
  obtain ⟨v₃, hcommit, hs₃⟩ := ArtifactStore.commit_apply hs₂.serves hp₂ hk (Artifact.encode t)
  have hp₃ := hp₂.of_keeps hs₃.keeps
  rw [hs₂.artifacts] at hs₃
  refine ⟨v₃, ?_, hs₂.trans hs₃⟩
  have hcompile : c.toolchain.compile key t.source = .ok (Artifact.encode t) := by
    rw [hc]
    simp only [Toolchain.standard, ht.ofSource_source]
  have hload : (c.counted 1).load v₃ key = .ok (some ⟨key, t, c.store.artifactPath key⟩) := by
    have hartifact : v₃.artifact? L key = some (Artifact.encode t) := by
      rw [hs₃.artifacts, Function.update_self]
    exact load_of_decode_ok (c := c.counted 1) hs₃.serves hp₃ hk hartifact
      (Artifact.decode_encode ht)
  have hpublish : onStore (·.commit key (Artifact.encode t)) (c.counted 1, v₂) =
      (.ok (c.store.artifactPath key), (c.counted 1, v₃)) :=
    onStore_apply (·.commit key (Artifact.encode t)) hcommit
  have hlook : look (fun c v => .ok (c.load v key)) (c.counted 1, v₃) =
      (.ok (.ok (some ⟨key, t, c.store.artifactPath key⟩)), (c.counted 1, v₃)) := by
    rw [look, hload]
  unfold build
  rw [bind_apply change_apply]
  simp only
  rw [bind_apply hsource, bind_apply htool, bind_apply hclean, hcompile]
  obtain ⟨b, bs, hbytes⟩ := List.exists_cons_of_ne_nil (Artifact.encode_ne_nil t)
  rw [hbytes] at hpublish ⊢
  simp only
  rw [bind_apply hpublish, bind_apply hlook]
  rfl

/-- A source that is refused gives no artifact. -/
theorem build_refused {source : Source} {e : SourceError} (hv : v.Serves L own)
    (hp : v.Leads c.store.root L) (hk : IsKey key) (hc : c.toolchain = .standard)
    (hrefused : Template.ofSource source.text = .error e) :
    ∃ v', build key (.ok source) (c, v) =
        (.error (.compile key (.source e)), (c.counted 1, v')) ∧
      Stores v v' L own (v.artifact? L) := by
  obtain ⟨v₁, v₂, hsource, htool, hclean, hs₂⟩ := exists_compile hv hp hk source.text
  refine ⟨v₂, ?_, hs₂⟩
  have hcompile : c.toolchain.compile key source.text = .error (.compile key (.source e)) := by
    rw [hc]
    simp only [Toolchain.standard, hrefused]
  unfold build
  rw [bind_apply change_apply]
  simp only
  rw [bind_apply hsource, bind_apply htool, bind_apply hclean, hcompile]
  rfl

/-- What a toolchain makes of a source is removed again if it does not open. -/
theorem build_unloadable {source : Source} {bytes : List UInt8} {e : ArtifactError}
    (hv : v.Serves L own) (hp : v.Leads c.store.root L) (hk : IsKey key)
    (hcompile : c.toolchain.compile key source.text = .ok bytes) (hne : bytes ≠ [])
    (hdecode : Artifact.decode bytes = .error e) :
    ∃ v', build key (.ok source) (c, v) =
        (.error (.load key (.artifact e)), (c.counted 1, v')) ∧
      Stores v v' L own (Function.update (v.artifact? L) key none) := by
  obtain ⟨v₁, v₂, hsource, htool, hclean, hs₂⟩ := exists_compile hv hp hk source.text
  have hp₂ := hp.of_keeps hs₂.keeps
  obtain ⟨v₃, hcommit, hs₃⟩ := ArtifactStore.commit_apply hs₂.serves hp₂ hk bytes
  have hp₃ := hp₂.of_keeps hs₃.keeps
  obtain ⟨v₄, hevict, hs₄⟩ := ArtifactStore.evict_apply hs₃.serves hp₃ hk
  have hload : (c.counted 1).load v₃ key = .error (.load key (.artifact e)) := by
    have hartifact : v₃.artifact? L key = some bytes := by
      rw [hs₃.artifacts, Function.update_self]
    exact load_of_decode_error (c := c.counted 1) hs₃.serves hp₃ hk hartifact hdecode
  have hpublish : onStore (·.commit key bytes) (c.counted 1, v₂) =
      (.ok (c.store.artifactPath key), (c.counted 1, v₃)) :=
    onStore_apply (·.commit key bytes) hcommit
  have hlook : look (fun c v => .ok (c.load v key)) (c.counted 1, v₃) =
      (.ok (.error (.load key (.artifact e))), (c.counted 1, v₃)) := by
    rw [look, hload]
  have hremove : onStore (·.evict key) (c.counted 1, v₃) = (.ok (), (c.counted 1, v₄)) :=
    onStore_apply (·.evict key) hevict
  rw [hs₃.artifacts, Function.update_idem, hs₂.artifacts] at hs₄
  refine ⟨v₄, ?_, (hs₂.trans hs₃).trans hs₄⟩
  unfold build
  rw [bind_apply change_apply]
  simp only
  rw [bind_apply hsource, bind_apply htool, bind_apply hclean, hcompile]
  obtain ⟨b, bs, rfl⟩ := List.exists_cons_of_ne_nil hne
  simp only
  rw [bind_apply hpublish, bind_apply hlook]
  simp only
  rw [bind_apply hremove]
  rfl

/-! ### Loading or building -/

/-- Where no artifact opens, a kernel is compiled after what is there was removed. -/
theorem loadOrBuild_of_template?_eq_none {synthesize : Except SourceError Source}
    (hv : v.Serves L own) (hp : v.Leads c.store.root L) (hk : IsKey key)
    (h : v.template? L key = none) :
    ∃ w, loadOrBuild key synthesize (c, v) = build key synthesize (c, w) ∧
      Stores v w L own (Function.update (v.artifact? L) key none) := by
  unfold loadOrBuild
  cases hartifact : v.artifact? L key with
  | none =>
    have hlook : look (fun c v => .ok (c.load v key)) (c, v) = (.ok (.ok none), (c, v)) := by
      rw [look, load_of_artifact_none hv hp hk hartifact]
    refine ⟨v, bind_apply hlook, ?_⟩
    rw [← hartifact, Function.update_eq_self]
    exact hv.stores
  | some bytes =>
    cases hdecode : Artifact.decode bytes with
    | ok t =>
      rw [Volume.template?, hartifact, Option.bind_some, hdecode] at h
      cases h
    | error e =>
      have hlook : look (fun c v => .ok (c.load v key)) (c, v) =
          (.ok (.error (.load key (.artifact e))), (c, v)) := by
        rw [look, load_of_decode_error hv hp hk hartifact hdecode]
      obtain ⟨w, hevict, hevicted⟩ := ArtifactStore.evict_apply hv hp hk
      have hclean : onStore (·.evict key) (c, v) = (.ok (), (c, w)) :=
        onStore_apply (·.evict key) hevict
      refine ⟨w, ?_, hevicted⟩
      rw [bind_apply hlook]
      exact bind_apply hclean

/-- A kernel whose artifact opens is loaded; any other one is compiled. -/
theorem loadOrBuild_apply (hv : v.Serves L own) (hp : v.Leads c.store.root L) (hk : IsKey key)
    (hc : c.toolchain = .standard) (ht : t.Portable)
    (hsame : ∀ t', v.template? L key = some t' → t' = t) :
    ∃ v', loadOrBuild key (.ok ⟨t, t.source⟩) (c, v) =
        (.ok ⟨key, t, c.store.artifactPath key⟩,
          (c.counted (if v.template? L key = none then 1 else 0), v')) ∧
      Stores v v' L own (v.renewed L key t) := by
  cases hopens : v.template? L key with
  | none =>
    obtain ⟨w, hload, hcleaned⟩ := loadOrBuild_of_template?_eq_none hv hp hk hopens
    obtain ⟨v', hbuild, hstores⟩ :=
      build_apply hcleaned.serves (hp.of_keeps hcleaned.keeps) hk hc ht
    rw [hcleaned.artifacts, Function.update_idem] at hstores
    rw [Volume.renewed, hopens, if_pos rfl]
    exact ⟨v', hload.trans hbuild, hcleaned.trans hstores⟩
  | some t' =>
    obtain rfl := hsame t' hopens
    obtain ⟨bytes, hartifact, hdecode⟩ := Option.bind_eq_some_iff.1 hopens
    have hdecoded : Artifact.decode bytes = .ok t' := by
      cases hd : Artifact.decode bytes with
      | ok t'' =>
        rw [hd] at hdecode
        exact congrArg _ (Option.some.inj hdecode)
      | error e =>
        rw [hd] at hdecode
        cases hdecode
    have hlook : look (fun c v => .ok (c.load v key)) (c, v) =
        (.ok (.ok (some ⟨key, t', c.store.artifactPath key⟩)), (c, v)) := by
      rw [look, load_of_decode_ok hv hp hk hartifact hdecoded]
    rw [Volume.renewed, hopens, if_neg (Option.some_ne_none _)]
    refine ⟨v, ?_, hv.stores⟩
    unfold loadOrBuild
    rw [bind_apply hlook]
    rfl

/-! ### Under the lock -/

/-- A step under the lock of a signature leaves no lock behind. -/
theorem underLock_apply {step : Step α} {answer : Except CacheError α}
    {a : String → Option (List UInt8)} (hv : v.Serves L none) (hp : v.Leads c.store.root L)
    (hk : IsKey key) (hstep : ∀ token v₁, Stores v v₁ L (some token) (v.artifact? L) →
      ∃ v₂, step (c, v₁) = (answer, (c', v₂)) ∧ Stores v₁ v₂ L (some token) a) :
    ∃ v', underLock key step (c, v) = (answer, (c', v')) ∧ Stores v v' L none a := by
  obtain ⟨token, v₁, hlock, hlocked⟩ := ArtifactStore.lock_apply hv hp hk c.lockTimeout
  obtain ⟨v₂, hanswer, hstores⟩ := hstep token v₁ hlocked
  have hunlock := Volume.becomes_unlock hstores.serves
  have hacquire : onStore (fun s => ArtifactStore.lock (s.lockPath key) c.lockTimeout) (c, v) =
      (.ok token, (c, v₁)) :=
    onStore_apply (fun s => ArtifactStore.lock (s.lockPath key) c.lockTimeout) hlock
  refine ⟨v₂.unlock token, ?_, hunlock.serves,
    (hlocked.keeps.trans hstores.keeps).trans hunlock.keeps, ?_⟩
  · rw [underLock, bind_apply (look_apply rfl), bind_apply hacquire]
    simp only [hanswer]
  · rw [← hstores.artifacts]
    exact funext fun key => congrFun hunlock.content _

/-! ### Obtaining and evicting -/

/-- A kernel that the cache does not remember is loaded or compiled, and then remembered. -/
theorem obtain_apply {signature : Signature} (hv : v.Serves L none) (hp : v.Leads c.store.root L)
    (hc : c.toolchain = .standard) (ht : t.Portable)
    (hsame : ∀ t', v.template? L signature.key = some t' → t' = t)
    (hnew : c.memoized? signature.key = none) :
    ∃ v', obtain signature (.ok ⟨t, t.source⟩) (c, v) =
        (.ok ⟨signature.key, t, c.store.artifactPath signature.key⟩,
          ({ c.counted (if v.template? L signature.key = none then 1 else 0) with
              loaded := c.loaded.insert signature.key
                ⟨signature.key, t, c.store.artifactPath signature.key⟩ }, v')) ∧
      Stores v v' L none (v.renewed L signature.key t) := by
  have hlook : look (fun c _ => .ok (c.memoized? signature.key)) (c, v) = (.ok none, (c, v)) := by
    rw [look, hnew]
  unfold obtain
  simp only
  rw [bind_apply hlook]
  refine underLock_apply hv hp signature.isKey_key fun token v₁ hlocked => ?_
  have hsame₁ : ∀ t', v₁.template? L signature.key = some t' → t' = t := by
    rwa [Volume.template?_of_artifact? hlocked.artifacts]
  obtain ⟨v₂, hkernel, hstores⟩ := loadOrBuild_apply hlocked.serves (hp.of_keeps hlocked.keeps)
    signature.isKey_key hc ht hsame₁
  rw [Volume.template?_of_artifact? hlocked.artifacts] at hkernel
  rw [Volume.renewed_of_artifact? hlocked.artifacts] at hstores
  refine ⟨v₂, ?_, hstores⟩
  rw [bind_apply hkernel, bind_apply change_apply]
  rfl

theorem obtain_of_memoized {signature : Signature} {synthesize : Except SourceError Source}
    {kernel : LoadedKernel} (h : c.memoized? signature.key = some kernel) :
    obtain signature synthesize (c, v) = (.ok kernel, (c, v)) := by
  have hlook : look (fun c _ => .ok (c.memoized? signature.key)) (c, v) =
      (.ok (some kernel), (c, v)) := by
    rw [look, h]
  unfold obtain
  rw [bind_apply hlook]
  rfl

/-- Where no artifact opens and the kernel cannot be compiled, it is not answered. -/
theorem obtain_of_build_error {signature : Signature} {synthesize : Except SourceError Source}
    {e : CacheError} (hv : v.Serves L none) (hp : v.Leads c.store.root L)
    (hclosed : v.template? L signature.key = none) (hnew : c.memoized? signature.key = none)
    (hbuild : ∀ token w, w.Serves L (some token) → w.Leads c.store.root L →
      w.artifact? L signature.key = none →
        ∃ v', build signature.key synthesize (c, w) = (.error e, (c', v')) ∧
          Stores w v' L (some token) (w.artifact? L)) :
    ∃ v', obtain signature synthesize (c, v) = (.error e, (c', v')) ∧
      Stores v v' L none (Function.update (v.artifact? L) signature.key none) := by
  have hlook : look (fun c _ => .ok (c.memoized? signature.key)) (c, v) = (.ok none, (c, v)) := by
    rw [look, hnew]
  unfold obtain
  rw [bind_apply hlook]
  refine underLock_apply hv hp signature.isKey_key fun token v₁ hlocked => ?_
  have hp₁ := hp.of_keeps hlocked.keeps
  have hclosed₁ : v₁.template? L signature.key = none := by
    rwa [Volume.template?_of_artifact? hlocked.artifacts]
  obtain ⟨w, hload, hcleaned⟩ := loadOrBuild_of_template?_eq_none hlocked.serves hp₁
    signature.isKey_key hclosed₁
  obtain ⟨v₂, hfailed, hstores⟩ := hbuild token w hcleaned.serves (hp₁.of_keeps hcleaned.keeps)
    (by rw [hcleaned.artifacts, Function.update_self])
  rw [hcleaned.artifacts, hlocked.artifacts] at hstores
  exact ⟨v₂, bind_apply_error (hload.trans hfailed), hcleaned.trans hstores⟩

/-- A kernel whose source is refused is compiled in vain, where there is no artifact. -/
theorem obtain_refused {signature : Signature} {source : Source} {e : SourceError}
    (hv : v.Serves L none) (hp : v.Leads c.store.root L) (hc : c.toolchain = .standard)
    (hrefused : Template.ofSource source.text = .error e)
    (hmissing : v.artifact? L signature.key = none) (hnew : c.memoized? signature.key = none) :
    ∃ v', obtain signature (.ok source) (c, v) =
        (.error (.compile signature.key (.source e)), (c.counted 1, v')) ∧
      Stores v v' L none (v.artifact? L) := by
  have hclosed : v.template? L signature.key = none := by
    rw [Volume.template?, hmissing]
    rfl
  have hsame : Function.update (v.artifact? L) signature.key none = v.artifact? L := by
    rw [← hmissing, Function.update_eq_self]
  rw [← hsame]
  exact obtain_of_build_error hv hp hclosed hnew fun token w hw hpw _ =>
    build_refused hw hpw signature.isKey_key hc hrefused

/-- A kernel whose artifact does not open is compiled in vain. -/
theorem obtain_unloadable {signature : Signature} (source : Source) {bytes : List UInt8}
    {e : ArtifactError} (hv : v.Serves L none) (hp : v.Leads c.store.root L)
    (hclosed : v.template? L signature.key = none) (hnew : c.memoized? signature.key = none)
    (hcompile : c.toolchain.compile signature.key source.text = .ok bytes) (hne : bytes ≠ [])
    (hdecode : Artifact.decode bytes = .error e) :
    ∃ v', obtain signature (.ok source) (c, v) =
        (.error (.load signature.key (.artifact e)), (c.counted 1, v')) ∧
      Stores v v' L none (Function.update (v.artifact? L) signature.key none) := by
  refine obtain_of_build_error hv hp hclosed hnew fun token w hw hpw hnone => ?_
  obtain ⟨v', hbuild, hstores⟩ :=
    build_unloadable hw hpw signature.isKey_key hcompile hne hdecode
  rw [← hnone, Function.update_eq_self] at hstores
  exact ⟨v', hbuild, hstores⟩

/-- A signature is forgotten with its artifact. -/
theorem evict_apply {signature : Signature} (hv : v.Serves L none) (hp : v.Leads c.store.root L) :
    ∃ v', evict signature (c, v) =
        (.ok (), ({ c with loaded := c.loaded.erase signature.key }, v')) ∧
      Stores v v' L none (Function.update (v.artifact? L) signature.key none) := by
  unfold evict
  rw [bind_apply change_apply]
  refine underLock_apply hv hp signature.isKey_key fun token v₁ hlocked => ?_
  obtain ⟨v₂, hevict, hstores⟩ := ArtifactStore.evict_apply hlocked.serves
    (hp.of_keeps hlocked.keeps) signature.isKey_key
  rw [hlocked.artifacts] at hstores
  exact ⟨v₂, onStore_apply (·.evict signature.key) hevict, hstores⟩

end KernelCache

end Collate
