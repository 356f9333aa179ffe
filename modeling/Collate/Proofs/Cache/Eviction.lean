import Collate.Proofs.Cache.LaterAnswers

/-!
# Forgetting a signature

An eviction forgets the kernel, waits for the lock, removes the artifact and then the source, and
each of the last three may fail (`KernelCache.evictionEnds_of_evict`).  No other signature notices:
kernels, files and later answers are as they were (`KernelCache.evict_touches_one_signature`).

An eviction that fails is not undone.  The kernel is forgotten where the lock cannot be taken
(`KernelCache.evict_forgets_kernel`), and the artifact is gone where a directory is in the place of
the source (`KernelCache.evict_loses_artifact`).
-/

namespace Collate

namespace KernelCache

open Volume ArtifactStore

variable {c c' : KernelCache} {v v' w : Volume} {L : Location} {key : String}
  {signature : Signature} {answer : Except CacheError Unit}

/-! ### How an eviction ends -/

/-- The names of the files that an eviction may touch. -/
def evictedNames (key : String) : Set String := insert (lockName key) (storedNames {key})

/-- How an eviction of a signature ends, and what it did to the directory. -/
inductive EvictionEnds (c : KernelCache) (key : String) (v : Volume) :
    Except CacheError Unit → Volume → Prop
  /-- the lock is not taken, or there is no artifact that could be removed -/
  | refused {e : CacheError} {v' : Volume}
    (hwhy : c.CanLock v key → ∀ bytes, v.find (c.store.artifactPath key) ≠ .ok (some (.file bytes)))
    (h : c.store.TouchesIn {lockName key} ∅ v v') : EvictionEnds c key v (.error e) v'
  /-- the artifact was removed, but a directory is in the place of the source -/
  | halfway {e : CacheError} {v' : Volume} (hlock : c.CanLock v key)
    (hartifact : v'.find (c.store.artifactPath key) = .ok none)
    (hsource : v.find (c.store.sourcePath key) = .ok (some .directory))
    (h : c.store.TouchesIn (evictedNames key) (storedNames {key}) v v') :
    EvictionEnds c key v (.error e) v'
  | done {v' : Volume} (hlock : c.CanLock v key)
    (hartifact : v'.find (c.store.artifactPath key) = .ok none)
    (hsource : v'.find (c.store.sourcePath key) = .ok none)
    (h : c.store.TouchesIn (evictedNames key) (storedNames {key}) v v') :
    EvictionEnds c key v (.ok ()) v'

theorem evictionEnds_of_evict (htokens : v.TokensTaken)
    (h : evict signature (c, v) = (answer, (c', v'))) :
    c' = { c with loaded := c.loaded.erase signature.key } ∧
      EvictionEnds c signature.key v answer v' := by
  have hk := signature.isKey_key
  unfold evict at h
  rw [bind_apply change_apply] at h
  rcases underLock_cases hk h with ⟨hlock, ⟨e, rfl⟩, rfl, hsame⟩ |
    ⟨L, w, hlock, hv, -, hfile, -, hstep, rfl⟩
  · exact ⟨rfl, .refused (fun hcan => absurd hcan hlock) hsame⟩
  · obtain ⟨rfl, hevict⟩ := onStore_cases hstep
    refine ⟨rfl, ?_⟩
    change v.Enters c.store.root L at hv
    change c.store.evict signature.key (withLock v L signature.key) = (answer, w) at hevict
    have hlocked := touches_withLock hfile
    have hv₀ := hv.of_keeps hlocked.keeps
    have hartifactFile := isFileName_artifact hk
    have hsourceFile := isFileName_source hk
    have hartifactMem : L.push (artifactName signature.key) ∈
        filesIn L (storedNames {signature.key}) :=
      push_mem_filesIn.2 (artifactName_mem_storedNames rfl)
    have hsourceMem : L.push (sourceName signature.key) ∈
        filesIn L (storedNames {signature.key}) :=
      push_mem_filesIn.2 (sourceName_mem_storedNames rfl)
    have hunlocked : ∀ {name : String}, IsFileName name → w.Enters c.store.root L →
        w.find (c.store.root.join name) = (w.unlock v.fresh).find (c.store.root.join name) :=
      fun hname hw => (touches_unlock w v.fresh).find_join hw hname (Set.notMem_empty _)
    have hbefore : v.find (c.store.artifactPath signature.key) =
        (withLock v L signature.key).find (c.store.artifactPath signature.key) :=
      hlocked.find_join hv hartifactFile fun hin => artifactName_ne_lockName (push_inj.1 hin)
    rcases ArtifactStore.evict_cases hv₀ hk hevict with ⟨rfl, hartifact, hsource, hwork⟩ |
      ⟨⟨e, rfl⟩, ⟨rfl, hnone⟩ | ⟨hartifact, hsource, hwork⟩⟩
    · have hw := hv₀.of_keeps hwork.keeps
      refine .done hlock ((hunlocked hartifactFile hw).symm.trans hartifact)
        ((hunlocked hsourceFile hw).symm.trans hsource)
        (.of_touches hv (touches_unlocked hfile htokens ?_))
      exact hwork.mono (Set.pair_subset hartifactMem hsourceMem)
        (Set.pair_subset hartifactMem hsourceMem)
    · refine .refused (fun _ bytes => ?_) (.of_touches hv ?_)
      · rw [hbefore]
        exact hnone bytes
      · rw [← LawfulSingleton.insert_empty_eq (lockName signature.key)]
        exact touches_unlocked hfile htokens (.refl _ _ _)
    · have hw := hv₀.of_keeps hwork.keeps
      refine .halfway hlock ((hunlocked hartifactFile hw).symm.trans hartifact)
        (hlocked.find_eq_directory_iff.2 hsource)
        (.of_touches hv (touches_unlocked hfile htokens ?_))
      exact hwork.mono (Set.singleton_subset_iff.2 hartifactMem)
        (Set.singleton_subset_iff.2 hartifactMem)

/-- Nothing is touched but the artifact, the source and the file of the lock. -/
theorem EvictionEnds.touchesIn (h : EvictionEnds c key v answer v') :
    c.store.TouchesIn (evictedNames key) (storedNames {key}) v v' := by
  cases h with
  | refused _ h =>
    exact h.mono (Set.singleton_subset_iff.2 (Set.mem_insert _ _)) (Set.empty_subset _)
  | halfway _ _ _ h => exact h
  | done _ _ _ h => exact h

theorem unspent_evict (hunspent : c.store.Unspent v)
    (h : evict signature (c, v) = (answer, (c', v'))) : c'.store.Unspent v' := by
  obtain ⟨rfl, hends⟩ := evictionEnds_of_evict hunspent.tokens h
  exact hunspent.of_touchesIn hends.touchesIn

/-! ### What others notice -/

theorem evictedNames_subset_names : evictedNames key ⊆ names key := by
  refine Set.insert_subset_insert ?_
  rintro name ⟨other, rfl, rfl | rfl⟩
  · exact artifactName_mem_workNames other
  · exact sourceName_mem_workNames other

theorem notMem_evictedNames {other name : String} (hname : name ∈ names other)
    (hne : other ≠ key) : name ∉ evictedNames key :=
  fun hin => hne (key_eq_of_mem_names hname (evictedNames_subset_names hin))

theorem memoized?_erase (c : KernelCache) (key other : String) :
    ({ c with loaded := c.loaded.erase key } : KernelCache).memoized? other =
      if other = key then none else c.memoized? other := Table.get?_erase _ _ _

theorem EvictionEnds.agree (h : EvictionEnds c key v answer v')
    (hunspent : c.store.Unspent v) :
    Agree {key}ᶜ (c, v) ({ c with loaded := c.loaded.erase key }, v') := by
  refine agree_of_touchesIn ⟨rfl, rfl, rfl, fun other hother => ?_⟩ hunspent h.touchesIn
    (fun name hname => ?_) fun other => lockName_notMem_storedNames
  · rw [memoized?_erase, if_neg (Set.mem_compl_singleton_iff.1 hother)]
  · obtain ⟨other, hother, hname⟩ := mem_names_of_mem_storedNames hname
    exact notMem_evictedNames hname hother

/-- Where nothing was removed and no kernel forgotten, an eviction cannot be noticed at all. -/
theorem agree_of_refused (hnone : c.memoized? key = none) (hunspent : c.store.Unspent v)
    (h : c.store.TouchesIn {lockName key} ∅ v v') :
    Agree Set.univ (c, v) ({ c with loaded := c.loaded.erase key }, v') := by
  refine agree_of_touchesIn ⟨rfl, rfl, rfl, fun other _ => ?_⟩ hunspent h
    (fun name hname hin => ?_) fun _ => Set.notMem_empty _
  · rw [memoized?_erase]
    split_ifs with heq
    · rw [heq, hnone]
    · rfl
  · rw [Set.mem_singleton_iff.1 hin] at hname
    exact lockName_notMem_storedNames hname

/-! ### Evictions that fail -/

theorem not_canLock_of_touchesIn {A : Set String} (h : ¬c.CanLock v key)
    (hsame : c.store.TouchesIn A ∅ v v') : ¬c.CanLock v' key := by
  rcases hsame with rfl | ⟨L, -, hsame⟩
  · exact h
  · intro hcan
    obtain ⟨l, hlocate, hfile, hfree⟩ := canLock_iff.1 hcan
    refine h (canLock_iff.2 ⟨l, hsame.locate.2 hlocate, mt (hsame.directories l).1 hfile, ?_⟩)
    rw [hsame.isLocked (by simp), hfree]

/-- Without the lock, a kernel that the cache does not remember is not answered. -/
theorem obtain_of_not_canLock {synthesize : Except SourceError Source}
    (hnone : c.memoized? signature.key = none) (h : ¬c.CanLock v signature.key) :
    ∃ e v', obtain signature synthesize (c, v) = (.error e, (c, v')) := by
  obtain ⟨answer, c', v', hunder⟩ :=
    exists_outcome (underLock signature.key (loadAndRemember signature.key synthesize)) (c, v)
  have hobtain : obtain signature synthesize (c, v) = (answer, (c', v')) := by
    rw [obtain_eq, hnone]
    exact hunder
  rcases underLock_cases signature.isKey_key hunder with ⟨-, ⟨e, rfl⟩, rfl, -⟩ | ⟨L, w, hcan, -⟩
  · exact ⟨e, v', hobtain⟩
  · exact absurd hcan h

/-- Without the lock, an eviction fails, and no kernel of the signature is remembered afterwards:
the next request fails too, which would have been answered before. -/
theorem evict_forgets_kernel {kernel : LoadedKernel} (synthesize : Except SourceError Source)
    (htokens : v.TokensTaken) (hlock : ¬c.CanLock v signature.key)
    (hkernel : c.memoized? signature.key = some kernel) :
    obtain signature synthesize (c, v) = (.ok kernel, (c, v)) ∧
      ∃ e c' v', evict signature (c, v) = (.error e, (c', v')) ∧
        ∃ e' v'', obtain signature synthesize (c', v') = (.error e', (c', v'')) := by
  refine ⟨obtain_of_memoized hkernel, ?_⟩
  obtain ⟨answer, c', v', hevict⟩ := exists_outcome (evict signature) (c, v)
  obtain ⟨rfl, hends⟩ := evictionEnds_of_evict htokens hevict
  have hnone : ({ c with loaded := c.loaded.erase signature.key } : KernelCache).memoized?
      signature.key = none := by
    rw [memoized?_erase, if_pos rfl]
  cases hends with
  | refused _ hrefused =>
    exact ⟨_, _, _, hevict,
      obtain_of_not_canLock hnone (not_canLock_of_touchesIn hlock hrefused)⟩
  | halfway hcan _ _ _ => exact absurd hcan hlock
  | done hcan _ _ _ => exact absurd hcan hlock

/-- With a directory in the place of the source, an eviction fails after it removed the
artifact. -/
theorem evict_loses_artifact {bytes : List UInt8} (htokens : v.TokensTaken)
    (hlock : c.CanLock v signature.key)
    (hartifact : v.find (c.store.artifactPath signature.key) = .ok (some (.file bytes)))
    (hsource : v.find (c.store.sourcePath signature.key) = .ok (some .directory)) :
    ∃ e c' v', evict signature (c, v) = (.error e, (c', v')) ∧
      v'.find (c.store.artifactPath signature.key) = .ok none := by
  obtain ⟨answer, c', v', hevict⟩ := exists_outcome (evict signature) (c, v)
  obtain ⟨-, hends⟩ := evictionEnds_of_evict htokens hevict
  cases hends with
  | refused hwhy _ => exact absurd hartifact (hwhy hlock bytes)
  | halfway _ hgone _ _ => exact ⟨_, _, _, hevict, hgone⟩
  | done _ _ hgone hsame =>
    have hdirectory := hsame.find_eq_directory_iff.2 hsource
    rw [hgone] at hdirectory
    cases hdirectory

/-! ### A lock that is held, and a directory in the way -/

theorem not_canLock_withLock (hv : (withLock v L key).Enters c.store.root L) (hk : IsKey key) :
    ¬c.CanLock (withLock v L key) key := by
  intro hcan
  obtain ⟨l, hlocate, -, hfree⟩ := canLock_iff.1 hcan
  obtain ⟨L', hL', rfl⟩ := Enters.of_locate_join
    (isFileName_lock hk).toIsName hlocate
  rw [← hv.unique hL', isLocked, List.any_eq_false] at hfree
  exact hfree _ (mem_locks_withLock.2 (Or.inl rfl)) (decide_eq_true rfl)

theorem keeps_empty (v : Volume) : Keeps {} v := by
  intro l hl
  by_cases htop : l = #[]
  · rw [htop]
    rfl
  · rw [node?, if_neg htop, Table.get?_empty] at hl
    cases hl

theorem find_top {name : String} (hname : IsFileName name) (v : Volume) :
    v.find (Session.topCache.store.root.join name) = .ok (v.node? (#[].push name)) :=
  find_eq_of_locate
    ((Session.leads_top.of_keeps (keeps_empty v)).locate_join rfl hname.toIsName hname.size)

theorem unspent_top : Session.topCache.store.Unspent {} := by
  refine ⟨fun lock hlock => absurd hlock List.not_mem_nil, fun key stamp hk _ hfind => ?_⟩
  have hnone := (find_top (isFileName_temporary hk stamp) {}).symm.trans hfind
  rw [Session.vacant_top.empty] at hnone
  cases hnone

theorem touches_lockedTop (key : String) :
    Touches {#[].push (lockName key)} {#[].push (lockName key)} {} (withLock {} #[] key) := by
  refine touches_withLock ?_
  rw [Session.vacant_top.empty]
  simp

/-- A cache at the top of a volume that remembers a kernel. -/
def remembering (kernel : LoadedKernel) : KernelCache :=
  { Session.topCache with loaded := Table.insert ∅ kernel.signature kernel }

theorem memoized?_remembering (kernel : LoadedKernel) :
    (remembering kernel).memoized? kernel.signature = some kernel := by
  rw [memoized?, remembering, Table.get?_insert, if_pos rfl]

/-- A directory with an artifact, and with a directory in the place of the source. -/
def obstructed (key : String) : Volume :=
  { leftover key with
    nodes := (leftover key).nodes.insert (#[].push (sourceName key)) .directory }

theorem node?_obstructed (key : String) (l : Location) : (obstructed key).node? l =
    if l = #[].push (sourceName key) then some .directory
    else if l = #[].push (artifactName key) then some (.file [0])
    else ({} : Volume).node? l := by
  have hplain : ({} : Volume).node? (#[].push (artifactName key)) ≠ some .directory := by
    rw [Session.vacant_top.empty]
    simp
  rw [← node?_written hplain]
  exact node?_of_nodes_insert Array.push_ne_empty rfl

theorem canLock_obstructed (hk : IsKey key) : Session.topCache.CanLock (obstructed key) key := by
  have hlock := isFileName_lock hk
  refine canLock_iff.2 ⟨_, (Session.leads_top.of_keeps (keeps_empty _)).locate_join rfl
    hlock.toIsName hlock.size, ?_, rfl⟩
  have hsource : (#[].push (lockName key) : Location) ≠ #[].push (sourceName key) :=
    fun heq => sourceName_ne_lockName (push_inj.1 heq).symm
  have hartifact : (#[].push (lockName key) : Location) ≠ #[].push (artifactName key) :=
    fun heq => artifactName_ne_lockName (push_inj.1 heq).symm
  show (obstructed key).node? (#[].push (lockName key)) ≠ _
  rw [node?_obstructed, if_neg hsource, if_neg hartifact, Session.vacant_top.empty]
  simp

/-- A kernel of one column. -/
def singleKernel : LoadedKernel :=
  ⟨(Signature.ofSpec Session.single 600).key, Template.lower Session.single .inPlace 600, ⟨"/"⟩⟩

/-- Two evictions that fail half done: of a kernel that is remembered, while its lock is held, and
of an artifact whose source is a directory. -/
theorem evict_half_done :
    (obtain (.ofSpec Session.single 600) (Source.ofSpec Session.single .inPlace 600)
        (remembering singleKernel, withLock {} #[] singleKernel.signature) =
          (.ok singleKernel, (remembering singleKernel, withLock {} #[] singleKernel.signature)) ∧
      ∃ e c' v', evict (.ofSpec Session.single 600)
          (remembering singleKernel, withLock {} #[] singleKernel.signature) =
            (.error e, (c', v')) ∧
        ∃ e' v'', obtain (.ofSpec Session.single 600) (Source.ofSpec Session.single .inPlace 600)
          (c', v') = (.error e', (c', v''))) ∧
    (obstructed singleKernel.signature).find
        (Session.topCache.store.artifactPath singleKernel.signature) = .ok (some (.file [0])) ∧
      ∃ e c' v', evict (.ofSpec Session.single 600)
          (Session.topCache, obstructed singleKernel.signature) = (.error e, (c', v')) ∧
        v'.find (Session.topCache.store.artifactPath singleKernel.signature) = .ok none := by
  have hk : IsKey singleKernel.signature := (Signature.ofSpec Session.single 600).isKey_key
  constructor
  · have hlocked := touches_lockedTop singleKernel.signature
    refine evict_forgets_kernel _ (hlocked.tokens unspent_top.tokens) ?_
      (memoized?_remembering singleKernel)
    exact not_canLock_withLock ((Session.leads_top.enters rfl).of_keeps hlocked.keeps) hk
  · have hartifact : (obstructed singleKernel.signature).find
        (Session.topCache.store.artifactPath singleKernel.signature) = .ok (some (.file [0])) := by
      have hne : (#[].push (artifactName singleKernel.signature) : Location) ≠
          #[].push (sourceName singleKernel.signature) :=
        fun heq => artifactName_ne_sourceName (push_inj.1 heq)
      refine (find_top (isFileName_artifact hk) _).trans ?_
      show Except.ok ((obstructed singleKernel.signature).node?
        (#[].push (artifactName singleKernel.signature))) = _
      rw [node?_obstructed, if_neg hne, if_pos rfl]
    refine ⟨hartifact, evict_loses_artifact (fun lock hlock => absurd hlock List.not_mem_nil)
      (canLock_obstructed hk) hartifact ?_⟩
    refine (find_top (isFileName_source hk) _).trans ?_
    show Except.ok ((obstructed singleKernel.signature).node?
      (#[].push (sourceName singleKernel.signature))) = _
    rw [node?_obstructed, if_pos rfl]

/-! ### What an eviction leaves -/

/-- What an eviction leaves of a cache and of the directory under it. -/
structure TouchesOneSignature (signature : Signature) (answer : Except CacheError Unit)
    (c c' : KernelCache) (v v' : Volume) : Prop where
  /-- the cache remembers the kernels of all other signatures -/
  loaded : ∀ key ≠ signature.key, c'.memoized? key = c.memoized? key
  /-- nothing is touched but the artifact, the source and the file of the lock -/
  elsewhere : ∀ l, (∀ L, v.Enters c.store.root L →
      l ∉ filesIn L (evictedNames signature.key)) → v'.node? l = v.node? l
  /-- all files of all other signatures are found as before -/
  others : ∀ other : Signature, other.key ≠ signature.key → ∀ name ∈ names other.key,
    v'.find (c.store.root.join name) = v.find (c.store.root.join name)
  /-- the same locks are held, but for any on the artifact or the source -/
  locks : ∀ token l, (∀ L, v.Enters c.store.root L → l ∉ filesIn L (storedNames {signature.key})) →
    ((token, l) ∈ v'.locks ↔ (token, l) ∈ v.locks)
  /-- whatever happens later, requests for other signatures are answered as without the eviction -/
  later : ∀ events, (∀ event ∈ events, event.IsFor {signature.key}ᶜ) →
    List.Forall₂ SameAnswer (answers events (c, v)) (answers events (c', v'))
  /-- nothing remains of a signature that was evicted -/
  done : answer = .ok () → c'.memoized? signature.key = none ∧
    v'.find (c.store.artifactPath signature.key) = .ok none ∧
    v'.find (c.store.sourcePath signature.key) = .ok none
  /-- if it was not, the source is as before, and so is the artifact, unless a directory is in the
  place of the source -/
  failed : ∀ e, answer = .error e →
    v'.find (c.store.sourcePath signature.key) = v.find (c.store.sourcePath signature.key) ∧
    (v'.find (c.store.artifactPath signature.key) = v.find (c.store.artifactPath signature.key) ∨
      v.find (c.store.sourcePath signature.key) = .ok (some .directory) ∧
        v'.find (c.store.artifactPath signature.key) = .ok none)
  /-- then all requests are answered as without the eviction, if no kernel of the signature was
  remembered -/
  unnoticed : ∀ e, answer = .error e → c.memoized? signature.key = none →
    v.find (c.store.sourcePath signature.key) ≠ .ok (some .directory) →
      ∀ events, List.Forall₂ SameAnswer (answers events (c, v)) (answers events (c', v'))

/-- An eviction touches only its signature, and fails with the source and mostly the artifact in
place, or leaves nothing of it. -/
theorem evict_touches_one_signature (hunspent : c.store.Unspent v)
    (h : evict signature (c, v) = (answer, (c', v'))) :
    TouchesOneSignature signature answer c c' v v' := by
  have hk := signature.isKey_key
  obtain ⟨rfl, hends⟩ := evictionEnds_of_evict hunspent.tokens h
  have hsame := hends.touchesIn
  exact
    { loaded := fun key hne => by rw [memoized?_erase, if_neg hne]
      elsewhere := fun l hl => hsame.node? hl
      others := fun other hother name hname =>
        hsame.find (isFileName_of_mem_names other.isKey_key hname)
          (notMem_evictedNames hname hother)
      locks := fun token l hl => hsame.locks hl token
      later := fun events hevents => (hends.agree hunspent).answers hevents
      done := fun heq => by
        cases hends with
        | done _ hartifact hsource _ =>
          refine ⟨?_, hartifact, hsource⟩
          rw [memoized?_erase, if_pos rfl]
        | refused _ _ => cases heq
        | halfway _ _ _ _ => cases heq
      failed := fun e heq => by
        cases hends with
        | refused _ hlock =>
          exact ⟨hlock.find (isFileName_source hk)
              sourceName_ne_lockName,
            Or.inl (hlock.find (isFileName_artifact hk)
              artifactName_ne_lockName)⟩
        | halfway _ hartifact hsource _ =>
          refine ⟨?_, Or.inr ⟨hsource, hartifact⟩⟩
          rw [hsource]
          exact hsame.find_eq_directory_iff.2 hsource
        | done _ _ _ _ => cases heq
      unnoticed := fun e heq hnone hdirectory events => by
        cases hends with
        | refused _ hlock =>
          exact (agree_of_refused hnone hunspent hlock).answers fun event _ => event.isFor_univ
        | halfway _ _ hsource _ => exact absurd hsource hdirectory
        | done _ _ _ _ => cases heq }

/-- The lock is held, and the eviction fails. -/
theorem evict_touches_one_signature_locked : ∃ e c' v', evict (.ofSpec Session.single 600)
      (remembering singleKernel, withLock {} #[] singleKernel.signature) = (.error e, (c', v')) ∧
    TouchesOneSignature (.ofSpec Session.single 600) (.error e) (remembering singleKernel) c'
      (withLock {} #[] singleKernel.signature) v' := by
  have hlocked := touches_lockedTop singleKernel.signature
  have hunspent : (remembering singleKernel).store.Unspent
      (withLock {} #[] singleKernel.signature) := unspent_top.of_touches hlocked
  obtain ⟨-, e, c', v', hevict, -⟩ := evict_forgets_kernel
    (Source.ofSpec Session.single .inPlace 600) hunspent.tokens
    (not_canLock_withLock ((Session.leads_top.enters rfl).of_keeps hlocked.keeps)
      (Signature.ofSpec Session.single 600).isKey_key) (memoized?_remembering singleKernel)
  exact ⟨e, c', v', hevict, evict_touches_one_signature hunspent hevict⟩

end KernelCache

end Collate
