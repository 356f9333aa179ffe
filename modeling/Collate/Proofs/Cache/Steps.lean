import Collate.Proofs.Cache.Footprint
import Collate.Proofs.Cache.Obtaining

/-!
# The steps of a cache

How a step that is made of others ends (`KernelCache.bind_cases`), and the parts of which a
compilation is made (`KernelCache.build_eq`).

A step under the lock of a signature fails because the lock cannot be taken, or is done while the
lock is held (`KernelCache.underLock_cases`).  What is done meanwhile to other files of the
signature is all that is done, and the lock is free again (`KernelCache.touches_underLock`).
-/

namespace Collate

namespace KernelCache

open Volume ArtifactStore

variable {α β : Type} {c c' : KernelCache} {v v' w : Volume} {L : Location} {key : String}
  {step : Step α} {next : α → Step β}

/-! ### Steps that end -/

theorem exists_outcome (step : Step α) (x : KernelCache × Volume) :
    ∃ answer c' v', step x = (answer, (c', v')) := ⟨_, _, _, rfl⟩

theorem bind_cases {answer : Except CacheError β}
    (h : (step >>= next) (c, v) = (answer, (c', v'))) :
    (∃ e, step (c, v) = (.error e, (c', v')) ∧ answer = .error e) ∨
      ∃ a c₁ v₁, step (c, v) = (.ok a, (c₁, v₁)) ∧ next a (c₁, v₁) = (answer, (c', v')) := by
  obtain ⟨first, c₁, v₁, hstep⟩ := exists_outcome step (c, v)
  cases first with
  | error e =>
    rw [bind_apply_error hstep] at h
    obtain ⟨rfl, hstate⟩ := Prod.mk.inj h
    exact Or.inl ⟨e, hstep.trans (by rw [hstate]), rfl⟩
  | ok a => exact Or.inr ⟨a, c₁, v₁, hstep, (bind_apply hstep).symm.trans h⟩

theorem onStore_cases {action : ArtifactStore → Volume.Action CacheError α}
    {answer : Except CacheError α} (h : onStore action (c, v) = (answer, (c', v'))) :
    c' = c ∧ action c.store v = (answer, v') := by
  obtain ⟨hanswer, hstate⟩ := Prod.mk.inj h
  obtain ⟨hc, hv⟩ := Prod.mk.inj hstate
  exact ⟨hc.symm, Prod.ext hanswer hv⟩

theorem look_ok {f : KernelCache → Volume → α} :
    look (fun c v => .ok (f c v)) (c, v) = (.ok (f c v), (c, v)) := rfl

theorem runToolchain_apply (key text : String) : runToolchain key text (c, v) =
    (.ok (c.toolchain.compile key text), ({ c with compiles := c.compiles + 1 }, v)) := by
  unfold runToolchain
  rw [bind_apply change_apply, look]

/-! ### The parts of a compilation -/

/-- Publishes an artifact and loads it, or removes it again. -/
def publish (key : String) (bytes : List UInt8) : Step LoadedKernel := do
  let _ ← onStore (·.commit key bytes)
  match ← look fun c v => .ok (c.load v key) with
  | .ok (some kernel) => return kernel
  | .ok none => throw (.load key .missing)
  | .error e =>
    onStore (·.evict key)
    throw e

/-- Compiles a source and publishes what comes out. -/
def compile (key text : String) : Step LoadedKernel := do
  let _ ← onStore (·.writeSource key text)
  let compiled ← runToolchain key text
  onStore (·.removeSource key)
  match compiled with
  | .error e => throw e
  | .ok [] => do
    let name ← look fun c _ => .ok c.toolchain.name
    throw (.compile key (.noOutput name))
  | .ok bytes => publish key bytes

theorem build_eq (key : String) (synthesize : Except SourceError Source) :
    build key synthesize = (do
      change fun c => { c with syntheses := c.syntheses + 1 }
      match synthesize with
      | .error e => throw (.synthesis e)
      | .ok source => compile key source.text) := rfl

/-! ### Under the lock -/

/-- The lock of a signature can be taken. -/
def CanLock (c : KernelCache) (v : Volume) (key : String) : Prop :=
  ∃ token, (ArtifactStore.lock (c.store.lockPath key) c.lockTimeout v).1 = .ok token

theorem canLock_iff : c.CanLock v key ↔ ∃ l, v.locate (c.store.lockPath key) = .ok l ∧
    v.node? l ≠ some .directory ∧ v.isLocked l = false := by
  rw [CanLock, ArtifactStore.lock_eq]
  cases hlocate : v.locate (c.store.lockPath key) with
  | error e =>
    refine iff_of_false (fun ⟨token, h⟩ => ?_) fun ⟨l, h, _⟩ => ?_
    · cases h
    · cases h
  | ok l =>
    simp only [Except.ok.injEq, exists_eq_left']
    split_ifs with hdirectory hlocked
    · exact iff_of_false (fun ⟨token, h⟩ => by cases h) fun h => h.1 hdirectory
    · refine iff_of_false (fun ⟨token, h⟩ => by cases h) fun h => ?_
      rw [h.2] at hlocked
      cases hlocked
    · exact iff_of_true ⟨_, rfl⟩ ⟨hdirectory, by simpa using hlocked⟩

theorem underLock_eq (key : String) (step : Step α) : underLock key step (c, v) =
    match ArtifactStore.lock (c.store.lockPath key) c.lockTimeout v with
    | (.error e, w) => (.error e, (c, w))
    | (.ok token, w) =>
      ((step (c, w)).1, ((step (c, w)).2.1, (step (c, w)).2.2.unlock token)) := by
  rw [underLock, bind_apply (look_ok (f := fun c _ => c.lockTimeout))]
  cases hlock : ArtifactStore.lock (c.store.lockPath key) c.lockTimeout v with
  | mk answer w =>
    have hacquire : onStore (fun s => ArtifactStore.lock (s.lockPath key) c.lockTimeout) (c, v) =
        (answer, (c, w)) :=
      onStore_apply (fun s => ArtifactStore.lock (s.lockPath key) c.lockTimeout) hlock
    cases answer with
    | error e => exact bind_apply_error hacquire
    | ok token => exact bind_apply hacquire

/-- The volume after the lock of a signature was taken. -/
def withLock (v : Volume) (L : Location) (key : String) : Volume :=
  (v.created (L.push (lockName key))).held (L.push (lockName key))

theorem touches_withLock (hfile : v.node? (L.push (lockName key)) ≠ some .directory) :
    Touches {L.push (lockName key)} {L.push (lockName key)} v (withLock v L key) :=
  ((touches_created hfile).mono subset_rfl (Set.empty_subset _)).trans
    ((touches_held _ _).mono (Set.empty_subset _) subset_rfl)

theorem mem_locks_withLock {lock : Nat × Location} : lock ∈ (withLock v L key).locks ↔
    lock = (v.fresh, L.push (lockName key)) ∨ lock ∈ v.locks := by
  rw [withLock, held, List.mem_cons, fresh_created, locks_created]

/-- A step under a lock fails because the lock is not taken, which touches no file but that of the
lock, or it is done while the lock is held. -/
theorem underLock_cases {answer : Except CacheError α} (hk : IsKey key)
    (h : underLock key step (c, v) = (answer, (c', v'))) :
    (¬c.CanLock v key ∧ (∃ e, answer = .error e) ∧ c' = c ∧
        c.store.TouchesIn {lockName key} ∅ v v') ∨
      ∃ L w, c.CanLock v key ∧ v.Enters c.store.root L ∧
        v.locate (c.store.lockPath key) = .ok (L.push (lockName key)) ∧
        v.node? (L.push (lockName key)) ≠ some .directory ∧
        v.isLocked (L.push (lockName key)) = false ∧
        step (c, withLock v L key) = (answer, (c', w)) ∧ v' = w.unlock v.fresh := by
  have hfile := isFileName_lock hk
  rw [underLock_eq, ArtifactStore.lock_eq] at h
  cases hlocate : v.locate (c.store.lockPath key) with
  | error e =>
    rw [hlocate] at h
    obtain ⟨rfl, hstate⟩ := Prod.mk.inj h
    obtain ⟨rfl, rfl⟩ := Prod.mk.inj hstate
    refine Or.inl ⟨fun hcan => ?_, ⟨_, rfl⟩, rfl, Or.inl rfl⟩
    obtain ⟨l, hl, -⟩ := canLock_iff.1 hcan
    rw [hlocate] at hl
    cases hl
  | ok l =>
    obtain ⟨L, hv, rfl⟩ := Enters.of_locate_join hfile.toIsName hlocate
    rw [hlocate] at h
    have hcan : c.CanLock v key ↔ v.node? (L.push (lockName key)) ≠ some .directory ∧
        v.isLocked (L.push (lockName key)) = false := by
      rw [canLock_iff, hlocate]
      simp
    by_cases hdirectory : v.node? (L.push (lockName key)) = some .directory
    · simp only [if_pos hdirectory] at h
      obtain ⟨rfl, hstate⟩ := Prod.mk.inj h
      obtain ⟨rfl, rfl⟩ := Prod.mk.inj hstate
      exact Or.inl ⟨fun hc => (hcan.1 hc).1 hdirectory, ⟨_, rfl⟩, rfl, Or.inl rfl⟩
    · by_cases hlocked : v.isLocked (L.push (lockName key))
      · simp only [if_neg hdirectory, if_pos hlocked] at h
        obtain ⟨rfl, hstate⟩ := Prod.mk.inj h
        obtain ⟨rfl, rfl⟩ := Prod.mk.inj hstate
        refine Or.inl ⟨fun hc => ?_, ⟨_, rfl⟩, rfl, .of_touches hv ?_⟩
        · rw [(hcan.1 hc).2] at hlocked
          cases hlocked
        · rw [filesIn_singleton, filesIn_empty]
          exact touches_created hdirectory
      · simp only [if_neg hdirectory, if_neg hlocked] at h
        obtain ⟨rfl, hstate⟩ := Prod.mk.inj h
        obtain ⟨rfl, rfl⟩ := Prod.mk.inj hstate
        have hfree : v.isLocked (L.push (lockName key)) = false := by simpa using hlocked
        exact Or.inr ⟨L, _, hcan.2 ⟨hdirectory, hfree⟩, hv, rfl, hdirectory, hfree, rfl, rfl⟩

/-- What is done to the files of a signature under its lock touches no other file, and the lock is
free again. -/
theorem touches_underLock {w : Volume} (hfile : v.node? (L.push (lockName key)) ≠ some .directory)
    (hfree : v.isLocked (L.push (lockName key)) = false)
    (hwork : Touches (filesIn L (workNames key)) (filesIn L (workNames key))
      (withLock v L key) w) :
    Touches (filesIn L (names key)) Set.univ v (w.unlock v.fresh) ∧
      (w.unlock v.fresh).isLocked (L.push (lockName key)) = false := by
  have hlock : {L.push (lockName key)} ⊆ filesIn L (names key) :=
    Set.singleton_subset_iff.2 (push_mem_filesIn.2 (Set.mem_insert _ _))
  have hbefore : Touches (filesIn L (names key)) Set.univ v (withLock v L key) :=
    (touches_withLock hfile).mono hlock (Set.subset_univ _)
  refine ⟨(hbefore.trans (hwork.mono (filesIn_mono (Set.subset_insert _ _))
    (Set.subset_univ _))).trans ((touches_unlock w v.fresh).mono (Set.empty_subset _) subset_rfl),
    ?_⟩
  rw [isLocked, List.any_eq_false]
  rintro ⟨token, l⟩ hmem heq
  obtain rfl : l = L.push (lockName key) := of_decide_eq_true heq
  obtain ⟨hmem, htoken⟩ := mem_locks_unlock.1 hmem
  have hnot : L.push (lockName key) ∉ filesIn L (workNames key) :=
    fun hin => lockName_notMem_workNames (push_mem_filesIn.1 hin)
  rcases mem_locks_withLock.1 ((hwork.locks token _ hnot).2 hmem) with heq | hold
  · exact htoken (Prod.mk.inj heq).1
  · rw [isLocked, List.any_eq_false] at hfree
    exact hfree _ hold (decide_eq_true rfl)

/-- Where tokens are taken from the numbers, no other lock is given back with that of a
signature. -/
theorem touches_unlocked {A B : Set String}
    (hfile : v.node? (L.push (lockName key)) ≠ some .directory)
    (htokens : v.TokensTaken) (hwork : Touches (filesIn L A) (filesIn L B) (withLock v L key) w) :
    Touches (filesIn L (insert (lockName key) A)) (filesIn L B) v (w.unlock v.fresh) := by
  have hlock : {L.push (lockName key)} ⊆ filesIn L (insert (lockName key) A) :=
    Set.singleton_subset_iff.2 (push_mem_filesIn.2 (Set.mem_insert _ _))
  have hbefore : Touches (filesIn L (insert (lockName key) A)) Set.univ v (withLock v L key) :=
    (touches_withLock hfile).mono hlock (Set.subset_univ _)
  have hall : Touches (filesIn L (insert (lockName key) A)) Set.univ v (w.unlock v.fresh) :=
    (hbefore.trans (hwork.mono (filesIn_mono (Set.subset_insert _ _)) (Set.subset_univ _))).trans
      ((touches_unlock w v.fresh).mono (Set.empty_subset _) subset_rfl)
  refine ⟨⟨hall.nodes, hall.directories, fun token l hl => ?_⟩, hall.fresh, hall.tokens⟩
  rw [mem_locks_unlock, ← hwork.locks token l hl, mem_locks_withLock]
  constructor
  · exact fun hmem => ⟨Or.inr hmem, Nat.ne_of_lt (htokens (token, l) hmem)⟩
  · rintro ⟨heq | hmem, hne⟩
    · exact absurd (Prod.mk.inj heq).1 hne
    · exact hmem

end KernelCache

end Collate
