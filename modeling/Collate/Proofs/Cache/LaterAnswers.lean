import Collate.Proofs.Cache.Agreement
import Collate.Proofs.Cache.Failures

/-!
# Answers to later requests

What a cache answers to requests for some signatures depends on the kernels that it remembers of
them, on their artifacts and sources and on the locks.  Caches over volumes that agree on these
(`KernelCache.Agree`) give the same answers to any requests for the signatures, whatever locks are
given back between them (`KernelCache.Agree.answers`).
-/

namespace Collate

namespace KernelCache

open Volume ArtifactStore

variable {keys : Set String} {c c' d d' : KernelCache} {v v' w w' : Volume} {L : Location}
  {key : String} {x y : KernelCache × Volume} {α : Type} {step : Step α}

/-! ### Under a lock -/

/-- Caches remember the same kernels of some signatures, and are the same otherwise, but for what
they count. -/
structure AgreesWith (keys : Set String) (c d : KernelCache) : Prop where
  store : d.store = c.store
  toolchain : d.toolchain = c.toolchain
  lockTimeout : d.lockTimeout = c.lockTimeout
  loaded : ∀ key ∈ keys, d.memoized? key = c.memoized? key

/-- Caches agree with the volumes under them, whatever the locks are. -/
structure AgreeWithin (keys : Set String) (L : Location) (x y : KernelCache × Volume) : Prop where
  caches : AgreesWith keys x.1 y.1
  volumes : x.1.store.Agree keys L Set.univ x.2 y.2

theorem alike_onStore {action : ArtifactStore → Volume.Action CacheError α}
    (h : ∀ s : ArtifactStore, Alike (s.Agree keys L Set.univ) (action s)) :
    Alike (AgreeWithin keys L) (onStore action) := by
  rintro ⟨c, v⟩ ⟨d, w⟩ hxy
  obtain ⟨hanswer, hvolumes⟩ := h c.store v w hxy.volumes
  have hstore : d.store = c.store := hxy.caches.store
  show SameAnswer (action c.store v).1 (action d.store w).1 ∧
    AgreeWithin keys L (c, (action c.store v).2) (d, (action d.store w).2)
  rw [hstore]
  exact ⟨hanswer, hxy.caches, hvolumes⟩

theorem alike_look {f : KernelCache → Volume → Except CacheError α}
    (h : ∀ x y, AgreeWithin keys L x y → f x.1 x.2 = f y.1 y.2) :
    Alike (AgreeWithin keys L) (look f) := by
  intro x y hxy
  refine ⟨?_, hxy⟩
  show SameAnswer (f x.1 x.2) (f y.1 y.2)
  rw [h x y hxy]
  exact .same _

theorem alike_change {f : KernelCache → KernelCache} (hstore : ∀ c, (f c).store = c.store)
    (h : ∀ c d, AgreesWith keys c d → AgreesWith keys (f c) (f d)) :
    Alike (AgreeWithin keys L) (change f) := by
  intro x y hxy
  refine ⟨.same _, h _ _ hxy.caches, ?_⟩
  show (f x.1).store.Agree keys L Set.univ x.2 y.2
  rw [hstore]
  exact hxy.volumes

theorem alike_runToolchain (text : String) :
    Alike (AgreeWithin keys L) (runToolchain key text) := by
  unfold runToolchain
  refine Alike.bind (alike_change (fun _ => rfl) fun c d h => ?_) fun _ =>
    alike_look fun x y h => ?_
  · exact ⟨h.store, h.toolchain, h.lockTimeout, h.loaded⟩
  · rw [h.caches.toolchain]

section

variable (hk : IsKey key) (hkey : key ∈ keys)
include hk hkey

theorem AgreeWithin.load (h : AgreeWithin keys L x y) : x.1.load x.2 key = y.1.load y.2 key := by
  have hfind : x.2.find (x.1.store.artifactPath key) = y.2.find (x.1.store.artifactPath key) :=
    h.volumes.find (isFileName_artifact hk)
      (artifactName_mem_storedNames hkey)
  have hread : x.1.store.read x.2 key = x.1.store.read y.2 key := by
    unfold ArtifactStore.read
    rw [read_eq_of_find_eq hfind]
  unfold KernelCache.load
  rw [h.caches.store, hread]

theorem alike_load : Alike (AgreeWithin keys L) (look fun c v => .ok (c.load v key)) :=
  alike_look fun x y h => by rw [h.load hk hkey]

theorem alike_publish (bytes : List UInt8) : Alike (AgreeWithin keys L) (publish key bytes) := by
  refine (alike_onStore fun s => alike_commit hk hkey bytes).bind fun p => ?_
  refine (alike_load hk hkey).bind fun loaded => ?_
  rcases loaded with e | _ | kernel
  · exact (alike_onStore fun s => alike_evict hk hkey).bind fun _ => alike_throw e
  · exact alike_throw _
  · exact alike_pure kernel

theorem alike_compile (text : String) : Alike (AgreeWithin keys L) (compile key text) := by
  refine (alike_onStore fun s => alike_writeSource hk hkey text).bind fun p => ?_
  refine (alike_runToolchain text).bind fun compiled => ?_
  refine (alike_onStore fun s => alike_removeSource hk hkey).bind fun u => ?_
  rcases compiled with e | _ | ⟨b, bs⟩
  · exact alike_throw e
  · exact (alike_look fun x y h => by rw [h.caches.toolchain]).bind fun name => alike_throw _
  · exact alike_publish hk hkey (b :: bs)

theorem alike_build (synthesize : Except SourceError Source) :
    Alike (AgreeWithin keys L) (build key synthesize) := by
  rw [build_eq]
  refine Alike.bind (alike_change (fun _ => rfl) fun c d h => ?_) fun u => ?_
  · exact ⟨h.store, h.toolchain, h.lockTimeout, h.loaded⟩
  · cases synthesize with
    | error e => exact alike_throw _
    | ok source => exact alike_compile hk hkey source.text

theorem alike_loadOrBuild (synthesize : Except SourceError Source) :
    Alike (AgreeWithin keys L) (loadOrBuild key synthesize) := by
  refine (alike_load hk hkey).bind fun loaded => ?_
  rcases loaded with e | _ | kernel
  · cases e with
    | load signature failure =>
      exact (alike_onStore fun s => alike_evict hk hkey).bind fun _ =>
        alike_build hk hkey synthesize
    | _ => exact alike_throw _
  · exact alike_build hk hkey synthesize
  · exact alike_pure kernel

end

/-- Takes a kernel from the directory or compiles it, and remembers it. -/
def loadAndRemember (key : String) (synthesize : Except SourceError Source) :
    Step LoadedKernel := do
  let kernel ← loadOrBuild key synthesize
  change fun c => { c with loaded := c.loaded.insert key kernel }
  return kernel

theorem obtain_eq (signature : Signature) (synthesize : Except SourceError Source) :
    obtain signature synthesize (c, v) = match c.memoized? signature.key with
      | some kernel => (.ok kernel, (c, v))
      | none => underLock signature.key (loadAndRemember signature.key synthesize) (c, v) := by
  unfold obtain
  rw [bind_apply (look_ok (f := fun c _ => c.memoized? signature.key))]
  cases c.memoized? signature.key <;> rfl

theorem alike_loadAndRemember (hk : IsKey key) (hkey : key ∈ keys)
    (synthesize : Except SourceError Source) :
    Alike (AgreeWithin keys L) (loadAndRemember key synthesize) := by
  refine (alike_loadOrBuild hk hkey synthesize).bind fun kernel => ?_
  refine Alike.bind (alike_change (fun _ => rfl) fun c d h => ?_) fun u => alike_pure kernel
  refine ⟨h.store, h.toolchain, h.lockTimeout, fun other hother => ?_⟩
  have hloaded := h.loaded other hother
  simp only [memoized?, Table.get?_insert] at hloaded ⊢
  rw [hloaded]

/-! ### Around a lock -/

/-- A step keeps to the files on which a signature is worked. -/
def KeepsTo (key : String) (step : Step α) : Prop :=
  ∀ L (x : KernelCache × Volume), x.2.Enters x.1.store.root L →
    (step x).2.1.store = x.1.store ∧
      Touches (filesIn L (workNames key)) (filesIn L (workNames key)) x.2 (step x).2.2

theorem Works.keepsTo {n : Nat} (h : Works key n step) : KeepsTo key step :=
  fun L x hx => ⟨(h L x hx).store, (h L x hx).volume⟩

theorem keepsTo_loadAndRemember (hk : IsKey key) (synthesize : Except SourceError Source) :
    KeepsTo key (loadAndRemember key synthesize) := by
  rintro L ⟨c, v⟩ hv
  have hkept := (works_loadOrBuild hk synthesize).keepsTo L (c, v) hv
  obtain ⟨answer, c₁, v₁, hload⟩ := exists_outcome (loadOrBuild key synthesize) (c, v)
  rw [hload] at hkept
  unfold loadAndRemember
  cases answer with
  | error e => rwa [bind_apply_error hload]
  | ok kernel =>
    rw [bind_apply hload, bind_apply change_apply]
    exact hkept

/-- What is done under a lock uses only numbers that were not used. -/
theorem unspent_underLock {answer : Except CacheError α} (hk : IsKey key)
    (hkeeps : KeepsTo key step) (hunspent : c.store.Unspent v)
    (h : underLock key step (c, v) = (answer, (c', v'))) : c'.store.Unspent v' := by
  rcases underLock_cases hk h with ⟨-, -, rfl, hsame⟩ | ⟨L, w, -, hv, -, hfile, -, hstep, rfl⟩
  · exact hunspent.of_touchesIn hsame
  · obtain ⟨hstore, hwork⟩ :=
      hkeeps L (c, withLock v L key) (hv.of_keeps (touches_withLock hfile).keeps)
    rw [hstep] at hstore hwork
    have hsame := touches_unlocked hfile hunspent.tokens hwork
    rw [show c'.store = c.store from hstore]
    exact hunspent.of_touches hsame

/-- Caches agree with the volumes under them on some signatures and on all locks.  If the directory
is not there, no lock is taken, and the volumes are the same. -/
structure Agree (keys : Set String) (x y : KernelCache × Volume) : Prop where
  caches : AgreesWith keys x.1 y.1
  volumes : (∃ L, x.1.store.Agree keys L (filesIn L (Set.range lockName))ᶜ x.2 y.2) ∨
    (∀ L, ¬x.2.Enters x.1.store.root L) ∧ y.2 = x.2

/-- Caches agree after something was done to files on which they need not agree. -/
theorem agree_of_touchesIn {A B : Set String} (hc : AgreesWith keys c d)
    (hunspent : c.store.Unspent v) (h : c.store.TouchesIn A B v w)
    (hA : ∀ name ∈ storedNames keys, name ∉ A) (hB : ∀ key, lockName key ∉ B) :
    Agree keys (c, v) (d, w) := by
  refine ⟨hc, ?_⟩
  rcases h with rfl | ⟨L, hv, hsame⟩
  · by_cases hv : ∃ L, w.Enters c.store.root L
    · obtain ⟨L, hv⟩ := hv
      exact Or.inl ⟨L, .refl _ _ w, hv, hunspent, hunspent⟩
    · exact Or.inr ⟨fun L hL => hv ⟨L, hL⟩, rfl⟩
  · refine Or.inl ⟨L, hsame.toSameApart.mono ?_ ?_, hv, hunspent, hunspent.of_touches hsame⟩
    · rintro l ⟨name, hname, rfl⟩ hstored
      exact hA name (push_mem_filesIn.1 hstored) hname
    · rintro l ⟨name, hname, rfl⟩ hlock
      obtain ⟨key, rfl⟩ := push_mem_filesIn.1 hlock
      exact hB key hname

theorem underLock_of_enters (step : Step α) (hk : IsKey key) (hv : v.Enters c.store.root L) :
    underLock key step (c, v) = match usableSteps (c.store.lockPath key) with
      | .error e => (.error (.io (c.store.lockPath key) e), (c, v))
      | .ok _ =>
        if v.node? (L.push (lockName key)) = some .directory then
          (.error (.io (c.store.lockPath key) .isADirectory), (c, v))
        else if v.isLocked (L.push (lockName key)) then
          (.error (waited (c.store.lockPath key) c.lockTimeout),
            (c, v.created (L.push (lockName key))))
        else ((step (c, withLock v L key)).1, ((step (c, withLock v L key)).2.1,
          (step (c, withLock v L key)).2.2.unlock v.fresh)) := by
  have hlocate : v.locate (c.store.lockPath key) =
      (usableSteps (c.store.lockPath key)).map fun _ => L.push (lockName key) :=
    hv.locate_file (isFileName_lock hk)
  rw [underLock_eq, ArtifactStore.lock_eq, hlocate]
  cases usableSteps (c.store.lockPath key) with
  | error e => rfl
  | ok steps =>
    simp only [Except.map]
    split_ifs <;> rfl

theorem underLock_of_not_enters (step : Step α) (hk : IsKey key)
    (hnot : ∀ L, ¬v.Enters c.store.root L) :
    ∃ e, ∀ {d : KernelCache}, d.store = c.store → d.lockTimeout = c.lockTimeout →
      underLock key step (d, v) = (.error e, (d, v)) := by
  cases hlocate : v.locate (c.store.lockPath key) with
  | ok l =>
    obtain ⟨L, hv, -⟩ :=
      Enters.of_locate_join (isFileName_lock hk).toIsName hlocate
    exact absurd hv (hnot L)
  | error e =>
    refine ⟨.io (c.store.lockPath key) e, fun {d} hstore htimeout => ?_⟩
    rw [underLock_eq, ArtifactStore.lock_eq, hstore, hlocate]

theorem workNames_subset_compl :
    filesIn L (workNames key) ⊆ (filesIn L (Set.range lockName))ᶜ := by
  rintro l ⟨name, hname, rfl⟩ hlock
  obtain ⟨other, rfl⟩ := push_mem_filesIn.1 hlock
  exact lockName_notMem_workNames hname

theorem push_lockName_notMem (key : String) {name : String} (hname : name ∈ storedNames keys) :
    L.push name ∉ ({L.push (lockName key)} : Set Location) ∪ {L.push (lockName key)} := by
  intro hin
  have heq : L.push name = L.push (lockName key) := hin.elim id id
  rw [push_inj.1 heq] at hname
  exact lockName_notMem_storedNames hname

/-- What is done while the lock is held is done alike, and the locks of all signatures are as they
were when it is given back. -/
theorem agree_of_withLock (hstep : ∀ L, Alike (AgreeWithin keys L) step)
    (hkeeps : KeepsTo key step) (hcaches : AgreesWith keys c d)
    (h : c.store.Agree keys L (filesIn L (Set.range lockName))ᶜ v w)
    (hfile : v.node? (L.push (lockName key)) ≠ some .directory) :
    SameAnswer (step (c, withLock v L key)).1 (step (d, withLock w L key)).1 ∧
      Agree keys
        ((step (c, withLock v L key)).2.1, (step (c, withLock v L key)).2.2.unlock v.fresh)
        ((step (d, withLock w L key)).2.1, (step (d, withLock w L key)).2.2.unlock w.fresh) := by
  have hfile' := mt (h.same.directories _).2 hfile
  have hwithin : AgreeWithin keys L (c, withLock v L key) (d, withLock w L key) := by
    refine ⟨hcaches, (h.mono (Set.subset_univ _)).of_touches (touches_withLock hfile)
      (touches_withLock hfile') (Set.subset_univ _) fun name hname hin => ?_⟩
    exact absurd hin (push_lockName_notMem key hname)
  obtain ⟨hanswer, hafter⟩ := hstep L _ _ hwithin
  obtain ⟨hstore, hwork⟩ := hkeeps L _ hwithin.volumes.enters
  have hright : (withLock w L key).Enters d.store.root L := by
    rw [hcaches.store]
    exact hwithin.volumes.enters_right
  obtain ⟨-, hwork'⟩ := hkeeps L (d, withLock w L key) hright
  have hvolumes := h.of_touches (touches_unlocked hfile h.left.tokens hwork)
    (touches_unlocked hfile' h.right.tokens hwork')
    (Set.union_subset workNames_subset_compl workNames_subset_compl)
    fun name hname _ => hafter.volumes.node? hname
  refine ⟨hanswer, hafter.caches, Or.inl ⟨L, ?_⟩⟩
  rw [← hstore] at hvolumes
  exact hvolumes

/-- Caches that agree cannot be told apart by what is done under a lock. -/
theorem agree_underLock (hk : IsKey key) (hstep : ∀ L, Alike (AgreeWithin keys L) step)
    (hkeeps : KeepsTo key step) : Alike (Agree keys) (underLock key step) := by
  rintro ⟨c, v⟩ ⟨d, w⟩ h
  have hcaches : AgreesWith keys c d := h.caches
  rcases h.volumes with ⟨L, hagree⟩ | ⟨hnot, heq⟩
  · change c.store.Agree keys L (filesIn L (Set.range lockName))ᶜ v w at hagree
    have hright : w.Enters d.store.root L := by
      rw [hcaches.store]
      exact hagree.enters_right
    have hunder := underLock_of_enters step hk hagree.enters
    have hunder' := underLock_of_enters step hk hright
    have hdirectories := hagree.same.directories (L.push (lockName key))
    have hlocks : v.isLocked (L.push (lockName key)) = w.isLocked (L.push (lockName key)) :=
      hagree.same.isLocked fun hnot => hnot (push_mem_filesIn.2 ⟨key, rfl⟩)
    rw [hcaches.store, hcaches.lockTimeout, ← hlocks] at hunder'
    cases husable : usableSteps (c.store.lockPath key) with
    | error e =>
      rw [husable] at hunder hunder'
      exact sameAnswer_and_of_eq hunder hunder' (.same _) ⟨hcaches, Or.inl ⟨L, hagree⟩⟩
    | ok steps =>
      rw [husable] at hunder hunder'
      by_cases hdirectory : v.node? (L.push (lockName key)) = some .directory
      · simp only [if_pos hdirectory] at hunder
        simp only [if_pos (hdirectories.1 hdirectory)] at hunder'
        exact sameAnswer_and_of_eq hunder hunder' (.same _) ⟨hcaches, Or.inl ⟨L, hagree⟩⟩
      · have hdirectory' := mt hdirectories.2 hdirectory
        simp only [if_neg hdirectory] at hunder
        simp only [if_neg hdirectory'] at hunder'
        by_cases hlocked : v.isLocked (L.push (lockName key))
        · simp only [if_pos hlocked] at hunder hunder'
          refine sameAnswer_and_of_eq hunder hunder' (.same _) ⟨hcaches, Or.inl ⟨L, ?_⟩⟩
          refine hagree.of_touches (touches_created hdirectory) (touches_created hdirectory')
            (by simp) fun name hname hin => ?_
          exact absurd hin (push_lockName_notMem key hname)
        · simp only [if_neg hlocked] at hunder hunder'
          obtain ⟨hanswer, hafter⟩ := agree_of_withLock hstep hkeeps hcaches hagree hdirectory
          exact sameAnswer_and_of_eq hunder hunder' hanswer hafter
  · change ∀ L, ¬v.Enters c.store.root L at hnot
    obtain rfl : w = v := heq
    obtain ⟨e, hfails⟩ := underLock_of_not_enters step hk hnot
    rw [hfails rfl rfl, hfails hcaches.store hcaches.lockTimeout]
    exact ⟨.same _, h⟩

/-! ### Requests -/

theorem unspent_obtain {signature : Signature} {synthesize : Except SourceError Source}
    {answer : Except CacheError LoadedKernel} (hunspent : c.store.Unspent v)
    (h : obtain signature synthesize (c, v) = (answer, (c', v'))) : c'.store.Unspent v' := by
  rw [obtain_eq] at h
  cases hmemo : c.memoized? signature.key with
  | some kernel =>
    rw [hmemo] at h
    obtain ⟨-, hstate⟩ := Prod.mk.inj h
    obtain ⟨rfl, rfl⟩ := Prod.mk.inj hstate
    exact hunspent
  | none =>
    rw [hmemo] at h
    exact unspent_underLock signature.isKey_key
      (keepsTo_loadAndRemember signature.isKey_key synthesize) hunspent h

/-- A request is answered the same by caches that agree on its signature. -/
theorem agree_obtain {signature : Signature} (hkey : signature.key ∈ keys)
    (synthesize : Except SourceError Source) :
    Alike (Agree keys) (obtain signature synthesize) := by
  rintro ⟨c, v⟩ ⟨d, w⟩ h
  rw [obtain_eq, obtain_eq, h.caches.loaded _ hkey]
  cases c.memoized? signature.key with
  | some kernel => exact ⟨.same _, h⟩
  | none =>
    exact agree_underLock signature.isKey_key
      (fun L => alike_loadAndRemember signature.isKey_key hkey synthesize)
      (keepsTo_loadAndRemember signature.isKey_key synthesize) _ _ h

/-- What happens to a cache later. -/
inductive Event
  /-- a kernel is requested -/
  | requested (signature : Signature) (synthesize : Except SourceError Source)
  /-- a lock that someone holds is given back -/
  | unlocked (token : Nat)

/-- The kernel of a signature in the set is requested, if one is. -/
def Event.IsFor (keys : Set String) : Event → Prop
  | requested signature _ => signature.key ∈ keys
  | unlocked _ => True

theorem Event.isFor_univ (event : Event) : event.IsFor Set.univ := by
  cases event <;> trivial

/-- The answers to all requests, one after the other. -/
def answers : List Event → KernelCache × Volume → List (Except CacheError LoadedKernel)
  | [], _ => []
  | .requested signature synthesize :: rest, x =>
    (obtain signature synthesize x).1 :: answers rest (obtain signature synthesize x).2
  | .unlocked token :: rest, x => answers rest (x.1, x.2.unlock token)

theorem Agree.unlock (h : Agree keys x y) (token : Nat) :
    Agree keys (x.1, x.2.unlock token) (y.1, y.2.unlock token) := by
  have hkeeps := (touches_unlock x.2 token).keeps
  refine ⟨h.caches, ?_⟩
  rcases h.volumes with ⟨L, hagree⟩ | ⟨hnot, heq⟩
  · refine Or.inl ⟨L, ⟨hagree.same.nodes, hagree.same.directories, fun other l hl => ?_⟩,
      hagree.enters.of_keeps hkeeps, hagree.left.of_touches (touches_unlock _ _),
      hagree.right.of_touches (touches_unlock _ _)⟩
    rw [mem_locks_unlock, mem_locks_unlock]
    exact and_congr_left' (hagree.same.locks other l hl)
  · refine Or.inr ⟨fun L hv => hnot L ?_, by rw [heq]⟩
    exact hv.of_keeps (touches_unlock x.2 token).symm.keeps

/-- Caches that agree on some signatures give the same answers to all requests for them. -/
theorem Agree.answers {events : List Event} (h : Agree keys x y)
    (hevents : ∀ event ∈ events, event.IsFor keys) :
    List.Forall₂ SameAnswer (answers events x) (answers events y) := by
  induction events generalizing x y with
  | nil => exact .nil
  | cons event rest ih =>
    obtain ⟨hevent, hrest⟩ := List.forall_mem_cons.1 hevents
    cases event with
    | requested signature synthesize =>
      obtain ⟨hanswer, hafter⟩ := agree_obtain hevent synthesize x y h
      exact .cons hanswer (ih hafter hrest)
    | unlocked token => exact ih (h.unlock token) hrest

end KernelCache

end Collate
