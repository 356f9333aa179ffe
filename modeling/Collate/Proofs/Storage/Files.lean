import Collate.Proofs.Storage.Effects

/-!
# Files in a directory

What the actions on a volume do to the files of a directory in which there are only files, and no
locks but one's own (`Volume.Serves`).  Every action succeeds there, changes the files that it
names, and leaves all directories where they were (`Volume.Becomes`).
-/

namespace Collate

/-- The bytes of a file. -/
def Node.bytes? : Node → Option (List UInt8)
  | directory => none
  | file bytes => some bytes

namespace Volume

/-- Only files are in the directory, and no lock is held on them but one's own. -/
structure Serves (v : Volume) (L : Location) (own : Option Nat) : Prop where
  directory : v.node? L = some .directory
  files : ∀ name, v.node? (L.push name) ≠ some .directory
  locks : ∀ lock ∈ v.locks, ∀ name, lock.2 = L.push name → own = some lock.1

/-- The bytes of a file in a directory. -/
def content? (v : Volume) (L : Location) (name : String) : Option (List UInt8) :=
  (v.node? (L.push name)).bind Node.bytes?

/-- What an action makes of a volume with a directory of files. -/
structure Becomes (v v' : Volume) (L : Location) (own : Option Nat)
    (content : String → Option (List UInt8)) : Prop where
  serves : v'.Serves L own
  keeps : Keeps v v'
  content : v'.content? L = content

variable {v v' : Volume} {L l m : Location} {own own' : Option Nat} {p : Path} {s : String}

theorem Serves.becomes (h : v.Serves L own) : Becomes v v L own (v.content? L) := ⟨h, .refl v, rfl⟩

theorem Serves.node?_push (h : v.Serves L own) (s : String) :
    v.node? (L.push s) = (v.content? L s).map .file := by
  have hfile := h.files s
  rw [content?]
  cases hnode : v.node? (L.push s) with
  | none => rfl
  | some node =>
    cases node with
    | directory => exact absurd hnode hfile
    | file bytes => rfl

theorem push_inj {s t : String} : L.push s = L.push t ↔ s = t := by
  constructor
  · intro h
    exact (Array.push_eq_push.1 h).1
  · rintro rfl
    rfl

theorem ne_push (L : Location) (s : String) : L ≠ L.push s := by
  intro h
  have := congrArg Array.size h
  rw [Array.size_push] at this
  omega

/-- One file is changed. -/
theorem Serves.becomes_update (h : v.Serves L own) (bytes : Option (List UInt8))
    (hnodes : ∀ m, v'.node? m = if m = L.push s then bytes.map .file else v.node? m)
    (hlocks : ∀ lock ∈ v'.locks, ∀ name, lock.2 = L.push name → own' = some lock.1) :
    Becomes v v' L own' (Function.update (v.content? L) s bytes) := by
  refine ⟨⟨?_, fun name => ?_, hlocks⟩, fun l hl => ?_, funext fun name => ?_⟩
  · rw [hnodes, if_neg (ne_push L s), h.directory]
  · rw [hnodes]
    split_ifs
    · cases bytes <;> simp
    · exact h.files name
  · rw [hnodes]
    split_ifs with heq
    · subst heq
      exact absurd hl (h.files s)
    · exact hl
  · rw [content?, hnodes, Function.update_apply]
    by_cases hname : name = s
    · subst hname
      rw [if_pos rfl, if_pos rfl]
      cases bytes <;> rfl
    · rw [if_neg (fun heq => hname (push_inj.1 heq)), if_neg hname]
      rfl

theorem Becomes.trans {v'' : Volume} {c c' : String → Option (List UInt8)}
    (h : Becomes v v' L own c) (h' : Becomes v' v'' L own' c') : Becomes v v'' L own' c' :=
  ⟨h'.serves, h.keeps.trans h'.keeps, h'.content⟩

/-! ### Single actions -/

theorem read_of_locate (h : v.Serves L own) (hp : v.locate p = .ok (L.push s)) :
    v.read p = match v.content? L s with
      | some bytes => .ok bytes
      | none => .error .notFound := by
  have hfind : v.find p = .ok ((v.content? L s).map .file) := by
    rw [find, hp]
    show Except.ok (v.node? (L.push s)) = _
    rw [h.node?_push]
  rw [read, hfind]
  cases v.content? L s <;> rfl

theorem write_of_locate (h : v.Serves L own) (hp : v.locate p = .ok (L.push s))
    (hslash : p.endsInSlash = false) (bytes : List UInt8) : ∃ v', write p bytes v = (.ok (), v') ∧
      Becomes v v' L own (Function.update (v.content? L) s (some bytes)) := by
  refine ⟨v.written (L.push s) bytes, ?_, ?_⟩
  · rw [write_eq hslash, hp]
    exact if_neg (h.files s)
  · exact h.becomes_update (some bytes) (node?_written (h.files s)) h.locks

/-- The name of a directory is no name for a file. -/
theorem write_of_endsInSlash (hslash : p.endsInSlash) (bytes : List UInt8) :
    (write p bytes v).2 = v := by
  rw [write, if_pos hslash]
  exact ask_bind_snd fun _ => ask_bind_snd fun _ => rfl

theorem remove_of_content_none (h : v.Serves L own) (hp : v.locate p = .ok (L.push s))
    (hs : v.content? L s = none) : remove p v = (.error .notFound, v) := by
  rw [remove_eq, hp]
  simp only [h.node?_push, hs, Option.map_none]

theorem remove_of_content_some (h : v.Serves L own) (hp : v.locate p = .ok (L.push s))
    {bytes : List UInt8} (hs : v.content? L s = some bytes) : ∃ v', remove p v = (.ok (), v') ∧
      Becomes v v' L own (Function.update (v.content? L) s none) := by
  refine ⟨v.erased (L.push s), ?_, ?_⟩
  · rw [remove_eq, hp]
    simp only [h.node?_push, hs, Option.map_some]
  · exact h.becomes_update none (node?_erased (h.files s))
      fun lock hlock => h.locks lock (List.mem_of_mem_filter hlock)

/-- A file gets the name of another one. -/
theorem rename_of_locate {source target : Path} {s t : String} (h : v.Serves L own)
    (hsource : v.locate source = .ok (L.push s)) (htarget : v.locate target = .ok (L.push t))
    {bytes : List UInt8} (hs : v.content? L s = some bytes) :
    ∃ v', rename source target v = (.ok (), v') ∧ Becomes v v' L own
      (Function.update (Function.update (v.content? L) s none) t (some bytes)) := by
  have hread : v.read source = .ok bytes := by rw [read_of_locate h hsource, hs]
  have herase : Becomes v { v with nodes := v.nodes.erase (L.push s) } L own
      (Function.update (v.content? L) s none) :=
    h.becomes_update none (fun m => node?_of_nodes_erase Array.push_ne_empty rfl) h.locks
  have hlocks : ∀ lock ∈ (v.moved (L.push s) (L.push t) bytes).locks, ∀ name,
      lock.2 = L.push name → own = some lock.1 := by
    intro lock hlock name hname
    obtain ⟨⟨token, l⟩, hmem, rfl⟩ := List.mem_map.1 hlock
    have hold := h.locks _ (List.mem_of_mem_filter hmem)
    by_cases hl : l = L.push s
    · exact hold s hl
    · exact hold name (by simpa [hl] using hname)
  have hinsert : Becomes _ (v.moved (L.push s) (L.push t) bytes) L own _ :=
    herase.serves.becomes_update (some bytes)
      (fun m => node?_of_nodes_insert Array.push_ne_empty rfl) hlocks
  rw [herase.content] at hinsert
  refine ⟨v.moved (L.push s) (L.push t) bytes, ?_, herase.trans hinsert⟩
  rw [rename_eq hread hsource, htarget]
  exact if_neg (h.files t)

/-! ### Names in a directory -/

theorem nameIn?_eq_some_iff : nameIn? L l = some s ↔ l = L.push s := by
  rw [nameIn?]
  constructor
  · intro h
    split_ifs at h with hin
    obtain ⟨front, hl⟩ := Array.back?_eq_some_iff.1 h
    rw [hl, Array.pop_push] at hin
    rw [hl, hin.2]
  · rintro rfl
    simp

/-- The names in a directory are those that have bytes, each once. -/
theorem Serves.exists_names (h : v.Serves L own) (hp : v.locate p = .ok L) :
    ∃ names, v.names p = .ok names ∧ names.Nodup ∧
      ∀ name, name ∈ names ↔ (v.content? L name).isSome := by
  refine ⟨v.nodes.keys.filterMap (nameIn? L), ?_, ?_, fun name => ?_⟩
  · rw [names, hp]
    simp only [bind, Except.bind, h.directory]
    rfl
  · refine List.Nodup.filterMap (fun l m name hl hm => ?_) v.nodes.distinct
    rw [Option.mem_def, nameIn?_eq_some_iff] at hl hm
    rw [hl, hm]
  · have hnode : v.node? (L.push name) = v.nodes.get? (L.push name) := if_neg Array.push_ne_empty
    rw [List.mem_filterMap]
    simp only [nameIn?_eq_some_iff, exists_eq_right]
    rw [Table.mem_keys_iff, ← Option.isSome_iff_exists, ← hnode, h.node?_push, Option.isSome_map]

/-! ### Locks -/

/-- A lock that nobody holds is taken; its file is made where there is none. -/
theorem tryLock_of_locate (h : v.Serves L none) (hp : v.locate p = .ok (L.push s)) :
    ∃ token v', tryLock p v = (.ok (some token), v') ∧ Becomes v v' L (some token)
      (Function.update (v.content? L) s (some ((v.content? L s).getD []))) := by
  have hfree : v.isLocked (L.push s) = false := by
    rw [isLocked, List.any_eq_false]
    intro lock hlock heq
    cases h.locks lock hlock s (by simpa using heq)
  have hlocks : ∀ lock ∈ (v.fresh, L.push s) :: v.locks, ∀ name, lock.2 = L.push name →
      some v.fresh = some lock.1 := by
    intro lock hlock name hname
    rcases List.mem_cons.1 hlock with rfl | hlock
    · rfl
    · cases h.locks lock hlock name hname
  have htaken := tryLock_eq p v
  rw [hp] at htaken
  simp only [hfree, Bool.false_eq_true, if_false] at htaken
  rw [if_neg (h.files s), created, h.node?_push] at htaken
  cases hs : v.content? L s with
  | none =>
    rw [hs, Option.map_none, if_pos rfl] at htaken
    exact ⟨_, _, htaken, h.becomes_update (some []) (node?_written (h.files s)) hlocks⟩
  | some bytes =>
    rw [hs, Option.map_some, if_neg (Option.some_ne_none _)] at htaken
    refine ⟨_, _, htaken, h.becomes_update (some bytes) (fun m => ?_) hlocks⟩
    split_ifs with hm
    · rw [hm]
      exact (h.node?_push s).trans (by rw [hs])
    · rfl

/-- Giving the lock back leaves none. -/
theorem becomes_unlock {token : Nat} (h : v.Serves L (some token)) :
    Becomes v (v.unlock token) L none (v.content? L) := by
  refine ⟨⟨h.directory, h.files, ?_⟩, .refl v, rfl⟩
  intro lock hlock name hname
  obtain ⟨hmem, hne⟩ := List.mem_filter.1 hlock
  have hown := h.locks lock hmem name hname
  simp [Option.some.inj hown] at hne

end Volume

end Collate
