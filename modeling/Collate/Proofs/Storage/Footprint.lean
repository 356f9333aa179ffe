import Collate.Proofs.Storage.Files

/-!
# What an action leaves as it was

Volumes may be the same apart from the files at some locations and the locks on some
(`Volume.SameApart`).  They have the same directories then, so a path that leads to a location in
one of them leads there in the other (`Volume.SameApart.locate`).  An action touches the files that
it erases, writes, moves or locks, and leaves all else the same (`Volume.Touches`).
-/

namespace Collate

namespace Volume

variable {v w u : Volume} {F G F' G' : Set Location} {L l m old new : Location} {p q : Path}
  {bytes : List UInt8} {name : String} {names : Set String}

/-- Volumes are the same apart from the files at some locations and the locks on some. -/
structure SameApart (F G : Set Location) (v w : Volume) : Prop where
  nodes : ∀ l ∉ F, v.node? l = w.node? l
  directories : ∀ l, v.node? l = some .directory ↔ w.node? l = some .directory
  locks : ∀ token, ∀ l ∉ G, (token, l) ∈ v.locks ↔ (token, l) ∈ w.locks

namespace SameApart

theorem refl (F G : Set Location) (v : Volume) : SameApart F G v v :=
  ⟨fun _ _ => rfl, fun _ => Iff.rfl, fun _ _ _ => Iff.rfl⟩

theorem symm (h : SameApart F G v w) : SameApart F G w v :=
  ⟨fun l hl => (h.nodes l hl).symm, fun l => (h.directories l).symm,
    fun token l hl => (h.locks token l hl).symm⟩

theorem trans (h : SameApart F G v w) (h' : SameApart F G w u) : SameApart F G v u :=
  ⟨fun l hl => (h.nodes l hl).trans (h'.nodes l hl),
    fun l => (h.directories l).trans (h'.directories l),
    fun token l hl => (h.locks token l hl).trans (h'.locks token l hl)⟩

theorem mono (h : SameApart F G v w) (hF : F ⊆ F') (hG : G ⊆ G') : SameApart F' G' v w :=
  ⟨fun l hl => h.nodes l fun hmem => hl (hF hmem), h.directories,
    fun token l hl => h.locks token l fun hmem => hl (hG hmem)⟩

theorem keeps (h : SameApart F G v w) : Keeps v w := fun l => (h.directories l).1

theorem locate (h : SameApart F G v w) : v.locate p = .ok l ↔ w.locate p = .ok l :=
  ⟨locate_of_keeps h.keeps, locate_of_keeps h.symm.keeps⟩

/-- Locks on a location that is not set apart are the same. -/
theorem isLocked (h : SameApart F G v w) (hl : l ∉ G) : v.isLocked l = w.isLocked l := by
  rw [Bool.eq_iff_iff, Volume.isLocked, Volume.isLocked, List.any_eq_true, List.any_eq_true]
  constructor
  · rintro ⟨⟨token, l'⟩, hmem, heq⟩
    obtain rfl : l' = l := of_decide_eq_true heq
    exact ⟨_, (h.locks token l' hl).1 hmem, heq⟩
  · rintro ⟨⟨token, l'⟩, hmem, heq⟩
    obtain rfl : l' = l := of_decide_eq_true heq
    exact ⟨_, (h.locks token l' hl).2 hmem, heq⟩

end SameApart

/-! ### Files that are touched -/

/-- The tokens of locks are numbers that were taken. -/
def TokensTaken (v : Volume) : Prop := ∀ lock ∈ v.locks, lock.1 < v.fresh

/-- All that is done touches the files at some locations and the locks on some. -/
structure Touches (F G : Set Location) (v w : Volume) : Prop extends SameApart F G v w where
  fresh : v.fresh ≤ w.fresh
  tokens : v.TokensTaken → w.TokensTaken

namespace Touches

theorem refl (F G : Set Location) (v : Volume) : Touches F G v v := ⟨.refl F G v, le_rfl, id⟩

theorem trans (h : Touches F G v w) (h' : Touches F G w u) : Touches F G v u :=
  ⟨h.toSameApart.trans h'.toSameApart, h.fresh.trans h'.fresh, fun ht => h'.tokens (h.tokens ht)⟩

theorem mono (h : Touches F G v w) (hF : F ⊆ F') (hG : G ⊆ G') : Touches F' G' v w :=
  ⟨h.toSameApart.mono hF hG, h.fresh, h.tokens⟩

end Touches

/-- One file is changed. -/
theorem touches_of_node? {node : Option Node} (hl : v.node? l ≠ some .directory)
    (hnode : node ≠ some .directory) (h : ∀ m, w.node? m = if m = l then node else v.node? m)
    (hlocks : ∀ token, ∀ m ∉ G, (token, m) ∈ v.locks ↔ (token, m) ∈ w.locks)
    (hfresh : v.fresh ≤ w.fresh) (htokens : v.TokensTaken → w.TokensTaken) :
    Touches {l} G v w := by
  refine ⟨⟨fun m hm => ?_, fun m => ?_, hlocks⟩, hfresh, htokens⟩
  · rw [h, if_neg (Set.mem_singleton_iff.not.1 hm)]
  · rw [h]
    split_ifs with heq
    · rw [heq]
      exact iff_of_false hl hnode
    · rfl

theorem touches_erased (hl : v.node? l ≠ some .directory) : Touches {l} {l} v (v.erased l) := by
  refine touches_of_node? hl (by decide) (node?_erased hl) (fun token m hm => ?_) le_rfl
    fun htokens lock hlock => htokens lock (List.mem_of_mem_filter hlock)
  have hkept : (token, m) ∈ (v.erased l).locks ↔ (token, m) ∈ v.locks ∧ m ≠ l := by
    simp [erased]
  rw [hkept]
  exact (and_iff_left hm).symm

theorem touches_written (hl : v.node? l ≠ some .directory) (bytes : List UInt8) :
    Touches {l} ∅ v (v.written l bytes) :=
  touches_of_node? hl (by simp) (node?_written hl) (fun _ _ _ => Iff.rfl) le_rfl id

theorem touches_created (hl : v.node? l ≠ some .directory) : Touches {l} ∅ v (v.created l) := by
  rw [created]
  split_ifs
  · exact touches_written hl []
  · exact .refl _ _ v

theorem touches_held (v : Volume) (l : Location) : Touches ∅ {l} v (v.held l) := by
  have hheld : ∀ lock, lock ∈ (v.held l).locks ↔ lock = (v.fresh, l) ∨ lock ∈ v.locks :=
    fun lock => List.mem_cons
  refine ⟨⟨fun _ _ => rfl, fun _ => Iff.rfl, fun token m hm => ?_⟩, Nat.le_succ _,
    fun htokens lock hlock => ?_⟩
  · rw [hheld]
    exact (or_iff_right fun heq => hm (Prod.mk.inj heq).2).symm
  · rcases (hheld lock).1 hlock with rfl | hlock
    · exact Nat.lt_succ_self v.fresh
    · exact Nat.lt_succ_of_lt (htokens lock hlock)

theorem mem_locks_unlock {token : Nat} {lock : Nat × Location} :
    lock ∈ (v.unlock token).locks ↔ lock ∈ v.locks ∧ lock.1 ≠ token := by
  simp [unlock]

/-- Giving back a lock touches no file. -/
theorem touches_unlock (v : Volume) (token : Nat) : Touches ∅ Set.univ v (v.unlock token) :=
  ⟨⟨fun _ _ => rfl, fun _ => Iff.rfl, fun _ _ hl => absurd (Set.mem_univ _) hl⟩, le_rfl,
    fun htokens lock hlock => htokens lock (mem_locks_unlock.1 hlock).1⟩

theorem touches_numbered (v : Volume) : Touches ∅ ∅ v v.numbered :=
  ⟨⟨fun _ _ => rfl, fun _ => Iff.rfl, fun _ _ _ => Iff.rfl⟩, Nat.le_succ _,
    fun htokens lock hlock => Nat.lt_succ_of_lt (htokens lock hlock)⟩

theorem mem_locks_moved {token : Nat} : (token, m) ∈ (v.moved old new bytes).locks ↔
    ∃ l, ((token, l) ∈ v.locks ∧ l ≠ new) ∧ (if l = old then new else l) = m := by
  simp [moved]

theorem touches_moved (hold : v.node? old ≠ some .directory)
    (hnew : v.node? new ≠ some .directory) (bytes : List UInt8) :
    Touches {old, new} {old, new} v (v.moved old new bytes) := by
  refine ⟨⟨fun m hm => ?_, fun m => ?_, fun token m hm => ?_⟩, le_rfl,
    fun htokens lock hlock => ?_⟩
  · rw [Set.mem_insert_iff, Set.mem_singleton_iff, not_or] at hm
    rw [node?_moved hold hnew, if_neg hm.2, if_neg hm.1]
  · rw [node?_moved hold hnew]
    split_ifs with heqNew heqOld
    · rw [heqNew]
      exact iff_of_false hnew (by simp)
    · rw [heqOld]
      exact iff_of_false hold (by simp)
    · rfl
  · rw [Set.mem_insert_iff, Set.mem_singleton_iff, not_or] at hm
    rw [mem_locks_moved]
    constructor
    · exact fun hmem => ⟨m, ⟨hmem, hm.2⟩, if_neg hm.1⟩
    · rintro ⟨l, ⟨hmem, -⟩, heq⟩
      split_ifs at heq with hl
      · exact absurd heq.symm hm.2
      · rwa [← heq]
  · obtain ⟨l, ⟨hmem, -⟩, -⟩ := mem_locks_moved.1 hlock
    exact htokens (lock.1, l) hmem

/-! ### Files that are found -/

theorem find_eq_of_locate {l : Location} (h : v.locate p = .ok l) :
    v.find p = .ok (v.node? l) := by
  rw [find, h]
  rfl

theorem find_eq_ok_iff {node : Option Node} :
    v.find p = .ok node ↔ ∃ l, v.locate p = .ok l ∧ v.node? l = node := by
  rw [find]
  cases v.locate p with
  | error e => exact iff_of_false (by rintro ⟨⟩) (by rintro ⟨l, ⟨⟩, -⟩)
  | ok l =>
    constructor
    · exact fun h => ⟨l, rfl, Except.ok.inj h⟩
    · rintro ⟨m, hm, hnode⟩
      rw [← hnode, ← Except.ok.inj hm]
      rfl

/-- Directories are found alike. -/
theorem SameApart.find_eq_directory_iff (h : SameApart F G v w) :
    v.find p = .ok (some .directory) ↔ w.find p = .ok (some .directory) := by
  rw [find_eq_ok_iff, find_eq_ok_iff]
  exact exists_congr fun l => and_congr h.locate (h.directories l)

theorem read_eq_of_find_eq (h : v.find p = w.find p) : v.read p = w.read p := by
  rw [read, read, h]

theorem read_eq_ok_iff : v.read p = .ok bytes ↔ v.find p = .ok (some (.file bytes)) := by
  rw [read]
  cases v.find p with
  | error e => exact iff_of_false (by rintro ⟨⟩) (by rintro ⟨⟩)
  | ok node? =>
    rcases node? with _ | _ | content
    · exact iff_of_false (by rintro ⟨⟩) (by rintro ⟨⟩)
    · exact iff_of_false (by rintro ⟨⟩) (by rintro ⟨⟩)
    · show Except.ok content = Except.ok bytes ↔ _
      rw [Except.ok.injEq, Except.ok.injEq, Option.some.injEq, Node.file.injEq]

/-- The locations of names in a directory. -/
def filesIn (L : Location) (names : Set String) : Set Location := (L.push ·) '' names

theorem push_mem_filesIn : L.push name ∈ filesIn L names ↔ name ∈ names := by
  rw [filesIn, Set.mem_image]
  constructor
  · rintro ⟨other, hother, heq⟩
    rwa [← push_inj.1 heq]
  · exact fun h => ⟨name, h, rfl⟩

@[simp]
theorem filesIn_empty : filesIn L ∅ = ∅ := Set.image_empty _

@[simp]
theorem filesIn_singleton : filesIn L {name} = {L.push name} := Set.image_singleton

theorem filesIn_mono {names' : Set String} (h : names ⊆ names') :
    filesIn L names ⊆ filesIn L names' := Set.image_mono h

end Volume

end Collate
