import Collate.Proofs.Storage.Paths
import Collate.Storage.Action

/-!
# The way to a directory

A path leads to a directory (`Volume.Leads`) as long as the directories on the way are there
(`Volume.Leads.of_keeps`).  Then the paths of files lead into it (`Volume.Leads.locate_join`), and
nothing has to be made on the way to them (`Volume.Enters.makeDirectory_parent`).
-/

namespace Collate

namespace Volume

variable {ε α β : Type} {v v' : Volume} {L l m : Location}

/-! ### Actions in a row -/

theorem bind_apply {action : Action ε α} {next : α → Action ε β} {a : α}
    (h : action v = (.ok a, v')) : (action >>= next) v = next a v' := by
  show ExceptT.bindCont next (action v).1 (action v).2 = _
  rw [h]
  rfl

theorem bind_apply_error {action : Action ε α} {next : α → Action ε β} {e : ε}
    (h : action v = (.error e, v')) : (action >>= next) v = (.error e, v') := by
  show ExceptT.bindCont next (action v).1 (action v).2 = _
  rw [h]
  rfl

theorem get_apply : (get : Action ε Volume) v = (.ok v, v) := rfl

theorem ask_apply {answer : Volume → Except ε α} {a : α} (h : answer v = .ok a) :
    ask answer v = (.ok a, v) := by
  rw [ask, h]

theorem ask_apply_error {answer : Volume → Except ε α} {e : ε} (h : answer v = .error e) :
    ask answer v = (.error e, v) := by
  rw [ask, h]

/-- Nothing is changed by a question, nor by what follows it. -/
theorem ask_bind_snd {answer : Volume → Except ε α} {next : α → Action ε β}
    (h : ∀ a, (next a v).2 = v) : ((ask answer >>= next) v).2 = v := by
  cases hanswer : answer v with
  | error e => rw [bind_apply_error (ask_apply_error hanswer)]
  | ok a =>
    rw [bind_apply (ask_apply hanswer)]
    exact h a

/-! ### Directories -/

/-- All directories of a volume are there in another one. -/
def Keeps (v v' : Volume) : Prop :=
  ∀ l, v.node? l = some .directory → v'.node? l = some .directory

theorem Keeps.refl (v : Volume) : Keeps v v := fun _ h => h

theorem Keeps.trans {v'' : Volume} (h : Keeps v v') (h' : Keeps v' v'') : Keeps v v'' :=
  fun l hl => h' l (h l hl)

theorem node?_of_follow_cons {step : Step} {rest : List Step}
    (h : v.follow l (step :: rest) = .ok m) : v.node? l = some .directory := by
  rw [follow.eq_def] at h
  simp only at h
  split at h
  · cases h
  · cases h
  · next hl => exact hl

/-- A step from a directory. -/
theorem follow_cons (hl : v.node? l = some .directory) (step : Step) (rest : List Step) :
    v.follow l (step :: rest) = match step with
      | .stay => v.follow l rest
      | .up => v.follow l.pop rest
      | .down name =>
        if nameFits name then v.follow (l.push name) rest else .error .invalidFilename := by
  cases step <;> rw [follow.eq_def, hl]

theorem follow_of_keeps (h : Keeps v v') {steps : List Step} (hsteps : v.follow l steps = .ok m) :
    v'.follow l steps = .ok m := by
  induction steps generalizing l with
  | nil => exact hsteps
  | cons step rest ih =>
    have hl := node?_of_follow_cons hsteps
    rw [follow_cons hl] at hsteps
    rw [follow_cons (h l hl)]
    cases step with
    | stay => exact ih hsteps
    | up => exact ih hsteps
    | down name =>
      by_cases hfits : nameFits name
      · simp only [hfits, if_true] at hsteps ⊢
        exact ih hsteps
      · simp [hfits] at hsteps

theorem node?_of_follow {steps : List Step} (h : v.follow l steps = .ok m)
    (hm : v.node? m = some .directory) : v.node? l = some .directory := by
  cases steps with
  | nil =>
    obtain rfl : l = m := Except.ok.inj h
    exact hm
  | cons step rest => exact node?_of_follow_cons h

theorem eq_of_follow_stay {steps : List Step} (hsteps : ∀ step ∈ steps, step = .stay)
    (h : v.follow l steps = .ok m) : l = m := by
  induction steps with
  | nil => exact Except.ok.inj h
  | cons step rest ih =>
    obtain ⟨rfl, hrest⟩ := List.forall_mem_cons.1 hsteps
    rw [follow_cons (node?_of_follow_cons h)] at h
    exact ih hrest h

/-- Nothing is made where all directories are there. -/
theorem makeWay_of_follow {steps : List Step} (h : v.follow l steps = .ok m)
    (hm : v.node? m = some .directory) (endsInDot made : Bool) :
    makeWay endsInDot made l steps v = (.ok (), v) := by
  induction steps generalizing l with
  | nil => rfl
  | cons step rest ih =>
    have hl := node?_of_follow_cons h
    rw [follow_cons hl] at h
    cases step with
    | stay => exact ih h
    | up => exact ih h
    | down name =>
      by_cases hfits : nameFits name
      · simp only [hfits, if_true] at h
        have hnext := node?_of_follow h hm
        rw [makeWay]
        simp only [hfits, if_true]
        rw [bind_apply get_apply]
        rw [hnext]
        exact ih h
      · simp [hfits] at h

/-! ### The way to a directory -/

theorem usableSteps_eq_ok_iff {p : Path} {steps : List Step} : usableSteps p = .ok steps ↔
    '\x00' ∉ p.text.toList ∧ p.text ≠ "" ∧ p.text.utf8ByteSize ≤ maxPathLength ∧
      p.steps = steps := by
  rw [usableSteps]
  split_ifs with hnul hempty hlong
  · simp [hnul]
  · simp [hempty]
  · simp only [false_iff, not_and]
    exact fun _ _ h => absurd hlong (Nat.not_lt_of_le h)
  · simp [hnul, hempty, Nat.le_of_not_lt hlong]

theorem locate_eq_ok_iff {p : Path} :
    v.locate p = .ok m ↔ ∃ steps, usableSteps p = .ok steps ∧ v.follow #[] steps = .ok m := by
  rw [locate]
  cases usableSteps p with
  | ok steps =>
    constructor
    · exact fun h => ⟨steps, rfl, h⟩
    · rintro ⟨steps', h, hfollow⟩
      cases h
      exact hfollow
  | error e =>
    constructor
    · rintro h
      cases h
    · rintro ⟨steps, h, -⟩
      cases h

theorem locate_of_keeps (h : Keeps v v') {p : Path} (hp : v.locate p = .ok m) :
    v'.locate p = .ok m := by
  obtain ⟨steps, husable, hfollow⟩ := locate_eq_ok_iff.1 hp
  exact locate_eq_ok_iff.2 ⟨steps, husable, follow_of_keeps h hfollow⟩

/-- A path that leads anywhere is one that an action can use. -/
theorem usable_of_locate {p : Path} (h : v.locate p = .ok m) :
    '\x00' ∉ p.text.toList ∧ p.text ≠ "" ∧ p.text.utf8ByteSize ≤ maxPathLength := by
  obtain ⟨steps, husable, -⟩ := locate_eq_ok_iff.1 h
  obtain ⟨hnul, hne, hsize, -⟩ := usableSteps_eq_ok_iff.1 husable
  exact ⟨hnul, hne, hsize⟩

/-- The way to a location leads there too, without the slash at its end. -/
theorem follow_way_of_locate {p : Path} (h : v.locate p = .ok L) : v.follow #[] p.way = .ok L := by
  obtain ⟨steps, husable, hfollow⟩ := locate_eq_ok_iff.1 h
  obtain ⟨-, hp, -, rfl⟩ := usableSteps_eq_ok_iff.1 husable
  rw [Path.way, if_neg hp]
  split_ifs with hslash
  · obtain ⟨cs, -, hpieces⟩ := Path.exists_pieces_of_endsInSlash hslash
    have hsteps : p.steps = (Path.split cs).map Step.ofPiece ++ [.stay] := by
      rw [Path.steps, hpieces, List.map_append]
      rfl
    rw [hsteps, follow_append] at hfollow
    rw [hsteps, List.dropLast_concat]
    cases hway : v.follow #[] ((Path.split cs).map Step.ofPiece) with
    | error e =>
      rw [hway] at hfollow
      cases hfollow
    | ok m =>
      rw [hway] at hfollow
      change v.follow m [.stay] = .ok L at hfollow
      rw [eq_of_follow_stay (by simp) hfollow]
  · exact hfollow

/-- The path of a name is one that an action can use, if it is not too long. -/
theorem usableSteps_join {p : Path} (hp : '\x00' ∉ p.text.toList) {s : String}
    (hs : Path.IsName s) (hsize : (p.join s).text.utf8ByteSize ≤ maxPathLength) :
    usableSteps (p.join s) = .ok (p.way ++ [.down s]) := by
  refine usableSteps_eq_ok_iff.2 ⟨?_, Path.text_join_ne p hs, hsize,
    Path.steps_join p hs.slash hs.long⟩
  rcases Path.text_join (p := p) hs with htext | htext <;> rw [htext] <;> simp [hp, hs.nul]

/-- The longest name of a file in a store, in bytes, with the slash before it. -/
def storeNameLength : Nat := 107

/-- The path leads to the location, and leaves room for the names of files there. -/
structure Leads (v : Volume) (p : Path) (L : Location) : Prop where
  locate : v.locate p = .ok L
  room : p.text.utf8ByteSize + storeNameLength ≤ maxPathLength

namespace Leads

variable {p : Path}

theorem of_keeps (h : Leads v p L) (hk : Keeps v v') : Leads v' p L :=
  ⟨locate_of_keeps hk h.locate, h.room⟩

/-- The room is enough for the path of a file. -/
theorem size_join (h : Leads v p L) {s : String} (hs : Path.IsName s)
    (hsize : s.utf8ByteSize < storeNameLength) :
    (p.join s).text.utf8ByteSize ≤ maxPathLength := by
  have hroom := h.room
  have hslash : "/".utf8ByteSize = 1 := rfl
  rcases Path.text_join (p := p) hs with htext | htext <;> rw [htext] <;>
    simp only [String.utf8ByteSize_append, hslash] <;> omega

theorem makeDirectory_of_locate {q : Path} (hq : v.locate q = .ok m)
    (hm : v.node? m = some .directory) : makeDirectory q v = (.ok (), v) := by
  obtain ⟨steps, husable, hfollow⟩ := locate_eq_ok_iff.1 hq
  rw [makeDirectory, if_neg (usableSteps_eq_ok_iff.1 husable).2.1, bind_apply (ask_apply husable)]
  exact makeWay_of_follow hfollow hm _ _

theorem locate_top : v.locate ⟨"/"⟩ = .ok #[] := by
  have hsteps : (⟨"/"⟩ : Path).steps = [.stay, .stay] := by
    simp [Path.steps, Path.pieces, Path.split, Step.ofPiece]
  have hslash : "/".utf8ByteSize = 1 := rfl
  have hsize : "/".utf8ByteSize ≤ maxPathLength := by
    rw [hslash]
    decide
  refine locate_eq_ok_iff.2 ⟨_, usableSteps_eq_ok_iff.2 ⟨by simp, by simp, hsize, hsteps⟩, ?_⟩
  rw [follow_cons rfl, follow_cons rfl]
  rfl

end Leads

/-! ### Files in a directory -/

/-- The path, which an action can use, leads into the directory at the location. -/
structure Enters (v : Volume) (p : Path) (L : Location) : Prop where
  follow_way : v.follow #[] p.way = .ok L
  directory : v.node? L = some .directory
  nul_notMem : '\x00' ∉ p.text.toList
  size : p.text.utf8ByteSize ≤ maxPathLength

namespace Enters

variable {p : Path} {s : String}

theorem of_keeps (h : Enters v p L) (hk : Keeps v v') : Enters v' p L :=
  ⟨follow_of_keeps hk h.follow_way, hk L h.directory, h.nul_notMem, h.size⟩

/-- The path of a directory leads into it. -/
theorem of_locate (h : v.locate p = .ok L) (hL : v.node? L = some .directory) : Enters v p L :=
  have ⟨hnul, _, hsize⟩ := usable_of_locate h
  ⟨follow_way_of_locate h, hL, hnul, hsize⟩

theorem unique (h : Enters v p L) (h' : Enters v p l) : L = l :=
  Except.ok.inj (h.follow_way.symm.trans h'.follow_way)

/-- A name that fits a directory leads from it to its location, if its path is not too long. -/
theorem locate_join (h : Enters v p L) (hs : Path.IsName s) (hfits : nameFits s) :
    v.locate (p.join s) = (usableSteps (p.join s)).map fun _ => L.push s := by
  rw [locate]
  cases husable : usableSteps (p.join s) with
  | error e => rfl
  | ok steps =>
    obtain ⟨-, -, -, rfl⟩ := usableSteps_eq_ok_iff.1 husable
    show v.follow #[] (p.join s).steps = .ok (L.push s)
    rw [Path.steps_join p hs.slash hs.long, follow_append, h.follow_way]
    show v.follow L [.down s] = _
    rw [follow_cons h.directory]
    simp only [hfits, if_true]
    rfl

theorem locate_join_of_size (h : Enters v p L) (hs : Path.IsName s) (hfits : nameFits s)
    (hsize : (p.join s).text.utf8ByteSize ≤ maxPathLength) :
    v.locate (p.join s) = .ok (L.push s) := by
  rw [h.locate_join hs hfits, usableSteps_join h.nul_notMem hs hsize]
  rfl

/-- A path that goes on by a name leads into a directory, if it leads anywhere. -/
theorem of_locate_join (hs : Path.IsName s) (h : v.locate (p.join s) = .ok l) :
    ∃ L, Enters v p L ∧ l = L.push s := by
  obtain ⟨steps, husable, hfollow⟩ := locate_eq_ok_iff.1 h
  obtain ⟨hnul, -, hsize, rfl⟩ := usableSteps_eq_ok_iff.1 husable
  rw [Path.steps_join p hs.slash hs.long, follow_append] at hfollow
  cases hway : v.follow #[] p.way with
  | error e =>
    rw [hway] at hfollow
    cases hfollow
  | ok L =>
    rw [hway] at hfollow
    have hdown : v.follow L [.down s] = .ok l := hfollow
    have hL := node?_of_follow_cons hdown
    rw [follow_cons hL] at hdown
    simp only at hdown
    split_ifs at hdown
    refine ⟨L, ⟨hway, hL, fun hmem => hnul ?_, ?_⟩, (Except.ok.inj hdown).symm⟩
    · rcases Path.text_join (p := p) hs with htext | htext <;> rw [htext] <;> simp [hmem]
    · refine Nat.le_trans ?_ hsize
      rcases Path.text_join (p := p) hs with htext | htext <;> rw [htext] <;>
        simp only [String.utf8ByteSize_append] <;> omega

/-- The directory of a file is there already. -/
theorem makeDirectory_parent (h : Enters v p L) (hs : Path.IsName s) :
    makeDirectory (p.join s).parent v = (.ok (), v) := by
  have hidle : (p.join s).parent.text = "" → makeDirectory (p.join s).parent v = (.ok (), v) := by
    intro hempty
    rw [makeDirectory, if_pos hempty]
    rfl
  by_cases hp : p.text = ""
  · exact hidle (Path.parent_join_of_text_eq hp hs)
  rcases Path.exists_parent_join hp hs with htop | hnone | ⟨hbegins, idle, hway, hstay⟩
  · generalize (p.join s).parent = q at htop ⊢
    obtain ⟨text⟩ := q
    obtain rfl : text = "/" := htop
    exact Leads.makeDirectory_of_locate Leads.locate_top rfl
  · exact hidle hnone
  · by_cases hempty : (p.join s).parent.text = ""
    · exact hidle hempty
    · obtain ⟨rest, htext⟩ := hbegins
      have hsize : (p.join s).parent.text.utf8ByteSize ≤ p.text.utf8ByteSize := by
        have hwhole : p.text = (p.join s).parent.text ++ String.ofList rest :=
          String.toList_injective (by rw [String.toList_append, String.toList_ofList, htext])
        rw [hwhole, String.utf8ByteSize_append]
        exact Nat.le_add_right _ _
      have husable : usableSteps (p.join s).parent = .ok (p.join s).parent.steps := by
        refine usableSteps_eq_ok_iff.2 ⟨fun hnul => h.nul_notMem ?_, hempty, ?_, rfl⟩
        · rw [← htext]
          exact List.mem_append_left _ hnul
        · exact Nat.le_trans hsize h.size
      have hfollow := h.follow_way
      rw [hway, follow_append] at hfollow
      cases hparent : v.follow #[] (p.join s).parent.steps with
      | error e =>
        rw [hparent] at hfollow
        cases hfollow
      | ok m =>
        rw [hparent] at hfollow
        change v.follow m idle = .ok L at hfollow
        obtain rfl : m = L := eq_of_follow_stay hstay hfollow
        exact Leads.makeDirectory_of_locate (locate_eq_ok_iff.2 ⟨_, husable, hparent⟩) h.directory

end Enters

namespace Leads

variable {p : Path}

/-- The path of a directory leads into it. -/
theorem enters (h : Leads v p L) (hL : v.node? L = some .directory) : Enters v p L :=
  .of_locate h.locate hL

/-- The path of a file leads from the directory to its name. -/
theorem locate_join (h : Leads v p L) (hL : v.node? L = some .directory) {s : String}
    (hs : Path.IsName s) (hsize : s.utf8ByteSize < storeNameLength) :
    v.locate (p.join s) = .ok (L.push s) := by
  have hfits : nameFits s := by
    rw [nameFits, decide_eq_true_eq]
    exact Nat.le_trans (Nat.le_of_lt hsize) (by decide)
  exact (h.enters hL).locate_join_of_size hs hfits (h.size_join hs hsize)

end Leads

end Volume

end Collate
