import Collate.Proofs.Cache.Footprint

/-!
# Volumes that agree on artifacts

Volumes agree on some signatures where they hold the same artifacts and sources of them
(`ArtifactStore.Agree`).  An action of a store for one of the signatures does not tell such volumes
apart (`Alike`): it answers the same, and they agree afterwards.

An artifact is written under a temporary name with a number that was not used before
(`ArtifactStore.Unspent`).  Volumes that agree may have come to different numbers, which shows in
the report of a temporary file that cannot be written (`SameAnswer`), and nowhere else.
-/

namespace Collate

/-! ### Programs that cannot tell states apart -/

/-- Answers are the same, but for the number in the name of a temporary file that cannot be
written. -/
inductive SameAnswer {α : Type} : Except CacheError α → Except CacheError α → Prop
  | same (answer : Except CacheError α) : SameAnswer answer answer
  | unwritten (s : ArtifactStore) (key : String) (stamp stamp' : Nat) (e : IoError) :
    SameAnswer (.error (.io (s.temporaryPath key stamp) e))
      (.error (.io (s.temporaryPath key stamp') e))

/-- States that are related give the same answer, and are related afterwards. -/
def Alike {σ α : Type} (R : σ → σ → Prop) (program : ExceptT CacheError (StateM σ) α) : Prop :=
  ∀ x y, R x y → SameAnswer (program x).1 (program y).1 ∧ R (program x).2 (program y).2

section

variable {σ α β : Type} {R : σ → σ → Prop}

theorem sameAnswer_and_of_eq {program : ExceptT CacheError (StateM σ) α} {x x' y y' : σ}
    {answer answer' : Except CacheError α} (hx : program x = (answer, x'))
    (hy : program y = (answer', y')) (hanswer : SameAnswer answer answer') (hrel : R x' y') :
    SameAnswer (program x).1 (program y).1 ∧ R (program x).2 (program y).2 := by
  rw [hx, hy]
  exact ⟨hanswer, hrel⟩

theorem alike_pure (a : α) : Alike R (pure a : ExceptT CacheError (StateM σ) α) :=
  fun _ _ h => ⟨.same _, h⟩

theorem alike_throw (e : CacheError) : Alike R (throw e : ExceptT CacheError (StateM σ) α) :=
  fun _ _ h => ⟨.same _, h⟩

theorem Alike.bind {program : ExceptT CacheError (StateM σ) α}
    {next : α → ExceptT CacheError (StateM σ) β} (h : Alike R program)
    (hnext : ∀ a, Alike R (next a)) : Alike R (program >>= next) := by
  intro x y hxy
  obtain ⟨hanswer, hrel⟩ := h x y hxy
  show SameAnswer (ExceptT.bindCont next (program x).1 (program x).2).1
      (ExceptT.bindCont next (program y).1 (program y).2).1 ∧
    R (ExceptT.bindCont next (program x).1 (program x).2).2
      (ExceptT.bindCont next (program y).1 (program y).2).2
  generalize program x = first at hanswer hrel ⊢
  generalize program y = second at hanswer hrel ⊢
  obtain ⟨answer, x'⟩ := first
  obtain ⟨answer', y'⟩ := second
  cases hanswer with
  | same =>
    cases answer with
    | error e => exact ⟨.same _, hrel⟩
    | ok a => exact hnext a x' y' hrel
  | unwritten s key stamp stamp' e => exact ⟨.unwritten s key stamp stamp' e, hrel⟩

end

namespace ArtifactStore

open Volume

variable {s : ArtifactStore} {keys : Set String} {L : Location} {v v' w w' : Volume}
  {key name : String}

/-! ### Numbers that were not used -/

/-- The next number is one that no token and no temporary file has had. -/
structure Unspent (s : ArtifactStore) (v : Volume) : Prop where
  tokens : v.TokensTaken
  /-- what was under such a name can be overwritten, if anything was -/
  names : ∀ key stamp, IsKey key → v.fresh ≤ stamp →
    v.find (s.temporaryPath key stamp) ≠ .ok (some .directory)

theorem Unspent.of_touches {F G : Set Location} (h : s.Unspent v) (hv : Touches F G v v') :
    s.Unspent v' :=
  ⟨hv.tokens h.tokens, fun key stamp hk hstamp hfind =>
    h.names key stamp hk (hv.fresh.trans hstamp) (hv.find_eq_directory_iff.2 hfind)⟩

theorem Unspent.of_touchesIn {A B : Set String} (h : s.Unspent v) (hv : s.TouchesIn A B v v') :
    s.Unspent v' := by
  rcases hv with rfl | ⟨L, -, hsame⟩
  · exact h
  · exact h.of_touches hsame

/-- Whether a path is too long does not depend on the number in the name of a temporary file. -/
theorem usableSteps_temporaryPath (hk : IsKey key) :
    (∃ e, ∀ stamp, usableSteps (s.temporaryPath key stamp) = .error e) ∨
      ∀ stamp, ∃ steps, usableSteps (s.temporaryPath key stamp) = .ok steps := by
  obtain ⟨front, hfront⟩ := Path.exists_text_join s.root
  have htext : ∀ stamp, (s.temporaryPath key stamp).text = front ++ temporaryName key stamp :=
    fun stamp => hfront _ (isFileName_temporary hk stamp).toIsName
  have hnul : ∀ stamp,
      '\x00' ∈ (s.temporaryPath key stamp).text.toList ↔ '\x00' ∈ front.toList := by
    intro stamp
    rw [htext, String.toList_append, List.mem_append]
    exact or_iff_left (isFileName_temporary hk stamp).nul
  have hempty : ∀ stamp, (s.temporaryPath key stamp).text ≠ "" := by
    intro stamp heq
    have hlength := congrArg (fun text => text.toList.length) heq
    have hlong := (isFileName_temporary hk stamp).long
    simp only [htext, String.toList_append, List.length_append, String.toList_empty,
      List.length_nil] at hlength
    omega
  have hsize : ∀ stamp, (s.temporaryPath key stamp).text.utf8ByteSize =
      (s.temporaryPath key 0).text.utf8ByteSize := by
    intro stamp
    simp only [htext, temporaryName, String.utf8ByteSize_append, Hex.utf8ByteSize_ofList_digits]
  by_cases hfrontNul : '\x00' ∈ front.toList
  · refine Or.inl ⟨.invalidInput, fun stamp => ?_⟩
    rw [usableSteps, if_pos ((hnul stamp).2 hfrontNul)]
  · by_cases hlong : maxPathLength < (s.temporaryPath key 0).text.utf8ByteSize
    · refine Or.inl ⟨.invalidFilename, fun stamp => ?_⟩
      rw [usableSteps, if_neg (mt (hnul stamp).1 hfrontNul), if_neg (hempty stamp), hsize,
        if_pos hlong]
    · refine Or.inr fun stamp => ⟨(s.temporaryPath key stamp).steps, ?_⟩
      rw [usableSteps, if_neg (mt (hnul stamp).1 hfrontNul), if_neg (hempty stamp), hsize,
        if_neg hlong]

/-! ### Agreement -/

/-- The names of the artifacts and the sources of signatures. -/
def storedNames (keys : Set String) : Set String :=
  {name | ∃ key ∈ keys, name = artifactName key ∨ name = sourceName key}

/-- Volumes that a store is in hold the same artifacts and sources of some signatures, and the same
locks but on some files. -/
structure Agree (s : ArtifactStore) (keys : Set String) (L : Location) (G : Set Location)
    (v w : Volume) : Prop where
  same : SameApart (filesIn L (storedNames keys))ᶜ G v w
  enters : v.Enters s.root L
  left : s.Unspent v
  right : s.Unspent w

theorem artifactName_mem_storedNames (h : key ∈ keys) : artifactName key ∈ storedNames keys :=
  ⟨key, h, Or.inl rfl⟩

theorem sourceName_mem_storedNames (h : key ∈ keys) : sourceName key ∈ storedNames keys :=
  ⟨key, h, Or.inr rfl⟩

theorem mem_names_of_mem_storedNames (h : name ∈ storedNames keys) :
    ∃ key ∈ keys, name ∈ names key := by
  obtain ⟨key, hkey, rfl | rfl⟩ := h
  · exact ⟨key, hkey, Or.inr (artifactName_mem_workNames key)⟩
  · exact ⟨key, hkey, Or.inr (sourceName_mem_workNames key)⟩

theorem temporaryName_notMem_storedNames {stamp : Nat} :
    temporaryName key stamp ∉ storedNames keys := by
  rintro ⟨other, -, heq | heq⟩
  · exact artifactName_ne_temporaryName heq.symm
  · exact sourceName_ne_temporaryName heq.symm

theorem lockName_notMem_storedNames : lockName key ∉ storedNames keys := by
  rintro ⟨other, -, heq | heq⟩
  · exact artifactName_ne_lockName heq.symm
  · exact sourceName_ne_lockName heq.symm

namespace Agree

variable {A A' B B' G G' : Set Location}

theorem enters_right (h : s.Agree keys L G v w) : w.Enters s.root L :=
  h.enters.of_keeps h.same.keeps

theorem mono (h : s.Agree keys L G v w) (hG : G ⊆ G') : s.Agree keys L G' v w :=
  ⟨h.same.mono subset_rfl hG, h.enters, h.left, h.right⟩

theorem node? (h : s.Agree keys L G v w) (hname : name ∈ storedNames keys) :
    v.node? (L.push name) = w.node? (L.push name) :=
  h.same.nodes _ fun hnot => hnot (push_mem_filesIn.2 hname)

theorem find (h : s.Agree keys L G v w) (hfile : IsFileName name)
    (hname : name ∈ storedNames keys) :
    v.find (s.root.join name) = w.find (s.root.join name) :=
  h.same.find_join h.enters hfile fun hnot => hnot (push_mem_filesIn.2 hname)

/-- What is done to both volumes need only leave the same artifacts and sources. -/
theorem of_touches (h : s.Agree keys L G v w) (hv : Touches A B v v') (hw : Touches A' B' w w')
    (hB : B ∪ B' ⊆ G) (hnodes : ∀ name ∈ storedNames keys, L.push name ∈ A ∪ A' →
      v'.node? (L.push name) = w'.node? (L.push name)) : s.Agree keys L G v' w' := by
  refine ⟨⟨fun l hl => ?_, fun l => ?_, fun token l hl => ?_⟩, h.enters.of_keeps hv.keeps,
    h.left.of_touches hv, h.right.of_touches hw⟩
  · obtain ⟨name, hname, rfl⟩ := Set.notMem_compl_iff.1 hl
    by_cases hin : L.push name ∈ A ∪ A'
    · exact hnodes name hname hin
    · rw [Set.mem_union, not_or] at hin
      exact ((hv.nodes _ hin.1).symm.trans (h.node? hname)).trans (hw.nodes _ hin.2)
  · exact ((hv.directories l).symm.trans (h.same.directories l)).trans (hw.directories l)
  · have hlB : l ∉ B := fun hin => hl (hB (Or.inl hin))
    have hlB' : l ∉ B' := fun hin => hl (hB (Or.inr hin))
    exact ((hv.locks token l hlB).symm.trans (h.same.locks token l hl)).trans
      (hw.locks token l hlB')

end Agree

/-! ### Actions of a store -/

theorem alike_removeFile (hfile : IsFileName name) (hname : name ∈ storedNames keys) :
    Alike (s.Agree keys L Set.univ) (removeFile (s.root.join name)) := by
  intro v w h
  rw [removeFile_eq h.enters hfile, removeFile_eq h.enters_right hfile, ← h.find hfile hname]
  cases hfind : v.find (s.root.join name) with
  | error e => exact ⟨.same _, h⟩
  | ok node? =>
    obtain ⟨-, hnode⟩ := h.enters.find_join_eq_ok hfile hfind
    rcases node? with _ | _ | content
    · exact ⟨.same _, h⟩
    · exact ⟨.same _, h⟩
    · have hv : v.node? (L.push name) ≠ some .directory := by
        rw [hnode]
        simp
      have hw : w.node? (L.push name) ≠ some .directory := by rwa [← h.node? hname]
      refine ⟨.same _, h.of_touches (touches_erased hv) (touches_erased hw) (Set.subset_univ _)
        fun other _ hother => ?_⟩
      obtain rfl : other = name := push_inj.1 (by simpa using hother)
      rw [node?_erased hv, node?_erased hw, if_pos rfl, if_pos rfl]

theorem alike_writeFile (hfile : IsFileName name) (hname : name ∈ storedNames keys)
    (bytes : List UInt8) :
    Alike (s.Agree keys L Set.univ) (writeFile (s.root.join name) bytes) := by
  intro v w h
  rw [writeFile_eq h.enters hfile, writeFile_eq h.enters_right hfile, ← h.find hfile hname]
  cases hfind : v.find (s.root.join name) with
  | error e => exact ⟨.same _, h⟩
  | ok node =>
    obtain ⟨-, hnode⟩ := h.enters.find_join_eq_ok hfile hfind
    by_cases hdirectory : node = some .directory
    · simp only [if_pos hdirectory]
      exact ⟨.same _, h⟩
    · simp only [if_neg hdirectory]
      have hv : v.node? (L.push name) ≠ some .directory := by rwa [hnode]
      have hw : w.node? (L.push name) ≠ some .directory := by rwa [← h.node? hname]
      refine ⟨.same _, h.of_touches (touches_written hv bytes) (touches_written hw bytes)
        (Set.subset_univ _) fun other _ hother => ?_⟩
      obtain rfl : other = name := push_inj.1 (by simpa using hother)
      rw [node?_written hv, node?_written hw, if_pos rfl, if_pos rfl]

section

variable (hk : IsKey key) (hkey : key ∈ keys)
include hk hkey

theorem alike_evict : Alike (s.Agree keys L Set.univ) (s.evict key) :=
  (alike_removeFile (isFileName_artifact hk)
    (artifactName_mem_storedNames hkey)).bind fun _ =>
      alike_removeFile (isFileName_source hk)
        (sourceName_mem_storedNames hkey)

theorem alike_removeSource : Alike (s.Agree keys L Set.univ) (s.removeSource key) :=
  alike_removeFile (isFileName_source hk)
    (sourceName_mem_storedNames hkey)

theorem alike_writeSource (text : String) :
    Alike (s.Agree keys L Set.univ) (s.writeSource key text) :=
  (alike_writeFile (isFileName_source hk)
    (sourceName_mem_storedNames hkey) _).bind fun _ => alike_pure _

/-- An artifact is published or not, whatever its temporary name is. -/
theorem alike_commit (bytes : List UInt8) :
    Alike (s.Agree keys L Set.univ) (s.commit key bytes) := by
  intro v w h
  have hartifact := isFileName_artifact hk
  have hfind : v.find (s.artifactPath key) = w.find (s.artifactPath key) :=
    h.find hartifact (artifactName_mem_storedNames hkey)
  have hnames : ∀ {u : Volume}, u.Enters s.root L → u.find (s.temporaryPath key u.fresh) =
      (usableSteps (s.temporaryPath key u.fresh)).map fun _ => u.node? (temporary u L key) :=
    fun hu => hu.find_join (isFileName_temporary hk _)
  have hapart : ∀ {u : Volume} {other : String}, other ∈ storedNames keys →
      L.push other ≠ temporary u L key := fun hother heq => by
    rw [push_inj.1 heq] at hother
    exact temporaryName_notMem_storedNames hother
  have hcommit := commit_eq h.enters hk bytes
  have hcommit' := commit_eq h.enters_right hk bytes
  rw [hnames h.enters] at hcommit
  rw [hnames h.enters_right, ← hfind] at hcommit'
  rcases usableSteps_temporaryPath (s := s) hk with ⟨e, herror⟩ | hok
  · rw [herror] at hcommit hcommit'
    exact sameAnswer_and_of_eq hcommit hcommit' (.unwritten s key v.fresh w.fresh e)
      (h.of_touches (touches_numbered v) (touches_numbered w) (Set.subset_univ _)
        fun _ _ hin => absurd hin (by simp))
  · have hplain : ∀ {u : Volume}, u.Enters s.root L → s.Unspent u →
        u.node? (temporary u L key) ≠ some .directory := by
      intro u hu hunspent hdirectory
      obtain ⟨steps, husable⟩ := hok u.fresh
      refine hunspent.names key u.fresh hk le_rfl ?_
      rw [hnames hu, husable, hdirectory]
      rfl
    have hv := hplain h.enters h.left
    have hw := hplain h.enters_right h.right
    obtain ⟨steps, husable⟩ := hok v.fresh
    obtain ⟨steps', husable'⟩ := hok w.fresh
    rw [husable] at hcommit
    rw [husable'] at hcommit'
    simp only [Except.map, if_neg hv] at hcommit
    simp only [Except.map, if_neg hw] at hcommit'
    have hwithdrawn : s.Agree keys L Set.univ (withdrawn v L key bytes)
        (withdrawn w L key bytes) := by
      refine h.of_touches (touches_withdrawn hv) (touches_withdrawn hw) (Set.subset_univ _)
        fun other hother hin => ?_
      rcases hin with hin | hin
      · exact absurd hin (hapart hother)
      · exact absurd hin (hapart hother)
    cases htarget : v.find (s.artifactPath key) with
    | error e =>
      rw [htarget] at hcommit hcommit'
      exact sameAnswer_and_of_eq hcommit hcommit' (.same _) hwithdrawn
    | ok node =>
      rw [htarget] at hcommit hcommit'
      by_cases hdirectory : node = some .directory
      · simp only [if_pos hdirectory] at hcommit hcommit'
        exact sameAnswer_and_of_eq hcommit hcommit' (.same _) hwithdrawn
      · simp only [if_neg hdirectory] at hcommit hcommit'
        obtain ⟨-, hnode⟩ := h.enters.find_join_eq_ok hartifact htarget
        have hv' : v.node? (L.push (artifactName key)) ≠ some .directory :=
          fun heq => hdirectory (hnode.symm.trans heq)
        have hw' : w.node? (L.push (artifactName key)) ≠ some .directory := by
          rwa [← h.node? (artifactName_mem_storedNames hkey)]
        refine sameAnswer_and_of_eq hcommit hcommit' (.same _) (h.of_touches
          (touches_published hv hv') (touches_published hw hw') (Set.subset_univ _)
          fun other hother _ => ?_)
        rw [node?_published hv hv', node?_published hw hw', if_neg (hapart hother),
          if_neg (hapart hother), h.node? hother]

end

end ArtifactStore

end Collate
