import Collate.Proofs.Cache.FileNames

/-!
# What a store changes

What the actions of a store do, whatever is in its directory.  Each changes at most files of its
signature (`Volume.Touches`), and where it fails, `ArtifactStore.writeSource_cases` and its like
say what it did.
-/

namespace Collate

namespace ArtifactStore

open Volume

variable {key name : String} {L : Location}

/-! ### Single files -/

variable {α : Type} {s : ArtifactStore} {v v' w : Volume} {own : Option Nat} {bytes : List UInt8}

theorem reportedAt_apply_error {p : Path} {action : Volume.Action IoError α} {e : IoError}
    (h : action v = (.error e, v')) : reportedAt p action v = (.error (.io p e), v') := by
  rw [reportedAt, h]

/-- What it is to remove a file. -/
theorem removeFile_eq (hv : v.Enters s.root L) (hname : IsFileName name) :
    removeFile (s.root.join name) v =
      match v.find (s.root.join name) with
      | .error e => (.error (.io (s.root.join name) e), v)
      | .ok none => (.ok (), v)
      | .ok (some .directory) => (.error (.io (s.root.join name) .isADirectory), v)
      | .ok (some (.file _)) => (.ok (), v.erased (L.push name)) := by
  have hremove := remove_eq (s.root.join name) v
  cases hfind : v.find (s.root.join name) with
  | error e =>
    have hne := hv.find_join_ne_notFound hname
    rw [hfind] at hne
    cases hlocate : v.locate (s.root.join name) with
    | error e' =>
      rw [find, hlocate] at hfind
      obtain rfl : e' = e := Except.error.inj hfind
      rw [hlocate] at hremove
      rw [removeFile, hremove]
      cases e' with
      | notFound => exact absurd rfl hne
      | _ => rfl
    | ok l =>
      rw [find_eq_of_locate hlocate] at hfind
      cases hfind
  | ok node? =>
    obtain ⟨hlocate, hnode⟩ := hv.find_join_eq_ok hname hfind
    rw [hlocate] at hremove
    simp only [hnode] at hremove
    rw [removeFile, hremove]
    rcases node? with _ | _ | _ <;> rfl

/-- What it is to write a file. -/
theorem writeFile_eq (hv : v.Enters s.root L) (hname : IsFileName name) (bytes : List UInt8) :
    writeFile (s.root.join name) bytes v =
      match v.find (s.root.join name) with
      | .error e => (.error (.io (s.root.join name) e), v)
      | .ok node =>
        if node = some .directory then (.error (.io (s.root.join name) .isADirectory), v)
        else (.ok (), v.written (L.push name) bytes) := by
  have hslash := Path.endsInSlash_join s.root hname.toIsName
  have hwrite := write_eq hslash bytes v
  rw [writeFile, Volume.bind_apply (reportedAt_apply (hv.makeDirectory_parent hname.toIsName))]
  cases hfind : v.find (s.root.join name) with
  | error e =>
    cases hlocate : v.locate (s.root.join name) with
    | error e' =>
      rw [find, hlocate] at hfind
      obtain rfl : e' = e := Except.error.inj hfind
      rw [hlocate] at hwrite
      exact reportedAt_apply_error hwrite
    | ok l =>
      rw [find_eq_of_locate hlocate] at hfind
      cases hfind
  | ok node =>
    obtain ⟨hlocate, hnode⟩ := hv.find_join_eq_ok hname hfind
    rw [hlocate] at hwrite
    simp only [hnode] at hwrite
    by_cases hdirectory : node = some .directory
    · rw [if_pos hdirectory] at hwrite
      simp only [if_pos hdirectory]
      exact reportedAt_apply_error hwrite
    · rw [if_neg hdirectory] at hwrite
      simp only [if_neg hdirectory]
      exact reportedAt_apply hwrite

/-! ### The files of a signature -/

/-- A file that was removed is not there; where the removal fails, nothing is changed. -/
theorem removeFile_cases {answer : Except CacheError Unit} (hv : v.Enters s.root L)
    (hname : IsFileName name) (h : removeFile (s.root.join name) v = (answer, v')) :
    answer = .ok () ∧ v'.find (s.root.join name) = .ok none ∧
        Touches {L.push name} {L.push name} v v' ∨
      ∃ e, answer = .error e ∧ v' = v ∧
        (v.find (s.root.join name) = .ok (some .directory) ∨
          ∃ e', v.find (s.root.join name) = .error e') := by
  rw [removeFile_eq hv hname] at h
  cases hfind : v.find (s.root.join name) with
  | error e =>
    rw [hfind] at h
    obtain ⟨rfl, rfl⟩ := Prod.mk.inj h
    exact Or.inr ⟨_, rfl, rfl, Or.inr ⟨e, rfl⟩⟩
  | ok node? =>
    rw [hfind] at h
    obtain ⟨hlocate, hnode⟩ := hv.find_join_eq_ok hname hfind
    rcases node? with _ | _ | content
    · obtain ⟨rfl, rfl⟩ := Prod.mk.inj h
      exact Or.inl ⟨rfl, hfind, .refl _ _ v⟩
    · obtain ⟨rfl, rfl⟩ := Prod.mk.inj h
      exact Or.inr ⟨_, rfl, rfl, Or.inl rfl⟩
    · obtain ⟨rfl, rfl⟩ := Prod.mk.inj h
      have hfile : v.node? (L.push name) ≠ some .directory := by
        rw [hnode]
        simp
      have hsame := touches_erased hfile
      refine Or.inl ⟨rfl, ?_, hsame⟩
      rw [find_eq_of_locate (hsame.locate.1 hlocate), node?_erased hfile, if_pos rfl]

/-- Only the source is written, if anything is. -/
theorem writeSource_cases {text : String} {answer : Except CacheError Path}
    (hv : v.Enters s.root L) (hk : IsKey key) (h : s.writeSource key text v = (answer, v')) :
    (∃ e, answer = .error e) ∧ v' = v ∨
      answer = .ok (s.sourcePath key) ∧ Touches {L.push (sourceName key)} ∅ v v' := by
  have hsource := isFileName_source hk
  have hwrite := writeFile_eq hv hsource (Text.bytes text)
  cases hfind : v.find (s.root.join (sourceName key)) with
  | error e =>
    rw [hfind] at hwrite
    obtain ⟨rfl, rfl⟩ := Prod.mk.inj (h.symm.trans (Volume.bind_apply_error hwrite))
    exact Or.inl ⟨⟨_, rfl⟩, rfl⟩
  | ok node =>
    rw [hfind] at hwrite
    obtain ⟨-, hnode⟩ := hv.find_join_eq_ok hsource hfind
    by_cases hdirectory : node = some .directory
    · simp only [if_pos hdirectory] at hwrite
      obtain ⟨rfl, rfl⟩ := Prod.mk.inj (h.symm.trans (Volume.bind_apply_error hwrite))
      exact Or.inl ⟨⟨_, rfl⟩, rfl⟩
    · simp only [if_neg hdirectory] at hwrite
      obtain ⟨rfl, rfl⟩ := Prod.mk.inj (h.symm.trans (Volume.bind_apply hwrite))
      exact Or.inr ⟨rfl, touches_written (fun heq => hdirectory (hnode.symm.trans heq)) _⟩

/-- A source that was removed is not there, even where the removal fails. -/
theorem removeSource_leaves {answer : Except CacheError Unit} (hv : v.Enters s.root L)
    (hk : IsKey key) (h : s.removeSource key v = (answer, v')) :
    (∀ bytes, v'.find (s.sourcePath key) ≠ .ok (some (.file bytes))) ∧
      Touches {L.push (sourceName key)} {L.push (sourceName key)} v v' := by
  have hsource := isFileName_source hk
  rcases removeFile_cases hv hsource h with ⟨-, hgone, hsame⟩ | ⟨e, -, rfl, hfind⟩
  · refine ⟨fun bytes hfile => ?_, hsame⟩
    cases (hgone.symm.trans hfile : Except.ok _ = Except.ok _)
  · refine ⟨fun bytes hfile => ?_, .refl _ _ _⟩
    rcases hfind with hfind | ⟨e', hfind⟩
    · cases (hfile.symm.trans hfind : Except.ok _ = Except.ok _)
    · cases (hfile.symm.trans hfind : Except.ok _ = Except.error _)

/-! ### Publishing an artifact -/

/-- The location of the next temporary file of a signature. -/
def temporary (v : Volume) (L : Location) (key : String) : Location :=
  L.push (temporaryName key v.fresh)

/-- The volume with an artifact under its temporary name. -/
def drafted (v : Volume) (L : Location) (key : String) (bytes : List UInt8) : Volume :=
  v.numbered.written (temporary v L key) bytes

/-- The volume after the draft of an artifact was given up. -/
def withdrawn (v : Volume) (L : Location) (key : String) (bytes : List UInt8) : Volume :=
  (drafted v L key bytes).erased (temporary v L key)

/-- The volume after the draft of an artifact got the name of the artifact. -/
def published (v : Volume) (L : Location) (key : String) (bytes : List UInt8) : Volume :=
  (drafted v L key bytes).moved (temporary v L key) (L.push (artifactName key)) bytes

section

variable (htemporary : v.node? (temporary v L key) ≠ some .directory)
include htemporary

theorem node?_drafted (m : Location) : (drafted v L key bytes).node? m =
    if m = temporary v L key then some (.file bytes) else v.node? m :=
  node?_written (v := v.numbered) htemporary m

theorem drafted_ne_directory :
    (drafted v L key bytes).node? (temporary v L key) ≠ some .directory := by
  rw [node?_drafted htemporary, if_pos rfl]
  simp

theorem touches_drafted : Touches {temporary v L key} ∅ v (drafted v L key bytes) :=
  ((touches_numbered v).mono (Set.empty_subset _) subset_rfl).trans
    (touches_written (v := v.numbered) htemporary bytes)

theorem touches_withdrawn :
    Touches {temporary v L key} {temporary v L key} v (withdrawn v L key bytes) :=
  ((touches_drafted htemporary).mono subset_rfl (Set.empty_subset _)).trans
    (touches_erased (drafted_ne_directory htemporary))

variable (hartifact : v.node? (L.push (artifactName key)) ≠ some .directory)
include hartifact

theorem drafted_artifact_ne_directory :
    (drafted v L key bytes).node? (L.push (artifactName key)) ≠ some .directory := by
  have hne : L.push (artifactName key) ≠ temporary v L key :=
    fun heq => artifactName_ne_temporaryName (push_inj.1 heq)
  rwa [node?_drafted htemporary, if_neg hne]

theorem node?_published (m : Location) : (published v L key bytes).node? m =
    if m = L.push (artifactName key) then some (.file bytes)
    else if m = temporary v L key then none else v.node? m := by
  rw [published, node?_moved (drafted_ne_directory htemporary)
    (drafted_artifact_ne_directory htemporary hartifact), node?_drafted htemporary]
  split_ifs <;> rfl

theorem touches_published : Touches {temporary v L key, L.push (artifactName key)}
    {temporary v L key, L.push (artifactName key)} v (published v L key bytes) :=
  ((touches_drafted htemporary).mono (Set.singleton_subset_iff.2 (Set.mem_insert _ _))
      (Set.empty_subset _)).trans
    (touches_moved (drafted_ne_directory htemporary)
      (drafted_artifact_ne_directory htemporary hartifact) bytes)

end

/-- What it is to give the draft of an artifact its own name. -/
theorem publish_eq (hv : v.Enters s.root L) (hk : IsKey key)
    (htemporary : v.node? (temporary v L key) ≠ some .directory)
    (hlocate : v.locate (s.temporaryPath key v.fresh) = .ok (temporary v L key))
    (bytes : List UInt8) :
    (match Volume.rename (s.temporaryPath key v.fresh) (s.artifactPath key)
        (drafted v L key bytes) with
      | (.ok (), v) => (.ok (s.artifactPath key), v)
      | (.error e, w) => (.error (.io (s.artifactPath key) e),
          (Volume.remove (s.temporaryPath key v.fresh) w).2) : Except CacheError Path × Volume) =
      match v.find (s.artifactPath key) with
      | .error e => (.error (.io (s.artifactPath key) e), withdrawn v L key bytes)
      | .ok node =>
        if node = some .directory then
          (.error (.io (s.artifactPath key) .isADirectory), withdrawn v L key bytes)
        else (.ok (s.artifactPath key), published v L key bytes) := by
  have hsame : Touches {temporary v L key} ∅ v (drafted v L key bytes) :=
    touches_drafted htemporary
  have hartifact := isFileName_artifact hk
  have hnode : (drafted v L key bytes).node? (temporary v L key) = some (.file bytes) := by
    rw [node?_drafted htemporary, if_pos rfl]
  have hlocate' := hsame.locate.1 hlocate
  have hread : (drafted v L key bytes).read (s.temporaryPath key v.fresh) = .ok bytes := by
    rw [read_eq_ok_iff, find_eq_of_locate hlocate', hnode]
  have hremove := remove_eq (s.temporaryPath key v.fresh) (drafted v L key bytes)
  rw [hlocate'] at hremove
  simp only [hnode] at hremove
  have hfind : v.find (s.artifactPath key) = (drafted v L key bytes).find (s.artifactPath key) :=
    hsame.find_join hv hartifact fun hmem =>
      artifactName_ne_temporaryName (push_inj.1 (Set.mem_singleton_iff.1 hmem))
  rw [hfind]
  have hrename := rename_eq hread hlocate' (s.artifactPath key)
  cases htarget : (drafted v L key bytes).find (s.artifactPath key) with
  | error e =>
    cases hlocateTarget : (drafted v L key bytes).locate (s.artifactPath key) with
    | error e' =>
      rw [find, hlocateTarget] at htarget
      obtain rfl : e' = e := Except.error.inj htarget
      rw [hlocateTarget] at hrename
      rw [hrename]
      simp only [hremove]
      rfl
    | ok l =>
      rw [find_eq_of_locate hlocateTarget] at htarget
      cases htarget
  | ok node =>
    obtain ⟨hlocateTarget, hnodeTarget⟩ :=
      (hv.of_keeps hsame.keeps).find_join_eq_ok hartifact htarget
    have hlocateArtifact :
        (drafted v L key bytes).locate (s.artifactPath key) = .ok (L.push (artifactName key)) :=
      hlocateTarget
    have hnodeArtifact : (drafted v L key bytes).node? (L.push (artifactName key)) = node :=
      hnodeTarget
    rw [hlocateArtifact] at hrename
    simp only [hnodeArtifact] at hrename
    rw [hrename]
    by_cases hdirectory : node = some .directory
    · simp only [if_pos hdirectory, hremove]
      rfl
    · simp only [if_neg hdirectory]
      rfl

/-- What it is to publish an artifact. -/
theorem commit_eq (hv : v.Enters s.root L) (hk : IsKey key) (bytes : List UInt8) :
    s.commit key bytes v =
      match v.find (s.temporaryPath key v.fresh) with
      | .error e => (.error (.io (s.temporaryPath key v.fresh) e), v.numbered)
      | .ok node =>
        if node = some .directory then
          (.error (.io (s.temporaryPath key v.fresh) .isADirectory), v.numbered)
        else
          match v.find (s.artifactPath key) with
          | .error e => (.error (.io (s.artifactPath key) e), withdrawn v L key bytes)
          | .ok node =>
            if node = some .directory then
              (.error (.io (s.artifactPath key) .isADirectory), withdrawn v L key bytes)
            else (.ok (s.artifactPath key), published v L key bytes) := by
  have hfresh : takeFresh v = ((.ok v.fresh, v.numbered) : Except CacheError Nat × Volume) := rfl
  have htemporary := isFileName_temporary hk v.fresh
  have hwrite := writeFile_eq (hv.of_keeps (touches_numbered v).keeps) htemporary bytes
  rw [← (touches_numbered v).find_join hv htemporary (Set.notMem_empty _)] at hwrite
  have hpath : s.temporaryPath key v.fresh = s.root.join (temporaryName key v.fresh) := rfl
  rw [commit, Volume.bind_apply hfresh, hpath]
  cases hfind : v.find (s.root.join (temporaryName key v.fresh)) with
  | error e =>
    rw [hfind] at hwrite
    exact Volume.bind_apply_error hwrite
  | ok node =>
    rw [hfind] at hwrite
    by_cases hdirectory : node = some .directory
    · simp only [if_pos hdirectory] at hwrite ⊢
      exact Volume.bind_apply_error hwrite
    · simp only [if_neg hdirectory] at hwrite ⊢
      obtain ⟨hlocate, hnode⟩ := hv.find_join_eq_ok htemporary hfind
      exact (Volume.bind_apply hwrite).trans
        (publish_eq hv hk (fun heq => hdirectory (hnode.symm.trans heq)) hlocate bytes)

/-- An artifact is published as a whole, or not at all. -/
theorem commit_cases {answer : Except CacheError Path} (hv : v.Enters s.root L) (hk : IsKey key)
    (h : s.commit key bytes v = (answer, v')) :
    (∃ e, answer = .error e) ∧ Touches {temporary v L key} {temporary v L key} v v' ∨
      answer = .ok (s.artifactPath key) ∧
        Touches {temporary v L key, L.push (artifactName key)}
          {temporary v L key, L.push (artifactName key)} v v' := by
  have hnumbered : Touches {temporary v L key} {temporary v L key} v v.numbered :=
    (touches_numbered v).mono (Set.empty_subset _) (Set.empty_subset _)
  rw [commit_eq hv hk] at h
  cases hfind : v.find (s.temporaryPath key v.fresh) with
  | error e =>
    rw [hfind] at h
    obtain ⟨rfl, rfl⟩ := Prod.mk.inj h
    exact Or.inl ⟨⟨_, rfl⟩, hnumbered⟩
  | ok node =>
    obtain ⟨-, hnode⟩ := hv.find_join_eq_ok (isFileName_temporary hk v.fresh) hfind
    rw [hfind] at h
    by_cases hdirectory : node = some .directory
    · simp only [if_pos hdirectory] at h
      obtain ⟨rfl, rfl⟩ := Prod.mk.inj h
      exact Or.inl ⟨⟨_, rfl⟩, hnumbered⟩
    · simp only [if_neg hdirectory] at h
      have htemporary : v.node? (temporary v L key) ≠ some .directory :=
        fun heq => hdirectory (hnode.symm.trans heq)
      cases htarget : v.find (s.artifactPath key) with
      | error e =>
        rw [htarget] at h
        obtain ⟨rfl, rfl⟩ := Prod.mk.inj h
        exact Or.inl ⟨⟨_, rfl⟩, touches_withdrawn htemporary⟩
      | ok target =>
        rw [htarget] at h
        by_cases htargetDirectory : target = some .directory
        · simp only [if_pos htargetDirectory] at h
          obtain ⟨rfl, rfl⟩ := Prod.mk.inj h
          exact Or.inl ⟨⟨_, rfl⟩, touches_withdrawn htemporary⟩
        · simp only [if_neg htargetDirectory] at h
          obtain ⟨rfl, rfl⟩ := Prod.mk.inj h
          obtain ⟨-, hnodeTarget⟩ :=
            hv.find_join_eq_ok (isFileName_artifact hk) htarget
          exact Or.inr ⟨rfl, touches_published htemporary
            fun heq => htargetDirectory (hnodeTarget.symm.trans heq)⟩

/-! ### Forgetting a signature -/

/-- What is found in the place of a file is found, if anything is, with any shorter name. -/
theorem find_join_ne_error {name' : String} (hv : v.Enters s.root L) (hname : IsFileName name)
    (hname' : IsFileName name') (hsize : name'.utf8ByteSize ≤ name.utf8ByteSize)
    {node : Option Node} (hfind : v.find (s.root.join name) = .ok node) (e : IoError) :
    v.find (s.root.join name') ≠ .error e := by
  obtain ⟨hlocate, -⟩ := hv.find_join_eq_ok hname hfind
  obtain ⟨steps, husable, -⟩ := locate_eq_ok_iff.1 hlocate
  obtain ⟨hnul, -, hlong, -⟩ := usableSteps_eq_ok_iff.1 husable
  obtain ⟨front, htext⟩ := Path.exists_text_join s.root
  rw [htext name hname.toIsName] at hnul hlong
  have husable' : usableSteps (s.root.join name') = .ok (s.root.join name').steps := by
    refine usableSteps_eq_ok_iff.2 ⟨?_, ?_, ?_, rfl⟩
    · rw [htext name' hname'.toIsName]
      rw [String.toList_append, List.mem_append, not_or] at hnul ⊢
      exact ⟨hnul.1, hname'.nul⟩
    · rw [htext name' hname'.toIsName]
      intro hempty
      have hlong' := hname'.long
      rw [(String.append_eq_empty_iff.1 hempty).2] at hlong'
      exact absurd hlong' (by decide)
    · rw [htext name' hname'.toIsName]
      rw [String.utf8ByteSize_append] at hlong ⊢
      omega
  rw [hv.find_join hname', husable']
  rintro ⟨⟩

/-- The artifact is removed with the source, or the removal fails.  Where it fails, nothing is
changed, unless a directory is in the place of the source: then the artifact was removed before. -/
theorem evict_cases {answer : Except CacheError Unit} (hv : v.Enters s.root L) (hk : IsKey key)
    (h : s.evict key v = (answer, v')) :
    answer = .ok () ∧ v'.find (s.artifactPath key) = .ok none ∧
        v'.find (s.sourcePath key) = .ok none ∧
        Touches {L.push (artifactName key), L.push (sourceName key)}
          {L.push (artifactName key), L.push (sourceName key)} v v' ∨
      (∃ e, answer = .error e) ∧
        (v' = v ∧ (∀ bytes, v.find (s.artifactPath key) ≠ .ok (some (.file bytes))) ∨
        v'.find (s.artifactPath key) = .ok none ∧
          v.find (s.sourcePath key) = .ok (some .directory) ∧
          Touches {L.push (artifactName key)} {L.push (artifactName key)} v v') := by
  have hartifact := isFileName_artifact hk
  have hsource := isFileName_source hk
  obtain ⟨a, w, hfirst⟩ : ∃ a w, removeFile (s.artifactPath key) v = (a, w) := ⟨_, _, rfl⟩
  rcases removeFile_cases hv hartifact hfirst with ⟨rfl, hgone, hsame⟩ | ⟨e, rfl, rfl, hfind⟩
  · have hw := hv.of_keeps hsame.keeps
    have hsecond : removeFile (s.sourcePath key) w = (answer, v') := by
      rw [← h, evict, Volume.bind_apply hfirst]
    have hsourceSame : v.find (s.sourcePath key) = w.find (s.sourcePath key) :=
      hsame.find_join hv hsource fun hmem =>
        artifactName_ne_sourceName (push_inj.1 (Set.mem_singleton_iff.1 hmem)).symm
    rcases removeFile_cases hw hsource hsecond with ⟨rfl, hgone', hsame'⟩ | ⟨e, rfl, rfl, hfind⟩
    · refine Or.inl ⟨rfl, ?_, hgone', ?_⟩
      · rw [← hgone]
        exact (hsame'.find_join hw hartifact fun hmem =>
          artifactName_ne_sourceName (push_inj.1 (Set.mem_singleton_iff.1 hmem))).symm
      · have hleft : ({L.push (artifactName key)} : Set Location) ⊆
            {L.push (artifactName key), L.push (sourceName key)} :=
          Set.singleton_subset_iff.2 (Set.mem_insert _ _)
        have hright : ({L.push (sourceName key)} : Set Location) ⊆
            {L.push (artifactName key), L.push (sourceName key)} := Set.subset_insert _ _
        exact (hsame.mono hleft hleft).trans (hsame'.mono hright hright)
    · refine Or.inr ⟨⟨_, rfl⟩, Or.inr ⟨hgone, ?_, hsame⟩⟩
      rw [hsourceSame]
      refine hfind.resolve_right fun ⟨e, hfind⟩ => ?_
      have hsize : (sourceName key).utf8ByteSize ≤ (artifactName key).utf8ByteSize := by
        simp only [sourceName, artifactName, String.utf8ByteSize_append]
        exact Nat.add_le_add_left (by decide) _
      exact find_join_ne_error hw hartifact hsource hsize hgone e hfind
  · have hanswer : s.evict key w = (.error e, w) := by
      rw [evict, Volume.bind_apply_error hfirst]
    obtain ⟨rfl, rfl⟩ := Prod.mk.inj (h.symm.trans hanswer)
    refine Or.inr ⟨⟨_, rfl⟩, Or.inl ⟨rfl, fun bytes hfile => ?_⟩⟩
    rcases hfind with hfind | ⟨e', hfind⟩
    · cases (hfile.symm.trans hfind : Except.ok _ = Except.ok _)
    · cases (hfile.symm.trans hfind : Except.ok _ = Except.error _)

theorem evict_touches {answer : Except CacheError Unit} (hv : v.Enters s.root L) (hk : IsKey key)
    (h : s.evict key v = (answer, v')) :
    Touches {L.push (artifactName key), L.push (sourceName key)}
      {L.push (artifactName key), L.push (sourceName key)} v v' := by
  rcases evict_cases hv hk h with ⟨-, -, -, hsame⟩ | ⟨-, ⟨rfl, -⟩ | ⟨-, -, hsame⟩⟩
  · exact hsame
  · exact .refl _ _ _
  · have hsub : ({L.push (artifactName key)} : Set Location) ⊆
        {L.push (artifactName key), L.push (sourceName key)} :=
      Set.singleton_subset_iff.2 (Set.mem_insert _ _)
    exact hsame.mono hsub hsub

/-! ### Locks -/

/-- What is said about a lock that is held. -/
def waited (p : Path) : Option UInt64 → CacheError
  | some milliseconds => .lockTimeout p milliseconds
  | none => .lockHeld p

/-- What it is to take a lock. -/
theorem lock_eq (p : Path) (limit : Option UInt64) (v : Volume) : lock p limit v =
    match v.locate p with
    | .error e => (.error (.io p e), v)
    | .ok l =>
      if v.node? l = some .directory then (.error (.io p .isADirectory), v)
      else if v.isLocked l then (.error (waited p limit), v.created l)
      else (.ok v.fresh, (v.created l).held l) := by
  have htry := tryLock_eq p v
  cases hlocate : v.locate p with
  | error e =>
    rw [hlocate] at htry
    exact Volume.bind_apply_error (reportedAt_apply_error htry)
  | ok l =>
    rw [hlocate] at htry
    by_cases hdirectory : v.node? l = some .directory
    · simp only [if_pos hdirectory] at htry ⊢
      exact Volume.bind_apply_error (reportedAt_apply_error htry)
    · by_cases hlocked : v.isLocked l
      · simp only [if_neg hdirectory, if_pos hlocked] at htry ⊢
        refine (Volume.bind_apply (reportedAt_apply htry)).trans ?_
        cases limit <;> rfl
      · simp only [if_neg hdirectory, if_neg hlocked] at htry ⊢
        exact Volume.bind_apply (reportedAt_apply htry)

end ArtifactStore

end Collate
