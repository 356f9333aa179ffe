import Collate.Proofs.Cache.Store
import Collate.Proofs.Storage.Footprint

/-!
# The names of the files of a signature

A signature has an artifact, a source, a file for its lock and temporary files in the directory of a
store, and no file belongs to two signatures (`ArtifactStore.key_eq_of_mem_names`).  What is found
by the path of a file is what is at the location of its name, unless the path is too long
(`Volume.Enters.find_join`).
-/

namespace Collate

namespace Volume

variable {v w : Volume} {F G : Set Location} {L : Location} {p : Path} {name : String}
  {bytes : List UInt8} {names : Set String}

namespace Enters

theorem locate_file (h : Enters v p L) (hs : IsFileName name) :
    v.locate (p.join name) = (usableSteps (p.join name)).map fun _ => L.push name := by
  have hfits : nameFits name := by
    rw [nameFits, decide_eq_true_eq]
    exact Nat.le_trans (Nat.le_of_lt hs.size) (by decide)
  exact h.locate_join hs.toIsName hfits

theorem find_join (h : Enters v p L) (hs : IsFileName name) :
    v.find (p.join name) = (usableSteps (p.join name)).map fun _ => v.node? (L.push name) := by
  rw [find, h.locate_file hs]
  cases usableSteps (p.join name) <;> rfl

/-- Whatever a file has in the directory, it is at the location of its name. -/
theorem find_join_eq_ok (h : Enters v p L) (hs : IsFileName name) {node : Option Node}
    (hfind : v.find (p.join name) = .ok node) :
    v.locate (p.join name) = .ok (L.push name) ∧ v.node? (L.push name) = node := by
  rw [h.find_join hs] at hfind
  rw [h.locate_file hs]
  cases husable : usableSteps (p.join name) with
  | error e =>
    rw [husable] at hfind
    cases hfind
  | ok steps =>
    rw [husable] at hfind
    exact ⟨rfl, Except.ok.inj hfind⟩

theorem find_join_ne_notFound (h : Enters v p L) (hs : IsFileName name) :
    v.find (p.join name) ≠ .error .notFound := by
  rw [h.find_join hs, usableSteps]
  split_ifs with hnul hempty hlong
  · rintro ⟨⟩
  · exact absurd hempty (Path.text_join_ne p hs.toIsName)
  · rintro ⟨⟩
  · rintro ⟨⟩

end Enters

/-- A file that is not set apart is found alike. -/
theorem SameApart.find_join (h : SameApart F G v w) (hv : Enters v p L) (hs : IsFileName name)
    (hname : L.push name ∉ F) : v.find (p.join name) = w.find (p.join name) := by
  rw [hv.find_join hs, (hv.of_keeps h.keeps).find_join hs, h.nodes _ hname]

end Volume

namespace ArtifactStore

open Volume

/-! ### Names -/

/-- The name of the file that carries the lock of a signature. -/
def lockName (key : String) : String := key ++ "." ++ "lock"

/-- The names of the files on which a signature is worked. -/
def workNames (key : String) : Set String :=
  {artifactName key, sourceName key} ∪ Set.range (temporaryName key)

/-- The names of the files of a signature. -/
def names (key : String) : Set String := insert (lockName key) (workNames key)

variable {key key' name : String} {L : Location}

theorem artifactName_mem_workNames (key : String) : artifactName key ∈ workNames key :=
  Or.inl (Set.mem_insert _ _)

theorem sourceName_mem_workNames (key : String) : sourceName key ∈ workNames key :=
  Or.inl (Set.mem_insert_of_mem _ rfl)

theorem temporaryName_mem_workNames (key : String) (stamp : Nat) :
    temporaryName key stamp ∈ workNames key := Or.inr ⟨stamp, rfl⟩

theorem key_eq_of_temporaryName_eq {stamp stamp' : Nat}
    (h : temporaryName key stamp = temporaryName key' stamp') : key = key' := by
  have hlist := congrArg String.toList h
  simp only [temporaryName, String.toList_append, String.toList_ofList, List.append_assoc] at hlist
  have hdigits : (Hex.digits 36 stamp).length = (Hex.digits 36 stamp').length := by
    rw [Hex.length_digits, Hex.length_digits]
  have hback : (".".toList ++ (Hex.digits 36 stamp ++ ".tmp".toList)).length =
      (".".toList ++ (Hex.digits 36 stamp' ++ ".tmp".toList)).length := by
    simp only [List.length_append, hdigits]
  exact String.toList_injective (List.append_inj_left' (List.append_cancel_left hlist) hback)

theorem artifactName_ne_lockName : artifactName key ≠ lockName key' :=
  append_ne_of_getLast? (by decide) (by decide) (by decide)

theorem sourceName_ne_lockName : sourceName key ≠ lockName key' :=
  append_ne_of_getLast? (by decide) (by decide) (by decide)

theorem lockName_ne_temporaryName {stamp : Nat} : lockName key ≠ temporaryName key' stamp :=
  append_ne_of_getLast? (by decide) (by decide) (by decide)

theorem lockName_notMem_workNames : lockName key ∉ workNames key' := by
  rintro ((h | h) | ⟨stamp, h⟩)
  · exact artifactName_ne_lockName h.symm
  · exact sourceName_ne_lockName (Set.mem_singleton_iff.1 h).symm
  · exact lockName_ne_temporaryName h.symm

/-- No file belongs to two signatures. -/
theorem key_eq_of_mem_names (h : name ∈ names key) (h' : name ∈ names key') : key = key' := by
  rcases h with rfl | (rfl | rfl) | ⟨stamp, rfl⟩
  · rcases h' with h' | h'
    · exact append_extension_inj.1 h'
    · exact absurd h' lockName_notMem_workNames
  · rcases h' with h' | (h' | h') | ⟨stamp', h'⟩
    · exact absurd h' artifactName_ne_lockName
    · exact artifactName_inj.1 h'
    · exact absurd h' artifactName_ne_sourceName
    · exact absurd h'.symm artifactName_ne_temporaryName
  · rcases h' with h' | (h' | h') | ⟨stamp', h'⟩
    · exact absurd h' sourceName_ne_lockName
    · exact absurd h'.symm artifactName_ne_sourceName
    · exact append_extension_inj.1 h'
    · exact absurd h'.symm sourceName_ne_temporaryName
  · rcases h' with h' | (h' | h') | ⟨stamp', h'⟩
    · exact absurd h'.symm lockName_ne_temporaryName
    · exact absurd h'.symm artifactName_ne_temporaryName
    · exact absurd h'.symm sourceName_ne_temporaryName
    · exact (key_eq_of_temporaryName_eq h').symm

theorem isFileName_artifact (hk : IsKey key) : IsFileName (artifactName key) :=
  isFileName_extension hk (by decide : "kernel" ∈ _)

theorem isFileName_source (hk : IsKey key) : IsFileName (sourceName key) :=
  isFileName_extension hk (by decide : "src" ∈ _)

theorem isFileName_lock (hk : IsKey key) : IsFileName (lockName key) :=
  isFileName_extension hk (by decide : "lock" ∈ _)

theorem isFileName_of_mem_names (hk : IsKey key) (h : name ∈ names key) : IsFileName name := by
  rcases h with rfl | (rfl | rfl) | ⟨stamp, rfl⟩
  · exact isFileName_lock hk
  · exact isFileName_artifact hk
  · exact isFileName_source hk
  · exact isFileName_temporary hk stamp

/-! ### Files that are touched in a directory -/

section

variable {s : ArtifactStore} {v w : Volume} {A A' B B' : Set String} {l : Location}

/-- If anything is touched, it is files with some names in the directory of a store, and locks on
some of them. -/
def TouchesIn (s : ArtifactStore) (A B : Set String) (v w : Volume) : Prop :=
  w = v ∨ ∃ L, v.Enters s.root L ∧ Touches (filesIn L A) (filesIn L B) v w

namespace TouchesIn

theorem of_touches (hv : v.Enters s.root L) (h : Touches (filesIn L A) (filesIn L B) v w) :
    s.TouchesIn A B v w :=
  Or.inr ⟨L, hv, h⟩

theorem mono (h : s.TouchesIn A B v w) (hA : A ⊆ A') (hB : B ⊆ B') : s.TouchesIn A' B' v w :=
  h.imp_right fun ⟨L, hv, hsame⟩ => ⟨L, hv, hsame.mono (filesIn_mono hA) (filesIn_mono hB)⟩

theorem node? (h : s.TouchesIn A B v w) (hl : ∀ L, v.Enters s.root L → l ∉ filesIn L A) :
    w.node? l = v.node? l := by
  rcases h with rfl | ⟨L, hv, hsame⟩
  · rfl
  · exact (hsame.nodes l (hl L hv)).symm

theorem locks (h : s.TouchesIn A B v w) (hl : ∀ L, v.Enters s.root L → l ∉ filesIn L B)
    (token : Nat) : (token, l) ∈ w.locks ↔ (token, l) ∈ v.locks := by
  rcases h with rfl | ⟨L, hv, hsame⟩
  · exact Iff.rfl
  · exact (hsame.locks token l (hl L hv)).symm

theorem find (h : s.TouchesIn A B v w) (hname : IsFileName name) (hA : name ∉ A) :
    w.find (s.root.join name) = v.find (s.root.join name) := by
  rcases h with rfl | ⟨L, hv, hsame⟩
  · rfl
  · exact (hsame.find_join hv hname fun hin => hA (push_mem_filesIn.1 hin)).symm

theorem find_eq_directory_iff {p : Path} (h : s.TouchesIn A B v w) :
    w.find p = .ok (some .directory) ↔ v.find p = .ok (some .directory) := by
  rcases h with rfl | ⟨L, -, hsame⟩
  · exact Iff.rfl
  · exact hsame.find_eq_directory_iff.symm

end TouchesIn

end

end ArtifactStore

end Collate
