import Collate.Cache.ArtifactStore
import Collate.Proofs.Json.Reading
import Collate.Proofs.Storage.Files
import Collate.Signature

/-!
# Artifacts in a directory

What the actions of a store do to the artifacts in its directory (`Volume.Stores`).  The names of
the files of a signature tell them apart, so that only `ArtifactStore.commit` and
`ArtifactStore.evict` change an artifact, and only that of their signature.
-/

namespace Collate

/-! ### Names of files -/

/-- A text that may stand in the name of a file. -/
structure IsPlain (key : String) : Prop where
  slash : '/' ∉ key.toList
  nul : '\x00' ∉ key.toList

/-- A signature as it stands in the names of files. -/
structure IsKey (key : String) : Prop extends IsPlain key where
  size : key.utf8ByteSize ≤ 64

/-- The name of a file in a store. -/
structure IsFileName (s : String) : Prop extends Path.IsName s where
  size : s.utf8ByteSize < Volume.storeNameLength

theorem utf8ByteSize_ofList_of_ascii {cs : List Char} (h : ∀ c ∈ cs, c.toNat < 128) :
    (String.ofList cs).utf8ByteSize = cs.length := by
  have hbytes := congrArg List.length (Text.bytes_ofList_of_ascii h)
  rw [List.length_map] at hbytes
  rw [← hbytes]
  rfl

namespace Hex

theorem exists_digit_of_mem {width n : Nat} {c : Char} (h : c ∈ digits width n) :
    ∃ d < 16, c = digit d := by
  induction width generalizing n with
  | zero => cases h
  | succ width ih =>
    rw [digits, List.mem_append, List.mem_singleton] at h
    rcases h with h | rfl
    · exact ih h
    · exact ⟨n % 16, Nat.mod_lt _ (by decide), rfl⟩

/-- A hexadecimal digit is a character of ASCII that may stand in the name of a file. -/
theorem digit_ne {d : Nat} (h : d < 16) :
    (digit d).toNat < 128 ∧ digit d ≠ '/' ∧ digit d ≠ '\x00' := by
  revert d
  decide

theorem utf8ByteSize_ofList_digits (width n : Nat) :
    (String.ofList (digits width n)).utf8ByteSize = width := by
  rw [utf8ByteSize_ofList_of_ascii, length_digits]
  intro c hc
  obtain ⟨d, hd, rfl⟩ := exists_digit_of_mem hc
  exact (digit_ne hd).1

end Hex

theorem Signature.exists_digit_of_mem_key {signature : Signature} {c : Char}
    (h : c ∈ signature.key.toList) : ∃ d < 16, c = Hex.digit d := by
  rw [Signature.key, Hex.encode, String.toList_ofList] at h
  obtain ⟨b, -, hb⟩ := List.mem_flatMap.1 h
  exact Hex.exists_digit_of_mem hb

theorem Signature.isKey_key (signature : Signature) : IsKey signature.key := by
  refine ⟨⟨fun h => ?_, fun h => ?_⟩, ?_⟩
  · obtain ⟨d, hd, heq⟩ := exists_digit_of_mem_key h
    exact (Hex.digit_ne hd).2.1 heq.symm
  · obtain ⟨d, hd, heq⟩ := exists_digit_of_mem_key h
    exact (Hex.digit_ne hd).2.2 heq.symm
  · have hascii : ∀ c ∈ signature.key.toList, c.toNat < 128 := by
      intro c hc
      obtain ⟨d, hd, rfl⟩ := exists_digit_of_mem_key hc
      exact (Hex.digit_ne hd).1
    have hlength : signature.key.toList.length = 64 := by
      rw [Signature.key, Hex.encode, String.toList_ofList, List.length_flatMap]
      simp [Signature.hash, List.map_const']
    rw [← String.ofList_toList (s := signature.key), utf8ByteSize_ofList_of_ascii hascii, hlength]

namespace ArtifactStore

open Volume

/-- The name of the artifact of a signature. -/
def artifactName (key : String) : String := key ++ "." ++ "kernel"

/-- The name of the source of a signature. -/
def sourceName (key : String) : String := key ++ "." ++ "src"

/-- The name of an artifact while it is written. -/
def temporaryName (key : String) (stamp : Nat) : String :=
  "." ++ key ++ "." ++ String.ofList (Hex.digits 36 stamp) ++ ".tmp"

variable {key : String}

theorem isName_extension (hk : IsPlain key) {extension : String}
    (he : extension ∈ ["kernel", "src", "lock"]) : Path.IsName (key ++ "." ++ extension) := by
  have hall : ∀ e ∈ ["kernel", "src", "lock"], '/' ∉ e.toList ∧ '\x00' ∉ e.toList ∧
      1 < e.toList.length := by
    decide
  obtain ⟨hslash, hnul, hlong⟩ := hall extension he
  refine ⟨?_, ?_, ?_⟩
  · simp [hk.slash, hslash]
  · simp [hk.nul, hnul]
  · simp only [String.toList_append, List.length_append]
    have : ".".toList.length = 1 := rfl
    omega

theorem isFileName_extension (hk : IsKey key) {extension : String}
    (he : extension ∈ ["kernel", "src", "lock"]) : IsFileName (key ++ "." ++ extension) := by
  have hall : ∀ e ∈ ["kernel", "src", "lock"], e.utf8ByteSize < 10 := by decide
  have hsize := hall extension he
  refine ⟨isName_extension hk.toIsPlain he, ?_⟩
  have hdot : ".".utf8ByteSize = 1 := rfl
  have := hk.size
  rw [String.utf8ByteSize_append, String.utf8ByteSize_append, hdot, storeNameLength]
  omega

theorem isName_artifact (hk : IsPlain key) : Path.IsName (artifactName key) :=
  isName_extension hk (by decide : "kernel" ∈ _)

theorem isName_source (hk : IsPlain key) : Path.IsName (sourceName key) :=
  isName_extension hk (by decide : "src" ∈ _)

theorem isName_temporary (hk : IsPlain key) (stamp : Nat) :
    Path.IsName (temporaryName key stamp) := by
  refine ⟨?_, ?_, ?_⟩
  · have hdigits : '/' ∉ Hex.digits 36 stamp := fun h => by
      obtain ⟨d, hd, heq⟩ := Hex.exists_digit_of_mem h
      exact (Hex.digit_ne hd).2.1 heq.symm
    simp [temporaryName, hk.slash, hdigits]
  · have hdigits : '\x00' ∉ Hex.digits 36 stamp := fun h => by
      obtain ⟨d, hd, heq⟩ := Hex.exists_digit_of_mem h
      exact (Hex.digit_ne hd).2.2 heq.symm
    simp [temporaryName, hk.nul, hdigits]
  · simp only [temporaryName, String.toList_append, List.length_append]
    have : ".tmp".toList.length = 4 := rfl
    omega

/-- The name of a temporary file is longer by as much for every stamp. -/
theorem utf8ByteSize_temporaryName (key : String) (stamp : Nat) :
    (temporaryName key stamp).utf8ByteSize = key.utf8ByteSize + 42 := by
  have hdot : ".".utf8ByteSize = 1 := rfl
  have htmp : ".tmp".utf8ByteSize = 4 := rfl
  simp only [temporaryName, String.utf8ByteSize_append, Hex.utf8ByteSize_ofList_digits, hdot, htmp]
  omega

theorem isFileName_temporary (hk : IsKey key) (stamp : Nat) :
    IsFileName (temporaryName key stamp) := by
  refine ⟨isName_temporary hk.toIsPlain stamp, ?_⟩
  have := hk.size
  rw [utf8ByteSize_temporaryName, storeNameLength]
  omega

/-- Texts that end in different characters differ. -/
theorem append_ne_of_getLast? {s s' t t' : String} (ht : t.toList ≠ []) (ht' : t'.toList ≠ [])
    (h : t.toList.getLast? ≠ t'.toList.getLast?) : s ++ t ≠ s' ++ t' := by
  intro heq
  have hlast := congrArg (fun name => name.toList.getLast?) heq
  simp only [String.toList_append] at hlast
  rw [List.getLast?_append_of_ne_nil _ ht, List.getLast?_append_of_ne_nil _ ht'] at hlast
  exact h hlast

theorem append_extension_inj {key' extension : String} :
    key ++ "." ++ extension = key' ++ "." ++ extension ↔ key = key' := by
  refine ⟨fun h => ?_, fun h => h ▸ rfl⟩
  have hlist := congrArg String.toList h
  simp only [String.toList_append, List.append_assoc] at hlist
  exact String.toList_injective (List.append_cancel_right hlist)

theorem artifactName_inj {key' : String} : artifactName key = artifactName key' ↔ key = key' :=
  append_extension_inj

theorem artifactName_injective : Function.Injective artifactName := fun _ _ => artifactName_inj.1

theorem sourceName_injective : Function.Injective sourceName := fun _ _ => append_extension_inj.1

/-- An artifact is told from other files by the last character of its name. -/
theorem artifactName_ne {s extension : String} {c : Char} (hc : extension.toList.getLast? = some c)
    (hne : c ≠ 'l') (key : String) : artifactName key ≠ s ++ extension := by
  have hext : extension.toList ≠ [] := by
    intro hnil
    rw [hnil] at hc
    cases hc
  refine append_ne_of_getLast? (by decide) hext fun heq => ?_
  rw [hc] at heq
  exact hne (Option.some.inj heq).symm

theorem artifactName_ne_sourceName {key' : String} : artifactName key ≠ sourceName key' :=
  append_ne_of_getLast? (by decide) (by decide) (by decide)

theorem artifactName_ne_temporaryName {key' : String} {stamp : Nat} :
    artifactName key ≠ temporaryName key' stamp :=
  append_ne_of_getLast? (by decide) (by decide) (by decide)

theorem sourceName_ne_temporaryName {key' : String} {stamp : Nat} :
    sourceName key ≠ temporaryName key' stamp :=
  append_ne_of_getLast? (by decide) (by decide) (by decide)

end ArtifactStore

/-! ### Artifacts -/

namespace Volume

/-- The artifact of a signature in a directory. -/
def artifact? (v : Volume) (L : Location) (key : String) : Option (List UInt8) :=
  v.content? L (ArtifactStore.artifactName key)

/-- What an action makes of a volume with a directory of artifacts. -/
structure Stores (v v' : Volume) (L : Location) (own : Option Nat)
    (artifacts : String → Option (List UInt8)) : Prop where
  serves : v'.Serves L own
  keeps : Keeps v v'
  artifacts : v'.artifact? L = artifacts

variable {v v' v'' : Volume} {L : Location} {own own' : Option Nat}
  {a a' : String → Option (List UInt8)}

theorem Serves.stores (h : v.Serves L own) : Stores v v L own (v.artifact? L) := ⟨h, .refl v, rfl⟩

theorem Stores.trans (h : Stores v v' L own a) (h' : Stores v' v'' L own' a') :
    Stores v v'' L own' a' :=
  ⟨h'.serves, h.keeps.trans h'.keeps, h'.artifacts⟩

/-- A file that is no artifact was changed. -/
theorem Becomes.stores {s extension : String} {c : Char} {bytes : Option (List UInt8)}
    (h : Becomes v v' L own (Function.update (v.content? L) (s ++ extension) bytes))
    (hc : extension.toList.getLast? = some c) (hne : c ≠ 'l') :
    Stores v v' L own (v.artifact? L) := by
  refine ⟨h.serves, h.keeps, funext fun key => ?_⟩
  rw [artifact?, h.content, Function.update_of_ne (ArtifactStore.artifactName_ne hc hne key)]
  rfl

/-- An artifact was changed, and perhaps files that are no artifacts. -/
theorem Becomes.stores_update {key : String} {bytes : Option (List UInt8)}
    {content : String → Option (List UInt8)}
    (h : Becomes v v' L own (Function.update content (ArtifactStore.artifactName key) bytes))
    (hsame : ∀ other, content (ArtifactStore.artifactName other) = v.artifact? L other) :
    Stores v v' L own (Function.update (v.artifact? L) key bytes) := by
  refine ⟨h.serves, h.keeps, funext fun other => ?_⟩
  rw [artifact?, h.content,
    Function.update_apply_of_injective _ ArtifactStore.artifactName_injective]
  exact congrArg (fun artifacts => Function.update artifacts key bytes other) (funext hsame)

/-- An artifact was changed. -/
theorem Becomes.stores_artifact {key : String} {bytes : Option (List UInt8)}
    (h : Becomes v v' L own
      (Function.update (v.content? L) (ArtifactStore.artifactName key) bytes)) :
    Stores v v' L own (Function.update (v.artifact? L) key bytes) :=
  h.stores_update fun _ => rfl

end Volume

namespace ArtifactStore

open Volume

variable {α : Type} {v v' : Volume} {L : Location} {own : Option Nat} {s : ArtifactStore}
  {key name : String}

/-! ### Single files -/

theorem reportedAt_apply {p : Path} {action : Action IoError α} {a : α}
    (h : action v = (.ok a, v')) : reportedAt p action v = (.ok a, v') := by
  rw [reportedAt, h]

theorem locate_file (hv : v.Serves L own) (hp : v.Leads s.root L) (hname : IsFileName name) :
    v.locate (s.root.join name) = .ok (L.push name) :=
  hp.locate_join hv.directory hname.toIsName hname.size

theorem writeFile_apply (hv : v.Serves L own) (hname : Path.IsName name)
    (hlocate : v.locate (s.root.join name) = .ok (L.push name)) (bytes : List UInt8) :
    ∃ v', writeFile (s.root.join name) bytes v = (.ok (), v') ∧
      Becomes v v' L own (Function.update (v.content? L) name (some bytes)) := by
  obtain ⟨L', henters, -⟩ := Enters.of_locate_join hname hlocate
  obtain ⟨v', hwrite, hbecomes⟩ :=
    write_of_locate hv hlocate (Path.endsInSlash_join s.root hname) bytes
  refine ⟨v', ?_, hbecomes⟩
  rw [writeFile, bind_apply (reportedAt_apply (henters.makeDirectory_parent hname))]
  exact reportedAt_apply hwrite

theorem removeFile_apply (hv : v.Serves L own)
    (hlocate : v.locate (s.root.join name) = .ok (L.push name)) :
    ∃ v', removeFile (s.root.join name) v = (.ok (), v') ∧
      Becomes v v' L own (Function.update (v.content? L) name none) := by
  cases hcontent : v.content? L name with
  | none =>
    refine ⟨v, ?_, ?_⟩
    · rw [removeFile, remove_of_content_none hv hlocate hcontent]
    · rw [← hcontent, Function.update_eq_self]
      exact hv.becomes
  | some bytes =>
    obtain ⟨v', hremove, hbecomes⟩ := remove_of_content_some hv hlocate hcontent
    refine ⟨v', ?_, hbecomes⟩
    rw [removeFile, hremove]

/-! ### The files of a signature -/

theorem writeSource_becomes (hv : v.Serves L own) (hk : IsPlain key)
    (hsource : v.locate (s.sourcePath key) = .ok (L.push (sourceName key))) (text : String) :
    ∃ v', s.writeSource key text v = (.ok (s.sourcePath key), v') ∧ Becomes v v' L own
      (Function.update (v.content? L) (sourceName key) (some (Text.bytes text))) := by
  obtain ⟨v', hwrite, hbecomes⟩ :=
    writeFile_apply hv (isName_source hk) hsource (Text.bytes text)
  exact ⟨v', bind_apply hwrite, hbecomes⟩

theorem removeSource_becomes (hv : v.Serves L own)
    (hsource : v.locate (s.sourcePath key) = .ok (L.push (sourceName key))) :
    ∃ v', s.removeSource key v = (.ok (), v') ∧
      Becomes v v' L own (Function.update (v.content? L) (sourceName key) none) :=
  removeFile_apply hv hsource

theorem read_eq_content (hv : v.Serves L own)
    (hartifact : v.locate (s.artifactPath key) = .ok (L.push (artifactName key))) :
    s.read v key = .ok (v.artifact? L key) := by
  unfold read
  rw [read_of_locate hv hartifact, artifact?]
  cases v.content? L (artifactName key) <;> rfl

/-- An artifact is published, and its temporary name is no longer used. -/
theorem commit_becomes (hv : v.Serves L own) (hk : IsPlain key)
    (htemporary : v.locate (s.temporaryPath key v.fresh) =
      .ok (L.push (temporaryName key v.fresh)))
    (hartifact : v.locate (s.artifactPath key) = .ok (L.push (artifactName key)))
    (bytes : List UInt8) :
    ∃ v', s.commit key bytes v = (.ok (s.artifactPath key), v') ∧ Becomes v v' L own
      (Function.update (Function.update (v.content? L) (temporaryName key v.fresh) none)
        (artifactName key) (some bytes)) := by
  -- A stamp is taken, the bytes are written under the temporary name, and then they are renamed.
  let v₁ : Volume := { v with fresh := v.fresh + 1 }
  have hv₁ : v₁.Serves L own := ⟨hv.directory, hv.files, hv.locks⟩
  have hk₁ : Keeps v v₁ := fun l hl => hl
  obtain ⟨v₂, hwrite, hbecomes⟩ := writeFile_apply hv₁ (isName_temporary hk v.fresh)
    (locate_of_keeps hk₁ htemporary) bytes
  have hk₂ := hk₁.trans hbecomes.keeps
  obtain ⟨v₃, hrename, hrenamed⟩ := rename_of_locate hbecomes.serves
    (locate_of_keeps hk₂ htemporary) (locate_of_keeps hk₂ hartifact)
    (by rw [hbecomes.content, Function.update_self])
  refine ⟨v₃, ?_, hrenamed.serves, hk₂.trans hrenamed.keeps, ?_⟩
  · rw [commit, bind_apply (show takeFresh v = (.ok v.fresh, v₁) from rfl)]
    refine (bind_apply hwrite).trans ?_
    have hmoved : rename (s.temporaryPath key v.fresh) (s.artifactPath key) v₂ = (.ok (), v₃) :=
      hrename
    simp only [hmoved]
  · rw [hrenamed.content, hbecomes.content, Function.update_idem]
    rfl

/-- An artifact and its source are removed. -/
theorem evict_becomes (hv : v.Serves L own)
    (hartifact : v.locate (s.artifactPath key) = .ok (L.push (artifactName key)))
    (hsource : v.locate (s.sourcePath key) = .ok (L.push (sourceName key))) :
    ∃ v', s.evict key v = (.ok (), v') ∧ Becomes v v' L own
      (Function.update (Function.update (v.content? L) (artifactName key) none)
        (sourceName key) none) := by
  obtain ⟨v', hremove, hbecomes⟩ := removeFile_apply hv hartifact
  obtain ⟨v'', hsources, hbecomes'⟩ :=
    removeSource_becomes hbecomes.serves (locate_of_keeps hbecomes.keeps hsource)
  rw [hbecomes.content] at hbecomes'
  exact ⟨v'', (bind_apply hremove).trans hsources, hbecomes.trans hbecomes'⟩

/-! ### The files of a signature in a directory with room for their names -/

theorem locate_extension (hv : v.Serves L own) (hp : v.Leads s.root L) (hk : IsKey key)
    {extension : String} (he : extension ∈ ["kernel", "src", "lock"]) :
    v.locate (s.path key extension) = .ok (L.push (key ++ "." ++ extension)) :=
  locate_file hv hp (isFileName_extension hk he)

theorem writeSource_apply (hv : v.Serves L own) (hp : v.Leads s.root L) (hk : IsKey key)
    (text : String) : ∃ v', s.writeSource key text v = (.ok (s.sourcePath key), v') ∧
      Stores v v' L own (v.artifact? L) := by
  obtain ⟨v', hwrite, hbecomes⟩ :=
    writeSource_becomes hv hk.toIsPlain (locate_extension hv hp hk (by decide)) text
  exact ⟨v', hwrite, hbecomes.stores (c := 'c') rfl (by decide)⟩

theorem removeSource_apply (hv : v.Serves L own) (hp : v.Leads s.root L) (hk : IsKey key) :
    ∃ v', s.removeSource key v = (.ok (), v') ∧ Stores v v' L own (v.artifact? L) := by
  obtain ⟨v', hremove, hbecomes⟩ :=
    removeSource_becomes hv (locate_extension hv hp hk (by decide))
  exact ⟨v', hremove, hbecomes.stores (c := 'c') rfl (by decide)⟩

theorem read_apply (hv : v.Serves L own) (hp : v.Leads s.root L) (hk : IsKey key) :
    s.read v key = .ok (v.artifact? L key) :=
  read_eq_content hv (locate_extension hv hp hk (by decide))

/-- An artifact is published. -/
theorem commit_apply (hv : v.Serves L own) (hp : v.Leads s.root L) (hk : IsKey key)
    (bytes : List UInt8) : ∃ v', s.commit key bytes v = (.ok (s.artifactPath key), v') ∧
      Stores v v' L own (Function.update (v.artifact? L) key (some bytes)) := by
  obtain ⟨v', hcommit, hbecomes⟩ := commit_becomes hv hk.toIsPlain
    (locate_file hv hp (isFileName_temporary hk v.fresh))
    (locate_extension hv hp hk (by decide)) bytes
  exact ⟨v', hcommit, hbecomes.stores_update fun other =>
    Function.update_of_ne artifactName_ne_temporaryName _ _⟩

/-- An artifact is removed. -/
theorem evict_apply (hv : v.Serves L own) (hp : v.Leads s.root L) (hk : IsKey key) :
    ∃ v', s.evict key v = (.ok (), v') ∧
      Stores v v' L own (Function.update (v.artifact? L) key none) := by
  obtain ⟨v', hevict, hbecomes⟩ := evict_becomes hv (locate_extension hv hp hk (by decide))
    (locate_extension hv hp hk (by decide))
  rw [Function.update_comm artifactName_ne_sourceName] at hbecomes
  exact ⟨v', hevict, hbecomes.stores_update fun other =>
    Function.update_of_ne artifactName_ne_sourceName _ _⟩

/-- A lock that nobody holds is taken. -/
theorem lock_apply (hv : v.Serves L none) (hp : v.Leads s.root L) (hk : IsKey key)
    (limit : Option UInt64) : ∃ token v', lock (s.lockPath key) limit v = (.ok token, v') ∧
      Stores v v' L (some token) (v.artifact? L) := by
  obtain ⟨token, v', hlock, hbecomes⟩ := tryLock_of_locate hv
    (locate_extension hv hp hk (by decide : "lock" ∈ _))
  refine ⟨token, v', ?_, hbecomes.stores (c := 'k') rfl (by decide)⟩
  exact bind_apply (reportedAt_apply hlock)

end ArtifactStore

end Collate
