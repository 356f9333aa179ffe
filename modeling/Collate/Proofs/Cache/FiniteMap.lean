import Collate.Proofs.Cache.FileNames
import Collate.Proofs.Cache.Transparency

/-!
# A store as a finite map

To its callers a store is a map from signatures to artifacts.  Calls are made on a store that was
empty at first (`StoreCall.performAll`); they make of its files what `StoreCall.filesAfter` tells,
without any volume, and among those files are no others than the last artifacts
(`StoreCall.lastCommit?`) and the last sources (`StoreCall.lastSource?`) of signatures.  So a store
shows the map of the last artifacts, and a call for one signature does not show for another
(`ArtifactStore.refines_map`).

A signature may hold dots, and may end like the name of an artifact or of a source: of every name
only the last extension counts (`ArtifactStore.signatureOf?_eq_some_iff`).
-/

namespace Collate

/-- A signature that a caller may choose: any text but the empty one that may stand in the name of
a file. -/
structure IsSignature (key : String) : Prop extends IsPlain key where
  nonempty : key ≠ ""

namespace Volume

/-- A directory accepts a name: neither the name nor its path is too long. -/
structure Accepts (dir : Path) (name : String) : Prop where
  fits : nameFits name
  size : (dir.join name).text.utf8ByteSize ≤ maxPathLength

variable {v : Volume} {L : Location} {dir : Path} {name : String}

theorem Accepts.locate (h : Accepts dir name) (hv : v.Enters dir L) (hname : Path.IsName name) :
    v.locate (dir.join name) = .ok (L.push name) :=
  hv.locate_join_of_size hname h.fits h.size

theorem Leads.accepts (h : v.Leads dir L) (hname : IsFileName name) : Accepts dir name where
  fits := decide_eq_true (Nat.le_trans (Nat.le_of_lt hname.size) (by decide))
  size := h.size_join hname.toIsName hname.size

end Volume

/-- A call that may change a store. -/
inductive StoreCall where
  | commit (key : String) (bytes : List UInt8)
  | writeSource (key text : String)
  | removeSource (key : String)
  | evict (key : String)
  deriving DecidableEq, Repr

namespace StoreCall

open ArtifactStore Volume

/-- The signature that a call is for. -/
def signature : StoreCall → String
  | commit key _ => key
  | writeSource key _ => key
  | removeSource key => key
  | evict key => key

/-- The names of the files on which a call works. -/
def names : StoreCall → Set String
  | commit key _ => insert (artifactName key) (Set.range (temporaryName key))
  | writeSource key _ => {sourceName key}
  | removeSource key => {sourceName key}
  | evict key => {artifactName key, sourceName key}

/-- The directory at a path accepts the names that a call makes of its signature. -/
structure Accepted (dir : Path) (call : StoreCall) : Prop where
  signature : IsSignature call.signature
  names : ∀ name ∈ call.names, Accepts dir name

/-- Makes a call. -/
def perform (s : ArtifactStore) : StoreCall → Action CacheError Unit
  | commit key bytes => do let _ ← s.commit key bytes
  | writeSource key text => do let _ ← s.writeSource key text
  | removeSource key => s.removeSource key
  | evict key => s.evict key

/-- Makes calls, one after the other. -/
def performAll (s : ArtifactStore) : List StoreCall → Action CacheError Unit
  | [] => return ()
  | call :: calls => do
    call.perform s
    performAll s calls

/-! ### The map of a history -/

/-- The bytes that a call commits for a signature. -/
def committed? (key : String) : StoreCall → Option (List UInt8)
  | commit other bytes => if other = key then some bytes else none
  | writeSource _ _ => none
  | removeSource _ => none
  | evict _ => none

/-- The bytes of the source that a call writes for a signature. -/
def written? (key : String) : StoreCall → Option (List UInt8)
  | commit _ _ => none
  | writeSource other text => if other = key then some (Text.bytes text) else none
  | removeSource _ => none
  | evict _ => none

/-- What was given by the last call that gave anything, unless a call has ended it since. -/
def lastSince (ends : StoreCall → Bool) (gives : StoreCall → Option (List UInt8))
    (calls : List StoreCall) : Option (List UInt8) :=
  (calls.reverse.takeWhile fun call => !ends call).findSome? gives

/-- The bytes of the last commit of a signature since it was last evicted. -/
def lastCommit? (key : String) : List StoreCall → Option (List UInt8) :=
  lastSince (· = evict key) (committed? key)

/-- The source of a signature that was written last, since it was last removed or evicted. -/
def lastSource? (key : String) : List StoreCall → Option (List UInt8) :=
  lastSince (fun call => call = removeSource key ∨ call = evict key) (written? key)

variable {call : StoreCall} {calls : List StoreCall} {key name : String} {dir : Path}
  {s : ArtifactStore} {v v' : Volume} {L : Location} {files : String → Option (List UInt8)}

theorem lastSince_concat (ends : StoreCall → Bool) (gives : StoreCall → Option (List UInt8))
    (calls : List StoreCall) (call : StoreCall) : lastSince ends gives (calls ++ [call]) =
      if ends call then none else (gives call).or (lastSince ends gives calls) := by
  rw [lastSince, List.reverse_append, List.reverse_singleton, List.singleton_append,
    List.takeWhile_cons]
  cases hends : ends call with
  | true => rfl
  | false =>
    simp only [Bool.not_false, if_true, List.findSome?_cons]
    cases gives call <;> rfl

theorem lastCommit?_concat (key : String) (calls : List StoreCall) (call : StoreCall) :
    lastCommit? key (calls ++ [call]) =
      if call = evict key then none else (call.committed? key).or (lastCommit? key calls) := by
  simp only [lastCommit?, lastSince_concat, decide_eq_true_eq]

theorem lastSource?_concat (key : String) (calls : List StoreCall) (call : StoreCall) :
    lastSource? key (calls ++ [call]) =
      if call = removeSource key ∨ call = evict key then none
      else (call.written? key).or (lastSource? key calls) := by
  simp only [lastSource?, lastSince_concat, decide_eq_true_eq]

/-- A call for one signature is none for another. -/
theorem lastCommit?_concat_of_ne (h : key ≠ call.signature) :
    lastCommit? key (calls ++ [call]) = lastCommit? key calls := by
  rw [lastCommit?_concat]
  cases call with
  | commit other bytes =>
    have hne : other ≠ key := Ne.symm h
    rw [if_neg (by simp), committed?, if_neg hne, Option.none_or]
  | writeSource other text => rw [if_neg (by simp), committed?, Option.none_or]
  | removeSource other => rw [if_neg (by simp), committed?, Option.none_or]
  | evict other =>
    have hne : evict other ≠ evict key := fun heq => h (StoreCall.evict.inj heq).symm
    rw [if_neg hne, committed?, Option.none_or]

theorem commit_mem_of_lastCommit? {bytes : List UInt8} (h : lastCommit? key calls = some bytes) :
    commit key bytes ∈ calls := by
  obtain ⟨call, hmem, hcommitted⟩ := List.exists_of_findSome?_eq_some h
  have hcall := List.mem_reverse.1 (List.takeWhile_subset _ hmem)
  cases call with
  | commit other bytes' =>
    rw [committed?] at hcommitted
    split_ifs at hcommitted with hkey
    rw [← hkey, ← Option.some.inj hcommitted]
    exact hcall
  | writeSource | removeSource | evict => cases hcommitted

/-! ### The files of a history -/

/-- What a call makes of the files of a store. -/
def apply (files : String → Option (List UInt8)) : StoreCall → String → Option (List UInt8)
  | commit key bytes => Function.update files (artifactName key) (some bytes)
  | writeSource key text => Function.update files (sourceName key) (some (Text.bytes text))
  | removeSource key => Function.update files (sourceName key) none
  | evict key => Function.update (Function.update files (artifactName key) none)
      (sourceName key) none

/-- The files of a store, which was empty at first, after calls. -/
def filesAfter (calls : List StoreCall) : String → Option (List UInt8) :=
  calls.foldl apply fun _ => none

theorem filesAfter_concat (calls : List StoreCall) (call : StoreCall) :
    filesAfter (calls ++ [call]) = call.apply (filesAfter calls) :=
  List.foldl_concat ..

theorem apply_artifactName (files : String → Option (List UInt8)) (call : StoreCall)
    (key : String) : call.apply files (artifactName key) =
      if call = evict key then none else (call.committed? key).or (files (artifactName key)) := by
  cases call with
  | commit other bytes =>
    rw [apply, Function.update_apply_of_injective _ artifactName_injective, committed?,
      if_neg (by simp), Function.update_apply]
    by_cases h : key = other
    · simp [h]
    · simp [h, Ne.symm h]
  | writeSource other text =>
    rw [apply, Function.update_of_ne artifactName_ne_sourceName, committed?, if_neg (by simp)]
    rfl
  | removeSource other =>
    rw [apply, Function.update_of_ne artifactName_ne_sourceName, committed?, if_neg (by simp)]
    rfl
  | evict other =>
    rw [apply, Function.update_of_ne artifactName_ne_sourceName,
      Function.update_apply_of_injective _ artifactName_injective, committed?,
      Function.update_apply]
    simp [eq_comm]

theorem apply_sourceName (files : String → Option (List UInt8)) (call : StoreCall)
    (key : String) : call.apply files (sourceName key) =
      if call = removeSource key ∨ call = evict key then none
      else (call.written? key).or (files (sourceName key)) := by
  have hne : ∀ other, sourceName key ≠ artifactName other := fun _ =>
    artifactName_ne_sourceName.symm
  cases call with
  | commit other bytes =>
    rw [apply, Function.update_of_ne (hne other), written?, if_neg (by simp)]
    rfl
  | writeSource other text =>
    rw [apply, Function.update_apply_of_injective _ sourceName_injective, written?,
      if_neg (by simp), Function.update_apply]
    by_cases h : key = other
    · simp [h]
    · simp [h, Ne.symm h]
  | removeSource other =>
    rw [apply, Function.update_apply_of_injective _ sourceName_injective, written?,
      Function.update_apply]
    simp [eq_comm]
  | evict other =>
    rw [apply, Function.update_apply_of_injective _ sourceName_injective, written?,
      Function.update_apply, Function.update_of_ne (hne other)]
    simp [eq_comm]

/-- A call makes no files but artifacts and sources. -/
theorem files_of_apply (h : call.apply files name ≠ none) :
    files name ≠ none ∨ (∃ key, name = artifactName key) ∨ ∃ key, name = sourceName key := by
  have hupdate : ∀ {files : String → Option (List UInt8)} {other : String} {bytes},
      Function.update files other bytes name ≠ none → name = other ∨ files name ≠ none := by
    intro files other bytes h
    rw [Function.update_apply] at h
    split_ifs at h with heq
    · exact .inl heq
    · exact .inr h
  cases call with
  | commit key bytes => exact (hupdate h).elim (fun heq => .inr (.inl ⟨key, heq⟩)) .inl
  | writeSource key text => exact (hupdate h).elim (fun heq => .inr (.inr ⟨key, heq⟩)) .inl
  | removeSource key => exact (hupdate h).elim (fun heq => .inr (.inr ⟨key, heq⟩)) .inl
  | evict key =>
    refine (hupdate h).elim (fun heq => .inr (.inr ⟨key, heq⟩)) fun h => ?_
    exact (hupdate h).elim (fun heq => .inr (.inl ⟨key, heq⟩)) .inl

theorem filesAfter_artifactName (calls : List StoreCall) (key : String) :
    filesAfter calls (artifactName key) = lastCommit? key calls := by
  induction calls using List.reverseRecOn with
  | nil => rfl
  | append_singleton calls call ih =>
    rw [filesAfter_concat, apply_artifactName, ih, lastCommit?_concat]

theorem filesAfter_sourceName (calls : List StoreCall) (key : String) :
    filesAfter calls (sourceName key) = lastSource? key calls := by
  induction calls using List.reverseRecOn with
  | nil => rfl
  | append_singleton calls call ih =>
    rw [filesAfter_concat, apply_sourceName, ih, lastSource?_concat]

theorem exists_key_of_filesAfter (h : filesAfter calls name ≠ none) :
    (∃ key, name = artifactName key) ∨ ∃ key, name = sourceName key := by
  induction calls using List.reverseRecOn with
  | nil => exact absurd rfl h
  | append_singleton calls call ih =>
    rw [filesAfter_concat] at h
    exact (files_of_apply h).elim ih id

/-- No name of an artifact that is being written is left over. -/
theorem filesAfter_temporaryName (calls : List StoreCall) (key : String) (stamp : Nat) :
    filesAfter calls (temporaryName key stamp) = none := by
  by_contra hne
  obtain ⟨other, heq⟩ | ⟨other, heq⟩ := exists_key_of_filesAfter hne
  · exact artifactName_ne_temporaryName heq.symm
  · exact sourceName_ne_temporaryName heq.symm

/-- The files are the last artifacts and the last sources. -/
theorem isSome_filesAfter_iff : (filesAfter calls name).isSome ↔
    (∃ key, name = artifactName key ∧ (lastCommit? key calls).isSome) ∨
      ∃ key, name = sourceName key ∧ (lastSource? key calls).isSome := by
  constructor
  · intro h
    obtain ⟨key, rfl⟩ | ⟨key, rfl⟩ := exists_key_of_filesAfter (Option.isSome_iff_ne_none.1 h)
    · exact .inl ⟨key, rfl, by rwa [← filesAfter_artifactName]⟩
    · exact .inr ⟨key, rfl, by rwa [← filesAfter_sourceName]⟩
  · rintro (⟨key, rfl, h⟩ | ⟨key, rfl, h⟩)
    · rwa [filesAfter_artifactName]
    · rwa [filesAfter_sourceName]

/-! ### Calls on a volume -/

/-- A call goes on with the files that a history has left. -/
theorem perform_apply (hv : v.Serves L none) (hroot : v.Enters s.root L)
    (hcontent : v.content? L = filesAfter calls) (hcall : call.Accepted s.root) :
    ∃ v', call.perform s v = (.ok (), v') ∧
      Becomes v v' L none (filesAfter (calls ++ [call])) := by
  obtain ⟨hkey, hnames⟩ := hcall
  have hplain := hkey.toIsPlain
  have hartifact : artifactName call.signature ∈ call.names →
      v.locate (s.artifactPath call.signature) = .ok (L.push (artifactName call.signature)) :=
    fun hmem => (hnames _ hmem).locate hroot (isName_artifact hplain)
  have hsource : sourceName call.signature ∈ call.names →
      v.locate (s.sourcePath call.signature) = .ok (L.push (sourceName call.signature)) :=
    fun hmem => (hnames _ hmem).locate hroot (isName_source hplain)
  rw [filesAfter_concat, ← hcontent]
  cases call with
  | commit key bytes =>
    have htemporary : temporaryName key v.fresh ∈ (commit key bytes).names :=
      Set.mem_insert_of_mem _ ⟨v.fresh, rfl⟩
    obtain ⟨v', hcommit, hbecomes⟩ := commit_becomes hv hplain
      ((hnames _ htemporary).locate hroot (isName_temporary hplain v.fresh))
      (hartifact (Set.mem_insert _ _)) bytes
    -- The temporary name was free, so nothing but the artifact has changed.
    have hfree : Function.update (v.content? L) (temporaryName key v.fresh) none =
        v.content? L := by
      rw [Function.update_eq_self_iff, hcontent, filesAfter_temporaryName]
    refine ⟨v', bind_apply hcommit, ?_⟩
    rw [apply, ← hfree]
    exact hbecomes
  | writeSource key text =>
    obtain ⟨v', hwrite, hbecomes⟩ := writeSource_becomes hv hplain (hsource rfl) text
    exact ⟨v', bind_apply hwrite, hbecomes⟩
  | removeSource key => exact removeSource_becomes hv (hsource rfl)
  | evict key =>
    exact evict_becomes hv (hartifact (Set.mem_insert _ _))
      (hsource (Set.mem_insert_of_mem _ rfl))

theorem performAll_apply {front : List StoreCall} (hv : v.Serves L none)
    (hroot : v.Enters s.root L) (hcontent : v.content? L = filesAfter front)
    (hcalls : ∀ call ∈ calls, call.Accepted s.root) :
    ∃ v', performAll s calls v = (.ok (), v') ∧
      Becomes v v' L none (filesAfter (front ++ calls)) := by
  induction calls generalizing v front with
  | nil =>
    rw [List.append_nil, ← hcontent]
    exact ⟨v, rfl, hv.becomes⟩
  | cons call calls ih =>
    obtain ⟨hcall, hcalls⟩ := List.forall_mem_cons.1 hcalls
    obtain ⟨v₁, hperform, hbecomes⟩ := perform_apply hv hroot hcontent hcall
    obtain ⟨v₂, hrest, hbecomes'⟩ :=
      ih hbecomes.serves (hroot.of_keeps hbecomes.keeps) hbecomes.content hcalls
    rw [List.append_assoc] at hbecomes'
    exact ⟨v₂, (bind_apply hperform).trans hrest, hbecomes.trans hbecomes'⟩

/-- The signatures of a cache are accepted where there is room for their names. -/
theorem accepted_of_isKey (hroot : v.Leads dir L) (hk : IsKey call.signature)
    (hne : call.signature ≠ "") : call.Accepted dir := by
  refine ⟨⟨hk.toIsPlain, hne⟩, fun name hname => hroot.accepts (isFileName_of_mem_names hk ?_)⟩
  refine Set.mem_insert_of_mem _ ?_
  cases call with
  | commit key bytes =>
    obtain rfl | ⟨stamp, rfl⟩ := hname
    · exact artifactName_mem_workNames key
    · exact temporaryName_mem_workNames key stamp
  | writeSource key text =>
    obtain rfl := Set.mem_singleton_iff.1 hname
    exact sourceName_mem_workNames key
  | removeSource key =>
    obtain rfl := Set.mem_singleton_iff.1 hname
    exact sourceName_mem_workNames key
  | evict key =>
    obtain rfl | rfl := hname
    · exact artifactName_mem_workNames key
    · exact sourceName_mem_workNames key

end StoreCall

namespace ArtifactStore

open StoreCall Volume

variable {s : ArtifactStore} {v v' : Volume} {L : Location} {own : Option Nat}
  {call : StoreCall} {calls : List StoreCall} {key name : String} {names keys : List String}

/-! ### What a store shows -/

theorem artifactName_toList (key : String) :
    (artifactName key).toList = key.toList ++ ".kernel".toList := by
  rw [artifactName, String.append_assoc, String.toList_append]
  rfl

/-- The signature of an artifact is what stands before the last extension of its name. -/
theorem signatureOf?_eq_some_iff :
    signatureOf? name = some key ↔ key ≠ "" ∧ name = artifactName key := by
  rw [signatureOf?]
  constructor
  · intro h
    split_ifs at h with hname
    obtain ⟨front, hfront⟩ := List.isSuffixOf_iff_suffix.1 hname.1
    have hlength : name.toList.length - ".kernel".toList.length = front.length := by
      rw [← hfront, List.length_append, Nat.add_sub_cancel]
    rw [hlength, ← hfront, List.take_left, Option.some.injEq] at h
    rw [← hfront, List.length_append] at hname
    refine ⟨?_, String.toList_injective ?_⟩
    · rintro rfl
      have hnil := congrArg String.toList h
      rw [String.toList_ofList] at hnil
      rw [hnil] at hname
      exact absurd hname.2 (by decide)
    · rw [artifactName_toList, ← h, String.toList_ofList, hfront]
  · rintro ⟨hne, rfl⟩
    have hpos : 0 < key.toList.length :=
      List.length_pos_of_ne_nil fun hnil => hne (String.toList_injective hnil)
    have hlong : ".kernel".toList.length < (key.toList ++ ".kernel".toList).length := by
      rw [List.length_append]
      exact Nat.lt_add_of_pos_left hpos
    rw [artifactName_toList,
      if_pos ⟨List.isSuffixOf_iff_suffix.2 (List.suffix_append _ _), hlong⟩,
      List.length_append, Nat.add_sub_cancel, List.take_left, String.ofList_toList]

/-- A store that was empty at first shows the map of the last commits: by what it reads, by what it
contains, by its list and by the names of its files. -/
structure Shows (s : ArtifactStore) (calls : List StoreCall) (v : Volume) : Prop where
  read (key : String) (hkey : IsSignature key) (hname : Accepts s.root (artifactName key)) :
    s.read v key = .ok (lastCommit? key calls)
  contains (key : String) (hkey : IsSignature key) (hname : Accepts s.root (artifactName key)) :
    s.contains v key ↔ (lastCommit? key calls).isSome
  list : ∃ keys, s.list v = .ok keys ∧ keys.Pairwise (· < ·) ∧ (∀ key ∈ keys, s.contains v key) ∧
    ∀ key, key ∈ keys ↔ (lastCommit? key calls).isSome
  names : ∃ names, v.names s.root = .ok names ∧ names.Nodup ∧ ∀ name, name ∈ names ↔
    (∃ key, name = artifactName key ∧ (lastCommit? key calls).isSome) ∨
      ∃ key, name = sourceName key ∧ (lastSource? key calls).isSome

/-- Nothing is seen of a signature in one volume that is not seen in the other. -/
structure SeenAlike (s : ArtifactStore) (key : String) (v v' : Volume) : Prop where
  read : s.read v' key = s.read v key
  contains : s.contains v' key = s.contains v key
  list : ∃ keys keys', s.list v = .ok keys ∧ s.list v' = .ok keys' ∧ (key ∈ keys' ↔ key ∈ keys)

theorem contains_eq_isSome (hv : v.Serves L own)
    (hartifact : v.locate (s.artifactPath key) = .ok (L.push (artifactName key))) :
    s.contains v key = (v.artifact? L key).isSome := by
  rw [ArtifactStore.contains, isFile, find_eq_of_locate hartifact, hv.node?_push, artifact?]
  cases v.content? L (artifactName key) <;> rfl

/-- The list has the signatures of the artifacts among the names in the directory, in order. -/
theorem exists_list (hnames : v.names s.root = .ok names) (hnodup : names.Nodup) :
    ∃ keys, s.list v = .ok keys ∧ keys.Pairwise (· < ·) ∧
      ∀ key, key ∈ keys ↔ key ≠ "" ∧ artifactName key ∈ names := by
  have hperm := List.mergeSort_perm (names.filterMap signatureOf?) fun a b => a ≤ b
  refine ⟨_, by rw [list, hnames], ?_, fun key => ?_⟩
  · have htrans : ∀ a b c : String, decide (a ≤ b) → decide (b ≤ c) → decide (a ≤ c) := by
      simp only [decide_eq_true_eq]
      exact fun _ _ _ => le_trans
    have htotal : ∀ a b : String, decide (a ≤ b) || decide (b ≤ a) := by
      simpa using le_total
    have hsorted := List.pairwise_mergeSort htrans htotal (names.filterMap signatureOf?)
    have hdistinct : (names.filterMap signatureOf?).Nodup := by
      refine hnodup.filterMap fun name name' key hname hname' => ?_
      rw [Option.mem_def, signatureOf?_eq_some_iff] at hname hname'
      rw [hname.2, hname'.2]
    refine (hsorted.and (hperm.nodup_iff.2 hdistinct)).imp fun {a b} hab => ?_
    exact lt_of_le_of_ne (of_decide_eq_true hab.1) hab.2
  · rw [hperm.mem_iff, List.mem_filterMap]
    simp only [signatureOf?_eq_some_iff]
    constructor
    · rintro ⟨name, hmem, hne, rfl⟩
      exact ⟨hne, hmem⟩
    · rintro ⟨hne, hmem⟩
      exact ⟨_, hmem, hne, rfl⟩

theorem shows_of_content (hroot : v.locate s.root = .ok L) (hv : v.Serves L none)
    (hcontent : v.content? L = filesAfter calls)
    (hcalls : ∀ call ∈ calls, call.Accepted s.root) : s.Shows calls v := by
  have henters := Enters.of_locate hroot hv.directory
  have hartifact : ∀ key, v.artifact? L key = lastCommit? key calls := fun key => by
    rw [artifact?, hcontent, filesAfter_artifactName]
  have hlocate : ∀ {key}, IsSignature key → Accepts s.root (artifactName key) →
      v.locate (s.artifactPath key) = .ok (L.push (artifactName key)) :=
    fun hkey hname => hname.locate henters (isName_artifact hkey.toIsPlain)
  have hcontains : ∀ key, IsSignature key → Accepts s.root (artifactName key) →
      (s.contains v key ↔ (lastCommit? key calls).isSome) := fun key hkey hname => by
    rw [contains_eq_isSome hv (hlocate hkey hname), hartifact]
  -- What was committed was accepted.
  have haccepted : ∀ key, (lastCommit? key calls).isSome →
      IsSignature key ∧ Accepts s.root (artifactName key) := by
    intro key h
    obtain ⟨bytes, hbytes⟩ := Option.isSome_iff_exists.1 h
    have hcommit := hcalls _ (commit_mem_of_lastCommit? hbytes)
    exact ⟨hcommit.signature, hcommit.names _ (Set.mem_insert _ _)⟩
  obtain ⟨names, hnames, hnodup, hmem⟩ := hv.exists_names hroot
  obtain ⟨keys, hlist, hsorted, hkeys⟩ := exists_list hnames hnodup
  have hcommitted : ∀ key, key ∈ keys ↔ (lastCommit? key calls).isSome := by
    intro key
    rw [hkeys, hmem, hcontent, filesAfter_artifactName]
    exact and_iff_right_of_imp fun h => (haccepted key h).1.nonempty
  exact {
    read := fun key hkey hname => by rw [read_eq_content hv (hlocate hkey hname), hartifact]
    contains := hcontains
    list := ⟨keys, hlist, hsorted, fun key hkey => by
      have hsome := (hcommitted key).1 hkey
      obtain ⟨hsignature, hname⟩ := haccepted key hsome
      exact (hcontains key hsignature hname).2 hsome, hcommitted⟩
    names := ⟨names, hnames, hnodup, fun name => by
      rw [hmem, hcontent, isSome_filesAfter_iff]⟩ }

/-- A call for one signature does not show for another. -/
theorem Shows.seenAlike (h : s.Shows calls v) (h' : s.Shows (calls ++ [call]) v')
    (hkey : IsSignature key) (hname : Accepts s.root (artifactName key))
    (hne : key ≠ call.signature) : s.SeenAlike key v v' := by
  have hsame : lastCommit? key (calls ++ [call]) = lastCommit? key calls :=
    lastCommit?_concat_of_ne hne
  obtain ⟨keys, hlist, -, -, hkeys⟩ := h.list
  obtain ⟨keys', hlist', -, -, hkeys'⟩ := h'.list
  refine ⟨?_, ?_, keys, keys', hlist, hlist', ?_⟩
  · rw [h.read key hkey hname, h'.read key hkey hname, hsame]
  · rw [Bool.eq_iff_iff, h.contains key hkey hname, h'.contains key hkey hname, hsame]
  · rw [hkeys, hkeys', hsame]

/-- **A store refines a finite map.**  Calls on a store that was empty at first all succeed, and it
then shows the map of the last commits; whatever call comes next does not show for any signature but
its own. -/
theorem refines_map (hroot : v.locate s.root = .ok L) (hempty : Session.Vacant v L)
    (hcalls : ∀ call ∈ calls, call.Accepted s.root) :
    ∃ v', performAll s calls v = (.ok (), v') ∧ s.Shows calls v' ∧
      ∀ call : StoreCall, call.Accepted s.root →
        ∃ v'', call.perform s v' = (.ok (), v'') ∧ s.Shows (calls ++ [call]) v'' ∧
          ∀ key, IsSignature key → Accepts s.root (artifactName key) → key ≠ call.signature →
            s.SeenAlike key v' v'' := by
  have hnone : v.content? L = filesAfter [] := hempty.content?_eq
  obtain ⟨v', hperform, hbecomes⟩ :=
    performAll_apply hempty.serves (Enters.of_locate hroot hempty.directory) hnone hcalls
  rw [List.nil_append] at hbecomes
  have hroot' := locate_of_keeps hbecomes.keeps hroot
  have hshows := shows_of_content hroot' hbecomes.serves hbecomes.content hcalls
  refine ⟨v', hperform, hshows, fun call hcall => ?_⟩
  obtain ⟨v'', hcalled, hbecomes'⟩ := perform_apply hbecomes.serves
    (Enters.of_locate hroot' hbecomes.serves.directory) hbecomes.content hcall
  have hshows' : s.Shows (calls ++ [call]) v'' :=
    shows_of_content (locate_of_keeps hbecomes'.keeps hroot') hbecomes'.serves hbecomes'.content
      (List.forall_mem_append.2 ⟨hcalls, List.forall_mem_singleton.2 hcall⟩)
  exact ⟨v'', hcalled, hshows', fun key hkey hname hne => hshows.seenAlike hshows' hkey hname hne⟩

/-- Calls for signatures that look like the files of one another. -/
def dottedCalls : List StoreCall :=
  [.commit "a" [1], .writeSource "a" "x", .commit "a.kernel" [2], .commit "a" [3],
    .evict "a.kernel", .commit ".src" [4], .removeSource "a"]

theorem refines_map_dottedCalls :
    Volume.locate {} ⟨"/"⟩ = .ok #[] ∧ Session.Vacant {} #[] ∧
      (∀ call ∈ dottedCalls, call.Accepted ⟨"/"⟩) ∧
      ∃ v', performAll ⟨⟨"/"⟩⟩ dottedCalls {} = (.ok (), v') ∧
        read ⟨⟨"/"⟩⟩ v' "a" = .ok (some [3]) ∧ read ⟨⟨"/"⟩⟩ v' "a.kernel" = .ok none ∧
        contains ⟨⟨"/"⟩⟩ v' ".src" = true ∧ contains ⟨⟨"/"⟩⟩ v' "a.kernel" = false := by
  have hkeys : ∀ key ∈ ["a", "a.kernel", ".src"],
      ('/' ∉ key.toList ∧ '\x00' ∉ key.toList ∧ key.utf8ByteSize ≤ 64) ∧ key ≠ "" := by
    decide
  have hkey : ∀ key ∈ ["a", "a.kernel", ".src"], IsKey key ∧ key ≠ "" := fun key hmem =>
    have ⟨⟨hslash, hnul, hsize⟩, hne⟩ := hkeys key hmem
    ⟨⟨⟨hslash, hnul⟩, hsize⟩, hne⟩
  have hcalls : ∀ call ∈ dottedCalls, call.Accepted ⟨"/"⟩ := by
    intro call hmem
    have hsignature : call.signature ∈ ["a", "a.kernel", ".src"] := by
      revert call
      decide
    exact accepted_of_isKey Session.leads_top (hkey _ hsignature).1 (hkey _ hsignature).2
  obtain ⟨v', hperform, hshows, -⟩ :=
    refines_map (s := ⟨⟨"/"⟩⟩) Leads.locate_top Session.vacant_top hcalls
  have hsignature : ∀ key ∈ ["a", "a.kernel", ".src"],
      IsSignature key ∧ Accepts ⟨"/"⟩ (artifactName key) := fun key hmem =>
    ⟨⟨(hkey key hmem).1.toIsPlain, (hkey key hmem).2⟩,
      Session.leads_top.accepts (isFileName_artifact (hkey key hmem).1)⟩
  have hread : ∀ key ∈ ["a", "a.kernel", ".src"],
      read ⟨⟨"/"⟩⟩ v' key = .ok (lastCommit? key dottedCalls) := fun key hmem =>
    hshows.read key (hsignature key hmem).1 (hsignature key hmem).2
  have hcontains : ∀ key ∈ ["a", "a.kernel", ".src"],
      contains ⟨⟨"/"⟩⟩ v' key = (lastCommit? key dottedCalls).isSome := fun key hmem =>
    Bool.eq_iff_iff.2 (hshows.contains key (hsignature key hmem).1 (hsignature key hmem).2)
  exact ⟨Leads.locate_top, Session.vacant_top, hcalls, v', hperform,
    hread "a" (by decide), hread "a.kernel" (by decide), hcontains ".src" (by decide),
    hcontains "a.kernel" (by decide)⟩

end ArtifactStore

end Collate
