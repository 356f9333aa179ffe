import Collate.Cache.Error

/-!
# Artifact stores

The directory of a cache.  For every signature it may hold three files: the artifact, the source
while it is compiled, and the file that carries the lock.  An artifact is written under a temporary
name and then renamed, so that no reader meets a part of one.
-/

namespace Collate

/-- The directory of a cache. -/
structure ArtifactStore where
  root : Path
  deriving DecidableEq, Repr

namespace ArtifactStore

open Volume (Action)

/-- An action whose failure is reported at a path. -/
def reportedAt {α : Type} (p : Path) (action : Action IoError α) : Action CacheError α := fun v =>
  match action v with
  | (.ok a, v) => (.ok a, v)
  | (.error e, v) => (.error (.io p e), v)

/-- Makes the directory where there is none. -/
def opened (root : Path) : Action CacheError ArtifactStore := do
  reportedAt root (Volume.makeDirectory root)
  return ⟨root⟩

/-- The file of a signature with an extension. -/
def path (s : ArtifactStore) (signature extension : String) : Path :=
  s.root.join (signature ++ "." ++ extension)

/-- The artifact of a signature. -/
def artifactPath (s : ArtifactStore) (signature : String) : Path := s.path signature "kernel"

/-- The source of a signature. -/
def sourcePath (s : ArtifactStore) (signature : String) : Path := s.path signature "src"

/-- The file that carries the lock of a signature. -/
def lockPath (s : ArtifactStore) (signature : String) : Path := s.path signature "lock"

/-- The temporary name of an artifact: it is hidden, and as long as a stamp of 36 characters makes
it. -/
def temporaryPath (s : ArtifactStore) (signature : String) (stamp : Nat) : Path :=
  s.root.join ("." ++ signature ++ "." ++ String.ofList (Hex.digits 36 stamp) ++ ".tmp")

/-- Writes a file, in a directory that is made where there is none. -/
def writeFile (p : Path) (bytes : List UInt8) : Action CacheError Unit := do
  reportedAt p.parent (Volume.makeDirectory p.parent)
  reportedAt p (Volume.write p bytes)

/-- Removes a file, if it is there. -/
def removeFile (p : Path) : Action CacheError Unit := fun v =>
  match Volume.remove p v with
  | (.error .notFound, v) => (.ok (), v)
  | (.error e, v) => (.error (.io p e), v)
  | (.ok (), v) => (.ok (), v)

/-- Writes the source of a signature, and answers with its path. -/
def writeSource (s : ArtifactStore) (signature text : String) : Action CacheError Path := do
  writeFile (s.sourcePath signature) (Text.bytes text)
  return s.sourcePath signature

/-- Removes the source of a signature. -/
def removeSource (s : ArtifactStore) (signature : String) : Action CacheError Unit :=
  removeFile (s.sourcePath signature)

/-- The artifact of a signature, if there is one. -/
def read (s : ArtifactStore) (v : Volume) (signature : String) :
    Except CacheError (Option (List UInt8)) :=
  match v.read (s.artifactPath signature) with
  | .ok bytes => .ok (some bytes)
  | .error .notFound => .ok none
  | .error e => .error (.io (s.artifactPath signature) e)

/-- Publishes the artifact of a signature, and answers with its path. -/
def commit (s : ArtifactStore) (signature : String) (bytes : List UInt8) :
    Action CacheError Path := do
  let stamp ← Volume.takeFresh
  let temporary := s.temporaryPath signature stamp
  let target := s.artifactPath signature
  writeFile temporary bytes
  fun v =>
    match Volume.rename temporary target v with
    | (.ok (), v) => (.ok target, v)
    | (.error e, v) => (.error (.io target e), (Volume.remove temporary v).2)

/-- A signature has an artifact. -/
def contains (s : ArtifactStore) (v : Volume) (signature : String) : Bool :=
  v.isFile (s.artifactPath signature)

/-- Removes the artifact and the source of a signature. -/
def evict (s : ArtifactStore) (signature : String) : Action CacheError Unit := do
  removeFile (s.artifactPath signature)
  removeFile (s.sourcePath signature)

/-- The signature of an artifact's name: what stands before the extension, if anything does. -/
def signatureOf? (name : String) : Option String :=
  let extension := ".kernel".toList
  let cs := name.toList
  if extension.isSuffixOf cs ∧ extension.length < cs.length then
    some (String.ofList (cs.take (cs.length - extension.length)))
  else none

/-- The signatures that have an artifact, in order. -/
def list (s : ArtifactStore) (v : Volume) : Except CacheError (List String) :=
  match v.names s.root with
  | .ok names => .ok ((names.filterMap signatureOf?).mergeSort fun a b => a ≤ b)
  | .error e => .error (.io s.root e)

/-- Takes a lock: the token to give it back with.  A lock that is held is not given back while this
waits, so the wait ends at the limit, if there is one. -/
def lock (p : Path) (limit : Option UInt64) : Action CacheError Nat := do
  match ← reportedAt p (Volume.tryLock p) with
  | some token => return token
  | none =>
    match limit with
    | some milliseconds => throw (.lockTimeout p milliseconds)
    | none => throw (.lockHeld p)

end ArtifactStore

end Collate
