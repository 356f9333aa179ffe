import Collate.Cache.ArtifactStore
import Collate.Cache.Toolchain
import Collate.Signature

/-!
# The kernel cache

Kernels by signature.  `KernelCache.obtain` answers with the kernel that the cache remembers, else
with the one in the directory, else with one that it compiles; all but the first happens under the
lock of the signature, which is given back in every case.  An artifact that does not open is
replaced once.  The cache counts how often a source was made and how often the toolchain ran.
-/

namespace Collate

/-- A kernel whose artifact has been opened. -/
structure LoadedKernel where
  signature : String
  template : Template
  artifact : Path
  deriving DecidableEq, Repr

/-- A cache over a directory. -/
structure KernelCache where
  store : ArtifactStore
  toolchain : Toolchain
  /-- how long to wait for a lock, in milliseconds -/
  lockTimeout : Option UInt64
  /-- the kernels that have been answered -/
  loaded : Table String LoadedKernel := ∅
  /-- how often a source was made -/
  syntheses : Nat := 0
  /-- how often the toolchain ran -/
  compiles : Nat := 0

namespace KernelCache

open Volume (Action)

/-- What a step does to a cache and to the volume under it. -/
abbrev Step (α : Type) := ExceptT CacheError (StateM (KernelCache × Volume)) α

/-- Opens a cache over the directory of settings that can be used. -/
def opened (config : Config) (toolchain : Toolchain) : Action CacheError KernelCache :=
  match config.validate with
  | .error e => throw (.config e)
  | .ok () => do
    let store ← ArtifactStore.opened ⟨config.cacheDir⟩
    return { store, toolchain, lockTimeout := config.lockTimeoutMs }

/-- An action on the volume as a step. -/
def onVolume {α : Type} (action : Action CacheError α) : Step α := fun (c, v) =>
  let (answer, v) := action v
  (answer, (c, v))

/-- A step that only looks. -/
def look {α : Type} (answer : KernelCache → Volume → Except CacheError α) : Step α :=
  fun (c, v) => (answer c v, (c, v))

/-- A step that changes the cache alone. -/
def change (f : KernelCache → KernelCache) : Step Unit := fun (c, v) => (.ok (), (f c, v))

/-- An action on the directory of the cache. -/
def onStore {α : Type} (action : ArtifactStore → Action CacheError α) : Step α := fun (c, v) =>
  onVolume (action c.store) (c, v)

/-- Does a step under the lock of a signature, and gives the lock back whatever comes of it. -/
def underLock {α : Type} (key : String) (step : Step α) : Step α := do
  let limit ← look fun c _ => .ok c.lockTimeout
  let token ← onStore fun s => ArtifactStore.lock (s.lockPath key) limit
  fun state =>
    let (answer, (c, v)) := step state
    (answer, (c, v.unlock token))

/-- The kernel that the cache remembers. -/
def memoized? (c : KernelCache) (key : String) : Option LoadedKernel := c.loaded.get? key

/-- The kernel in the directory, if there is one. -/
def load (c : KernelCache) (v : Volume) (key : String) : Except CacheError (Option LoadedKernel) :=
  match c.store.read v key with
  | .error e => .error e
  | .ok none => .ok none
  | .ok (some bytes) =>
    match Artifact.decode bytes with
    | .ok t => .ok (some ⟨key, t, c.store.artifactPath key⟩)
    | .error e => .error (.load key (.artifact e))

/-- Runs the toolchain on a source, and counts the run. -/
def runToolchain (key text : String) : Step (Except CacheError (List UInt8)) := do
  change fun c => { c with compiles := c.compiles + 1 }
  look fun c _ => .ok (c.toolchain.compile key text)

/-- Compiles a kernel and loads it.  The source is removed whether it compiles or not, and an
artifact that does not open is removed again. -/
def build (key : String) (synthesize : Except SourceError Source) : Step LoadedKernel := do
  change fun c => { c with syntheses := c.syntheses + 1 }
  match synthesize with
  | .error e => throw (.synthesis e)
  | .ok source =>
    let _ ← onStore (·.writeSource key source.text)
    let compiled ← runToolchain key source.text
    onStore (·.removeSource key)
    match compiled with
    | .error e => throw e
    | .ok [] => do
      let name ← look fun c _ => .ok c.toolchain.name
      throw (.compile key (.noOutput name))
    | .ok bytes =>
      let _ ← onStore (·.commit key bytes)
      match ← look fun c v => .ok (c.load v key) with
      | .ok (some kernel) => return kernel
      | .ok none => throw (.load key .missing)
      | .error e =>
        onStore (·.evict key)
        throw e

/-- Takes a kernel from the directory, or compiles it. -/
def loadOrBuild (key : String) (synthesize : Except SourceError Source) : Step LoadedKernel := do
  match ← look fun c v => .ok (c.load v key) with
  | .ok (some kernel) => return kernel
  | .ok none => build key synthesize
  | .error (.load _ _) =>
    onStore (·.evict key)
    build key synthesize
  | .error e => throw e

/-- The kernel of a signature; `synthesize` is its source, which is made only where it is
needed. -/
def obtain (signature : Signature) (synthesize : Except SourceError Source) :
    Step LoadedKernel := do
  let key := signature.key
  match ← look fun c _ => .ok (c.memoized? key) with
  | some kernel => return kernel
  | none =>
    underLock key do
      let kernel ← loadOrBuild key synthesize
      change fun c => { c with loaded := c.loaded.insert key kernel }
      return kernel

/-- The kernel of a request. -/
def obtainSpec (spec : SortSpec) (strategy : Strategy) (batchSize : Nat) : Step LoadedKernel :=
  obtain (.ofSpec spec batchSize) (Source.ofSpec spec strategy batchSize)

/-- A signature has an artifact. -/
def contains (c : KernelCache) (v : Volume) (signature : Signature) : Bool :=
  c.store.contains v signature.key

/-- Forgets a signature: first the kernel that the cache remembers, then, under the lock, the
artifact. -/
def evict (signature : Signature) : Step Unit := do
  let key := signature.key
  change fun c => { c with loaded := c.loaded.erase key }
  underLock key (onStore (·.evict key))

/-- The signatures that have an artifact. -/
def artifacts (c : KernelCache) (v : Volume) : Except CacheError (List String) := c.store.list v

/-! ### How a cache is shown -/

/-- A span of time, in the largest unit that has a whole part. -/
def duration (milliseconds : UInt64) : String :=
  let n := milliseconds.toNat
  if 1000 ≤ n then
    let places := (Text.decimalDigits (1000 + n % 1000)).tail
    let kept := (places.reverse.dropWhile (· = '0')).reverse
    Text.decimal (n / 1000) ++ (if kept = [] then "" else "." ++ String.ofList kept) ++ "s"
  else if 0 < n then Text.decimal n ++ "ms"
  else "0ns"

/-- How a cache is shown. -/
def describe (c : KernelCache) : String :=
  let limit := match c.lockTimeout with
    | some n => "Some(" ++ duration n ++ ")"
    | none => "None"
  "KernelCache \x7b root: " ++ Text.quoted c.store.root.text ++ ", toolchain: " ++
    Text.quoted c.toolchain.name ++ ", lock_timeout: " ++ limit ++ " \x7d"

/-- How a lock that is held is shown. -/
def describeLock (p : Path) : String :=
  "SignatureLockGuard \x7b path: " ++ Text.quoted p.text ++ ", held: true \x7d"

end KernelCache

end Collate
