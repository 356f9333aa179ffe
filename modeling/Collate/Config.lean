import Collate.Json.Record
import Collate.Json.Value
import Collate.Text.Blank

/-!
# Settings

The settings of a kernel cache and a sort context: their defaults, the variables of an environment
that override them, and the JSON document that holds them.  `Config.validate` says which settings
can be used.
-/

namespace Collate

-- Powers are those of the core library, whatever else is in scope; for this the type of an exponent
-- is written out.
attribute [local instance (2000)] instPowUInt64Nat

/-- Settings of a kernel cache and a sort context. -/
structure Config where
  /-- the directory of compiled kernels -/
  cacheDir : String := "/tmp/colsort-kernels"
  /-- the rows of an output batch -/
  batchSize : UInt64 := 4096
  /-- the cap on the bytes of sort buffers -/
  memCapBytes : UInt64 := 1024 * 1024 * 1024
  /-- the wait between attempts to take a lock, in milliseconds -/
  lockPollMs : UInt64 := 10
  /-- when to give up on a lock, in milliseconds; never where there is none -/
  lockTimeoutMs : Option UInt64 := none
  deriving DecidableEq, Repr

/-- Why settings are refused. -/
inductive ConfigError
  | zeroBatchSize
  /-- rows of an output batch have addresses of 32 bits -/
  | batchSizeRange (batchSize : UInt64)
  | emptyCacheDir
  /-- the document is not one of settings -/
  | document (e : Json.ReadError)
  deriving DecidableEq, Repr

namespace ConfigError

/-- What is wrong, without the heading. -/
def reason : ConfigError → String
  | zeroBatchSize => "batch_size must be greater than zero"
  | batchSizeRange n => s!"batch_size {n} exceeds the addressable row range"
  | emptyCacheDir => "cache_dir must not be empty"
  | document e => e.message

/-- The wording of a refusal. -/
def message (e : ConfigError) : String := "Invalid configuration: " ++ e.reason

end ConfigError

namespace Config

/-- Refuses settings that cannot be used. -/
def validate (c : Config) : Except ConfigError Unit :=
  if c.batchSize = 0 then .error .zeroBatchSize
  else if 2 ^ (32 : Nat) ≤ c.batchSize then .error (.batchSizeRange c.batchSize)
  else if c.cacheDir = "" then .error .emptyCacheDir
  else .ok ()

/-- The wait between attempts to take a lock: a millisecond at least. -/
def lockPoll (c : Config) : UInt64 := max c.lockPollMs 1

/-- The settings with another limit on waiting for locks.  Milliseconds beyond 64 bits are cut
off. -/
def withLockTimeout (c : Config) (milliseconds : Option Nat) : Config :=
  { c with lockTimeoutMs := milliseconds.map UInt64.ofNat }

/-! ### Environment -/

/-- The setting of a variable, or the old value where it is missing or no number. -/
def override (old : UInt64) (value : Option String) : UInt64 :=
  (value.bind Text.word?).getD old

/-- The settings that an environment asks for, which are the defaults where it does not. -/
def ofEnvironment (lookup : String → Option String) : Config :=
  let default : Config := {}
  { cacheDir :=
      match lookup "COLSORT_CACHE_DIR" with
      | some dir => if Text.isBlank dir then default.cacheDir else dir
      | none => default.cacheDir
    batchSize := override default.batchSize (lookup "COLSORT_BATCH_SIZE")
    memCapBytes := override default.memCapBytes (lookup "COLSORT_MEM_CAP_BYTES")
    lockPollMs := override default.lockPollMs (lookup "COLSORT_LOCK_POLL_MS")
    lockTimeoutMs := (lookup "COLSORT_LOCK_TIMEOUT_MS").bind Text.word? }

/-! ### Document -/

/-- The document that holds the settings. -/
def json (c : Config) : Json :=
  .object [
    ("cache_dir", .string c.cacheDir),
    ("batch_size", .ofNat c.batchSize.toNat),
    ("mem_cap_bytes", .ofNat c.memCapBytes.toNat),
    ("lock_poll_ms", .ofNat c.lockPollMs.toNat),
    ("lock_timeout_ms", match c.lockTimeoutMs with
      | some n => .ofNat n.toNat
      | none => .null)]

/-- Settings of which some members have been read. -/
structure Draft where
  cacheDir : Option String := none
  batchSize : Option Nat := none
  memCapBytes : Option Nat := none
  lockPollMs : Option Nat := none
  lockTimeoutMs : Option (Option Nat) := none

namespace Draft
open Json.Reader

/-- The settings that a draft holds; the limit on waiting may be missing. -/
def finish (d : Draft) : Except Json.ReadError Config := do
  let cacheDir ← required "cache_dir" d.cacheDir
  let batchSize ← required "batch_size" d.batchSize
  let memCapBytes ← required "mem_cap_bytes" d.memCapBytes
  let lockPollMs ← required "lock_poll_ms" d.lockPollMs
  return {
    cacheDir := cacheDir
    batchSize := .ofNat batchSize
    memCapBytes := .ofNat memCapBytes
    lockPollMs := .ofNat lockPollMs
    lockTimeoutMs := d.lockTimeoutMs.join.map .ofNat }

/-- The members of the document. -/
def shape : Shape Draft Config where
  members := [
    member "cache_dir" cacheDir (fun a d => { d with cacheDir := a }) (text "path string"),
    member "batch_size" batchSize (fun a d => { d with batchSize := a }) size,
    member "mem_cap_bytes" memCapBytes (fun a d => { d with memCapBytes := a }) size,
    member "lock_poll_ms" lockPollMs (fun a d => { d with lockPollMs := a }) (natural "u64" 64),
    member "lock_timeout_ms" lockTimeoutMs (fun a d => { d with lockTimeoutMs := a })
      (optional (natural "u64" 64))]
  start := {}
  finish := finish

end Draft

/-- Reads settings. -/
def reader : Json.Reader Config :=
  Json.Reader.record Json.maxDepth "struct SortConfig" fun _ => Draft.shape

/-- The settings in a document, which must be usable. -/
def ofText (s : String) : Except ConfigError Config :=
  match reader.run (Text.bytes s) with
  | .error e => .error (.document e)
  | .ok c =>
    match c.validate with
    | .ok () => .ok c
    | .error e => .error e

end Config

end Collate
