import Collate.Artifact
import Collate.Config
import Collate.Storage.Action
import Collate.Template.Source

/-!
# Errors of the kernel cache

Why a kernel cannot be taken from a cache: the volume, a lock, the request, the compiler, or an
artifact that does not open.
-/

namespace Collate

/-- Why a compiler gives no artifact. -/
inductive CompileFailure
  /-- the source is no template that can be used -/
  | source (e : SourceError)
  /-- the toolchain answered with no bytes -/
  | noOutput (toolchain : String)
  /-- the toolchain refused, for a reason of its own -/
  | refused (reason : String)
  deriving DecidableEq, Repr

/-- The wording of a failure. -/
def CompileFailure.message : CompileFailure → String
  | source e => e.message
  | noOutput toolchain => s!"toolchain '{toolchain}' produced no output"
  | refused reason => reason

/-- Why a committed artifact gives no kernel. -/
inductive LoadFailure
  | artifact (e : ArtifactError)
  | missing
  deriving DecidableEq, Repr

/-- The wording of a failure. -/
def LoadFailure.message : LoadFailure → String
  | artifact e => e.message
  | missing => "artifact missing right after commit"

/-- Why a cache gives no answer. -/
inductive CacheError
  | io (path : Path) (e : IoError)
  /-- the lock was still held after the limit, in milliseconds -/
  | lockTimeout (path : Path) (limit : UInt64)
  /-- the lock is held, and there is no limit on waiting for it -/
  | lockHeld (path : Path)
  | synthesis (e : SourceError)
  | compile (signature : String) (e : CompileFailure)
  | load (signature : String) (e : LoadFailure)
  | config (e : ConfigError)
  deriving DecidableEq, Repr

/-- The wording of an error. -/
def CacheError.message : CacheError → String
  | io path e => s!"cache I/O error at {path.text}: {e.message}"
  | lockTimeout path limit =>
    s!"timed out after {limit} ms waiting for kernel lock {path.text}"
  | lockHeld path => s!"waiting for kernel lock {path.text}"
  | synthesis e => "kernel synthesis failed: " ++ e.message
  | compile signature e => s!"kernel compile failed for {signature}: {e.message}"
  | load signature e => s!"kernel load failed for {signature}: {e.message}"
  | config e => "invalid cache configuration: " ++ e.message

end Collate
