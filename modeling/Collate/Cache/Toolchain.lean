import Collate.Cache.Error

/-!
# Toolchains

A toolchain turns the source of a kernel into an artifact, or refuses it.  The standard one reads
the source strictly and encodes the template that it finds there.
-/

namespace Collate

/-- A compiler of kernels; it is given the signature and the source. -/
structure Toolchain where
  name : String
  compile : (signature source : String) → Except CacheError (List UInt8)

namespace Toolchain

/-- Reads a source and encodes its template. -/
def standard : Toolchain where
  name := "template"
  compile signature source :=
    match Template.ofSource source with
    | .ok t => .ok (Artifact.encode t)
    | .error e => .error (.compile signature (.source e))

end Toolchain

end Collate
