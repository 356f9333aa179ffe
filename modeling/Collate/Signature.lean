import Collate.Blake3
import Collate.Bytes.Hex
import Collate.SortSpec
import Collate.Text.Bytes

/-!
# Signatures

The fingerprint of a sort request: a canonical text of everything that the plan for it depends on,
and the BLAKE3 hash of that text, under whose hexadecimal spelling the compiled plan is kept.
Whether a column may hold nulls is left out, because no plan depends on it.
-/

namespace Collate

/-- The fingerprint of a sort request. -/
structure Signature where
  /-- the canonical text -/
  canonical : String
  deriving DecidableEq, Repr

namespace Signature

/-- A name with the canonical spelling of its type. -/
def describe (c : OutputColumn) : String := c.name ++ ": " ++ c.type.canonical

/-- The keys, each with its place in the order of priority. -/
def keyTexts (spec : SortSpec) : List String :=
  spec.keys.mapIdx fun i key => s!"[sort_key_{i}]" ++ describe (spec.column key)

/-- The canonical text of a request with output batches of `batchSize` rows. -/
def canonicalText (spec : SortSpec) (batchSize : Nat) : String :=
  s!"[Sorter]{spec.nullOrder.label}|{spec.direction.label}[batch_size]{batchSize}" ++
    String.join (keyTexts spec) ++
    "[schema]" ++ ", ".intercalate (spec.columns.map describe)

/-- The signature of a request with output batches of `batchSize` rows. -/
def ofSpec (spec : SortSpec) (batchSize : Nat) : Signature := ⟨canonicalText spec batchSize⟩

/-- The hash of the canonical text. -/
def hash (s : Signature) : List UInt8 := Blake3.hash (Text.bytes s.canonical)

/-- The key under which the plan for the request is kept. -/
def key (s : Signature) : String := Hex.encode s.hash

instance : ToString Signature := ⟨key⟩

end Signature

end Collate
