import Collate.Engine.Sorter

/-!
# Sort kernels

A kernel for a request: the engine is chosen, the kernel of the signature is taken from a cache, and
an engine is made from it.
-/

namespace Collate

-- Powers are those of the core library, whatever else is in scope; for this the type of an exponent
-- is written out.
attribute [local instance (2000)] instPowNat

/-- A kernel for a request. -/
structure SortKernel where
  strategy : Strategy
  signature : Signature
  loaded : LoadedKernel
  sorter : Sorter

namespace SortKernel

/-- The name of kernels. -/
def name : String := "SortArraysToIndicesKernel"

/-- The name of the cursors of kernels. -/
def cursorName : String := "SortArraysToIndicesResultIterator"

/-- The kernel of what a cache answered. -/
def ofLoaded (strategy : Strategy) (signature : Signature) (loaded : LoadedKernel) :
    Except KernelError SortKernel :=
  if loaded.template.strategy = strategy then
    (Sorter.ofKernel loaded).map fun sorter => ⟨strategy, signature, loaded, sorter⟩
  else
    .error (.misuse (.cachedEngine loaded.signature loaded.template.strategy strategy))

/-- The kernel for a request, taken from a cache. -/
def make (spec : SortSpec) (batchSize : Nat) (state : KernelCache × Volume) :
    Except KernelError SortKernel × (KernelCache × Volume) :=
  if 0 < batchSize ∧ batchSize < 2 ^ (32 : Nat) then
    let strategy := Strategy.select spec
    match KernelCache.obtainSpec spec strategy batchSize state with
    | (.ok loaded, state) => (ofLoaded strategy (.ofSpec spec batchSize) loaded, state)
    | (.error e, state) => (.error (.cache e), state)
  else (.error (.misuse (.batchSizeRange batchSize)), state)

/-- The kernel for keys and fields that are given as they are declared. -/
def ofFields (keys fields : List Field) (nullsFirst asc : Bool) (batchSize : Nat)
    (state : KernelCache × Volume) : Except KernelError SortKernel × (KernelCache × Volume) :=
  match SortSpec.ofFlags keys fields nullsFirst asc with
  | .ok spec => make spec batchSize state
  | .error e => (.error (.spec e), state)

/-- How a kernel is shown. -/
def describe (strategy : Strategy) (signature : Signature) (rows : Nat) : String :=
  "SortArraysKernel \x7b strategy: " ++ strategy.tag ++ ", signature: " ++
    Text.quoted signature.key ++ ", rows: " ++ toString rows ++ " \x7d"

end SortKernel

end Collate
