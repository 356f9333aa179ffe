import Collate.Budget
import Collate.Cache.Error

/-!
# Errors of sort kernels

Why a kernel cannot be made, fed, finished or read.  A fault is an access outside a buffer or a
list; no kernel of a template that obeys the rules comes to one.
-/

namespace Collate

/-- A rule that the caller of a kernel broke. -/
inductive Misuse
  | batchSizeRange (batchSize : Nat)
  /-- the kernel in the cache is for another engine -/
  | cachedEngine (signature : String) (found expected : Strategy)
  | engine (signature : String) (found : Strategy)
  | policy (signature : String)
  | engineType (signature : String) (type : ColumnType) (engine : DataType)
  | noInPlaceEngine (type : ColumnType)
  | columnCount (expected found : Nat)
  | columnType (name : String) (expected found : DataType)
  | columnLength (name : String) (found expected : Nat)
  | batchRange (rows : Nat)
  | batchCount
  | bufferType (expected found : DataType)
  | schemaCount (found expected : Nat)
  | schemaType (name : String) (found expected : DataType)
  /-- the kernel has been finalized -/
  | finalized
  /-- the kernel came to a fault when it was finalized -/
  | failed
  deriving DecidableEq, Repr

/-- The wording of a broken rule. -/
def Misuse.message : Misuse → String
  | batchSizeRange n => s!"batch_size {n} is out of range"
  | cachedEngine signature found expected =>
    s!"cached kernel {signature} uses the {found.name} engine, expected {expected.name}"
  | engine signature found => s!"kernel {signature} was built for the {found.name} engine"
  | policy signature => s!"kernel {signature} policy does not match this instantiation"
  | engineType signature type expected => s!"kernel {signature} sorts {type}, not {expected}"
  | noInPlaceEngine type => s!"no in-place engine for {type} columns"
  | columnCount expected found => s!"expected {expected} columns, got {found}"
  | columnType name expected found => s!"column '{name}' should be {expected}, got {found}"
  | columnLength name found expected =>
    s!"column '{name}' has {found} rows, expected {expected}"
  | batchRange rows => s!"batch of {rows} rows exceeds the addressable row range"
  | batchCount => "too many input batches"
  | bufferType expected found => s!"expected a {expected} column, got {found}"
  | schemaCount found expected =>
    s!"result schema has {found} fields, kernel produces {expected}"
  | schemaType name found expected =>
    s!"result field '{name}' is {found}, kernel produces {expected}"
  | finalized => "evaluate called after the kernel was finalized"
  | failed => "kernel failed during an earlier finalize"

/-- Why columns do not make a batch of a schema. -/
inductive BatchError
  | columnCount (columns fields : Nat)
  | noColumns
  | nulls (name : String)
  | ragged
  /-- a column has more bytes than its offsets count -/
  | overflow
  deriving DecidableEq, Repr

/-- The wording of a refusal. -/
def BatchError.message : BatchError → String
  | columnCount columns fields =>
    s!"number of columns({columns}) must match number of fields({fields}) in schema"
  | noColumns => "must either specify a row count or at least one column"
  | nulls name => s!"Column '{name}' is declared as non-nullable but contains null values"
  | ragged => "all columns in a record batch must have the same length"
  | overflow => "byte array offset overflow"

/-- Why a kernel gives no answer. -/
inductive KernelError
  | spec (e : SpecError)
  | cache (e : CacheError)
  | batch (e : BatchError)
  | budget (e : BudgetError)
  | misuse (e : Misuse)
  /-- all rows have been read -/
  | exhausted (total : Nat)
  /-- an access outside a buffer or a list -/
  | fault
  /-- there is no kernel or cursor of that number -/
  | absent
  deriving DecidableEq, Repr

/-- The wording of an error. -/
def KernelError.message : KernelError → String
  | spec e => "spec error: " ++ e.message
  | cache e => e.message
  | batch .overflow => BatchError.overflow.message
  | batch e => "arrow error: Invalid argument error: " ++ e.message
  | budget e => e.message
  | misuse e => "precondition failed: " ++ e.message
  | exhausted total => s!"result iterator exhausted after {total} rows"
  | fault => "index out of range"
  | absent => "no such kernel or cursor"

end Collate
