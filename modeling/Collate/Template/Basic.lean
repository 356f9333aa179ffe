import Collate.Check
import Collate.SortSpec

/-!
# Templates

A template is the whole plan of a sort: the engine, the columns with their storage, the keys, the
comparison of rows, where the rows with a null key go, and how the others are sorted.
`Template.validate` checks the rules on which an engine relies.
-/

namespace Collate

/-- The engine of a sort. -/
inductive Strategy
  /-- sorts the addresses of rows -/
  | indexed
  /-- sorts the values of the only column -/
  | inPlace
  deriving DecidableEq, Repr

namespace Strategy

/-- The name of the engine. -/
def name : Strategy → String
  | indexed => "indexed"
  | inPlace => "in_place"

end Strategy

/-- Where the nulls go and which way the values run. -/
structure Policy where
  nullOrder : NullOrder
  direction : Direction
  deriving DecidableEq, Repr

/-- A column of a sort: its position, its type, and what buffers and builds it. -/
structure FieldSlot where
  slot : Nat
  name : String
  type : ColumnType
  storage : String
  builder : String
  deriving DecidableEq, Repr

/-- The column at a position, with the storage and builder of its type. -/
def FieldSlot.ofColumn (slot : Nat) (name : String) (type : ColumnType) : FieldSlot :=
  ⟨slot, name, type, type.storage, type.builder⟩

/-- A comparison of the values of one column. -/
structure CompareLink where
  slot : Nat
  direction : Direction
  deriving DecidableEq, Repr

/-- Comparisons, each of which decides where all before it find equal values. -/
structure CompareChain where
  first : CompareLink
  rest : List CompareLink
  deriving DecidableEq, Repr

namespace CompareChain

/-- The comparisons in order. -/
def links (c : CompareChain) : List CompareLink := c.first :: c.rest

/-- The columns that are compared, in order. -/
def slots (c : CompareChain) : List Nat := c.links.map (·.slot)

end CompareChain

/-- Where a run of rows starts in a sorted buffer. -/
inductive Region
  | front
  /-- behind the rows with a null key -/
  | afterNulls
  /-- so that the rows with a null key end the buffer -/
  | tail
  deriving DecidableEq, Repr

namespace Region

/-- The start of a region among `total` rows, of which `nulls` have a null key. -/
def offset (r : Region) (total nulls : Nat) : Nat :=
  match r with
  | front => 0
  | afterNulls => nulls
  | tail => total - nulls

end Region

/-- A run of positions. -/
structure Range where
  start : Nat
  stop : Nat
  deriving DecidableEq, Repr

/-- Where the rows with a value go and where those with a null key go. -/
structure Placement where
  valid : Region
  null : Region
  deriving DecidableEq, Repr

namespace Placement

/-- The placement for a null order. -/
def ofNullOrder : NullOrder → Placement
  | .first => ⟨.afterNulls, .front⟩
  | .last => ⟨.front, .tail⟩

/-- The positions of the rows with a value. -/
def validRange (p : Placement) (total nulls : Nat) : Range :=
  ⟨p.valid.offset total nulls, p.valid.offset total nulls + (total - nulls)⟩

/-- The positions of the rows with a null key. -/
def nullRange (p : Placement) (total nulls : Nat) : Range :=
  ⟨p.null.offset total nulls, p.null.offset total nulls + nulls⟩

end Placement

/-- How the rows with a value are sorted. -/
inductive SortCall
  /-- by the digits of one key of fixed width -/
  | radix (slot : Nat)
  /-- by comparing rows -/
  | comparison
  deriving DecidableEq, Repr

/-- The plan of a sort. -/
structure Template where
  revision : UInt32
  strategy : Strategy
  policy : Policy
  /-- the rows of an output batch -/
  batchSize : Nat
  fields : List FieldSlot
  /-- the positions of the keys, in order of priority -/
  keys : List Nat
  /-- the column whose nulls are set apart -/
  partitionSlot : Nat
  comparator : CompareChain
  placement : Placement
  sortCall : SortCall
  deriving DecidableEq, Repr

/-- The rule that a template breaks. -/
inductive TemplateError
  | revision (found : UInt32)
  | zeroBatchSize
  | noFields
  | fieldSlot (name : String) (slot position : Nat)
  | fieldParts (name : String) (type : ColumnType)
  | noKeys
  | keyRange (slot : Nat)
  | partition
  | comparatorSlots
  | comparatorDirection
  | placement
  | radixKeys
  | radixDirection
  | radixType (name : String) (type : ColumnType)
  | inPlaceShape
  | inPlaceType (type : ColumnType)
  deriving DecidableEq, Repr

namespace Template

/-- The revision of the meaning of templates. -/
def currentRevision : UInt32 := 1

/-- The types of the columns. -/
def columnTypes (t : Template) : List ColumnType := t.fields.map (·.type)

end Template

namespace TemplateError

/-- What is wrong, without the heading. -/
def reason : TemplateError → String
  | revision found =>
    s!"generator revision {found} does not match {Template.currentRevision}"
  | zeroBatchSize => "batch_size must be greater than zero"
  | noFields => "kernel has no fields"
  | fieldSlot name slot position => s!"field '{name}' has slot {slot} at position {position}"
  | fieldParts name type => s!"field '{name}' storage/builder do not match its type {type}"
  | noKeys => "kernel has no keys"
  | keyRange slot => s!"key slot {slot} is out of range"
  | partition => "null partition must use the first key"
  | comparatorSlots => "comparator chain does not follow the key order"
  | comparatorDirection => "comparator direction disagrees with the kernel policy"
  | placement => "placement disagrees with the null order"
  | radixKeys => "radix sort needs exactly one key"
  | radixDirection => "radix sort only produces ascending order"
  | radixType name type => s!"radix sort needs a fixed-width key, '{name}' is {type}"
  | inPlaceShape => "in-place kernels sort exactly one column by itself"
  | inPlaceType type => s!"in-place kernels need a primitive column, got {type}"

/-- The wording of a refusal. -/
def message (e : TemplateError) : String := "invalid kernel template: " ++ e.reason

end TemplateError

namespace Template

/-- Every column has its position, and the storage and builder of its type; `position` is that of
the first one. -/
def checkFields : (position : Nat) → List FieldSlot → Except TemplateError Unit
  | _, [] => .ok ()
  | position, f :: fs => do
    check (f.slot = position) (.fieldSlot f.name f.slot position)
    check (f.storage = f.type.storage ∧ f.builder = f.type.builder) (.fieldParts f.name f.type)
    checkFields (position + 1) fs

/-- All keys are columns. -/
def checkKeys (count : Nat) (keys : List Nat) : Except TemplateError Unit :=
  match keys.find? (count ≤ ·) with
  | some k => .error (.keyRange k)
  | none => .ok ()

/-- A radix sort has one key, which is of fixed width, and ascending order. -/
def checkSortCall (t : Template) : Except TemplateError Unit :=
  match t.sortCall with
  | .comparison => .ok ()
  | .radix slot => do
    check (t.keys = [slot]) .radixKeys
    check (t.policy.direction = .ascending) .radixDirection
    match t.fields[slot]? with
    | some f => check f.type.isFixedWidth (.radixType f.name f.type)
    | none => .error (.keyRange slot)

/-- A sort in place has one column, which is the key and has numbers. -/
def checkStrategy (t : Template) : Except TemplateError Unit :=
  match t.strategy with
  | .indexed => .ok ()
  | .inPlace =>
    match t.fields, t.keys with
    | [f], [0] => check f.type.supportsInPlace (.inPlaceType f.type)
    | _, _ => .error .inPlaceShape

/-- Refuses a template that breaks a rule. -/
def validate (t : Template) : Except TemplateError Unit := do
  check (t.revision = currentRevision) (.revision t.revision)
  check (t.batchSize ≠ 0) .zeroBatchSize
  check (t.fields ≠ []) .noFields
  checkFields 0 t.fields
  check (t.keys ≠ []) .noKeys
  checkKeys t.fields.length t.keys
  check (t.keys.head? = some t.partitionSlot) .partition
  check (t.comparator.slots = t.keys) .comparatorSlots
  check (∀ link ∈ t.comparator.links, link.direction = t.policy.direction) .comparatorDirection
  check (t.placement = .ofNullOrder t.policy.nullOrder) .placement
  t.checkSortCall
  t.checkStrategy

end Template

end Collate
