import Collate.Json.Record
import Collate.Json.Value
import Collate.Template.Basic

/-!
# Templates as JSON

How each part of a template is written as a JSON value, and the readers that take the parts from a
text.  Every part that has no parameters is written by its name.
-/

namespace Collate

-- Powers are those of the core library, whatever else is in scope; for this the type of an exponent
-- is written out.
attribute [local instance (2000)] instPowNat

open Json.Reader

/-! ### Choices without parameters -/

/-- The written name of a null order. -/
def NullOrder.tag : NullOrder → String
  | first => "First"
  | last => "Last"

/-- The written name of a direction. -/
def Direction.tag : Direction → String
  | ascending => "Ascending"
  | descending => "Descending"

/-- The written name of an engine. -/
def Strategy.tag : Strategy → String
  | indexed => "Indexed"
  | inPlace => "InPlace"

/-- The written name of a region. -/
def Region.tag : Region → String
  | front => "Front"
  | afterNulls => "AfterNulls"
  | tail => "Tail"

/-- Reads one of several choices, each under its name. -/
def choice {α : Type} (tag : α → String) (choices : List α) (depth : Nat) : Json.Reader α :=
  variant depth (choices.map fun a => unitVariant (tag a) a)

/-- Reads a null order. -/
def NullOrder.reader : (depth : Nat) → Json.Reader NullOrder := choice tag [first, last]

/-- Reads a direction. -/
def Direction.reader : (depth : Nat) → Json.Reader Direction := choice tag [ascending, descending]

/-- Reads an engine. -/
def Strategy.reader : (depth : Nat) → Json.Reader Strategy := choice tag [indexed, inPlace]

/-- Reads a region. -/
def Region.reader : (depth : Nat) → Json.Reader Region := choice tag [front, afterNulls, tail]

/-! ### Column types -/

namespace ColumnType

/-- The JSON form of a column type. -/
def json (t : ColumnType) : Json :=
  match t with
  | decimal128 precision scale =>
    .object [(t.name, .object [
      ("precision", .ofNat precision.toNat),
      ("scale", .number scale.toInt)])]
  | _ => .string t.name

/-- Parameters of a decimal type of which some have been read. -/
structure DecimalDraft where
  precision : Option Nat := none
  scale : Option Int := none

/-- The members of a decimal type. -/
def DecimalDraft.shape : Shape DecimalDraft ColumnType where
  members := [
    member "precision" precision (fun a d => { d with precision := a }) (natural "u8" 8),
    member "scale" scale (fun a d => { d with scale := a })
      (integer "i8" (-2 ^ (7 : Nat)) (2 ^ (7 : Nat)))]
  start := {}
  finish d := do
    let precision ← required "precision" d.precision
    let scale ← required "scale" d.scale
    return decimal128 (.ofNat precision) (.ofInt scale)

/-- The variants of a column type, in declared order. -/
def variants : List (Variant ColumnType) :=
  let plain (t : ColumnType) := unitVariant t.name t
  let decimal := recordVariant "Decimal128" fun depth =>
    record depth "struct variant ColumnType::Decimal128" fun _ => DecimalDraft.shape
  [boolean, int8, int16, int32, int64, uint8, uint16, uint32, uint64, float32, float64, date32,
    date64].map plain ++ [decimal] ++ [utf8, largeUtf8, binary].map plain

/-- Reads a column type. -/
def reader (depth : Nat) : Json.Reader ColumnType := variant depth variants

end ColumnType

/-! ### Records -/

namespace Policy

/-- The JSON form of a policy. -/
def json (p : Policy) : Json :=
  .object [("null_order", .string p.nullOrder.tag), ("direction", .string p.direction.tag)]

/-- A policy of which some members have been read. -/
structure Draft where
  nullOrder : Option NullOrder := none
  direction : Option Direction := none

/-- The members of a policy. -/
def Draft.shape (depth : Nat) : Shape Draft Policy where
  members := [
    member "null_order" nullOrder (fun a d => { d with nullOrder := a }) (NullOrder.reader depth),
    member "direction" direction (fun a d => { d with direction := a }) (Direction.reader depth)]
  start := {}
  finish d := do
    let nullOrder ← required "null_order" d.nullOrder
    let direction ← required "direction" d.direction
    return ⟨nullOrder, direction⟩

/-- Reads a policy. -/
def reader (depth : Nat) : Json.Reader Policy := record depth "struct KernelPolicy" Draft.shape

end Policy

namespace FieldSlot

/-- The JSON form of a column. -/
def json (f : FieldSlot) : Json :=
  .object [
    ("slot", .ofNat f.slot),
    ("name", .string f.name),
    ("column_type", f.type.json),
    ("storage", .string f.storage),
    ("builder", .string f.builder)]

/-- A column of which some members have been read. -/
structure Draft where
  slot : Option Nat := none
  name : Option String := none
  type : Option ColumnType := none
  storage : Option String := none
  builder : Option String := none

/-- The members of a column. -/
def Draft.shape (depth : Nat) : Shape Draft FieldSlot where
  members := [
    member "slot" slot (fun a d => { d with slot := a }) size,
    member "name" name (fun a d => { d with name := a }) (text "a string"),
    member "column_type" type (fun a d => { d with type := a }) (ColumnType.reader depth),
    member "storage" storage (fun a d => { d with storage := a }) (text "a string"),
    member "builder" builder (fun a d => { d with builder := a }) (text "a string")]
  start := {}
  finish d := do
    let slot ← required "slot" d.slot
    let name ← required "name" d.name
    let type ← required "column_type" d.type
    let storage ← required "storage" d.storage
    let builder ← required "builder" d.builder
    return ⟨slot, name, type, storage, builder⟩

/-- Reads a column. -/
def reader (depth : Nat) : Json.Reader FieldSlot := record depth "struct FieldSlot" Draft.shape

end FieldSlot

namespace CompareChain

/-- The JSON form of a comparison with those that break its ties. -/
def linksJson (link : CompareLink) : List CompareLink → Json
  | [] => .object [
    ("slot", .ofNat link.slot),
    ("direction", .string link.direction.tag),
    ("tie_break", .null)]
  | next :: rest => .object [
    ("slot", .ofNat link.slot),
    ("direction", .string link.direction.tag),
    ("tie_break", linksJson next rest)]

/-- The JSON form of a chain: every link holds the one that breaks its ties. -/
def json (c : CompareChain) : Json := linksJson c.first c.rest

/-- A chain of which some members of the first link have been read. -/
structure Draft where
  slot : Option Nat := none
  direction : Option Direction := none
  tieBreak : Option (Option CompareChain) := none

/-- The members of a link, `tieBreak` being the reader of the link that breaks its ties. -/
def Draft.shape (depth : Nat) (tieBreak : Json.Reader CompareChain) : Shape Draft CompareChain where
  members := [
    member "slot" slot (fun a d => { d with slot := a }) size,
    member "direction" direction (fun a d => { d with direction := a }) (Direction.reader depth),
    member "tie_break" Draft.tieBreak (fun a d => { d with tieBreak := a }) (optional tieBreak)]
  start := {}
  finish d := do
    let slot ← required "slot" d.slot
    let direction ← required "direction" d.direction
    return ⟨⟨slot, direction⟩, (d.tieBreak.join.map links).getD []⟩

/-- Reads a chain, every link one level further in than the one before. -/
def reader : (depth : Nat) → Json.Reader CompareChain
  | 0 => noRecord "struct CompareStep"
  | depth + 1 => recordOf "struct CompareStep" (Draft.shape depth (reader depth))

end CompareChain

namespace Placement

/-- The JSON form of a placement. -/
def json (p : Placement) : Json :=
  .object [("valid", .string p.valid.tag), ("null", .string p.null.tag)]

/-- A placement of which some members have been read. -/
structure Draft where
  valid : Option Region := none
  null : Option Region := none

/-- The members of a placement. -/
def Draft.shape (depth : Nat) : Shape Draft Placement where
  members := [
    member "valid" valid (fun a d => { d with valid := a }) (Region.reader depth),
    member "null" null (fun a d => { d with null := a }) (Region.reader depth)]
  start := {}
  finish d := do
    let valid ← required "valid" d.valid
    let null ← required "null" d.null
    return ⟨valid, null⟩

/-- Reads a placement. -/
def reader (depth : Nat) : Json.Reader Placement := record depth "struct Placement" Draft.shape

end Placement

namespace SortCall

/-- The JSON form of a sort call. -/
def json : SortCall → Json
  | radix slot => .object [("Radix", .object [("slot", .ofNat slot)])]
  | comparison => .string "Comparison"

/-- Reads the parameters of a radix sort. -/
def radixReader (depth : Nat) : Json.Reader SortCall :=
  record depth "struct variant SortCall::Radix" fun _ =>
    { members := [member "slot" id (fun a _ => a) size]
      start := none
      finish := fun slot => (required "slot" slot).map radix }

/-- Reads a sort call. -/
def reader (depth : Nat) : Json.Reader SortCall :=
  variant depth [recordVariant "Radix" radixReader, unitVariant "Comparison" comparison]

end SortCall

namespace Template

/-- The JSON form of a template. -/
def json (t : Template) : Json :=
  .object [
    ("revision", .ofNat t.revision.toNat),
    ("strategy", .string t.strategy.tag),
    ("policy", t.policy.json),
    ("batch_size", .ofNat t.batchSize),
    ("fields", .array (t.fields.map (·.json))),
    ("keys", .array (t.keys.map .ofNat)),
    ("partition_slot", .ofNat t.partitionSlot),
    ("comparator", t.comparator.json),
    ("placement", t.placement.json),
    ("sort_call", t.sortCall.json)]

/-- A template of which some members have been read. -/
structure Draft where
  revision : Option Nat := none
  strategy : Option Strategy := none
  policy : Option Policy := none
  batchSize : Option Nat := none
  fields : Option (List FieldSlot) := none
  keys : Option (List Nat) := none
  partitionSlot : Option Nat := none
  comparator : Option CompareChain := none
  placement : Option Placement := none
  sortCall : Option SortCall := none

/-- The members of a template. -/
def Draft.shape (depth : Nat) : Shape Draft Template where
  members := [
    member "revision" revision (fun a d => { d with revision := a }) (natural "u32" 32),
    member "strategy" strategy (fun a d => { d with strategy := a }) (Strategy.reader depth),
    member "policy" policy (fun a d => { d with policy := a }) (Policy.reader depth),
    member "batch_size" batchSize (fun a d => { d with batchSize := a }) size,
    member "fields" fields (fun a d => { d with fields := a }) (list depth FieldSlot.reader),
    member "keys" keys (fun a d => { d with keys := a }) (list depth fun _ => size),
    member "partition_slot" partitionSlot (fun a d => { d with partitionSlot := a }) size,
    member "comparator" comparator (fun a d => { d with comparator := a })
      (CompareChain.reader depth),
    member "placement" placement (fun a d => { d with placement := a }) (Placement.reader depth),
    member "sort_call" sortCall (fun a d => { d with sortCall := a }) (SortCall.reader depth)]
  start := {}
  finish d := do
    let revision ← required "revision" d.revision
    let strategy ← required "strategy" d.strategy
    let policy ← required "policy" d.policy
    let batchSize ← required "batch_size" d.batchSize
    let fields ← required "fields" d.fields
    let keys ← required "keys" d.keys
    let partitionSlot ← required "partition_slot" d.partitionSlot
    let comparator ← required "comparator" d.comparator
    let placement ← required "placement" d.placement
    let sortCall ← required "sort_call" d.sortCall
    return ⟨.ofNat revision, strategy, policy, batchSize, fields, keys, partitionSlot, comparator,
      placement, sortCall⟩

/-- Reads a template, which need not obey the rules. -/
def reader (depth : Nat) : Json.Reader Template :=
  record depth "struct KernelTemplate" Draft.shape

/-- The text of a template on one line. -/
def text (t : Template) : String := t.json.compact

/-- The template that bytes spell, which need not obey the rules. -/
def ofBytes (bs : List UInt8) : Except Json.ReadError Template :=
  (reader Json.maxDepth).run bs

end Template

end Collate
