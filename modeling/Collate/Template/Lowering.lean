import Collate.Template.Basic

/-!
# Templates of sort requests

`Template.ofSpec` lowers a request, whose keys have been found, into the template of an engine.
-/

namespace Collate

namespace Strategy

/-- The engine for a request: in place where the only column is the key and holds numbers. -/
def select (spec : SortSpec) : Strategy :=
  if spec.isSingleColumn && (spec.column spec.firstKey).type.supportsInPlace then inPlace
  else indexed

end Strategy

/-- Compares the keys one after the other in one direction. -/
def CompareChain.ofKeys (firstKey : Nat) (otherKeys : List Nat) (direction : Direction) :
    CompareChain :=
  ⟨⟨firstKey, direction⟩, otherKeys.map fun k => ⟨k, direction⟩⟩

/-- Sorts by digits where the only key has a fixed width and runs upwards. -/
def SortCall.ofSpec (spec : SortSpec) : SortCall :=
  if spec.otherKeys.isEmpty && spec.direction = .ascending &&
      (spec.column spec.firstKey).type.isFixedWidth then
    .radix spec.firstKey
  else .comparison

namespace Template

/-- The template of a request, before it is checked. -/
def lower (spec : SortSpec) (strategy : Strategy) (batchSize : Nat) : Template where
  revision := currentRevision
  strategy := strategy
  policy := ⟨spec.nullOrder, spec.direction⟩
  batchSize := batchSize
  fields := spec.columns.mapIdx fun slot c => .ofColumn slot c.name c.type
  keys := spec.keySlots
  partitionSlot := spec.firstKey
  comparator := .ofKeys spec.firstKey (spec.otherKeys.map Fin.val) spec.direction
  placement := .ofNullOrder spec.nullOrder
  sortCall := .ofSpec spec

/-- The template of a request for an engine, if the engine can sort it. -/
def ofSpec (spec : SortSpec) (strategy : Strategy) (batchSize : Nat) :
    Except TemplateError Template := do
  let t := lower spec strategy batchSize
  t.validate
  return t

end Template

end Collate
