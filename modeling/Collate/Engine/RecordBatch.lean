import Collate.Engine.Error
import Collate.Row.Column
import Collate.Template.Basic

/-!
# Batches

Columns of one length under a schema, and the checks of what goes into a kernel and of what is
asked from it: the columns of an input batch, and the schema of the output.
-/

namespace Collate

-- Powers are those of the core library, whatever else is in scope; for this the type of an exponent
-- is written out.
attribute [local instance (2000)] instPowNat

/-- Columns under a schema. -/
structure RecordBatch where
  schema : List Field
  rows : Nat
  columns : List Column

namespace RecordBatch

/-- The first field that allows no nulls and has some. -/
def nullsIn? (schema : List Field) (columns : List Column) : Option String :=
  ((schema.zip columns).find? fun (f, c) => !f.nullable && 0 < c.nullCount).map (·.1.name)

/-- The batch of columns, which must fit the schema. -/
def make (schema : List Field) (columns : List Column) : Except BatchError RecordBatch :=
  if columns.length ≠ schema.length then .error (.columnCount columns.length schema.length)
  else
    match columns with
    | [] => .error .noColumns
    | first :: rest =>
      match nullsIn? schema columns with
      | some name => .error (.nulls name)
      | none =>
        if rest.all (·.length = first.length) then .ok ⟨schema, first.length, columns⟩
        else .error .ragged

end RecordBatch

namespace Template

/-- A column of an input batch has the type of its field, and as many rows as the first one. -/
def checkColumn (rows : Nat) (f : FieldSlot) (c : Column) : Except Misuse Unit := do
  check (c.type = .column f.type) (.columnType f.name (.column f.type) c.type)
  check (c.length = rows) (.columnLength f.name c.length rows)

/-- The rows of an input batch, whose columns must fit the template. -/
def checkColumns (t : Template) (columns : List Column) : Except KernelError Nat :=
  if columns.length ≠ t.fields.length then
    .error (.misuse (.columnCount t.fields.length columns.length))
  else
    match columns with
    | [] => .error .fault
    | first :: _ =>
      match (t.fields.zip columns).forM fun (f, c) => checkColumn first.length f c with
      | .error e => .error (.misuse e)
      | .ok () =>
        if first.length < 2 ^ (32 : Nat) then .ok first.length
        else .error (.misuse (.batchRange first.length))

/-- The schema of the output declares the types of the template; nullability is not looked at. -/
def checkSchema (t : Template) (schema : List Field) : Except Misuse Unit := do
  check (schema.length = t.fields.length) (.schemaCount schema.length t.fields.length)
  (t.fields.zip schema).forM fun (slot, f) =>
    check (f.type = .column slot.type) (.schemaType f.name f.type (.column slot.type))

end Template

end Collate
