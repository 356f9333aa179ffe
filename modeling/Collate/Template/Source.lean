import Collate.Template.Codec
import Collate.Template.Lowering

/-!
# Source documents

The source of a kernel is a document that names its generator and holds its template.  A source is
rendered from a template with `Template.source` and read back with `Template.ofSource`, which
refuses a document with other members and a template that breaks a rule; the name of the generator
is not checked.
-/

namespace Collate

/-- Why a kernel cannot be made from a request or from a source. -/
inductive SourceError
  | template (e : TemplateError)
  | parse (e : Json.ReadError)
  deriving DecidableEq, Repr

/-- The wording of a refusal. -/
def SourceError.message : SourceError → String
  | template e => e.message
  | parse e => "kernel source parse error: " ++ e.message

/-- A template with its rendered source. -/
structure Source where
  template : Template
  text : String
  deriving DecidableEq, Repr

namespace Source

/-- The name of the generator in documents. -/
def generator : String := "colsort-codegen 0.1.0"

/-- A document of which some members have been read. -/
structure Draft where
  generator : Option String := none
  kernel : Option Template := none

open Json.Reader in
/-- The members of a document; others are refused. -/
def Draft.shape (depth : Nat) : Shape Draft Template where
  members := [
    member "generator" generator (fun a d => { d with generator := a })
      (Json.Reader.text "a string"),
    member "kernel" kernel (fun a d => { d with kernel := a }) (Template.reader depth)]
  start := {}
  finish d := do
    let _ ← required "generator" d.generator
    required "kernel" d.kernel
  closed := true

/-- Reads the template of a document. -/
def reader : Json.Reader Template :=
  Json.Reader.record Json.maxDepth "struct SourceDocument" Draft.shape

end Source

namespace Template

/-- The source of a template. -/
def source (t : Template) : String :=
  (Json.object [("generator", .string Source.generator), ("kernel", t.json)]).pretty

/-- The template in a source. -/
def ofSource (text : String) : Except SourceError Template :=
  match Source.reader.run (Text.bytes text) with
  | .error e => .error (.parse e)
  | .ok t =>
    match t.validate with
    | .ok () => .ok t
    | .error e => .error (.template e)

end Template

/-- The source of a request for an engine, if the engine can sort it. -/
def Source.ofSpec (spec : SortSpec) (strategy : Strategy) (batchSize : Nat) :
    Except SourceError Source :=
  match Template.ofSpec spec strategy batchSize with
  | .ok t => .ok ⟨t, t.source⟩
  | .error e => .error (.template e)

end Collate
