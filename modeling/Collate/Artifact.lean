import Collate.Blake3
import Collate.Bytes.LittleEndian
import Collate.Template.Codec

/-!
# Artifacts

A sealed template: a header with the length of the body, the BLAKE3 hash of header and body, and
the body, which is the JSON text of the template.  `Artifact.encode` writes one; `Artifact.decode`
opens one after it has checked every part of it.
-/

namespace Collate.Artifact

/-- The number that artifacts start with. -/
def magic : UInt32 := 0x4B4E5343

/-- The format that is written and read. -/
def format : UInt16 := 1

/-- The bytes of a header. -/
def headerLength : Nat := 20

/-- The bytes before the body: the header and the hash. -/
def preambleLength : Nat := 52

/-- What an artifact starts with. -/
structure Header where
  magic : UInt32 := Artifact.magic
  format : UInt16 := Artifact.format
  revision : UInt32 := Template.currentRevision
  bodyLength : UInt64
  deriving DecidableEq, Repr

/-- Why a body is not a template that can be used. -/
inductive BodyError
  | parse (e : Json.ReadError)
  | template (e : TemplateError)
  deriving DecidableEq, Repr

/-- The wording of a refusal. -/
def BodyError.message : BodyError → String
  | parse e => e.message
  | template e => e.message

end Artifact

/-- Why bytes are not an artifact that can be used. -/
inductive ArtifactError
  | truncated (length : Nat)
  | badMagic (found : UInt32)
  | format (found : UInt16)
  | revision (found : UInt32)
  | length (declared : UInt64) (actual : Nat)
  | checksum
  | body (e : Artifact.BodyError)
  deriving DecidableEq, Repr

/-- The wording of a refusal. -/
def ArtifactError.message : ArtifactError → String
  | truncated n => s!"artifact truncated: {n} bytes"
  | badMagic found => "bad magic 0x" ++ String.ofList (Hex.digits 8 found.toNat)
  | format found => s!"unsupported artifact format {found}"
  | revision found =>
    s!"artifact built by generator revision {found}, expected {Template.currentRevision}"
  | length declared actual =>
    s!"body length {declared} does not match {actual} stored bytes"
  | checksum => "checksum mismatch"
  | body e => "malformed kernel body: " ++ e.message

namespace Artifact

namespace Header

/-- The header for a body; its length is kept in 64 bits. -/
def ofBody (body : List UInt8) : Header := { bodyLength := .ofNat body.length }

/-- The bytes of a header; two of them are reserved. -/
def bytes (h : Header) : List UInt8 :=
  LittleEndian.encode 4 h.magic.toNat ++ LittleEndian.encode 2 h.format.toNat ++ [0, 0] ++
    LittleEndian.encode 4 h.revision.toNat ++ LittleEndian.encode 8 h.bodyLength.toNat

/-- The number in `count` bytes from a position on. -/
def numberAt (bs : List UInt8) (start count : Nat) : Nat :=
  LittleEndian.decode ((bs.drop start).take count)

/-- The header at the front of bytes; magic and format must be the ones that are written. -/
def ofBytes (bs : List UInt8) : Except ArtifactError Header := do
  check (headerLength ≤ bs.length) (.truncated bs.length)
  let h : Header :=
    { magic := .ofNat (numberAt bs 0 4)
      format := .ofNat (numberAt bs 4 2)
      revision := .ofNat (numberAt bs 8 4)
      bodyLength := .ofNat (numberAt bs 12 8) }
  check (h.magic = Artifact.magic) (.badMagic h.magic)
  check (h.format = Artifact.format) (.format h.format)
  return h

end Header

/-- The hash of a header and a body. -/
def checksum (header body : List UInt8) : List UInt8 := Blake3.hash (header ++ body)

/-- A header, the hash and the body. -/
def frame (header : Header) (body : List UInt8) : List UInt8 :=
  header.bytes ++ checksum header.bytes body ++ body

/-- The artifact of a template. -/
def encode (t : Template) : List UInt8 :=
  let body := Text.bytes t.text
  frame (.ofBody body) body

/-- The template that a body spells, if it obeys the rules. -/
def templateOf (body : List UInt8) : Except BodyError Template :=
  match Template.ofBytes body with
  | .error e => .error (.parse e)
  | .ok t =>
    match t.validate with
    | .ok () => .ok t
    | .error e => .error (.template e)

/-- The template of an artifact. -/
def decode (bs : List UInt8) : Except ArtifactError Template := do
  check (preambleLength ≤ bs.length) (.truncated bs.length)
  let header ← Header.ofBytes (bs.take headerLength)
  let body := bs.drop preambleLength
  check (header.bodyLength = .ofNat body.length) (.length header.bodyLength body.length)
  check (checksum (bs.take headerLength) body = (bs.take preambleLength).drop headerLength)
    .checksum
  check (header.revision = Template.currentRevision) (.revision header.revision)
  match templateOf body with
  | .ok t => .ok t
  | .error e => .error (.body e)

end Collate.Artifact
