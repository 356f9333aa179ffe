import Collate.Storage.Path
import Collate.Table
import Collate.Text.Bytes

/-!
# Volumes

A volume holds directories and files of bytes, each at its location, and the locks that are held on
files.  A path is followed from the top, step by step: all names on the way must be there, as
directories, and only the last may be missing.
-/

namespace Collate

/-- What is at a location. -/
inductive Node
  | directory
  | file (bytes : List UInt8)
  deriving DecidableEq, Repr

/-- The names that lead from the top to a file or a directory. -/
abbrev Location := Array String

/-- Why an action on a volume fails. -/
inductive IoError
  | notFound
  | alreadyExists
  | isADirectory
  | notADirectory
  /-- a name or a path is too long -/
  | invalidFilename
  /-- a path holds a NUL -/
  | invalidInput
  /-- a path ends in a dot, and so does not name what is to be removed -/
  | invalidArgument
  deriving DecidableEq, Repr

/-- The wording of a failure. -/
def IoError.message : IoError → String
  | notFound => "No such file or directory (os error 2)"
  | alreadyExists => "File exists (os error 17)"
  | isADirectory => "Is a directory (os error 21)"
  | notADirectory => "Not a directory (os error 20)"
  | invalidFilename => "File name too long (os error 36)"
  | invalidInput => "file name contained an unexpected NUL byte"
  | invalidArgument => "Invalid argument (os error 22)"

/-- Directories, files and locks. -/
structure Volume where
  nodes : Table Location Node := ∅
  /-- the locks that are held, each under its token -/
  locks : List (Nat × Location) := []
  /-- a number that no token and no temporary name has had -/
  fresh : Nat := 0

namespace Volume

/-- The longest name, in bytes. -/
def maxNameLength : Nat := 255

/-- The longest path, in bytes. -/
def maxPathLength : Nat := 4095

/-- A name that fits a directory. -/
def nameFits (name : String) : Bool := name.utf8ByteSize ≤ maxNameLength

/-- What is at a location; the top is a directory. -/
def node? (v : Volume) (l : Location) : Option Node :=
  if l = #[] then some .directory else v.nodes.get? l

/-- Follows steps from a location. -/
def follow (v : Volume) (l : Location) : List Step → Except IoError Location
  | [] => .ok l
  | step :: rest =>
    match v.node? l with
    | none => .error .notFound
    | some (.file _) => .error .notADirectory
    | some .directory =>
      match step with
      | .stay => v.follow l rest
      | .up => v.follow l.pop rest
      | .down name =>
        if nameFits name then v.follow (l.push name) rest else .error .invalidFilename

/-- The steps of a path that an action can use. -/
def usableSteps (p : Path) : Except IoError (List Step) :=
  if '\x00' ∈ p.text.toList then .error .invalidInput
  else if p.text = "" then .error .notFound
  else if maxPathLength < p.text.utf8ByteSize then .error .invalidFilename
  else .ok p.steps

/-- The location that a path leads to. -/
def locate (v : Volume) (p : Path) : Except IoError Location := do
  v.follow #[] (← usableSteps p)

/-- What a path leads to. -/
def find (v : Volume) (p : Path) : Except IoError (Option Node) := do
  return v.node? (← v.locate p)

/-- A path leads to a file. -/
def isFile (v : Volume) (p : Path) : Bool :=
  match v.find p with
  | .ok (some (.file _)) => true
  | _ => false

/-- The bytes of a file. -/
def read (v : Volume) (p : Path) : Except IoError (List UInt8) := do
  match ← v.find p with
  | some (.file bytes) => return bytes
  | some .directory => .error .isADirectory
  | none => .error .notFound

/-- The name of a location inside a directory. -/
def nameIn? (dir l : Location) : Option String :=
  if l.size = dir.size + 1 ∧ l.pop = dir then l.back? else none

/-- The names in a directory, in no special order. -/
def names (v : Volume) (dir : Path) : Except IoError (List String) := do
  let l ← v.locate dir
  match v.node? l with
  | some .directory => return v.nodes.keys.filterMap (nameIn? l)
  | some (.file _) => .error .notADirectory
  | none => .error .notFound

/-- A lock on the file at a location is held. -/
def isLocked (v : Volume) (l : Location) : Bool := v.locks.any (·.2 = l)

/-! ### Following a path -/

/-- Steps are followed one part after the other. -/
theorem follow_append (v : Volume) (l : Location) (front back : List Step) :
    v.follow l (front ++ back) = (v.follow l front).bind fun m => v.follow m back := by
  induction front generalizing l with
  | nil => rfl
  | cons step front ih =>
    simp only [List.cons_append, follow]
    cases v.node? l with
    | none => rfl
    | some node =>
      cases node with
      | file _ => rfl
      | directory =>
        cases step with
        | stay => exact ih l
        | up => exact ih l.pop
        | down name =>
          by_cases fits : nameFits name
          · simpa [fits] using ih (l.push name)
          · simp [fits, Except.bind]

end Volume

end Collate
