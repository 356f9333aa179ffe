import Collate.Storage.Volume

/-!
# Actions on a volume

An action answers or fails with a cause, and either way leaves a volume behind.  A lock belongs to a
file and not to its name: it ends when the file is removed or replaced, and moves with a file that
is renamed.
-/

namespace Collate

namespace Volume

/-- What an action does to a volume. -/
abbrev Action (ε α : Type) := ExceptT ε (StateM Volume) α

/-- Answers without a change. -/
def ask {ε α : Type} (answer : Volume → Except ε α) : Action ε α := fun v => (answer v, v)

/-- Puts a node at a location. -/
def put {ε : Type} (l : Location) (node : Node) : Action ε Unit :=
  fun v => (.ok (), { v with nodes := v.nodes.insert l node })

/-- Takes a number that was not taken before. -/
def takeFresh {ε : Type} : Action ε Nat :=
  fun v => (.ok v.fresh, { v with fresh := v.fresh + 1 })

/-! ### Directories -/

/-- Makes the directories that are missing on the way from a location.  A file on the way is no
directory; but once a directory has been made, as `made` tells, all that follow are to be made too,
and the file is in the place of one.  A path that ends in a dot makes no directory at its end. -/
def makeWay (endsInDot made : Bool) (l : Location) : List Step → Action IoError Unit
  | [] => return ()
  | .stay :: rest => makeWay endsInDot made l rest
  | .up :: rest => makeWay endsInDot made l.pop rest
  | .down name :: rest => do
    let next := l.push name
    let isLast := rest.all (· = .stay)
    if nameFits name then
      match (← get).node? next with
      | some .directory => makeWay endsInDot made next rest
      | some (.file _) =>
        throw (if (if isLast then !endsInDot else made) then .alreadyExists else .notADirectory)
      | none =>
        if isLast && endsInDot then throw .notFound
        else
          put next .directory
          makeWay endsInDot true next rest
    else throw .invalidFilename

/-- Makes a directory with all that lead to it. -/
def makeDirectory (p : Path) : Action IoError Unit := do
  if p.text = "" then return ()
  else makeWay p.endsInDot false #[] (← ask fun _ => usableSteps p)

/-- Takes out all that satisfies a test, with the locks on it. -/
def discard {ε : Type} (gone : Location → Bool) : Action ε Unit :=
  modify fun v => { v with
    nodes := v.nodes.filter fun l => !gone l
    locks := v.locks.filter fun lock => !gone lock.2 }

/-- Removes a directory with its content: first the content, then the directory by the same path.
Where the path led through the content, nothing is left to be done. -/
def removeTree (p : Path) : Action IoError Unit := do
  let dir ← ask (·.locate p)
  match (← get).node? dir with
  | none => throw .notFound
  | some (.file _) => throw .notADirectory
  | some .directory =>
    discard fun l => dir.isPrefixOf l && l ≠ dir
    match (← get).locate p with
    | .error _ => return ()
    | .ok _ => if p.endsInDot then throw .invalidArgument else discard (· = dir)

/-! ### Files -/

/-- Writes a file, in place of any bytes that it had.  A path that ends in a slash can only be that
of a directory. -/
def write (p : Path) (bytes : List UInt8) : Action IoError Unit := do
  if p.endsInSlash then
    let _ ← ask fun _ => usableSteps p
    let _ ← ask fun v => v.follow #[] (p.barePieces.map Step.ofPiece)
    throw .isADirectory
  else
    let l ← ask (·.locate p)
    match (← get).node? l with
    | some .directory => throw .isADirectory
    | _ => put l (.file bytes)

/-- Ends the locks on the file at a location. -/
def detach {ε : Type} (l : Location) : Action ε Unit :=
  fun v => (.ok (), { v with locks := v.locks.filter (·.2 ≠ l) })

/-- Removes a file. -/
def remove (p : Path) : Action IoError Unit := do
  let l ← ask (·.locate p)
  match (← get).node? l with
  | none => throw .notFound
  | some .directory => throw .isADirectory
  | some (.file _) =>
    detach l
    modify fun v => { v with nodes := v.nodes.erase l }

/-- Gives a file another path, in place of any file there. -/
def rename (source target : Path) : Action IoError Unit := do
  let bytes ← ask (·.read source)
  let old ← ask (·.locate source)
  let new ← ask (·.locate target)
  match (← get).node? new with
  | some .directory => throw .isADirectory
  | _ =>
    detach new
    modify fun v => { v with
      nodes := (v.nodes.erase old).insert new (.file bytes)
      locks := v.locks.map fun (token, l) => (token, if l = old then new else l) }

/-! ### Locks -/

/-- Makes a file where there is none, and takes the lock on it: the token, or nothing where the
lock is held. -/
def tryLock (p : Path) : Action IoError (Option Nat) := do
  let l ← ask (·.locate p)
  match (← get).node? l with
  | some .directory => throw .isADirectory
  | some (.file _) => pure ()
  | none => put l (.file [])
  if (← get).isLocked l then return none
  else
    let token ← takeFresh
    modify fun v => { v with locks := (token, l) :: v.locks }
    return some token

/-- Gives a lock back. -/
def unlock (v : Volume) (token : Nat) : Volume :=
  { v with locks := v.locks.filter (·.1 ≠ token) }

end Volume

end Collate
