/-!
# Paths

A path is a text that spells a way through directories, piece by piece between slashes.  It is kept
as it was spelled: `a/b`, `a//b` and `a/./b` are three paths, although they lead to one file.  What
a path means is the list of its steps; `steps_join` says that going on by a name is one more step.
-/

namespace Collate

/-- A step on the way through directories. -/
inductive Step
  | stay
  | up
  | down (name : String)
  deriving DecidableEq, Repr

/-- The step that a piece of a path spells. -/
def Step.ofPiece : List Char → Step
  | [] | ['.'] => stay
  | ['.', '.'] => up
  | name => down (String.ofList name)

/-- A path, as it is spelled. -/
structure Path where
  text : String
  deriving DecidableEq, Repr

namespace Path

/-- The pieces of a text between slashes. -/
def split : List Char → List (List Char)
  | [] => [[]]
  | c :: cs =>
    if c = '/' then [] :: split cs
    else
      match split cs with
      | piece :: rest => (c :: piece) :: rest
      | [] => [[c]]

/-- Pieces with slashes between them. -/
def ofPieces (pieces : List (List Char)) : Path := ⟨String.ofList (['/'].intercalate pieces)⟩

/-- The pieces of a path. -/
def pieces (p : Path) : List (List Char) := split p.text.toList

/-- The steps of a path. -/
def steps (p : Path) : List Step := p.pieces.map Step.ofPiece

/-- A text starts at the top. -/
def isRooted (text : String) : Bool := text.toList.head? = some '/'

/-- A path ends in a slash, as only the path of a directory may. -/
def endsInSlash (p : Path) : Bool := p.text.toList.getLast? = some '/'

/-- Goes on from a path by a text; a text that starts at the top is the path itself. -/
def join (p : Path) (text : String) : Path :=
  if isRooted text then ⟨text⟩
  else if p.text = "" ∨ p.endsInSlash then ⟨p.text ++ text⟩
  else ⟨p.text ++ "/" ++ text⟩

/-- A piece that leads nowhere. -/
def isIdle (piece : List Char) : Bool := Step.ofPiece piece = .stay

/-- Pieces without the idle ones at their end. -/
def trimEnd (pieces : List (List Char)) : List (List Char) :=
  (pieces.reverse.dropWhile isIdle).reverse

/-- The path of the directory that holds what a path leads to: the last piece is left out, and so
are the idle ones before and after it. -/
def parent (p : Path) : Path :=
  match trimEnd (trimEnd p.pieces).dropLast with
  | [] => if isRooted p.text then ⟨"/"⟩ else ⟨""⟩
  | kept => ofPieces kept

/-- The last piece of a path. -/
def name (p : Path) : String := String.ofList (p.pieces.getLast?.getD [])

/-- The pieces of a path without the slashes at its end. -/
def barePieces (p : Path) : List (List Char) := (p.pieces.reverse.dropWhile (· = [])).reverse

/-- A path ends in a dot, apart from slashes. -/
def endsInDot (p : Path) : Bool := p.barePieces.getLast? = some ['.']

/-- What is left of pieces after others, where idle ones between them do not count. -/
def after? : List (List Char) → List (List Char) → Option (List (List Char))
  | [], rest => some (trimEnd (rest.dropWhile isIdle))
  | _ :: _, [] => none
  | piece :: before, other :: rest =>
    if isIdle other then after? (piece :: before) rest
    else if piece = other then after? before rest
    else none

/-- The path from a directory on to a path that starts with the path of the directory. -/
def relativeTo? (p dir : Path) : Option Path :=
  if isRooted p.text = isRooted dir.text then
    (after? (dir.pieces.filter fun piece => !isIdle piece) p.pieces).map ofPieces
  else none

/-! ### Pieces and steps -/

theorem split_ne_nil (cs : List Char) : split cs ≠ [] := by
  fun_cases split cs <;> simp_all

theorem split_of_no_slash {cs : List Char} (h : '/' ∉ cs) : split cs = [cs] := by
  induction cs with
  | nil => rfl
  | cons c cs ih =>
    simp only [List.mem_cons, not_or] at h
    have : c ≠ '/' := fun e => h.1 e.symm
    simp [split, this, ih h.2]

/-- The pieces of two texts with a slash between them. -/
theorem split_append_slash (cs ds : List Char) :
    split (cs ++ '/' :: ds) = split cs ++ split ds := by
  induction cs with
  | nil => simp [split]
  | cons c cs ih =>
    by_cases h : c = '/'
    · simp [split, h, ih]
    · cases e : split cs with
      | nil => exact absurd e (split_ne_nil cs)
      | cons piece rest => simp [split, h, ih, e]

/-- A text without slashes that is more than two characters long is a name. -/
theorem ofPiece_of_long {s : String} (long : 2 < s.toList.length) :
    Step.ofPiece s.toList = .down s := by
  have whole : String.ofList s.toList = s := String.ofList_toList
  unfold Step.ofPiece
  split <;> simp_all

/-- The steps of a path but for the slash at its end. -/
def way (p : Path) : List Step :=
  if p.text = "" then [] else if p.endsInSlash then p.steps.dropLast else p.steps

/-- Going on by a name is one more step. -/
theorem steps_join (p : Path) {s : String} (h : '/' ∉ s.toList) (long : 2 < s.toList.length) :
    (p.join s).steps = p.way ++ [.down s] := by
  have name : (split s.toList).map Step.ofPiece = [.down s] := by
    simp [split_of_no_slash h, ofPiece_of_long long]
  have relative : isRooted s = false := by
    simp only [isRooted, decide_eq_false_iff_not]
    exact fun e => h (List.mem_of_mem_head? e)
  unfold join way
  rw [relative]
  by_cases empty : p.text = ""
  · simp [empty, steps, pieces, name]
  · by_cases slash : p.endsInSlash
    · have last : p.text.toList.getLast? = some '/' := by simpa [endsInSlash] using slash
      obtain ⟨cs, e⟩ := List.getLast?_eq_some_iff.1 last
      have back : split (cs ++ ['/']) = split cs ++ [[]] := split_append_slash cs []
      have more : split (cs ++ '/' :: s.toList) = split cs ++ split s.toList :=
        split_append_slash cs s.toList
      simp [empty, slash, steps, pieces, e, back, more, name]
    · have more : split (p.text.toList ++ '/' :: s.toList) = p.pieces ++ split s.toList :=
        split_append_slash p.text.toList s.toList
      simp [empty, slash, steps, pieces, more, name]

end Path

end Collate
