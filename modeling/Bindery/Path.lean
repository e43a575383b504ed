/-!
# File paths

Paths are normalised before they are compared: repeated and trailing slashes and `.`
vanish, and `..` takes away the component before it. Where there is no component to take
away, `..` is kept; a kept `..` is a component like any other, so the next `..` takes it
away again.

## Main definitions

* `Path`: a normalised path.
* `Path.normalize`: the normal form of a written path.
* `Path.resolve`: a written path as seen from a directory.
* `Path.components`: the components of a written path.
* `Path.fileName?`, `Path.fileStem?`, `Path.parentText?`: parts of a written path.
-/
namespace Bindery

/-- A component of a written path. -/
inductive PathComponent where
  | root
  | here
  | up
  | name (s : String)
deriving DecidableEq

/-- A normalised path. -/
structure Path where
  absolute : Bool
  names : List String
deriving DecidableEq, Inhabited

namespace Path

/-- The pieces of a text between slashes. -/
def splitSlash : List Char → List (List Char)
  | [] => [[]]
  | c :: cs =>
    match splitSlash cs with
    | [] => [[c]]
    | piece :: pieces => if c = '/' then [] :: piece :: pieces else (c :: piece) :: pieces

/-- The component that a piece stands for. A `.` counts only in front of a relative path. -/
def componentOf (leading : Bool) (piece : List Char) : List PathComponent :=
  if piece = [] then []
  else if piece = ['.'] then (if leading then [.here] else [])
  else if piece = ['.', '.'] then [.up]
  else [.name (String.ofList piece)]

/-- The components of a written path. -/
def components (written : String) : List PathComponent :=
  match splitSlash written.toList with
  | [] => []
  | first :: rest =>
    let start :=
      if first = [] && !rest.isEmpty then [.root] else componentOf true first
    start ++ rest.flatMap (componentOf false)

/-- The path `/`. -/
def root : Path := ⟨true, []⟩

/-- The empty relative path. -/
def empty : Path := ⟨false, []⟩

/-- Follow one component. -/
def step (p : Path) : PathComponent → Path
  | .root => root
  | .here => p
  | .up => if p.names = [] then ⟨p.absolute, [".."]⟩ else ⟨p.absolute, p.names.dropLast⟩
  | .name s => ⟨p.absolute, p.names ++ [s]⟩

/-- A written path as seen from the directory `base`. -/
def resolve (base : Path) (written : String) : Path := (components written).foldl step base

/-- The normal form of a written path. -/
def normalize (written : String) : Path := resolve empty written

/-- The path as text. -/
def text (p : Path) : String := (if p.absolute then "/" else "") ++ "/".intercalate p.names

/-- The directory of a path, none for the root and for the empty path. -/
def parent? (p : Path) : Option Path :=
  if p.names = [] then none else some ⟨p.absolute, p.names.dropLast⟩

/-- The last component when it is a name. -/
def fileName? (written : String) : Option String :=
  match (components written).getLast? with
  | some (.name s) => some s
  | _ => none

/-- Cut a file name at its last dot, unless the dot stands in front. -/
def stemOf (fileName : List Char) : List Char :=
  let before := (fileName.reverse.dropWhile (· ≠ '.')).reverse.dropLast
  if before = [] then fileName else before

/-- The last component without its extension. -/
def fileStem? (written : String) : Option String :=
  (fileName? written).map fun name => String.ofList (stemOf name.toList)

/-- The pieces without those at the end that stand for no component. The first piece stays. -/
def trimPieces (pieces : List (List Char)) : List (List Char) :=
  match pieces with
  | [] => []
  | first :: rest =>
    first :: (rest.reverse.dropWhile fun piece => piece = [] || piece = ['.']).reverse

/-- Pieces with slashes between them; the first one alone stands for the root if it is empty. -/
def joinPieces : List (List Char) → String
  | [[]] => "/"
  | pieces => "/".intercalate (pieces.map String.ofList)

/-- A written path without its last component, as it is written. None for the root and for
the empty path. -/
def parentText? (written : String) : Option String :=
  match (trimPieces (splitSlash written.toList)).reverse with
  | [] | [[]] => none
  | [_] => some ""
  | _ :: front => some (joinPieces (trimPieces front.reverse))

@[simp] theorem step_here (p : Path) : p.step .here = p := rfl

@[simp] theorem step_name (p : Path) (s : String) :
    p.step (.name s) = ⟨p.absolute, p.names ++ [s]⟩ := rfl

end Path
end Bindery
