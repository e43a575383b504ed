import Bindery.OrderedMap
import Bindery.Sources

/-!
# Working directories

The files and directories that a run can see and write to. A written path is followed piece
by piece from the working directory or from the root: every piece but the last has to name a
directory, and `..` leads to the directory above. Nothing is known of the directories above
the working directory but that they exist. Names and paths have a greatest length, and a path
holds no zero character.

## Main definitions

* `Spot`: a place in the tree of directories.
* `WorkingTree`: directories and files by their spots.
* `longestName`, `longestPath`: the greatest lengths.
* `WorkingTree.walk`: where a written path leads.
* `WorkingTree.isFile`, `WorkingTree.isDirectory`, `WorkingTree.read?`, `WorkingTree.write`.
-/
namespace Bindery

/-- Where a path starts from. -/
inductive Anchor where
  | root
  /-- So many levels above the working directory. -/
  | above (levels : Nat)
deriving DecidableEq, Inhabited

/-- A place, by the names on the way from an anchor. -/
structure Spot where
  anchor : Anchor
  names : List String
deriving DecidableEq, Inhabited

namespace Spot

/-- The working directory. -/
def here : Spot := ⟨.above 0, []⟩

/-- The root directory. -/
def root : Spot := ⟨.root, []⟩

/-- The place of a name in a directory. -/
def child (s : Spot) (name : String) : Spot := ⟨s.anchor, s.names ++ [name]⟩

/-- The directory above. The root is above itself. -/
def up (s : Spot) : Spot :=
  match s.names, s.anchor with
  | [], .above levels => ⟨.above (levels + 1), []⟩
  | [], .root => s
  | _ :: _, anchor => ⟨anchor, s.names.dropLast⟩

end Spot

/-- Why a path leads nowhere, or cannot be written to. -/
inductive PathFault where
  | notFound
  | notDirectory
  | isDirectory
  | nameTooLong
  | zeroCharacter
deriving DecidableEq, Inhabited

/-- The words for a fault. -/
def PathFault.message : PathFault → String
  | notFound => "No such file or directory (os error 2)"
  | notDirectory => "Not a directory (os error 20)"
  | isDirectory => "Is a directory (os error 21)"
  | nameTooLong => "File name too long (os error 36)"
  | zeroCharacter => "file name contained an unexpected NUL byte"

/-- The most bytes that a name in a directory takes. -/
def longestName : Nat := 255

/-- The most bytes that a written path takes. -/
def longestPath : Nat := 4095

/-- Directories and files by their spots. Anchors are directories without being listed. -/
structure WorkingTree where
  directories : List Spot := []
  files : OrderedMap Spot String := {}
deriving Inhabited

/-- What a path leads to. -/
inductive PathTarget where
  | directory (s : Spot)
  | file (s : Spot)
  /-- Nothing yet, in a directory that is there. -/
  | vacant (s : Spot)
  /-- A name that is too long to be there, in a directory that is. -/
  | overlong
deriving DecidableEq, Inhabited

namespace WorkingTree

/-- The names on the way to a place, the place left out, shortest way first. -/
def waysTo (names : List String) : List (List String) :=
  (List.range names.length).filterMap fun n => if n = 0 then none else some (names.take n)

/-- A working directory with the given directories and files. The directories on the way to
a file are there too. -/
def make (directories : List String) (files : List (String × String)) : WorkingTree :=
  let names (written : String) := (Path.normalize written).names
  let spot (ns : List String) : Spot := ⟨.above 0, ns⟩
  { directories := directories.map (fun d => spot (names d)) ++
      files.flatMap fun (f, _) => (waysTo (names f)).map spot
    files := .ofList (files.map fun (f, text) => (spot (names f), text)) }

/-- What stands at a spot in a directory. -/
def look (t : WorkingTree) (s : Spot) : PathTarget :=
  if s.names = [] || t.directories.contains s then .directory s
  else if t.files.contains s then .file s
  else .vacant s

/-- Follow one piece of a path. -/
def step (t : WorkingTree) (target : PathTarget) (piece : List Char) :
    Except PathFault PathTarget :=
  match target with
  | .directory s =>
    if piece = [] || piece = ['.'] then .ok target
    else if piece = ['.', '.'] then .ok (.directory s.up)
    else
      let name := String.ofList piece
      .ok (if longestName < name.utf8ByteSize then .overlong else t.look (s.child name))
  | .file _ => .error (if piece = [] then .isDirectory else .notDirectory)
  | .vacant _ => .error (if piece = [] then .isDirectory else .notFound)
  | .overlong => .error (if piece = [] then .isDirectory else .nameTooLong)

/-- Where a written path leads. What is wrong with the path as a whole is found first. -/
def walk (t : WorkingTree) (written : String) : Except PathFault PathTarget :=
  if written.toList.contains '\x00' then .error .zeroCharacter
  else if longestPath < written.utf8ByteSize then .error .nameTooLong
  else match Path.splitSlash written.toList with
  | [] | [[]] => .error .notFound
  | [] :: pieces => pieces.foldlM t.step (.directory .root)
  | pieces => pieces.foldlM t.step (.directory .here)

/-- The path leads to a file. -/
def isFile (t : WorkingTree) (written : String) : Bool :=
  match t.walk written with
  | .ok (.file _) => true
  | _ => false

/-- The path leads to a directory. -/
def isDirectory (t : WorkingTree) (written : String) : Bool :=
  match t.walk written with
  | .ok (.directory _) => true
  | _ => false

/-- The text of the file that a path leads to. -/
def read? (t : WorkingTree) (written : String) : Option String :=
  match t.walk written with
  | .ok (.file s) => t.files.find? s
  | _ => none

/-- Write a file, which may be there already. -/
def write (t : WorkingTree) (written text : String) : Except PathFault WorkingTree :=
  match t.walk written with
  | .ok (.directory _) => .error .isDirectory
  | .ok (.file s) | .ok (.vacant s) => .ok { t with files := t.files.insert s text }
  | .ok .overlong => .error .nameTooLong
  | .error fault => .error fault

/-- The files in and below the working directory. -/
def sources (t : WorkingTree) : Sources :=
  { files := t.files.entries.filterMap fun (s, text) =>
      if s.anchor = .above 0 then some (⟨false, s.names⟩, text) else none
    missing := fun _ => PathFault.notFound.message }

end WorkingTree
end Bindery
