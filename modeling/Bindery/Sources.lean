import Bindery.Path

/-!
# Source files

The files that a run may read, keyed by normalised path. What is said of a file that cannot
be read depends on where the files live, so it is part of the set.

## Main definitions

* `Sources`: a set of files.
* `Sources.insert`, `Sources.read?`, `Sources.contains`.
-/
namespace Bindery

/-- Files by normalised path, and the reason given for a path that holds none. -/
structure Sources where
  files : List (Path × String) := []
  missing : Path → String := fun p => "no such source: " ++ p.text

namespace Sources

/-- The set without files. -/
def empty : Sources := {}

/-- Replace the text of the file at a path, or append a file. -/
def insertFile (path : Path) (text : String) : List (Path × String) → List (Path × String)
  | [] => [(path, text)]
  | (p, t) :: rest =>
    if p = path then (path, text) :: rest else (p, t) :: insertFile path text rest

/-- Add or replace a file. -/
def insert (s : Sources) (written : String) (text : String) : Sources :=
  { s with files := insertFile (Path.normalize written) text s.files }

/-- The set of the given files; a later one replaces an earlier one at the same path. -/
def ofFiles (files : List (String × String)) : Sources :=
  files.foldl (fun s f => s.insert f.1 f.2) empty

/-- The text of a file. -/
def read? (s : Sources) (path : Path) : Option String :=
  (s.files.find? (·.1 = path)).map Prod.snd

/-- The file is there. -/
def contains (s : Sources) (path : Path) : Bool := (s.read? path).isSome

end Sources
end Bindery
