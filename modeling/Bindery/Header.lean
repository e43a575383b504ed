import Bindery.Declaration.OfTree
import Bindery.Tree.Declarations

/-!
# Parsed headers

A header is read by preprocessing it, building its tree and reading the declarations off
the tree. The first syntax error, if there is any, stops the work.

## Main definitions

* `ReadFault`: why a header could not be read.
* `Header`: the tree of a header and the files it came from.
* `Header.load`: reading a header.
* `Header.locationAt?`, `Header.fileAt?`: where an offset of the tree's text came from.
-/
namespace Bindery

/-- Why a header could not be read. -/
inductive ReadFault where
  | preprocess (fault : PreprocessFault)
  | grammar (fault : SyntaxFault)
deriving DecidableEq

/-- The words for a fault. -/
def ReadFault.message : ReadFault → String
  | preprocess fault => fault.message
  | grammar fault => fault.message

/-- A header that was read. -/
structure Header where
  root : Tree
  /-- Every file that was read, the main file first. -/
  files : Array SourceFile
  /-- The includes in angle brackets, in order of first appearance. -/
  systemIncludes : List String
  diagnostics : List Diagnostic

namespace Header

/-- Read a header. -/
def load (sources : Sources) (flags : List String) (path : String) :
    Except (Located ReadFault) Header :=
  match Preprocessor.run sources (Flags.parse flags) path with
  | .error e => .error ⟨.preprocess e.fault, e.location⟩
  | .ok s =>
    let tree := SyntaxTree.parse s.tokens.toList
    match tree.errors with
    | e :: _ => .error ⟨.grammar e.fault, e.origin.bind (locate? s.files)⟩
    | [] => .ok ⟨tree.root, s.files, s.systemIncludes, s.diagnostics⟩

/-- The declarations of the header. -/
def declarations (h : Header) : List Declaration := Declaration.ofChildren [] h.root.children

/-- The location of an origin. -/
def location? (h : Header) (origin : Option Origin) : Option Location :=
  origin.bind (locate? h.files)

/-- The main file. -/
def mainFile? (h : Header) : Option Path := h.files[0]?.map (·.path)

/-- Where the tokens of the tree's text were read from. Building the tree moves each of them once,
in the order of the text. -/
def origins (h : Header) : OriginMap := .ofTokens h.root.leaves

/-- The location of an offset of the tree's text. -/
def locationAt? (h : Header) (offset : Nat) : Option Location :=
  h.location? (h.origins.lookup? offset)

/-- The file that an offset of the tree's text was read from. -/
def fileAt? (h : Header) (offset : Nat) : Option Path :=
  (h.origins.lookup? offset).bind fun o => h.files[o.file]?.map (·.path)

/-- The size of the tree's text. -/
def textSize (h : Header) : Nat :=
  h.root.leaves.foldr (fun t n => t.text.utf8ByteSize + n) 0

end Header
end Bindery
