import Bindery.TypeExpr.Printer

/-!
# Reading types

Types are read from the tokens of a text. An argument is a type when its tokens up to the
next comma or closing angle bracket form one; otherwise the same tokens are kept as the text
of a value, so reading an argument never fails. The readers nest as the text does, and the
bound on their nesting is taken from the number of tokens.

## Main definitions

* `TypeExpr.canonical`: the canonical spelling of a fundamental type.
* `TypeExpr.parse`, `TemplateArg.parse`: reading a whole text.
* `TypeFault`: why a text is not a type or an argument.
-/
namespace Bindery

/-- Why a text could not be read. -/
inductive TypeFault where
  | unreadable (text : String)
  | unexpected (token : String) (text : String)
  | emptyArgument
deriving DecidableEq

/-- The words for a fault. -/
def TypeFault.message : TypeFault → String
  | unreadable text => "cannot parse type `" ++ text ++ "`"
  | unexpected token text => "unexpected `" ++ token ++ "` in type `" ++ text ++ "`"
  | emptyArgument => "empty template argument"

namespace TypeExpr

/-- The words of a fundamental type, counted. -/
structure WordCount where
  isSigned : Bool := false
  isUnsigned : Bool := false
  isShort : Bool := false
  longs : Nat := 0
  /-- The word that names the type; any other word takes precedence over `int`. -/
  base : Option String := none

/-- Count one more word. -/
def WordCount.add (w : WordCount) (word : String) : WordCount :=
  if word = "signed" then { w with isSigned := true }
  else if word = "unsigned" then { w with isUnsigned := true }
  else if word = "short" then { w with isShort := true }
  else if word = "long" then { w with longs := w.longs + 1 }
  else if word = "int" then { w with base := w.base.or (some "int") }
  else { w with base := some word }

/-- The spelling of an integer type by its width and sign. -/
def WordCount.integer (w : WordCount) : String :=
  let width :=
    if w.isShort then "short"
    else if w.longs ≥ 2 then "long long"
    else if w.longs = 1 then "long"
    else "int"
  if w.isUnsigned then "unsigned " ++ width else width

/-- The canonical spelling of a fundamental type from its words in any order. -/
def canonical (words : List String) : String :=
  let w := words.foldl WordCount.add {}
  match w.base with
  | none => w.integer
  | some base =>
    if base = "int" then w.integer
    else if base = "char" && w.isSigned then "signed char"
    else if base = "char" && w.isUnsigned then "unsigned char"
    else if base = "double" && w.longs > 0 then "long double"
    else base

/-- Which qualifiers have been read. -/
structure Qualifiers where
  isConst : Bool := false
  isVolatile : Bool := false

/-- Read qualifiers in any number and order. -/
def readQualifiers (q : Qualifiers) : List Piece → Qualifiers × List Piece
  | ⟨.constKw, _⟩ :: ps => readQualifiers { q with isConst := true } ps
  | ⟨.volatileKw, _⟩ :: ps => readQualifiers { q with isVolatile := true } ps
  | ps => (q, ps)

/-- Read qualifiers and the words that announce a type. -/
def readLead (q : Qualifiers) : List Piece → Qualifiers × List Piece
  | [] => (q, [])
  | p :: ps =>
    if p.kind = .constKw then readLead { q with isConst := true } ps
    else if p.kind = .volatileKw then readLead { q with isVolatile := true } ps
    else if p.kind = .typenameKw || p.kind = .enumKw || p.kind.isClassKey then readLead q ps
    else (q, p :: ps)

/-- A word of a fundamental type. -/
def isFundamentalWord (p : Piece) : Bool :=
  p.kind = .ident && Grammar.fundamentalWords.contains p.text

/-- Read the words of a fundamental type, with qualifiers between them. -/
def readFundamental (q : Qualifiers) : List Piece → List String × Qualifiers × List Piece
  | [] => ([], q, [])
  | p :: ps =>
    if isFundamentalWord p then
      let (words, q, rest) := readFundamental q ps
      (p.text :: words, q, rest)
    else if p.kind = .constKw then readFundamental { q with isConst := true } ps
    else if p.kind = .volatileKw then readFundamental { q with isVolatile := true } ps
    else ([], q, p :: ps)

/-- Read pointers and references behind those read so far, outermost first. Qualifiers may
follow a pointer. -/
def readDeclarators (ds : List Indirection) : List Piece → List Indirection × List Piece
  | [] => (ds.reverse, [])
  | p :: ps =>
    match p.kind, ds with
    | .star, ds => readDeclarators (.pointer false :: ds) ps
    | .amp, ds => readDeclarators (.lvalueRef :: ds) ps
    | .ampAmp, ds => readDeclarators (.rvalueRef :: ds) ps
    | .constKw, .pointer _ :: ds => readDeclarators (.pointer true :: ds) ps
    | .volatileKw, .pointer isConst :: ds => readDeclarators (.pointer isConst :: ds) ps
    | _, ds => (ds.reverse, p :: ps)

end TypeExpr

namespace TemplateArg

/-- The tokens of a value argument: those up to a comma or closing angle bracket outside of
parentheses and angle brackets. -/
def valuePieces (depth : Nat) : List Piece → List Piece × List Piece
  | [] => ([], [])
  | p :: ps =>
    let more (depth : Nat) : List Piece × List Piece :=
      let (taken, rest) := valuePieces depth ps
      (p :: taken, rest)
    match p.kind with
    | .lParen | .lAngle => more (depth + 1)
    | .rParen => more (depth - 1)
    | .comma => if depth = 0 then ([], p :: ps) else more depth
    | .rAngle => if depth = 0 then ([], p :: ps) else more (depth - 1)
    | _ => more depth

/-- Words that start a value, although they could start a type. -/
def valueWords : List String := ["true", "false", "nullptr", "sizeof"]

/-- The first token is a word that starts a value. -/
def startsValue : List Piece → Bool
  | p :: _ => valueWords.contains p.text
  | [] => false

/-- Nothing follows, or what may follow an argument. -/
def endsArgument : List Piece → Bool
  | [] => true
  | p :: _ => p.kind = .comma || p.kind = .rAngle

end TemplateArg

/-- Read what follows the name of a segment: a list of arguments, which may be empty, or
nothing. -/
def NameSegment.readBehind (readArgs : List Piece → Option (List TemplateArg × List Piece))
    (name : String) : List Piece → Option (NameSegment × List Piece)
  | ⟨.lAngle, _⟩ :: ⟨.rAngle, _⟩ :: rest => some (.applied name [], rest)
  | ⟨.lAngle, _⟩ :: rest => (readArgs rest).map fun (args, rest) => (.applied name args, rest)
  | rest => some (.plain name, rest)

mutual
/-- Read a type. -/
def TypeExpr.read : Nat → List Piece → Option (TypeExpr × List Piece)
  | 0, _ => none
  | depth + 1, ps =>
    let (q, ps) := TypeExpr.readLead {} ps
    let base? : Option (TypeBase × TypeExpr.Qualifiers × List Piece) :=
      if ps.head?.any TypeExpr.isFundamentalWord then
        let (words, q, rest) := TypeExpr.readFundamental q ps
        some (.fundamental (TypeExpr.canonical words), q, rest)
      else
        (TypeBase.readPath depth ps).map fun (base, rest) => (base, q, rest)
    match base? with
    | none => none
    | some (base, q, ps) =>
      let (q, ps) := TypeExpr.readQualifiers q ps
      let (declarators, ps) := TypeExpr.readDeclarators [] ps
      some (⟨q.isConst, q.isVolatile, base, declarators⟩, ps)

/-- Read a path. -/
def TypeBase.readPath : Nat → List Piece → Option (TypeBase × List Piece)
  | 0, _ => none
  | depth + 1, ⟨.colonColon, _⟩ :: ps =>
    (NameSegment.readAll depth ps).map fun (segments, rest) => (.named true segments, rest)
  | depth + 1, ps =>
    (NameSegment.readAll depth ps).map fun (segments, rest) => (.named false segments, rest)

/-- Read the segments of a path. -/
def NameSegment.readAll : Nat → List Piece → Option (List NameSegment × List Piece)
  | 0, _ => none
  | depth + 1, ps =>
    let ps := match ps with
      | ⟨.templateKw, _⟩ :: rest => rest
      | all => all
    match ps with
    | ⟨.ident, name⟩ :: rest =>
      match NameSegment.readBehind (TemplateArg.readAll depth) name rest with
      | none => none
      | some (segment, ⟨.colonColon, _⟩ :: rest) =>
        (NameSegment.readAll depth rest).map fun (segments, rest) => (segment :: segments, rest)
      | some (segment, rest) => some ([segment], rest)
    | _ => none

/-- Read arguments up to the closing angle bracket. -/
def TemplateArg.readAll : Nat → List Piece → Option (List TemplateArg × List Piece)
  | 0, _ => none
  | depth + 1, ps =>
    let (arg, rest) := TemplateArg.read depth ps
    match rest with
    | ⟨.comma, _⟩ :: rest =>
      (TemplateArg.readAll depth rest).map fun (args, rest) => (arg :: args, rest)
    | ⟨.rAngle, _⟩ :: rest => some ([arg], rest)
    | _ => none

/-- Read an argument. -/
def TemplateArg.read : Nat → List Piece → TemplateArg × List Piece
  | 0, ps =>
    let (taken, rest) := TemplateArg.valuePieces 0 ps
    (.value (TemplateArg.spell taken), rest)
  | depth + 1, ps =>
    let asType :=
      if TemplateArg.startsValue ps then none
      else (TypeExpr.read depth ps).filter fun (_, rest) => TemplateArg.endsArgument rest
    match asType with
    | some (t, rest) => (.type t, rest)
    | none =>
      let (taken, rest) := TemplateArg.valuePieces 0 ps
      (.value (TemplateArg.spell taken), rest)
end

/-- The tokens of a text that carry meaning. -/
def piecesOf (text : String) : List Piece := (Token.scanWords text).map fun t => ⟨t.kind, t.text⟩

/-- A nesting that no list of tokens exceeds: each level of a type takes four steps and at
least one token. -/
def readDepth (ps : List Piece) : Nat := 5 * ps.length + 5

namespace TypeExpr

/-- Read a text that is one type. -/
def parse (text : String) : Except TypeFault TypeExpr :=
  let ps := piecesOf text
  match read (readDepth ps) ps with
  | none => .error (.unreadable text)
  | some (t, []) => .ok t
  | some (_, p :: _) => .error (.unexpected p.text text)

end TypeExpr

namespace TemplateArg

/-- Read a text that is one argument. What is not is kept as a value. -/
def parse (text : String) : Except TypeFault TemplateArg :=
  let ps := piecesOf text
  if ps = [] then .error .emptyArgument
  else match read (readDepth ps) ps with
    | (arg, []) => .ok arg
    | _ => .ok (.value (spell ps))

end TemplateArg
end Bindery
