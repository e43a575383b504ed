import Bindery.TypeExpr.Reader

/-!
# Export directives

A line comment of the form `// pxx :: …` above a declaration holds a list of directives,
separated by commas: `export`, `hide`, and `instance` with the template arguments of an
instantiation that is wanted, and perhaps a name for it. Other comments are left alone. A
comment that starts like a directive and cannot be read is dropped whole and reported.

## Main definitions

* `Directives`: what the comments above a declaration ask for.
* `Directives.ofComments`: the directives of a block of comments, and what was wrong with
  the malformed ones.
-/
namespace Bindery

/-- How a declaration is marked for export. -/
inductive ExportMark where
  | unmarked
  | exported
  | hidden
deriving DecidableEq, Inhabited

/-- The word for a mark. -/
def ExportMark.text : ExportMark → String
  | unmarked => "unmarked"
  | exported => "exported"
  | hidden => "hidden"

/-- A wanted instantiation: template arguments in the order of the parameters, and a name
for it to be called by. -/
structure InstanceRequest where
  name : Option String
  args : List String
deriving DecidableEq, Inhabited

/-- One directive. -/
inductive Directive where
  | mark (m : ExportMark)
  | request (r : InstanceRequest)
deriving DecidableEq, Inhabited

/-- Why a directive cannot be read. -/
inductive DirectiveFault where
  | expected (what : String) (found : Option String)
  | unknown (name : String)
deriving DecidableEq, Inhabited

/-- The words for a fault. -/
def DirectiveFault.message : DirectiveFault → String
  | expected what (some found) => "expected " ++ what ++ ", found `" ++ found ++ "`"
  | expected what none => "expected " ++ what
  | unknown name => "unknown directive `" ++ name ++ "`"

namespace Directive

/-- Something else stands where `what` was expected. -/
def unexpected (what : String) (ps : List Piece) : DirectiveFault :=
  .expected what (ps.head?.map Piece.text)

/-- The tokens behind one of a given kind. -/
def expect (kind : TokenKind) (what : String) : List Piece → Except DirectiveFault (List Piece)
  | [] => .error (.expected what none)
  | p :: ps => if p.kind = kind then .ok ps else .error (.expected what (some p.text))

/-- Escaped characters stand for themselves. -/
def unescape : List Char → List Char
  | '\\' :: c :: cs => c :: unescape cs
  | ['\\'] => []
  | c :: cs => c :: unescape cs
  | [] => []

/-- The text between the quotes of a string token. -/
def unquote (literal : String) : String :=
  String.ofList (unescape (literal.toList.drop 1).dropLast)

/-- The strings of a list, up to its closing bracket. -/
def readStrings : List Piece → Except DirectiveFault (List String × List Piece)
  | [] => .error (.expected "string" none)
  | p :: ps =>
    if p.kind = .string then
      match ps with
      | ⟨.comma, _⟩ :: rest => do
        let (more, rest) ← readStrings rest
        return (unquote p.text :: more, rest)
      | rest => return ([unquote p.text], ← expect .rBracket "`]`" rest)
    else .error (.expected "string" (some p.text))

/-- The arguments of an `instance` directive. -/
def readRequest (ps : List Piece) : Except DirectiveFault (InstanceRequest × List Piece) := do
  let ps ← expect .lParen "`(`" ps
  let (name, ps) ← match ps with
    | ⟨.string, text⟩ :: rest => pure (some (unquote text), ← expect .comma "`,`" rest)
    | ps => pure (none, ps)
  let (args, ps) ← readStrings (← expect .lBracket "`[`" ps)
  return (⟨name, args⟩, ← expect .rParen "`)`" ps)

/-- The empty parentheses that a mark may have. -/
def readEmptyParens : List Piece → Except DirectiveFault (List Piece)
  | ⟨.lParen, _⟩ :: ps => expect .rParen "`)`" ps
  | ps => .ok ps

/-- The directive at the front, and the tokens behind it. -/
def read : List Piece → Except DirectiveFault (Directive × List Piece)
  | ⟨.ident, "export"⟩ :: ps => return (.mark .exported, ← readEmptyParens ps)
  | ⟨.ident, "hide"⟩ :: ps => return (.mark .hidden, ← readEmptyParens ps)
  | ⟨.ident, "instance"⟩ :: ps => do
    let (wanted, ps) ← readRequest ps
    return (.request wanted, ps)
  | ⟨.ident, name⟩ :: _ => .error (.unknown name)
  | ps => .error (unexpected "directive name" ps)

/-- The directives of a list. A list has no more directives than tokens, which bounds the
depth. -/
def readList : Nat → List Piece → Except DirectiveFault (List Directive)
  | 0, ps => .error (unexpected "directive name" ps)
  | depth + 1, ps => do
    let (first, rest) ← read ps
    match rest with
    | [] => return [first]
    | ⟨.comma, _⟩ :: rest => return first :: (← readList depth rest)
    | rest => .error (unexpected "`,` or end of directive" rest)

/-- The directives that a text holds. -/
def parseList (text : String) : Except DirectiveFault (List Directive) :=
  let ps := piecesOf text
  readList (ps.length + 1) ps

/-- The rest behind a word and the blanks in front of it. -/
def behind (word : String) (cs : List Char) : Option (List Char) :=
  let cs := cs.dropWhile fun c => c = ' ' || c = '\t'
  if word.toList.isPrefixOf cs then some (cs.drop word.length) else none

/-- The list of directives in a comment, none when the comment is no directive. -/
def body? (comment : String) : Option String := do
  let rest ← behind "//" comment.toList
  let rest ← behind "pxx" rest
  let rest ← behind "::" rest
  return String.ofList rest

end Directive

/-- What the comments above a declaration ask for. -/
structure Directives where
  /-- The last mark among them. -/
  mark : Option ExportMark := none
  /-- The wanted instantiations, in order. -/
  requests : List InstanceRequest := []
deriving DecidableEq, Inhabited

namespace Directives

/-- Nothing is asked for. -/
def isEmpty (d : Directives) : Bool := d.mark.isNone && d.requests.isEmpty

/-- Take up one more directive. -/
def add (d : Directives) : Directive → Directives
  | .mark m => { d with mark := some m }
  | .request r => { d with requests := d.requests ++ [r] }

/-- The report on a comment that cannot be read. -/
def complaint (comment : String) (fault : DirectiveFault) : String :=
  "malformed pxx directive `" ++ Text.trim comment ++ "`: " ++ fault.message

/-- Take up a comment: its directives, or a report. -/
def addComment (state : Directives × List String) (comment : String) :
    Directives × List String :=
  match Directive.body? comment with
  | none => state
  | some body =>
    match Directive.parseList body with
    | .ok items => (items.foldl add state.1, state.2)
    | .error fault => (state.1, state.2 ++ [complaint comment fault])

/-- The directives of a block of comments, and a report for each malformed comment. -/
def ofComments (comments : List String) : Directives × List String :=
  comments.foldl addComment ({}, [])

end Directives
end Bindery
