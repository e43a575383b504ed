import Bindery.Diagnostic
import Bindery.Preprocess.Condition
import Bindery.Preprocess.Conditional
import Bindery.Preprocess.Flags
import Bindery.Sources
import Bindery.Text.Blank

/-!
# Preprocessing

A header and everything it includes in quotes become one stream of tokens: includes are
spliced in, macros without parameters are expanded and conditional groups are resolved.
Includes in angle brackets are noted and not read. Every token of the stream carries the
place it was read from; the tokens of an expansion carry the place of the use.

Included files are processed by the same function with one level less of nesting left, so a
file that includes itself is stopped by the nesting limit.

## Main definitions

* `PreprocessFault`: what can stop a run.
* `SourceToken`: a token of the stream.
* `Preprocessor`: the state of a run.
* `Preprocessor.run`: the stream of a main file.
-/
namespace Bindery

/-- How deep includes may be nested. -/
def maxIncludeDepth : Nat := 64

/-- A token of the stream. -/
structure SourceToken where
  kind : TokenKind
  text : String
  origin : Origin
deriving DecidableEq, Inhabited

/-- A file that was read. -/
structure SourceFile where
  path : Path
  lines : LineIndex
deriving DecidableEq, Inhabited

/-- What stops a run. -/
inductive PreprocessFault where
  | nestedTooDeeply (path : Path)
  | unreadable (path : Path) (reason : String)
  | invalidText (text : String)
  | unterminatedConditional
  | unbalanced (directive : String)
  | malformedCondition
  | errorDirective (message : String)
  | includeNotFound (name : String)
deriving DecidableEq

/-- The words for a fault. -/
def PreprocessFault.message : PreprocessFault → String
  | nestedTooDeeply path => "#include nested too deeply at `" ++ path.text ++ "`"
  | unreadable path reason => "cannot read `" ++ path.text ++ "`: " ++ reason
  | invalidText text => "invalid character `" ++ text ++ "`"
  | unterminatedConditional => "unterminated conditional directive"
  | unbalanced directive => "#" ++ directive ++ " without #if"
  | malformedCondition => "malformed #if expression"
  | errorDirective message => "#error " ++ message
  | includeNotFound name => "'" ++ name ++ "' file not found"

/-- The state of a run. -/
structure Preprocessor where
  macros : MacroTable := {}
  files : Array SourceFile := #[]
  once : List Path := []
  conditionals : List Conditional := []
  tokens : Array SourceToken := #[]
  systemIncludes : List String := []
  diagnostics : List Diagnostic := []

/-- The location of an origin in the files read so far. -/
def locate? (files : Array SourceFile) (origin : Origin) : Option Location :=
  files[origin.file]?.map fun file => ⟨file.path.text, file.lines.position origin.offset⟩

namespace Preprocessor

/-- What a run produces: a state, or a fault with its place. -/
abbrev Outcome := Except (Located PreprocessFault) Preprocessor

/-- The innermost open group is read. -/
def isActive (s : Preprocessor) : Bool := Conditional.isActive s.conditionals

/-- Stop with a fault at a place. -/
def fail (s : Preprocessor) (origin : Option Origin) (fault : PreprocessFault) : Outcome :=
  .error ⟨fault, origin.bind (locate? s.files)⟩

/-- Note a finding at a place. -/
def warn (s : Preprocessor) (code : DiagnosticCode) (message : String) (origin : Origin) :
    Preprocessor :=
  { s with diagnostics := s.diagnostics ++ [.warning code message (locate? s.files origin)] }

/-- Append tokens that were read at one place. -/
def emit (s : Preprocessor) (pieces : List Piece) (origin : Origin) : Preprocessor :=
  { s with tokens := s.tokens ++ (pieces.map fun p => ⟨p.kind, p.text, origin⟩).toArray }

/-- Replace the innermost group, or report that there is none. -/
def updateGroup (s : Preprocessor) (directive : String) (origin : Origin)
    (f : Conditional → Except (Located PreprocessFault) Conditional) : Outcome :=
  match s.conditionals with
  | [] => s.fail origin (.unbalanced directive)
  | c :: rest => do
    let c ← f c
    return { s with conditionals := c :: rest }

/-- A directive line in parts. -/
structure DirectiveLine where
  name : Token
  /-- The tokens behind the name. -/
  after : List Token
  /-- The text behind the name, trimmed. -/
  rest : String

namespace DirectiveLine

/-- Continuation lines are joined by a blank. -/
def joinLines : List Char → List Char
  | [] => []
  | '\\' :: '\r' :: '\n' :: cs => ' ' :: joinLines cs
  | '\\' :: '\n' :: cs => ' ' :: joinLines cs
  | c :: cs => c :: joinLines cs

/-- Read a directive line; one with nothing behind the `#` is empty. -/
def parse? (text : String) : Option DirectiveLine :=
  let tokens := Token.scanFrom 0 (joinLines (text.toList.drop 1))
  match tokens.dropWhile (·.kind.isTrivia) with
  | [] => none
  | name :: after =>
    some ⟨name, after, Text.trim (String.join (after.map Token.text))⟩

/-- The tokens behind the name that carry meaning. -/
def arguments (line : DirectiveLine) : List Token := line.after.filter (!·.kind.isTrivia)

/-- The arguments as an expression. -/
def pieces (line : DirectiveLine) : List Piece := line.arguments.map fun t => ⟨t.kind, t.text⟩

/-- The first argument names a macro. -/
def namesMacro (line : DirectiveLine) (macros : MacroTable) : Bool :=
  match line.arguments with
  | t :: _ => macros.contains t.text
  | [] => false

end DirectiveLine

/-- The truth of the condition of a directive. -/
def condition (s : Preprocessor) (line : DirectiveLine) (origin : Origin) :
    Except (Located PreprocessFault) Bool :=
  match Condition.evaluate? s.macros line.pieces with
  | some value => .ok value
  | none => .error ⟨.malformedCondition, locate? s.files origin⟩

/-- Define a macro. -/
def define (s : Preprocessor) (line : DirectiveLine) (origin : Origin) : Preprocessor :=
  match line.after.dropWhile (·.kind.isTrivia) with
  | name :: body =>
    if name.kind.isWord then
      match body with
      | ⟨.lParen, _, _⟩ :: _ =>
        s.warn .functionMacro ("function-like macro `" ++ name.text ++ "` is not expanded") origin
      | _ => { s with macros := s.macros.insert name.text (MacroTable.bodyOf body) }
    else s.warn .ignoredDirective "#define without a macro name" origin
  | [] => s.warn .ignoredDirective "#define without a macro name" origin

/-- The file that an include in quotes names: beside the including file, else in the first
include directory that has it. -/
def findInclude? (sources : Sources) (includeDirs : List String) (including : Path)
    (name : String) : Option Path :=
  let candidates := including.parent?.toList ++ includeDirs.map Path.normalize
  (candidates.map (·.resolve name)).find? sources.contains

/-- Process an included file, given the place of the include. -/
abbrev Splice := Path → Option Origin → Preprocessor → Outcome

/-- Obey an include. -/
def obeyInclude (sources : Sources) (includeDirs : List String) (splice : Splice)
    (including : Path) (rest : String) (origin : Origin) (s : Preprocessor) : Outcome :=
  match rest.toList with
  | '"' :: cs =>
    let name := String.ofList (cs.takeWhile (· ≠ '"'))
    match findInclude? sources includeDirs including name with
    | some target => splice target (some origin) s
    | none => s.fail origin (.includeNotFound name)
  | '<' :: cs =>
    let name := String.ofList (Text.trimChars (cs.takeWhile (· ≠ '>')))
    if name ∈ s.systemIncludes then .ok s
    else .ok { s with systemIncludes := s.systemIncludes ++ [name] }
  | _ => .ok (s.warn .ignoredDirective ("ignored computed include `" ++ rest ++ "`") origin)

/-- Obey a directive that is not conditional. -/
def obeyPlain (sources : Sources) (includeDirs : List String) (splice : Splice)
    (path : Path) (line : DirectiveLine) (origin : Origin) (s : Preprocessor) : Outcome :=
  match line.name.text with
  | "include" | "include_next" =>
    obeyInclude sources includeDirs splice path line.rest origin s
  | "define" => .ok (s.define line origin)
  | "undef" =>
    match line.arguments with
    | target :: _ => .ok { s with macros := s.macros.erase target.text }
    | [] => .ok s
  | "pragma" =>
    match line.arguments with
    | first :: _ => if first.text = "once" then .ok { s with once := path :: s.once } else .ok s
    | [] => .ok s
  | "error" => s.fail origin (.errorDirective line.rest)
  | other => .ok (s.warn .ignoredDirective ("ignored directive `#" ++ other ++ "`") origin)

/-- Obey a directive. Conditional directives are tracked also in text that is not read. -/
def obey (sources : Sources) (includeDirs : List String) (splice : Splice)
    (path : Path) (line : DirectiveLine) (origin : Origin) (s : Preprocessor) : Outcome :=
  let directive := line.name.text
  match directive with
  | "if" => do
    let value ← if s.isActive then s.condition line origin else .ok false
    return { s with conditionals := Conditional.push value origin s.conditionals }
  | "ifdef" | "ifndef" =>
    let value := line.namesMacro s.macros = (directive = "ifdef")
    .ok { s with conditionals := Conditional.push value origin s.conditionals }
  | "elif" | "elifdef" | "elifndef" =>
    s.updateGroup directive origin fun c => do
      let value ←
        if !c.wantsCondition then .ok false
        else if directive = "elif" then s.condition line origin
        else .ok (line.namesMacro s.macros = (directive = "elifdef"))
      return c.elseIf value
  | "else" => s.updateGroup directive origin fun c => .ok c.otherwise
  | "endif" =>
    match s.conditionals with
    | [] => s.fail origin (.unbalanced directive)
    | _ :: rest => .ok { s with conditionals := rest }
  | _ => if s.isActive then obeyPlain sources includeDirs splice path line origin s else .ok s

/-- Process one token of a file. -/
def token (sources : Sources) (includeDirs : List String) (splice : Splice)
    (path : Path) (file : Nat) (t : Token) (s : Preprocessor) : Outcome :=
  let origin : Origin := ⟨file, t.offset⟩
  match t.kind with
  | .directive =>
    match DirectiveLine.parse? t.text with
    | some line => obey sources includeDirs splice path line origin s
    | none => .ok s
  | kind =>
    if !s.isActive then .ok s
    else if kind = .error then s.fail origin (.invalidText t.text)
    else if kind = .ident && s.macros.contains t.text then
      .ok (s.emit (s.macros.expand t.text) origin)
    else .ok (s.emit [⟨kind, t.text⟩] origin)

/-- Process the tokens of a file in order. -/
def tokensOf (sources : Sources) (includeDirs : List String) (splice : Splice)
    (path : Path) (file : Nat) : List Token → Preprocessor → Outcome
  | [], s => .ok s
  | t :: ts, s => do
    let s ← token sources includeDirs splice path file t s
    tokensOf sources includeDirs splice path file ts s

/-- The outermost group opened since the stack had `depth` entries. -/
def openedSince? (depth : Nat) (stack : List Conditional) : Option Conditional :=
  stack.reverse[depth]?

/-- Process a file with `depth` levels of nesting left. -/
def file (sources : Sources) (includeDirs : List String) : Nat → Splice
  | depth, path, from?, s =>
    if path ∈ s.once then .ok s
    else match depth with
      | 0 => s.fail from? (.nestedTooDeeply path)
      | depth + 1 =>
        match sources.read? path with
        | none => s.fail from? (.unreadable path (sources.missing path))
        | some text => do
          let opened := { s with files := s.files.push ⟨path, LineIndex.ofText text⟩ }
          let done ← tokensOf sources includeDirs (file sources includeDirs depth) path
            s.files.size (Token.scan text) opened
          match openedSince? s.conditionals.length done.conditionals with
          | some c => done.fail c.origin .unterminatedConditional
          | none => .ok done

/-- The stream of a main file. -/
def run (sources : Sources) (flags : Flags) (path : String) : Outcome :=
  file sources flags.includeDirs maxIncludeDepth (Path.normalize path) none
    { macros := MacroTable.ofDefines flags.defines }

end Preprocessor
end Bindery
