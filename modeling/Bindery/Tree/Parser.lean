import Bindery.Tree.Bracket

/-!
# Building trees

A parser moves tokens from the rest of the stream to the children of the node that is being
built. Tokens are only ever moved, so whatever the grammar does, the leaves built so far
followed by the rest are the tokens of the stream. Faults are recorded and parsing goes on.

Lookahead skips trivia; past the end it sees the kind `error`.

Repetition and nesting are bounded by the number of tokens left. A loop that asks for another
round without having moved anything, and a nesting that runs into its bound, would go on
forever if they were not cut off; such a state is marked as stalled.

## Main definitions

* `SyntaxFault`, `SyntaxError`: what was wrong, and where.
* `ParseState`: the rest of the stream, the children built so far and the faults.
* `Parser`: a step on states.
* `Parser.node`, `Parser.collect`: building a node from what a parser moves.
* `Parser.loop`: repeating a parser for as long as it asks for more and moves on.
* `Parser.stall`: the mark of a loop or a nesting that was cut off.
-/
namespace Bindery
universe u

/-- What is wrong with the tokens. -/
inductive SyntaxFault where
  | expected (what : String)
  | unmatchedBrace
  | mismatchedCloser
  | unterminatedGroup
deriving DecidableEq

/-- The words for a fault. -/
def SyntaxFault.message : SyntaxFault → String
  | expected what => "expected " ++ what
  | unmatchedBrace => "unmatched `\x7d`"
  | mismatchedCloser => "mismatched closing bracket"
  | unterminatedGroup => "unexpected end of file inside a bracketed group"

/-- A fault and the origin of the token it was found at. -/
structure SyntaxError where
  fault : SyntaxFault
  origin : Option Origin
deriving DecidableEq

/-- The state of parsing. -/
structure ParseState where
  /-- The tokens that have not been moved. -/
  rest : List SourceToken
  /-- The children of the node being built, newest first. -/
  built : List Tree := []
  /-- The kind of the last token moved that carries meaning. -/
  last : TokenKind := .blank
  /-- The faults found, newest first. -/
  errors : List SyntaxError := []
  /-- The origin of the last token of the stream, where faults at its end are reported. -/
  final : Option Origin := none
  /-- A loop or a nesting was cut off because it did not move on. -/
  stalled : Bool := false

/-- A step on states that yields a value. -/
abbrev Parser := StateM ParseState

/-- The `n`-th token ahead that carries meaning. -/
def nthWord? : Nat → List SourceToken → Option SourceToken
  | _, [] => none
  | n, t :: ts =>
    if t.kind.isTrivia then nthWord? n ts
    else match n with
      | 0 => some t
      | n + 1 => nthWord? n ts

/-- The kind of the last token that carries meaning, or a given kind when there is none. -/
def lastWord (kind : TokenKind) (ts : List SourceToken) : TokenKind :=
  ts.foldl (fun kind t => if t.kind.isTrivia then kind else t.kind) kind

namespace ParseState

/-- Move a run of tokens to the children. -/
def move (s : ParseState) (cut : Bracket.Cut) : ParseState :=
  { s with
    rest := cut.rest
    built := (cut.run.map Tree.leaf).reverse ++ s.built
    last := lastWord s.last cut.run }

/-- All leaves of the state from left to right: those built and those to come. -/
def tokens (s : ParseState) : List SourceToken := Tree.leavesOf s.built.reverse ++ s.rest

/-- Moving tokens loses none. -/
theorem tokens_move (s : ParseState) (cut : Bracket.Cut) (h : cut.run ++ cut.rest = s.rest) :
    (s.move cut).tokens = s.tokens := by
  simp [tokens, move, ← h]

end ParseState

namespace Parser

/-! ## Lookahead -/

/-- The `n`-th token ahead. -/
def ahead? (n : Nat) : Parser (Option SourceToken) := do return nthWord? n (← get).rest

/-- The kind of the `n`-th token ahead. -/
def kindAhead (n : Nat) : Parser TokenKind := do return ((← ahead? n).map (·.kind)).getD .error

/-- The kind of the next token. -/
def nextKind : Parser TokenKind := kindAhead 0

/-- The text of the next token. -/
def nextText : Parser String := do return ((← ahead? 0).map (·.text)).getD ""

/-- The next token is of a kind. -/
def sees (kind : TokenKind) : Parser Bool := do return (← nextKind) = kind

/-- The next token is of one of several kinds. -/
def seesAny (kinds : List TokenKind) : Parser Bool := do return kinds.contains (← nextKind)

/-- The next tokens are of two given kinds. -/
def seesPair (first second : TokenKind) : Parser Bool := do
  return (← nextKind) = first && (← kindAhead 1) = second

/-- The next token is one of several identifiers. -/
def seesWord (words : List String) : Parser Bool := do
  return (← nextKind) = .ident && words.contains (← nextText)

/-- No token that carries meaning is left. -/
def atEnd : Parser Bool := do return (← ahead? 0).isNone

/-- The tokens ahead that carry meaning. -/
def wordsAhead : Parser (List SourceToken) := do
  return (← get).rest.filter (!·.kind.isTrivia)

/-- How many tokens have not been moved. -/
def remaining : Parser Nat := do return (← get).rest.length

/-! ## Moving tokens -/

/-- Move the trivia ahead. -/
def passTrivia : Parser Unit := modify fun s =>
  s.move ⟨s.rest.takeWhile (·.kind.isTrivia), s.rest.dropWhile (·.kind.isTrivia)⟩

/-- Move one token, trivia or not. -/
def moveOne : Parser Unit := modify fun s => s.move ⟨s.rest.take 1, s.rest.drop 1⟩

/-- Move the next token with the trivia in front of it. -/
def advance : Parser Unit := do
  passTrivia
  moveOne

/-- Move the next token when it is of a kind. -/
def accept (kind : TokenKind) : Parser Bool := do
  if ← sees kind then
    advance
    return true
  else return false

/-! ## Faults -/

/-- Record a fault at the next token. -/
def fault (f : SyntaxFault) : Parser Unit := modify fun s =>
  let origin := ((nthWord? 0 s.rest).map (·.origin)).or s.final
  { s with errors := ⟨f, origin⟩ :: s.errors }

/-- Record that something else was expected. -/
def missing (what : String) : Parser Unit := fault (.expected what)

/-- Move the next token when it is of a kind, else record what was expected. -/
def expect (kind : TokenKind) (what : String) : Parser Bool := do
  if ← accept kind then return true
  else
    missing what
    return false

/-! ## Runs -/

/-- Move a bracketed group with its closer. -/
def takeGroup : Parser Unit := do
  let (cut, how) := Bracket.group [] (← get).rest
  modify (·.move cut)
  match how with
  | .closed => pure ()
  | .mismatched => fault .mismatchedCloser
  | .unterminated => fault .unterminatedGroup

/-- Move the tokens up to a stop outside all brackets. -/
def takeUpTo (stops : List TokenKind) (angles : Bool) : Parser Unit := modify fun s =>
  s.move (Bracket.upTo stops angles s.last [] s.rest)

/-- Move a group in angle brackets with its closer. -/
def takeAngles : Parser Unit := do
  advance
  takeUpTo [.rAngle] true
  let _ ← expect .rAngle "`>`"

/-! ## Nodes -/

/-- Run a parser on an empty list of children, and hand over what it built. -/
def collect {α : Type} (p : Parser α) : Parser (α × List Tree) := fun s =>
  let (a, s') := p { s with built := [] }
  ((a, s'.built.reverse), { s' with built := s.built })

/-- Append children. -/
def emit (trees : List Tree) : Parser Unit := modify fun s =>
  { s with built := trees.reverse ++ s.built }

/-- A node of what a parser builds, starting with the trivia ahead. -/
def nodeHere {α : Type} (kind : NodeKind) (p : Parser α) : Parser α := do
  let (a, trees) ← collect p
  emit [.node kind trees]
  return a

/-- A node of what a parser builds, starting behind the trivia ahead. -/
def node {α : Type} (kind : NodeKind) (p : Parser α) : Parser α := do
  passTrivia
  nodeHere kind p

/-! ## Repetition -/

/-- Mark that a loop or a nesting was cut off. -/
def stall : Parser Unit := modify fun s => { s with stalled := true }

/-- Repeat a step from a state for as long as it asks for more. A step that asks for more
and moves nothing is not repeated. -/
def loopFrom (step : Parser Bool) (s : ParseState) : ParseState :=
  let r := step s
  if r.1 = true then
    if _h : r.2.rest.length < s.rest.length then loopFrom step r.2
    else { r.2 with stalled := true }
  else r.2
termination_by s.rest.length

/-- Repeat a step for as long as it asks for more. -/
def loop (step : Parser Bool) : Parser Unit := modify (loopFrom step)

/-- Move tokens while the next one passes a test. -/
def advanceWhile (test : Parser Bool) : Parser Unit := loop do
  if ← test then
    advance
    return true
  else return false

/-- Run a parser that nests, with the number of tokens left as the bound of its nesting. -/
def nested (p : Nat → Parser Unit) : Parser Unit := do p ((← remaining) + 1)

/-- Record a fault and give up on the tokens up to the end of the statement, at least one. -/
def recover (f : SyntaxFault) : Parser Unit := do
  fault f
  node .error do
    let start ← remaining
    takeUpTo [.semicolon, .rBrace] false
    let _ ← accept .semicolon
    if (← remaining) = start then advance

end Parser
end Bindery
