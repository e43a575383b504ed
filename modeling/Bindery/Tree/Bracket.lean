import Bindery.Tree.Basic

/-!
# Runs of balanced brackets

Function bodies, initialisers and everything that is not modelled are kept as runs of
tokens. Where such a run ends is decided by the brackets in it. Both scans cut the tokens
into the run and the rest; trivia in front of the end of a run stays with the rest.

## Main definitions

* `Bracket.group`: a bracketed group with its closer.
* `Bracket.upTo`: the tokens up to a stop outside all brackets.
-/
namespace Bindery.Bracket

/-- The closer of an opening bracket. -/
def closer : TokenKind → TokenKind
  | .lParen => .rParen
  | .lBracket => .rBracket
  | _ => .rBrace

/-- An opening parenthesis, bracket or brace. -/
def isOpener : TokenKind → Bool
  | .lParen | .lBracket | .lBrace => true
  | _ => false

/-- A closing parenthesis, bracket or brace. -/
def isCloser : TokenKind → Bool
  | .rParen | .rBracket | .rBrace => true
  | _ => false

/-- How a group ends. -/
inductive GroupEnd where
  | closed
  | mismatched
  | unterminated
deriving DecidableEq

/-- A run of tokens and what follows it. -/
structure Cut where
  run : List SourceToken
  rest : List SourceToken

namespace Cut

/-- The run goes on with one more token in front. -/
def cons (t : SourceToken) (cut : Cut) : Cut := ⟨t :: cut.run, cut.rest⟩

/-- A trivia token in front belongs to the run only when the run goes on behind it. -/
def consTrivia (t : SourceToken) (cut : Cut) : Cut :=
  match cut.run with
  | [] => ⟨[], t :: cut.rest⟩
  | _ => cut.cons t

/-- The run is empty. -/
def stop (ts : List SourceToken) : Cut := ⟨[], ts⟩

@[simp] theorem run_append_rest_cons (t : SourceToken) (cut : Cut) :
    (cut.cons t).run ++ (cut.cons t).rest = t :: (cut.run ++ cut.rest) := rfl

@[simp] theorem run_append_rest_consTrivia (t : SourceToken) (cut : Cut) :
    (cut.consTrivia t).run ++ (cut.consTrivia t).rest = t :: (cut.run ++ cut.rest) := by
  unfold consTrivia
  split <;> simp_all

@[simp] theorem run_append_rest_stop (ts : List SourceToken) :
    (stop ts).run ++ (stop ts).rest = ts := rfl

end Cut

/-- The group at the front, given the closers that are still open. Without any, a single
token is the group. -/
def group (stack : List TokenKind) : List SourceToken → Cut × GroupEnd
  | [] => (Cut.stop [], .unterminated)
  | t :: ts =>
    if t.kind.isTrivia then
      let inner := group stack ts
      (inner.1.consTrivia t, inner.2)
    else if isOpener t.kind then
      let inner := group (closer t.kind :: stack) ts
      (inner.1.cons t, inner.2)
    else if isCloser t.kind then
      match stack with
      | [] => (Cut.stop (t :: ts), .mismatched)
      | c :: stack =>
        if c ≠ t.kind then (Cut.stop (t :: ts), .mismatched)
        else if stack = [] then (⟨[t], ts⟩, .closed)
        else
          let inner := group stack ts
          (inner.1.cons t, inner.2)
    else if stack = [] then (⟨[t], ts⟩, .closed)
    else
      let inner := group stack ts
      (inner.1.cons t, inner.2)

/-- Angle brackets that turned out to be comparisons are dropped. -/
def forgetAngles (stack : List TokenKind) : List TokenKind := stack.dropWhile (· = .rAngle)

/-- The closers that are open behind a token, none when the run ends before it. With
`angles`, a `<` directly behind a name or a `>` opens a list of template arguments. -/
def afterToken? (angles : Bool) (last : TokenKind) (stack : List TokenKind) (kind : TokenKind) :
    Option (List TokenKind) :=
  match kind with
  | .lParen | .lBracket => some (closer kind :: stack)
  | .lBrace => some (.rBrace :: forgetAngles stack)
  | .lAngle =>
    if angles && (last = .ident || last = .rAngle) then some (.rAngle :: stack) else some stack
  | .rAngle => if stack.head? = some .rAngle then some stack.tail else some stack
  | .rParen | .rBracket | .rBrace =>
    let stack := forgetAngles stack
    if stack.head? = some kind then some stack.tail else none
  | .semicolon =>
    let stack := forgetAngles stack
    if stack = [] then none else some stack
  | _ => some stack

/-- The tokens up to one of `stops` outside all brackets. The run also ends at a `;` outside
all brackets, at a closer without an opener and at the end of the tokens. -/
def upTo (stops : List TokenKind) (angles : Bool) (last : TokenKind) (stack : List TokenKind) :
    List SourceToken → Cut
  | [] => Cut.stop []
  | t :: ts =>
    if t.kind.isTrivia then (upTo stops angles last stack ts).consTrivia t
    else if stack = [] && stops.contains t.kind then Cut.stop (t :: ts)
    else match afterToken? angles last stack t.kind with
      | none => Cut.stop (t :: ts)
      | some stack => (upTo stops angles t.kind stack ts).cons t

/-- Nothing is lost by cutting off a group. -/
theorem group_append (stack : List TokenKind) (ts : List SourceToken) :
    (group stack ts).1.run ++ (group stack ts).1.rest = ts := by
  induction ts generalizing stack with
  | nil => simp [group]
  | cons t ts ih =>
    unfold group
    repeat' split
    all_goals simp_all

/-- Nothing is lost by cutting off a run. -/
theorem upTo_append (stops : List TokenKind) (angles : Bool) (last : TokenKind)
    (stack : List TokenKind) (ts : List SourceToken) :
    (upTo stops angles last stack ts).run ++ (upTo stops angles last stack ts).rest = ts := by
  induction ts generalizing last stack with
  | nil => simp [upTo]
  | cons t ts ih =>
    unfold upTo
    repeat' split
    all_goals simp_all

end Bindery.Bracket
