import Bindery.Position
import Bindery.Token.Pattern

/-!
# Scanning tokens

A text is cut into tokens from the front: at each place the longest match over all patterns
is taken, and where none matches an `error` token covers the text that cannot be read. Every
token is non-empty, so the scan ends, and nothing is dropped, so the texts of the tokens
concatenate to the input.

## Main definitions

* `Token`: a kind, a text and the offset of the text.
* `Token.next`: kind and length of the token at the front of a text.
* `Token.scan`: all tokens of a text.
-/
namespace Bindery

/-- A piece of a text. -/
structure Token where
  kind : TokenKind
  text : String
  offset : Nat
deriving DecidableEq, Inhabited

namespace Token

/-- The first of the longest matches at the front of a text, none when nothing matches. -/
def longest (cs : List Char) : List Pattern → Option (Pattern × Nat)
  | [] => none
  | p :: ps =>
    match p.scan cs, longest cs ps with
    | 0, best => best
    | n + 1, none => some (p, n + 1)
    | n + 1, some (q, m) => if n + 1 < m then some (q, m) else some (p, n + 1)

theorem longest_pos {cs : List Char} {ps : List Pattern} {p : Pattern} {n : Nat}
    (h : longest cs ps = some (p, n)) : 0 < n := by
  induction ps generalizing p n with
  | nil => simp [longest] at h
  | cons q qs ih =>
    unfold longest at h
    split at h
    · exact ih h
    · grind
    · split at h <;> grind

/-- A block comment is opened and never closed. -/
def opensComment : List Char → Bool
  | '/' :: '*' :: cs => (Pattern.commentEnd? cs).isNone
  | _ => false

/-- How much text an `error` token covers: an unclosed literal as far as it could have gone
on, else one character. -/
def errorLength : List Char → Nat
  | c :: cs => if c = '"' || c = '\'' then 1 + Pattern.quotedBody c cs else 1
  | [] => 0

/-- Kind and length of the token at the front of a text. -/
def next (cs : List Char) : TokenKind × Nat :=
  if opensComment cs then (.error, cs.length)
  else match longest cs Pattern.all with
    | some (p, n) => (p.kindOf (cs.take n), n)
    | none => (.error, errorLength cs)

/-- A token is never empty. -/
theorem next_pos (c : Char) (cs : List Char) : 0 < (next (c :: cs)).2 := by
  unfold next
  split
  · simp
  · split
    · rename_i h
      exact longest_pos h
    · simp only [errorLength]
      split <;> omega

/-- The tokens of a text that starts at `offset`. -/
def scanFrom (offset : Nat) : List Char → List Token
  | [] => []
  | c :: cs =>
    let step := next (c :: cs)
    let lexeme := (c :: cs).take step.2
    ⟨step.1, String.ofList lexeme, offset⟩ ::
      scanFrom (offset + byteLength lexeme) ((c :: cs).drop step.2)
termination_by cs => cs.length
decreasing_by
  have := next_pos c cs
  simp only [List.length_drop, List.length_cons]
  omega

/-- The tokens of a text. -/
def scan (text : String) : List Token := scanFrom 0 text.toList

/-- The tokens of a text that carry meaning. -/
def scanWords (text : String) : List Token := (scan text).filter (!·.kind.isTrivia)

@[simp] theorem scanFrom_nil (offset : Nat) : scanFrom offset [] = [] := by simp [scanFrom]

end Token
end Bindery
