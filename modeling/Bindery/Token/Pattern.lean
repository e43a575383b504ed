import Bindery.Token.Kind

/-!
# Token patterns

Every kind of token is described by a pattern. A pattern is scanned from the front of the
input and answers how many characters its longest match takes, zero when it does not match;
no pattern matches the empty text. The scanner takes the longest match over all patterns.

A block comment is the one pattern that can fail late: an opener without a closer is an
error that reaches to the end of the input, see `Token.Lexer`.

## Main definitions

* `Pattern`: the patterns.
* `Pattern.scan`: the length of the longest match at the front of a text.
* `Pattern.kindOf`: the kind of token a match stands for.
-/
namespace Bindery

/-- A description of the texts of one kind of token. -/
inductive Pattern where
  | blank
  | lineComment
  | blockComment
  | directive
  | word
  | decimal
  | hexadecimal
  | pointed
  | fraction
  | exponential
  | string
  | character
  | mark (spelling : List Char) (kind : TokenKind)
deriving DecidableEq

namespace Pattern

/-- A character that separates tokens. -/
def isSpace (c : Char) : Bool := c = ' ' || c = '\t' || c = '\r' || c = '\n' || c = '\x0c'

/-- A letter or underscore. -/
def isWordStart (c : Char) : Bool := c.isAlpha || c = '_'

/-- A letter, digit or underscore. -/
def isWordChar (c : Char) : Bool := c.isAlphanum || c = '_'

/-- A decimal digit or a digit separator. -/
def isDigitOrTick (c : Char) : Bool := c.isDigit || c = '\''

/-- A hexadecimal digit or a digit separator. -/
def isHexOrTick (c : Char) : Bool :=
  c.isDigit || ('a' ≤ c && c ≤ 'f') || ('A' ≤ c && c ≤ 'F') || c = '\''

/-- A letter of an integer suffix. -/
def isIntSuffix (c : Char) : Bool :=
  c = 'u' || c = 'U' || c = 'l' || c = 'L' || c = 'z' || c = 'Z'

/-- A letter of a floating-point suffix. -/
def isFloatSuffix (c : Char) : Bool := c = 'f' || c = 'F' || c = 'l' || c = 'L'

/-- The length of the longest run of characters in a class. -/
def run (p : Char → Bool) (cs : List Char) : Nat := (cs.takeWhile p).length

/-- The characters up to and including the closer of a block comment, whose opener has
been read. -/
def commentEnd? : List Char → Option Nat
  | [] => none
  | '*' :: '/' :: _ => some 2
  | _ :: cs => (commentEnd? cs).map (· + 1)

/-- The rest of a directive line: a newline ends it unless a backslash stands before the
newline, with or without a carriage return between them. A backslash takes the next
character along; at the end of the input it stands alone. -/
def directiveBody : List Char → Nat
  | [] => 0
  | '\n' :: _ => 0
  | ['\\'] => 1
  | '\\' :: '\r' :: '\n' :: cs => 3 + directiveBody cs
  | '\\' :: _ :: cs => 2 + directiveBody cs
  | _ :: cs => 1 + directiveBody cs

/-- The characters that can stand between the quotes of a literal: anything but the quote,
a newline and a lone backslash, where a backslash takes the next character along. -/
def quotedBody (quote : Char) : List Char → Nat
  | [] => 0
  | '\\' :: c :: cs => if c = '\n' then 0 else 2 + quotedBody quote cs
  | c :: cs => if c = quote || c = '\n' || c = '\\' then 0 else 1 + quotedBody quote cs

/-- A decimal exponent: a letter, an optional sign and digits. -/
def exponent : List Char → Nat
  | e :: sign :: cs =>
    if e = 'e' || e = 'E' then
      if sign = '+' || sign = '-' then
        let digits := run Char.isDigit cs
        if digits = 0 then 0 else 2 + digits
      else
        let digits := run Char.isDigit (sign :: cs)
        if digits = 0 then 0 else 1 + digits
    else 0
  | _ => 0

/-- One optional suffix letter. -/
def floatSuffix : List Char → Nat
  | c :: _ => if isFloatSuffix c then 1 else 0
  | [] => 0

/-- The length after scanning one more piece behind the first `n` characters. -/
def andThen (n : Nat) (piece : List Char → Nat) (cs : List Char) : Nat := n + piece (cs.drop n)

/-- A literal in quotes with a body of at least `least` characters. -/
def quoted (quote : Char) (least : Nat) : List Char → Nat
  | c :: cs =>
    if c = quote then
      let body := quotedBody quote cs
      if least ≤ body && (cs.drop body).head? = some quote then body + 2 else 0
    else 0
  | [] => 0

/-- The digits in front of a number, zero when it does not start with one. -/
def leadingDigits : List Char → Nat
  | c :: cs => if c.isDigit then 1 + run isDigitOrTick cs else 0
  | [] => 0

/-- The length of the longest match of a pattern at the front of a text. -/
def scan : Pattern → List Char → Nat
  | blank, cs => run isSpace cs
  | lineComment, '/' :: '/' :: cs => 2 + run (· ≠ '\n') cs
  | blockComment, '/' :: '*' :: cs => match commentEnd? cs with
    | some n => 2 + n
    | none => 0
  | directive, '#' :: cs => 1 + directiveBody cs
  | word, c :: cs => if isWordStart c then 1 + run isWordChar cs else 0
  | decimal, cs =>
    let n := leadingDigits cs
    if n = 0 then 0 else andThen n (run isIntSuffix) cs
  | hexadecimal, '0' :: x :: cs =>
    if x = 'x' || x = 'X' then
      let n := run isHexOrTick cs
      if n = 0 then 0 else 2 + andThen n (run isIntSuffix) cs
    else 0
  | pointed, cs =>
    let n := leadingDigits cs
    if n = 0 || (cs.drop n).head? ≠ some '.' then 0
    else
      let m := andThen (n + 1) (run isDigitOrTick) cs
      andThen (andThen m exponent cs) floatSuffix cs
  | fraction, '.' :: cs =>
    let n := leadingDigits cs
    if n = 0 then 0 else 1 + andThen (andThen n exponent cs) floatSuffix cs
  | exponential, cs =>
    let n := leadingDigits cs
    let e := exponent (cs.drop n)
    if n = 0 || e = 0 then 0 else andThen (n + e) floatSuffix cs
  | string, cs => quoted '"' 0 cs
  | character, cs => quoted '\'' 1 cs
  | mark spelling _, cs => if spelling.isPrefixOf cs then spelling.length else 0
  | _, _ => 0

/-- The kind of token a matched text stands for. A reserved word is not an identifier. -/
def kindOf (lexeme : List Char) : Pattern → TokenKind
  | blank => .blank
  | lineComment => .lineComment
  | blockComment => .blockComment
  | directive => .directive
  | word =>
    ((TokenKind.keywords.find? fun k => k.1.toList = lexeme).map Prod.snd).getD .ident
  | decimal | hexadecimal => .intNumber
  | pointed | fraction | exponential => .floatNumber
  | string => .string
  | character => .char
  | mark _ kind => kind

/-- All patterns. -/
def all : List Pattern :=
  [blank, lineComment, blockComment, directive, word, decimal, hexadecimal, pointed, fraction,
   exponential, string, character] ++ TokenKind.marks.map fun m => mark m.1.toList m.2

end Pattern
end Bindery
