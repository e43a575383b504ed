/-!
# Kinds of tokens

The kinds that the scanner tells apart, grouped as trivia, literals, punctuation and
keywords. `error` is the kind of text that no pattern accepts.

## Main definitions

* `TokenKind`: the kinds.
* `TokenKind.isTrivia`, `isKeyword`, `isPunct`, `isLiteral`, `isWord`, `isClassKey`, `isAccess`.
* `TokenKind.label`: the name of a kind in listings of tokens and trees.
-/
namespace Bindery

/-- What a token is. -/
inductive TokenKind where
  | blank | lineComment | blockComment | directive
  | ident | intNumber | floatNumber | string | char
  | lBrace | rBrace | lParen | rParen | lBracket | rBracket | lAngle | rAngle
  | semicolon | colon | colonColon | comma | eq | star | amp | ampAmp | tilde | dot
  | arrow | ellipsis | plus | minus | slash | percent | bang | question | pipe | caret
  | classKw | structKw | unionKw | enumKw | namespaceKw | templateKw | typenameKw
  | publicKw | protectedKw | privateKw | virtualKw | staticKw | constKw | constexprKw
  | volatileKw | inlineKw | explicitKw | externKw | friendKw | mutableKw | usingKw
  | typedefKw | operatorKw | noexceptKw | staticAssertKw
  | error
deriving DecidableEq, Inhabited

namespace TokenKind

/-- The reserved words and their kinds. -/
def keywords : List (String × TokenKind) :=
  [("class", classKw), ("struct", structKw), ("union", unionKw), ("enum", enumKw),
   ("namespace", namespaceKw), ("template", templateKw), ("typename", typenameKw),
   ("public", publicKw), ("protected", protectedKw), ("private", privateKw),
   ("virtual", virtualKw), ("static", staticKw), ("const", constKw),
   ("constexpr", constexprKw), ("volatile", volatileKw), ("inline", inlineKw),
   ("explicit", explicitKw), ("extern", externKw), ("friend", friendKw),
   ("mutable", mutableKw), ("using", usingKw), ("typedef", typedefKw),
   ("operator", operatorKw), ("noexcept", noexceptKw), ("static_assert", staticAssertKw)]

/-- The punctuation marks and their kinds. -/
def marks : List (String × TokenKind) :=
  [("::", colonColon), ("&&", ampAmp), ("->", arrow), ("...", ellipsis),
   ("\x7b", lBrace), ("\x7d", rBrace), ("(", lParen), (")", rParen), ("[", lBracket),
   ("]", rBracket), ("<", lAngle), (">", rAngle), (";", semicolon), (":", colon),
   (",", comma), ("=", eq), ("*", star), ("&", amp), ("~", tilde), (".", dot), ("+", plus),
   ("-", minus), ("/", slash), ("%", percent), ("!", bang), ("?", question), ("|", pipe),
   ("^", caret)]

/-- Blanks, comments and directive lines carry no meaning for declarations. -/
def isTrivia : TokenKind → Bool
  | blank | lineComment | blockComment | directive => true
  | _ => false

/-- The kind of a reserved word. -/
def isKeyword (k : TokenKind) : Bool := keywords.any (·.2 = k)

/-- The kind of a punctuation mark. -/
def isPunct (k : TokenKind) : Bool := marks.any (·.2 = k)

/-- Identifiers, numbers, strings and characters. -/
def isLiteral : TokenKind → Bool
  | ident | intNumber | floatNumber | string | char => true
  | _ => false

/-- Identifiers and reserved words. -/
def isWord (k : TokenKind) : Bool := k = ident || k.isKeyword

/-- The words that introduce a class. -/
def isClassKey : TokenKind → Bool
  | classKw | structKw | unionKw => true
  | _ => false

/-- The words that set the access of members. -/
def isAccess : TokenKind → Bool
  | publicKw | protectedKw | privateKw => true
  | _ => false

/-- The name of a kind in listings. -/
def label : TokenKind → String
  | blank => "WHITESPACE" | lineComment => "LINE_COMMENT" | blockComment => "BLOCK_COMMENT"
  | directive => "DIRECTIVE" | ident => "IDENT" | intNumber => "INT_NUMBER"
  | floatNumber => "FLOAT_NUMBER" | string => "STRING" | char => "CHAR" | lBrace => "L_BRACE"
  | rBrace => "R_BRACE" | lParen => "L_PAREN" | rParen => "R_PAREN" | lBracket => "L_BRACKET"
  | rBracket => "R_BRACKET" | lAngle => "L_ANGLE" | rAngle => "R_ANGLE"
  | semicolon => "SEMICOLON" | colon => "COLON" | colonColon => "COLON_COLON"
  | comma => "COMMA" | eq => "EQ" | star => "STAR" | amp => "AMP" | ampAmp => "AMP_AMP"
  | tilde => "TILDE" | dot => "DOT" | arrow => "ARROW" | ellipsis => "ELLIPSIS"
  | plus => "PLUS" | minus => "MINUS" | slash => "SLASH" | percent => "PERCENT"
  | bang => "BANG" | question => "QUESTION" | pipe => "PIPE" | caret => "CARET"
  | classKw => "CLASS_KW" | structKw => "STRUCT_KW" | unionKw => "UNION_KW"
  | enumKw => "ENUM_KW" | namespaceKw => "NAMESPACE_KW" | templateKw => "TEMPLATE_KW"
  | typenameKw => "TYPENAME_KW" | publicKw => "PUBLIC_KW" | protectedKw => "PROTECTED_KW"
  | privateKw => "PRIVATE_KW" | virtualKw => "VIRTUAL_KW" | staticKw => "STATIC_KW"
  | constKw => "CONST_KW" | constexprKw => "CONSTEXPR_KW" | volatileKw => "VOLATILE_KW"
  | inlineKw => "INLINE_KW" | explicitKw => "EXPLICIT_KW" | externKw => "EXTERN_KW"
  | friendKw => "FRIEND_KW" | mutableKw => "MUTABLE_KW" | usingKw => "USING_KW"
  | typedefKw => "TYPEDEF_KW" | operatorKw => "OPERATOR_KW" | noexceptKw => "NOEXCEPT_KW"
  | staticAssertKw => "STATIC_ASSERT_KW" | error => "ERROR"

/-- No kind is both a reserved word and a mark. -/
theorem isPunct_eq_false_of_isKeyword (k : TokenKind) (h : k.isKeyword = true) :
    k.isPunct = false := by
  cases k <;> first | rfl | cases h

end TokenKind
end Bindery
