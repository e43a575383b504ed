import Bindery.Tree.Parser

/-!
# Types, functions and variables

The part of the grammar that does not nest declarations: types, names, parameter lists,
initialisers, and the members made of them. A member starts with its specifiers and its
type; what follows decides whether it is a function, a field or something that is skipped.

## Main definitions

* `Grammar.type`: a type, or nothing when the next token cannot start one.
* `Grammar.functionRest`, `Grammar.fieldRest`: what follows the name of a member.
* `Grammar.member`: a function, constructor, destructor, operator, field or variable.
-/
namespace Bindery.Grammar
open Bindery.Parser

/-- Words that combine into fundamental types. -/
def fundamentalWords : List String :=
  ["void", "bool", "char", "wchar_t", "char8_t", "char16_t", "char32_t", "short", "int", "long",
   "signed", "unsigned", "float", "double", "auto"]

/-- Specifiers that are not reserved words. -/
def specifierWords : List String := ["consteval", "constinit", "thread_local"]

/-- A simple name. -/
def simpleName : Parser Unit := node .name advance

/-- The template arguments behind a segment of a type name. Answers whether another segment
follows. -/
def segmentEnd : Parser Bool := do
  if ← sees .lAngle then takeAngles
  if (← sees .colonColon) && (← kindAhead 1) ≠ .star then
    advance
    let _ ← accept .templateKw
    return true
  return false

/-- The segments of a qualified type name. -/
def qualifiedTypeName : Parser Unit := do
  let _ ← accept .colonColon
  loop do
    if (← nextText) = "decltype" && (← kindAhead 1) = .lParen then
      advance
      takeGroup
      segmentEnd
    else if ← accept .ident then segmentEnd
    else
      missing "name"
      return false

/-- The next token can stand in front of the name of a type. -/
def seesTypeLead : Parser Bool := do
  let kind ← nextKind
  return [.constKw, .volatileKw, .typenameKw, .enumKw].contains kind || kind.isClassKey

/-- A type. Nothing is moved when the next token cannot start one. -/
def type : Parser Bool := do
  let kind ← nextKind
  if kind = .ident || kind = .colonColon || (← seesTypeLead) then
    node .type do
      advanceWhile seesTypeLead
      if ← seesWord fundamentalWords then
        advanceWhile do return (← seesWord fundamentalWords) || (← seesAny [.constKw, .volatileKw])
      else if ← seesAny [.ident, .colonColon] then qualifiedTypeName
      else missing "type name"
      advanceWhile (seesAny [.constKw, .volatileKw, .star, .amp, .ampAmp])
    return true
  else return false

/-- A type that has to be there. -/
def expectType (what : String) : Parser Unit := do
  unless ← type do missing what

/-- An initialiser behind `=`, up to a stop. -/
def initializer (stops : List TokenKind) (angles : Bool) : Parser Unit :=
  node .initializer do
    advance
    takeUpTo stops angles

/-- A run of tokens that is not modelled. -/
def skippedRun (stops : List TokenKind) (angles : Bool) : Parser Unit :=
  node .skipped (takeUpTo stops angles)

/-- An array extent in brackets. -/
def arraySuffix : Parser Unit := node .arraySuffix do
  advance
  takeUpTo [.rBracket] false
  let _ ← expect .rBracket "`]`"

/-- Any number of array extents. -/
def arraySuffixes : Parser Unit := loop do
  if ← sees .lBracket then
    arraySuffix
    return true
  else return false

/-- An initialiser of a field, if there is one. -/
def fieldInitializer : Parser Unit := do
  match ← nextKind with
  | .eq => initializer [.semicolon, .comma] true
  | .lBrace => node .initializer takeGroup
  | _ => pure ()

/-- A parameter. -/
def param : Parser Unit := node .param do
  if ← accept .ellipsis then return
  if ← type then
    let _ ← accept .ellipsis
    if ← sees .ident then simpleName
    arraySuffixes
  if ← sees .eq then initializer [.comma, .rParen] true
  unless (← seesAny [.comma, .rParen]) || (← atEnd) do skippedRun [.comma, .rParen] true

/-- A list of parameters in parentheses. -/
def paramList : Parser Unit := node .paramList do
  if ← expect .lParen "`(`" then
    loop do
      if (← sees .rParen) || (← atEnd) then return false
      param
      accept .comma
    let _ ← expect .rParen "`)` to close parameter list"

/-- The initialisers of a constructor. A brace behind a name or a `>` belongs to them, any
other one opens the body. -/
def ctorInit : Parser Unit := node .ctorInit do
  advance
  loop do
    if ← atEnd then return false
    match ← nextKind with
    | .lBrace =>
      let last := (← get).last
      if last = .ident || last = .rAngle then
        takeGroup
        return true
      else return false
    | .semicolon | .rBrace => return false
    | .lParen | .lBracket => takeGroup; return true
    | _ => advance; return true

/-- The qualifiers behind a parameter list. -/
def functionQualifiers : Parser Unit := loop do
  match ← nextKind with
  | .constKw | .volatileKw | .amp | .ampAmp => advance; return true
  | .noexceptKw =>
    advance
    if ← sees .lParen then takeGroup
    return true
  | .ident =>
    if ← seesWord ["override", "final"] then
      advance
      return true
    else if ← seesWord ["throw"] then
      advance
      if ← sees .lParen then takeGroup
      return true
    else return false
  | .arrow =>
    advance
    expectType "trailing return type"
    return true
  | _ => return false

/-- What follows the name of a function. -/
def functionRest : Parser Unit := do
  paramList
  functionQualifiers
  if ← sees .eq then initializer [.semicolon] false
  if ← sees .colon then ctorInit
  if ← sees .lBrace then node .body takeGroup
  else if ← sees .semicolon then advance
  else if ← atEnd then missing "`;` or function body"
  else
    -- Declarators that are not modelled, such as pointers to functions.
    skippedRun [.semicolon] false
    let _ ← expect .semicolon "`;`"

/-- A further declarator of a field. -/
def declarator : Parser Unit := node .declarator do
  advanceWhile (seesAny [.star, .amp, .ampAmp, .constKw])
  if ← sees .ident then simpleName else missing "declarator name"
  arraySuffixes
  fieldInitializer

/-- What follows the name of a field. -/
def fieldRest : Parser Unit := do
  arraySuffixes
  if ← sees .colon then
    advance
    takeUpTo [.semicolon, .comma, .eq, .lBrace] false
  fieldInitializer
  loop do
    if ← accept .comma then
      declarator
      return true
    else return false
  unless ← accept .semicolon do
    missing "`;` after declaration"
    takeUpTo [.semicolon] false
    let _ ← accept .semicolon

/-- The tokens of an operator's name. -/
def operatorTokens : Parser Unit := do
  advance
  if ← seesPair .lParen .rParen then
    advance
    advance
  else advanceWhile do return !(← atEnd) && !(← seesAny [.lParen, .semicolon])

/-- The name of an operator. -/
def operatorName : Parser Unit := node .name operatorTokens

/-- The group in angle brackets in front is followed by `::`. -/
def scopeBehindAngles (depth : Nat) : List SourceToken → Bool
  | [] => false
  | t :: ts =>
    match t.kind with
    | .lAngle => scopeBehindAngles (depth + 1) ts
    | .rAngle =>
      if depth ≤ 1 then (ts.head?.map (·.kind)) = some .colonColon
      else scopeBehindAngles (depth - 1) ts
    | .semicolon | .lBrace => false
    | _ => scopeBehindAngles depth ts

/-- An operator follows a `::`. -/
def seesScopedOperator : Parser Bool := do
  return (← get).last = .colonColon && (← sees .operatorKw)

/-- The name of a declarator, which may be qualified. Template arguments between segments
belong to the name, those at its end do not. Answers whether the name is an operator. -/
def declaratorName : Parser Bool := node .name do
  let _ ← accept .colonColon
  loop do
    if ← seesScopedOperator then return false
    let _ ← accept .tilde
    unless ← accept .ident do
      missing "name"
      return false
    if (← sees .lAngle) && scopeBehindAngles 0 (← wordsAhead) then takeAngles
    accept .colonColon
  if ← seesScopedOperator then
    operatorTokens
    return true
  else return false

/-- A list of template arguments. -/
def templateArgs : Parser Unit := node .templateArgs do
  advance
  loop do
    if (← sees .rAngle) || (← atEnd) then return false
    node .templateArg (takeUpTo [.comma, .rAngle] true)
    accept .comma
  let _ ← expect .rAngle "`>` to close template arguments"

/-- The specifiers and attributes in front of a member. -/
def specifiers : Parser Unit := loop do
  if (← seesAny [.staticKw, .inlineKw, .virtualKw, .explicitKw, .constexprKw, .externKw,
      .mutableKw]) || (← seesWord specifierWords) then
    advance
    return true
  else if ← seesPair .lBracket .lBracket then
    takeGroup
    return true
  else return false

/-- The name of a member and what follows it, and the kind of node they form. -/
def namedMember : Parser NodeKind := do
  let isOperator ← declaratorName
  if !isOperator && (← sees .lAngle) then templateArgs
  if ← sees .lParen then
    functionRest
    return .function
  else
    fieldRest
    return .field

/-- The parts of a member, and the kind of node they form; none when nothing was moved. -/
def memberParts : Parser (Option NodeKind) := do
  let start ← remaining
  specifiers
  if ← sees .tilde then
    node .name do
      advance
      let _ ← expect .ident "destructor name"
    functionRest
    return some .function
  if ← sees .operatorKw then
    operatorName
    functionRest
    return some .function
  unless ← type do
    if (← remaining) = start then return none
    let _ ← accept .semicolon
    return some .skipped
  match ← nextKind with
  | .lParen =>
    -- The type is the name of the entity.
    functionRest
    return some .function
  | .operatorKw =>
    operatorName
    functionRest
    return some .function
  | .ident | .colonColon => return some (← namedMember)
  | _ =>
    let _ ← accept .semicolon
    return some .skipped

/-- A function, constructor, destructor, operator, field or variable. -/
def member : Parser Unit := do
  passTrivia
  let (kind, trees) ← collect memberParts
  match kind with
  | some kind => emit [.node kind trees]
  | none => emit trees

end Bindery.Grammar
