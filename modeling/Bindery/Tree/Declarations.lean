import Bindery.Tree.Members

/-!
# Declarations

Declarations nest: namespaces, linkage blocks, templates and classes hold declarations in
turn. The grammar of what holds declarations takes the grammar of declarations as a
parameter, and `Grammar.declaration` ties the knot by the depth of nesting. Each level of
nesting moves at least one token first, so a depth above the number of tokens left is never
used up; a parser that did use it up would stall.

## Main definitions

* `Grammar.declaration`: a declaration at namespace or class scope.
* `SyntaxTree`: a tree with the faults found on the way.
* `SyntaxTree.finalState`: the state behind a stream of tokens.
* `SyntaxTree.parse`: the tree of a stream of tokens.
-/
namespace Bindery.Grammar
open Bindery.Parser

/-! ## Looking ahead -/

/-- The words behind a class key form the head of a class, not the type of a variable. -/
def opensClass (depth : Nat) (last : TokenKind) : List SourceToken → Bool
  | [] => false
  | t :: ts =>
    match t.kind with
    | .lAngle | .lParen | .lBracket => opensClass (depth + 1) t.kind ts
    | kind =>
      if depth > 0 then
        match kind with
        | .rAngle | .rParen | .rBracket => opensClass (depth - 1) kind ts
        | .semicolon | .lBrace | .rBrace => false
        | _ => opensClass depth kind ts
      else
        match kind with
        | .ident =>
          -- `struct stat buf;` declares a variable.
          if last = .ident && t.text ≠ "final" then false else opensClass depth kind ts
        | .colonColon => opensClass depth kind ts
        | .lBrace | .colon | .semicolon => true
        | _ => false

/-- The words behind `template` are a parameter list and `using`. -/
def namesTemplateAlias (depth : Nat) : List SourceToken → Bool
  | [] => false
  | t :: ts =>
    match t.kind with
    | .lAngle => namesTemplateAlias (depth + 1) ts
    | .rAngle => namesTemplateAlias (depth - 1) ts
    | .semicolon | .lBrace => false
    | kind => if depth = 0 then kind = .usingKw else namesTemplateAlias depth ts

/-- The statement ahead holds a bracket. -/
def bracketAhead (words : List SourceToken) : Bool :=
  (words.takeWhile (·.kind ≠ .semicolon)).any fun t => Bracket.isOpener t.kind

/-! ## Skipped constructs -/

/-- A construct that is recognised, not modelled, and ends in `;`. -/
def passStatement : Parser Unit := node .skipped do
  takeUpTo [.semicolon] false
  let _ ← expect .semicolon "`;`"

/-- A construct that is recognised, not modelled, and ends in `;` or in a braced group with
an optional `;`. -/
def passDeclaration : Parser Unit := node .skipped do
  loop do
    if ← atEnd then return false
    match ← nextKind with
    | .semicolon => advance; return false
    | .lBrace =>
      takeGroup
      let _ ← accept .semicolon
      return false
    | .rBrace | .rParen | .rBracket => return false
    | .lParen | .lBracket => takeGroup; return true
    | _ => advance; return true

/-! ## Aliases -/

/-- A type alias or another `using` declaration. -/
def usingDeclaration : Parser Unit := do
  if (← kindAhead 1) = .ident && (← kindAhead 2) = .eq then
    node .typeAlias do
      advance
      simpleName
      advance
      expectType "aliased type"
      unless ← sees .semicolon do skippedRun [.semicolon] false
      let _ ← expect .semicolon "`;`"
  else
    node .usingDecl do
      takeUpTo [.semicolon] false
      let _ ← expect .semicolon "`;`"

/-- A `typedef`. One with brackets is skipped. -/
def typedef : Parser Unit := do
  if bracketAhead (← wordsAhead) then passStatement
  else node .typedef do
    advance
    expectType "type in typedef"
    if ← sees .ident then simpleName else missing "typedef name"
    takeUpTo [.semicolon] false
    let _ ← expect .semicolon "`;` after typedef"

/-! ## Template parameters -/

/-- What introduces a template parameter; the list of a template template parameter is read by
`inner`. -/
def templateParamLead (inner : Parser Unit) : Parser Unit := do
  match ← nextKind with
  | .typenameKw | .classKw => advance
  | .templateKw =>
    advance
    inner
    if ← seesAny [.typenameKw, .classKw] then advance
  | _ => expectType "template parameter"

/-- A template parameter. -/
def templateParam (inner : Parser Unit) : Parser Unit := node .templateParam do
  templateParamLead inner
  let _ ← accept .ellipsis
  if ← sees .ident then simpleName
  if ← sees .eq then initializer [.comma, .rAngle] true

/-- A list of template parameters, nested at most so deep. -/
def templateParams : Nat → Parser Unit
  | 0 => stall
  | depth + 1 => node .templateParams do
    let _ ← expect .lAngle "`<`"
    loop do
      if (← sees .rAngle) || (← atEnd) then return false
      templateParam (templateParams depth)
      accept .comma
    let _ ← expect .rAngle "`>` to close template parameters"

/-! ## What holds declarations -/

/-- One declaration. Answers whether there may be another one; the closing brace ends the list
inside of braces only. -/
def declarationRound (inner : Parser Unit) (inBraces : Bool) : Parser Bool := do
  if ← atEnd then
    if inBraces then missing "`\x7d`"
    return false
  if ← sees .rBrace then
    if inBraces then return false
    recover .unmatchedBrace
    return true
  let start ← remaining
  inner
  if (← remaining) = start then recover (.expected "declaration")
  return true

/-- Declarations up to the closing brace, or up to the end of the tokens. -/
def declarations (inner : Parser Unit) (inBraces : Bool) : Parser Unit :=
  loop (declarationRound inner inBraces)

/-- A list of declarations behind its opening brace. -/
def declarationBlock (inner : Parser Unit) (close : String) : Parser Unit := do
  nodeHere .declList (declarations inner true)
  let _ ← expect .rBrace close

/-- The name of a namespace, which may be that of a namespace inside others. -/
def namespaceName : Parser Unit := node .name do
  advance
  loop do
    if ← accept .colonColon then
      let _ ← accept .inlineKw
      let _ ← expect .ident "namespace name"
      return true
    else return false

/-- What follows the word `namespace`. -/
def namespaceRest (inner : Parser Unit) : Parser Unit := do
  if ← sees .ident then namespaceName
  if ← accept .lBrace then declarationBlock inner "`\x7d` to close namespace"
  else missing "`\x7b` after namespace name"

/-- A namespace. An alias of a namespace is skipped. -/
def namespaceDefinition (inner : Parser Unit) : Parser Unit := do
  let aliasOffset := if ← sees .inlineKw then 3 else 2
  if (← kindAhead aliasOffset) = .eq then passStatement
  else node .namespaceDef do
    let _ ← accept .inlineKw
    advance
    namespaceRest inner

/-- A linkage specification of a block or of one declaration. -/
def linkageSpecification (inner : Parser Unit) : Parser Unit := node .linkageSpec do
  advance
  advance
  if ← accept .lBrace then declarationBlock inner "`\x7d` to close linkage specification"
  else inner

/-- A template, whose declaration may be a template again. -/
def templateDeclaration (inner : Parser Unit) : Nat → Parser Unit
  | 0 => stall
  | depth + 1 => node .templateDecl do
    advance
    nested templateParams
    if ← seesPair .templateKw .lAngle then templateDeclaration inner depth
    else if ← atEnd then missing "declaration after template parameter list"
    else inner

/-- Attributes and alignments. -/
def attributes : Parser Unit := loop do
  if ← seesPair .lBracket .lBracket then
    takeGroup
    return true
  else if (← seesWord ["alignas"]) && (← kindAhead 1) = .lParen then
    advance
    takeGroup
    return true
  else return false

/-- The list of base classes. -/
def baseList : Parser Unit := node .baseList do
  advance
  loop do
    node .baseSpec do
      advanceWhile (seesAny [.virtualKw, .publicKw, .protectedKw, .privateKw])
      expectType "base class"
      let _ ← accept .ellipsis
    accept .comma

/-- The members of a class in braces. -/
def memberList (inner : Parser Unit) : Parser Unit := node .memberList do
  advance
  loop do
    if ← atEnd then
      missing "`\x7d` to close class body"
      return false
    if ← sees .rBrace then return false
    if (← nextKind).isAccess && (← kindAhead 1) = .colon then
      node .accessSpec do
        advance
        advance
      return true
    let start ← remaining
    inner
    if (← remaining) = start then recover (.expected "member declaration")
    return true
  let _ ← accept .rBrace

/-- A class definition, a forward declaration, or the class of an explicit instantiation. -/
def classDefinition (inner : Parser Unit) : Parser Unit := node .classDef do
  advance
  attributes
  if ← seesAny [.ident, .colonColon] then
    node .name do
      let _ ← accept .colonColon
      advance
      loop do
        if ← seesPair .colonColon .ident then
          advance
          advance
          return true
        else return false
  if ← sees .lAngle then templateArgs
  if ← seesWord ["final"] then advance
  if ← sees .colon then baseList
  if ← sees .lBrace then
    memberList inner
    -- Declarators of the class type.
    if ← seesAny [.ident, .star, .amp] then takeUpTo [.semicolon] false
  let _ ← expect .semicolon "`;` after class"

/-- An explicit instantiation. -/
def explicitInstantiation (inner : Parser Unit) : Parser Unit := node .explicitInstantiation do
  let _ ← accept .externKw
  advance
  if (← nextKind).isClassKey then classDefinition inner else member

/-- A declaration, nested at most so deep. -/
def declaration : Nat → Parser Unit
  | 0 => stall
  | depth + 1 => do
    let inner := declaration depth
    let kind ← nextKind
    let next ← kindAhead 1
    match kind with
    | .semicolon => advance
    | .namespaceKw => namespaceDefinition inner
    | .inlineKw => if next = .namespaceKw then namespaceDefinition inner else member
    | .externKw =>
      if next = .string then linkageSpecification inner
      else if next = .templateKw then explicitInstantiation inner
      else member
    | .templateKw =>
      if next ≠ .lAngle then explicitInstantiation inner
      else if namesTemplateAlias 0 ((← wordsAhead).drop 1) then passStatement
      else nested (templateDeclaration inner)
    | .classKw | .structKw | .unionKw =>
      if opensClass 0 .classKw ((← wordsAhead).drop 1) then classDefinition inner else member
    | .enumKw => passStatement
    | .friendKw | .staticAssertKw => passDeclaration
    | .usingKw => usingDeclaration
    | .typedefKw => typedef
    | .lBracket => if next = .lBracket then member else recover (.expected "declaration")
    | .rBracket | .rParen => recover (.expected "declaration")
    | _ => member

/-- A whole file. The root owns the trivia at both ends. -/
def sourceFile : Parser Unit := nodeHere .sourceFile do
  declarations (nested declaration) false
  passTrivia

end Bindery.Grammar

namespace Bindery

/-- The tree of a stream and the faults found while building it. -/
structure SyntaxTree where
  root : Tree
  errors : List SyntaxError
deriving Inhabited

namespace SyntaxTree

/-- The state behind the whole of a stream of tokens. -/
def finalState (tokens : List SourceToken) : ParseState :=
  (Grammar.sourceFile.run { rest := tokens, final := tokens.getLast?.map (·.origin) }).2

/-- The tree of a stream of tokens. -/
def parse (tokens : List SourceToken) : SyntaxTree :=
  let state := finalState tokens
  match state.built with
  | root :: _ => ⟨root, state.errors.reverse⟩
  | [] => ⟨.node .sourceFile [], state.errors.reverse⟩

/-- The stream had no fault. -/
def isClean (t : SyntaxTree) : Bool := t.errors.isEmpty

end SyntaxTree
end Bindery
