import Bindery.Declaration.Basic

/-!
# Reading declarations off a tree

Each kind of declaration is a kind of node, and its parts are found among the children of
the node: the first node of a kind, or a token that is a direct child. The comments of a
declaration are the line comments just before its node among the children of the parent; a
blank line ends them, and block comments are stepped over.

## Main definitions

* `commentsAbove`: the comments above a node, from what stands before it.
* `Declaration.ofTree?`: the declaration that a node stands for.
* `Declaration.ofChildren`: the declarations among the children of a node.
-/
namespace Bindery

namespace Tree

/-- The children have a token of a kind. -/
def hasLeaf (kind : TokenKind) (children : List Tree) : Bool := children.any (·.isToken kind)

/-- The tokens among the children that carry meaning. -/
def directWords (children : List Tree) : List SourceToken :=
  children.filterMap fun t => match t with
    | leaf token => if token.kind.isTrivia then none else some token
    | node _ _ => none

/-- The first node of a kind among the children. -/
def nodeOf? (kind : NodeKind) (children : List Tree) : Option Tree :=
  children.find? (·.isNode kind)

/-- The nodes of a kind among the children. -/
def nodesOf (kind : NodeKind) (children : List Tree) : List Tree := children.filter (·.isNode kind)

/-- The spelling of the first node of a kind. -/
def spellingOf? (kind : NodeKind) (children : List Tree) : Option String :=
  (nodeOf? kind children).map spelling

/-- The first token among the children that a table knows. -/
def firstOf? {α : Type} (table : List (TokenKind × α)) (children : List Tree) : Option α :=
  children.findSome? fun t => match t with
    | leaf token => (table.find? (·.1 = token.kind)).map Prod.snd
    | node _ _ => none

end Tree

/-- How many newlines a text has. -/
def newlinesIn (s : String) : Nat := (s.toList.filter (· = '\n')).length

/-- The line comments above a node, nearest first, given what stands before the node, nearest
first, and the newlines met since the last comment. -/
def commentsBefore (newlines : Nat) : List Tree → List String
  | .leaf t :: before =>
    match t.kind with
    | .blank =>
      let newlines := newlines + newlinesIn t.text
      if newlines ≥ 2 then [] else commentsBefore newlines before
    | .lineComment => t.text :: commentsBefore 0 before
    | .blockComment => commentsBefore 0 before
    | _ => []
  | _ => []

/-- The line comments directly above a node, top to bottom. -/
def commentsAbove (before : List Tree) : List String := (commentsBefore 0 before).reverse

namespace DeclName

/-- The name that a node spells. -/
def ofTree (t : Tree) : DeclName where
  text := t.spelling
  simple :=
    let idents := (Tree.directWords t.children).filter (·.kind = .ident)
    (idents.getLast?.map (·.text)).getD ""
  isDestructor := Tree.hasLeaf .tilde t.children
  isOperator := Tree.hasLeaf .operatorKw t.children
  isQualified := Tree.hasLeaf .colonColon t.children

/-- The first name among the children. -/
def of? (children : List Tree) : Option DeclName := (Tree.nodeOf? .name children).map ofTree

end DeclName

namespace Initializer

/-- The initialiser that a node spells. -/
def ofTree (t : Tree) : Initializer where
  value := Spelling.ofTokens (match t.words with
    | ⟨.eq, _, _⟩ :: rest => rest
    | all => all)
  spelling := t.spelling
  isBraced := ((Tree.directWords t.children).head?.map (·.kind)) = some .lBrace

/-- The first initialiser among the children. -/
def of? (children : List Tree) : Option Initializer :=
  (Tree.nodeOf? .initializer children).map ofTree

end Initializer

/-- The extent between the brackets of an array suffix. -/
def extentOf (t : Tree) : String :=
  Spelling.ofTokens ((Tree.directWords t.children).filter fun w =>
    w.kind ≠ .lBracket && w.kind ≠ .rBracket)

/-- The extents of the array suffixes among the children. -/
def extentsOf (children : List Tree) : List String :=
  (Tree.nodesOf .arraySuffix children).map extentOf

/-- The spellings of the template arguments, if there is a list of them. -/
def templateArgsOf? (children : List Tree) : Option (List String) :=
  (Tree.nodeOf? .templateArgs children).map fun list =>
    (Tree.nodesOf .templateArg list.children).map Tree.spelling

/-- The words for access. -/
def accessWords : List (TokenKind × Access) :=
  [(.publicKw, .isPublic), (.protectedKw, .isProtected), (.privateKw, .isPrivate)]

/-- The words that introduce a class. -/
def classWords : List (TokenKind × ClassKey) :=
  [(.classKw, .classKey), (.structKw, .structKey), (.unionKw, .unionKey)]

/-- The parameter that a node stands for. -/
def ParamDecl.ofTree (t : Tree) : ParamDecl where
  type := Tree.spellingOf? .type t.children
  name := DeclName.of? t.children
  default := Initializer.of? t.children
  arrays := extentsOf t.children
  hasEllipsis := Tree.hasLeaf .ellipsis t.children
  isUnparsed := (Tree.nodeOf? .skipped t.children).isSome

/-- The type behind the first `->` among the children. -/
def trailingType? (children : List Tree) : Option String :=
  Tree.spellingOf? .type (children.dropWhile (!·.isToken .arrow))

/-- The function that the children of a node make up. -/
def FunctionDecl.ofChildren (children : List Tree) : FunctionDecl where
  name := DeclName.of? children
  type := Tree.spellingOf? .type children
  trailing := trailingType? children
  templateArgs := templateArgsOf? children
  params := match Tree.nodeOf? .paramList children with
    | some list => (Tree.nodesOf .param list.children).map ParamDecl.ofTree
    | none => []
  initializer := Initializer.of? children
  isConst := Tree.hasLeaf .constKw children
  isStatic := Tree.hasLeaf .staticKw children
  isVirtual := Tree.hasLeaf .virtualKw children
  isExplicit := Tree.hasLeaf .explicitKw children
  isInline := Tree.hasLeaf .inlineKw children
  isConstexpr := Tree.hasLeaf .constexprKw children
  hasBody := (Tree.nodeOf? .body children).isSome
  hasSkipped := (Tree.nodeOf? .skipped children).isSome

/-- The further declarator that a node stands for. -/
def DeclaratorDecl.ofTree (t : Tree) : DeclaratorDecl where
  name := DeclName.of? t.children
  lead := Spelling.ofTokens ((Tree.directWords t.children).filter (·.kind ≠ .comma))
  initializer := Initializer.of? t.children
  arrays := extentsOf t.children

/-- The field that the children of a node make up. -/
def FieldDecl.ofChildren (children : List Tree) : FieldDecl where
  name := DeclName.of? children
  type := Tree.spellingOf? .type children
  initializer := Initializer.of? children
  arrays := extentsOf children
  more := (Tree.nodesOf .declarator children).map DeclaratorDecl.ofTree
  isStatic := Tree.hasLeaf .staticKw children
  isMutable := Tree.hasLeaf .mutableKw children
  isConstexpr := Tree.hasLeaf .constexprKw children
  isExtern := Tree.hasLeaf .externKw children
  isBitfield := Tree.hasLeaf .colon children

/-- The base class that a node stands for. -/
def BaseDecl.ofTree (t : Tree) : BaseDecl where
  type := Tree.spellingOf? .type t.children
  access := Tree.firstOf? accessWords t.children
  isVirtual := Tree.hasLeaf .virtualKw t.children

/-- The class that the children of a node make up, without its members. -/
def ClassHead.ofChildren (children : List Tree) : ClassHead where
  name := DeclName.of? children
  key := Tree.firstOf? classWords children
  templateArgs := templateArgsOf? children
  bases := match Tree.nodeOf? .baseList children with
    | some list => (Tree.nodesOf .baseSpec list.children).map BaseDecl.ofTree
    | none => []
  isDefinition := (Tree.nodeOf? .memberList children).isSome

/-- The template parameter that a node stands for. -/
def TemplateParamDecl.ofTree (t : Tree) : TemplateParamDecl where
  name := DeclName.of? t.children
  form :=
    if (Tree.nodeOf? .templateParams t.children).isSome then .template
    else match Tree.spellingOf? .type t.children with
      | some type => .value type
      | none => .type
  default := Initializer.of? t.children
  isPack := Tree.hasLeaf .ellipsis t.children

/-- The template parameters among the children of a template. -/
def templateParamsOf (children : List Tree) : List TemplateParamDecl :=
  match Tree.nodeOf? .templateParams children with
  | some list => (Tree.nodesOf .templateParam list.children).map TemplateParamDecl.ofTree
  | none => []

/-- Something other than `;` follows the name of a `typedef`. -/
def isComplexTypedef (children : List Tree) : Bool :=
  ((children.dropWhile (!·.isNode .name)).drop 1).any fun t => match t with
    | .node kind _ => kind ≠ .name
    | .leaf token => !token.kind.isTrivia && token.kind ≠ .semicolon

/-- An identifier in quotes behind a blank, nothing for any other token. -/
def quotedIdent : Option SourceToken → String
  | some t => if t.kind = .ident then " `" ++ t.text ++ "`" else ""
  | none => ""

/-- What a skipped construct is, in words. -/
def describeSkipped (children : List Tree) (spelling : String) : String :=
  let words := Tree.directWords children
  let kindAt (n : Nat) : Option TokenKind := words[n]?.map (·.kind)
  match kindAt 0 with
  | some .enumKw =>
    match kindAt 1 with
    | some .classKw | some .structKw => "enum" ++ quotedIdent words[2]?
    | _ => "enum" ++ quotedIdent words[1]?
  | some .friendKw => "friend declaration"
  | some .staticAssertKw => "static_assert"
  | some .templateKw => "template alias"
  | some .namespaceKw => "namespace alias" ++ quotedIdent words[1]?
  | some .typedefKw => "typedef"
  | _ => "declaration `" ++ Spelling.short spelling ++ "`"

namespace Declaration

mutual
/-- The declaration that a node stands for, given what stands before it, nearest first. -/
def ofTree? (before : List Tree) : Tree → Option Declaration
  | .leaf _ => none
  | .node kind children =>
    let self := Tree.node kind children
    let info : DeclInfo :=
      ⟨commentsAbove before, self.words.head?.map (·.origin), self.spelling⟩
    match kind with
    | .namespaceDef =>
      some (.namespaceDef info (DeclName.of? children) (Tree.hasLeaf .inlineKw children)
        (ofFirst .declList children))
    | .linkageSpec =>
      some (.linkage info (
        if (Tree.nodeOf? .declList children).isSome then ofFirst .declList children
        else ofChildren [] children))
    | .classDef =>
      some (.classDef info (ClassHead.ofChildren children) (ofFirst .memberList children))
    | .function => some (.function info (FunctionDecl.ofChildren children))
    | .field => some (.field info (FieldDecl.ofChildren children))
    | .templateDecl =>
      some (.template info (templateParamsOf children) (ofChildren [] children).head?)
    | .explicitInstantiation =>
      some (.instantiation info (Tree.hasLeaf .externKw children) (ofChildren [] children).head?)
    | .typeAlias =>
      some (.typeAlias info false (DeclName.of? children) (Tree.spellingOf? .type children)
        (Tree.nodeOf? .skipped children).isSome)
    | .typedef =>
      some (.typeAlias info true (DeclName.of? children) (Tree.spellingOf? .type children)
        (isComplexTypedef children))
    | .usingDecl => some (.usingDecl info (Tree.hasLeaf .namespaceKw children))
    | .accessSpec => some (.access info (Tree.firstOf? accessWords children))
    | .skipped => some (.skipped info (describeSkipped children info.spelling))
    | _ => none

/-- The declarations among the children of a node, given the children before them. -/
def ofChildren (before : List Tree) : List Tree → List Declaration
  | [] => []
  | t :: ts => (ofTree? before t).toList ++ ofChildren (t :: before) ts

/-- The declarations in the first child of a kind. -/
def ofFirst (kind : NodeKind) : List Tree → List Declaration
  | [] => []
  | .node k children :: ts => if k = kind then ofChildren [] children else ofFirst kind ts
  | .leaf _ :: ts => ofFirst kind ts
end

end Declaration
end Bindery
