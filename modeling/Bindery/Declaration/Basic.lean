import Bindery.Declaration.Spelling

/-!
# Declarations

What a header declares, read off its tree: names, types and initialisers are spelled as
text, the comments directly above a declaration are kept with it, and so is the place of its
first token. Nothing is looked up or resolved yet.

## Main definitions

* `Declaration`: a declaration at namespace or class scope.
* `FunctionDecl`, `FieldDecl`, `ClassHead`: the parts of the larger ones.
-/
namespace Bindery

/-- The word that introduces a class. -/
inductive ClassKey where
  | classKey
  | structKey
  | unionKey
deriving DecidableEq, Inhabited

/-- Who may use a member or a base class. -/
inductive Access where
  | isPublic
  | isProtected
  | isPrivate
deriving DecidableEq, Inhabited

/-- A declared name. -/
structure DeclName where
  /-- The whole name as it is spelled. -/
  text : String
  /-- Its last identifier. -/
  simple : String
  isDestructor : Bool
  isOperator : Bool
  /-- The name carries a `::`. -/
  isQualified : Bool
deriving DecidableEq, Inhabited

/-- An initialiser or a default. -/
structure Initializer where
  /-- The spelling without a leading `=`. -/
  value : String
  /-- The whole spelling. -/
  spelling : String
  /-- Written in braces. -/
  isBraced : Bool
deriving DecidableEq, Inhabited

/-- A parameter of a function. -/
structure ParamDecl where
  type : Option String
  name : Option DeclName
  default : Option Initializer
  /-- The array extents behind the name. -/
  arrays : List String
  hasEllipsis : Bool
  /-- Parts of the parameter are not modelled. -/
  isUnparsed : Bool
deriving DecidableEq, Inhabited

namespace ParamDecl

/-- A bare `...`. -/
def isVariadic (p : ParamDecl) : Bool := p.type.isNone && p.hasEllipsis

/-- A parameter pack. -/
def isPack (p : ParamDecl) : Bool := p.type.isSome && p.hasEllipsis

/-- The `void` of an empty parameter list. -/
def isVoid (p : ParamDecl) : Bool := p.name.isNone && p.arrays.isEmpty && p.type = some "void"

end ParamDecl

/-- A function, constructor, destructor or operator. -/
structure FunctionDecl where
  name : Option DeclName
  /-- The type in front of the name; of a constructor, the name of the class. -/
  type : Option String
  /-- The type behind `->`. -/
  trailing : Option String
  /-- Template arguments behind the name. -/
  templateArgs : Option (List String)
  params : List ParamDecl
  initializer : Option Initializer
  isConst : Bool
  isStatic : Bool
  isVirtual : Bool
  isExplicit : Bool
  isInline : Bool
  isConstexpr : Bool
  hasBody : Bool
  /-- Parts of the declarator are not modelled. -/
  hasSkipped : Bool
deriving DecidableEq, Inhabited

namespace FunctionDecl

/-- A type and a parameter list without a name between them. -/
def looksLikeConstructor (f : FunctionDecl) : Bool := f.name.isNone && f.type.isSome

/-- The name has a `~`. -/
def isDestructor (f : FunctionDecl) : Bool := f.name.any (·.isDestructor)

/-- The name is an operator. -/
def isOperator (f : FunctionDecl) : Bool := f.name.any (·.isOperator)

/-- The function is initialised by a given word. -/
def isInitializedBy (f : FunctionDecl) (value : String) : Bool :=
  f.initializer.any (·.value = value)

/-- Declared pure. -/
def isPure (f : FunctionDecl) : Bool := f.isInitializedBy "0"

/-- Declared deleted. -/
def isDeleted (f : FunctionDecl) : Bool := f.isInitializedBy "delete"

/-- Declared defaulted. -/
def isDefaulted (f : FunctionDecl) : Bool := f.isInitializedBy "default"

/-- The declarator or a parameter is not modelled. -/
def hasOpaqueParts (f : FunctionDecl) : Bool := f.hasSkipped || f.params.any (·.isUnparsed)

end FunctionDecl

/-- A further declarator of a field. -/
structure DeclaratorDecl where
  name : Option DeclName
  /-- What stands in front of the name: `*`, `&` and `const`. -/
  lead : String
  initializer : Option Initializer
  arrays : List String
deriving DecidableEq, Inhabited

/-- A field or variable, possibly with several declarators. -/
structure FieldDecl where
  name : Option DeclName
  type : Option String
  initializer : Option Initializer
  arrays : List String
  more : List DeclaratorDecl
  isStatic : Bool
  isMutable : Bool
  isConstexpr : Bool
  isExtern : Bool
  isBitfield : Bool
deriving DecidableEq, Inhabited

/-- A base class as written. -/
structure BaseDecl where
  type : Option String
  access : Option Access
  isVirtual : Bool
deriving DecidableEq, Inhabited

/-- A class without its members. -/
structure ClassHead where
  name : Option DeclName
  key : Option ClassKey
  templateArgs : Option (List String)
  bases : List BaseDecl
  /-- The class has a body. -/
  isDefinition : Bool
deriving DecidableEq, Inhabited

/-- What a template parameter stands for, as written. -/
inductive TemplateParamForm where
  | type
  | template
  | value (type : String)
deriving DecidableEq, Inhabited

/-- A template parameter as written. -/
structure TemplateParamDecl where
  name : Option DeclName
  form : TemplateParamForm
  default : Option Initializer
  isPack : Bool
deriving DecidableEq, Inhabited

/-- What every declaration carries. -/
structure DeclInfo where
  /-- The line comments directly above. -/
  comments : List String
  /-- The place of the first token that carries meaning. -/
  origin : Option Origin
  /-- The whole declaration on one line. -/
  spelling : String
deriving DecidableEq, Inhabited

/-- The spelling up to the body, shortened. -/
def DeclInfo.head (info : DeclInfo) : String :=
  let before := info.spelling.toList.takeWhile (· ≠ '\x7b')
  Spelling.short (String.ofList (Text.trimChars before))

/-- A declaration at namespace or class scope. -/
inductive Declaration where
  | namespaceDef (info : DeclInfo) (name : Option DeclName) (isInline : Bool)
      (body : List Declaration)
  | linkage (info : DeclInfo) (body : List Declaration)
  | classDef (info : DeclInfo) (head : ClassHead) (members : List Declaration)
  | function (info : DeclInfo) (decl : FunctionDecl)
  | field (info : DeclInfo) (decl : FieldDecl)
  | template (info : DeclInfo) (params : List TemplateParamDecl) (inner : Option Declaration)
  | instantiation (info : DeclInfo) (isExtern : Bool) (inner : Option Declaration)
  | typeAlias (info : DeclInfo) (isTypedef : Bool) (name : Option DeclName) (type : Option String)
      (isComplex : Bool)
  | usingDecl (info : DeclInfo) (ofNamespace : Bool)
  | access (info : DeclInfo) (access : Option Access)
  | skipped (info : DeclInfo) (description : String)
deriving Inhabited

/-- What a declaration carries. -/
def Declaration.info : Declaration → DeclInfo
  | namespaceDef info .. | linkage info .. | classDef info .. | function info .. | field info ..
  | template info .. | instantiation info .. | typeAlias info .. | usingDecl info ..
  | access info .. | skipped info .. => info

end Bindery
