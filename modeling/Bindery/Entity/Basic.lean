import Bindery.Declaration.Basic
import Bindery.Diagnostic
import Bindery.Directive
import Bindery.Name
import Bindery.Path
import Bindery.TypeExpr.Unification

/-!
# Entities

What a header offers for export: classes with their members, free functions, and templates
with the instantiations that are known of them. Entities are plain trees. Bases and types
are referred to by name, and all names in them are complete.

## Main definitions

* `ClassEntity`, `FunctionEntity`, `TemplateEntity`, joined in `Entity`.
* `Member`: a constructor, a method or a field.
* `Instantiation`: a template with arguments, bound to the declaration that serves them.
* `HeaderUnit`: everything that was found in a header and the files it includes.
-/
namespace Bindery

/-- Without a mark of its own a declaration takes that of its surroundings. -/
def ExportMark.inherit (own : Option ExportMark) (outer : ExportMark) : ExportMark :=
  own.getD outer

/-- The word for an access level. -/
def Access.text : Access → String
  | isPublic => "public"
  | isProtected => "protected"
  | isPrivate => "private"

/-- The kinds of classes that can be exported. -/
inductive ClassKind where
  | classKind
  | structKind
deriving DecidableEq, Inhabited

namespace ClassKind

/-- The word for a kind. -/
def text : ClassKind → String
  | classKind => "class"
  | structKind => "struct"

/-- Who may use the members in front of the first access specifier. -/
def defaultAccess : ClassKind → Access
  | classKind => .isPrivate
  | structKind => .isPublic

end ClassKind

/-! ## Functions -/

/-- A parameter. -/
structure Param where
  name : Option String
  type : TypeExpr
  /-- The default argument as written. -/
  default : Option String
deriving DecidableEq, Inhabited

/-- Parameters and result of a function. -/
structure Signature where
  params : List Param
  result : TypeExpr
deriving DecidableEq, Inhabited

/-- The types of a signature on one line. -/
def Signature.text (s : Signature) : String :=
  "(" ++ ", ".intercalate (s.params.map (·.type.text)) ++ ") -> " ++ s.result.text

/-- A free function. -/
structure FunctionEntity where
  name : QualifiedName
  signature : Signature
  /-- The template that the function belongs to. -/
  template : Option QualifiedName
  mark : ExportMark
  location : Option Location
deriving DecidableEq, Inhabited

/-! ## Classes -/

/-- A base class, as resolved where the class is declared. -/
structure BaseRef where
  name : QualifiedName
  type : TypeExpr
  access : Access
  isVirtual : Bool
deriving DecidableEq, Inhabited

/-- A constructor. -/
structure Constructor where
  access : Access
  params : List Param
  mark : ExportMark
  location : Option Location
deriving DecidableEq, Inhabited

/-- A member function. -/
structure Method where
  name : String
  access : Access
  signature : Signature
  isConst : Bool
  isStatic : Bool
  isVirtual : Bool
  isPure : Bool
  mark : ExportMark
  location : Option Location
deriving DecidableEq, Inhabited

/-- A data member. -/
structure Field where
  name : String
  access : Access
  type : TypeExpr
  /-- The field can be read and not written. -/
  isConst : Bool
  isStatic : Bool
  /-- The default initialiser as written. -/
  default : Option String
  mark : ExportMark
  location : Option Location
deriving DecidableEq, Inhabited

/-- A member of a class. -/
inductive Member where
  | constructor (c : Constructor)
  | method (m : Method)
  | field (f : Field)
deriving DecidableEq, Inhabited

namespace Member

/-- Who may use the member. -/
def access : Member → Access
  | constructor c => c.access
  | method m => m.access
  | field f => f.access

/-- The mark of the member. -/
def mark : Member → ExportMark
  | constructor c => c.mark
  | method m => m.mark
  | field f => f.mark

/-- The name of the member; a constructor has none. -/
def name? : Member → Option String
  | constructor _ => none
  | method m => some m.name
  | field f => some f.name

/-- Everyone may use the member. -/
def isPublic (m : Member) : Bool := m.access = .isPublic

/-- The member as a constructor. -/
def constructor? : Member → Option Constructor
  | constructor c => some c
  | _ => none

/-- The member as a method. -/
def method? : Member → Option Method
  | method m => some m
  | _ => none

/-- The member as a field. -/
def field? : Member → Option Field
  | field f => some f
  | _ => none

end Member

/-- A class with its members in order of declaration. -/
structure ClassEntity where
  name : QualifiedName
  kind : ClassKind
  bases : List BaseRef
  members : List Member
  mark : ExportMark
  location : Option Location
deriving DecidableEq, Inhabited

namespace ClassEntity

/-- The constructors of a class. -/
def constructors (c : ClassEntity) : List Constructor := c.members.filterMap Member.constructor?

/-- The methods of a class. -/
def methods (c : ClassEntity) : List Method := c.members.filterMap Member.method?

/-- The fields of a class. -/
def fields (c : ClassEntity) : List Field := c.members.filterMap Member.field?

/-- The class declares a pure method. -/
def isAbstract (c : ClassEntity) : Bool := c.methods.any (·.isPure)

/-- The class can be constructed without arguments although it declares no constructor. -/
def hasImplicitConstructor (c : ClassEntity) : Bool := c.constructors.isEmpty && !c.isAbstract

end ClassEntity

/-! ## Templates -/

/-- What a template parameter stands for. -/
inductive TemplateParamKind where
  | type
  | value (type : TypeExpr)
  | template
deriving DecidableEq, Inhabited

/-- A template parameter. -/
structure TemplateParam where
  name : String
  kind : TemplateParamKind
  default : Option TemplateArg
deriving DecidableEq, Inhabited

/-- The parameters bound to arguments in order. -/
def TemplateParam.bind (params : List TemplateParam) (args : List TemplateArg) : Bindings :=
  .ofList ((params.map TemplateParam.name).zip args)

/-- Which sort of declaration serves an instantiation, the most specific sort first. -/
inductive Specificity where
  | full
  | partialMatch
  | primary
deriving DecidableEq, Inhabited

namespace Specificity

/-- The place in the order of specificity. -/
def rank : Specificity → Nat
  | full => 0
  | partialMatch => 1
  | primary => 2

/-- The word for a sort. -/
def text : Specificity → String
  | full => "full"
  | partialMatch => "partial"
  | primary => "primary"

end Specificity

/-- How an instantiation became known. -/
inductive Provenance where
  | directive
  | specialization
  | explicitInstantiation
deriving DecidableEq, Inhabited

/-- The word for a provenance. -/
def Provenance.text : Provenance → String
  | directive => "directive"
  | specialization => "specialization"
  | explicitInstantiation => "explicit_instantiation"

/-- The declaration behind a template or an instantiation. -/
inductive Concrete where
  | ofClass (c : ClassEntity)
  | ofFunction (f : FunctionEntity)
deriving DecidableEq, Inhabited

/-- The declaration is a class. -/
def Concrete.isClass : Concrete → Bool
  | ofClass _ => true
  | ofFunction _ => false

/-- A template with arguments. -/
structure Instantiation where
  /-- The name that it is called by. -/
  exportName : String
  /-- Arguments for the parameters of the primary template. -/
  args : List TemplateArg
  bindings : Bindings
  specificity : Specificity
  provenance : Provenance
  mark : ExportMark
  /-- The name with its arguments, as the header's own language spells it. -/
  native : String
  entity : Concrete
deriving Inhabited

/-- A template and its catalogue of instantiations. -/
structure TemplateEntity where
  name : QualifiedName
  params : List TemplateParam
  /-- The primary declaration. -/
  pattern : Concrete
  /-- The known instantiations, the most specific first. -/
  instantiations : List Instantiation
  mark : ExportMark
  location : Option Location
deriving Inhabited

namespace TemplateEntity

/-- The names of the parameters. -/
def paramNames (t : TemplateEntity) : List String := t.params.map TemplateParam.name

/-- A class template. -/
def isClassTemplate (t : TemplateEntity) : Bool := t.pattern.isClass

/-- The name of the template with arguments. -/
def nativeName (t : TemplateEntity) (args : List TemplateArg) : String :=
  t.name.text ++ "<" ++ TemplateArg.textAll args ++ ">"

end TemplateEntity

/-! ## Units -/

/-- Something that a header offers. -/
inductive Entity where
  | ofClass (c : ClassEntity)
  | ofFunction (f : FunctionEntity)
  | ofTemplate (t : TemplateEntity)
deriving Inhabited

namespace Entity

/-- The name of an entity. -/
def name : Entity → QualifiedName
  | ofClass c => c.name
  | ofFunction f => f.name
  | ofTemplate t => t.name

/-- The mark of an entity. -/
def mark : Entity → ExportMark
  | ofClass c => c.mark
  | ofFunction f => f.mark
  | ofTemplate t => t.mark

/-- The entity as a class. -/
def class? : Entity → Option ClassEntity
  | ofClass c => some c
  | _ => none

/-- The entity as a function. -/
def function? : Entity → Option FunctionEntity
  | ofFunction f => some f
  | _ => none

/-- The entity as a template. -/
def template? : Entity → Option TemplateEntity
  | ofTemplate t => some t
  | _ => none

end Entity

/-- Everything that was found in a header and the files it includes. -/
structure HeaderUnit where
  /-- The files that were read, the main file first. -/
  files : List Path
  systemIncludes : List String
  entities : List Entity
  /-- Types by the complete names of their aliases. -/
  aliases : OrderedMap String TypeExpr
  diagnostics : List Diagnostic
deriving Inhabited

namespace HeaderUnit

/-- The classes of a unit. -/
def classes (u : HeaderUnit) : List ClassEntity := u.entities.filterMap Entity.class?

/-- The free functions of a unit. -/
def functions (u : HeaderUnit) : List FunctionEntity := u.entities.filterMap Entity.function?

/-- The templates of a unit. -/
def templates (u : HeaderUnit) : List TemplateEntity := u.entities.filterMap Entity.template?

/-- The first class that goes by a simple or partly qualified name. -/
def findClass? (u : HeaderUnit) (query : String) : Option ClassEntity :=
  u.classes.find? (·.name.isNamedBy query)

/-- The first class with a given complete name. -/
def classNamed? (u : HeaderUnit) (name : QualifiedName) : Option ClassEntity :=
  u.classes.find? (·.name = name)

/-- The first template that goes by a simple or partly qualified name. -/
def findTemplate? (u : HeaderUnit) (query : String) : Option TemplateEntity :=
  u.templates.find? (·.name.isNamedBy query)

end HeaderUnit
end Bindery
