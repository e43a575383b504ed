import Bindery.Survey.Scope

/-!
# Functions and fields

Functions and data members are taken over with their types completed. What cannot be
modelled is reported and skipped: variadic functions, operators, bit-fields, arrays, and
types that cannot be read.

## Main definitions

* `Walk.freeFunction`: a function at namespace scope.
* `Walk.memberFunction`, `Walk.memberFields`: members of a class.
-/
namespace Bindery.Walk

/-- The parameters of a function. An array decays to a pointer. -/
def paramList (scope : Scope) (owner : String) (location : Option Location) :
    List ParamDecl → Attempt (List Param)
  | [] => return []
  | p :: ps => do
    if p.isVoid then paramList scope owner location ps
    else if p.isVariadic || p.isPack then
      refuseUnsupported ("variadic function `" ++ owner ++ "` is not supported") location
    else
      let decay := if p.arrays.isEmpty then "" else "*"
      let survey ← get
      match p.type.bind fun type => survey.resolveType? scope (type ++ decay) with
      | none =>
        refuseUnsupported ("`" ++ owner ++ "` has a parameter of unparsable type") location
      | some type =>
        let rest ← paramList scope owner location ps
        return ⟨p.name.map (·.simple), type, p.default.map (·.value)⟩ :: rest

/-- The parameters of a function, if all its parts are modelled. -/
def params (scope : Scope) (owner : String) (location : Option Location) (f : FunctionDecl) :
    Attempt (List Param) :=
  if f.hasOpaqueParts then
    refuseUnsupported ("`" ++ owner ++ "` has parameters that cannot be modelled") location
  else paramList scope owner location f.params

/-- The result type of a function; one behind the parameters wins. -/
def resultType (scope : Scope) (owner : String) (location : Option Location) (f : FunctionDecl) :
    Attempt TypeExpr := do
  match (f.trailing.or f.type).bind ((← get).resolveType? scope) with
  | some type => return type
  | none => refuseUnsupported ("`" ++ owner ++ "` has an unparsable return type") location

/-- The signature of a function. -/
def signature (scope : Scope) (owner : String) (location : Option Location) (f : FunctionDecl) :
    Attempt Signature := do
  let params ← params scope owner location f
  return ⟨params, ← resultType scope owner location f⟩

/-- A function at namespace scope. A qualified name defines something that was declared
elsewhere. -/
def freeFunction (scope : Scope) (mark : Option ExportMark) (info : DeclInfo)
    (f : FunctionDecl) : Attempt FunctionEntity := do
  let location ← OptionT.lift (place info)
  match f.name with
  | none => refuseUnsupported ("declaration `" ++ info.head ++ "` is not supported") location
  | some name =>
    if f.isOperator then
      refuse .operatorOverload ("operator `" ++ name.text ++ "` is not exported") location
    else if name.isQualified || f.isDeleted then failure
    else
      let qualified := QualifiedName.within scope.path name.simple
      let signature ← signature scope qualified.text location f
      return ⟨qualified, signature, none, .inherit mark scope.mark, location⟩

/-- The class that members are built for. -/
structure ClassContext where
  name : QualifiedName
  /-- The last part of the name, as constructors spell it. -/
  simple : String
  kind : ClassKind
  /-- The scope inside the class. -/
  inner : Scope

/-- A constructor. A deleted one can be used by no one, and still counts as declared. -/
def constructorMember (c : ClassContext) (access : Access) (mark : ExportMark)
    (location : Option Location) (f : FunctionDecl) : Attempt Member := do
  let spelled := f.type.getD ""
  let lead := "explicit "
  let written :=
    if lead.toList.isPrefixOf spelled.toList then String.ofList (spelled.toList.drop lead.length)
    else spelled
  if written ≠ c.simple then
    refuseUnsupported
      ("declaration `" ++ written ++ "(...)` in `" ++ c.simple ++ "` is not supported") location
  else
    let params ← params c.inner c.simple location f
    return .constructor ⟨if f.isDeleted then .isPrivate else access, params, mark, location⟩

/-- A function of a class. -/
def memberFunction (c : ClassContext) (access : Access) (mark : ExportMark) (info : DeclInfo)
    (f : FunctionDecl) : Attempt Member := do
  let location ← OptionT.lift (place info)
  if f.isDestructor then failure
  else if f.isOperator then
    if access = .isPublic then
      refuse .operatorOverload ("operator `" ++ (f.name.map (·.text)).getD "" ++ "` of `" ++
        c.simple ++ "` is not exported") location
    else failure
  else if f.looksLikeConstructor then constructorMember c access mark location f
  else
    match f.name with
    | none => failure
    | some name =>
      if name.isQualified || f.isDeleted then failure
      else
        let signature ← signature c.inner (c.simple ++ "::" ++ name.simple) location f
        return .method
          { name := name.simple, access, signature, isConst := f.isConst, isStatic := f.isStatic,
            isVirtual := f.isVirtual, isPure := f.isPure, mark, location }

/-- The declarators of a field that have a name. -/
def fieldDeclarators (f : FieldDecl) : List (String × DeclaratorDecl) :=
  let first : DeclaratorDecl := ⟨f.name, "", f.initializer, f.arrays⟩
  (first :: f.more).filterMap fun d => d.name.map fun name => (name.simple, d)

/-- One field. -/
def memberField (scope : Scope) (access : Access) (mark : ExportMark)
    (location : Option Location) (f : FieldDecl) (type : String) (name : String)
    (d : DeclaratorDecl) : Attempt Member := do
  if !d.arrays.isEmpty then
    refuseUnsupported ("C array member `" ++ name ++ "` is not supported") location
  else
    match (← get).resolveType? scope (type ++ d.lead) with
    | none =>
      refuseUnsupported ("member `" ++ name ++ "` has an unparsable type `" ++ type ++ "`")
        location
    | some resolved =>
      return .field
        { name, access, type := resolved
          isConst := resolved.denotesConst || f.isConstexpr
          isStatic := f.isStatic
          default := d.initializer.map fun i => if i.isBraced then i.spelling else i.value
          mark, location }

/-- The members among what was built. -/
def collectMembers : List (Attempt Member) → Walk (List Member)
  | [] => return []
  | a :: rest => do
    let first ← a.run
    return first.toList ++ (← collectMembers rest)

/-- The fields that a declaration introduces. -/
def memberFields (scope : Scope) (access : Access) (mark : ExportMark) (info : DeclInfo)
    (f : FieldDecl) : Walk (List Member) := do
  let location ← place info
  match f.type with
  | none => return []
  | some type =>
    if f.isBitfield then
      warn .unsupportedDeclaration
        ("bit-field `" ++ info.spelling ++ "` is not supported; skipped") location
      return []
    else
      collectMembers ((fieldDeclarators f).map fun (name, d) =>
        memberField scope access mark location f type name d)

end Bindery.Walk
