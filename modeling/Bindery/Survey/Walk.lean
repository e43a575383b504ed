import Bindery.Instance.Resolve
import Bindery.Survey.Functions

/-!
# Walking a header

One walk over the declarations of a header collects its entities. A class stands in front of
the classes nested in it. Only public nested classes are taken over, and members of a class
that is itself a template have no nested classes. Templates, their specialisations and
explicit instantiations leave evidence behind, which is resolved when the walk is over.

## Main definitions

* `Walk.classEntity`: a class, given how to walk its members.
* `Walk.declare`, `Walk.walkMember`: the walk itself.
* `Header.survey`: what the walk finds.
* `HeaderUnit.ofHeader`, `HeaderUnit.load`: the entities of a header.
-/
namespace Bindery
namespace Walk

/-- The base classes of a class. A base that is no named type is dropped. -/
def baseRefs (s : Survey) (scope : Scope) (kind : ClassKind) (bases : List BaseDecl) :
    List BaseRef :=
  bases.filterMap fun b => do
    let type ← s.resolveType? scope (← b.type)
    let segments ← type.segments?
    return ⟨.parse (NameSegment.path segments), type, b.access.getD kind.defaultAccess,
      b.isVirtual⟩

/-- How to walk the members of a class. -/
abbrev MemberWalk := ClassContext → Walk (List Member)

/-- A class. A declaration without a body only makes the name known. -/
def classEntity (scope : Scope) (mark : Option ExportMark) (info : DeclInfo) (head : ClassHead)
    (walkBody : MemberWalk) : Attempt ClassEntity := do
  let location ← OptionT.lift (place info)
  match head.name with
  | none => refuseUnsupported "anonymous class is not supported" location
  | some name =>
    let segments := (QualifiedName.parse name.text).segments
    makeKnown (scope.path ++ segments)
    match head.key with
    | none | some .unionKey =>
      if head.isDefinition then
        refuseUnsupported ("union `" ++ name.text ++ "` is not supported") location
      else failure
    | some key =>
      if !head.isDefinition then failure
      else
        let kind : ClassKind := if key = .structKey then .structKind else .classKind
        let mark := .inherit mark scope.mark
        let inner := scope.nested segments mark
        let qualified := QualifiedName.parse ("::".intercalate inner.path)
        let bases := baseRefs (← get) scope kind head.bases
        let members ← walkBody ⟨qualified, name.simple, kind, inner⟩
        return ⟨qualified, kind, bases, members, mark, location⟩

/-- A class at namespace scope or inside another class. It is listed in front of the classes
that its walk finds. -/
def declareClass (scope : Scope) (mark : Option ExportMark) (info : DeclInfo) (head : ClassHead)
    (walkBody : MemberWalk) : Walk Unit := do
  if head.templateArgs.isSome then
    warn .unknownTemplate
      ("specialization `" ++ info.head ++ "` without template header; skipped") (← place info)
  else
    let slot := (← get).entities.length
    match ← (classEntity scope mark info head walkBody).run with
    | some c => insertEntity slot (.ofClass c)
    | none => return

/-- A class inside another one. -/
def nestedClass (c : ClassContext) (access : Access) (info : DeclInfo) (head : ClassHead)
    (walkBody : MemberWalk) : Walk Unit := do
  let own ← directivesAbove info none
  if !c.inner.templateParams.isEmpty then
    warn .unsupportedDeclaration ("nested class in class template `" ++ c.name.text ++
      "` is not supported; skipped") (← place info)
  else if access = .isPublic then declareClass c.inner own.mark info head walkBody
  else
    match head.name with
    | some name => makeKnown (c.inner.path ++ [name.simple])
    | none => return

/-! ## Templates -/

/-- A name with template arguments. -/
def applied (name : String) (args : List TemplateArg) : TypeExpr :=
  .ofBase (.named false [.applied name args])

/-- The template parameters, in a scope that does not have them yet. A parameter without a
name is numbered. -/
def templateParams (scope : Scope) (location : Option Location) (ps : List TemplateParamDecl) :
    Attempt (List TemplateParam) := do
  if ps.any (·.isPack) then refuseUnsupported "variadic template is not supported" location
  else
    let survey ← get
    return ps.zipIdx.map fun (p, i) =>
      { name := (p.name.map (·.simple)).getD ("_" ++ toString i)
        kind := match p.form with
          | .type => .type
          | .template => .template
          | .value spelling =>
            .value ((survey.resolveType? scope spelling).getD (.fundamental "int"))
        default := p.default.bind fun d => (TemplateArg.parse d.value).toOption }

/-- Add a template, and note the directives on it. -/
def addTemplate (scope : Scope) (directives : Directives) (location : Option Location)
    (name : QualifiedName) (params : List TemplateParam) (pattern : Concrete) : Walk Unit := do
  makeKnown name.segments
  let index := (← get).entities.length
  addEntity (.ofTemplate
    { name, params, pattern, instantiations := []
      mark := .inherit directives.mark scope.mark, location })
  if !directives.requests.isEmpty then
    addEvidence ⟨scope.path, [], .requests index directives.requests, location⟩

/-- A class behind a template header: a primary template, a partial or a full
specialisation, told apart by parameters in the header and arguments behind the name. -/
def templateClass (scope : Scope) (directives : Directives) (location : Option Location)
    (params : List TemplateParam) (info : DeclInfo) (head : ClassHead) (walkBody : MemberWalk) :
    Attempt Unit := do
  match head.name with
  | none => failure
  | some name =>
    let names := params.map TemplateParam.name
    let within : Scope := { scope with templateParams := scope.templateParams ++ names }
    let written := (QualifiedName.parse name.text).segments
    let mark := directives.mark
    match head.templateArgs, params with
    | none, [] =>
      refuseUnsupported ("`template <>` without arguments on `" ++ name.text ++ "`") location
    | none, _ :: _ =>
      let self := applied name.simple (names.map fun n => .type (.named n))
      let within := { within with injected := some (name.simple, self) }
      let pattern ← classEntity within mark info head walkBody
      addTemplate scope directives location pattern.name params (.ofClass pattern)
    | some spellings, [] =>
      match (← get).resolveArgs? scope spellings with
      | none => failure
      | some args =>
        let within := { scope with injected := some (name.simple, applied name.simple args) }
        let entity ← classEntity within mark info head walkBody
        addEvidence ⟨scope.path, written, .fullSpec (some args) (.ofClass entity) mark, location⟩
    | some spellings, _ :: _ =>
      match (← get).resolveArgs? within spellings with
      | none => failure
      | some args =>
        let within := { within with injected := some (name.simple, applied name.simple args) }
        let pattern ← classEntity within mark info head walkBody
        let spec : PartialSpec := ⟨params, args, .ofClass pattern, directives.requests, mark⟩
        addEvidence ⟨scope.path, written, .partialSpec spec, location⟩

/-- The template arguments behind the name of a function, if there are any. -/
def functionArgs (scope : Scope) (f : FunctionDecl) : Attempt (Option (List TemplateArg)) := do
  match f.templateArgs with
  | none => return none
  | some spellings =>
    match (← get).resolveArgs? scope spellings with
    | none => failure
    | some args => return some args

/-- A function behind a template header: a template or a full specialisation. -/
def templateFunction (scope : Scope) (directives : Directives) (location : Option Location)
    (params : List TemplateParam) (info : DeclInfo) (f : FunctionDecl) : Attempt Unit := do
  match f.name with
  | none => failure
  | some name =>
    if name.isQualified then failure
    else
      let within : Scope :=
        { scope with templateParams := scope.templateParams ++ params.map TemplateParam.name }
      let entity ← freeFunction within directives.mark info f
      match params, f.templateArgs with
      | [], _ =>
        let args ← functionArgs scope f
        addEvidence ⟨scope.path, [name.simple], .fullSpec args (.ofFunction entity) directives.mark,
          location⟩
      | _ :: _, none =>
        let entity := { entity with template := some entity.name }
        addTemplate scope directives location entity.name params (.ofFunction entity)
      | _ :: _, some _ =>
        refuseUnsupported
          ("partial specialization of function `" ++ name.text ++ "` is not supported") location

/-- An explicit instantiation of a class. -/
def explicitClass (scope : Scope) (location : Option Location) (head : ClassHead) :
    Walk Unit := do
  match head.name, head.templateArgs with
  | some name, some spellings =>
    match (← get).resolveArgs? scope spellings with
    | none => return
    | some args =>
      addEvidence ⟨scope.path, (QualifiedName.parse name.text).segments,
        .explicit (some args) none, location⟩
  | _, _ => return

/-- An explicit instantiation of a function. -/
def explicitFunction (scope : Scope) (location : Option Location) (info : DeclInfo)
    (f : FunctionDecl) : Attempt Unit := do
  match f.name with
  | none => failure
  | some name =>
    let args ← functionArgs scope f
    let entity ← freeFunction scope none info f
    addEvidence ⟨scope.path, (QualifiedName.parse name.text).segments,
      .explicit args (some entity.signature), location⟩

/-- Do a step and go on whether or not it skipped something. -/
def attempt (step : Attempt Unit) : Walk Unit := do
  let _ ← step.run
  return

/-- Report a declaration that is not modelled. -/
def reportSkipped (info : DeclInfo) (description : String) : Walk Unit := do
  let code : DiagnosticCode :=
    if description = "template alias" then .templateAlias else .unsupportedDeclaration
  warn code (description ++ " is not supported; skipped") (← place info)

/-! ## The walk -/

mutual
/-- Take up a declaration at namespace scope. -/
def declare (scope : Scope) : Declaration → Walk Unit
  | .namespaceDef info name _ body => do
    let own ← directivesAbove info none
    let segments := (name.map fun n => (QualifiedName.parse n.text).segments).getD []
    declareAll (scope.nested segments (.inherit own.mark scope.mark)) body
  | .linkage _ body => declareAll scope body
  | .classDef info head members => do
    let own ← directivesAbove info none
    declareClass scope own.mark info head fun c => walkMembers c c.kind.defaultAccess members
  | .function info f => do
    let own ← directivesAbove info none
    match ← (freeFunction scope own.mark info f).run with
    | some entity => addEntity (.ofFunction entity)
    | none => return
  | .template info params inner => declareTemplate scope info params inner
  | .instantiation info _ inner => do
    let location ← place info
    match inner with
    | some (.classDef _ head _) => explicitClass scope location head
    | some (.function innerInfo f) => attempt (explicitFunction scope location innerInfo f)
    | _ => return
  | .typeAlias _ _ name type isComplex => declareAlias scope name type isComplex
  | .skipped info description => reportSkipped info description
  | .field .. | .usingDecl .. | .access .. => return

/-- Take up a template. A template header inside another one is passed over. -/
def declareTemplate (scope : Scope) (info : DeclInfo) (params : List TemplateParamDecl) :
    Option Declaration → Walk Unit
  | inner => do
    let location ← place info
    let own ← directivesAbove info (inner.map Declaration.info)
    match ← (templateParams scope location params).run with
    | none => return
    | some params =>
      match inner with
      | none | some (.template ..) => return
      | some (.classDef innerInfo head members) =>
        attempt (templateClass scope own location params innerInfo head fun c =>
          walkMembers c c.kind.defaultAccess members)
      | some (.function innerInfo f) =>
        attempt (templateFunction scope own location params innerInfo f)
      | some other =>
        warn .unsupportedDeclaration
          ("template `" ++ Spelling.short other.info.spelling ++ "` is not supported; skipped")
          location

/-- Take up declarations at namespace scope in order. -/
def declareAll (scope : Scope) : List Declaration → Walk Unit
  | [] => return
  | d :: ds => do
    declare scope d
    declareAll scope ds

/-- The members that a declaration inside a class introduces. -/
def walkMember (c : ClassContext) (access : Access) : Declaration → Walk (List Member)
  | .function info f => do
    let own ← directivesAbove info none
    let found ← (memberFunction c access (.inherit own.mark c.inner.mark) info f).run
    return found.toList
  | .field info f => do
    let own ← directivesAbove info none
    memberFields c.inner access (.inherit own.mark c.inner.mark) info f
  | .classDef info head members => do
    nestedClass c access info head fun n => walkMembers n n.kind.defaultAccess members
    return []
  | .template info .. => do
    warn .memberTemplate ("member template in `" ++ c.name.text ++ "` is not exported")
      (← place info)
    return []
  | .typeAlias _ _ name type isComplex => do
    declareAlias c.inner name type isComplex
    return []
  | .skipped info description => do
    warn .unsupportedDeclaration
      (description ++ " in `" ++ c.name.text ++ "` is not supported; skipped") (← place info)
    return []
  | .usingDecl .. | .namespaceDef .. | .linkage .. | .instantiation .. | .access .. => return []

/-- The members of a class, in order. An access specifier holds for what follows it. -/
def walkMembers (c : ClassContext) (access : Access) : List Declaration → Walk (List Member)
  | [] => return []
  | .access _ level :: ds => walkMembers c (level.getD access) ds
  | d :: ds => do
    let found ← walkMember c access d
    return found ++ (← walkMembers c access ds)
end

end Walk

/-- What the walk over a header finds. -/
def Header.survey (h : Header) : Survey :=
  let start : Survey := { files := h.files, diagnostics := h.diagnostics }
  ((Walk.declareAll {} h.declarations).run start).2

namespace HeaderUnit

/-- The entities of a header. -/
def ofHeader (h : Header) : HeaderUnit :=
  let s := h.survey
  let (entities, reports) := Evidence.resolve s.entities s.evidence
  { files := h.files.toList.map (·.path)
    systemIncludes := h.systemIncludes
    entities
    aliases := s.aliases
    diagnostics := s.diagnostics ++ reports }

/-- Read a header and collect its entities. -/
def load (sources : Sources) (flags : List String) (path : String) :
    Except (Located ReadFault) HeaderUnit :=
  (Header.load sources flags path).map ofHeader

end HeaderUnit
end Bindery
