import Bindery.Instance.Arguments

/-!
# Catalogues of instantiations

Each hint is matched to its template and turned into an instantiation, which is served by
the most specific declaration that applies: a full specialisation with the same arguments,
else the first partial specialisation whose pattern matches, else the primary template. Full
and partial specialisations are attached to their templates before anything is instantiated,
so every instantiation sees all of them. A catalogue lists each export name and argument list
once, and is sorted by specificity in the end.

## Main definitions

* `Specializations`: the specialisations of one template.
* `TemplateEntity.instantiate`: bind arguments to the most specific declaration.
* `TemplateEntity.extend`: add instantiations to a catalogue.
* `Evidence.resolve`: fill the catalogues of all templates.
-/
namespace Bindery

/-- The specialisations of one template, in order of declaration. -/
structure Specializations where
  partials : List (PartialSpec × Option Location) := []
  fulls : List FullSpec := []
deriving Inhabited

/-- The bindings under which a partial specialisation serves the arguments. -/
def PartialSpec.match? (p : PartialSpec) (args : List TemplateArg) : Option Bindings :=
  let names := p.params.map TemplateParam.name
  if p.args.length = args.length then
    match TemplateArg.unifyAll names p.args args {} with
    | (true, b) => if names.all b.contains then some b else none
    | (false, _) => none
  else none

namespace TemplateEntity

/-- Bind arguments to the most specific declaration of a template. -/
def instantiate (t : TemplateEntity) (specs : Specializations) (args : List TemplateArg)
    (exportName : String) (provenance : Provenance) (mark : ExportMark) :
    Except InstanceFault Instantiation :=
  if args.length ≠ t.params.length then
    .error (.templateArity t.name.text args.length t.params.length)
  else
    let make (specificity : Specificity) (own : Option ExportMark) (entity : Concrete) :
        Instantiation :=
      { exportName, args, bindings := TemplateParam.bind t.params args, specificity, provenance,
        mark := .inherit own mark, native := t.nativeName args, entity }
    match specs.fulls.find? fun f => TemplateArg.denoteSame f.args args with
    | some full => .ok (make .full full.mark full.entity)
    | none =>
      match specs.partials.findSome? fun (p, _) => (p.match? args).map fun b => (p, b) with
      | some (p, b) => .ok (make .partialMatch p.mark (p.pattern.substitute b))
      | none =>
        .ok (make .primary none (t.pattern.substitute (TemplateParam.bind t.params args)))

/-- Two instantiations that a catalogue does not list both. -/
def isRepeat (a b : Instantiation) : Bool :=
  a.exportName = b.exportName && TemplateArg.denoteSame a.args b.args

/-- List an instantiation, unless it repeats one that is listed already. -/
def listNew (listed : List Instantiation) (i : Instantiation) : List Instantiation :=
  if listed.any (isRepeat · i) then listed else listed ++ [i]

/-- Add instantiations to a catalogue, except for those that it lists already. -/
def extend (t : TemplateEntity) (found : List Instantiation) : TemplateEntity :=
  { t with instantiations := found.foldl listNew t.instantiations }

/-- Instantiations by specificity; equally specific ones keep their order. -/
def sortBySpecificity (is : List Instantiation) : List Instantiation :=
  is.mergeSort fun a b => a.specificity.rank ≤ b.specificity.rank

/-- The instantiation that a full specialisation stands for. -/
def ofFullSpec (t : TemplateEntity) (full : FullSpec) : Instantiation :=
  { exportName := t.name.name
    args := full.args
    bindings := TemplateParam.bind t.params full.args
    specificity := .full
    provenance := .specialization
    mark := .inherit full.mark t.mark
    native := t.nativeName full.args
    entity := full.entity }

/-- The instantiation that a directive on a partial specialisation asks for. -/
def ofPartialRequest (t : TemplateEntity) (specs : Specializations) (p : PartialSpec)
    (r : InstanceRequest) : Except InstanceFault Instantiation := do
  let own ← TemplateParam.complete p.params (← r.readArgs)
  let args := p.args.map (TemplateArg.substitute (TemplateParam.bind p.params own))
  t.instantiate specs args (r.name.getD t.name.name) .directive (.inherit p.mark t.mark)

/-- The instantiation that a directive on the template asks for. -/
def ofRequest (t : TemplateEntity) (specs : Specializations) (r : InstanceRequest) :
    Except InstanceFault Instantiation := do
  let args ← TemplateParam.complete t.params (← r.readArgs)
  t.instantiate specs args (r.name.getD t.name.name) .directive t.mark

/-- The arguments of an explicit instantiation of a template. -/
def explicitArgs? (t : TemplateEntity) (args : Option (List TemplateArg))
    (signature : Option Signature) : Option (List TemplateArg) :=
  match signature with
  | none => args.bind fun as => (TemplateParam.complete t.params as).toOption
  | some s => t.deduce? args s

/-- The instantiation that an explicit one denotes. -/
def ofExplicit? (t : TemplateEntity) (specs : Specializations)
    (args : Option (List TemplateArg)) (signature : Option Signature) : Option Instantiation := do
  let args ← t.explicitArgs? args signature
  (t.instantiate specs args t.name.name .explicitInstantiation t.mark).toOption

end TemplateEntity

/-! ## Finding templates -/

/-- The scopes around a place, the innermost first. -/
def enclosingScopes (scope : List String) : List (List String) :=
  (List.range (scope.length + 1)).reverse.map scope.take

/-- The template at a place in the list of entities. -/
def templateAt? (entities : List Entity) (index : Nat) : Option TemplateEntity :=
  entities[index]?.bind Entity.template?

/-- The places of the templates with a complete name, of classes or of functions. -/
def templatesNamed (entities : List Entity) (isClass : Bool) (path : List String) : List Nat :=
  (List.range entities.length).filter fun i =>
    (templateAt? entities i).any fun t => t.name.segments = path && t.isClassTemplate = isClass

/-- The templates that a written name may denote: those of the innermost scope that has
any. -/
def templateCandidates (entities : List Entity) (scope : List String) (isClass : Bool)
    (written : List String) : List Nat :=
  ((enclosingScopes scope).findSome? fun outer =>
    match templatesNamed entities isClass (outer ++ written) with
    | [] => none
    | found => some found).getD []

/-! ## Resolution -/

/-- Evidence on its way to the templates. -/
structure Placement where
  partials : List (Nat × PartialSpec × Option Location) := []
  fulls : List (Nat × FullSpec) := []
  /-- Hints that wait until all specialisations are attached. -/
  uses : List Evidence := []
  diagnostics : List Diagnostic := []
deriving Inhabited

/-- The specialisations attached to the template at a place. -/
def Placement.specsOf (p : Placement) (index : Nat) : Specializations :=
  ⟨(p.partials.filter (·.1 = index)).map Prod.snd, (p.fulls.filter (·.1 = index)).map Prod.snd⟩

namespace Evidence

/-- The report that a hint has no template. -/
def unknownTemplate (e : Evidence) : Diagnostic :=
  .warning .unknownTemplate ("no matching template `" ++ "::".intercalate e.template ++
    "` for specialization or instantiation; skipped") e.location

/-- A function that specialises a template goes by the template's name. -/
def adopt (t : TemplateEntity) : Concrete → Concrete
  | .ofFunction f => .ofFunction { f with template := some t.name, name := t.name }
  | .ofClass c => .ofClass c

/-- The arguments of a full specialisation of a template. -/
def fullArgs? (t : TemplateEntity) (args : Option (List TemplateArg)) (entity : Concrete) :
    Option (List TemplateArg) :=
  match args, entity with
  | some as, _ => (TemplateParam.complete t.params as).toOption
  | none, .ofFunction f => t.deduce? none f.signature
  | none, .ofClass _ => none

/-- The template that a full specialisation belongs to, and its arguments there. -/
def placeFull? (entities : List Entity) (e : Evidence) (args : Option (List TemplateArg))
    (entity : Concrete) (mark : Option ExportMark) : Option (Nat × FullSpec) :=
  (templateCandidates entities e.scope entity.isClass e.template).findSome? fun i => do
    let t ← templateAt? entities i
    let complete ← fullArgs? t args entity
    return (i, ⟨complete, adopt t entity, mark⟩)

/-- Attach a specialisation to its template; other hints wait. -/
def place (entities : List Entity) (p : Placement) (e : Evidence) : Placement :=
  match e.kind with
  | .partialSpec spec =>
    match (templateCandidates entities e.scope spec.pattern.isClass e.template).head? with
    | some i => { p with partials := p.partials ++ [(i, spec, e.location)] }
    | none => { p with diagnostics := p.diagnostics ++ [e.unknownTemplate] }
  | .fullSpec args entity mark =>
    match placeFull? entities e args entity mark with
    | some full => { p with fulls := p.fulls ++ [full] }
    | none => { p with diagnostics := p.diagnostics ++ [e.unknownTemplate] }
  | .requests .. | .explicit .. => { p with uses := p.uses ++ [e] }

/-- A report on a directive that cannot be followed. -/
def badInstance (location : Option Location) (fault : InstanceFault) : Diagnostic :=
  .warning .instanceArity fault.message location

/-- Split results into those that succeeded and the reports of the others. -/
def partitionResults (results : List (Except InstanceFault Instantiation × Option Location)) :
    List Instantiation × List Diagnostic :=
  (results.filterMap fun r => r.1.toOption,
    results.filterMap fun r =>
      match r.1 with
      | .error fault => some (badInstance r.2 fault)
      | .ok _ => none)

/-- Fill a catalogue with the specialisations of its template. -/
def catalogueSpecs (specs : Specializations) (t : TemplateEntity) :
    TemplateEntity × List Diagnostic :=
  let requested := partitionResults (specs.partials.flatMap fun (p, location) =>
    p.requests.map fun r => (t.ofPartialRequest specs p r, location))
  let found := specs.fulls.map t.ofFullSpec ++ requested.1
  (t.extend (TemplateEntity.sortBySpecificity found), requested.2)

/-- Entities and the reports made so far. -/
abbrev Resolution := List Entity × List Diagnostic

/-- Fill all catalogues with the specialisations of their templates. -/
def catalogueAll (placement : Placement) (entities : List Entity) : Resolution :=
  let done := entities.zipIdx.map fun (e, i) =>
    match e with
    | .ofTemplate t =>
      let (t, reports) := catalogueSpecs (placement.specsOf i) t
      (Entity.ofTemplate t, reports)
    | e => (e, [])
  (done.map Prod.fst, done.flatMap Prod.snd)

/-- Change the template at a place. -/
def updateAt (entities : List Entity) (index : Nat) (f : TemplateEntity → TemplateEntity) :
    List Entity :=
  entities.modify index fun
    | .ofTemplate t => .ofTemplate (f t)
    | e => e

/-- The template that an explicit instantiation belongs to, and what it denotes there. -/
def placeExplicit? (placement : Placement) (entities : List Entity) (e : Evidence)
    (args : Option (List TemplateArg)) (signature : Option Signature) :
    Option (Nat × Instantiation) :=
  (templateCandidates entities e.scope signature.isNone e.template).findSome? fun i => do
    let t ← templateAt? entities i
    return (i, ← t.ofExplicit? (placement.specsOf i) args signature)

/-- Follow a hint that waited. -/
def follow (placement : Placement) (r : Resolution) (e : Evidence) : Resolution :=
  let (entities, diagnostics) := r
  match e.kind with
  | .requests index requests =>
    match templateAt? entities index with
    | none => r
    | some t =>
      let (found, reports) := partitionResults (requests.map fun request =>
        (t.ofRequest (placement.specsOf index) request, e.location))
      (updateAt entities index (·.extend found), diagnostics ++ reports)
  | .explicit args signature =>
    match placeExplicit? placement entities e args signature with
    | some (i, instantiation) =>
      (updateAt entities i (·.extend [instantiation]), diagnostics)
    | none => (entities, diagnostics ++ [e.unknownTemplate])
  | .partialSpec _ | .fullSpec .. => r

/-- Sort a catalogue by specificity. -/
def ordered : Entity → Entity
  | .ofTemplate t =>
    .ofTemplate { t with instantiations := TemplateEntity.sortBySpecificity t.instantiations }
  | e => e

/-- Fill the catalogues of all templates from the evidence. -/
def resolve (entities : List Entity) (evidence : List Evidence) : Resolution :=
  let placement := evidence.foldl (place entities) {}
  let (catalogued, reports) := catalogueAll placement entities
  let (followed, diagnostics) := placement.uses.foldl (follow placement)
    (catalogued, placement.diagnostics ++ reports)
  (followed.map ordered, diagnostics)

end Evidence
end Bindery
