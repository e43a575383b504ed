import Bindery.Export.Model

/-!
# The surface of a unit

Hidden entities are left out under every policy, and so are members that are not public. A
class shows the members it declares itself. A public base that is offered is named as a
base; of one that is not offered, the public members are folded into the class, except for
names that are shown already, and so on through the bases of the base.

## Main definitions

* `Surface`: the members that a class shows.
* `Surface.inheritFrom`: fold in a base and the bases behind it.
* `HeaderUnit.exportModel`: the export model of a unit under a policy.
-/
namespace Bindery

/-- Why a unit has no export model. -/
inductive ExportFault where
  | unknownTarget (name : String)
deriving DecidableEq, Inhabited

/-- The words for a fault. -/
def ExportFault.message : ExportFault → String
  | unknownTarget name =>
    "unknown export target `" ++ name ++ "`: no such class in the translation unit"

namespace ExportPolicy

/-- The class is offered. -/
def selects (p : ExportPolicy) (c : ClassEntity) : Bool :=
  c.mark ≠ .hidden && match p with
    | explicit names => names.any c.name.isNamedBy
    | defaultPublic => c.members.all Member.isPublic || c.members.any Member.isPublic
    | annotated => c.mark = .exported

/-- A class with the given mark shows the member. A member without a mark goes by that of
the class. -/
def shows (p : ExportPolicy) (owner : ExportMark) (m : Member) : Bool :=
  m.isPublic && p.admits (if m.mark = .unmarked then owner else m.mark)

end ExportPolicy

/-- The members that a class shows, and the classes that were looked at for them. -/
structure Surface where
  methods : OrderedMap String (List Method) := {}
  fields : List Field := []
  visited : List QualifiedName := []
deriving Inhabited

namespace Surface

/-- The names that are shown. -/
def names (s : Surface) : List String := s.methods.keys ++ s.fields.map (·.name)

/-- Show one more member; constructors are kept elsewhere. -/
def add (s : Surface) : Member → Surface
  | .constructor _ => s
  | .method m => { s with methods := s.methods.push m.name m }
  | .field f => { s with fields := s.fields ++ [f] }

/-- The members of a base that a class with the surface takes over. -/
def inheritable (s : Surface) (base : ClassEntity) : List Member :=
  base.members.filter fun m =>
    m.isPublic && m.mark ≠ .hidden && m.name?.any fun n => !s.names.contains n

/-- Take over the members of one base. -/
def absorb (s : Surface) (base : ClassEntity) : Surface :=
  (s.inheritable base).foldl add { s with visited := s.visited ++ [base.name] }

/-- Fold in a base and the bases behind it. Every level looks at one more class of the unit,
so the number of classes bounds the depth. -/
def inheritFrom (u : HeaderUnit) : Nat → Surface → ClassEntity → Surface
  | 0, s, _ => s
  | depth + 1, s, base =>
    if s.visited.contains base.name then s
    else base.bases.foldl
      (fun s b =>
        match u.classNamed? b.name with
        | some c => inheritFrom u depth s c
        | none => s)
      (s.absorb base)

/-- The surface of the members that a class declares itself. -/
def own (p : ExportPolicy) (owner : ExportMark) (c : ClassEntity) : Surface :=
  (c.members.filter (p.shows owner)).foldl add { visited := [c.name] }

end Surface

/-! ## The model -/

/-- The base is public. -/
def BaseRef.isPublic (b : BaseRef) : Bool := b.access = .isPublic

namespace HeaderUnit

/-- The classes that a policy selects. -/
def selected (u : HeaderUnit) (p : ExportPolicy) : List ClassEntity :=
  u.classes.filter p.selects

/-- The class with the complete name is offered. -/
def offers (u : HeaderUnit) (p : ExportPolicy) (name : QualifiedName) : Bool :=
  (u.selected p).any (·.name = name)

/-- Fold a public base that is not offered into a surface. -/
def foldBase (u : HeaderUnit) (p : ExportPolicy) (s : Surface) (b : BaseRef) : Surface :=
  if !b.isPublic || u.offers p b.name then s
  else match u.classNamed? b.name with
    | some c => s.inheritFrom u (u.classes.length + 1) c
    | none => s

/-- A class as the host sees it, under a spelling and a name. -/
def exportClass (u : HeaderUnit) (p : ExportPolicy) (owner : ExportMark)
    (native exportName : String) (c : ClassEntity) : ExportedClass :=
  let surface := c.bases.foldl (u.foldBase p) (Surface.own p owner c)
  { name := c.name
    exportName
    native
    kind := c.kind
    bases := (c.bases.filter fun b => b.isPublic && u.offers p b.name).map (·.name.text)
    constructors :=
      if c.isAbstract then []
      else (c.members.filter (p.shows owner)).filterMap Member.constructor?
    defaultConstructor := c.hasImplicitConstructor
    methods := surface.methods.entries.map fun (name, overloads) => ⟨name, overloads⟩
    fields := surface.fields
    isAbstract := c.isAbstract
    location := c.location }

/-- An instantiation as the host sees it. -/
def exportInstantiation (u : HeaderUnit) (p : ExportPolicy) (i : Instantiation) :
    ExportedInstantiation :=
  { exportName := i.exportName
    native := i.native
    args := i.args
    specificity := i.specificity
    item := match i.entity with
      | .ofClass c => .ofClass (u.exportClass p i.mark i.native i.exportName c)
      | .ofFunction f => .ofFunction f }

/-- A template as the host sees it; none when no instantiation is offered. -/
def exportTemplate? (u : HeaderUnit) (p : ExportPolicy) (t : TemplateEntity) :
    Option ExportedTemplate :=
  if t.mark = .hidden then none
  else match t.instantiations.filter fun i => p.admits i.mark with
    | [] => none
    | offered => some ⟨t.name, t.isClassTemplate, offered.map (u.exportInstantiation p)⟩

/-- A class or class template goes by the name. -/
def hasTarget (u : HeaderUnit) (name : String) : Bool :=
  (u.findClass? name).isSome || (u.findTemplate? name).any (·.isClassTemplate)

/-- The first requested name that denotes nothing. -/
def missingTarget? (u : HeaderUnit) : ExportPolicy → Option String
  | .explicit names => names.find? (!u.hasTarget ·)
  | _ => none

/-- The export model of a unit under a policy. -/
def exportModel (u : HeaderUnit) (p : ExportPolicy) : Except ExportFault ExportModel :=
  match u.missingTarget? p with
  | some name => .error (.unknownTarget name)
  | none => .ok
    { policy := p
      files := u.files
      classes := (u.selected p).map fun c => u.exportClass p c.mark c.name.text c.name.name c
      functions := ((OrderedMap.groupBy (fun f : FunctionEntity => f.name.name)
        (u.functions.filter fun f => p.admits f.mark)).entries.map fun (n, fs) => ⟨n, fs⟩)
      templates := u.templates.filterMap (u.exportTemplate? p)
      diagnostics := u.diagnostics }

end HeaderUnit
end Bindery
