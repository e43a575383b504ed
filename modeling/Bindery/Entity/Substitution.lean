import Bindery.Entity.Basic

/-!
# Replacing template parameters in entities

Instantiating a template replaces its parameters in all types of the declaration behind it.
Names, marks and places stay as they are, and so do default arguments, which are text.

## Main definitions

* `Signature.substitute`, `ClassEntity.substitute`, `Concrete.substitute`.
-/
namespace Bindery

/-- Replace parameters in the type of a parameter. -/
def Param.substitute (b : Bindings) (p : Param) : Param := { p with type := p.type.substitute b }

/-- Replace parameters in a signature. -/
def Signature.substitute (b : Bindings) (s : Signature) : Signature :=
  ⟨s.params.map (Param.substitute b), s.result.substitute b⟩

/-- Replace parameters in the types of a member. -/
def Member.substitute (b : Bindings) : Member → Member
  | constructor c => constructor { c with params := c.params.map (Param.substitute b) }
  | method m => method { m with signature := m.signature.substitute b }
  | field f => field { f with type := f.type.substitute b }

/-- Replace parameters in the bases and members of a class. -/
def ClassEntity.substitute (b : Bindings) (c : ClassEntity) : ClassEntity :=
  { c with
    bases := c.bases.map fun base => { base with type := base.type.substitute b }
    members := c.members.map (Member.substitute b) }

/-- Replace parameters in the signature of a function. -/
def FunctionEntity.substitute (b : Bindings) (f : FunctionEntity) : FunctionEntity :=
  { f with signature := f.signature.substitute b }

/-- Replace parameters in a declaration. -/
def Concrete.substitute (b : Bindings) : Concrete → Concrete
  | ofClass c => ofClass (c.substitute b)
  | ofFunction f => ofFunction (f.substitute b)

end Bindery
