import Bindery.Bound.Class
import Bindery.Proofs.Export.Surface
import Bindery.Proofs.OrderedMap
import Bindery.Proofs.Render.Registered

/-!
# Bound classes beside generated ones

A bound class leaves out the members with a type that cannot cross the boundary, and so does the
code that is generated for the class. Each walks through the members in its own way: the bound class
groups overloads by name and stores fields by name, the generated code takes member by member. They
come to the same constructors, overloads and fields.

## Main definitions

* `ExportedClass.Regular`: what holds of every class that is exported.
* `BoundClass.Mirrors`: a bound class has what is registered.

## Main statements

* `BoundClass.mirrors_bind`: a bound class has what its generated counterpart registers.
-/
namespace Bindery

/-! ## Exported classes -/

/-- Overloads stand under their own name, and an abstract class has no constructor. -/
structure ExportedClass.Regular (c : ExportedClass) : Prop where
  names : ∀ g ∈ c.methods, ∀ m ∈ g.overloads, m.name = g.name
  abstract : c.isAbstract = true → c.constructors = [] ∧ c.defaultConstructor = false

theorem HeaderUnit.exportClass_regular (u : HeaderUnit) (p : ExportPolicy) (owner : ExportMark)
    (native exportName : String) (c : ClassEntity) :
    (u.exportClass p owner native exportName c).Regular := by
  refine ⟨fun g hg m hm => ?_, fun habstract => ?_⟩
  · rw [methods_exportClass] at hg
    obtain ⟨⟨name, overloads⟩, hentry, rfl⟩ := List.mem_map.1 hg
    exact ((u.surface_valid p owner c).methods name overloads hentry m hm).1
  · have habstract : c.isAbstract = true := habstract
    simp [exportClass, habstract, ClassEntity.hasImplicitConstructor]

/-- The bound class has what is registered: as many constructors, as many overloads of each method,
and the same fields. -/
structure BoundClass.Mirrors (c : BoundClass) (subjects : List Subject) : Prop where
  constructors : c.constructors.length = subjects.count (.constructor c.native)
  methods : ∀ name,
    ((c.methods.find? name).getD []).length = subjects.count (.method c.native name)
  methodNames : ∀ name, name ∈ c.methods.keys ↔ .method c.native name ∈ subjects
  fields : ∀ name, name ∈ c.fields.keys ↔ .field c.native name ∈ subjects

namespace ExportedClass

variable {r : Registry} {c : ExportedClass}

/-- The overloads of all methods, each with the name of its method. -/
def namedMethods (c : ExportedClass) : List (String × Method) :=
  c.methods.flatMap fun g => g.overloads.map fun m => (g.name, m)

/-- What the parts of a regular class register. -/
theorem Regular.registered_parts (hc : c.Regular) (shared : List String) (host : String) :
    Part.registered (c.parts r shared host) =
      List.replicate ((c.constructors.filter (r.takes ·.params)).length +
        if c.defaultConstructor then 1 else 0) (.constructor c.native) ++
      (c.namedMethods.filter (r.carries ·.2.signature)).map (fun q => .method c.native q.1) ++
      (c.fields.filter (r.crosses ·.type)).map fun f => .field c.native f.name := by
  rw [ExportedClass.registered_parts]
  congr 2
  · split
    · next habstract => simp [hc.abstract habstract]
    · rw [List.map_const', List.replicate_add]
      split <;> rfl
  · rw [namedMethods, List.filter_flatMap, List.map_flatMap]
    refine List.flatMap_congr fun g hg => ?_
    rw [List.filter_map, List.map_map]
    refine List.map_congr_left fun m hm => ?_
    rw [Function.comp_apply, hc.names g hg m (List.mem_filter.1 hm).1]

end ExportedClass

namespace BoundClass

variable {r : Registry} {c : ExportedClass}

/-- What binds of a list is what gives a result. -/
theorem map_fst_bound {α β : Type} (f : α → Except MarshalFault β) (items : List α) :
    (bound f items).map Prod.fst = items.filter fun a => (f a).toOption.isSome := by
  induction items with
  | nil => rfl
  | cons a items ih =>
    cases h : f a with
    | error fault => simpa [bound, h, Except.toOption] using ih
    | ok b => simpa [bound, h, Except.toOption] using ih

theorem length_constructors_bind (r : Registry) (host : String) (c : ExportedClass) :
    (bind r host c).constructors.length = (c.constructors.filter (r.takes ·.params)).length +
      if c.defaultConstructor then 1 else 0 := by
  have hbound := congrArg List.length
    (map_fst_bound (fun k : Constructor => SignaturePattern.ofParams r k.params) c.constructors)
  simp only [SignaturePattern.isSome_ofParams, List.length_map] at hbound
  rw [← hbound]
  simp only [bind, List.length_append, List.length_map]
  congr 1
  split <;> rfl

/-- The overloads of a name that are bound. -/
theorem find?_methods_bind (r : Registry) (host : String) (c : ExportedClass) (name : String) :
    ((bind r host c).methods.find? name).map List.length =
      if (c.namedMethods.filter (r.carries ·.2.signature)).filter (·.1 = name) = [] then none
      else some ((c.namedMethods.filter (r.carries ·.2.signature)).filter (·.1 = name)).length := by
  have hbound := map_fst_bound
    (fun q : String × Method => SignaturePattern.ofSignature r q.2.signature) c.namedMethods
  simp only [SignaturePattern.isSome_ofSignature] at hbound
  have hmethods : (bind r host c).methods =
      ⟨(OrderedMap.groupBy (fun q => q.1.1)
        (bound (fun q : String × Method => SignaturePattern.ofSignature r q.2.signature)
          c.namedMethods)).entries.map fun p => (p.1, p.2.map Prod.snd)⟩ := rfl
  rw [hmethods, OrderedMap.find?_map_values, OrderedMap.find?_groupBy, ← hbound]
  simp only [List.filter_map, Function.comp_def, List.map_eq_nil_iff, List.length_map]
  split <;> simp

theorem mem_fields_bind (r : Registry) (host : String) (c : ExportedClass) (name : String) :
    name ∈ (bind r host c).fields.keys ↔
      name ∈ (c.fields.filter (r.crosses ·.type)).map (·.name) := by
  have hcrosses : ∀ f : Field, (BoundField.bind r f).toOption.isSome = r.crosses f.type := by
    intro f
    rw [Registry.crosses, BoundField.bind, isSome_toOption_bind]
    cases r.valueType f.type <;> rfl
  have hbound := map_fst_bound (BoundField.bind r) c.fields
  simp only [hcrosses] at hbound
  rw [← hbound, List.map_map]
  simp only [bind, OrderedMap.mem_keys_ofList, List.map_map, Function.comp_def]

theorem count_map_method (native name : String) (named : List (String × Method)) :
    (named.map fun q => Subject.method native q.1).count (.method native name) =
      (named.filter (·.1 = name)).length := by
  rw [List.count, List.countP_map, List.countP_eq_length_filter]
  congr 2
  funext q
  rw [Bool.eq_iff_iff]
  simp

/-- **A bound class has what its generated counterpart registers.** -/
theorem mirrors_bind (hc : c.Regular) (r : Registry) (shared : List String) (host : String) :
    (bind r host c).Mirrors (Part.registered (c.parts r shared host)) := by
  have hnative : (bind r host c).native = c.native := rfl
  have hcount (name : String) : (Part.registered (c.parts r shared host)).count
      (.method c.native name) =
        ((c.namedMethods.filter (r.carries ·.2.signature)).filter (·.1 = name)).length := by
    rw [hc.registered_parts, List.count_append, List.count_append, count_map_method,
      List.count_eq_zero.2 (by simp), List.count_eq_zero.2 (by simp), Nat.zero_add, Nat.add_zero]
  -- Constructors, methods and fields are counted apart: a subject is of one sort only.
  refine ⟨?_, fun name => ?_, fun name => ?_, fun name => ?_⟩
  · rw [length_constructors_bind, hnative, hc.registered_parts, List.count_append,
      List.count_append, List.count_replicate_self, List.count_eq_zero.2 (by simp),
      List.count_eq_zero.2 (by simp)]
    rfl
  · have hfind := find?_methods_bind r host c name
    rw [hnative, hcount]
    split at hfind
    · next hnone => simp [Option.map_eq_none_iff.1 hfind, hnone]
    · obtain ⟨overloads, hoverloads, hlength⟩ := Option.map_eq_some_iff.1 hfind
      rw [hoverloads, Option.getD_some, hlength]
  · have hfind := find?_methods_bind r host c name
    rw [hnative, OrderedMap.mem_keys_iff, ← List.count_pos_iff, hcount, List.length_pos_iff]
    split at hfind
    · next hnone => simp [Option.map_eq_none_iff.1 hfind, hnone]
    · next hsome =>
      obtain ⟨overloads, hoverloads, -⟩ := Option.map_eq_some_iff.1 hfind
      exact ⟨fun _ => hsome, fun _ => ⟨overloads, hoverloads⟩⟩
  · rw [hnative, mem_fields_bind, hc.registered_parts]
    simp

end BoundClass

end Bindery
