import Bindery.Proofs.Fallible
import Bindery.Proofs.Render.Part

/-!
# What the parts of a module register

A part registers its subject exactly when all types that it needs have a meaning at the boundary.
So what a module registers can be read off the types of what it is made for.

## Main definitions

* `Registry.crosses`, `Registry.takes`, `Registry.carries`: a type, parameters or a signature with
  a meaning at the boundary.
* `Part.registered`: the subjects that a list of parts registers.

## Main statements

* `ExportedClass.registered_parts`: what the parts of a class register.
-/
namespace Bindery

/-! ## Types with a meaning -/

namespace Registry

/-- Values of the type can cross the boundary. -/
def crosses (r : Registry) (t : TypeExpr) : Bool := (r.valueType t).toOption.isSome

/-- Values for all of the parameters can cross. -/
def takes (r : Registry) (params : List Param) : Bool := params.all fun p => r.crosses p.type

/-- Values for the parameters and results can cross. -/
def carries (r : Registry) (s : Signature) : Bool :=
  r.takes s.params && (r.resultType s.result).toOption.isSome

theorem valueType_ne_void (r : Registry) (t : TypeExpr) : r.valueType t ≠ .ok .void := by
  unfold valueType
  split
  · exact fun h => by cases h
  · next hne => exact hne

end Registry

variable {r : Registry}

theorem ParamCode.isSome_ofParams (params : List Param) :
    (ParamCode.ofParams r params).toOption.isSome = r.takes params := by
  have hone : ∀ (q : Param × Nat),
      (ParamCode.ofParam r q.2 q.1).toOption.isSome = r.crosses q.1.type := by
    intro q
    rw [Registry.crosses, ParamCode.ofParam, isSome_toOption_bind]
    cases r.valueType q.1.type <;> rfl
  rw [ParamCode.ofParams, isSome_toOption_mapM, Registry.takes]
  conv_rhs => rw [← List.zipIdx_map_fst 0 params, List.all_map]
  congr
  funext q
  exact hone q

theorem ResultCode.isSome_ofType (t : TypeExpr) :
    (ResultCode.ofType r t).toOption.isSome = (r.resultType t).toOption.isSome := by
  rw [ResultCode.ofType, isSome_toOption_bind]
  cases r.resultType t <;> rfl

namespace SignaturePattern

theorem isSome_ofParam (p : Param) :
    (ofParam r p).toOption.isSome = r.crosses p.type := by
  rw [Registry.crosses, ofParam, isSome_toOption_bind]
  have hvoid := r.valueType_ne_void p.type
  cases hvalue : r.valueType p.type with
  | error fault => rfl
  | ok native =>
    rw [hvalue] at hvoid
    cases native with
    | void => exact absurd rfl hvoid
    | _ => rfl

theorem isSome_ofParams (params : List Param) :
    (ofParams r params).toOption.isSome = r.takes params := by
  have hmap : (ofParams r params).toOption.isSome =
      (params.mapM (ofParam r)).toOption.isSome := by
    rw [ofParams, isSome_toOption_bind]
    cases params.mapM (ofParam r) <;> rfl
  simp only [hmap, isSome_toOption_mapM, isSome_ofParam, Registry.takes]

theorem isSome_ofSignature (s : Signature) :
    (ofSignature r s).toOption.isSome = r.carries s := by
  rw [ofSignature, isSome_toOption_bind, Registry.carries, ← isSome_ofParams]
  cases r.resultType s.result <;> simp [Except.toOption]

end SignaturePattern

/-! ## Parts -/

namespace Part

/-- The subject that a part registers. -/
def registered? : Part → Option Subject
  | entry subject _ (.ok _) => some subject
  | _ => none

/-- The subjects that parts register, in order. -/
def registered (parts : List Part) : List Subject := parts.filterMap registered?

@[simp] theorem registered_nil : registered [] = [] := rfl

theorem registered_cons (p : Part) (ps : List Part) :
    registered (p :: ps) = p.registered?.toList ++ registered ps := by
  rw [registered, List.filterMap_cons]
  cases p.registered? <;> rfl

@[simp] theorem registered_append (ps qs : List Part) :
    registered (ps ++ qs) = registered ps ++ registered qs :=
  List.filterMap_append

theorem registered_flatMap {α : Type} (f : α → List Part) (xs : List α) :
    registered (xs.flatMap f) = xs.flatMap fun a => registered (f a) :=
  List.filterMap_flatMap

@[simp] theorem registered?_indent (p : Part) : p.indent.registered? = p.registered? := by
  rcases p with lines | ⟨subject, families, result⟩
  · rfl
  · cases result <;> rfl

@[simp] theorem registered_block (header : String) (body : List Part) :
    registered (block header body) = registered body := by
  have hindent : registered (body.map indent) = registered body := by
    rw [registered, List.filterMap_map]
    exact List.filterMap_congr fun p _ => registered?_indent p
  rw [block, registered_append, ← hindent]
  exact List.append_nil _

theorem registered?_ofCode (subject : Subject) (entity : String)
    (types : List (Except MarshalFault NativeType)) (code : Except MarshalFault (List SourceLine)) :
    (ofCode subject entity types code).registered? =
      if code.toOption.isSome then some subject else none := by
  cases code <;> rfl

theorem registered?_ofText (subject : Subject) (entity : String)
    (types : List (Except MarshalFault NativeType)) (text : Except MarshalFault String) :
    (ofText subject entity types text).registered? =
      if text.toOption.isSome then some subject else none := by
  cases text <;> rfl

@[simp] theorem registered_scaffold (lines : List SourceLine) (ps : List Part) :
    registered (scaffold lines :: ps) = registered ps := rfl

/-- Parts that register a subject under a condition. -/
theorem registered_map {α : Type} {f : α → Part} {cond : α → Bool} {subject : α → Subject}
    (hf : ∀ a, (f a).registered? = if cond a then some (subject a) else none) (xs : List α) :
    registered (xs.map f) = (xs.filter cond).map subject := by
  induction xs with
  | nil => rfl
  | cons a xs ih =>
    rw [List.map_cons, registered_cons, hf, ih, List.filter_cons]
    split <;> rfl

end Part

namespace ExportedClass

variable (c : ExportedClass)

theorem registered?_constructorPart (k : Constructor) : (c.constructorPart r k).registered? =
    if r.takes k.params then some (.constructor c.native) else none := by
  rw [constructorPart, Part.registered?_ofText, isSome_toOption_bind, ← ParamCode.isSome_ofParams]
  cases ParamCode.ofParams r k.params <;> rfl

theorem registered?_methodPart (m : Method) : (c.methodPart r m).registered? =
    if r.carries m.signature then some (.method c.native m.name) else none := by
  rw [methodPart, Part.registered?_ofText, isSome_toOption_bind, Registry.carries,
    ← ParamCode.isSome_ofParams, ← ResultCode.isSome_ofType]
  cases ParamCode.ofParams r m.signature.params with
  | error fault => rfl
  | ok ps => cases ResultCode.ofType r m.signature.result <;> rfl

theorem registered?_fieldPart (f : Field) : (c.fieldPart r f).registered? =
    if r.crosses f.type then some (.field c.native f.name) else none := by
  rw [fieldPart, Part.registered?_ofText, isSome_toOption_bind, Registry.crosses]
  cases r.valueType f.type <;> rfl

end ExportedClass

theorem FunctionEntity.registered?_part (host callee : String) (f : FunctionEntity) :
    (f.part r host callee).registered? =
      if r.carries f.signature then some (.function host) else none := by
  rw [FunctionEntity.part, Part.registered?_ofText, isSome_toOption_bind, Registry.carries,
    ← ParamCode.isSome_ofParams, ← ResultCode.isSome_ofType]
  cases ParamCode.ofParams r f.signature.params with
  | error fault => rfl
  | ok ps => cases ResultCode.ofType r f.signature.result <;> rfl

theorem ExportedTemplate.registered?_entryPointPart (t : ExportedTemplate) (exportName : String)
    (group : List ExportedInstantiation) : (t.entryPointPart r exportName group).registered? =
      if (t.catalogue r exportName).toOption.isSome then some (.entryPoint exportName)
      else none := by
  rw [entryPointPart, Part.registered?_ofCode, isSome_toOption_bind]
  cases t.catalogue r exportName <;> rfl

/-- What the parts of a class register: constructors, then methods, then fields. -/
theorem ExportedClass.registered_parts (c : ExportedClass) (shared : List String) (host : String) :
    Part.registered (c.parts r shared host) =
      (if c.isAbstract then []
        else (c.constructors.filter (r.takes ·.params)).map (fun _ => .constructor c.native) ++
          if c.defaultConstructor then [.constructor c.native] else []) ++
      (c.methods.flatMap fun g => (g.overloads.filter (r.carries ·.signature)).map
        fun m => .method c.native m.name) ++
      (c.fields.filter (r.crosses ·.type)).map fun f => .field c.native f.name := by
  have hconstructors : Part.registered (c.constructorParts r) =
      if c.isAbstract then []
      else (c.constructors.filter (r.takes ·.params)).map (fun _ => .constructor c.native) ++
        if c.defaultConstructor then [.constructor c.native] else [] := by
    unfold constructorParts
    split
    · rfl
    · rw [Part.registered_append, Part.registered_map c.registered?_constructorPart]
      split <;> rfl
  have hmethods : Part.registered (c.methods.flatMap fun g => g.overloads.map (c.methodPart r)) =
      c.methods.flatMap fun g => (g.overloads.filter (r.carries ·.signature)).map
        fun m => .method c.native m.name := by
    rw [Part.registered_flatMap]
    exact List.flatMap_congr fun g _ => Part.registered_map c.registered?_methodPart g.overloads
  simp only [parts, Part.registered_block, Part.line, List.cons_append, Part.registered_scaffold,
    Part.registered_append, hconstructors, hmethods, Part.registered_map c.registered?_fieldPart]

end Bindery
