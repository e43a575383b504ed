import Bindery.Proofs.Fallible
import Bindery.Proofs.Render.Part

/-!
# Emission by parts

Emitting a model comes to going through its parts: the lines, array families and omissions of the
parts are added in order, and a strict run stops at the first part that leaves something out. The
order in which an entity looks at its types is the order of its part.

## Main definitions

* `Emits`: an emission goes through parts.
* `Marshals`: a step inside an entity looks at types and comes to code, or leaves the entity out.

## Main statements

* `Emitter.emits_ofModel`: the emission of a model goes through the parts of the model.
-/
namespace Bindery

/-! ## Lines -/

/-- The line a number of levels deeper. -/
def SourceLine.nested (depth : Nat) (l : SourceLine) : SourceLine := ⟨l.depth + depth, l.text⟩

theorem SourceLine.nested_indent (depth : Nat) (l : SourceLine) :
    l.indent.nested depth = l.nested (depth + 1) := by
  rw [nested, indent, nested, Nat.add_assoc, Nat.add_comm 1]

namespace Emitted

/-- With lines added at the present depth. -/
def write (e : Emitted) (lines : List SourceLine) : Emitted :=
  { e with lines := e.lines ++ (lines.map (SourceLine.nested e.depth)).toArray }

theorem write_append (e : Emitted) (xs ys : List SourceLine) :
    e.write (xs ++ ys) = (e.write xs).write ys := by
  simp [write, Array.append_assoc]

/-- Between the lines of a block the depth is one more. -/
theorem write_block (e : Emitted) (header rest : String) (lines : List SourceLine) :
    e.write (SourceLine.block header lines rest) =
      { { e.write [.opening header] with depth := e.depth + 1 }.write lines with
        depth := e.depth }.write [.closing rest] := by
  simp [write, SourceLine.block, SourceLine.nested_indent, Function.comp_def]

end Emitted

namespace Emitter

theorem line_apply (text : String) (e : Emitted) :
    line text e = .ok ((), e.write [.flat text]) := by
  simp [line, Emitted.write, SourceLine.nested, SourceLine.flat]

/-- A block emits its body one level deeper. -/
theorem block_apply (header : String) (body : Emitter Unit) (rest : String) (e : Emitted) :
    block header body rest e =
      match body { e.write [.opening header] with depth := e.depth + 1 } with
      | .ok (_, e') => .ok ((), { e' with depth := e'.depth - 1 }.write [.closing rest])
      | .error omission => .error omission := by
  have hopening : SourceLine.flat (SourceLine.opening header).text = .opening header := rfl
  have hdepth : (e.write [.opening header]).depth = e.depth := rfl
  simp only [block, opening, closing, bind_apply, modify_apply, line_apply, hopening, hdepth]
  cases body _ <;> rfl

end Emitter

/-- An emission that does nothing but write lines. -/
def Writes (x : Emitter Unit) (lines : List SourceLine) : Prop := ∀ e, x e = .ok ((), e.write lines)

namespace Writes

variable {x y : Emitter Unit} {xs ys : List SourceLine}

theorem pure : Writes (pure ()) [] := fun e => by simp [Emitted.write]

theorem bind (hx : Writes x xs) (hy : Writes y ys) : Writes (x >>= fun _ => y) (xs ++ ys) := by
  intro e
  rw [bind_apply, hx e, Emitted.write_append]
  exact hy _

theorem line (text : String) : Writes (Emitter.line text) [.flat text] := Emitter.line_apply text

theorem forM {α : Type} {f : α → Emitter Unit} {lines : α → List SourceLine}
    (h : ∀ a, Writes (f a) (lines a)) (as : List α) : Writes (as.forM f) (as.flatMap lines) := by
  induction as with
  | nil => exact pure
  | cons a as ih => exact (h a).bind ih

theorem block (header : String) (h : Writes x xs) (rest : String) :
    Writes (Emitter.block header x rest) (SourceLine.block header xs rest) := by
  intro e
  rw [Emitted.write_block, Emitter.block_apply, h]
  rfl

end Writes

/-- What is emitted for an entry point is its table and its definition. -/
theorem Emitter.writes_dispatch (group : List ExportedInstantiation) (catalogue : Catalogue) :
    Writes (dispatch group catalogue) (catalogue.lines group) := by
  have hentry (e : CatalogueEntry) : Writes (block (e.headCode group)
      (e.signatures.forM fun s => line s.code) "\x7d,") (e.lines group) := by
    have hsignatures := Writes.forM (fun s : SignaturePattern => .line s.code) e.signatures
    rw [← List.map_eq_flatMap] at hsignatures
    exact hsignatures.block _ _
  have htable := (Writes.forM hentry catalogue.entries).block catalogue.headCode "\x7d;"
  exact (Writes.line "").bind ((htable.bind (.line catalogue.entryPointCode)).block "" "")

/-! ## Parts -/

namespace Emitted

/-- With parts added. -/
def extend (e : Emitted) (ps : List Part) : Emitted :=
  { e.write (ps.flatMap Part.lines) with
    families := e.families ++ ps.flatMap Part.families
    skipped := e.skipped ++ ps.filterMap Part.omission? }

theorem extend_append (e : Emitted) (ps qs : List Part) :
    e.extend (ps ++ qs) = (e.extend ps).extend qs := by
  simp [extend, write, Array.append_assoc, List.append_assoc]

theorem extend_singleton (e : Emitted) (p : Part) : e.extend [p] =
    { e.write p.lines with
      families := e.families ++ p.families, skipped := e.skipped ++ p.omission?.toList } := by
  cases h : p.omission? <;> simp [extend, h]

end Emitted

/-- The emission goes through the parts. A strict run stops at the first that leaves something
out. -/
def Emits (strict : Bool) (x : Emitter Unit) (ps : List Part) : Prop := ∀ e, x e =
  match strict, ps.filterMap Part.omission? with
  | true, first :: _ => .error first
  | _, _ => .ok ((), e.extend ps)

namespace Emits

variable {strict : Bool} {x y : Emitter Unit} {ps qs : List Part}

theorem pure : Emits strict (pure ()) [] := fun e => by
  cases strict <;> simp [Emitted.extend, Emitted.write]

theorem bind (hx : Emits strict x ps) (hy : Emits strict y qs) :
    Emits strict (x >>= fun _ => y) (ps ++ qs) := by
  intro e
  rw [bind_apply, hx e, List.filterMap_append, Emitted.extend_append]
  cases strict with
  | false => exact hy _
  | true =>
    cases ps.filterMap Part.omission? with
    | nil => exact hy _
    | cons first rest => rfl

theorem forM {α : Type} {f : α → Emitter Unit} {parts : α → List Part}
    (h : ∀ a, Emits strict (f a) (parts a)) (as : List α) :
    Emits strict (as.forM f) (as.flatMap parts) := by
  induction as with
  | nil => exact pure
  | cons a as ih => exact (h a).bind ih

theorem forM_map {α : Type} {f : α → Emitter Unit} {part : α → Part}
    (h : ∀ a, Emits strict (f a) [part a]) (as : List α) :
    Emits strict (as.forM f) (as.map part) := by
  rw [List.map_eq_flatMap]
  exact forM h as

theorem ite {p : Prop} [Decidable p] (hx : Emits strict x ps) (hy : Emits strict y qs) :
    Emits strict (if p then x else y) (if p then ps else qs) := by
  split
  · exact hx
  · exact hy

theorem scaffold {lines : List SourceLine} (h : Writes x lines) :
    Emits strict x [.scaffold lines] := fun e => by
  have hextend : e.extend [.scaffold lines] = e.write lines := by
    simp [Emitted.extend, Emitted.write, Part.lines, Part.families, Part.omission?]
  rw [h e, hextend]
  cases strict <;> rfl

theorem line (text : String) : Emits strict (Emitter.line text) [.line text] :=
  scaffold (.line text)

/-- Inside a block the same is emitted one level deeper. -/
theorem block (header : String) (h : Emits strict x ps) :
    Emits strict (Emitter.block header x "") (Part.block header ps) := by
  intro e
  have hextend : e.extend (Part.block header ps) =
      { { e.write [.opening header] with depth := e.depth + 1 }.extend ps with
        depth := e.depth }.write [.closing ""] := by
    rw [Emitted.extend, Part.lines_block, Part.families_block, Part.omissions_block,
      Emitted.write_block]
    rfl
  rw [Part.omissions_block, hextend, Emitter.block_apply, h]
  cases strict with
  | false => rfl
  | true => cases ps.filterMap Part.omission? <;> rfl

end Emits

/-! ## Types inside an entity -/

namespace Emitted

/-- With the array families of types collected, up to the first type that cannot cross. -/
def see (e : Emitted) (types : List (Except MarshalFault NativeType)) : Emitted :=
  { e with families := e.families ++ Part.seenFamilies types }

end Emitted

/-- Behind types that can all cross, further types are looked at. -/
theorem Part.seenFamilies_append (ts us : List (Except MarshalFault NativeType)) :
    seenFamilies (ts ++ us) =
      seenFamilies ts ++ if ts.all (·.toOption.isSome) then seenFamilies us else [] := by
  induction ts with
  | nil => rfl
  | cons t ts ih =>
    cases t with
    | error fault => rfl
    | ok native =>
      rw [List.cons_append, seenFamilies, seenFamilies, ih, List.append_assoc]
      rfl

/-- Go on with code that there is, or leave the entity out. -/
def Emitter.settle {α : Type} (c : EmitContext) (entity : String) :
    Except MarshalFault α → Emitter (Option α)
  | .ok a => return some a
  | .error (.unsupported type) => do
    leaveOut c entity type
    return none

/-- Inside an entity the types are looked at in order, which comes to the code; or the entity is
left out for the first that cannot cross. -/
structure Marshals {α : Type} (c : EmitContext) (entity : String) (x : OptionT Emitter α)
    (types : List (Except MarshalFault NativeType)) (code : Except MarshalFault α) : Prop where
  isSome_eq : code.toOption.isSome = types.all (·.toOption.isSome)
  run : ∀ e, x.run e = Emitter.settle c entity code (e.see types)

namespace Marshals

variable {α β : Type} {c : EmitContext} {entity : String} {x : OptionT Emitter α}
  {types : List (Except MarshalFault NativeType)} {code : Except MarshalFault α}

theorem pure (a : α) : Marshals c entity (pure a) [] (.ok a) where
  isSome_eq := rfl
  run e := by simp [Emitter.settle, Emitted.see, Part.seenFamilies]

theorem bind {f : α → OptionT Emitter β} {types' : List (Except MarshalFault NativeType)}
    {code' : α → Except MarshalFault β} (hx : Marshals c entity x types code)
    (hf : ∀ a, Marshals c entity (f a) types' (code' a)) :
    Marshals c entity (x >>= f) (types ++ types') (code >>= code') := by
  constructor
  · rw [isSome_toOption_bind, List.all_append, ← hx.isSome_eq]
    cases code with
    | error fault => rfl
    | ok a => exact (hf a).isSome_eq
  · intro e
    have hall := hx.isSome_eq
    rw [OptionT.run_bind, Option.elimM, bind_apply, hx.run]
    cases code with
    | error fault =>
      -- nothing is looked at behind the type that the entity is left out for
      have hsee : e.see (types ++ types') = e.see types := by
        rw [Emitted.see, Part.seenFamilies_append, ← hall, if_neg (by simp [Except.toOption]),
          List.append_nil, Emitted.see]
      obtain ⟨type⟩ := fault
      rw [hsee]
      change _ = Emitter.settle c entity (.error (.unsupported type)) (e.see types)
      simp only [Emitter.settle, bind_apply]
      cases Emitter.leaveOut c entity type (e.see types) <;> rfl
    | ok a =>
      have hsee : e.see (types ++ types') = (e.see types).see types' := by
        rw [Emitted.see, Part.seenFamilies_append, ← hall, ← List.append_assoc]
        rfl
      rw [hsee]
      exact (hf a).run _

/-- Code put together from what the types come to. -/
theorem bind_pure (h : Marshals c entity x types code) (f : α → β) :
    Marshals c entity (x >>= fun a => Pure.pure (f a)) types
      (code >>= fun a => Pure.pure (f a)) := by
  rw [← List.append_nil types]
  exact h.bind fun a => pure (f a)

theorem mapM {f : α → OptionT Emitter β} {type : α → Except MarshalFault NativeType}
    {code : α → Except MarshalFault β} (h : ∀ a, Marshals c entity (f a) [type a] (code a))
    (as : List α) : Marshals c entity (as.mapM f) (as.map type) (as.mapM code) := by
  induction as with
  | nil => exact pure []
  | cons a as ih =>
    rw [List.mapM_cons, List.mapM_cons]
    exact (h a).bind fun b => ih.bind_pure (b :: ·)

theorem meaning (t : TypeExpr) {found : Except MarshalFault NativeType}
    (h : ∀ type, found = .error (.unsupported type) → type = t.text) :
    Marshals c entity (Emitter.meaning c entity t found) [found] found := by
  constructor
  · simp
  · intro e
    cases found with
    | ok u =>
      have hsee : e.see [.ok u] = { e with families := e.families ++ u.arrayFamily?.toList } := by
        simp [Emitted.see, Part.seenFamilies]
      rw [hsee]
      rfl
    | error fault =>
      obtain ⟨type⟩ := fault
      obtain rfl := h type rfl
      have hsee : e.see [.error (.unsupported t.text)] = e := by
        simp [Emitted.see, Part.seenFamilies]
      rw [hsee]
      simp [Emitter.meaning, Emitter.settle]

end Marshals

/-- The type that a fault is about is the type in question. -/
theorem Registry.eq_text_of_resultType (r : Registry) (t : TypeExpr) (type : String)
    (h : r.resultType t = .error (.unsupported type)) : type = t.text := by
  unfold resultType at h
  split at h <;> cases h
  rfl

theorem Registry.eq_text_of_valueType (r : Registry) (t : TypeExpr) (type : String)
    (h : r.valueType t = .error (.unsupported type)) : type = t.text := by
  unfold valueType at h
  split at h
  · cases h
    rfl
  · exact r.eq_text_of_resultType t type h

namespace Emitter

variable (c : EmitContext)

theorem marshals_params (entity : String) (ps : List Param) :
    Marshals c entity (params c entity ps) (Part.paramTypes c.registry ps)
      (ParamCode.ofParams c.registry ps) := by
  have htypes : Part.paramTypes c.registry ps =
      ps.zipIdx.map fun q => c.registry.valueType q.1.type := by
    rw [Part.paramTypes]
    conv_lhs => rw [← List.zipIdx_map_fst 0 ps, List.map_map]
    rfl
  have hparam (q : Param × Nat) : Marshals c entity
      (do
        let native ← meaning c entity q.1.type (c.registry.valueType q.1.type)
        return ParamCode.ofNative q.2 q.1 native)
      [c.registry.valueType q.1.type] (ParamCode.ofParam c.registry q.2 q.1) :=
    (Marshals.meaning q.1.type (c.registry.eq_text_of_valueType q.1.type)).bind_pure _
  rw [htypes]
  exact Marshals.mapM hparam ps.zipIdx

theorem marshals_result (entity : String) (t : TypeExpr) :
    Marshals c entity (result c entity t) [c.registry.resultType t]
      (ResultCode.ofType c.registry t) :=
  (Marshals.meaning t (c.registry.eq_text_of_resultType t)).bind_pure (ResultCode.ofNative t)

/-- What is left out is left out of the part of its subject. -/
theorem emits_leaveOut (entity type : String) (subject : Subject) :
    Emits c.strict (leaveOut c entity type) [.entry subject [] (.error ⟨entity, type⟩)] := by
  intro e
  have hextend : e.extend [.entry subject [] (.error ⟨entity, type⟩)] =
      { e with skipped := e.skipped ++ [⟨entity, type⟩] } := by
    simp [Emitted.extend_singleton, Emitted.write, Part.lines, Part.families, Part.omission?]
  rw [hextend, leaveOut]
  cases c.strict <;> rfl

/-- An entity is emitted as the part of its subject. -/
theorem emits_entity {c : EmitContext} {name : String} {code : OptionT Emitter String}
    {types : List (Except MarshalFault NativeType)} {text : Except MarshalFault String}
    (h : Marshals c name code types text) (subject : Subject) :
    Emits c.strict (entity code) [.ofText subject name types text] := by
  intro e
  rw [entity, bind_apply, h.run]
  cases text with
  | ok text =>
    have hextend : e.extend [.ofText subject name types (.ok text)] =
        (e.see types).write [.flat text] := by
      rw [Emitted.extend_singleton]
      exact congrArg (fun skipped => { (e.see types).write [.flat text] with skipped })
        (List.append_nil _)
    rw [hextend, settle, pure_apply]
    cases c.strict <;> exact line_apply text _
  | error fault =>
    obtain ⟨type⟩ := fault
    have hextend : e.extend [.ofText subject name types (.error (.unsupported type))] =
        (e.see types).extend [.entry subject [] (.error ⟨name, type⟩)] := by
      rw [Emitted.extend_singleton, Emitted.extend_singleton]
      exact congrArg (fun families => { e.write [] with
        families, skipped := e.skipped ++ [(⟨name, type⟩ : Omission)] })
        (List.append_nil (e.see types).families).symm
    rw [hextend, settle, bind_apply, emits_leaveOut c name type subject (e.see types)]
    cases c.strict <;> rfl

/-! ## What is emitted for a model -/

theorem emits_constructor (cls : ExportedClass) (k : Constructor) :
    Emits c.strict (constructor c cls k) [cls.constructorPart c.registry k] :=
  emits_entity ((marshals_params c _ k.params).bind_pure _) _

theorem emits_method (cls : ExportedClass) (m : Method) :
    Emits c.strict (method c cls m) [cls.methodPart c.registry m] :=
  emits_entity ((marshals_params c _ _).bind fun _ => (marshals_result c _ _).bind_pure _) _

theorem emits_field (cls : ExportedClass) (f : Field) :
    Emits c.strict (field c cls f) [cls.fieldPart c.registry f] :=
  emits_entity ((Marshals.meaning f.type (c.registry.eq_text_of_valueType f.type)).bind_pure _) _

theorem emits_function (host callee : String) (f : FunctionEntity) :
    Emits c.strict (function c host callee f) [f.part c.registry host callee] :=
  emits_entity ((marshals_params c _ _).bind fun _ => (marshals_result c _ _).bind_pure _) _

theorem emits_blankUnless {strict : Bool} (condition : Bool) :
    Emits strict (blankUnless condition) (if condition then [] else [.blank]) :=
  .ite .pure (.line "")

theorem emits_constructors (cls : ExportedClass) :
    Emits c.strict (constructors c cls) (cls.constructorParts c.registry) :=
  have hdefault : Emits c.strict (if cls.defaultConstructor then
      line ExportedClass.defaultConstructorCode else pure ())
      (if cls.defaultConstructor then [cls.defaultConstructorPart] else []) :=
    .ite (.line _) .pure
  .ite .pure ((Emits.forM_map (emits_constructor c cls) cls.constructors).bind hdefault)

theorem emits_ofClass (host : String) (cls : ExportedClass) :
    Emits c.strict (ofClass c host cls) (cls.parts c.registry c.shared host) := by
  have hmethods := Emits.forM (fun g : MethodGroup =>
    Emits.forM_map (emits_method c cls) g.overloads) cls.methods
  have hmembers := (emits_constructors c cls).bind
    (hmethods.bind (Emits.forM_map (emits_field c cls) cls.fields))
  rw [ExportedClass.parts, List.append_assoc, List.cons_append]
  exact ((Emits.line (cls.headCode c.shared host)).bind hmembers).block ""

/-! ### Templates -/

theorem emits_instantiation (isShared : Bool) (i : ExportedInstantiation) :
    Emits c.strict (instantiation c isShared i)
      (ExportedTemplate.instantiationParts c.registry c.shared isShared i) := by
  unfold instantiation ExportedTemplate.instantiationParts
  cases i.item with
  | ofClass cls => exact (Emits.line "").bind (emits_ofClass c _ cls)
  | ofFunction f => exact (emits_blankUnless isShared).bind (emits_function c _ i.native f)

theorem emits_entryPoint (t : ExportedTemplate) (name : String)
    (group : List ExportedInstantiation) :
    Emits c.strict (entryPoint c t name group) [t.entryPointPart c.registry name group] := by
  unfold entryPoint ExportedTemplate.entryPointPart
  cases t.catalogue c.registry name with
  | ok catalogue => exact Emits.scaffold (writes_dispatch group catalogue)
  | error fault =>
    obtain ⟨type⟩ := fault
    exact emits_leaveOut c name type _

theorem emits_template (t : ExportedTemplate) :
    Emits c.strict (template c t) (t.parts c.registry c.shared) := by
  refine Emits.forM (fun (entry : String × List ExportedInstantiation) => ?_) t.entryPoints.entries
  obtain ⟨name, group⟩ := entry
  have hgroup := Emits.forM (emits_instantiation c (1 < group.length)) group
  exact hgroup.bind (.ite (emits_entryPoint c t name group) .pure)

/-- **The emission of a model goes through its parts.** -/
theorem emits_ofModel (m : ExportModel) (strict : Bool) (name : String) :
    Emits strict (ofModel ⟨strict, .ofModel m, m.countedClasses (.ofModel m)⟩ name m)
      (m.parts name) := by
  let c : EmitContext := ⟨strict, .ofModel m, m.countedClasses (.ofModel m)⟩
  have hclass (cls : ExportedClass) : Emits strict (do blank; ofClass c cls.exportName cls)
      (.blank :: cls.parts c.registry c.shared cls.exportName) :=
    (Emits.line "").bind (emits_ofClass c cls.exportName cls)
  have hclasses := Emits.forM hclass m.classes
  have hfunctions := Emits.forM (fun f : ExportedFunction =>
    Emits.forM_map (fun o : FunctionEntity => emits_function c f.exportName o.name.text o)
      f.overloads) m.functions
  have htemplates := Emits.forM (emits_template c) m.templates
  have hbody := hclasses.bind
    ((emits_blankUnless m.functions.isEmpty).bind (hfunctions.bind htemplates))
  rw [ExportModel.parts, List.append_assoc, List.append_assoc, List.cons_append]
  exact ((Emits.line _).bind hbody).block _

end Emitter
end Bindery
