import Bindery.Proofs.OrderedMap
import Bindery.Proofs.TypeExpr.Constness
import Bindery.Proofs.TypeExpr.Substitution

/-!
# Replacing parameters one after the other

Types put around each other associate: it makes no difference whether the qualifiers and declarators
of a type are put around the next one first, or around what this becomes. Qualifiers go to the same
declarator or to the same base in both orders, and they are lost at the same references; a run of
references is an lvalue reference as soon as one of them is, wherever the run is cut. So replacing
parameters and then replacing parameters of the arguments is one replacement, by the arguments in
which the second one was made before.

## Main definitions

* `Bindings.Composes`: bindings that do in one step what two do one after the other.

## Main statements

* `TypeExpr.around_around`: putting types around each other associates.
* `TypeExpr.substitute_substitute`: replacing parameters composes.
-/
namespace Bindery

/-! ## Runs of references -/

/-- What a reference to a reference is: an lvalue reference, unless both are rvalue references. -/
def Indirection.merge : Indirection → Indirection → Indirection
  | rvalueRef, rvalueRef => rvalueRef
  | _, _ => lvalueRef

/-- Put a declarator in front of others. A reference becomes one with a reference behind it. -/
def pushDeclarator (d : Indirection) : List Indirection → List Indirection
  | [] => [d]
  | e :: ds => if d.isRef && e.isRef then d.merge e :: ds else d :: e :: ds

theorem pushDeclarator_of_isRef_eq_false {d : Indirection} (h : d.isRef = false)
    (ds : List Indirection) : pushDeclarator d ds = d :: ds := by
  cases ds <;> simp [pushDeclarator, h]

theorem isRef_merge (d e : Indirection) : (d.merge e).isRef = true := by
  cases d <;> cases e <;> rfl

theorem merge_assoc (c d e : Indirection) : (c.merge d).merge e = c.merge (d.merge e) := by
  cases c <;> cases d <;> cases e <;> rfl

/-- Two references can be made one before they are put in front of others. -/
theorem pushDeclarator_merge {d e : Indirection} (hd : d.isRef = true) (he : e.isRef = true)
    (ds : List Indirection) :
    pushDeclarator (d.merge e) ds = pushDeclarator d (pushDeclarator e ds) := by
  cases ds with
  | nil => simp [pushDeclarator, hd, he]
  | cons c ds =>
    cases hc : c.isRef <;>
      simp [pushDeclarator, hd, he, hc, isRef_merge, merge_assoc]

theorem collapseRefs_of_isRef {d e : Indirection} (hd : d.isRef = true) (he : e.isRef = true)
    (ds : List Indirection) : collapseRefs (d :: e :: ds) = collapseRefs (d.merge e :: ds) := by
  cases d <;> cases e <;> simp_all [collapseRefs, Indirection.merge, Indirection.isRef]

theorem collapseRefs_of_pointer {d e : Indirection} (h : (d.isRef && e.isRef) = false)
    (ds : List Indirection) : collapseRefs (d :: e :: ds) = d :: collapseRefs (e :: ds) := by
  cases d <;> cases e <;> simp_all [collapseRefs, Indirection.isRef]

/-- References collapse from the last one to the first as well as from the first to the last. -/
theorem collapseRefs_cons (d : Indirection) (ds : List Indirection) :
    collapseRefs (d :: ds) = pushDeclarator d (collapseRefs ds) := by
  induction ds generalizing d with
  | nil => simp [collapseRefs, pushDeclarator]
  | cons e ds ih =>
    cases hrefs : d.isRef && e.isRef with
    | true =>
      obtain ⟨hd, he⟩ := Bool.and_eq_true_iff.1 hrefs
      rw [collapseRefs_of_isRef hd he, ih, ih, pushDeclarator_merge hd he]
    | false =>
      rw [collapseRefs_of_pointer hrefs, ih]
      generalize collapseRefs ds = cs
      cases cs with
      | nil => simp [pushDeclarator, hrefs]
      | cons c cs =>
        cases hpair : e.isRef && c.isRef with
        | false => simp [pushDeclarator, hpair, hrefs]
        | true =>
          obtain ⟨he, -⟩ := Bool.and_eq_true_iff.1 hpair
          have hd : d.isRef = false := by simpa [he] using hrefs
          rw [pushDeclarator_of_isRef_eq_false hd]

theorem collapseRefs_append (ds es : List Indirection) :
    collapseRefs (ds ++ es) = ds.foldr pushDeclarator (collapseRefs es) := by
  induction ds with
  | nil => rfl
  | cons d ds ih => rw [List.cons_append, collapseRefs_cons, ih, List.foldr_cons]

/-- What was put in front is put in front again declarator by declarator. -/
theorem foldr_pushDeclarator (d : Indirection) (ds es : List Indirection) :
    (pushDeclarator d ds).foldr pushDeclarator es =
      pushDeclarator d (ds.foldr pushDeclarator es) := by
  cases ds with
  | nil => rfl
  | cons e ds =>
    rw [pushDeclarator]
    split
    · rename_i hrefs
      obtain ⟨hd, he⟩ := Bool.and_eq_true_iff.1 hrefs
      rw [List.foldr_cons, pushDeclarator_merge hd he, List.foldr_cons]
    · rfl

theorem foldr_collapseRefs (ds es : List Indirection) :
    (collapseRefs ds).foldr pushDeclarator es = ds.foldr pushDeclarator es := by
  induction ds with
  | nil => rw [collapseRefs]
  | cons d ds ih => rw [collapseRefs_cons, foldr_pushDeclarator, ih, List.foldr_cons]

/-- Collapsing the inner declarators first makes no difference. -/
theorem collapseRefs_collapse_append (ds es : List Indirection) :
    collapseRefs (collapseRefs ds ++ es) = collapseRefs (ds ++ es) := by
  rw [collapseRefs_append, foldr_collapseRefs, ← collapseRefs_append]

/-- Collapsing the outer declarators first makes no difference. -/
theorem collapseRefs_append_collapse (ds es : List Indirection) :
    collapseRefs (ds ++ collapseRefs es) = collapseRefs (ds ++ es) := by
  have hself : collapseRefs (collapseRefs es) = collapseRefs es := by
    simpa using collapseRefs_collapse_append es []
  rw [collapseRefs_append, hself, ← collapseRefs_append]

theorem pushDeclarator_ne_nil (d : Indirection) (ds : List Indirection) :
    pushDeclarator d ds ≠ [] := by
  cases ds with
  | nil => simp [pushDeclarator]
  | cons e ds =>
    rw [pushDeclarator]
    split <;> simp

theorem collapseRefs_eq_nil {ds : List Indirection} (h : collapseRefs ds = []) : ds = [] := by
  cases ds with
  | nil => rfl
  | cons d ds =>
    rw [collapseRefs_cons] at h
    exact absurd h (pushDeclarator_ne_nil d _)

/-! ## The outermost declarator -/

theorem pushDeclarator_append {d : Indirection} {ds : List Indirection} (h : ds ≠ [])
    (es : List Indirection) : pushDeclarator d (ds ++ es) = pushDeclarator d ds ++ es := by
  cases ds with
  | nil => exact absurd rfl h
  | cons e ds =>
    rw [List.cons_append, pushDeclarator, pushDeclarator]
    split <;> rfl

/-- A pointer on the outside stays there. -/
theorem collapseRefs_concat_pointer (ds : List Indirection) (c : Bool) :
    collapseRefs (ds ++ [.pointer c]) = collapseRefs ds ++ [.pointer c] := by
  induction ds with
  | nil => simp [collapseRefs]
  | cons d ds ih =>
    rw [List.cons_append, collapseRefs_cons, ih, collapseRefs_cons]
    generalize collapseRefs ds = cs
    cases cs with
    | nil => simp [pushDeclarator, Indirection.isRef]
    | cons e cs => exact pushDeclarator_append (by simp) _

/-- A reference on the outside may become one with others, and a reference remains. -/
theorem exists_collapseRefs_concat (ds : List Indirection) {d : Indirection}
    (hd : d.isRef = true) :
    ∃ front e, collapseRefs (ds ++ [d]) = front ++ [e] ∧ e.isRef = true := by
  induction ds with
  | nil => exact ⟨[], d, by simp [collapseRefs], hd⟩
  | cons c ds ih =>
    obtain ⟨front, e, hcollapse, he⟩ := ih
    rw [List.cons_append, collapseRefs_cons, hcollapse]
    cases front with
    | nil =>
      cases hc : c.isRef with
      | true => exact ⟨[], c.merge e, by simp [pushDeclarator, hc, he], isRef_merge c e⟩
      | false => exact ⟨[c], e, by simp [pushDeclarator, hc], he⟩
    | cons f front =>
      exact ⟨pushDeclarator c (f :: front), e, pushDeclarator_append (by simp) _, he⟩

namespace TypeExpr

variable {t u w : TypeExpr} {b b₁ b₂ c : Bindings}

/-! ## Types around each other -/

theorem addQualifiers_nil {inner : TypeExpr} (h : inner.declarators = [])
    (isConst isVolatile : Bool) : inner.addQualifiers isConst isVolatile =
      ⟨inner.isConst || isConst, inner.isVolatile || isVolatile, inner.base, []⟩ := by
  simp [addQualifiers, h]

theorem addQualifiers_pointer {inner : TypeExpr} {front : List Indirection} {k : Bool}
    (h : inner.declarators = front ++ [.pointer k]) (isConst isVolatile : Bool) :
    inner.addQualifiers isConst isVolatile =
      { inner with declarators := front ++ [.pointer (k || isConst)] } := by
  simp [addQualifiers, h]

theorem addQualifiers_ref {inner : TypeExpr} {front : List Indirection} {d : Indirection}
    (h : inner.declarators = front ++ [d]) (hd : d.isRef = true) (isConst isVolatile : Bool) :
    inner.addQualifiers isConst isVolatile = inner := by
  cases d with
  | pointer k => cases hd
  | lvalueRef | rvalueRef => simp [addQualifiers, h]

/-- A type has no declarator, or a pointer on the outside, or a reference. -/
theorem declarators_cases (t : TypeExpr) : t.declarators = [] ∨
    (∃ front k, t.declarators = front ++ [.pointer k]) ∨
    ∃ front d, t.declarators = front ++ [d] ∧ d.isRef = true := by
  rcases List.eq_nil_or_concat t.declarators with hnil | ⟨front, d, hd⟩
  · exact .inl hnil
  · rw [List.concat_eq_append] at hd
    cases d with
    | pointer k => exact .inr (.inl ⟨front, k, hd⟩)
    | lvalueRef | rvalueRef => exact .inr (.inr ⟨front, _, hd, rfl⟩)

/-- The type with runs of references collapsed. -/
def collapsed (t : TypeExpr) : TypeExpr := { t with declarators := collapseRefs t.declarators }

/-- The type with more declarators on the outside. -/
def under (t : TypeExpr) (ds : List Indirection) : TypeExpr :=
  { t with declarators := t.declarators ++ ds }

theorem under_nil (t : TypeExpr) : t.under [] = t := by
  obtain ⟨isConst, isVolatile, base, declarators⟩ := t
  simp [under]

theorem around_eq (outer inner : TypeExpr) : outer.around inner =
    ((inner.addQualifiers outer.isConst outer.isVolatile).under outer.declarators).collapsed :=
  rfl

theorem collapsed_under (t : TypeExpr) (ds : List Indirection) :
    (t.collapsed.under ds).collapsed = (t.under ds).collapsed := by
  simp only [collapsed, under, collapseRefs_collapse_append]

theorem under_collapseRefs (t : TypeExpr) (ds : List Indirection) :
    (t.under (collapseRefs ds)).collapsed = (t.under ds).collapsed := by
  simp only [collapsed, under, collapseRefs_append_collapse]

/-- Qualifiers go to the same place before references collapse and after it. -/
theorem addQualifiers_collapsed (t : TypeExpr) (isConst isVolatile : Bool) :
    t.collapsed.addQualifiers isConst isVolatile =
      (t.addQualifiers isConst isVolatile).collapsed := by
  rcases t.declarators_cases with h | ⟨front, k, h⟩ | ⟨front, d, h, hd⟩
  · have hnil : t.collapsed.declarators = [] := by rw [collapsed, h, collapseRefs]
    rw [addQualifiers_nil hnil, addQualifiers_nil h, collapsed, collapsed, collapseRefs]
  · have hlast : t.collapsed.declarators = collapseRefs front ++ [.pointer k] := by
      rw [collapsed, h, collapseRefs_concat_pointer]
    rw [addQualifiers_pointer hlast, addQualifiers_pointer h, collapsed, collapsed,
      collapseRefs_concat_pointer]
  · obtain ⟨front', e, hcollapse, he⟩ := exists_collapseRefs_concat front hd
    have hlast : t.collapsed.declarators = front' ++ [e] := by rw [collapsed, h, hcollapse]
    rw [addQualifiers_ref hlast he, addQualifiers_ref h hd]

theorem addQualifiers_addQualifiers (t : TypeExpr) (c v c' v' : Bool) :
    (t.addQualifiers c v).addQualifiers c' v' = t.addQualifiers (c || c') (v || v') := by
  rcases t.declarators_cases with h | ⟨front, k, h⟩ | ⟨front, d, h, hd⟩
  · rw [addQualifiers_nil h, addQualifiers_nil rfl, addQualifiers_nil h, Bool.or_assoc,
      Bool.or_assoc]
  · rw [addQualifiers_pointer h, addQualifiers_pointer rfl, addQualifiers_pointer h, Bool.or_assoc]
  · rw [addQualifiers_ref h hd, addQualifiers_ref h hd, addQualifiers_ref h hd]

/-- **Putting types around each other associates.** -/
theorem around_around (t u w : TypeExpr) : (t.around u).around w = t.around (u.around w) := by
  have hright : t.around (u.around w) =
      ((((w.addQualifiers u.isConst u.isVolatile).under u.declarators).addQualifiers
        t.isConst t.isVolatile).under t.declarators).collapsed := by
    rw [around_eq t, around_eq u, addQualifiers_collapsed, collapsed_under]
  have hleft : (t.around u).around w =
      ((w.addQualifiers (t.around u).isConst (t.around u).isVolatile).under
        ((u.addQualifiers t.isConst t.isVolatile).declarators ++ t.declarators)).collapsed := by
    rw [around_eq (t.around u), ← under_collapseRefs _ (_ ++ _)]
    rfl
  rw [hleft, hright]
  congr 1
  -- The qualifiers of `t` reach `w` where `u` has no declarators, and stop at them otherwise.
  rcases u.declarators_cases with h | ⟨front, k, h⟩ | ⟨front, d, h, hd⟩
  · rw [h, under_nil, addQualifiers_addQualifiers, around, addQualifiers_nil h]
    rfl
  · have hlast : ((w.addQualifiers u.isConst u.isVolatile).under u.declarators).declarators =
        ((w.addQualifiers u.isConst u.isVolatile).declarators ++ front) ++ [.pointer k] := by
      simp [under, h]
    rw [addQualifiers_pointer hlast, around, addQualifiers_pointer h]
    simp [under]
  · have hlast : ((w.addQualifiers u.isConst u.isVolatile).under u.declarators).declarators =
        ((w.addQualifiers u.isConst u.isVolatile).declarators ++ front) ++ [d] := by
      simp [under, h]
    rw [addQualifiers_ref hlast hd, around, addQualifiers_ref h hd]
    simp [under]

/-- It makes no difference whether the references of the inner type are collapsed. -/
theorem around_collapsed (t u : TypeExpr) : t.around u.collapsed = t.around u := by
  rw [around_eq, addQualifiers_collapsed, collapsed_under, ← around_eq]

theorem addQualifiers_base (u : TypeExpr) (base : TypeBase) (isConst isVolatile : Bool) :
    addQualifiers isConst isVolatile { u with base } =
      { addQualifiers isConst isVolatile u with base } := by
  simp only [addQualifiers]
  split <;> rfl

/-- The base of the inner type may be replaced before or after. -/
theorem around_base (t u : TypeExpr) (base : TypeBase) :
    t.around { u with base } = { t.around u with base } := by
  rw [around_eq, addQualifiers_base]
  rfl

theorem base_around (t u : TypeExpr) : (t.around u).base = u.base := by
  rw [around_eq, collapsed, under, addQualifiers]
  split <;> rfl

theorem simple?_around (t u : TypeExpr) : (t.around u).simple? = u.simple? := by
  rw [simple?, base_around]
  rfl

theorem around_of_isBare (h : t.isBare = true) (u : TypeExpr) : t.around u = u.collapsed := by
  obtain ⟨hdeclarators, hconst, hvolatile⟩ := isBare_iff.1 h
  rw [around_eq, hdeclarators, hconst, hvolatile, addQualifiers_false, under_nil]

/-- What is around a type does not vanish. -/
theorem isBare_of_isBare_around (h : (t.around u).isBare = true) : t.isBare = true := by
  obtain ⟨hdeclarators, hconst, hvolatile⟩ := isBare_iff.1 h
  obtain ⟨hinner, houter⟩ := List.append_eq_nil_iff.1 (collapseRefs_eq_nil hdeclarators)
  have hnil : u.declarators = [] := by
    rcases u.declarators_cases with h | ⟨front, k, h⟩ | ⟨front, d, h, hd⟩
    · exact h
    · simp [addQualifiers_pointer h] at hinner
    · rwa [addQualifiers_ref h hd] at hinner
  simp only [around, addQualifiers_nil hnil, Bool.or_eq_false_iff] at hconst hvolatile
  exact isBare_iff.2 ⟨houter, hconst.2, hvolatile.2⟩

/-- The name of a type that is one name alone. -/
def bareName? (t : TypeExpr) : Option String := if t.isBare then t.simple? else none

theorem simple?_of_bareName? {name : String} (h : t.bareName? = some name) :
    t.isBare = true ∧ t.simple? = some name := by
  rw [bareName?] at h
  split at h
  · rename_i hbare
    exact ⟨hbare, h⟩
  · cases h

end TypeExpr

/-! ## Replacing one after the other -/

/-- Names are bound to types only. -/
def Bindings.BindsTypes (b : Bindings) : Prop := ∀ name text, b.find? name ≠ some (.value text)

/-- A name that `b₁` binds is bound to its argument with `b₂` put in, and any other name that `b₂`
binds is bound as there. -/
def Bindings.Composes (b₁ b₂ c : Bindings) : Prop :=
  ∀ name, c.find? name = ((b₁.find? name).map (·.substitute b₂)).or (b₂.find? name)

mutual
/-- No argument in the type is a value. -/
def TypeExpr.Valueless : TypeExpr → Prop
  | ⟨_, _, base, _⟩ => base.Valueless

/-- No argument in the base is a value. -/
def TypeBase.Valueless : TypeBase → Prop
  | .fundamental _ => True
  | .named _ segments => NameSegment.AllValueless segments

/-- No argument in the segment is a value. -/
def NameSegment.Valueless : NameSegment → Prop
  | .plain _ => True
  | .applied _ args => TemplateArg.AllValueless args

/-- The argument is a type without values. -/
def TemplateArg.Valueless : TemplateArg → Prop
  | .type t => t.Valueless
  | .value _ => False

/-- No argument in the segments is a value. -/
def NameSegment.AllValueless : List NameSegment → Prop
  | [] => True
  | s :: ss => s.Valueless ∧ NameSegment.AllValueless ss

/-- No argument is a value. -/
def TemplateArg.AllValueless : List TemplateArg → Prop
  | [] => True
  | a :: as => a.Valueless ∧ TemplateArg.AllValueless as
end

/-- The bindings that do in one step what two do one after the other. -/
def Bindings.compose (b₁ b₂ : Bindings) : Bindings :=
  ⟨b₁.entries.map (fun p => (p.1, p.2.substitute b₂)) ++
    b₂.entries.filter fun p => !b₁.contains p.1⟩

section Composition

variable {b b₁ b₂ c : Bindings}

theorem Bindings.composes_compose (b₁ b₂ : Bindings) :
    Bindings.Composes b₁ b₂ (b₁.compose b₂) := by
  intro name
  have hfirst := OrderedMap.find?_map_values b₁ (·.substitute b₂) name
  have hsecond : ((b₂.entries.filter fun p => !b₁.contains p.1).find? (·.1 = name)).map Prod.snd =
      if b₁.contains name then none else b₂.find? name := by
    rw [List.find?_filter]
    split
    · rename_i hcontains
      rw [Option.map_eq_none_iff, List.find?_eq_none]
      grind
    · rename_i hcontains
      rw [OrderedMap.find?]
      congr 2
      grind
  rw [OrderedMap.find?] at hfirst ⊢
  rw [compose, List.find?_append, Option.map_or, hsecond, hfirst]
  rw [OrderedMap.contains_eq_isSome]
  cases b₁.find? name <;> rfl

theorem Bindings.BindsTypes.cases (h : b.BindsTypes) (name : String) :
    b.find? name = none ∨ ∃ t, b.find? name = some (.type t) := by
  cases hfound : b.find? name with
  | none => exact .inl rfl
  | some arg =>
    cases arg with
    | type t => exact .inr ⟨t, rfl⟩
    | value text => exact absurd hfound (h name text)

theorem Bindings.BindsTypes.exists_of_bind (h : b.BindsTypes) {name? : Option String}
    {arg : TemplateArg} (hfound : name?.bind b.find? = some arg) :
    ∃ name t, name? = some name ∧ b.find? name = some (.type t) ∧ arg = .type t := by
  obtain ⟨name, hname, harg⟩ := Option.bind_eq_some_iff.1 hfound
  rcases h.cases name with hnone | ⟨t, ht⟩
  · rw [hnone] at harg
    cases harg
  · exact ⟨name, t, hname, ht, Option.some.inj (harg.symm.trans ht)⟩

/-- Parameters of the inner type are replaced inside what is around it. -/
theorem TypeExpr.substitute_around (h : b.BindsTypes) (t u : TypeExpr) :
    (t.around u).substitute b = t.around (u.substitute b) := by
  cases hfound : u.simple?.bind b.find? with
  | some arg =>
    obtain ⟨name, w, hname, hw, -⟩ := h.exists_of_bind hfound
    rw [TypeExpr.substitute_of_find? (by rwa [TypeExpr.simple?_around]) hw,
      TypeExpr.substitute_of_find? hname hw, TypeExpr.around_around]
  | none =>
    cases hb : b.isEmpty with
    | true => rw [Bindings.eq_empty_of_isEmpty hb, TypeExpr.substitute_empty,
        TypeExpr.substitute_empty]
    | false =>
      rw [TypeExpr.substitute_of_isEmpty_eq_false hb (by rwa [TypeExpr.simple?_around]),
        TypeExpr.substitute_of_isEmpty_eq_false hb hfound, TypeExpr.around_base,
        TypeExpr.base_around]

/-- An argument that is one bound name alone becomes what the name is bound to. -/
theorem TemplateArg.substitute_type (b : Bindings) (t : TypeExpr) :
    (TemplateArg.type t).substitute b =
      ((t.bareName?.bind b.find?).getD (.type (t.substitute b))) := by
  rw [TemplateArg.substitute, TypeExpr.bareName?]
  cases hbare : t.isBare with
  | false =>
    simp only [Bool.false_eq_true, if_false, Option.bind_none, Option.getD_none]
    split <;> rfl
  | true =>
    simp only [if_true]
    split
    · rename_i bound hbound
      rw [hbound, Option.getD_some]
    · rename_i hnone
      rw [hnone, Option.getD_none]

/-- An argument that is a type remains one, and can be put into a type before its own parameters
are replaced. -/
theorem TemplateArg.exists_substitute_type (h : b.BindsTypes) (u : TypeExpr) :
    ∃ u', (TemplateArg.type u).substitute b = .type u' ∧
      ∀ t : TypeExpr, t.around u' = t.around (u.substitute b) := by
  rw [TemplateArg.substitute_type]
  cases hfound : u.bareName?.bind b.find? with
  | none => exact ⟨u.substitute b, rfl, fun _ => rfl⟩
  | some arg =>
    obtain ⟨name, w, hbare, hw, rfl⟩ := h.exists_of_bind hfound
    obtain ⟨hbare, hname⟩ := TypeExpr.simple?_of_bareName? hbare
    refine ⟨w, rfl, fun t => ?_⟩
    rw [TypeExpr.substitute_of_find? hname hw, TypeExpr.around_of_isBare hbare,
      TypeExpr.around_collapsed]

/-- A type that is not one name alone does not become one. -/
theorem TypeExpr.bareName?_substitute (h : b.BindsTypes) {t : TypeExpr}
    (ht : t.bareName? = none) : (t.substitute b).bareName? = none := by
  cases hfound : t.simple?.bind b.find? with
  | some arg =>
    obtain ⟨name, u, hname, hu, -⟩ := h.exists_of_bind hfound
    rw [TypeExpr.substitute_of_find? hname hu, TypeExpr.bareName?, if_neg]
    intro hbare
    rw [TypeExpr.bareName?, if_pos (TypeExpr.isBare_of_isBare_around hbare), hname] at ht
    cases ht
  | none =>
    cases hb : b.isEmpty with
    | true => rwa [Bindings.eq_empty_of_isEmpty hb, TypeExpr.substitute_empty]
    | false =>
      rw [TypeExpr.substitute_of_isEmpty_eq_false hb hfound]
      rw [TypeExpr.bareName?, TypeExpr.simple?, TypeExpr.simpleBase?_substitute]
      exact ht

theorem TemplateArg.AllValueless.value_notMem {as : List TemplateArg}
    (h : TemplateArg.AllValueless as) (text : String) : .value text ∉ as := by
  induction as with
  | nil => exact List.not_mem_nil
  | cons a as ih =>
    obtain ⟨ha, has⟩ : a.Valueless ∧ TemplateArg.AllValueless as := by
      simpa [TemplateArg.AllValueless] using h
    rw [List.mem_cons, not_or]
    refine ⟨?_, ih has⟩
    rintro rfl
    simp [TemplateArg.Valueless] at ha

theorem NameSegment.AllValueless.value_notMem {ss : List NameSegment}
    (h : NameSegment.AllValueless ss) (text : String) :
    .value text ∉ ss.flatMap fun s => s.args?.getD [] := by
  induction ss with
  | nil => exact List.not_mem_nil
  | cons s ss ih =>
    obtain ⟨hs, hss⟩ : s.Valueless ∧ NameSegment.AllValueless ss := by
      simpa [NameSegment.AllValueless] using h
    rw [List.flatMap_cons, List.mem_append, not_or]
    refine ⟨?_, ih hss⟩
    cases s with
    | plain name => exact List.not_mem_nil
    | applied name args =>
      rw [NameSegment.Valueless] at hs
      exact hs.value_notMem text

theorem TypeBase.Valueless.value_notMem {base : TypeBase} (h : base.Valueless) (text : String) :
    .value text ∉ base.args := by
  cases base with
  | fundamental name => exact List.not_mem_nil
  | named isGlobal segments =>
    rw [TypeBase.Valueless] at h
    exact h.value_notMem text

section Composes

variable (h₁ : b₁.BindsTypes) (h₂ : b₂.BindsTypes) (hc : Bindings.Composes b₁ b₂ c)
include h₁ h₂ hc

/-- Replacing composes for a type if it does so for its base. -/
theorem TypeExpr.substitute_composes_of_base {t : TypeExpr}
    (hvalueless : ∀ text, .value text ∉ t.base.args)
    (ih : (t.base.substitute b₁).substitute b₂ = t.base.substitute c) :
    (t.substitute b₁).substitute b₂ = t.substitute c := by
  have hempty : t.base.substitute {} = t.base :=
    TypeBase.substitute_empty fun text htext => absurd htext (hvalueless text)
  have hempty₁ : (t.base.substitute b₁).substitute {} = t.base.substitute b₁ := by
    refine TypeBase.substitute_empty fun text htext => ?_
    rw [TypeBase.args_substitute] at htext
    obtain ⟨a, ha, hvalue⟩ := List.mem_map.1 htext
    cases a with
    | value text' => exact absurd ha (hvalueless text')
    | type u =>
      obtain ⟨u', hu', -⟩ := TemplateArg.exists_substitute_type h₁ u
      rw [hu'] at hvalue
      cases hvalue
  cases hfound : t.simple?.bind b₁.find? with
  | some arg =>
    obtain ⟨name, u, hname, hu, -⟩ := h₁.exists_of_bind hfound
    obtain ⟨u', hu', haround⟩ := TemplateArg.exists_substitute_type h₂ u
    have hcomposed : c.find? name = some (.type u') := by
      rw [hc name, hu, Option.map_some, hu', Option.some_or]
    rw [TypeExpr.substitute_of_find? hname hu, TypeExpr.substitute_around h₂,
      TypeExpr.substitute_of_find? hname hcomposed, haround]
  | none =>
    cases hname : t.simple? with
    | some name =>
      rw [hname, Option.bind_some] at hfound
      have hcomposed : c.find? name = b₂.find? name := by
        rw [hc name, hfound, Option.map_none, Option.none_or]
      rw [TypeExpr.substitute_of_unbound hname hfound]
      rcases h₂.cases name with hnone | ⟨w, hw⟩
      · rw [TypeExpr.substitute_of_unbound hname hnone,
          TypeExpr.substitute_of_unbound hname (hcomposed.trans hnone)]
      · rw [TypeExpr.substitute_of_find? hname hw,
          TypeExpr.substitute_of_find? hname (hcomposed.trans hw)]
    | none =>
      have hsimple₁ : TypeExpr.simpleBase? (t.base.substitute b₁) = none := by
        rw [TypeExpr.simpleBase?_substitute]
        exact hname
      rw [TypeExpr.substitute_of_none hempty hfound, TypeExpr.substitute_of_none hempty₁,
        TypeExpr.substitute_of_none (b := c) hempty, ih]
      · rw [hname, Option.bind_none]
      · rw [TypeExpr.simple?, hsimple₁, Option.bind_none]

omit h₂ in
/-- Replacing composes for an argument if it does so for its type. -/
theorem TemplateArg.substitute_composes_of_type {t : TypeExpr}
    (ih : (t.substitute b₁).substitute b₂ = t.substitute c) :
    ((TemplateArg.type t).substitute b₁).substitute b₂ = (TemplateArg.type t).substitute c := by
  rw [TemplateArg.substitute_type b₁, TemplateArg.substitute_type c]
  cases hbare : t.bareName? with
  | none =>
    rw [Option.bind_none, Option.bind_none, Option.getD_none, Option.getD_none,
      TemplateArg.substitute_type, TypeExpr.bareName?_substitute h₁ hbare, Option.bind_none,
      Option.getD_none, ih]
  | some name =>
    rw [Option.bind_some, Option.bind_some, hc name]
    cases hfound : b₁.find? name with
    | some arg => rfl
    | none =>
      have hname := (TypeExpr.simple?_of_bareName? hbare).2
      rw [TypeExpr.substitute_of_unbound hname hfound] at ih ⊢
      rw [Option.map_none, Option.none_or, Option.getD_none, TemplateArg.substitute_type, hbare,
        Option.bind_some, ih]

end Composes

mutual
theorem TypeExpr.substitute_composes (h₁ : b₁.BindsTypes) (h₂ : b₂.BindsTypes)
    (hc : Bindings.Composes b₁ b₂ c) :
    (t : TypeExpr) → t.Valueless → (t.substitute b₁).substitute b₂ = t.substitute c
  | ⟨isConst, isVolatile, base, declarators⟩, ht => by
    rw [TypeExpr.Valueless] at ht
    exact TypeExpr.substitute_composes_of_base h₁ h₂ hc ht.value_notMem
      (TypeBase.substitute_composes h₁ h₂ hc base ht)

theorem TypeBase.substitute_composes (h₁ : b₁.BindsTypes) (h₂ : b₂.BindsTypes)
    (hc : Bindings.Composes b₁ b₂ c) :
    (base : TypeBase) → base.Valueless →
      (base.substitute b₁).substitute b₂ = base.substitute c
  | .fundamental name, _ => by simp only [TypeBase.substitute]
  | .named isGlobal segments, h => by
    rw [TypeBase.Valueless] at h
    simp only [TypeBase.substitute, NameSegment.substituteAll_composes h₁ h₂ hc segments h]

theorem NameSegment.substitute_composes (h₁ : b₁.BindsTypes) (h₂ : b₂.BindsTypes)
    (hc : Bindings.Composes b₁ b₂ c) :
    (s : NameSegment) → s.Valueless → (s.substitute b₁).substitute b₂ = s.substitute c
  | .plain name, _ => by simp only [NameSegment.substitute]
  | .applied name args, h => by
    rw [NameSegment.Valueless] at h
    simp only [NameSegment.substitute, TemplateArg.substituteAll_composes h₁ h₂ hc args h]

theorem TemplateArg.substitute_composes (h₁ : b₁.BindsTypes) (h₂ : b₂.BindsTypes)
    (hc : Bindings.Composes b₁ b₂ c) :
    (a : TemplateArg) → a.Valueless → (a.substitute b₁).substitute b₂ = a.substitute c
  | .type t, h => by
    rw [TemplateArg.Valueless] at h
    exact TemplateArg.substitute_composes_of_type h₁ hc (TypeExpr.substitute_composes h₁ h₂ hc t h)
  | .value text, h => by simp [TemplateArg.Valueless] at h

theorem NameSegment.substituteAll_composes (h₁ : b₁.BindsTypes) (h₂ : b₂.BindsTypes)
    (hc : Bindings.Composes b₁ b₂ c) :
    (ss : List NameSegment) → NameSegment.AllValueless ss →
      NameSegment.substituteAll b₂ (NameSegment.substituteAll b₁ ss) =
        NameSegment.substituteAll c ss
  | [], _ => by simp only [NameSegment.substituteAll]
  | s :: ss, h => by
    rw [NameSegment.AllValueless] at h
    simp only [NameSegment.substituteAll, NameSegment.substitute_composes h₁ h₂ hc s h.1,
      NameSegment.substituteAll_composes h₁ h₂ hc ss h.2]

theorem TemplateArg.substituteAll_composes (h₁ : b₁.BindsTypes) (h₂ : b₂.BindsTypes)
    (hc : Bindings.Composes b₁ b₂ c) :
    (as : List TemplateArg) → TemplateArg.AllValueless as →
      TemplateArg.substituteAll b₂ (TemplateArg.substituteAll b₁ as) =
        TemplateArg.substituteAll c as
  | [], _ => by simp only [TemplateArg.substituteAll]
  | a :: as, h => by
    rw [TemplateArg.AllValueless] at h
    simp only [TemplateArg.substituteAll, TemplateArg.substitute_composes h₁ h₂ hc a h.1,
      TemplateArg.substituteAll_composes h₁ h₂ hc as h.2]
end

end Composition

/-- **Replacing parameters composes.** -/
theorem TypeExpr.substitute_substitute {t : TypeExpr} {b₁ b₂ c : Bindings} (ht : t.Valueless)
    (h₁ : b₁.BindsTypes) (h₂ : b₂.BindsTypes) (hc : Bindings.Composes b₁ b₂ c) :
    (t.substitute b₁).substitute b₂ = t.substitute c :=
  TypeExpr.substitute_composes h₁ h₂ hc t ht

/-- A parameter alone and under a constant reference, bound to a pointer to another one. -/
theorem TypeExpr.substitute_substitute_pointer :
    let t : TypeExpr := .ofBase (.named false [.applied "A" [.type (.named "T"),
      .type ⟨true, false, .named false [.plain "T"], [.lvalueRef]⟩, .type (.named "U")]])
    let b₁ : Bindings :=
      ⟨[("T", .type ⟨false, false, .named false [.plain "S"], [.pointer false]⟩)]⟩
    let b₂ : Bindings := ⟨[("U", .type ⟨false, false, .fundamental "char", [.rvalueRef]⟩),
      ("S", .type ⟨true, false, .fundamental "int", []⟩)]⟩
    t.Valueless ∧ b₁.BindsTypes ∧ b₂.BindsTypes ∧ Bindings.Composes b₁ b₂ (b₁.compose b₂) ∧
      (t.substitute b₁).substitute b₂ = t.substitute (b₁.compose b₂) ∧
      t.substitute (b₁.compose b₂) = .ofBase (.named false [.applied "A" [
        .type ⟨true, false, .fundamental "int", [.pointer false]⟩,
        .type ⟨true, false, .fundamental "int", [.pointer true, .lvalueRef]⟩,
        .type ⟨false, false, .fundamental "char", [.rvalueRef]⟩]]) := by
  intro t b₁ b₂
  have ht : t.Valueless := by
    simp [t, TypeExpr.ofBase, TypeExpr.named, TypeExpr.Valueless, TypeBase.Valueless,
      NameSegment.AllValueless, NameSegment.Valueless, TemplateArg.AllValueless,
      TemplateArg.Valueless]
  have h₁ : b₁.BindsTypes := by
    intro name text hfound
    simpa [b₁] using OrderedMap.mem_entries_of_find? hfound
  have h₂ : b₂.BindsTypes := by
    intro name text hfound
    simpa [b₂] using OrderedMap.mem_entries_of_find? hfound
  have hc := Bindings.composes_compose b₁ b₂
  refine ⟨ht, h₁, h₂, hc, TypeExpr.substitute_substitute ht h₁ h₂ hc, ?_⟩
  simp [t, b₁, b₂, Bindings.compose, OrderedMap.contains, OrderedMap.isEmpty, OrderedMap.find?,
    TypeExpr.substitute, TypeBase.substitute, NameSegment.substituteAll, NameSegment.substitute,
    TemplateArg.substituteAll, TemplateArg.substitute, TypeExpr.ofBase, TypeExpr.named,
    TypeExpr.simple?, TypeExpr.simpleBase?, TypeExpr.isBare, TypeExpr.around,
    TypeExpr.addQualifiers, collapseRefs]

end Bindery
