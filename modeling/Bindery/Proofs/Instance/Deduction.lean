import Bindery.Proofs.Instance.Catalogue
import Bindery.Proofs.TypeExpr.Determined

/-!
# Deduced arguments

The arguments that are deduced from a signature make the signature of the template that signature
again: the same result, and the same types of parameters, perhaps only up to references on the
outside and the qualifiers of the object. It is taken for granted that every template parameter in
front of one that can be deduced is given or can be deduced too. From the first one on that is
neither, the arguments are filled in from the defaults, also where they were deduced, and types with
such parameters need not come out as they were.

## Main definitions

* `TemplateEntity.defaulted`: the parameters whose arguments are filled in.
* `Signature.Becomes`: the signature of a template becomes a given one.

## Main statements

* `TemplateEntity.substitute_deduce?`: what becomes of a signature with the deduced arguments.
-/
namespace Bindery

/-! ## Signatures -/

namespace Signature

/-- All types of the signature are regular. -/
structure Regular (s : Signature) : Prop where
  params : ∀ p ∈ s.params, p.type.Regular
  result : s.result.Regular

/-- A type of the signature has something around a parameter that takes a value. -/
def DressesValue (names : List String) (s c : Signature) : Prop :=
  (∃ pair ∈ s.params.zip c.params, pair.1.type.DressesValue names pair.2.type) ∨
    s.result.DressesValue names c.result

/-- The names in the types of the signature. -/
def simpleNames (s : Signature) : List String :=
  s.params.flatMap (·.type.simpleNames) ++ s.result.simpleNames

/-- With its parameters replaced, the signature is the other one: it has the same result and the
same types of parameters, perhaps only without references and qualifiers. Nothing is said of types
that have a name of the list. -/
structure Becomes (b : Bindings) (except : List String) (s c : Signature) : Prop where
  params : List.Forall₂ (fun p q => p.type.simpleNames.Disjoint except →
    (p.type.substitute b).Alike q.type ∨ (p.type.substitute b).denoted.Alike q.type.denoted)
    s.params c.params
  result : s.result.simpleNames.Disjoint except → (s.result.substitute b).Alike c.result

end Signature

namespace TemplateEntity

/-- The parameter is given, or is a name in the signature. -/
def IsDetermined (t : TemplateEntity) (given : Option (List TemplateArg)) (s : Signature)
    (p : TemplateParam) : Prop :=
  p ∈ t.params.take (given.getD []).length ∨ p.name ∈ s.simpleNames

instance (t : TemplateEntity) (given : Option (List TemplateArg)) (s : Signature) :
    DecidablePred (t.IsDetermined given s) :=
  fun _ => inferInstanceAs (Decidable (_ ∨ _))

/-- The parameters from the first one on that is neither given nor a name in the signature. -/
def defaulted (t : TemplateEntity) (given : Option (List TemplateArg)) (s : Signature) :
    List TemplateParam :=
  t.params.dropWhile fun p => t.IsDetermined given s p

end TemplateEntity

/-! ## Types that have been matched -/

/-- The pattern was matched against the type on the way to the bindings, as a whole or without
references and qualifiers. -/
inductive TypeExpr.MatchedIn (params : List String) (b : Bindings) (p c : TypeExpr) : Prop where
  | whole {b₀ b₁ : Bindings} (h : p.unify params c b₀ = (true, b₁))
      (hgrows : Bindings.Grows params b₁ b)
  | denoted {b₀ b₁ : Bindings} (h : p.denoted.unify params c.denoted b₀ = (true, b₁))
      (hgrows : Bindings.Grows params b₁ b)

namespace TypeExpr

variable {params : List String} {p c : TypeExpr} {b b' : Bindings}

theorem unify?_eq_some : p.unify? params c b = some b' ↔ p.unify params c b = (true, b') := by
  rw [unify?]
  split <;> rename_i heq <;> simp [heq]

theorem MatchedIn.mono (h : MatchedIn params b p c) (hgrows : Bindings.Grows params b b') :
    MatchedIn params b' p c := by
  cases h with
  | whole h hb => exact .whole h (hb.trans hgrows)
  | denoted h hb => exact .denoted h (hb.trans hgrows)

theorem grows_of_unify (h : p.unify params c b = (true, b')) : Bindings.Grows params b b' := by
  have hgrows := unify_grows params p c b
  rwa [h] at hgrows

theorem matchedIn_of_unifyParam (h : p.unifyParam params b c = some b') :
    Bindings.Grows params b b' ∧ MatchedIn params b' p c := by
  rw [unifyParam] at h
  cases hwhole : p.unify? params c b with
  | some b₁ =>
    rw [hwhole] at h
    obtain rfl : b₁ = b' := Option.some.inj h
    have hunify := unify?_eq_some.1 hwhole
    exact ⟨grows_of_unify hunify, .whole hunify (.refl params _)⟩
  | none =>
    rw [hwhole] at h
    have hunify := unify?_eq_some.1 (show p.denoted.unify? params c.denoted b = some b' from h)
    exact ⟨grows_of_unify hunify, .denoted hunify (.refl params _)⟩

/-- A type that was matched has its parameters bound. -/
theorem MatchedIn.bindsAll (h : MatchedIn params b p c) : b.BindsAll params (p.uses false) := by
  cases h with
  | whole h hgrows => exact (bindsAll_of_unify false h).mono hgrows
  | denoted h hgrows =>
    rw [← uses_denoted]
    exact (bindsAll_of_unify false h).mono hgrows

/-- A type that was matched becomes the other one again, perhaps only without references and
qualifiers. -/
theorem MatchedIn.alike (h : MatchedIn params b p c) (hp : p.Regular) (hc : c.Regular)
    (hvalue : ¬ p.DressesValue params c)
    (hb : ∀ name arg, b.find? name = some arg → name ∈ params) :
    (p.substitute b).Alike c ∨ (p.substitute b).denoted.Alike c.denoted := by
  cases h with
  | whole h hgrows => exact .inl ((alike_iff_of_unify hp hc h ⟨hgrows.keeps, hb⟩).2 hvalue)
  | denoted h hgrows => exact .inr (alike_denoted_of_unify hp hc h ⟨hgrows.keeps, hb⟩ hvalue)

end TypeExpr

/-- Types that are matched in order are matched on the way to the last bindings. -/
theorem Param.matchedIn_of_unifyAll {names : List String} {ps cs : List Param} {b b' : Bindings}
    (h : Param.unifyAll names ps cs b = some b') : Bindings.Grows names b b' ∧
      List.Forall₂ (fun p c => TypeExpr.MatchedIn names b' p.type c.type) ps cs := by
  induction ps generalizing cs b with
  | nil =>
    cases cs with
    | nil =>
      rw [Param.unifyAll] at h
      cases h
      exact ⟨.refl names _, .nil⟩
    | cons c cs => simp [Param.unifyAll] at h
  | cons p ps ih =>
    cases cs with
    | nil => simp [Param.unifyAll] at h
    | cons c cs =>
      rw [Param.unifyAll] at h
      obtain ⟨b₁, hhead, htail⟩ := Option.bind_eq_some_iff.1 h
      obtain ⟨hgrows, hmatched⟩ := TypeExpr.matchedIn_of_unifyParam hhead
      obtain ⟨hgrows', hall⟩ := ih htail
      exact ⟨hgrows.trans hgrows', .cons (hmatched.mono hgrows') hall⟩

/-! ## Signatures that have been matched -/

namespace Signature

variable {names except : List String} {s c : Signature} {b b₁ d : Bindings}

/-- Bindings from a match of the signature make it the other one. -/
theorem becomes_of_matched
    (hparams : List.Forall₂ (fun p q => TypeExpr.MatchedIn names b₁ p.type q.type)
      s.params c.params)
    (hresult : s.result.unify names c.result b₁ = (true, b)) (hs : s.Regular) (hc : c.Regular)
    (hvalue : ¬ s.DressesValue names c)
    (hb : ∀ name arg, b.find? name = some arg → name ∈ names) (except : List String) :
    s.Becomes b except c := by
  obtain ⟨hvalues, hvalue⟩ := not_or.1 hvalue
  refine ⟨List.forall₂_iff_zip.2 ⟨hparams.length_eq, fun {p q} hpair _ => ?_⟩, fun _ => ?_⟩
  · have hmatch := ((List.forall₂_iff_zip.1 hparams).2 hpair).mono (TypeExpr.grows_of_unify hresult)
    obtain ⟨hp, hq⟩ := List.of_mem_zip hpair
    exact hmatch.alike (hs.params p hp) (hc.params q hq)
      (fun hdresses => hvalues ⟨(p, q), hpair, hdresses⟩) hb
  · exact (TypeExpr.alike_iff_of_unify hs.result hc.result hresult ⟨fun _ _ h => h, hb⟩).2 hvalue

/-- Only the names that are not in the list make a difference. -/
theorem Becomes.congr (h : s.Becomes b except c) (hs : s.Regular)
    (hagree : ∀ name, name ∉ except → d.find? name = b.find? name) : s.Becomes d except c := by
  have hsame : ∀ {t : TypeExpr}, t.Regular → t.simpleNames.Disjoint except →
      t.substitute d = t.substitute b := fun ht hdisjoint =>
    TypeExpr.substitute_congr false ht fun u hu =>
      hagree u.name (hdisjoint (List.mem_map_of_mem hu))
  refine ⟨List.forall₂_iff_zip.2 ⟨h.params.length_eq, fun {p q} hpair hdisjoint => ?_⟩,
    fun hdisjoint => ?_⟩
  · rw [hsame (hs.params p (List.of_mem_zip hpair).1) hdisjoint]
    exact (List.forall₂_iff_zip.1 h.params).2 hpair hdisjoint
  · rw [hsame hs.result hdisjoint]
    exact h.result hdisjoint

end Signature

/-! ## Arguments of the parameters in front -/

namespace TemplateParam

variable {params early late left : List TemplateParam} {args done front more : List TemplateArg}
  {b : Bindings}

theorem exists_append_of_fillDefaults (h : fillDefaults params left args = .ok done) :
    ∃ more, done = args ++ more := by
  induction left generalizing args with
  | nil =>
    cases h
    exact ⟨[], (List.append_nil done).symm⟩
  | cons p left ih =>
    rw [fillDefaults] at h
    split at h
    · cases h
    · obtain ⟨more, rfl⟩ := ih h
      exact ⟨_ :: more, by rw [List.append_assoc, List.singleton_append]⟩

/-- Arguments that are filled in come behind those that there are. -/
theorem exists_append_of_complete (h : complete params args = .ok done) :
    ∃ more, done = args ++ more := by
  rw [complete] at h
  split at h
  · cases h
  · exact exists_append_of_fillDefaults h

theorem isSome_find?_bind {p : TemplateParam} (h : p ∈ params.take args.length) :
    ((bind params args).find? p.name).isSome = true := by
  obtain ⟨i, hi, rfl⟩ := List.mem_take_iff_getElem.1 h
  have hlength : i < ((params.map TemplateParam.name).zip args).length := by
    rw [List.length_zip, List.length_map]
    omega
  have hkey : params[i].name ∈ (bind params args).keys := by
    refine OrderedMap.mem_keys_ofList.2 (List.mem_map.2 ⟨_, List.getElem_mem hlength, ?_⟩)
    rw [List.getElem_zip, List.getElem_map]
  obtain ⟨arg, harg⟩ := OrderedMap.mem_keys_iff.1 hkey
  rw [harg]
  rfl

theorem mem_names_of_find?_bind {name : String} {arg : TemplateArg}
    (h : (bind params args).find? name = some arg) : name ∈ params.map TemplateParam.name :=
  (List.of_mem_zip (OrderedMap.mem_entries_ofList (OrderedMap.mem_entries_of_find? h))).1

/-- The arguments of bound parameters in front come first. -/
theorem exists_boundArgs_append (h : ∀ p ∈ early, (b.find? p.name).isSome = true)
    (late : List TemplateParam) :
    ∃ front, List.Forall₂ (fun p arg => b.find? p.name = some arg) early front ∧
      boundArgs b (early ++ late) = front ++ boundArgs b late := by
  induction early with
  | nil => exact ⟨[], .nil, rfl⟩
  | cons p early ih =>
    obtain ⟨arg, harg⟩ := Option.isSome_iff_exists.1 (h p List.mem_cons_self)
    obtain ⟨front, hfront, hargs⟩ := ih fun q hq => h q (List.mem_cons_of_mem p hq)
    refine ⟨arg :: front, .cons harg hfront, ?_⟩
    rw [List.cons_append, boundArgs, harg]
    exact congrArg (arg :: ·) hargs

/-- If the arguments in front come from bindings, then these are found again at each name that no
parameter behind has. -/
theorem find?_bind_append (h : List.Forall₂ (fun p arg => b.find? p.name = some arg) early front)
    (hb : ∀ name arg, b.find? name = some arg → name ∈ (early ++ late).map TemplateParam.name)
    {name : String} (hlate : name ∉ late.map TemplateParam.name) :
    (bind (early ++ late) (front ++ more)).find? name = b.find? name := by
  have hlength : (early.map TemplateParam.name).length = front.length := by
    rw [List.length_map, h.length_eq]
  have hzip : ((early ++ late).map TemplateParam.name).zip (front ++ more) =
      (early.map TemplateParam.name).zip front ++ (late.map TemplateParam.name).zip more := by
    rw [List.map_append, List.zip_append hlength]
  cases hfound : (bind (early ++ late) (front ++ more)).find? name with
  | some arg =>
    have hmem := OrderedMap.mem_entries_ofList (OrderedMap.mem_entries_of_find? hfound)
    rw [hzip, List.mem_append] at hmem
    rcases hmem with hfront | hmore
    · rw [List.zip_map_left, List.mem_map] at hfront
      obtain ⟨⟨p, other⟩, hpair, heq⟩ := hfront
      cases heq
      exact ((List.forall₂_iff_zip.1 h).2 hpair).symm
    · exact absurd (List.of_mem_zip hmore).1 hlate
  | none =>
    -- Each parameter in front has an argument, so the name is none of theirs.
    have hnone : name ∉ early.map TemplateParam.name := by
      intro hearly
      have hkey : name ∈ (bind (early ++ late) (front ++ more)).keys := by
        rw [bind, OrderedMap.mem_keys_ofList, hzip, List.map_append, List.map_fst_zip hlength.le]
        exact List.mem_append_left _ hearly
      obtain ⟨arg, harg⟩ := OrderedMap.mem_keys_iff.1 hkey
      rw [hfound] at harg
      cases harg
    cases hbound : b.find? name with
    | none => rfl
    | some arg =>
      have hname := hb name arg hbound
      rw [List.map_append, List.mem_append] at hname
      exact (hname.elim hnone hlate).elim

end TemplateParam

/-! ## Deduced arguments -/

namespace TemplateEntity

variable {t : TemplateEntity} {pattern : FunctionEntity} {given : Option (List TemplateArg)}
  {s : Signature} {args : List TemplateArg}

/-- Deduced arguments begin with those that matching the signature binds. -/
theorem exists_matched_of_deduce? (hpattern : t.pattern = .ofFunction pattern)
    (h : t.deduce? given s = some args) : ∃ b₁ b₂ more,
      Param.unifyAll t.paramNames pattern.signature.params s.params
        (TemplateParam.bind t.params (given.getD [])) = some b₁ ∧
      pattern.signature.result.unify t.paramNames s.result b₁ = (true, b₂) ∧
      args = TemplateParam.boundArgs b₂ t.params ++ more := by
  rw [deduce?, hpattern] at h
  simp only at h
  split at h
  · cases h
  · simp only [Option.bind_eq_bind, Option.bind_eq_some_iff] at h
    obtain ⟨b₁, hparams, b₂, hresult, hcomplete⟩ := h
    cases hdone : TemplateParam.complete t.params (TemplateParam.boundArgs b₂ t.params) with
    | error fault => rw [hdone] at hcomplete; cases hcomplete
    | ok done =>
      rw [hdone] at hcomplete
      obtain rfl : done = args := Option.some.inj hcomplete
      obtain ⟨more, hmore⟩ := TemplateParam.exists_append_of_complete hdone
      exact ⟨b₁, b₂, more, hparams, TypeExpr.unify?_eq_some.1 hresult, hmore⟩

/-- What was given, and each parameter that is a name in a matched signature, is bound. -/
theorem isSome_find?_of_isDetermined {b₁ b₂ : Bindings}
    (hparams : Param.unifyAll t.paramNames pattern.signature.params s.params
      (TemplateParam.bind t.params (given.getD [])) = some b₁)
    (hresult : pattern.signature.result.unify t.paramNames s.result b₁ = (true, b₂))
    {p : TemplateParam} (hp : p ∈ t.params) (h : t.IsDetermined given pattern.signature p) :
    (b₂.find? p.name).isSome = true := by
  obtain ⟨hgrows₁, hmatched⟩ := Param.matchedIn_of_unifyAll hparams
  have hgrows₂ := TypeExpr.grows_of_unify hresult
  have hbound : ∀ q ∈ pattern.signature.params,
      b₁.BindsAll t.paramNames (q.type.uses false) :=
    ((List.forall₂_and_left _ _).1 (hmatched.imp fun q c hmatch => ⟨hmatch.bindsAll, hmatch⟩)).1
  have hparam : p.name ∈ t.paramNames := List.mem_map_of_mem hp
  rcases h with hgiven | hname
  · obtain ⟨arg, harg⟩ := Option.isSome_iff_exists.1 (TemplateParam.isSome_find?_bind hgiven)
    rw [(hgrows₁.trans hgrows₂).keeps _ _ harg]
    rfl
  · rcases List.mem_append.1 hname with hname | hname
    · obtain ⟨q, hq, hname⟩ := List.mem_flatMap.1 hname
      obtain ⟨u, hu, huse⟩ := List.mem_map.1 hname
      rw [← huse] at hparam ⊢
      exact (hbound q hq).mono hgrows₂ u hu hparam
    · obtain ⟨u, hu, huse⟩ := List.mem_map.1 hname
      rw [← huse] at hparam ⊢
      exact TypeExpr.bindsAll_of_unify false hresult u hu hparam

/-- The names of the parameters in front are bound to what matching the signature bound. -/
theorem find?_bind_of_matched {b₁ b₂ : Bindings} {more : List TemplateArg}
    (hparams : Param.unifyAll t.paramNames pattern.signature.params s.params
      (TemplateParam.bind t.params (given.getD [])) = some b₁)
    (hresult : pattern.signature.result.unify t.paramNames s.result b₁ = (true, b₂))
    (hb : ∀ name arg, b₂.find? name = some arg → name ∈ t.paramNames) {name : String}
    (hname : name ∉ (t.defaulted given pattern.signature).map TemplateParam.name) :
    (TemplateParam.bind t.params (TemplateParam.boundArgs b₂ t.params ++ more)).find? name =
      b₂.find? name := by
  have hsplit : t.params.takeWhile (fun p => t.IsDetermined given pattern.signature p) ++
      t.defaulted given pattern.signature = t.params := List.takeWhile_append_dropWhile
  have hearly : ∀ p ∈ t.params.takeWhile (fun p => t.IsDetermined given pattern.signature p),
      (b₂.find? p.name).isSome = true := by
    intro p hp
    have hdetermined : t.IsDetermined given pattern.signature p := by
      simpa using List.mem_takeWhile_imp hp
    exact isSome_find?_of_isDetermined hparams hresult (List.takeWhile_subset _ hp) hdetermined
  obtain ⟨front, hfront, hargs⟩ :=
    TemplateParam.exists_boundArgs_append hearly (t.defaulted given pattern.signature)
  rw [hsplit] at hargs
  -- What is filled in, and what is bound behind the first gap, only follows these arguments.
  rw [hargs, List.append_assoc, ← hsplit]
  exact TemplateParam.find?_bind_append hfront (by rwa [hsplit]) hname

/-- **Deduced arguments**: with the arguments that are deduced, the signature of a template becomes
the signature that they are deduced from, but for the types with the name of a parameter from the
first one on that is neither given nor a name in the signature. -/
theorem substitute_deduce? (hpattern : t.pattern = .ofFunction pattern)
    (hp : pattern.signature.Regular) (hs : s.Regular)
    (hvalue : ¬ pattern.signature.DressesValue t.paramNames s)
    (h : t.deduce? given s = some args) :
    pattern.signature.Becomes (TemplateParam.bind t.params args)
      ((t.defaulted given pattern.signature).map TemplateParam.name) s := by
  obtain ⟨b₁, b₂, more, hparams, hresult, rfl⟩ := exists_matched_of_deduce? hpattern h
  obtain ⟨hgrows₁, hmatched⟩ := Param.matchedIn_of_unifyAll hparams
  have hgrows₂ := TypeExpr.grows_of_unify hresult
  have hb : ∀ name arg, b₂.find? name = some arg → name ∈ t.paramNames := by
    intro name arg hfound
    rcases (hgrows₁.trans hgrows₂).isParam name arg hfound with hgiven | hparam
    · exact TemplateParam.mem_names_of_find?_bind hgiven
    · exact hparam
  exact (Signature.becomes_of_matched hmatched hresult hp hs hvalue hb _).congr hp
    fun name hname => find?_bind_of_matched hparams hresult hb hname

/-- A function template with parameters and a signature. -/
def ofSignature (params : List TemplateParam) (signature : Signature) : TemplateEntity :=
  { (default : TemplateEntity) with
    params, pattern := .ofFunction { (default : FunctionEntity) with signature } }

/-- A reference to a parameter matches only without the reference. A parameter behind it is in no
type and has a default. -/
theorem substitute_deduce?_reference :
    let pattern : Signature :=
      ⟨[⟨"x", ⟨true, false, .named false [.plain "U"], [.lvalueRef]⟩, none⟩],
        { TypeExpr.named "U" with declarators := [.pointer false] }⟩
    let s : Signature := ⟨[⟨"x", .fundamental "float", none⟩],
      { TypeExpr.fundamental "float" with declarators := [.pointer false] }⟩
    let t := ofSignature
      [⟨"U", .type, none⟩, ⟨"T", .type, some (.type (.fundamental "int"))⟩] pattern
    let args : List TemplateArg := [.type (.fundamental "float"), .type (.fundamental "int")]
    pattern.Regular ∧ s.Regular ∧ ¬ pattern.DressesValue t.paramNames s ∧
    t.deduce? none s = some args ∧ (t.defaulted none pattern).map TemplateParam.name = ["T"] ∧
    pattern.Becomes (TemplateParam.bind t.params args) ["T"] s := by
  intro pattern s t args
  have hpattern : pattern.Regular := by
    constructor
    · simp [pattern, TypeExpr.Regular, TypeBase.Regular, NameSegment.AllRegular,
        NameSegment.Regular, Indirection.Separated]
    · simp [pattern, TypeExpr.named, TypeExpr.ofBase, TypeExpr.Regular, TypeBase.Regular,
        NameSegment.AllRegular, NameSegment.Regular, Indirection.Separated]
  have hs : s.Regular := by
    constructor <;>
      simp [s, TypeExpr.fundamental, TypeExpr.ofBase, TypeExpr.Regular, TypeBase.Regular,
        Indirection.Separated]
  have hvalue : ¬ pattern.DressesValue t.paramNames s := by
    simp [Signature.DressesValue, pattern, s, t, ofSignature, paramNames, TypeExpr.named,
      TypeExpr.ofBase, TypeExpr.DressesValue, TypeExpr.param?, TypeExpr.simple?,
      TypeExpr.simpleBase?]
  have hdeduce : t.deduce? none s = some args := by decide +kernel
  have hdefaulted : (t.defaulted none pattern).map TemplateParam.name = ["T"] := by decide +kernel
  refine ⟨hpattern, hs, hvalue, hdeduce, hdefaulted, ?_⟩
  exact hdefaulted ▸ substitute_deduce? rfl hpattern hs hvalue hdeduce

/-- Behind a parameter that is in no type, a deduced argument gives way to the default. -/
theorem deduce?_behind_default :
    let pattern : Signature := ⟨[⟨"x", .named "U", none⟩], .fundamental "void"⟩
    let s : Signature := ⟨[⟨"x", .fundamental "float", none⟩], .fundamental "void"⟩
    let t := ofSignature [⟨"T", .type, some (.type (.fundamental "int"))⟩,
      ⟨"U", .type, some (.type (.fundamental "double"))⟩] pattern
    pattern.Regular ∧ s.Regular ∧ ¬ pattern.DressesValue t.paramNames s ∧
    ∃ args, t.deduce? none s = some args ∧
      pattern.substitute (TemplateParam.bind t.params args) =
        ⟨[⟨"x", .fundamental "double", none⟩], .fundamental "void"⟩ ∧
      ¬ pattern.Becomes (TemplateParam.bind t.params args) [] s := by
  intro pattern s t
  have hdeduce : t.deduce? none s =
      some [.type (.fundamental "int"), .type (.fundamental "double")] := by decide +kernel
  refine ⟨?_, ?_, ?_, _, hdeduce, by decide +kernel, fun h => ?_⟩
  · constructor <;>
      simp [pattern, TypeExpr.named, TypeExpr.fundamental, TypeExpr.ofBase, TypeExpr.Regular,
        TypeBase.Regular, NameSegment.AllRegular, NameSegment.Regular, Indirection.Separated]
  · constructor <;>
      simp [s, TypeExpr.fundamental, TypeExpr.ofBase, TypeExpr.Regular, TypeBase.Regular,
        Indirection.Separated]
  · simp [Signature.DressesValue, pattern, s, t, ofSignature, paramNames, TypeExpr.named,
      TypeExpr.fundamental, TypeExpr.ofBase, TypeExpr.DressesValue, TypeBase.DressesValue,
      TypeExpr.param?, TypeExpr.simple?, TypeExpr.simpleBase?]
  · have hbecomes : (TypeExpr.named "U").substitute (TemplateParam.bind t.params
        [.type (.fundamental "int"), .type (.fundamental "double")]) = .fundamental "double" := by
      decide +kernel
    cases h.params with
    | cons hx _ =>
      have hx := hx (by simp)
      rw [hbecomes] at hx
      simp [TypeExpr.fundamental, TypeExpr.ofBase, TypeExpr.Alike, TypeBase.Alike,
        TypeExpr.denoted, TypeExpr.objectDeclarators] at hx

end TemplateEntity

end Bindery
