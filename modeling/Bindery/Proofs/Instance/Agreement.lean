import Bindery.Proofs.Survey.Passage

/-!
# Directives and explicit instantiations

A directive names its arguments in a comment, an explicit instantiation in a declaration. The
arguments of the one are taken as they are written, those of the other have their names completed by
what is known where they stand. Each of the two has one entry in the catalogue of its template, and
they have the same entry exactly when their arguments denote the same after that. This is so for
names that need no completion.

## Main definitions

* `TemplateEntity.entriesFor`: the entries of a catalogue for arguments.
* `Header.Coincide`: a directive and an explicit instantiation with the same arguments.

## Main statements

* `HeaderUnit.directive_meets_explicit`: when the two have one entry.
* `HeaderUnit.directive_misses_explicit`: two that do not.
-/
namespace Bindery

/-! ## Completed arguments -/

namespace TemplateParam

theorem exists_fillDefaults {params left : List TemplateParam} {args : List TemplateArg} :
    (∃ done, fillDefaults params left args = .ok done) ↔ ∀ p ∈ left, p.default.isSome = true := by
  induction left generalizing args with
  | nil => simp [fillDefaults]
  | cons p left ih =>
    rw [fillDefaults, List.forall_mem_cons]
    cases p.default with
    | none => simp
    | some default => simp [ih]

/-- Whether arguments can be completed depends on how many there are. -/
theorem exists_complete_of_length {params : List TemplateParam} {as bs done : List TemplateArg}
    (h : complete params as = .ok done) (hlen : bs.length = as.length) :
    ∃ done', complete params bs = .ok done' := by
  rw [complete] at h ⊢
  rw [hlen]
  split at h
  · cases h
  · next hcount =>
    rw [if_neg hcount, exists_fillDefaults]
    exact exists_fillDefaults.1 ⟨done, h⟩

end TemplateParam

/-! ## Entries -/

/-- The entries of a catalogue that stand for arguments under the name of the template. -/
def TemplateEntity.entriesFor (t : TemplateEntity) (catalogue : List Instantiation)
    (args : List TemplateArg) : List Instantiation :=
  catalogue.filter fun x => x.exportName = t.name.name && TemplateArg.denoteSame x.args args

theorem TemplateEntity.mem_entriesFor {t : TemplateEntity} {catalogue : List Instantiation}
    {args : List TemplateArg} {x : Instantiation} : x ∈ t.entriesFor catalogue args ↔
      x ∈ catalogue ∧ x.exportName = t.name.name ∧ TemplateArg.denoteSame x.args args = true := by
  rw [entriesFor, List.mem_filter, Bool.and_eq_true, decide_eq_true_eq]

/-- Two lists of arguments with one entry each have the same one when they denote the same. -/
theorem TemplateEntity.entriesFor_eq_iff {t : TemplateEntity} {catalogue : List Instantiation}
    {args args' : List TemplateArg} {x y : Instantiation}
    (hx : t.entriesFor catalogue args = [x]) (hy : t.entriesFor catalogue args' = [y]) :
    x = y ↔ TemplateArg.denoteSame args args' = true := by
  obtain ⟨hmem, hname, hsame⟩ :=
    mem_entriesFor.1 (hx ▸ List.mem_cons_self : x ∈ t.entriesFor catalogue args)
  constructor
  · rintro rfl
    obtain ⟨-, -, hsame'⟩ := mem_entriesFor.1
      (hy ▸ List.mem_cons_self : x ∈ t.entriesFor catalogue args')
    rw [TemplateArg.denoteSame_comm] at hsame
    exact TemplateArg.denoteSame_trans hsame hsame'
  · intro h
    have hx' : x ∈ t.entriesFor catalogue args' :=
      mem_entriesFor.2 ⟨hmem, hname, TemplateArg.denoteSame_trans hsame h⟩
    rw [hy] at hx'
    exact List.mem_singleton.1 hx'

namespace Evidence

variable {entities : List Entity} {evidence : List Evidence} {index : ℕ} {t : TemplateEntity}
  {catalogue : List Instantiation} {args : List TemplateArg}

/-- Arguments that are asked for have one entry. -/
theorem Catalogues.exists_entriesFor (hc : Catalogues entities evidence index t catalogue)
    (hwants : Wants entities evidence index t t.name.name args) :
    ∃ x, t.entriesFor catalogue args = [x] := by
  obtain ⟨x, hx, hname, hsame⟩ := hc.complete _ _ hwants
  have hmem : x ∈ t.entriesFor catalogue args :=
    TemplateEntity.mem_entriesFor.2 ⟨hx, hname, hsame⟩
  have hdistinct : (t.entriesFor catalogue args).Pairwise fun a b =>
      ¬ (a.exportName = b.exportName ∧ TemplateArg.denoteSame a.args b.args = true) :=
    hc.distinct.filter _
  match hfound : t.entriesFor catalogue args with
  | [] => rw [hfound] at hmem; cases hmem
  | [y] => exact ⟨y, rfl⟩
  | y :: z :: rest =>
    rw [hfound] at hdistinct
    obtain ⟨-, hy, hysame⟩ := TemplateEntity.mem_entriesFor.1 (hfound ▸ List.mem_cons_self)
    obtain ⟨-, hz, hzsame⟩ := TemplateEntity.mem_entriesFor.1
      (hfound ▸ List.mem_cons_of_mem y List.mem_cons_self)
    rw [TemplateArg.denoteSame_comm] at hzsame
    have hapart := (List.pairwise_cons.1 hdistinct).1 z List.mem_cons_self
    exact absurd ⟨hy.trans hz.symm, TemplateArg.denoteSame_trans hysame hzsame⟩ hapart

theorem mem_templatesNamed {isClass : Bool} {path : List String} {i : ℕ} :
    i ∈ templatesNamed entities isClass path ↔ ∃ u, templateAt? entities i = some u ∧
      u.name.segments = path ∧ u.isClassTemplate = isClass := by
  rw [templatesNamed, List.mem_filter, List.mem_range, Option.any_eq_true]
  simp only [Bool.and_eq_true, decide_eq_true_eq, and_iff_right_iff_imp]
  rintro ⟨u, hu, -⟩
  obtain ⟨e, he, -⟩ := Option.bind_eq_some_iff.1 hu
  exact (List.getElem?_eq_some_iff.1 he).1

theorem enclosingScopes_eq_cons (scope : List String) :
    ∃ outer, enclosingScopes scope = scope :: outer := by
  rw [enclosingScopes, List.range_succ, List.reverse_append, List.map_append]
  exact ⟨(List.range scope.length).reverse.map scope.take, by simp⟩

/-- An explicit instantiation in the scope of a class template leads to it. -/
theorem explicitTarget?_of_only {e : Evidence} {given : List TemplateArg}
    (ht : templateAt? entities index = some t) (hclass : t.isClassTemplate = true)
    (honly : ∀ j u, templateAt? entities j = some u → u.isClassTemplate = true →
      u.name.segments = t.name.segments → j = index)
    (hpath : t.name.segments = e.scope ++ e.template)
    (hargs : TemplateParam.complete t.params given = .ok args) :
    explicitTarget? entities e (some given) none = some (index, args) := by
  have hindex : index ∈ templatesNamed entities true (e.scope ++ e.template) :=
    mem_templatesNamed.2 ⟨t, ht, hpath, hclass⟩
  have hnamed : ∃ rest, templatesNamed entities true (e.scope ++ e.template) = index :: rest := by
    cases hfound : templatesNamed entities true (e.scope ++ e.template) with
    | nil => rw [hfound] at hindex; cases hindex
    | cons j rest =>
      obtain ⟨u, hu, hname, huclass⟩ := mem_templatesNamed.1 (hfound ▸ List.mem_cons_self :
        j ∈ templatesNamed entities true (e.scope ++ e.template))
      rw [honly j u hu huclass (hname.trans hpath.symm)]
      exact ⟨rest, rfl⟩
  obtain ⟨rest, hnamed⟩ := hnamed
  obtain ⟨outer, houter⟩ := enclosingScopes_eq_cons e.scope
  have hcandidates : templateCandidates entities e.scope true e.template = index :: rest := by
    rw [templateCandidates, houter, List.findSome?_cons, hnamed]
    rfl
  have hcomplete : t.explicitArgs? (some given) none = some args := by
    rw [TemplateEntity.explicitArgs?, Option.bind_some, toOption_eq_some]
    exact hargs
  rw [explicitTarget?, Option.isNone_none, hcandidates, List.findSome?_cons, ht]
  simp [hcomplete]

end Evidence

/-! ## The two side by side -/

/-- A directive without a name and an explicit instantiation, both on one class template and with
the same spellings of its arguments. The walk comes to the explicit instantiation with a survey, in
a scope where its name is that of the template. -/
structure Header.Coincide (h : Header) (index : ℕ) (t : TemplateEntity) (r : InstanceRequest)
    (scope : Scope) (s : Survey) : Prop where
  template : templateAt? h.survey.entities index = some t
  isClass : t.isClassTemplate = true
  only : ∀ j u, templateAt? h.survey.entities j = some u → u.isClassTemplate = true →
    u.name.segments = t.name.segments → j = index
  unnamed : r.name = none
  directive : ∃ d ∈ h.survey.evidence, ∃ requests, d.kind = .requests index requests ∧ r ∈ requests
  explicit : ∃ info isExtern inner head members name,
    h.Meets scope (.instantiation info isExtern (some (.classDef inner head members))) s ∧
    head.name = some name ∧ head.templateArgs = some r.args ∧
    t.name.segments = scope.path ++ (QualifiedName.parse name.text).segments

namespace HeaderUnit

variable {h : Header} {index : ℕ} {t : TemplateEntity} {r : InstanceRequest} {scope : Scope}
  {s : Survey}

/-- **When a directive and an explicit instantiation are one.** Each of them has one entry in the
catalogue of their template, and they share it exactly when the arguments of the directive as they
are written denote the same as the arguments of the instantiation with their names completed. They
do where no name needs completion. An entry has the arguments of its hint and the native name that
belongs to them, unless another hint spells the same arguments otherwise. -/
theorem directive_meets_explicit (hpair : h.Coincide index t r scope s)
    {read done : List TemplateArg} (hread : r.readArgs = .ok read)
    (hdone : TemplateParam.complete t.params read = .ok done) :
    ∃ catalogue done' x y,
      templateAt? (ofHeader h).entities index = some { t with instantiations := catalogue } ∧
      TemplateParam.complete t.params (read.map (TemplateArg.mapType (s.normalize scope))) =
        .ok done' ∧
      t.entriesFor catalogue done = [x] ∧ t.entriesFor catalogue done' = [y] ∧
      (x = y ↔ TemplateArg.denoteSame done done' = true) ∧
      (TemplateArg.AllSettled (s.leadFor scope) s.aliasOf read → done = done' ∧ x = y) ∧
      ∀ args z, t.entriesFor catalogue args = [z] → z.native = t.nativeName z.args ∧
        ((∀ other, Evidence.Wants h.survey.entities h.survey.evidence index t t.name.name other →
          TemplateArg.denoteSame other args = true → other = args) → z.args = args) := by
  obtain ⟨catalogue, hcatalogue, hc⟩ := exists_catalogue_ofHeader h hpair.template
  obtain ⟨d, hd, requests, hkind, hr⟩ := hpair.directive
  obtain ⟨info, isExtern, inner, head, members, name, hmeets, hname, hspelled, hpath⟩ :=
    hpair.explicit
  obtain ⟨e, he, hscope, hwritten, hexplicit⟩ :=
    hmeets.explicit_mem_survey hname hspelled (Survey.resolveArgs?_eq_some hread)
  have hlength : (read.map (TemplateArg.mapType (s.normalize scope))).length = read.length :=
    List.length_map _
  obtain ⟨done', hdone'⟩ := TemplateParam.exists_complete_of_length hdone hlength
  have hfirst : Evidence.Wants h.survey.entities h.survey.evidence index t
      (r.name.getD t.name.name) done := .request hd hkind hr hread hdone
  rw [hpair.unnamed, Option.getD_none] at hfirst
  rw [← hscope, ← hwritten] at hpath
  have htarget := Evidence.explicitTarget?_of_only hpair.template hpair.isClass hpair.only hpath
    hdone'
  have hsecond : Evidence.Wants h.survey.entities h.survey.evidence index t t.name.name done' :=
    .explicit he hexplicit htarget
  obtain ⟨x, hx⟩ := hc.exists_entriesFor hfirst
  obtain ⟨y, hy⟩ := hc.exists_entriesFor hsecond
  have hiff := TemplateEntity.entriesFor_eq_iff hx hy
  refine ⟨catalogue, done', x, y, hcatalogue, hdone', hx, hy, hiff, ?_, ?_⟩
  · intro hsettled
    have hread' : read.map (TemplateArg.mapType (s.normalize scope)) = read :=
      TemplateArg.map_settled (fun _ => Survey.normalize_settled hmeets.injected_eq) hsettled
    rw [hread', hdone] at hdone'
    obtain rfl := Except.ok.inj hdone'
    exact ⟨rfl, hiff.2 (TemplateArg.denoteSame_self done)⟩
  · intro args z hz
    obtain ⟨hmem, hexport, hsame⟩ :=
      TemplateEntity.mem_entriesFor.1 (hz ▸ List.mem_cons_self : z ∈ t.entriesFor catalogue args)
    refine ⟨(hc.fits z hmem).native, fun honly => honly z.args ?_ hsame⟩
    rw [← hexport]
    exact hc.wanted z hmem

/-! ### A template in a namespace -/

namespace Pair

/-- A class template in a namespace, with a directive above it and an explicit instantiation behind
it that have the same argument. -/
def text (arg : String) : String :=
  "namespace ns \x7b\nstruct A \x7b\n  int n = 1;\n\x7d;\n" ++
    "// pxx :: instance([\"" ++ arg ++ "\"])\n" ++
    "template <typename T> struct Box \x7b\n  T x;\n\x7d;\n" ++
    "template class Box<" ++ arg ++ ">;\n\x7d\n"

/-- The header that was found has these declarations, and the walk over it finds the template. -/
def found (arg : String) (h : Header) : Bool :=
  match h.declarations with
  | [.namespaceDef _ outer _ [_, _, .instantiation _ _ (some (.classDef _ head _))]] =>
    (outer.map fun n => (QualifiedName.parse n.text).segments) = some ["ns"] &&
      head.name.any (fun n => (QualifiedName.parse n.text).segments = ["Box"]) &&
      head.templateArgs = some [arg] && h.survey.entities.length = 2 &&
      (templateAt? h.survey.entities 0).isNone &&
      (templateAt? h.survey.entities 1).any (fun t => t.isClassTemplate &&
        t.name.segments = ["ns", "Box"] && t.params = [⟨"T", .type, none⟩]) &&
      h.survey.evidence.any fun d => d.kind = .requests 1 [⟨none, [arg]⟩]
  | _ => false

theorem exists_coincide {arg : String} (hfound : found arg h = true) : ∃ t scope s,
    h.Coincide 1 t ⟨none, [arg]⟩ scope s ∧ t.params = [⟨"T", .type, none⟩] := by
  unfold found at hfound
  split at hfound
  · next info outer isInline first second info' isExtern inner head members hdeclarations =>
    simp only [Bool.and_eq_true, decide_eq_true_eq, Option.any_eq_true, List.any_eq_true,
      Option.isNone_iff_eq_none] at hfound
    obtain ⟨⟨⟨⟨⟨⟨houter, name, hname, hwritten⟩, hargs⟩, hlength⟩, hfirst⟩,
      t, ht, ⟨hclass, hsegments⟩, hparams⟩, d, hd, hkind⟩ := hfound
    have hmeets : ∃ scope s, scope.path = ["ns"] ∧
        h.Meets scope (.instantiation info' isExtern (some (.classDef inner head members))) s := by
      rw [show (["ns"] : List String) = (some ["ns"]).getD [] from rfl, ← houter]
      simp only [Header.Meets, hdeclarations]
      exact ⟨_, _, rfl, .inNamespace rfl (.later (.later .here))⟩
    obtain ⟨scope, s, hscope, hmeets⟩ := hmeets
    refine ⟨t, scope, s, ⟨ht, hclass, ?_, rfl, ⟨d, hd, _, hkind, .head _⟩, ?_⟩, hparams⟩
    · intro j u hu _ _
      obtain ⟨e, he, -⟩ := Option.bind_eq_some_iff.1 hu
      have hj := (List.getElem?_eq_some_iff.1 he).1
      have hne : j ≠ 0 := by
        rintro rfl
        rw [hfirst] at hu
        cases hu
      omega
    · refine ⟨_, _, _, _, _, name, hmeets, hname, hargs, ?_⟩
      rw [hwritten, hsegments, hscope]
      rfl
  · cases hfound

end Pair

open Pair in
/-- A built-in type is the same everywhere: the directive and the explicit instantiation have one
entry. -/
theorem directive_meets_explicit_int : ∃ h t scope s catalogue x,
    (Header.load (.ofFiles [("main.h", text "int")]) [] "main.h").toOption = some h ∧
    h.Coincide 1 t ⟨none, ["int"]⟩ scope s ∧
    templateAt? (ofHeader h).entities 1 = some { t with instantiations := catalogue } ∧
    t.entriesFor catalogue [.type (.fundamental "int")] = [x] ∧
    x.native = t.nativeName x.args := by
  have hload : (Header.load (.ofFiles [("main.h", text "int")]) [] "main.h").toOption.any
      (found "int") = true := by
    decide +kernel
  obtain ⟨h, hh, hfound⟩ := (Option.any_eq_true _ _).1 hload
  obtain ⟨t, scope, s, hpair, hparams⟩ := exists_coincide hfound
  have hdone : TemplateParam.complete t.params [.type (.fundamental "int")] =
      .ok [.type (.fundamental "int")] := by
    rw [hparams]
    rfl
  obtain ⟨catalogue, done', x, y, hcatalogue, -, hx, -, -, -, hentry⟩ :=
    directive_meets_explicit hpair (by decide +kernel) hdone
  exact ⟨h, t, scope, s, catalogue, x, hh, hpair, hcatalogue, hx, (hentry _ x hx).1⟩

open Pair in
/-- A class of the namespace is written without it in the directive and stays so, and gets it in
front in the explicit instantiation: the catalogue has two entries for one instantiation. -/
theorem directive_misses_explicit : ∃ h t scope s u,
    (Header.load (.ofFiles [("main.h", text "A")]) [] "main.h").toOption = some h ∧
    h.Coincide 1 t ⟨none, ["A"]⟩ scope s ∧ templateAt? (ofHeader h).entities 1 = some u ∧
    (u.instantiations.map fun x => (x.exportName, x.native)).Perm
      [("Box", "ns::Box<A>"), ("Box", "ns::Box<ns::A>")] := by
  have hload : (Header.load (.ofFiles [("main.h", text "A")]) [] "main.h").toOption.any (fun h =>
      found "A" h && (templateAt? h.survey.entities 1).any fun t =>
        ((Evidence.allFound h.survey.entities h.survey.evidence 1 t).foldl TemplateEntity.listNew
          t.instantiations).map (fun x => (x.exportName, x.native)) =
            [("Box", "ns::Box<A>"), ("Box", "ns::Box<ns::A>")]) = true := by
    decide +kernel
  simp only [Option.any_eq_true, Bool.and_eq_true, decide_eq_true_eq] at hload
  obtain ⟨h, hh, hfound, u, hu, hentries⟩ := hload
  obtain ⟨t, scope, s, hpair, -⟩ := exists_coincide hfound
  have hresolve := Evidence.templateAt?_resolve h.survey.entities h.survey.evidence 1
  rw [hu, Option.map_some] at hresolve
  refine ⟨h, t, scope, s, _, hh, hpair, hresolve, ?_⟩
  rw [← hentries]
  exact (List.mergeSort_perm _ _).map _

end HeaderUnit
end Bindery
