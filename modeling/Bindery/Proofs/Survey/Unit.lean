import Bindery.Proofs.Survey.Marks

/-!
# The entities of a unit

The entities of a unit stand for declarations of its header. Filling the catalogues of the
templates leaves them as they are otherwise.

## Main definitions

* `Tree.Holds`: where a node stands in a tree.
* `Declaration.IsIn`: a declaration is read off a node of a tree.
* `Declaration.parts`: the declarations directly inside a declaration.

## Main statements

* `HeaderUnit.entities_stand_for`: the entities of a unit, with their marks.
-/
namespace Bindery

/-! ## Declarations in a tree -/

/-- In a tree, a node stands behind others among the children of a node. The nearest of these is
the first. -/
inductive Tree.Holds : Tree → List Tree → Tree → Prop
  | child (kind : NodeKind) (before : List Tree) (t : Tree) (after : List Tree) :
    Holds (.node kind (before.reverse ++ t :: after)) before t
  | deeper {kind : NodeKind} {children before : List Tree} {c t : Tree} :
    c ∈ children → Holds c before t → Holds (.node kind children) before t

theorem Tree.Holds.trans {root inner t : Tree} {before behind : List Tree}
    (h : root.Holds before inner) (ht : inner.Holds behind t) : root.Holds behind t := by
  induction h with
  | child => exact .deeper (List.mem_append_right _ (.head _)) ht
  | deeper hc _ ih => exact .deeper hc (ih ht)

/-- The declaration of a site and all declarations around it have a property. -/
def Site.All (P : Declaration → Prop) (s : Site) : Prop := ∀ d ∈ s.decl :: s.around, P d

/-- No linkage block around a declaration has comments with a mark. -/
def Site.LinkageUnmarked (s : Site) : Prop := ∀ d ∈ s.around, d.isLinkage = true → d.ownMark = none

namespace Declaration

/-- A declaration is read off a node of a tree, and has the comments above that node. -/
def IsIn (root : Tree) (d : Declaration) : Prop :=
  ∃ before t, root.Holds before t ∧ ofTree? before t = some d ∧
    d.info.comments = commentsAbove before

/-- The declarations directly inside a declaration. -/
def parts : Declaration → List Declaration
  | namespaceDef _ _ _ body | linkage _ body | classDef _ _ body => body
  | template _ _ inner | instantiation _ _ inner => inner.toList
  | function .. | field .. | typeAlias .. | usingDecl .. | access .. | skipped .. => []

theorem comments_of_ofTree? {before : List Tree} {t : Tree} {d : Declaration}
    (h : ofTree? before t = some d) : d.info.comments = commentsAbove before := by
  cases t with
  | leaf => cases h
  | node kind children => cases kind <;> cases h <;> rfl

theorem exists_of_mem_ofChildren {d : Declaration} {before ts : List Tree}
    (h : d ∈ ofChildren before ts) : ∃ mid t after, ts = mid.reverse ++ t :: after ∧
      ofTree? (mid ++ before) t = some d := by
  induction ts generalizing before with
  | nil => cases h
  | cons t ts ih =>
    rcases List.mem_append.1 h with h | h
    · exact ⟨[], t, ts, rfl, Option.mem_toList.1 h⟩
    · obtain ⟨mid, u, after, rfl, hu⟩ := ih h
      exact ⟨mid ++ [t], u, after, by simp, by simpa using hu⟩

theorem isIn_of_mem_ofChildren {d : Declaration} (kind : NodeKind) {children : List Tree}
    (h : d ∈ ofChildren [] children) : d.IsIn (.node kind children) := by
  obtain ⟨before, t, after, rfl, ht⟩ := exists_of_mem_ofChildren h
  rw [List.append_nil] at ht
  exact ⟨before, t, .child kind before t after, ht, comments_of_ofTree? ht⟩

theorem isIn_of_mem_ofFirst {d : Declaration} {kind outer : NodeKind} {children : List Tree}
    (h : d ∈ ofFirst kind children) : d.IsIn (.node outer children) := by
  suffices ∃ found, Tree.node kind found ∈ children ∧ d ∈ ofChildren [] found by
    obtain ⟨found, hmem, hd⟩ := this
    obtain ⟨before, t, hplace, hread⟩ := isIn_of_mem_ofChildren kind hd
    exact ⟨before, t, .deeper hmem hplace, hread⟩
  induction children with
  | nil => cases h
  | cons t ts ih =>
    have hrest (h : d ∈ ofFirst kind ts) :
        ∃ found, Tree.node kind found ∈ t :: ts ∧ d ∈ ofChildren [] found := by
      obtain ⟨found, hmem, hd⟩ := ih h
      exact ⟨found, .tail _ hmem, hd⟩
    cases t with
    | leaf => exact hrest h
    | node k cs =>
      rw [ofFirst] at h
      split at h
      · next hk => exact ⟨cs, hk ▸ .head _, h⟩
      · exact hrest h

theorem isIn_of_mem_ofRoot {d : Declaration} {root : Tree}
    (h : d ∈ ofChildren [] root.children) : d.IsIn root := by
  cases root with
  | leaf => cases h
  | node => exact isIn_of_mem_ofChildren _ h

/-- What is inside a declaration of a tree is in the tree as well. -/
theorem IsIn.of_mem_parts {root : Tree} {d p : Declaration} (h : d.IsIn root)
    (hp : p ∈ d.parts) : p.IsIn root := by
  obtain ⟨before, t, hplace, hread, -⟩ := h
  suffices p.IsIn t by
    obtain ⟨behind, u, hu, hread⟩ := this
    exact ⟨behind, u, hplace.trans hu, hread⟩
  have hhead {ds : List Declaration} (h : p ∈ ds.head?.toList) : p ∈ ds :=
    List.mem_of_mem_head? (Option.mem_toList.1 h)
  cases t with
  | leaf => cases hread
  | node kind children =>
    cases kind <;> cases hread <;> try cases hp
    case node.namespaceDef.refl => exact isIn_of_mem_ofFirst hp
    case node.linkageSpec.refl =>
      rw [parts] at hp
      split at hp
      · exact isIn_of_mem_ofFirst hp
      · exact isIn_of_mem_ofChildren _ hp
    case node.classDef.refl => exact isIn_of_mem_ofFirst hp
    case node.templateDecl.refl => exact isIn_of_mem_ofChildren _ (hhead hp)
    case node.explicitInstantiation.refl => exact isIn_of_mem_ofChildren _ (hhead hp)

section Sites

variable {P : Declaration → Prop}

/-- What holds of a declaration holds of those directly inside it. -/
def Descends (P : Declaration → Prop) : Prop := ∀ d, P d → ∀ p ∈ d.parts, P p

mutual
theorem all_memberSites (hparts : Descends P) {around : List Declaration}
    (haround : ∀ a ∈ around, P a) :
    (d : Declaration) → P d → ∀ s ∈ memberSites around d, s.All P
  | .classDef info head members, hd, s, hs => by
    have hself := List.forall_mem_cons.2 ⟨hd, haround⟩
    rw [memberSites] at hs
    rcases List.mem_cons.1 hs with rfl | hs
    · exact hself
    · exact all_memberSitesOf hparts hself members (hparts _ hd) s hs
  | .function .., _, s, hs | .field .., _, s, hs | .template .., _, s, hs
  | .typeAlias .., _, s, hs | .skipped .., _, s, hs | .usingDecl .., _, s, hs
  | .namespaceDef .., _, s, hs | .linkage .., _, s, hs | .instantiation .., _, s, hs
  | .access .., _, s, hs => by simp [memberSites] at hs

theorem all_memberSitesOf (hparts : Descends P) {around : List Declaration}
    (haround : ∀ a ∈ around, P a) :
    (ds : List Declaration) → (∀ d ∈ ds, P d) → ∀ s ∈ memberSitesOf around ds, s.All P
  | [], _, s, hs => by simp [memberSitesOf] at hs
  | d :: ds, hds, s, hs => by
    obtain ⟨hd, hds⟩ := List.forall_mem_cons.1 hds
    rw [memberSitesOf] at hs
    rcases List.mem_append.1 hs with hs | hs
    · exact all_memberSites hparts haround d hd s hs
    · exact all_memberSitesOf hparts haround ds hds s hs
end

theorem all_templateSites (hparts : Descends P) {around : List Declaration}
    (haround : ∀ a ∈ around, P a)
    {info : DeclInfo} {ps : List TemplateParamDecl} {inner : Option Declaration}
    (hd : P (.template info ps inner)) :
    ∀ s ∈ templateSites around (.template info ps inner) inner, s.All P := by
  have hself := List.forall_mem_cons.2 ⟨hd, haround⟩
  intro s hs
  unfold templateSites at hs
  split at hs
  · rcases List.mem_cons.1 hs with rfl | hs
    · exact hself
    · have hinner := hparts _ hd _ (List.mem_singleton_self _)
      exact all_memberSitesOf hparts hself _ (hparts _ hinner) s hs
  · obtain rfl := List.mem_singleton.1 hs
    exact hself

mutual
/-- What holds of declarations and of all that is inside them holds of what is around a site. -/
theorem all_sites (hparts : Descends P) {around : List Declaration}
    (haround : ∀ a ∈ around, P a) :
    (d : Declaration) → P d → ∀ s ∈ sites around d, s.All P
  | .namespaceDef info name isInline body, hd, s, hs => by
    rw [sites] at hs
    exact all_sitesOf hparts (List.forall_mem_cons.2 ⟨hd, haround⟩) body (hparts _ hd) s hs
  | .linkage info body, hd, s, hs => by
    rw [sites] at hs
    exact all_sitesOf hparts (List.forall_mem_cons.2 ⟨hd, haround⟩) body (hparts _ hd) s hs
  | .classDef info head members, hd, s, hs => by
    rw [sites] at hs
    exact all_memberSites hparts haround _ hd s hs
  | .function info f, hd, s, hs => by
    rw [sites] at hs
    obtain rfl := List.mem_singleton.1 hs
    exact List.forall_mem_cons.2 ⟨hd, haround⟩
  | .template info ps inner, hd, s, hs => by
    rw [sites] at hs
    exact all_templateSites hparts haround hd s hs
  | .instantiation .., _, s, hs | .typeAlias .., _, s, hs | .skipped .., _, s, hs
  | .field .., _, s, hs | .usingDecl .., _, s, hs | .access .., _, s, hs => by
    simp [sites] at hs

theorem all_sitesOf (hparts : Descends P) {around : List Declaration}
    (haround : ∀ a ∈ around, P a) :
    (ds : List Declaration) → (∀ d ∈ ds, P d) → ∀ s ∈ sitesOf around ds, s.All P
  | [], _, s, hs => by simp [sitesOf] at hs
  | d :: ds, hds, s, hs => by
    obtain ⟨hd, hds⟩ := List.forall_mem_cons.1 hds
    rw [sitesOf] at hs
    rcases List.mem_append.1 hs with hs | hs
    · exact all_sites hparts haround d hd s hs
    · exact all_sitesOf hparts haround ds hds s hs
end

end Sites

end Declaration

/-! ## Catalogues -/

/-- The entity without what resolution fills in. -/
def Entity.uncatalogued : Entity → Entity
  | ofTemplate t => ofTemplate { t with instantiations := [] }
  | e => e

section Catalogues

variable {files : Array SourceFile} {e : Entity} {s : Site}

theorem Entity.standsFor_uncatalogued : e.uncatalogued.StandsFor files s ↔ e.StandsFor files s := by
  obtain ⟨d, around⟩ := s
  cases e with
  | ofTemplate t =>
    cases d with
    | template info ps inner => cases inner <;> rfl
    | _ => rfl
  | _ => rfl

/-- An entity has the mark of its declaration, which is no linkage block. -/
theorem Entity.StandsFor.mark_eq (h : e.StandsFor files s) :
    e.mark = s.markPastLinkage ∧ s.decl.isLinkage = false := by
  obtain ⟨d, around⟩ := s
  cases e with
  | ofClass c =>
    cases d with
    | classDef => exact ⟨h.2.1, rfl⟩
    | _ => cases h
  | ofFunction f =>
    cases d with
    | function => exact ⟨h.2, rfl⟩
    | _ => cases h
  | ofTemplate t =>
    cases d with
    | template info ps inner =>
      cases inner with
      | none => cases h
      | some inner => exact ⟨h.2.1, rfl⟩
    | _ => cases h

namespace Evidence

theorem map_uncatalogued_updateAt (entities : List Entity) (index : ℕ)
    (found : List Instantiation) :
    (updateAt entities index (·.extend found)).map Entity.uncatalogued =
      entities.map Entity.uncatalogued := by
  refine List.ext_getElem? fun i => ?_
  rw [updateAt, List.getElem?_map, List.getElem?_map, List.getElem?_modify]
  cases entities[i]? with
  | none => rfl
  | some e =>
    cases e <;> split <;> rfl

theorem map_uncatalogued_catalogueAll (placement : Placement) (entities : List Entity) :
    (catalogueAll placement entities).1.map Entity.uncatalogued =
      entities.map Entity.uncatalogued := by
  refine List.ext_getElem? fun i => ?_
  simp only [catalogueAll, List.getElem?_map, List.getElem?_zipIdx, Option.map_map]
  cases entities[i]? with
  | none => rfl
  | some e => cases e <;> rfl

theorem map_uncatalogued_follow (placement : Placement) (r : Resolution) (e : Evidence) :
    (follow placement r e).1.map Entity.uncatalogued = r.1.map Entity.uncatalogued := by
  obtain ⟨entities, diagnostics⟩ := r
  unfold follow
  dsimp only
  split
  · split
    · rfl
    · exact map_uncatalogued_updateAt _ _ _
  · split
    · exact map_uncatalogued_updateAt _ _ _
    · rfl
  · rfl
  · rfl

/-- Resolution changes nothing but catalogues. -/
theorem map_uncatalogued_resolve (entities : List Entity) (evidence : List Evidence) :
    (resolve entities evidence).1.map Entity.uncatalogued = entities.map Entity.uncatalogued := by
  have hfollow (placement : Placement) (uses : List Evidence) (r : Resolution) :
      (uses.foldl (follow placement) r).1.map Entity.uncatalogued =
        r.1.map Entity.uncatalogued := by
    induction uses generalizing r with
    | nil => rfl
    | cons e uses ih => rw [List.foldl_cons, ih, map_uncatalogued_follow]
  have hordered (e : Entity) : (ordered e).uncatalogued = e.uncatalogued := by cases e <;> rfl
  simp only [resolve, List.map_map, Function.comp_def, hordered]
  exact (hfollow _ _ _).trans (map_uncatalogued_catalogueAll _ _)

end Evidence

end Catalogues

/-! ## The unit -/

section Unit

variable {files : Array SourceFile} {xs : List Site}

theorem sublistForall₂_imp_of_mem {α β : Type} {R S : α → β → Prop} {as : List α} {bs : List β}
    (h : List.SublistForall₂ R as bs) (himp : ∀ a, ∀ b ∈ bs, R a b → S a b) :
    List.SublistForall₂ S as bs := by
  induction h with
  | nil => exact .nil
  | cons hab _ ih => exact .cons (himp _ _ (.head _) hab) (ih fun a b hb => himp a b (.tail _ hb))
  | cons_right _ ih => exact .cons_right (ih fun a b hb => himp a b (.tail _ hb))

/-- Resolved entities stand for what the collected ones stand for. -/
theorem Evidence.resolve_stand_for {entities : List Entity}
    (h : List.SublistForall₂ (Entity.StandsFor files) entities xs) (evidence : List Evidence) :
    List.SublistForall₂ (Entity.StandsFor files) (resolve entities evidence).1 xs := by
  rw [List.sublistForall₂_iff] at h ⊢
  obtain ⟨ys, hys, hsub⟩ := h
  have hblank {es : List Entity} : List.Forall₂ (Entity.StandsFor files) es ys ↔
      List.Forall₂ (Entity.StandsFor files) (es.map Entity.uncatalogued) ys := by
    rw [List.forall₂_map_left_iff]
    simp only [Entity.standsFor_uncatalogued]
  refine ⟨ys, ?_, hsub⟩
  rwa [hblank, map_uncatalogued_resolve, ← hblank]

/-- What the walk over a header finds stands for sites of the header. -/
theorem Header.survey_adds (h : Header) :
    Walk.Adds h.files (Declaration.sitesOf [] h.declarations)
      { files := h.files, diagnostics := h.diagnostics } h.survey := by
  have hwalk : Walk.Collects h.files (Declaration.sitesOf [] h.declarations) (fun _ => True)
      (Walk.declareAll {} h.declarations) :=
    Walk.collects_declareAll rfl h.declarations
  exact (hwalk _ rfl).2

theorem Header.all_sites (h : Header) :
    ∀ s ∈ Declaration.sitesOf [] h.declarations, s.All (·.IsIn h.root) :=
  Declaration.all_sitesOf (fun _ hd _ => hd.of_mem_parts) (by simp) _
    fun _ => Declaration.isIn_of_mem_ofRoot

/-- An entity has the mark of its site as well where linkage blocks have none. -/
theorem Entity.StandsFor.mark_eq_of_unmarked {e : Entity} {s : Site} (h : e.StandsFor files s)
    (hlinkage : s.LinkageUnmarked) : e.mark = s.mark := by
  obtain ⟨hmark, hdecl⟩ := h.mark_eq
  refine hmark.trans (Declaration.nearestPastLinkage_eq ?_)
  refine List.forall_mem_cons.2 ⟨fun hself => ?_, hlinkage⟩
  rw [hdecl] at hself
  cases hself

/-- Every entity of a unit is that of a class, function or template declaration of the header,
in the order of the header. Its mark is the last one in the comments above the declaration, or
else that of the nearest declaration around it that has one; only that a linkage block counts as
having none. A member of a class has the mark above it, or else that of the class. The same goes
for the specialisations that are kept for the catalogues. -/
theorem HeaderUnit.entities_stand_for (h : Header) :
    List.SublistForall₂
        (fun e s => s.All (·.IsIn h.root) ∧ e.StandsFor h.files s ∧ e.mark = s.markPastLinkage ∧
          (s.LinkageUnmarked → e.mark = s.mark))
        (ofHeader h).entities (Declaration.sitesOf [] h.declarations) ∧
      ∀ e ∈ h.survey.evidence, Walk.IsSpecialization e →
        ∃ s ∈ Declaration.sitesOf [] h.declarations, s.All (·.IsIn h.root) ∧
          e.StandsFor h.files s := by
  obtain ⟨-, ⟨new, hnew, hstand⟩, hints, hhints, hspec⟩ := h.survey_adds
  rw [List.nil_append] at hnew hhints
  subst hnew hhints
  refine ⟨sublistForall₂_imp_of_mem (Evidence.resolve_stand_for hstand h.survey.evidence)
    fun e s hs he => ⟨h.all_sites s hs, he, he.mark_eq.1, he.mark_eq_of_unmarked⟩, ?_⟩
  intro e he hspecial
  obtain ⟨s, hs, hstands⟩ := hspec e he hspecial
  exact ⟨s, hs, h.all_sites s hs, hstands⟩

/-- The marks of a unit are among those of the sites in the header, if every entity has that of
its site. -/
theorem marks_sublist {entities : List Entity}
    (h : List.SublistForall₂ (fun e s => e.StandsFor files s ∧ e.mark = s.mark) entities xs) :
    (entities.map Entity.mark).Sublist (xs.map Site.mark) := by
  induction h with
  | nil => exact List.nil_sublist _
  | cons hes _ ih => rw [List.map_cons, List.map_cons, hes.2]; exact ih.cons_cons _
  | cons_right _ ih => exact ih.cons _

/-- A function in a linkage block is unmarked although the block is marked for export. -/
theorem HeaderUnit.mark_passes_over_linkage : ∃ h,
    (Header.load (.ofFiles [("main.h",
      "// pxx :: export\nextern \"C\" \x7b\nvoid f();\n\x7d\n")]) [] "main.h").toOption = some h ∧
    ¬List.SublistForall₂ (fun e s => e.StandsFor h.files s ∧ e.mark = s.mark)
      (ofHeader h).entities (Declaration.sitesOf [] h.declarations) := by
  let found := (Header.load (.ofFiles [("main.h",
    "// pxx :: export\nextern \"C\" \x7b\nvoid f();\n\x7d\n")]) [] "main.h").toOption
  have hfound : found.map (fun h =>
      ((ofHeader h).entities.map Entity.mark,
        (Declaration.sitesOf [] h.declarations).map Site.mark)) =
      some ([.unmarked], [.exported]) := by
    decide +kernel
  obtain ⟨h, hh, hmarks⟩ := Option.map_eq_some_iff.1 hfound
  rw [Prod.mk.injEq] at hmarks
  refine ⟨h, hh, fun hall => ?_⟩
  have hsub := marks_sublist hall
  rw [hmarks.1, hmarks.2] at hsub
  exact absurd (hsub.subset (.head _)) (by decide)

end Unit

end Bindery
