import Mathlib.Data.List.Forall2
import Bindery.Survey.Walk

/-!
# Declarations and the marks above them

A declaration is marked by the comments directly above it; where these have no mark, by the
nearest declaration around it that has one. The declarations that a unit may list are the classes,
also those inside other classes, the functions and the templates at namespace scope, in the order
in which they stand in the header.

## Main definitions

* `Directives.lastMark`: the last mark in a block of comments.
* `Site`: a declaration and the declarations around it.
* `Site.mark`, `Site.markPastLinkage`: its mark, with and without regard to linkage blocks.
* `Declaration.sitesOf`: the declarations that a unit may list.
* `Entity.StandsFor`: an entity is that of a declaration.

## Main statements

* `Directives.mark_ofComments`: the directives of a block have its last mark.
-/
namespace Bindery

/-! ## Blocks of comments -/

/-- The directive as a mark. -/
def Directive.mark? : Directive → Option ExportMark
  | mark m => some m
  | request _ => none

namespace Directives

/-- The directives of a comment. A comment that is no directive has none, and neither has one that
cannot be read. -/
def ofComment (comment : String) : List Directive :=
  match Directive.body? comment with
  | none => []
  | some body => (Directive.parseList body).toOption.getD []

/-- The last mark in a block of comments. -/
def lastMark (comments : List String) : Option ExportMark :=
  ((comments.flatMap ofComment).filterMap Directive.mark?).getLast?

theorem addComment_fst (state : Directives × List String) (comment : String) :
    (addComment state comment).1 = (ofComment comment).foldl add state.1 := by
  rw [addComment, ofComment]
  cases Directive.body? comment with
  | none => rfl
  | some body => cases hlist : Directive.parseList body <;> simp [hlist, Except.toOption]

theorem foldl_addComment_fst (comments : List String) (state : Directives × List String) :
    (comments.foldl addComment state).1 = (comments.flatMap ofComment).foldl add state.1 := by
  induction comments generalizing state with
  | nil => rfl
  | cons comment comments ih =>
    rw [List.foldl_cons, ih, addComment_fst, List.flatMap_cons, List.foldl_append]

theorem mark_foldl_add (items : List Directive) (d : Directives) :
    (items.foldl add d).mark = (items.filterMap Directive.mark?).getLast?.or d.mark := by
  induction items generalizing d with
  | nil => rfl
  | cons item items ih =>
    rw [List.foldl_cons, ih]
    cases item with
    | mark m =>
      simp only [add, Directive.mark?, List.filterMap_cons, List.getLast?_cons]
      cases (items.filterMap Directive.mark?).getLast? <;> rfl
    | request r => rfl

/-- The directives of a block have its last mark. -/
theorem mark_ofComments (comments : List String) :
    (ofComments comments).1.mark = lastMark comments := by
  rw [ofComments, foldl_addComment_fst, mark_foldl_add]
  exact Option.or_none

end Directives

/-! ## Declarations -/

namespace Declaration

/-- The comments above a declaration. Those of a template may stand above its header and above
what it declares. -/
def block : Declaration → List String
  | template info _ inner => info.comments ++ (inner.map fun d => d.info.comments).getD []
  | d => d.info.comments

/-- The mark that the comments above a declaration give it. -/
def ownMark (d : Declaration) : Option ExportMark := Directives.lastMark d.block

/-- The declaration is a linkage block. -/
def isLinkage : Declaration → Bool
  | linkage .. => true
  | _ => false

/-- The mark of the nearest of some declarations that has one, given the nearest first. -/
def nearestMark (ds : List Declaration) : ExportMark := (ds.findSome? ownMark).getD .unmarked

/-- The mark of the nearest of some declarations that has one, linkage blocks aside. -/
def nearestPastLinkage (ds : List Declaration) : ExportMark :=
  nearestMark (ds.filter (!·.isLinkage))

theorem nearestPastLinkage_cons {d : Declaration} (h : d.isLinkage = false)
    (ds : List Declaration) :
    nearestPastLinkage (d :: ds) = d.ownMark.getD (nearestPastLinkage ds) := by
  rw [nearestPastLinkage, List.filter_cons_of_pos (by simp [h]), nearestMark, List.findSome?_cons]
  cases d.ownMark <;> rfl

theorem nearestPastLinkage_cons_linkage (info : DeclInfo) (body ds : List Declaration) :
    nearestPastLinkage (linkage info body :: ds) = nearestPastLinkage ds :=
  rfl

/-- Where no linkage block has a mark, it makes no difference to look past them. -/
theorem nearestPastLinkage_eq {ds : List Declaration}
    (h : ∀ d ∈ ds, d.isLinkage = true → d.ownMark = none) :
    nearestPastLinkage ds = nearestMark ds := by
  induction ds with
  | nil => rfl
  | cons d ds ih =>
    have hrest := ih fun b hb => h b (.tail _ hb)
    cases hd : d.isLinkage with
    | false =>
      rw [nearestPastLinkage_cons hd, hrest, nearestMark, nearestMark, List.findSome?_cons]
      cases d.ownMark <;> rfl
    | true =>
      rw [nearestPastLinkage, List.filter_cons_of_neg (by simp [hd]), ← nearestPastLinkage, hrest,
        nearestMark, nearestMark, List.findSome?_cons, h d (.head _) hd]

end Declaration

/-- A declaration and the declarations around it, the innermost first. -/
structure Site where
  decl : Declaration
  around : List Declaration

namespace Site

/-- The mark above the declaration, or else that of the nearest declaration around it that has
one. -/
def mark (s : Site) : ExportMark := Declaration.nearestMark (s.decl :: s.around)

/-- The mark above the declaration, or else that of the nearest declaration around it that has
one and is no linkage block. -/
def markPastLinkage (s : Site) : ExportMark := Declaration.nearestPastLinkage (s.decl :: s.around)

end Site

namespace Declaration

mutual
/-- The classes in a member of a class, with what is around them. -/
def memberSites (around : List Declaration) : Declaration → List Site
  | classDef info head members =>
    let self := classDef info head members
    ⟨self, around⟩ :: memberSitesOf (self :: around) members
  | function .. | field .. | template .. | typeAlias .. | skipped .. | usingDecl .. |
    namespaceDef .. | linkage .. | instantiation .. | access .. => []

/-- The classes in the members of a class, with what is around them. -/
def memberSitesOf (around : List Declaration) : List Declaration → List Site
  | [] => []
  | d :: ds => memberSites around d ++ memberSitesOf around ds
end

/-- A template and the classes inside what it declares, with what is around them. -/
def templateSites (around : List Declaration) (self : Declaration) : Option Declaration → List Site
  | some (classDef _ _ members) => ⟨self, around⟩ :: memberSitesOf (self :: around) members
  | _ => [⟨self, around⟩]

mutual
/-- The classes, functions and templates in a declaration, with what is around them. -/
def sites (around : List Declaration) : Declaration → List Site
  | namespaceDef info name isInline body =>
    sitesOf (namespaceDef info name isInline body :: around) body
  | linkage info body => sitesOf (linkage info body :: around) body
  | classDef info head members => memberSites around (classDef info head members)
  | function info f => [⟨function info f, around⟩]
  | template info params inner => templateSites around (template info params inner) inner
  | instantiation .. | typeAlias .. | skipped .. | field .. | usingDecl .. | access .. => []

/-- The classes, functions and templates in some declarations, with what is around them. -/
def sitesOf (around : List Declaration) : List Declaration → List Site
  | [] => []
  | d :: ds => sites around d ++ sitesOf around ds
end

end Declaration

/-! ## Entities of declarations -/

/-- The place of a member. -/
def Member.location : Member → Option Location
  | constructor c => c.location
  | method m => m.location
  | field f => f.location

/-- The place of a declaration in the files that were read. -/
def DeclInfo.location (files : Array SourceFile) (info : DeclInfo) : Option Location :=
  info.origin.bind (locate? files)

variable (files : Array SourceFile)

/-- The members come from the declarations, in order. Each stands at the place of its declaration,
and has the mark above that, or else the mark of the class. -/
def ComeFrom (classMark : ExportMark) (ms : List Member) (ds : List Declaration) : Prop :=
  ∃ found : List (List Member), ms = found.flatten ∧
    List.Forall₂ (fun of d => ∀ m ∈ of, m.location = d.info.location files ∧
      m.mark = d.ownMark.getD classMark) found ds

variable {files} in
theorem ComeFrom.nil (classMark : ExportMark) : ComeFrom files classMark [] [] := ⟨[], rfl, .nil⟩

variable {files} in
theorem ComeFrom.cons {classMark : ExportMark} {first rest : List Member} {d : Declaration}
    {ds : List Declaration} (hfirst : ∀ m ∈ first, m.location = d.info.location files ∧
      m.mark = d.ownMark.getD classMark)
    (hrest : ComeFrom files classMark rest ds) :
    ComeFrom files classMark (first ++ rest) (d :: ds) := by
  obtain ⟨found, rfl, hfound⟩ := hrest
  exact ⟨first :: found, rfl, .cons hfirst hfound⟩

variable {files} in
theorem ComeFrom.skip {classMark : ExportMark} {ms : List Member} {ds : List Declaration}
    (h : ComeFrom files classMark ms ds) (d : Declaration) :
    ComeFrom files classMark ms (d :: ds) := by
  obtain ⟨found, rfl, hfound⟩ := h
  exact ⟨[] :: found, rfl, .cons (by simp) hfound⟩

/-- A class or function is that of a declaration, with a mark. -/
def Concrete.StandsFor (mark : ExportMark) : Concrete → Declaration → Prop
  | ofClass c, .classDef info _ members =>
    c.location = info.location files ∧ c.mark = mark ∧ ComeFrom files mark c.members members
  | ofFunction f, .function info _ => f.location = info.location files ∧ f.mark = mark
  | _, _ => False

/-- An entity is that of a declaration. -/
def Entity.StandsFor (e : Entity) (s : Site) : Prop :=
  match e, s.decl with
  | ofClass c, d => Concrete.StandsFor files s.markPastLinkage (.ofClass c) d
  | ofFunction f, d => Concrete.StandsFor files s.markPastLinkage (.ofFunction f) d
  | ofTemplate t, .template info _ (some inner) =>
    t.location = info.location files ∧ t.mark = s.markPastLinkage ∧
      t.pattern.StandsFor files s.markPastLinkage inner
  | ofTemplate _, _ => False

/-- A hint holds a specialisation, which is that of a declaration. -/
def Evidence.StandsFor (e : Evidence) (s : Site) : Prop :=
  match e.kind, s.decl with
  | .fullSpec _ entity _, .template info _ (some inner) =>
    e.location = info.location files ∧ entity.StandsFor files s.markPastLinkage inner
  | .partialSpec spec, .template info _ (some inner) =>
    e.location = info.location files ∧ spec.pattern.StandsFor files s.markPastLinkage inner
  | _, _ => False

end Bindery
