import Bindery.Export.Surface
import Bindery.Header
import Bindery.Proofs.Fallible
import Bindery.Survey.Walk

/-!
# Requested classes

A host requests classes by name, and a name may be the end of several paths. A request for which
there is nothing is refused. Any class will do for a request, wherever it is declared. A class
template will do as well, but the search for it ends at the first template of the name, which may
be a function template.

## Main definitions

* `QualifiedName.GoesBy`: a written name is the end of a path.
* `ExportedClass.Presents`: a class is exported under its own name.
* `HeaderUnit.Denotes`: a request names a class or a class template.
* `HeaderUnit.Obscures`: a request is lost behind a function template.

## Main statements

* `HeaderUnit.exportModel_explicit`: which request is refused, and which classes are exported.
-/
namespace Bindery

/-- The written name is not empty, and is the end of the path. -/
def QualifiedName.GoesBy (q : QualifiedName) (query : String) : Prop :=
  (parse query).segments ≠ [] ∧ (parse query).segments <:+ q.segments

instance (q : QualifiedName) (query : String) : Decidable (q.GoesBy query) :=
  inferInstanceAs (Decidable (_ ∧ _))

theorem QualifiedName.isNamedBy_iff {q : QualifiedName} {query : String} :
    q.isNamedBy query = true ↔ q.GoesBy query := by
  simp [isNamedBy, matchesPath, GoesBy]

/-- The class is exported under its own name. -/
structure ExportedClass.Presents (e : ExportedClass) (c : ClassEntity) : Prop where
  name : e.name = c.name
  exportName : e.exportName = c.name.name
  native : e.native = c.name.text
  kind : e.kind = c.kind
  location : e.location = c.location

namespace HeaderUnit

variable {u : HeaderUnit} {n : String}

/-- A class goes by the name. -/
def HasClass (u : HeaderUnit) (n : String) : Prop := ∃ c ∈ u.classes, c.name.GoesBy n

/-- A class template goes by the name. -/
def HasClassTemplate (u : HeaderUnit) (n : String) : Prop :=
  ∃ t ∈ u.templates, t.isClassTemplate = true ∧ t.name.GoesBy n

instance (u : HeaderUnit) (n : String) : Decidable (u.HasClass n) :=
  inferInstanceAs (Decidable (∃ c ∈ u.classes, _))

instance (u : HeaderUnit) (n : String) : Decidable (u.HasClassTemplate n) :=
  inferInstanceAs (Decidable (∃ t ∈ u.templates, _))

/-- A class or a class template goes by the name. -/
def Denotes (u : HeaderUnit) (n : String) : Prop := u.HasClass n ∨ u.HasClassTemplate n

instance (u : HeaderUnit) (n : String) : Decidable (u.Denotes n) :=
  inferInstanceAs (Decidable (_ ∨ _))

/-- No class goes by the name, and a function template that does is declared in front of every class
template that does. -/
def Obscures (u : HeaderUnit) (n : String) : Prop :=
  ¬ u.HasClass n ∧ ∃ front f behind, u.templates = front ++ f :: behind ∧
    f.isClassTemplate = false ∧ f.name.GoesBy n ∧
    ∀ t ∈ front, t.isClassTemplate = true → ¬ t.name.GoesBy n

theorem isSome_findClass?_iff : (u.findClass? n).isSome = true ↔ u.HasClass n := by
  simp [findClass?, HasClass, QualifiedName.isNamedBy_iff]

/-- What is found is a class template exactly when one goes by the name and no function template
stands in front of all that do. -/
theorem findTemplate?_any_iff (hclass : ¬ u.HasClass n) :
    (u.findTemplate? n).any (·.isClassTemplate) = true ↔
      u.HasClassTemplate n ∧ ¬ u.Obscures n := by
  cases hfind : u.findTemplate? n with
  | none =>
    have hnone : ∀ t ∈ u.templates, ¬ t.name.GoesBy n := by
      intro t ht hname
      exact List.find?_eq_none.1 hfind t ht (QualifiedName.isNamedBy_iff.2 hname)
    constructor
    · intro h
      cases h
    · rintro ⟨⟨t, ht, -, hname⟩, -⟩
      exact absurd hname (hnone t ht)
  | some t =>
    obtain ⟨hname, front, behind, hcut, hfront⟩ := List.find?_eq_some_iff_append.1 hfind
    rw [Option.any_some]
    have hname : t.name.GoesBy n := QualifiedName.isNamedBy_iff.1 hname
    have hfront : ∀ s ∈ front, ¬ s.name.GoesBy n := by
      intro s hs hgoes
      simpa [QualifiedName.isNamedBy_iff.2 hgoes] using hfront s hs
    constructor
    · intro hkind
      refine ⟨⟨t, by rw [hcut]; simp, hkind, hname⟩, ?_⟩
      -- The search would have ended at the function template, or at a class template in front.
      rintro ⟨-, front', f, behind', hcut', hf, hgoes, hfront'⟩
      have hnamed := QualifiedName.isNamedBy_iff.2 hgoes
      rw [findTemplate?, hcut', List.find?_append, List.find?_cons, hnamed] at hfind
      cases hearly : front'.find? (·.name.isNamedBy n) with
      | none =>
        obtain rfl : f = t := by simpa [hearly] using hfind
        exact absurd hkind (by simp [hf])
      | some s =>
        obtain rfl : s = t := by simpa [hearly] using hfind
        exact hfront' s (List.mem_of_find?_eq_some hearly) hkind hname
    · rintro ⟨-, hobscures⟩
      by_contra hkind
      refine hobscures ⟨hclass, front, t, behind, hcut, by simpa using hkind, hname, ?_⟩
      exact fun s hs _ => hfront s hs

/-- A request is answered when it names something that no function template hides. -/
theorem hasTarget_iff : u.hasTarget n = true ↔ u.Denotes n ∧ ¬ u.Obscures n := by
  rw [hasTarget, Bool.or_eq_true, isSome_findClass?_iff]
  by_cases hclass : u.HasClass n
  · exact ⟨fun _ => ⟨.inl hclass, fun hobscures => hobscures.1 hclass⟩, fun _ => .inl hclass⟩
  · rw [findTemplate?_any_iff hclass, Denotes]
    simp only [hclass, false_or]

/-- The first request that is not answered. -/
theorem missingTarget?_explicit {names : List String} :
    u.missingTarget? (.explicit names) = some n ↔ ∃ front behind, names = front ++ n :: behind ∧
      (¬ u.Denotes n ∨ u.Obscures n) ∧ ∀ m ∈ front, u.Denotes m ∧ ¬ u.Obscures m := by
  have hmisses (m : String) : u.hasTarget m = false ↔ ¬ u.Denotes m ∨ u.Obscures m := by
    rw [← Bool.not_eq_true, hasTarget_iff, not_and_or, not_not]
  rw [missingTarget?, List.find?_eq_some_iff_append]
  simp only [Bool.not_eq_true', Bool.not_not, hmisses, hasTarget_iff]
  constructor
  · rintro ⟨hn, front, behind, hcut, hfront⟩
    exact ⟨front, behind, hcut, hn, hfront⟩
  · rintro ⟨front, behind, hcut, hn, hfront⟩
    exact ⟨hn, front, behind, hcut, hfront⟩

/-- An export fails for a request that is not answered, and for nothing else. -/
theorem exportModel_eq_error {p : ExportPolicy} {fault : ExportFault} :
    u.exportModel p = .error fault ↔
      ∃ n, u.missingTarget? p = some n ∧ fault = .unknownTarget n := by
  rw [exportModel]
  cases u.missingTarget? p with
  | none => simp
  | some n => simp [eq_comm]

/-- A class is selected when it is not hidden and goes by one of the names. -/
theorem selected_explicit (u : HeaderUnit) (names : List String) :
    u.selected (.explicit names) =
      u.classes.filter fun c => c.mark ≠ .hidden ∧ ∃ n ∈ names, c.name.GoesBy n := by
  refine List.filter_congr fun c _ => ?_
  have hany : names.any c.name.isNamedBy = decide (∃ n ∈ names, c.name.GoesBy n) := by
    rw [Bool.eq_iff_iff, List.any_eq_true, decide_eq_true_iff]
    simp only [QualifiedName.isNamedBy_iff]
  rw [ExportPolicy.selects, hany, Bool.decide_and]

/-- **Which request is refused, and which classes are exported.** The export of some requested names
fails with an unknown target exactly when one of them names neither a class nor a class template, or
only class templates behind a function template of the name, and it then names the first such
request. Otherwise the classes that are exported are those that are not hidden and go by one of the
names, each once and in the order of their declaration. -/
theorem exportModel_explicit (u : HeaderUnit) (names : List String) :
    (∀ fault, u.exportModel (.explicit names) = .error fault ↔
      ∃ front n behind, names = front ++ n :: behind ∧ fault = .unknownTarget n ∧
        (¬ u.Denotes n ∨ u.Obscures n) ∧ ∀ m ∈ front, u.Denotes m ∧ ¬ u.Obscures m) ∧
    ∀ m, u.exportModel (.explicit names) = .ok m →
      m.classes.Forall₂ ExportedClass.Presents
        (u.classes.filter fun c => c.mark ≠ .hidden ∧ ∃ n ∈ names, c.name.GoesBy n) := by
  constructor
  · intro fault
    rw [exportModel_eq_error]
    constructor
    · rintro ⟨n, hmissing, rfl⟩
      obtain ⟨front, behind, hcut, hn, hfront⟩ := missingTarget?_explicit.1 hmissing
      exact ⟨front, n, behind, hcut, rfl, hn, hfront⟩
    · rintro ⟨front, n, behind, hcut, rfl, hn, hfront⟩
      exact ⟨n, missingTarget?_explicit.2 ⟨front, behind, hcut, hn, hfront⟩, rfl⟩
  · intro m hm
    rw [exportModel] at hm
    split at hm
    · cases hm
    · obtain rfl := Except.ok.inj hm
      rw [← selected_explicit, List.forall₂_map_left_iff]
      exact List.forall₂_same.2 fun c _ => ⟨rfl, rfl, rfl, rfl, rfl⟩

namespace Namesakes

/-- A class without members in the main file. -/
def plain (path : List String) (mark : ExportMark) (line : Nat) : ClassEntity :=
  ⟨⟨path⟩, .structKind, [], [], mark, some ⟨"main.h", ⟨line, 0⟩⟩⟩

/-- Three classes `X`, one of which is hidden, and one of another name. -/
def unit : HeaderUnit :=
  { files := [], systemIncludes := [], aliases := {}, diagnostics := []
    entities := [.ofClass (plain ["a", "X"] .unmarked 0), .ofClass (plain ["a", "Y"] .exported 1),
      .ofClass (plain ["b", "X"] .hidden 2), .ofClass (plain ["b", "c", "X"] .unmarked 3)] }

end Namesakes

open Namesakes in
/-- One request is answered by two classes, and the first of two vain requests is named. -/
theorem exportModel_explicit_namesakes :
    (∃ m, Namesakes.unit.exportModel (.explicit ["X"]) = .ok m ∧
      m.classes.Forall₂ ExportedClass.Presents
        [plain ["a", "X"] .unmarked 0, plain ["b", "c", "X"] .unmarked 3]) ∧
    Namesakes.unit.exportModel (.explicit ["b::X", "c::Y", "Z"]) =
      .error (.unknownTarget "c::Y") := by
  obtain ⟨-, hclasses⟩ := exportModel_explicit Namesakes.unit ["X"]
  obtain ⟨hfault, -⟩ := exportModel_explicit Namesakes.unit ["b::X", "c::Y", "Z"]
  refine ⟨⟨_, rfl, ?_⟩, ?_⟩
  · exact hclasses _ rfl
  · refine (hfault _).2 ⟨["b::X"], "c::Y", ["Z"], rfl, rfl, .inl (by decide), ?_⟩
    intro n hn
    obtain rfl := List.mem_singleton.1 hn
    have hclass : Namesakes.unit.HasClass "b::X" := by decide
    exact ⟨.inl hclass, fun hobscures => hobscures.1 hclass⟩

/-! ### A function template and a class template of one name -/

namespace Overlap

/-- The function template is declared first. -/
def functionFirst : String :=
  "namespace a \x7b\ntemplate <typename T> T f(T x);\n\x7d\n" ++
    "namespace b \x7b\ntemplate <typename T> struct f \x7b\n\x7d;\n\x7d\n"

/-- The class template is declared first. -/
def classFirst : String :=
  "namespace b \x7b\ntemplate <typename T> struct f \x7b\n\x7d;\n\x7d\n" ++
    "namespace a \x7b\ntemplate <typename T> T f(T x);\n\x7d\n"

end Overlap

open Overlap in
/-- A class template goes by the request, and the request is refused, since a function template is
declared in front of it. Declared the other way around they are no reason to refuse. -/
theorem exportModel_overlooks_class_template : ∃ h h',
    (Header.load (.ofFiles [("main.h", functionFirst)]) [] "main.h").toOption = some h ∧
    (Header.load (.ofFiles [("main.h", classFirst)]) [] "main.h").toOption = some h' ∧
    (ofHeader h).HasClassTemplate "f" ∧
    (ofHeader h).exportModel (.explicit ["f"]) = .error (.unknownTarget "f") ∧
    ∃ m, (ofHeader h').exportModel (.explicit ["f"]) = .ok m ∧ m.classes = [] := by
  let found (text : String) := (Header.load (.ofFiles [("main.h", text)]) [] "main.h").toOption
  have hfirst : (found functionFirst).map (fun h =>
      (decide ((ofHeader h).HasClassTemplate "f"),
        (ofHeader h).missingTarget? (.explicit ["f"]))) = some (true, some "f") := by
    decide +kernel
  have hsecond : (found classFirst).map (fun h =>
      ((ofHeader h).missingTarget? (.explicit ["f"]), (ofHeader h).selected (.explicit ["f"]))) =
        some (none, []) := by
    decide +kernel
  obtain ⟨h, hh, hpair⟩ := Option.map_eq_some_iff.1 hfirst
  obtain ⟨htemplate, hmissing⟩ := Prod.mk.injEq _ _ _ _ ▸ hpair
  obtain ⟨h', hh', hpair'⟩ := Option.map_eq_some_iff.1 hsecond
  obtain ⟨hmissing', hselected⟩ := Prod.mk.injEq _ _ _ _ ▸ hpair'
  refine ⟨h, h', hh, hh', of_decide_eq_true htemplate, ?_, ?_⟩
  · rw [exportModel, hmissing]
  · rw [exportModel, hmissing', hselected]
    exact ⟨_, rfl, rfl⟩

end HeaderUnit
end Bindery
