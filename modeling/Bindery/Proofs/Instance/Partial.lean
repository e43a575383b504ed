import Bindery.Instance.Resolve
import Mathlib.Data.List.Perm.Basic

/-!
# Partial specialisations by their order

Arguments that no full specialisation has are served by the partial specialisation that matches them
and is declared first, whether or not a later one is more specialised. So the match that serves is a
most specialised one just if no later match exceeds it. Where the matches are declared in such an
order and one of them exceeds all others, this one serves in every such order.

## Main definitions

* `PartialSpec.Exceeds`: one partial specialisation is more specialised than another one.
* `Specializations.matching`: the partial specialisations that serve arguments.
* `Specializations.InOrder`: no match exceeds the one that is declared first.

## Main statements

* `TemplateEntity.instantiate_matching`: which partial specialisation serves arguments.
-/
namespace Bindery

namespace PartialSpec

/-- The arguments of the first partial specialisation become those of the second one for some
arguments of its parameters. -/
def Covers (p q : PartialSpec) : Prop :=
  p.args.length = q.args.length ∧
    (TemplateArg.unifyAll (p.params.map TemplateParam.name) p.args q.args {}).1 = true

instance (p q : PartialSpec) : Decidable (p.Covers q) := inferInstanceAs (Decidable (_ ∧ _))

/-- The first partial specialisation is more specialised than the second one, which covers it and
is not covered by it. -/
def Exceeds (p q : PartialSpec) : Prop := q.Covers p ∧ ¬ p.Covers q

instance (p q : PartialSpec) : Decidable (p.Exceeds q) := inferInstanceAs (Decidable (_ ∧ _))

theorem not_exceeds_self (p : PartialSpec) : ¬ p.Exceeds p := fun h => h.2 h.1

end PartialSpec

namespace Specializations

/-- The partial specialisations that serve the arguments, in order of declaration. -/
def matching (specs : Specializations) (args : List TemplateArg) : List PartialSpec :=
  (specs.partials.map Prod.fst).filter fun p => (p.match? args).isSome

/-- No match exceeds the one that is declared first. -/
def InOrder (specs : Specializations) (args : List TemplateArg) : Prop :=
  ∀ p ∈ (specs.matching args).head?, ∀ q ∈ (specs.matching args).tail, ¬ q.Exceeds p

variable {specs specs' : Specializations} {args : List TemplateArg} {p c : PartialSpec}
  {rest : List PartialSpec}

theorem matching_perm (h : specs'.partials.Perm specs.partials) :
    (specs'.matching args).Perm (specs.matching args) :=
  (h.map _).filter _

/-- The search for a match stops at the first one. -/
theorem findSome?_match (h : specs.matching args = p :: rest) :
    ∃ b, p.match? args = some b ∧
      (specs.partials.findSome? fun (q, _) => (q.match? args).map fun b => (q, b)) =
        some (p, b) := by
  rw [matching] at h
  generalize specs.partials = list at h ⊢
  induction list with
  | nil => cases h
  | cons entry list ih =>
    obtain ⟨q, place⟩ := entry
    rw [List.map_cons, List.filter_cons] at h
    rw [List.findSome?_cons]
    cases hq : q.match? args with
    | none =>
      rw [hq] at h
      simp only [hq, Option.map_none]
      exact ih h
    | some b =>
      rw [hq] at h
      cases h
      exact ⟨b, hq, by simp only [hq, Option.map_some]⟩

theorem forall_not_exceeds_iff (h : specs.matching args = p :: rest) :
    (∀ q ∈ specs.matching args, ¬ q.Exceeds p) ↔ specs.InOrder args := by
  rw [InOrder, h]
  simp [p.not_exceeds_self]

/-- In an order like this, the match that exceeds all others is the first one. -/
theorem InOrder.eq_of_exceeds (hordered : specs.InOrder args)
    (h : specs.matching args = p :: rest) (hc : c ∈ specs.matching args)
    (hexceeds : ∀ q ∈ specs.matching args, q ≠ c → c.Exceeds q) : p = c := by
  by_contra hne
  rw [← forall_not_exceeds_iff h] at hordered
  exact hordered c hc (hexceeds p (h ▸ .head _) hne)

end Specializations

namespace TemplateEntity
open Specializations

variable {t : TemplateEntity} {specs specs' : Specializations} {args : List TemplateArg}
  {p : PartialSpec} {rest : List PartialSpec}

/-- The entry for arguments that a partial specialisation serves. -/
theorem instantiate_of_matching (harity : args.length = t.params.length)
    (hfulls : ∀ f ∈ specs.fulls, TemplateArg.denoteSame f.args args = false)
    (h : specs.matching args = p :: rest) (name : String) (provenance : Provenance)
    (mark : ExportMark) : ∃ b, p.match? args = some b ∧
    t.instantiate specs args name provenance mark = .ok
      { exportName := name
        args
        bindings := TemplateParam.bind t.params args
        specificity := .partialMatch
        provenance
        mark := .inherit p.mark mark
        native := t.nativeName args
        entity := p.pattern.substitute b } := by
  obtain ⟨b, hb, hfound⟩ := findSome?_match h
  have hnone : (specs.fulls.find? fun f => TemplateArg.denoteSame f.args args) = none :=
    List.find?_eq_none.2 fun f hf => by simp [hfulls f hf]
  refine ⟨b, hb, ?_⟩
  rw [instantiate, if_neg (by simpa using harity)]
  simp only [hnone, hfound]

/-- **The partial specialisation that serves**: arguments that no full specialisation has and some
partial specialisation matches are served by one of the matches. No match is more specialised than
this one just if none is that is declared behind it. If one match exceeds all others, then all
orders of declaration in which the first match is exceeded by none yield the same. -/
theorem instantiate_matching (harity : args.length = t.params.length)
    (hfulls : ∀ f ∈ specs.fulls, TemplateArg.denoteSame f.args args = false)
    (hmatching : specs.matching args ≠ []) (name : String) (provenance : Provenance)
    (mark : ExportMark) :
    ∃ x, t.instantiate specs args name provenance mark = .ok x ∧ x.specificity = .partialMatch ∧
      (∃ p ∈ specs.matching args, ∃ b, p.match? args = some b ∧
        x.entity = p.pattern.substitute b ∧
        ((∀ q ∈ specs.matching args, ¬ q.Exceeds p) ↔ specs.InOrder args)) ∧
      ∀ specs' : Specializations, specs'.fulls = specs.fulls →
        specs'.partials.Perm specs.partials → specs.InOrder args → specs'.InOrder args →
        (∃ c ∈ specs.matching args, ∀ q ∈ specs.matching args, q ≠ c → c.Exceeds q) →
        t.instantiate specs' args name provenance mark = .ok x := by
  obtain ⟨p, rest, hp⟩ := List.exists_cons_of_ne_nil hmatching
  obtain ⟨b, hb, hentry⟩ := instantiate_of_matching harity hfulls hp name provenance mark
  refine ⟨_, hentry, rfl, ⟨p, hp ▸ .head _, b, hb, rfl, forall_not_exceeds_iff hp⟩, ?_⟩
  intro specs' hsame hperm hordered hordered' ⟨c, hc, hexceeds⟩
  have hmem : ∀ q, q ∈ specs'.matching args ↔ q ∈ specs.matching args :=
    fun q => (matching_perm hperm).mem_iff
  obtain rfl := hordered.eq_of_exceeds hp hc hexceeds
  obtain ⟨p', rest', hp'⟩ := List.exists_cons_of_ne_nil (List.ne_nil_of_mem ((hmem p).2 hc))
  obtain rfl := hordered'.eq_of_exceeds hp' ((hmem p).2 hc) fun q hq => hexceeds q ((hmem q).1 hq)
  obtain ⟨b', hb', hentry'⟩ :=
    instantiate_of_matching harity (hsame ▸ hfulls) hp' name provenance mark
  obtain rfl := Option.some.inj (hb.symm.trans hb')
  exact hentry'

/-- A template of one type parameter `T`. -/
def oneParameter : TemplateEntity :=
  ⟨⟨["Box"]⟩, [⟨"T", .type, none⟩], .ofClass default, [], default, none⟩

/-- The partial specialisation for `T` under some pointers, with a field of the type `T`. -/
def ofPointers (depth : ℕ) (field : String) : PartialSpec :=
  ⟨[⟨"T", .type, none⟩],
    [.type { TypeExpr.named "T" with declarators := List.replicate depth (.pointer false) }],
    .ofClass { (default : ClassEntity) with
      members := [.field ⟨field, .isPublic, .named "T", false, false, none, default, none⟩] },
    [], none⟩

/-- The type `int` under two pointers. -/
def twoPointers : List TemplateArg :=
  [.type { TypeExpr.fundamental "int" with
    declarators := [.pointer false, .pointer false] }]

/-- The partial specialisation for two pointers exceeds the one for one pointer, and is declared
first. -/
theorem instantiate_matching_pointers :
    let specs : Specializations := ⟨[(ofPointers 2 "y", none), (ofPointers 1 "x", none)], []⟩
    specs.matching twoPointers = [ofPointers 2 "y", ofPointers 1 "x"] ∧
    (ofPointers 2 "y").Exceeds (ofPointers 1 "x") ∧ specs.InOrder twoPointers ∧
    ∃ x, oneParameter.instantiate specs twoPointers "Box" .directive default = .ok x ∧
      x.specificity = .partialMatch ∧
      ∃ b, (ofPointers 2 "y").match? twoPointers = some b ∧
        x.entity = (ofPointers 2 "y").pattern.substitute b := by
  intro specs
  have hmatches : specs.matching twoPointers = [ofPointers 2 "y", ofPointers 1 "x"] := by
    decide +kernel
  have hexceeds : (ofPointers 2 "y").Exceeds (ofPointers 1 "x") := by decide +kernel
  have hordered : specs.InOrder twoPointers := by
    rw [Specializations.InOrder, hmatches]
    rintro p ⟨⟩ q hq
    obtain rfl := List.mem_singleton.1 hq
    exact fun h => h.2 hexceeds.1
  have hne : specs.matching twoPointers ≠ [] := by simp [hmatches]
  have hfulls : ∀ f ∈ specs.fulls, TemplateArg.denoteSame f.args twoPointers = false :=
    fun _ h => absurd h List.not_mem_nil
  obtain ⟨x, hx, hspecificity, ⟨p, hp, b, hb, hentity, hbest⟩, -⟩ :=
    instantiate_matching (t := oneParameter) rfl hfulls hne "Box" .directive default
  refine ⟨hmatches, hexceeds, hordered, x, hx, hspecificity, b, ?_⟩
  rw [hmatches] at hp hbest
  obtain rfl | rfl : p = ofPointers 2 "y" ∨ p = ofPointers 1 "x" := by simpa using hp
  · exact ⟨hb, hentity⟩
  · exact absurd hexceeds (hbest.2 hordered _ (.head _))

/-- The partial specialisation for one pointer is declared first and serves, although the one for
two pointers exceeds it. In the other order that one serves, which has another field. -/
theorem instantiate_first_declared :
    let specs : Specializations := ⟨[(ofPointers 1 "x", none), (ofPointers 2 "y", none)], []⟩
    let specs' : Specializations := ⟨[(ofPointers 2 "y", none), (ofPointers 1 "x", none)], []⟩
    specs'.partials.Perm specs.partials ∧
    specs.matching twoPointers = [ofPointers 1 "x", ofPointers 2 "y"] ∧
    (ofPointers 2 "y").Exceeds (ofPointers 1 "x") ∧
    ∃ x x' b b', oneParameter.instantiate specs twoPointers "Box" .directive default = .ok x ∧
      oneParameter.instantiate specs' twoPointers "Box" .directive default = .ok x' ∧
      x.entity = (ofPointers 1 "x").pattern.substitute b ∧
      x'.entity = (ofPointers 2 "y").pattern.substitute b' ∧ x.entity ≠ x'.entity := by
  intro specs specs'
  have hmatches : specs.matching twoPointers = [ofPointers 1 "x", ofPointers 2 "y"] := by
    decide +kernel
  have hmatches' : specs'.matching twoPointers = [ofPointers 2 "y", ofPointers 1 "x"] := by
    decide +kernel
  obtain ⟨b, hb, hx⟩ := instantiate_of_matching (t := oneParameter) rfl
    (fun _ h => absurd h List.not_mem_nil) hmatches "Box" .directive default
  obtain ⟨b', hb', hx'⟩ := instantiate_of_matching (t := oneParameter) rfl
    (fun _ h => absurd h List.not_mem_nil) hmatches' "Box" .directive default
  refine ⟨.swap _ _ _, hmatches, by decide +kernel, _, _, b, b', hx, hx', rfl, rfl, ?_⟩
  -- The fields keep their names.
  simp [Concrete.substitute, ClassEntity.substitute, Member.substitute, ofPointers]

end TemplateEntity
end Bindery
