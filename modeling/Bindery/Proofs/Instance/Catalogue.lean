import Bindery.Instance.Resolve
import Bindery.Proofs.OrderedMap
import Bindery.Proofs.Ranking
import Bindery.Proofs.TypeExpr.Sameness
import Mathlib.Data.List.Basic

/-!
# Entries of a catalogue

What a single instantiation looks like and how a list of them grows. Completed arguments are as
many as there are parameters; binding them yields an entry that is served by the most specific
declaration that applies; and an entry is listed unless one with the same name and arguments is.

## Main definitions

* `PartialSpec.Serves`: a partial specialisation matches arguments.
* `Served`: which sort of declaration serves arguments.
* `TemplateEntity.Fits`: an entry has the shape that its template prescribes.
-/
namespace Bindery

/-! ## Completed arguments -/

namespace TemplateParam

theorem length_fillDefaults {params left : List TemplateParam} {args done : List TemplateArg}
    (h : fillDefaults params left args = .ok done) : done.length = args.length + left.length := by
  induction left generalizing args with
  | nil => cases h; rfl
  | cons p left ih =>
      rw [fillDefaults] at h
      split at h
      · cases h
      · have hlen := ih h
        simp only [List.length_append, List.length_cons, List.length_nil] at hlen ⊢
        omega

/-- Completed arguments are as many as there are parameters. -/
theorem length_complete {params : List TemplateParam} {args done : List TemplateArg}
    (h : complete params args = .ok done) : done.length = params.length := by
  rw [complete] at h
  split at h
  · cases h
  · have hlen := length_fillDefaults h
    rw [List.length_drop] at hlen
    omega

theorem length_of_complete_toOption {params : List TemplateParam} {args done : List TemplateArg}
    (h : (complete params args).toOption = some done) : done.length = params.length := by
  cases hcomplete : complete params args with
  | error fault => rw [hcomplete] at h; cases h
  | ok out =>
      rw [hcomplete] at h
      cases h
      exact length_complete hcomplete

/-- Every name is bound once, where it is first met. -/
theorem keys_bind {params : List TemplateParam} {args : List TemplateArg}
    (hlen : args.length = params.length) :
    (bind params args).keys = (params.map name).eraseDups := by
  rw [bind, OrderedMap.keys_ofList, List.map_fst_zip (by simp [hlen])]

/-- A name is bound to the argument of the last parameter that has it. -/
theorem find?_bind (params : List TemplateParam) (args : List TemplateArg) (name : String) :
    (bind params args).find? name =
      (((params.map TemplateParam.name).zip args).reverse.find? (·.1 = name)).map Prod.snd :=
  OrderedMap.find?_ofList _ _

/-- Parameters with different names are bound to the arguments in order. -/
theorem entries_bind {params : List TemplateParam} (h : (params.map name).Nodup)
    {args : List TemplateArg} (hlen : args.length = params.length) :
    (bind params args).entries = (params.map name).zip args := by
  refine OrderedMap.entries_ofList ?_
  rwa [List.map_fst_zip (by simp [hlen])]

end TemplateParam

namespace TemplateEntity

theorem length_deduce? {t : TemplateEntity} {given : Option (List TemplateArg)} {s : Signature}
    {args : List TemplateArg} (h : t.deduce? given s = some args) :
    args.length = t.params.length := by
  rw [deduce?] at h
  split at h
  · cases h
  · simp only at h
    split at h
    · cases h
    · simp only [Option.bind_eq_bind, Option.bind_eq_some_iff] at h
      obtain ⟨b, -, c, -, hcomplete⟩ := h
      exact TemplateParam.length_of_complete_toOption hcomplete

theorem length_explicitArgs? {t : TemplateEntity} {given : Option (List TemplateArg)}
    {signature : Option Signature} {args : List TemplateArg}
    (h : t.explicitArgs? given signature = some args) : args.length = t.params.length := by
  cases signature with
  | none =>
      obtain ⟨as, -, hcomplete⟩ := Option.bind_eq_some_iff.mp h
      exact TemplateParam.length_of_complete_toOption hcomplete
  | some s => exact length_deduce? h

end TemplateEntity

theorem Evidence.length_fullArgs? {t : TemplateEntity} {given : Option (List TemplateArg)}
    {entity : Concrete} {args : List TemplateArg} (h : fullArgs? t given entity = some args) :
    args.length = t.params.length := by
  cases given with
  | some as => exact TemplateParam.length_of_complete_toOption h
  | none =>
      cases entity with
      | ofFunction f => exact TemplateEntity.length_deduce? h
      | ofClass c => cases h

/-! ## The declaration that serves arguments -/

/-- A partial specialisation takes as many arguments, its own arguments match them, and the
match binds all its parameters. -/
def PartialSpec.Serves (p : PartialSpec) (args : List TemplateArg) : Prop :=
  p.args.length = args.length ∧
    ∃ b, TemplateArg.unifyAll (p.params.map TemplateParam.name) p.args args {} = (true, b) ∧
      ∀ name ∈ p.params.map TemplateParam.name, b.contains name = true

theorem PartialSpec.isSome_match?_iff {p : PartialSpec} {args : List TemplateArg} :
    (p.match? args).isSome = true ↔ p.Serves args := by
  rw [PartialSpec.match?, PartialSpec.Serves]
  by_cases hlen : p.args.length = args.length
  · cases hmatch : TemplateArg.unifyAll (p.params.map TemplateParam.name) p.args args {} with
    | mk r b =>
        cases r with
        | false => simp [hlen]
        | true => simp [hlen]
  · simp [hlen]

/-- Which sort of declaration serves arguments, given the specialisations that there are. -/
inductive Served (fulls : FullSpec → Prop) (partials : PartialSpec → Prop)
    (args : List TemplateArg) : Specificity → Prop where
  | full {f : FullSpec} (hf : fulls f) (hsame : TemplateArg.denoteSame f.args args = true) :
      Served fulls partials args .full
  | partialMatch {p : PartialSpec}
      (hfulls : ∀ f, fulls f → TemplateArg.denoteSame f.args args = false) (hp : partials p)
      (hserves : p.Serves args) : Served fulls partials args .partialMatch
  | primary (hfulls : ∀ f, fulls f → TemplateArg.denoteSame f.args args = false)
      (hpartials : ∀ p, partials p → ¬ p.Serves args) : Served fulls partials args .primary

/-- The specialisations matter only by which of them there are. -/
theorem Served.congr {fulls fulls' : FullSpec → Prop} {partials partials' : PartialSpec → Prop}
    {args : List TemplateArg} {specificity : Specificity}
    (h : Served fulls partials args specificity) (hfulls : ∀ f, fulls f ↔ fulls' f)
    (hpartials : ∀ p, partials p ↔ partials' p) : Served fulls' partials' args specificity := by
  obtain rfl : fulls = fulls' := funext fun f => propext (hfulls f)
  obtain rfl : partials = partials' := funext fun p => propext (hpartials p)
  exact h

namespace TemplateEntity

/-- An entry has as many arguments as the template has parameters, binds them in order, and is
spelled by the name of the template and its arguments. -/
structure Fits (t : TemplateEntity) (x : Instantiation) : Prop where
  arity : x.args.length = t.params.length
  bindings : x.bindings = TemplateParam.bind t.params x.args
  native : x.native = t.name.text ++ "<" ++ TemplateArg.textAll x.args ++ ">"

theorem exists_instantiate {t : TemplateEntity} {args : List TemplateArg}
    (h : args.length = t.params.length) (specs : Specializations) (name : String)
    (provenance : Provenance) (mark : ExportMark) :
    ∃ x, t.instantiate specs args name provenance mark = .ok x := by
  rw [instantiate, if_neg (by simpa using h)]
  dsimp only
  split
  · exact ⟨_, rfl⟩
  · split
    · exact ⟨_, rfl⟩
    · exact ⟨_, rfl⟩

/-- What binding arguments yields. -/
theorem instantiate_eq_ok {t : TemplateEntity} {specs : Specializations}
    {args : List TemplateArg} {name : String} {provenance : Provenance} {mark : ExportMark}
    {x : Instantiation} (h : t.instantiate specs args name provenance mark = .ok x) :
    x.exportName = name ∧ x.args = args ∧ t.Fits x ∧
      Served (· ∈ specs.fulls) (fun p => ∃ place, (p, place) ∈ specs.partials) x.args
        x.specificity := by
  rw [instantiate] at h
  split at h
  · cases h
  · next harity =>
      have hlen : args.length = t.params.length := by simpa using harity
      dsimp only at h
      split at h
      · next full hfull =>
          have hsame := List.find?_some hfull
          cases h
          exact ⟨rfl, rfl, ⟨hlen, rfl, rfl⟩, .full (List.mem_of_find?_eq_some hfull) hsame⟩
      · next hnone =>
          have hfulls : ∀ f ∈ specs.fulls, TemplateArg.denoteSame f.args args = false := by
            intro f hf
            simpa using List.find?_eq_none.mp hnone f hf
          split at h
          · next p b hfound =>
              cases h
              obtain ⟨⟨q, place⟩, hq, hmatch⟩ := List.exists_of_findSome?_eq_some hfound
              obtain ⟨c, hc, heq⟩ := Option.map_eq_some_iff.mp hmatch
              cases heq
              refine ⟨rfl, rfl, ⟨hlen, rfl, rfl⟩, .partialMatch hfulls ⟨place, hq⟩ ?_⟩
              exact PartialSpec.isSome_match?_iff.mp (by rw [hc]; rfl)
          · next hnone =>
              cases h
              refine ⟨rfl, rfl, ⟨hlen, rfl, rfl⟩, .primary hfulls ?_⟩
              rintro p ⟨place, hp⟩ hserves
              have hfail := List.findSome?_eq_none_iff.mp hnone (p, place) hp
              rw [Option.map_eq_none_iff] at hfail
              have hsome := PartialSpec.isSome_match?_iff.mpr hserves
              rw [hfail] at hsome
              cases hsome

/-! ## Lists without repeats -/

theorem isRepeat_self (x : Instantiation) : isRepeat x x = true := by
  simp [isRepeat, TemplateArg.denoteSame_self]

theorem isRepeat_comm (x y : Instantiation) : isRepeat x y = isRepeat y x := by
  rw [isRepeat, isRepeat, TemplateArg.denoteSame_comm x.args y.args]
  simp [eq_comm]

theorem mem_listNew {listed : List Instantiation} {x y : Instantiation}
    (h : y ∈ listNew listed x) : y ∈ listed ∨ y = x := by
  rw [listNew] at h
  split at h
  · exact .inl h
  · simpa using h

theorem mem_listNew_of_mem {listed : List Instantiation} {x y : Instantiation}
    (h : y ∈ listed) : y ∈ listNew listed x := by
  rw [listNew]
  split
  · exact h
  · exact List.mem_append_left _ h

/-- What is to be listed is listed, or an entry that it repeats is. -/
theorem exists_mem_listNew (listed : List Instantiation) (x : Instantiation) :
    ∃ y ∈ listNew listed x, isRepeat y x = true := by
  rw [listNew]
  split
  · next h => exact List.any_eq_true.mp h
  · exact ⟨x, List.mem_append_right _ List.mem_cons_self, isRepeat_self x⟩

theorem pairwise_listNew {listed : List Instantiation}
    (h : listed.Pairwise fun a b => isRepeat a b = false) (x : Instantiation) :
    (listNew listed x).Pairwise fun a b => isRepeat a b = false := by
  rw [listNew]
  split
  · exact h
  · next hnew =>
      rw [List.pairwise_append]
      refine ⟨h, List.pairwise_singleton _ _, ?_⟩
      intro a ha b hb
      rw [List.mem_singleton.mp hb]
      have hnone : ¬ ∃ y ∈ listed, isRepeat y x = true := by simpa using hnew
      exact Bool.eq_false_iff.mpr fun hrepeat => hnone ⟨a, ha, hrepeat⟩

theorem mem_foldl_listNew {found listed : List Instantiation} {y : Instantiation}
    (h : y ∈ found.foldl listNew listed) : y ∈ listed ∨ y ∈ found := by
  induction found generalizing listed with
  | nil => exact .inl h
  | cons x found ih =>
      rcases ih h with h | h
      · rcases mem_listNew h with h | rfl
        · exact .inl h
        · exact .inr List.mem_cons_self
      · exact .inr (List.mem_cons_of_mem x h)

theorem mem_foldl_listNew_of_mem {listed : List Instantiation} {y : Instantiation}
    (h : y ∈ listed) (found : List Instantiation) : y ∈ found.foldl listNew listed := by
  induction found generalizing listed with
  | nil => exact h
  | cons x found ih => exact ih (mem_listNew_of_mem h)

/-- Nothing that is found is lost. -/
theorem exists_mem_foldl_listNew {found : List Instantiation} {x : Instantiation}
    (h : x ∈ found) (listed : List Instantiation) :
    ∃ y ∈ found.foldl listNew listed, isRepeat y x = true := by
  induction found generalizing listed with
  | nil => exact absurd h List.not_mem_nil
  | cons z found ih =>
      rcases List.mem_cons.mp h with rfl | h
      · obtain ⟨y, hy, hrepeat⟩ := exists_mem_listNew listed x
        exact ⟨y, mem_foldl_listNew_of_mem hy found, hrepeat⟩
      · exact ih h (listNew listed z)

/-- Nothing is listed twice. -/
theorem pairwise_foldl_listNew (found : List Instantiation) {listed : List Instantiation}
    (h : listed.Pairwise fun a b => isRepeat a b = false) :
    (found.foldl listNew listed).Pairwise fun a b => isRepeat a b = false := by
  induction found generalizing listed with
  | nil => exact h
  | cons x found ih => exact ih (pairwise_listNew h x)

theorem extend_extend (t : TemplateEntity) (found more : List Instantiation) :
    (t.extend found).extend more = t.extend (found ++ more) := by
  simp [extend, List.foldl_append]

end TemplateEntity
end Bindery
