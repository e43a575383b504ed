import Bindery.Preprocess.MacroTable
import Bindery.Proofs.OrderedMap

/-!
# Expansions

A use of a macro is replaced by the tokens of the macro, and in them every name of a macro is
replaced in turn, unless it is the name of a macro that is being replaced already. The names that
are being replaced form a stack. Replacing tokens always comes to an end, also where macros stand
for each other in a circle, and what comes out of the tokens of a macro is its expansion.

## Main definitions

* `MacroTable.Replaces`: how tokens are replaced while the names of a stack are.

## Main statements

* `MacroTable.replaces_iff`: replacing the tokens of a macro comes to an end with its expansion.
* `MacroTable.exists_of_mem_expand`: every token of an expansion was written in the table.
-/
namespace Bindery.MacroTable

/-- How tokens are replaced in order while the names of the stack are being replaced. -/
inductive Replaces (table : MacroTable) : List String → List Piece → List Piece → Prop where
  | nil (stack : List String) : Replaces table stack [] []
  /-- The name of a macro that is not being replaced already. -/
  | use {stack : List String} {p : Piece} {ps body front rest : List Piece}
      (hkind : p.kind = .ident) (hnew : p.text ∉ stack) (hbody : table.find? p.text = some body)
      (hfront : Replaces table (p.text :: stack) body front)
      (hrest : Replaces table stack ps rest) : Replaces table stack (p :: ps) (front ++ rest)
  /-- Any other token is kept. -/
  | keep {stack : List String} {p : Piece} {ps rest : List Piece}
      (hplain : p.kind = .ident → p.text ∉ stack → table.find? p.text = none)
      (hrest : Replaces table stack ps rest) : Replaces table stack (p :: ps) (p :: rest)

variable {table left : MacroTable} {stack : List String} {name : String} {body pieces : List Piece}

theorem expand_of_none (h : table.find? name = none) : expand table name = [] := by
  rw [expand]
  split
  · rfl
  · rename_i body hbody
    rw [h] at hbody
    cases hbody

/-- The names in the tokens of a macro are expanded by the rest of the table. -/
theorem expand_of_some (h : table.find? name = some body) :
    expand table name = body.flatMap fun p =>
      if p.kind = .ident && OrderedMap.contains (OrderedMap.erase table name) p.text then
        expand (OrderedMap.erase table name) p.text
      else [p] := by
  rw [expand]
  split
  · rename_i hnone
    rw [h] at hnone
    cases hnone
  · rename_i body' hbody
    rw [h] at hbody
    rw [Option.some.inj hbody]

/-! ## The rest of a table -/

/-- What is left of a table are the macros whose names are not on the stack. -/
def Leaves (table left : MacroTable) (stack : List String) : Prop :=
  ∀ name, left.find? name = if name ∈ stack then none else table.find? name

theorem Leaves.erase (h : Leaves table left stack) (name : String) :
    Leaves table (OrderedMap.erase left name) (name :: stack) := by
  intro k
  rw [OrderedMap.find?_erase, h k]
  by_cases hk : k = name <;> simp [hk]

theorem Leaves.of_find? (h : Leaves table left stack) (hbody : left.find? name = some body) :
    name ∉ stack ∧ table.find? name = some body := by
  rw [h name] at hbody
  split at hbody
  · cases hbody
  · exact ⟨by assumption, hbody⟩

theorem replaces_of_leaves (h : Leaves table left stack) (hbody : left.find? name = some body) :
    Replaces table (name :: stack) body (expand left name) := by
  induction hsize : left.size using Nat.strongRecOn generalizing left stack name body with
  | ind size ih =>
    rw [expand_of_some hbody]
    have hleaves := h.erase name
    -- The names in the list are expanded by the table without `name`, which is smaller.
    have hlt : (OrderedMap.erase left name).size < size := hsize ▸ OrderedMap.size_erase_lt hbody
    clear hbody
    induction body with
    | nil => exact .nil _
    | cons p ps ihps =>
      rw [List.flatMap_cons, OrderedMap.contains_eq_isSome]
      cases hfind : (OrderedMap.erase left name).find? p.text with
      | none =>
        rw [Option.isSome_none, Bool.and_false, if_neg Bool.false_ne_true]
        refine .keep (fun _ hnew => ?_) ihps
        rwa [hleaves p.text, if_neg hnew] at hfind
      | some front =>
        by_cases hkind : p.kind = .ident
        · rw [if_pos (by simp [hkind])]
          obtain ⟨hnew, hfront⟩ := hleaves.of_find? hfind
          exact .use hkind hnew hfront (ih _ hlt hleaves hfind rfl) ihps
        · rw [if_neg (by simp [hkind])]
          exact .keep (fun hident => absurd hident hkind) ihps

/-- Tokens are replaced in one way. -/
theorem Replaces.unique {ps pieces' : List Piece} (h : Replaces table stack ps pieces)
    (h' : Replaces table stack ps pieces') : pieces = pieces' := by
  induction h generalizing pieces' with
  | nil =>
    cases h'
    rfl
  | use hkind hnew hbody _ _ ihfront ihrest =>
    cases h' with
    | use _ _ hbody' hfront hrest =>
      rw [hbody] at hbody'
      cases hbody'
      rw [ihfront hfront, ihrest hrest]
    | keep hplain _ => cases hbody.symm.trans (hplain hkind hnew)
  | keep hplain _ ih =>
    cases h' with
    | use hkind hnew hbody _ _ => cases hbody.symm.trans (hplain hkind hnew)
    | keep _ hrest => rw [ih hrest]

/-- **Replacing the tokens of a macro comes to an end**, and what comes out is its expansion. -/
theorem replaces_iff (h : table.find? name = some body) :
    Replaces table [name] body pieces ↔ pieces = expand table name := by
  have hexpand : Replaces table [name] body (expand table name) :=
    replaces_of_leaves (fun k => by simp) h
  constructor
  · intro hpieces
    exact hpieces.unique hexpand
  · rintro rfl
    exact hexpand

/-- Every token of an expansion was written in the table. -/
theorem exists_of_mem_expand {p : Piece} (h : p ∈ expand table name) :
    ∃ entry ∈ table.entries, p ∈ entry.2 := by
  induction hsize : table.size using Nat.strongRecOn generalizing table name with
  | ind size ih =>
    cases hbody : table.find? name with
    | none =>
      rw [expand_of_none hbody] at h
      cases h
    | some body =>
      rw [expand_of_some hbody, List.mem_flatMap] at h
      obtain ⟨q, hq, hp⟩ := h
      split at hp
      · obtain ⟨entry, hentry, hp⟩ := ih _ (hsize ▸ OrderedMap.size_erase_lt hbody) hp rfl
        exact ⟨entry, (List.mem_filter.1 hentry).1, hp⟩
      · obtain rfl := List.mem_singleton.1 hp
        exact ⟨_, OrderedMap.mem_entries_of_find? hbody, hq⟩

end Bindery.MacroTable
