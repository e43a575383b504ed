import Bindery.Preprocess.Run
import Bindery.Proofs.Preprocess.Expansion
import Mathlib.Data.List.Perm.Subperm
import Mathlib.Logic.Relation

/-!
# How expansions nest

The names that are being expanded are different macros of the table, so an expansion nests no
deeper than the table is large, in whatever way the macros stand for each other. The name of a macro
comes out of an expansion only where this macro is being expanded. Hence, if no macro leads back to
itself, no name of a macro is left, and the expansion is what one gets by replacing names for as
long as there are any.

## Main definitions

* `MacroTable.Emission`: a token that comes out of an expansion, and the macros it comes out of.
* `MacroTable.Unfolds`: how tokens are expanded, how deep this nests, and what comes out.
* `MacroTable.Resolves`: tokens with all names of macros replaced, without an exception.
* `MacroTable.Acyclic`: no macro leads back to itself.

## Main statements

* `Preprocessor.token_macro`: what a use of a macro leaves in the stream.
-/
namespace Bindery
namespace MacroTable

/-- A token that comes out of an expansion, and the macros that are being expanded there, the
innermost first. -/
structure Emission where
  piece : Piece
  within : List String

/-- The token in the stream, which has the place where the outermost macro is used. -/
def Emission.placed (origin : Origin) (e : Emission) : SourceToken :=
  ⟨e.piece.kind, e.piece.text, origin⟩

theorem Emission.map_placed (origin : Origin) (out : List Emission) :
    out.map (Emission.placed origin) =
      (out.map Emission.piece).map fun p => ⟨p.kind, p.text, origin⟩ := by
  rw [List.map_map]
  rfl

/-- How tokens are expanded in order while the names of the stack are: the depth to which macros
nest in it, and what comes out. -/
inductive Unfolds (table : MacroTable) :
    List String → List Piece → ℕ → List Emission → Prop where
  | nil (stack : List String) : Unfolds table stack [] 0 []
  /-- The name of a macro that is not being expanded already. -/
  | use {stack : List String} {p : Piece} {ps body : List Piece} {depth depth' : ℕ}
      {front rest : List Emission} (hkind : p.kind = .ident) (hnew : p.text ∉ stack)
      (hbody : table.find? p.text = some body)
      (hfront : Unfolds table (p.text :: stack) body depth front)
      (hrest : Unfolds table stack ps depth' rest) :
      Unfolds table stack (p :: ps) (max (depth + 1) depth') (front ++ rest)
  /-- Any other token is kept. -/
  | keep {stack : List String} {p : Piece} {ps : List Piece} {depth : ℕ} {rest : List Emission}
      (hplain : p.kind = .ident → p.text ∉ stack → table.find? p.text = none)
      (hrest : Unfolds table stack ps depth rest) :
      Unfolds table stack (p :: ps) depth (⟨p, stack⟩ :: rest)

variable {table : MacroTable} {stack : List String} {name : String} {ps pieces : List Piece}
  {depth : ℕ} {out : List Emission}

/-! ## Expansions come to an end -/

theorem Unfolds.replaces (h : Unfolds table stack ps depth out) :
    Replaces table stack ps (out.map Emission.piece) := by
  induction h with
  | nil stack => exact .nil stack
  | use hkind hnew hbody _ _ ihfront ihrest =>
    rw [List.map_append]
    exact .use hkind hnew hbody ihfront ihrest
  | keep hplain _ ih => exact .keep hplain ih

theorem Replaces.exists_unfolds (h : Replaces table stack ps pieces) :
    ∃ depth out, Unfolds table stack ps depth out := by
  induction h with
  | nil stack => exact ⟨0, [], .nil stack⟩
  | use hkind hnew hbody _ _ ihfront ihrest =>
    obtain ⟨depth, front, hfront⟩ := ihfront
    obtain ⟨depth', rest, hrest⟩ := ihrest
    exact ⟨_, _, .use hkind hnew hbody hfront hrest⟩
  | keep hplain _ ih =>
    obtain ⟨depth, rest, hrest⟩ := ih
    exact ⟨_, _, .keep hplain hrest⟩

/-- Tokens are expanded in one way. -/
theorem Unfolds.unique {depth' : ℕ} {out' : List Emission} (h : Unfolds table stack ps depth out)
    (h' : Unfolds table stack ps depth' out') : depth = depth' ∧ out = out' := by
  induction h generalizing depth' out' with
  | nil =>
    cases h'
    exact ⟨rfl, rfl⟩
  | use hkind hnew hbody _ _ ihfront ihrest =>
    cases h' with
    | use _ _ hbody' hfront hrest =>
      obtain rfl := Option.some.inj (hbody.symm.trans hbody')
      obtain ⟨rfl, rfl⟩ := ihfront hfront
      obtain ⟨rfl, rfl⟩ := ihrest hrest
      exact ⟨rfl, rfl⟩
    | keep hplain _ => cases hbody.symm.trans (hplain hkind hnew)
  | keep hplain _ ih =>
    cases h' with
    | use hkind hnew hbody _ _ => cases hbody.symm.trans (hplain hkind hnew)
    | keep _ hrest =>
      obtain ⟨rfl, rfl⟩ := ih hrest
      exact ⟨rfl, rfl⟩

/-- The use of a macro is expanded, and its expansion comes out. -/
theorem exists_unfolds_use (h : table.contains name = true) :
    ∃ depth out, Unfolds table [] [⟨.ident, name⟩] depth out ∧
      out.map Emission.piece = table.expand name := by
  rw [OrderedMap.contains_eq_isSome, Option.isSome_iff_exists] at h
  obtain ⟨body, hbody⟩ := h
  have hreplaces : Replaces table [] [⟨.ident, name⟩] (table.expand name ++ []) :=
    .use rfl List.not_mem_nil hbody ((replaces_iff hbody).2 rfl) (.nil [])
  obtain ⟨depth, out, hout⟩ := hreplaces.exists_unfolds
  refine ⟨depth, out, hout, ?_⟩
  rw [hout.replaces.unique hreplaces, List.append_nil]

/-! ## Depth -/

/-- Different names of macros are no more than there are macros. -/
theorem length_le_size (hnodup : stack.Nodup) (hkeys : ∀ name ∈ stack, name ∈ table.keys) :
    stack.length ≤ table.size := by
  have hle := (List.subperm_of_subset hnodup hkeys).length_le
  rwa [OrderedMap.keys, List.length_map] at hle

/-- The names that are being expanded, and those still to come on top of them, are different names
of macros. -/
theorem Unfolds.depth_le (h : Unfolds table stack ps depth out) (hnodup : stack.Nodup)
    (hkeys : ∀ name ∈ stack, name ∈ table.keys) : stack.length + depth ≤ table.size := by
  induction h with
  | nil => exact length_le_size hnodup hkeys
  | @use stack p _ _ depth depth' _ _ _ hnew hbody _ _ ihfront ihrest =>
    have hdefined : ∀ name ∈ p.text :: stack, name ∈ table.keys :=
      List.forall_mem_cons.2 ⟨OrderedMap.mem_keys_iff.2 ⟨_, hbody⟩, hkeys⟩
    have hfront := ihfront (List.nodup_cons.2 ⟨hnew, hnodup⟩) hdefined
    have hrest := ihrest hnodup hkeys
    rw [List.length_cons] at hfront
    omega
  | keep _ _ ih => exact ih hnodup hkeys

/-! ## What comes out -/

/-- The name of a macro comes out only where this macro is being expanded. -/
theorem Unfolds.mem_within (h : Unfolds table stack ps depth out) :
    ∀ e ∈ out, e.piece.kind = .ident → table.contains e.piece.text = true →
      e.piece.text ∈ e.within := by
  induction h with
  | nil => simp
  | use _ _ _ _ _ ihfront ihrest => exact List.forall_mem_append.2 ⟨ihfront, ihrest⟩
  | keep hplain _ ih =>
    refine List.forall_mem_cons.2 ⟨fun hkind hdefined => ?_, ih⟩
    by_contra hnew
    rw [OrderedMap.contains_eq_isSome, hplain hkind hnew] at hdefined
    cases hdefined

/-! ## Macros that do not lead back to themselves -/

/-- Tokens with every name of a macro replaced by what the tokens of the macro become in turn. -/
inductive Resolves (table : MacroTable) : List Piece → List Piece → Prop where
  | nil : Resolves table [] []
  | use {p : Piece} {ps body front rest : List Piece} (hkind : p.kind = .ident)
      (hbody : table.find? p.text = some body) (hfront : Resolves table body front)
      (hrest : Resolves table ps rest) : Resolves table (p :: ps) (front ++ rest)
  | keep {p : Piece} {ps rest : List Piece} (hplain : p.kind = .ident → table.find? p.text = none)
      (hrest : Resolves table ps rest) : Resolves table (p :: ps) (p :: rest)

theorem Resolves.unique {pieces' : List Piece} (h : Resolves table ps pieces)
    (h' : Resolves table ps pieces') : pieces = pieces' := by
  induction h generalizing pieces' with
  | nil =>
    cases h'
    rfl
  | use hkind hbody _ _ ihfront ihrest =>
    cases h' with
    | use _ hbody' hfront hrest =>
      obtain rfl := Option.some.inj (hbody.symm.trans hbody')
      rw [ihfront hfront, ihrest hrest]
    | keep hplain _ => cases hbody.symm.trans (hplain hkind)
  | keep hplain _ ih =>
    cases h' with
    | use hkind hbody _ _ => cases hbody.symm.trans (hplain hkind)
    | keep _ hrest => rw [ih hrest]

/-- No name of a macro is left. -/
theorem Resolves.contains_eq_false (h : Resolves table ps pieces) :
    ∀ p ∈ pieces, p.kind = .ident → table.contains p.text = false := by
  induction h with
  | nil => simp
  | use _ _ _ _ ihfront ihrest => exact List.forall_mem_append.2 ⟨ihfront, ihrest⟩
  | keep hplain _ ih =>
    refine List.forall_mem_cons.2 ⟨fun hkind => ?_, ih⟩
    rw [OrderedMap.contains_eq_isSome, hplain hkind, Option.isSome_none]

/-- The name of the second macro is among the tokens of the first one. -/
def Mentions (table : MacroTable) (name other : String) : Prop :=
  table.contains other = true ∧ ∃ body, table.find? name = some body ∧ ⟨.ident, other⟩ ∈ body

/-- No macro leads back to itself. -/
def Acyclic (table : MacroTable) : Prop :=
  ∀ name, ¬ Relation.TransGen (Mentions table) name name

/-- Macros whose names are ranked, so that each stands for macros of lower rank only. -/
theorem acyclic_of_rank (rank : String → ℕ)
    (h : ∀ entry ∈ table.entries, ∀ p ∈ entry.2, p.kind = .ident → table.contains p.text = true →
      rank p.text < rank entry.1) : table.Acyclic := by
  have hlt : ∀ {name other : String}, Relation.TransGen (Mentions table) name other →
      rank other < rank name := by
    intro name other hleads
    induction hleads with
    | single hstep =>
      obtain ⟨hother, body, hbody, hmem⟩ := hstep
      exact h _ (OrderedMap.mem_entries_of_find? hbody) _ hmem rfl hother
    | tail _ hstep ih =>
      obtain ⟨hother, body, hbody, hmem⟩ := hstep
      have hless := h _ (OrderedMap.mem_entries_of_find? hbody) _ hmem rfl hother
      exact Nat.lt_trans hless ih
  exact fun name hcycle => Nat.lt_irrefl _ (hlt hcycle)

/-- Where no macro leads back to itself, no name is left because of the names being expanded. -/
theorem Unfolds.resolves (h : Unfolds table stack ps depth out) (hacyclic : table.Acyclic)
    (hleads : ∀ name ∈ stack, ∀ p ∈ ps, p.kind = .ident → table.contains p.text = true →
      Relation.TransGen (Mentions table) name p.text) :
    Resolves table ps (out.map Emission.piece) := by
  induction h with
  | nil => exact .nil
  | @use stack p ps body _ _ _ _ hkind hnew hbody _ _ ihfront ihrest =>
    have hdefined : table.contains p.text = true := by
      rw [OrderedMap.contains_eq_isSome, hbody, Option.isSome_some]
    have hstep : ∀ q ∈ body, q.kind = .ident → table.contains q.text = true →
        Mentions table p.text q.text := by
      rintro ⟨_, text⟩ hq rfl hother
      exact ⟨hother, body, hbody, hq⟩
    rw [List.map_append]
    refine .use hkind hbody (ihfront (List.forall_mem_cons.2 ⟨?_, ?_⟩)) (ihrest ?_)
    · exact fun q hq hident hother => .single (hstep q hq hident hother)
    · intro name hname q hq hident hother
      exact (hleads name hname p (.head _) hkind hdefined).tail (hstep q hq hident hother)
    · exact fun name hname q hq => hleads name hname q (.tail _ hq)
  | @keep stack p _ _ _ hplain _ ih =>
    refine .keep (fun hkind => ?_) (ih fun name hname q hq => hleads name hname q (.tail _ hq))
    -- A macro that is being expanded would lead back to itself.
    by_contra hdefined
    have hcontains : table.contains p.text = true := by
      rwa [OrderedMap.contains_eq_isSome, Option.isSome_iff_ne_none]
    by_cases hnew : p.text ∈ stack
    · exact hacyclic p.text (hleads p.text hnew p (.head _) hkind hcontains)
    · exact hdefined (hplain hkind hnew)

end MacroTable

open MacroTable in
/-- **The use of a macro**: it is expanded in one way, which nests no deeper than there are macros.
What comes out is appended to the stream with the place of the use, and the name of a macro is in it
only where this macro was being expanded. If no macro leads back to itself, no name of a macro is
left, and the expansion is the full textual replacement. -/
theorem Preprocessor.token_macro (sources : Sources) (includeDirs : List String) (splice : Splice)
    (path : Path) (file : ℕ) {t : Token} {s : Preprocessor} (hactive : s.isActive = true)
    (hkind : t.kind = .ident) (hdefined : s.macros.contains t.text = true) :
    ∃ depth out, Unfolds s.macros [] [⟨.ident, t.text⟩] depth out ∧
      (∀ depth' out', Unfolds s.macros [] [⟨.ident, t.text⟩] depth' out' →
        depth' = depth ∧ out' = out) ∧
      depth ≤ s.macros.size ∧
      token sources includeDirs splice path file t s = .ok { s with
        tokens := s.tokens ++ (out.map (Emission.placed ⟨file, t.offset⟩)).toArray } ∧
      (∀ e ∈ out, e.piece.kind = .ident → s.macros.contains e.piece.text = true →
        e.piece.text ∈ e.within) ∧
      (s.macros.Acyclic →
        (∀ e ∈ out, e.piece.kind = .ident → s.macros.contains e.piece.text = false) ∧
        ∀ pieces, Resolves s.macros [⟨.ident, t.text⟩] pieces ↔
          pieces = out.map Emission.piece) := by
  obtain ⟨depth, out, hout, hpieces⟩ := exists_unfolds_use hdefined
  refine ⟨depth, out, hout, fun _ _ hout' => hout'.unique hout, ?_, ?_, hout.mem_within, ?_⟩
  · simpa using hout.depth_le List.nodup_nil (by simp)
  · rw [Emission.map_placed, hpieces]
    simp [token, emit, hkind, hactive, hdefined]
  · intro hacyclic
    have hresolves := hout.resolves hacyclic (by simp)
    refine ⟨fun e he => ?_, fun pieces => ⟨fun h => h.unique hresolves, ?_⟩⟩
    · exact hresolves.contains_eq_false e.piece (List.mem_map_of_mem he)
    · rintro rfl
      exact hresolves

open MacroTable in
/-- A macro that stands for another one and for a third one, which stands for that other one. -/
theorem Preprocessor.token_macro_nested :
    let s : Preprocessor := { macros := ⟨[("A", [⟨.ident, "B"⟩, ⟨.plus, "+"⟩, ⟨.ident, "C"⟩]),
      ("B", [⟨.intNumber, "1"⟩]), ("C", [⟨.ident, "B"⟩])]⟩ }
    s.isActive = true ∧ s.macros.Acyclic ∧
    ∃ depth out, Unfolds s.macros [] [⟨.ident, "A"⟩] depth out ∧ depth ≤ 3 ∧
      out.map Emission.piece = [⟨.intNumber, "1"⟩, ⟨.plus, "+"⟩, ⟨.intNumber, "1"⟩] ∧
      token (.ofFiles []) [] (fun _ _ => .ok) (Path.normalize "main.h") 0 ⟨.ident, "A", 7⟩ s =
        .ok { s with tokens := #[⟨.intNumber, "1", ⟨0, 7⟩⟩, ⟨.plus, "+", ⟨0, 7⟩⟩,
          ⟨.intNumber, "1", ⟨0, 7⟩⟩] } := by
  intro s
  have hacyclic : s.macros.Acyclic :=
    acyclic_of_rank (fun name => if name = "A" then 2 else if name = "C" then 1 else 0)
      (by decide +kernel)
  obtain ⟨depth, out, hout, -, hdepth, htoken, -, hfull⟩ :=
    token_macro (.ofFiles []) [] (fun _ _ => .ok) (Path.normalize "main.h") 0
      (t := ⟨.ident, "A", 7⟩) (s := s) rfl rfl (by decide +kernel)
  have hresolves : Resolves s.macros [⟨.ident, "A"⟩]
      [⟨.intNumber, "1"⟩, ⟨.plus, "+"⟩, ⟨.intNumber, "1"⟩] := by
    have hone : Resolves s.macros [⟨.intNumber, "1"⟩] [⟨.intNumber, "1"⟩] :=
      .keep (by rintro ⟨⟩) .nil
    have hother : Resolves s.macros [⟨.ident, "B"⟩] [⟨.intNumber, "1"⟩] := .use rfl rfl hone .nil
    have hthird : Resolves s.macros [⟨.ident, "C"⟩] [⟨.intNumber, "1"⟩] :=
      .use rfl rfl hother .nil
    exact .use rfl rfl (.use rfl rfl hone (.keep (by rintro ⟨⟩) hthird)) .nil
  have hpieces := ((hfull hacyclic).2 _).1 hresolves
  refine ⟨rfl, hacyclic, depth, out, hout, hdepth, hpieces.symm, ?_⟩
  rw [htoken, Emission.map_placed, ← hpieces]
  rfl

end Bindery
