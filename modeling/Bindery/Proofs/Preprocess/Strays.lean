import Bindery.Proofs.Preprocess.Bounds
import Bindery.Proofs.Preprocess.Origins

/-!
# Strays in the stream

Text that is no token is a fault where it is read, and a directive line is obeyed and not emitted.
What a macro stands for is not looked at in this way, neither when the macro is defined nor when it
is used. So text that is no token, and a `#` with what follows it, come to the stream through
macros, and in no other way.

## Main definitions

* `TokenKind.isStray`: the kinds that have no place in the stream.
* `Moment.UsesMacro`: the token that is read next is the use of a macro.
* `Moment.Written`: the macros that the flags and the `#define` lines of a run define.

## Main statements

* `Moment.strays_iff`: what of such tokens is in the stream of a run.
* `Moment.run_emits_stray`: a run that succeeds with such tokens in its stream.
-/
namespace Bindery

/-- Text that is no token, and lines that are directions. -/
def TokenKind.isStray (k : TokenKind) : Bool := k = .error || k = .directive

namespace Moment

/-- The token that is read next is the use of a macro. -/
structure UsesMacro (m : Moment) (f : OpenFile) (t : Token) : Prop where
  file_eq : m.files.head? = some f
  next_eq : f.rest.head? = some t
  isActive : m.state.isActive = true
  isIdent : t.kind = .ident
  isMacro : m.state.macros.contains t.text = true

/-- The macros that are defined by a flag, or by a `#define` line that is read in a run. -/
inductive Written (sources : Sources) (flags : Flags) (path : String) : String → List Piece → Prop
  | flag {name text : String} (h : (name, text) ∈ flags.defines.entries) :
      Written sources flags path name (MacroTable.bodyOf (Token.scan text))
  | line {m : Moment} {f : OpenFile} {t : Token} {name : String} {body : List Piece}
      (hm : Reached sources flags path m) (hf : m.files.head? = some f)
      (ht : f.rest.head? = some t) (hactive : m.state.isActive = true)
      (hdefines : t.Defines name body) : Written sources flags path name body

variable {sources : Sources} {includeDirs : List String} {flags : Flags} {path : String}
  {m m' : Moment}

/-! ## Macros -/

/-- A macro was in the table before the step, or the token that is read defines it. -/
theorem Moves.macros_cases (h : Moves sources includeDirs m m') {entry : String × List Piece}
    (hentry : entry ∈ m'.state.macros.entries) :
    entry ∈ m.state.macros.entries ∨ ∃ f t, m.files.head? = some f ∧ f.rest.head? = some t ∧
      m.state.isActive = true ∧ t.Defines entry.1 entry.2 := by
  by_cases hactive : m.state.isActive = true
  · cases h with
    | @read f fs t rest s s' hrest ht =>
      have hadds : Preprocessor.Adds ⟨f.number, t.offset⟩ t.Defines s s' := ht.answers
      rcases hadds.macros entry hentry with hentry | hdefines
      · exact .inl hentry
      · exact .inr ⟨f, t, rfl, by simp [hrest], hactive, hdefines⟩
    | pass | enter | leave => exact .inl hentry
  · rw [h.state_eq (by simpa using hactive)] at hentry
    exact .inl hentry

/-- Every macro in the table was defined. -/
theorem Reached.written (h : Reached sources flags path m) {entry : String × List Piece}
    (hentry : entry ∈ m.state.macros.entries) : Written sources flags path entry.1 entry.2 := by
  obtain ⟨text, htext, hleads⟩ := h
  induction hleads with
  | refl =>
    obtain ⟨⟨name, value⟩, hmem, rfl⟩ := List.mem_map.1 hentry
    exact .flag hmem
  | tail hsteps hmove ih =>
    rcases hmove.macros_cases hentry with hentry | ⟨f, t, hf, ht, hactive, hdefines⟩
    · exact ih hentry
    · exact .line ⟨text, htext, hsteps⟩ hf ht hactive hdefines

theorem Reached.exists_written_of_mem_expand (h : Reached sources flags path m) {name : String}
    {p : Piece} (hp : p ∈ m.state.macros.expand name) :
    ∃ name' body, Written sources flags path name' body ∧ p ∈ body := by
  obtain ⟨entry, hentry, hp⟩ := MacroTable.exists_of_mem_expand hp
  exact ⟨entry.1, entry.2, h.written hentry, hp⟩

/-! ## Tokens that are read -/

/-- Text that is no token is a fault where it is read. -/
theorem Reached.run_eq_of_error (h : Reached sources flags path m) {f : OpenFile} {t : Token}
    (hf : m.files.head? = some f) (ht : f.rest.head? = some t)
    (hactive : m.state.isActive = true) (hkind : t.kind = .error) :
    Preprocessor.run sources flags path =
      .error ⟨.invalidText t.text, locate? m.state.files ⟨f.number, t.offset⟩⟩ := by
  obtain ⟨text, htext, -⟩ := id h
  obtain ⟨files, s⟩ := m
  obtain ⟨fs, rfl⟩ := List.head?_eq_some_iff.1 hf
  obtain ⟨rest, hrest⟩ := List.head?_eq_some_iff.1 ht
  have hfault : Preprocessor.Yields sources flags.includeDirs f t s
      (s.fail (some ⟨f.number, t.offset⟩) (.invalidText t.text)) := by
    intro splice
    simp only at hactive
    simp [Preprocessor.token, hkind, hactive]
  exact (run_eq_iff htext _).2 ⟨_, h, .fault hrest hfault⟩

/-- A step that reads text that is no token, or a directive, emits nothing. -/
theorem Moves.tokens_eq (h : Moves sources includeDirs m m') {f : OpenFile} {t : Token}
    (hf : m.files.head? = some f) (ht : f.rest.head? = some t) (hstray : t.kind.isStray = true) :
    m'.state.tokens = m.state.tokens := by
  cases h with
  | @read f' fs t' rest s s' hrest hyields =>
    obtain rfl : f' = f := Option.some.inj hf
    obtain rfl : t' = t := by simpa [hrest] using ht
    cases hyields.effect with
    | regrouped | skipped => rfl
    | obeyed hname hactive hquiet => exact hquiet.tokens
    | @emitted hactive hkind pieces hpieces =>
      have herror : t'.kind = .error := by simpa [TokenKind.isStray, hkind] using hstray
      -- The token has a fault, so the step does not emit it.
      have hfault := hyields fun _ _ s => .ok s
      simp [Preprocessor.token, herror, hactive, Preprocessor.fail] at hfault
  | pass | enter | leave => rfl

theorem Moves.mem_tokens (h : Moves sources includeDirs m m') {token : SourceToken}
    (htoken : token ∈ m.state.tokens) : token ∈ m'.state.tokens := by
  cases h with
  | read hrest ht =>
    cases ht.effect with
    | regrouped | skipped => exact htoken
    | obeyed hname hactive hquiet => rwa [hquiet.tokens]
    | emitted hactive hkind hpieces => exact Array.mem_append_left _ htoken
  | pass | enter | leave => exact htoken

theorem mem_tokens_of_leads (h : Leads sources includeDirs m m') {token : SourceToken}
    (htoken : token ∈ m.state.tokens) : token ∈ m'.state.tokens := by
  induction h with
  | refl => exact htoken
  | tail _ hmove ih => exact hmove.mem_tokens ih

/-! ## Tokens that are emitted -/

/-- A stray token that a step emits stands in the expansion of the macro that is used. -/
theorem Moves.usesMacro (h : Moves sources includeDirs m m') {token : SourceToken}
    (htoken : token ∈ m'.state.tokens) (hstray : token.kind.isStray = true) :
    token ∈ m.state.tokens ∨ ∃ f t, m.UsesMacro f t ∧ token.origin = ⟨f.number, t.offset⟩ ∧
      ⟨token.kind, token.text⟩ ∈ m.state.macros.expand t.text := by
  by_cases hold : token ∈ m.state.tokens
  · exact .inl hold
  obtain ⟨i, hi⟩ := Array.mem_iff_getElem?.1 htoken
  rcases h.token_cases hi with hi | ⟨f, t, hf, ht, horigin, pieces, j, hstands, -, hpiece⟩
  · exact .inl (Array.mem_iff_getElem?.2 ⟨i, hi⟩)
  · cases hstands with
    | itself hplain =>
      have hsame := List.mem_singleton.1 (List.mem_of_getElem? hpiece)
      rw [Piece.mk.injEq] at hsame
      rw [h.tokens_eq hf ht (hsame.1 ▸ hstray)] at htoken
      exact .inl htoken
    | expansion hkind huse =>
      by_cases hactive : m.state.isActive = true
      · exact .inr ⟨f, t, ⟨hf, ht, hactive, hkind, huse⟩, horigin, List.mem_of_getElem? hpiece⟩
      · rw [h.state_eq (by simpa using hactive)] at htoken
        exact .inl htoken

/-- The use of a macro leaves its expansion in the stream. -/
theorem UsesMacro.exists_moves {f : OpenFile} {t : Token} (h : m.UsesMacro f t) :
    ∃ m', Moves sources includeDirs m m' ∧ ∀ p ∈ m.state.macros.expand t.text,
      ⟨p.kind, p.text, ⟨f.number, t.offset⟩⟩ ∈ m'.state.tokens := by
  obtain ⟨hf, ht, hactive, hkind, huse⟩ := h
  obtain ⟨files, s⟩ := m
  obtain ⟨fs, rfl⟩ := List.head?_eq_some_iff.1 hf
  obtain ⟨rest, hrest⟩ := List.head?_eq_some_iff.1 ht
  have hyields : Preprocessor.Yields sources includeDirs f t s
      (.ok (s.emit (s.macros.expand t.text) ⟨f.number, t.offset⟩)) := by
    intro splice
    simp only at hactive huse
    simp [Preprocessor.token, hkind, hactive, huse]
  refine ⟨_, .read hrest hyields, fun p hp => ?_⟩
  exact Array.mem_append_right _ (List.mem_toArray.2 (List.mem_map.2 ⟨p, hp, rfl⟩))

theorem Reached.exists_usesMacro (h : Reached sources flags path m) {token : SourceToken}
    (htoken : token ∈ m.state.tokens) (hstray : token.kind.isStray = true) :
    ∃ m' f t, Reached sources flags path m' ∧ m'.UsesMacro f t ∧
      token.origin = ⟨f.number, t.offset⟩ ∧
      ⟨token.kind, token.text⟩ ∈ m'.state.macros.expand t.text := by
  obtain ⟨text, htext, hleads⟩ := h
  induction hleads with
  | refl => simp [start, Preprocessor.opened] at htoken
  | @tail b c hsteps hmove ih =>
    rcases hmove.usesMacro htoken hstray with htoken | ⟨f, t, huse, horigin, hmem⟩
    · exact ih htoken
    · exact ⟨b, f, t, ⟨text, htext, hsteps⟩, huse, horigin, hmem⟩

/-- **Strays come through macros**: text that is no token is a fault where it is read, and the
stream of a run that succeeds has such a token, or a directive, exactly where a macro is used that
stands for it among others. The macros are those that the flags and the lines of the run define. -/
theorem strays_iff (sources : Sources) (flags : Flags) (path : String) :
    (∀ m f t, Reached sources flags path m → m.files.head? = some f → f.rest.head? = some t →
      m.state.isActive = true → t.kind = .error →
      Preprocessor.run sources flags path =
        .error ⟨.invalidText t.text, locate? m.state.files ⟨f.number, t.offset⟩⟩) ∧
    (∀ s, Preprocessor.run sources flags path = .ok s → ∀ token : SourceToken,
      token.kind.isStray = true →
      (token ∈ s.tokens ↔ ∃ m f t, Reached sources flags path m ∧ m.UsesMacro f t ∧
        token.origin = ⟨f.number, t.offset⟩ ∧
        ⟨token.kind, token.text⟩ ∈ m.state.macros.expand t.text)) ∧
    ∀ m name p, Reached sources flags path m → p ∈ m.state.macros.expand name →
      ∃ name' body, Written sources flags path name' body ∧ p ∈ body := by
  refine ⟨fun m f t hm => hm.run_eq_of_error, fun s hs token hstray => ⟨fun htoken => ?_, ?_⟩,
    fun m name p hm => hm.exists_written_of_mem_expand⟩
  · exact (reached_of_run_eq_ok hs).exists_usesMacro htoken hstray
  · rintro ⟨m, f, t, hm, huse, horigin, hmem⟩
    obtain ⟨m', hmove, hemitted⟩ := huse.exists_moves
    have hleads := (hm.leads (.single hmove)).leads_of_run_eq_ok hs
    have htoken := mem_tokens_of_leads hleads (hemitted _ hmem)
    rw [← horigin] at htoken
    exact htoken

/-- Text that is no token, in the text itself and behind a macro. -/
theorem strays_iff_at_sign :
    let sources := Sources.ofFiles [("a.h", "@"), ("b.h", "#define A @\nA")]
    let flags := Flags.parse []
    Preprocessor.run sources flags "a.h" = .error ⟨.invalidText "@", some ⟨"a.h", ⟨0, 0⟩⟩⟩ ∧
    ∃ s, Preprocessor.run sources flags "b.h" = .ok s ∧ ∃ token ∈ s.tokens,
      token.kind = .error ∧ ∃ m f t, Reached sources flags "b.h" m ∧ m.UsesMacro f t ∧
        token.origin = ⟨f.number, t.offset⟩ ∧
        ⟨token.kind, token.text⟩ ∈ m.state.macros.expand t.text ∧
        ∃ name body, Written sources flags "b.h" name body ∧ ⟨token.kind, token.text⟩ ∈ body := by
  intro sources flags
  obtain ⟨hfatal, -, -⟩ := strays_iff sources flags "a.h"
  obtain ⟨-, hstrays, hwritten⟩ := strays_iff sources flags "b.h"
  have hread : sources.read? (Path.normalize "a.h") = some "@" := by decide +kernel
  have hnext : (Token.scan "@").head? = some ⟨.error, "@", 0⟩ := by decide +kernel
  have hfirst := hfatal _ _ _ ⟨"@", hread, .refl⟩ rfl hnext rfl rfl
  have hplace : locate? #[⟨Path.normalize "a.h", LineIndex.ofText "@"⟩] ⟨0, 0⟩ =
      some ⟨"a.h", ⟨0, 0⟩⟩ := by decide +kernel
  have hfault := congrArg (Located.mk (PreprocessFault.invalidText "@")) hplace
  refine ⟨hfirst.trans (congrArg Except.error hfault), ?_⟩
  have hrun : (Preprocessor.run sources flags "b.h").toOption.any
      (fun s => s.tokens.any (·.kind = .error)) = true := by decide +kernel
  simp only [Option.any_eq_true, toOption_eq_some, Array.any_eq_true', decide_eq_true_eq] at hrun
  obtain ⟨s, hs, token, htoken, hkind⟩ := hrun
  obtain ⟨m, f, t, hm, huse, horigin, hmem⟩ :=
    (hstrays s hs token (by rw [hkind]; rfl)).1 htoken
  exact ⟨s, hs, token, htoken, hkind, m, f, t, hm, huse, horigin, hmem, hwritten m _ _ hm hmem⟩

/-- A run that succeeds, with text in its stream that is no token, and with a directive. -/
theorem run_emits_stray :
    let sources := Sources.ofFiles [("main.h", "#define A @\n#define B #x\nA\nB y\n")]
    ∃ s, Preprocessor.run sources (Flags.parse []) "main.h" = .ok s ∧
      (∃ token ∈ s.tokens, token.kind = .error) ∧ ∃ token ∈ s.tokens, token.kind = .directive := by
  intro sources
  have hrun : (Preprocessor.run sources (Flags.parse []) "main.h").toOption.any
      (fun s => s.tokens.any (·.kind = .error) && s.tokens.any (·.kind = .directive)) = true := by
    decide +kernel
  simpa only [Option.any_eq_true, toOption_eq_some, Bool.and_eq_true, Array.any_eq_true',
    decide_eq_true_eq] using hrun

end Moment
end Bindery
