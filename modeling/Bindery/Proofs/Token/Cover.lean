import Bindery.Proofs.Token.Number

/-!
# Tokens cover their text

No match reaches past the end of the input, so a token takes exactly the characters that were
matched for it, and the next token begins where it ends. An unclosed comment, an unclosed
literal and a character that nothing starts with are matched by the error rule in the same way.

## Main definitions

* `Token.Covers`: tokens that cut a text from its front to its end.

## Main statements

* `Token.next_le_length`: a token lies inside the text that it is read from.
* `Token.scan_lossless`: the tokens of a text are not empty, put together they are the text, and
  each of them stands at its offset.
-/
namespace Bindery

/-- The bytes of a text are those of its characters. -/
theorem utf8ByteSize_eq_byteLength (s : String) : s.utf8ByteSize = byteLength s.toList := by
  have hofList (cs : List Char) : (String.ofList cs).utf8ByteSize = byteLength cs := by
    induction cs with
    | nil => simp
    | cons c cs ih => simp [String.ofList_cons, ih]
  rw [← hofList, String.ofList_toList]

namespace Pattern

/-! ## Matches inside the input -/

theorem commentEnd?_le_length {cs : List Char} {n : ℕ} (h : commentEnd? cs = some n) :
    n ≤ cs.length := by
  fun_induction commentEnd? cs generalizing n with
  | case1 => simp at h
  | case2 cs =>
    obtain rfl := Option.some.inj h
    simp
  | case3 c cs _ ih =>
    obtain ⟨m, hm, rfl⟩ := Option.map_eq_some_iff.1 h
    have hle := ih hm
    simpa using hle

theorem directiveBody_le_length (cs : List Char) : directiveBody cs ≤ cs.length := by
  fun_induction directiveBody cs <;> simp only [List.length_cons, List.length_nil] at * <;> omega

theorem quotedBody_le_length (quote : Char) (cs : List Char) :
    quotedBody quote cs ≤ cs.length := by
  fun_induction quotedBody quote cs <;>
    simp only [List.length_cons, List.length_nil] at * <;> omega

theorem lt_length_of_head? {c : Char} {n : ℕ} {cs : List Char}
    (h : (cs.drop n).head? = some c) : n < cs.length := by
  by_contra hge
  rw [List.drop_eq_nil_of_le (Nat.le_of_not_lt hge)] at h
  simp at h

theorem floatSuffix_le_length (cs : List Char) : floatSuffix cs ≤ cs.length := by
  cases cs with
  | nil => exact le_refl 0
  | cons c cs =>
    rw [floatSuffix, List.length_cons]
    split <;> omega

/-- A literal is matched with its closing quote, which is there to be matched. -/
theorem quoted_le_length (quote : Char) (least : ℕ) (cs : List Char) :
    quoted quote least cs ≤ cs.length := by
  cases cs with
  | nil => exact le_refl 0
  | cons c cs =>
    simp only [quoted]
    split
    · split
      · rename_i hclosed
        simp only [Bool.and_eq_true, decide_eq_true_eq] at hclosed
        have hlt : quotedBody quote cs < cs.length := lt_length_of_head? hclosed.2
        rw [List.length_cons]
        omega
      · exact Nat.zero_le _
    · exact Nat.zero_le _

/-- No match reaches past the end of the input. -/
theorem scan_le_length (p : Pattern) (cs : List Char) : p.scan cs ≤ cs.length := by
  have hdigits := leadingDigits_le_length
  fun_cases scan p cs with
  | case1 => exact run_le_length isSpace cs
  | case2 cs =>
    have hle := run_le_length (· ≠ '\n') cs
    simp only [List.length_cons]
    omega
  | case3 cs n hend =>
    have hle := commentEnd?_le_length hend
    simp only [List.length_cons]
    omega
  | case5 cs =>
    have hle := directiveBody_le_length cs
    rw [List.length_cons]
    omega
  | case6 c cs =>
    have hle := run_le_length isWordChar cs
    rw [List.length_cons]
    omega
  | case9 => exact andThen_le_length (run_le_length isIntSuffix) (hdigits cs)
  | case11 x cs _ n =>
    have hle : andThen n (run isIntSuffix) cs ≤ cs.length :=
      andThen_le_length (run_le_length isIntSuffix) (run_le_length isHexOrTick cs)
    simp only [List.length_cons]
    omega
  | case14 _ n hpoint =>
    -- The point behind the digits is one more character of the input.
    simp only [Bool.or_eq_true, decide_eq_true_eq, not_or, not_not] at hpoint
    have hlt : n + 1 ≤ cs.length := lt_length_of_head? hpoint.2
    exact andThen_le_length floatSuffix_le_length (andThen_le_length exponent_le_length
      (andThen_le_length (run_le_length isDigitOrTick) hlt))
  | case16 cs n =>
    have hle : andThen (andThen n exponent cs) floatSuffix cs ≤ cs.length :=
      andThen_le_length floatSuffix_le_length (andThen_le_length exponent_le_length (hdigits cs))
    rw [List.length_cons]
    omega
  | case18 =>
    exact andThen_le_length floatSuffix_le_length
      (andThen_le_length exponent_le_length (hdigits cs))
  | case19 => exact quoted_le_length '"' 0 cs
  | case20 => exact quoted_le_length '\'' 1 cs
  | case21 spelling _ _ hfront => exact (List.isPrefixOf_iff_prefix.1 hfront).length_le
  | _ => exact Nat.zero_le _

end Pattern

namespace Token

/-- A token lies inside the text that it is read from. -/
theorem next_le_length (cs : List Char) : (next cs).2 ≤ cs.length := by
  unfold next
  split
  · exact le_refl _
  · split
    · rename_i p n hlongest
      rw [← (longest_spec hlongest).2.1]
      exact p.scan_le_length cs
    · cases cs with
      | nil => exact le_refl 0
      | cons c cs =>
        have hle := Pattern.quotedBody_le_length c cs
        simp only [errorLength, List.length_cons]
        split <;> omega

/-! ## Tokens one behind the other -/

/-- Tokens that cut a text which starts at an offset: each has at least one character, is what
is matched in front of all the text that is left, and begins where the one before it ends. -/
inductive Covers : ℕ → List Char → List Token → Prop
  | nil (offset : ℕ) : Covers offset [] []
  | cons {offset : ℕ} {lexeme rest : List Char} {kind : TokenKind} {tokens : List Token}
      (lexeme_ne : lexeme ≠ []) (matched : next (lexeme ++ rest) = (kind, lexeme.length))
      (behind : Covers (offset + byteLength lexeme) rest tokens) :
      Covers offset (lexeme ++ rest) (⟨kind, String.ofList lexeme, offset⟩ :: tokens)

theorem covers_scanFrom (offset : ℕ) (cs : List Char) : Covers offset cs (scanFrom offset cs) := by
  fun_induction scanFrom offset cs with
  | case1 offset => exact .nil offset
  | case2 offset c cs step lexeme ih =>
    have hpos : 0 < step.2 := next_pos c cs
    have hlength : lexeme.length = step.2 := List.length_take_of_le (next_le_length (c :: cs))
    have hcut : lexeme ++ (c :: cs).drop step.2 = c :: cs := List.take_append_drop step.2 (c :: cs)
    have hne : lexeme ≠ [] := by
      rw [← List.length_pos_iff, hlength]
      exact hpos
    have hcover : Covers offset (lexeme ++ (c :: cs).drop step.2)
        (⟨step.1, String.ofList lexeme, offset⟩ :: _) :=
      .cons hne (by rw [hcut, hlength]) ih
    rwa [hcut] at hcover

namespace Covers

variable {offset : ℕ} {cs : List Char} {tokens : List Token}

theorem text_ne (h : Covers offset cs tokens) : ∀ t ∈ tokens, t.text ≠ "" := by
  induction h with
  | nil => simp
  | cons lexeme_ne _ _ ih =>
    refine List.forall_mem_cons.2 ⟨?_, ih⟩
    simpa [String.ext_iff] using lexeme_ne

/-- The texts of the tokens are the text, one behind the other. -/
theorem flatMap_text (h : Covers offset cs tokens) :
    tokens.flatMap (·.text.toList) = cs := by
  induction h with
  | nil => rfl
  | cons _ _ _ ih => simp [ih]

/-- The first token stands at the front, and is what is matched there. -/
theorem head {t : Token} (h : Covers offset cs (t :: tokens)) :
    t.offset = offset ∧ next cs = (t.kind, t.text.length) := by
  cases h with
  | cons _ matched _ => exact ⟨rfl, by simpa using matched⟩

/-- What is cut behind some of the tokens is cut as well, and begins where they end. -/
theorem behind {front back : List Token} (h : Covers offset cs (front ++ back)) :
    Covers (offset + byteLength (front.flatMap (·.text.toList)))
      (back.flatMap (·.text.toList)) back := by
  induction front generalizing offset cs with
  | nil =>
    rw [List.nil_append] at h
    rwa [h.flatMap_text]
  | cons t front ih =>
    cases h with
    | cons _ _ hbehind => simpa [Nat.add_assoc] using ih hbehind

end Covers

/-- **No text is lost in scanning.** Whatever the text is, its tokens are not empty, put together
they are the text, and each token stands at the number of bytes in front of it, and is as long as
what is matched in front of all the text that is left. A token ends inside the text, so offsets
need no more bits than the size of the text. -/
theorem scan_lossless (text : String) :
    (∀ t ∈ scan text, t.text ≠ "") ∧
    String.join ((scan text).map Token.text) = text ∧
    ∀ front t back, scan text = front ++ t :: back →
      t.offset = (String.join (front.map Token.text)).utf8ByteSize ∧
      t.offset + t.text.utf8ByteSize ≤ text.utf8ByteSize ∧
      next (String.join ((t :: back).map Token.text)).toList = (t.kind, t.text.length) := by
  have hcover : Covers 0 text.toList (scan text) := covers_scanFrom 0 text.toList
  have hjoin (tokens : List Token) :
      (String.join (tokens.map Token.text)).toList = tokens.flatMap (·.text.toList) := by
    rw [String.toList_join, List.flatMap_map]
  refine ⟨hcover.text_ne, ?_, ?_⟩
  · rw [← String.toList_inj, hjoin, hcover.flatMap_text]
  · intro front t back hsplit
    rw [hsplit] at hcover
    have htext := hcover.flatMap_text
    obtain ⟨hoffset, hnext⟩ := hcover.behind.head
    rw [Nat.zero_add] at hoffset
    refine ⟨?_, ?_, ?_⟩
    · rw [utf8ByteSize_eq_byteLength, hjoin, hoffset]
    · rw [hoffset, utf8ByteSize_eq_byteLength, utf8ByteSize_eq_byteLength, ← htext]
      simp only [List.flatMap_append, List.flatMap_cons, byteLength_append]
      omega
    · rw [hjoin, hnext]

/-- An unclosed literal takes what it can, a lone backslash and a character that starts nothing
stand for themselves, and an unclosed comment takes the rest of the text. -/
example : (scan "\"a\n\\é/* b").map (fun t => (t.kind, t.text, t.offset)) =
    [(.error, "\"a", 0), (.blank, "\n", 2), (.error, "\\", 3), (.error, "é", 4),
      (.error, "/* b", 6)] := by
  decide +kernel

end Token
end Bindery
