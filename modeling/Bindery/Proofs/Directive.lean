import Bindery.Proofs.Survey.Sites
import Bindery.Proofs.Token.Shape

/-!
# Written directives

Directives are written as one comment: the items with commas between them, the strings in quotes,
with a backslash in front of each quote and backslash. The comment is cut into tokens, the strings
lose their quotes and backslashes again, and the reader finds the items that were written, whatever
text the strings are.

## Main definitions

* `Directive.Writable`: a directive that can be written on one line.
* `Directive.quote`: a text as a string in quotes.
* `Directive.comment`: directives as a comment.

## Main statements

* `Directives.ofComments_comment`: directives are read as they were written.
-/
namespace Bindery
namespace Directive

open Pattern

/-! ## Writing -/

/-- A character between quotes. -/
def escape (c : Char) : List Char := if c = '"' ∨ c = '\\' then ['\\', c] else [c]

/-- A text as a string in quotes. -/
def quote (s : String) : String := String.ofList ('"' :: (s.toList.flatMap escape ++ ['"']))

/-- A directive as it is written in a list. -/
def written : Directive → String
  | mark .hidden => "hide"
  | mark _ => "export"
  | request ⟨name, args⟩ =>
    "instance(" ++ (name.elim "" fun n => quote n ++ ", ") ++
      "[" ++ ", ".intercalate (args.map quote) ++ "])"

/-- The directive as a wanted instantiation. -/
def request? : Directive → Option InstanceRequest
  | mark _ => none
  | request r => some r

/-- A directive that can be written: a mark that is not the lack of one, or an instance with
arguments, of which none has a line break, and neither has its name. -/
inductive Writable : Directive → Prop
  | exported : Writable (mark .exported)
  | hidden : Writable (mark .hidden)
  | request {name : Option String} {args : List String} (args_ne : args ≠ [])
      (name_line : ∀ n ∈ name, '\n' ∉ n.toList) (args_line : ∀ s ∈ args, '\n' ∉ s.toList) :
      Writable (request ⟨name, args⟩)

/-- Directives as a comment. -/
def comment (items : List Directive) : String :=
  "// pxx :: " ++ ", ".intercalate (items.map written)

/-! ## Strings -/

/-- What stands between the quotes is the body of a literal. -/
theorem quotedBody_escape {cs : List Char} (h : '\n' ∉ cs) :
    QuotedBody '"' (cs.flatMap escape) := by
  induction cs with
  | nil => exact .nil
  | cons c cs ih =>
    obtain ⟨hc, hcs⟩ : '\n' ≠ c ∧ '\n' ∉ cs := by simpa using h
    rw [List.flatMap_cons]
    by_cases hescape : c = '"' ∨ c = '\\'
    · rw [escape, if_pos hescape]
      exact .escape hc.symm (ih hcs)
    · rw [escape, if_neg hescape]
      obtain ⟨hquote, hslash⟩ := not_or.1 hescape
      exact .plain hquote hc.symm hslash (ih hcs)

/-- A string in quotes is one token, whatever is behind it. -/
theorem pieces_quote {s : String} (h : '\n' ∉ s.toList) (rest : List Char) :
    Token.pieces ((quote s).toList ++ rest) = ⟨.string, quote s⟩ :: Token.pieces rest := by
  have hbody := quotedBody_escape h
  have hnext : Token.next ((quote s).toList ++ rest) = (.string, (quote s).toList.length) := by
    rw [quote, String.toList_ofList]
    exact Token.next_of_greatest (p := .string) (by decide) (by simp) rfl
      (greatest_quoted rest (hbody.quoted_append (by decide) (Nat.zero_le _) rest) (by decide))
  have hne : (quote s).toList ≠ [] := by simp [quote]
  rw [Token.pieces_append hne hnext, String.ofList_toList]
  rfl

theorem unescape_escape (cs : List Char) : unescape (cs.flatMap escape) = cs := by
  induction cs with
  | nil => rfl
  | cons c cs ih =>
    rw [List.flatMap_cons]
    by_cases hescape : c = '"' ∨ c = '\\'
    · rw [escape, if_pos hescape]
      exact congrArg (c :: ·) ih
    · rw [escape, if_neg hescape, List.singleton_append]
      have hslash : c ≠ '\\' := fun hc => hescape (.inr hc)
      rw [unescape, ih]
      · exact fun _ _ hc => absurd hc hslash
      · exact fun hc => absurd hc hslash

/-- A string loses the quotes and backslashes that it was given. -/
theorem unquote_quote (s : String) : unquote (quote s) = s := by
  rw [unquote, quote, String.toList_ofList]
  simp [unescape_escape]

/-! ## Tokens -/

/-- Groups of tokens with commas between them. -/
def listed (groups : List (List Piece)) : List Piece := [⟨.comma, ","⟩].intercalate groups

@[simp] theorem listed_singleton (ps : List Piece) : listed [ps] = ps := by
  simp [listed, List.intercalate]

@[simp] theorem listed_cons_cons (ps qs : List Piece) (groups : List (List Piece)) :
    listed (ps :: qs :: groups) = ps ++ ⟨.comma, ","⟩ :: listed (qs :: groups) := by
  simp [listed, List.intercalate]

/-- The tokens of strings with commas between them. -/
def stringPieces (ss : List String) : List Piece := listed (ss.map fun s => [⟨.string, quote s⟩])

/-- The tokens of an instance behind its keyword. -/
def requestPieces : InstanceRequest → List Piece
  | ⟨name, args⟩ =>
    ⟨.lParen, "("⟩ :: ((name.elim [] fun n => [⟨.string, quote n⟩, ⟨.comma, ","⟩]) ++
      ⟨.lBracket, "["⟩ :: (stringPieces args ++ [⟨.rBracket, "]"⟩, ⟨.rParen, ")"⟩]))

/-- The tokens of a directive as it is written. -/
def pieces : Directive → List Piece
  | mark .hidden => [⟨.ident, "hide"⟩]
  | mark _ => [⟨.ident, "export"⟩]
  | request r => ⟨.ident, "instance"⟩ :: requestPieces r

/-- Texts with commas between them are cut part by part. -/
theorem pieces_listed {α : Type} {text : α → String} {tokens : α → List Piece} {xs : List α}
    (hne : xs ≠ []) (h : ∀ x ∈ xs, ∀ rest, Stops isWordChar rest →
      Token.pieces ((text x).toList ++ rest) = tokens x ++ Token.pieces rest)
    {rest : List Char} (hrest : Stops isWordChar rest) :
    Token.pieces ((", ".intercalate (xs.map text)).toList ++ rest) =
      listed (xs.map tokens) ++ Token.pieces rest := by
  induction xs with
  | nil => exact absurd rfl hne
  | cons x xs ih =>
    obtain ⟨hx, hxs⟩ := List.forall_mem_cons.1 h
    cases xs with
    | nil => simpa using hx rest hrest
    | cons y xs =>
      have htext : (", ".intercalate ((x :: y :: xs).map text)).toList ++ rest =
          (text x).toList ++ ',' :: ' ' ::
            ((", ".intercalate ((y :: xs).map text)).toList ++ rest) := by
        simp [String.intercalate_cons_cons]
      rw [htext, hx _ (stops_cons rfl), Token.pieces_comma, Token.pieces_space (by decide),
        ih (by simp) hxs]
      simp

theorem pieces_lParen (cs : List Char) :
    Token.pieces ('(' :: cs) = ⟨.lParen, "("⟩ :: Token.pieces cs :=
  Token.pieces_append (w := ['(']) (by decide) rfl

theorem pieces_rParen (cs : List Char) :
    Token.pieces (')' :: cs) = ⟨.rParen, ")"⟩ :: Token.pieces cs :=
  Token.pieces_append (w := [')']) (by decide) rfl

theorem pieces_lBracket (cs : List Char) :
    Token.pieces ('[' :: cs) = ⟨.lBracket, "["⟩ :: Token.pieces cs :=
  Token.pieces_append (w := ['[']) (by decide) rfl

theorem pieces_rBracket (cs : List Char) :
    Token.pieces (']' :: cs) = ⟨.rBracket, "]"⟩ :: Token.pieces cs :=
  Token.pieces_append (w := [']']) (by decide) rfl

/-- A word of the language of directives is one token. -/
theorem pieces_name {w : String} (hw : w ∈ ["export", "hide", "instance"]) {rest : List Char}
    (hrest : Stops isWordChar rest) :
    Token.pieces (w.toList ++ rest) = ⟨.ident, w⟩ :: Token.pieces rest := by
  have hwords : ∀ w ∈ ["export", "hide", "instance"],
      isWord w.toList = true ∧ word.kindOf w.toList = .ident := by decide
  obtain ⟨hword, hkind⟩ := hwords w hw
  rw [Token.pieces_word hword hrest (by rw [hkind]; rfl), hkind, String.ofList_toList]

/-- A directive that is written in front of what is no word is cut into its tokens. -/
theorem pieces_written {d : Directive} (h : d.Writable) {rest : List Char}
    (hrest : Stops isWordChar rest) :
    Token.pieces (d.written.toList ++ rest) = d.pieces ++ Token.pieces rest := by
  cases h with
  | exported => exact pieces_name (by decide) hrest
  | hidden => exact pieces_name (by decide) hrest
  | @request name args args_ne name_line args_line =>
    have hargs (cs : List Char) :
        Token.pieces ((", ".intercalate (args.map quote)).toList ++ ']' :: cs) =
          stringPieces args ++ Token.pieces (']' :: cs) :=
      pieces_listed args_ne (fun s hs rest _ => pieces_quote (args_line s hs) rest)
        (stops_cons rfl)
    have hname (cs : List Char) :
        Token.pieces ((name.elim "" fun n => quote n ++ ", ").toList ++ cs) =
          (name.elim [] fun n => [⟨.string, quote n⟩, ⟨.comma, ","⟩]) ++ Token.pieces cs := by
      cases name with
      | none => rfl
      | some n =>
        have htext : (quote n ++ ", ").toList ++ cs = (quote n).toList ++ ',' :: ' ' :: cs := by
          simp
        rw [Option.elim_some, htext, pieces_quote (name_line n rfl), Token.pieces_comma,
          Token.pieces_space (by decide)]
        rfl
    have htext : (written (.request ⟨name, args⟩)).toList ++ rest =
        "instance".toList ++ '(' :: ((name.elim "" fun n => quote n ++ ", ").toList ++ '[' ::
          ((", ".intercalate (args.map quote)).toList ++ ']' :: ')' :: rest)) := by
      simp [written]
    rw [htext, pieces_name (by decide) (stops_cons rfl), pieces_lParen, hname, pieces_lBracket,
      hargs, pieces_rBracket, pieces_rParen]
    simp [pieces, requestPieces]

/-! ## Reading -/

/-- The strings of a list are read up to its bracket. -/
theorem readStrings_pieces {ss : List String} (hne : ss ≠ []) (rest : List Piece) :
    readStrings (stringPieces ss ++ ⟨.rBracket, "]"⟩ :: rest) = .ok (ss, rest) := by
  induction ss with
  | nil => exact absurd rfl hne
  | cons s ss ih =>
    cases ss with
    | nil =>
      have hlast : readStrings (⟨.string, quote s⟩ :: ⟨.rBracket, "]"⟩ :: rest) =
          .ok ([unquote (quote s)], rest) := rfl
      rwa [unquote_quote] at hlast
    | cons t ss =>
      have hmore (ps : List Piece) : readStrings (⟨.string, quote s⟩ :: ⟨.comma, ","⟩ :: ps) =
          (readStrings ps >>= fun more => pure (unquote (quote s) :: more.1, more.2)) := rfl
      have htokens : stringPieces (s :: t :: ss) =
          ⟨.string, quote s⟩ :: ⟨.comma, ","⟩ :: stringPieces (t :: ss) := by simp [stringPieces]
      rw [htokens, List.cons_append, List.cons_append, hmore, ih (by simp), unquote_quote]
      rfl

/-- An instance is read up to its parenthesis. -/
theorem readRequest_pieces {r : InstanceRequest} (hne : r.args ≠ []) (rest : List Piece) :
    readRequest (requestPieces r ++ rest) = .ok (r, rest) := by
  obtain ⟨name, args⟩ := r
  have hstrings := readStrings_pieces hne (⟨.rParen, ")"⟩ :: rest)
  cases name with
  | none =>
    simp [readRequest, requestPieces, expect, hstrings, bind, Except.bind, pure, Except.pure]
  | some n =>
    simp [readRequest, requestPieces, expect, hstrings, unquote_quote, bind, Except.bind, pure,
      Except.pure]

/-- A directive is read from its tokens, and no parenthesis behind it is taken for its own. -/
theorem read_pieces {d : Directive} (h : d.Writable) {rest : List Piece}
    (hrest : ∀ p ∈ rest.head?, p.kind ≠ .lParen) : read (d.pieces ++ rest) = .ok (d, rest) := by
  have hparens : readEmptyParens rest = .ok rest := by
    cases rest with
    | nil => rfl
    | cons p rest =>
      have hkind : p.kind ≠ .lParen := hrest p rfl
      obtain ⟨kind, text⟩ := p
      exact readEmptyParens.eq_2 _ fun _ _ hcons => hkind (Piece.mk.inj (List.cons.inj hcons).1).1
  cases h with
  | exported =>
    have hread : read (pieces (mark .exported) ++ rest) =
        (readEmptyParens rest >>= fun ps => pure (mark .exported, ps)) := rfl
    rw [hread, hparens]
    rfl
  | hidden =>
    have hread : read (pieces (mark .hidden) ++ rest) =
        (readEmptyParens rest >>= fun ps => pure (mark .hidden, ps)) := rfl
    rw [hread, hparens]
    rfl
  | @request name args args_ne name_line args_line =>
    have hread : read (pieces (request ⟨name, args⟩) ++ rest) =
        (readRequest (requestPieces ⟨name, args⟩ ++ rest) >>= fun wanted =>
          pure (request wanted.1, wanted.2)) := rfl
    rw [hread, readRequest_pieces args_ne]
    rfl

/-- A list of directives is read from its tokens. -/
theorem readList_listed {items : List Directive} (hne : items ≠ [])
    (h : ∀ d ∈ items, d.Writable) {depth : ℕ}
    (hdepth : (listed (items.map pieces)).length < depth) :
    readList depth (listed (items.map pieces)) = .ok items := by
  induction items generalizing depth with
  | nil => exact absurd rfl hne
  | cons d items ih =>
    obtain ⟨hd, hitems⟩ := List.forall_mem_cons.1 h
    obtain ⟨depth, rfl⟩ : ∃ k, depth = k + 1 := ⟨depth - 1, by omega⟩
    cases items with
    | nil =>
      have hread : read (d.pieces ++ []) = .ok (d, []) := read_pieces hd (by simp)
      rw [List.append_nil] at hread
      rw [List.map_singleton, listed_singleton, readList, hread]
      rfl
    | cons e items =>
      have htokens : listed ((d :: e :: items).map pieces) =
          d.pieces ++ ⟨.comma, ","⟩ :: listed ((e :: items).map pieces) := by simp
      rw [htokens, List.length_append, List.length_cons] at hdepth
      have hcomma : ∀ p ∈ (⟨.comma, ","⟩ :: listed ((e :: items).map pieces)).head?,
          p.kind ≠ .lParen := by simp
      rw [htokens, readList, read_pieces hd hcomma]
      change (readList depth _ >>= fun more => pure (d :: more)) = _
      rw [ih (by simp) hitems (by omega)]
      rfl

theorem parseList_written {items : List Directive} (hne : items ≠ [])
    (h : ∀ d ∈ items, d.Writable) :
    parseList (" " ++ ", ".intercalate (items.map written)) = .ok items := by
  have hcut := pieces_listed hne (fun d hd _ => pieces_written (h d hd)) (stops_nil isWordChar)
  rw [List.append_nil, Token.pieces_nil, List.append_nil] at hcut
  have hpieces : piecesOf (" " ++ ", ".intercalate (items.map written)) =
      listed (items.map pieces) := by
    change Token.pieces (" " ++ ", ".intercalate (items.map written)).toList = _
    rw [String.toList_append]
    exact (Token.pieces_space (by decide) _).trans hcut
  rw [parseList, hpieces]
  exact readList_listed hne h (Nat.lt_succ_self _)

/-- A word behind blanks is passed over. -/
theorem behind_append (word : String) {c : Char} {w : List Char} (hword : word.toList = c :: w)
    (hc : c ≠ ' ' ∧ c ≠ '\t') {blanks : List Char} (hblanks : ∀ b ∈ blanks, b = ' ' ∨ b = '\t')
    (rest : List Char) : behind word (blanks ++ (word.toList ++ rest)) = some rest := by
  have hdrop : (blanks ++ (word.toList ++ rest)).dropWhile (fun c => c = ' ' || c = '\t') =
      word.toList ++ rest := by
    rw [List.dropWhile_append_of_pos (by simpa using hblanks), hword, List.cons_append,
      List.dropWhile_cons_of_neg (by simpa using hc)]
  have hprefix : word.toList.isPrefixOf (word.toList ++ rest) = true :=
    List.isPrefixOf_iff_prefix.2 (List.prefix_append _ _)
  rw [behind, hdrop, if_pos hprefix, ← String.length_toList, List.drop_left' rfl]

/-- The list of a comment is what stands behind its opening. -/
theorem body?_comment (items : List Directive) :
    body? (comment items) = some (" " ++ ", ".intercalate (items.map written)) := by
  have hopening : (comment items).toList = [] ++ ("//".toList ++ ([' '] ++ ("pxx".toList ++
      ([' '] ++ ("::".toList ++ (" " ++ ", ".intercalate (items.map written)).toList))))) := by
    simp [comment]
  rw [body?, hopening, behind_append "//" rfl (by decide) (by simp), Option.bind_eq_bind,
    Option.bind_some, behind_append "pxx" rfl (by decide) (by simp), Option.bind_some,
    behind_append "::" rfl (by decide) (by simp), Option.bind_some, String.ofList_toList]
  rfl

end Directive

namespace Directives

open Directive

theorem requests_foldl_add (items : List Directive) (d : Directives) :
    (items.foldl add d).requests = d.requests ++ items.filterMap request? := by
  induction items generalizing d with
  | nil => simp
  | cons item items ih =>
    rw [List.foldl_cons, ih]
    cases item with
    | mark m => rfl
    | request r => simp [add, request?]

/-- **Directives are read as they were written.** Whatever the directives are, and whatever texts
on one line their strings are, the comment that they are written as has no fault, the mark of the
last `export` or `hide` among them, and their instances in this order, with the names and arguments
that were written. -/
theorem ofComments_comment {items : List Directive} (hne : items ≠ [])
    (h : ∀ d ∈ items, d.Writable) :
    ofComments [comment items] =
      (⟨(items.filterMap Directive.mark?).getLast?, items.filterMap request?⟩, []) := by
  have hfold : items.foldl add {} =
      ⟨(items.filterMap Directive.mark?).getLast?, items.filterMap request?⟩ := by
    have hmark := mark_foldl_add items {}
    have hrequests := requests_foldl_add items {}
    rw [Option.or_none] at hmark
    rw [List.nil_append] at hrequests
    rw [← hmark, ← hrequests]
  rw [ofComments, List.foldl_cons, List.foldl_nil, addComment, body?_comment]
  dsimp only
  rw [parseList_written hne h]
  exact congrArg (·, []) hfold

/-- Quotes, backslashes, brackets, commas and the opening of a comment inside strings. -/
theorem ofComments_comment_quoted :
    ofComments ["// pxx :: export, instance(\"a\\\"b\", [\"/*], \", \"\\\\é\"]), hide"] =
      (⟨some .hidden, [⟨some "a\"b", ["/*], ", "\\é"]⟩]⟩, []) := by
  let items : List Directive :=
    [.mark .exported, .request ⟨some "a\"b", ["/*], ", "\\é"]⟩, .mark .hidden]
  have hwritable : ∀ d ∈ items, d.Writable := by
    simp only [items, List.forall_mem_cons]
    exact ⟨.exported, .request (by decide) (by decide) (by decide), .hidden, by simp⟩
  have htext : comment items =
      "// pxx :: export, instance(\"a\\\"b\", [\"/*], \", \"\\\\é\"]), hide" := by
    decide +kernel
  have hne : items ≠ [] := by simp [items]
  have hread := ofComments_comment hne hwritable
  rwa [htext] at hread

end Directives
end Bindery
