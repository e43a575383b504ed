import Bindery.Proofs.Position
import Bindery.Token.Scan

/-!
# Places in a text

A token knows its offset in the text it was scanned from, and a line index turns the offset into
a line and a column. What begins at that line and column is the text of the token.

## Main definitions

* `Position.PointsAt`: what begins at a line and column of a text.

## Main statements

* `Token.exists_of_mem_scan`: the text of a token stands at its offset.
* `LineIndex.pointsAt_position`: the position of an offset points at what stands there.
-/
namespace Bindery

/-- At the line and column of the text the lexeme begins: behind the lines `above` and, in the
line itself, the text `left`. -/
def Position.PointsAt (text : String) (p : Position) (lexeme : String) : Prop :=
  ∃ above left after : List Char, text.toList = above ++ left ++ lexeme.toList ++ after ∧
    above.count '\n' = p.line ∧ (above = [] ∨ above.getLast? = some '\n') ∧
    '\n' ∉ left ∧ byteLength left = p.col

/-- The bytes behind the last newline are those of the characters behind it. -/
theorem rtakeWhile_encoded (cs : List Char) :
    (encoded cs).rtakeWhile (· ≠ newline) = encoded (cs.rtakeWhile (· ≠ '\n')) := by
  induction cs using List.reverseRecOn with
  | nil => rfl
  | append_singleton cs c ih =>
    rw [encoded_append, encoded_cons, encoded_nil, List.append_nil]
    by_cases hc : c = '\n'
    · subst hc
      rw [encodeChar_newline, List.rtakeWhile_concat_neg _ _ _ (by simp),
        List.rtakeWhile_concat_neg _ _ _ (by simp)]
      rfl
    · have hall : ∀ b ∈ (String.utf8EncodeChar c).reverse, decide (b ≠ newline) = true := by
        intro b hb
        have hne : b ≠ newline := fun h => newline_not_mem_encodeChar hc (h ▸ List.mem_reverse.1 hb)
        simpa using hne
      rw [List.rtakeWhile_concat_pos _ _ _ (by simpa using hc), encoded_append, ← ih,
        List.rtakeWhile, List.rtakeWhile, List.reverse_append, List.takeWhile_append_of_pos hall]
      simp

namespace LineIndex

/-- **The position of an offset** points at what stands there. -/
theorem pointsAt_position {text lexeme : String} {front after : List Char}
    (htext : text.toList = front ++ lexeme.toList ++ after) :
    ((ofText text).position (byteLength front)).PointsAt text lexeme := by
  have hfront : bytesBefore text (byteLength front) = encoded front := by
    rw [bytesBefore, utf8Bytes_eq, htext, List.append_assoc, encoded_append, ← length_encoded,
      List.take_left]
  have hcut : front.rdropWhile (· ≠ '\n') ++ front.rtakeWhile (· ≠ '\n') = front :=
    List.rdropWhile_append_rtakeWhile
  have hleft : '\n' ∉ front.rtakeWhile (· ≠ '\n') := by
    intro hmem
    simpa using List.mem_rtakeWhile_imp hmem
  refine ⟨front.rdropWhile (· ≠ '\n'), front.rtakeWhile (· ≠ '\n'), after, ?_, ?_, ?_, hleft, ?_⟩
  · rw [htext, hcut]
  · rw [position_eq, hfront, count_encoded]
    conv_rhs => rw [← hcut, List.count_append, List.count_eq_zero.2 hleft, Nat.add_zero]
  · by_cases hnil : front.rdropWhile (· ≠ '\n') = []
    · exact .inl hnil
    · right
      have hlast := List.rdropWhile_last_not (· ≠ '\n') front hnil
      rw [List.getLast?_eq_some_getLast hnil]
      simpa using hlast
  · rw [position_eq, hfront, rtakeWhile_encoded, length_encoded]

end LineIndex

namespace Token

theorem exists_of_mem_scanFrom {offset : Nat} {cs : List Char} {t : Token}
    (h : t ∈ scanFrom offset cs) : ∃ front after, cs = front ++ t.text.toList ++ after ∧
      t.offset = offset + byteLength front := by
  induction offset, cs using scanFrom.induct with
  | case1 offset => simp at h
  | case2 offset c cs step lexeme ih =>
    rw [scanFrom] at h
    rcases List.mem_cons.1 h with rfl | h
    · exact ⟨[], (c :: cs).drop step.2, by simp [step], rfl⟩
    · obtain ⟨front, after, hcut, hoffset⟩ := ih h
      refine ⟨lexeme ++ front, after, ?_, ?_⟩
      · rw [List.append_assoc, List.append_assoc, ← List.append_assoc front, ← hcut]
        exact (List.take_append_drop step.2 (c :: cs)).symm
      · rw [hoffset, byteLength_append, Nat.add_assoc]

/-- The text of a token stands at its offset in the text that was scanned. -/
theorem exists_of_mem_scan {text : String} {t : Token} (h : t ∈ scan text) :
    ∃ front after, text.toList = front ++ t.text.toList ++ after ∧
      t.offset = byteLength front := by
  simpa using exists_of_mem_scanFrom h

end Token
end Bindery
