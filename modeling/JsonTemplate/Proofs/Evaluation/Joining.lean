import JsonTemplate.Expr.Builtin
import JsonTemplate.Proofs.Text.Splitting

/-! Splitting and joining as functions of expressions. Joining undoes splitting for every separator,
also where it is empty or overlaps with itself, and splitting at a character undoes joining. A text
is split where the operator for parts of texts finds the separator. -/

namespace JsonTemplate.Builtin

theorem split_call (t s : String) :
    split.call [.string t, .string s] = .ok (.array ((Text.pieces s t).map .string)) := rfl

theorem join_call (xs : List String) (s : String) :
    join.call [.array (xs.map .string), .string s] = .ok (.string (s.intercalate xs)) := by
  have htexts : (xs.map Value.string).map Value.displayText = xs := by
    rw [List.map_map]
    exact List.map_id xs
  change Except.ok (joinItems s (xs.map .string)) = _
  rw [joinItems, htexts]

/-- The operator gives whatever decides that the one text is inside the other. -/
theorem isIn_call {s t : String} {found : Bool} (h : found = true ↔ s.toList <:+: t.toList) :
    BinaryOp.isIn.apply (.string s) (.string t) = .ok (.bool found) := by
  change Except.ok (Value.bool (Text.occursIn s.toList t.toList)) = _
  rw [Bool.eq_iff_iff.2 (Text.occursIn_iff.trans h.symm)]

/-- A text is given back by joining its pieces. A separator that is not empty is in none of them,
and there is more than one of them exactly if the separator is in the text. Texts that a character
is not in are given back by splitting what joins them. -/
theorem join_split_inverse :
    (∀ t s : String, ∃ pieces : List String,
      split.call [.string t, .string s] = .ok (.array (pieces.map .string)) ∧
      join.call [.array (pieces.map .string), .string s] = .ok (.string t) ∧
      (s ≠ "" → (∀ piece ∈ pieces, ¬s.toList <:+: piece.toList) ∧
        BinaryOp.isIn.apply (.string s) (.string t) =
          .ok (.bool (decide (1 < pieces.length))))) ∧
    ∀ (c : Char) (xs : List String), xs ≠ [] → (∀ x ∈ xs, c ∉ x.toList) → ∃ t : String,
      join.call [.array (xs.map .string), .string (String.singleton c)] = .ok (.string t) ∧
      split.call [.string t, .string (String.singleton c)] = .ok (.array (xs.map .string)) := by
  refine ⟨fun t s => ⟨Text.pieces s t, split_call t s, ?_, fun hs => ⟨?_, ?_⟩⟩,
    fun c xs hne hxs => ⟨_, join_call xs _, ?_⟩⟩
  · rw [join_call, Text.intercalate_pieces]
  · exact fun piece => Text.not_infix_of_mem_pieces (mt String.toList_eq_nil_iff.1 hs)
  · have hcount := Text.one_lt_length_pieces (t := t) (mt String.toList_eq_nil_iff.1 hs)
    exact isIn_call (decide_eq_true_iff.trans hcount)
  · rw [split_call, Text.pieces_intercalate hne hxs]

/-- A separator that overlaps with itself, and a text that starts and ends with separators. -/
theorem join_split_inverse_overlap :
    (∃ pieces : List String,
      split.call [.string "aaa", .string "aa"] = .ok (.array (pieces.map .string)) ∧
      join.call [.array (pieces.map .string), .string "aa"] = .ok (.string "aaa") ∧
      (∀ piece ∈ pieces, ¬"aa".toList <:+: piece.toList) ∧
      BinaryOp.isIn.apply (.string "aa") (.string "aaa") =
        .ok (.bool (decide (1 < pieces.length)))) ∧
    ∃ t : String,
      join.call [.array (["", "b", ""].map .string), .string (String.singleton ',')] =
        .ok (.string t) ∧
      split.call [.string t, .string (String.singleton ',')] =
        .ok (.array (["", "b", ""].map .string)) := by
  obtain ⟨hsplit, hjoin⟩ := join_split_inverse
  obtain ⟨pieces, hpieces, hback, hapart⟩ := hsplit "aaa" "aa"
  exact ⟨⟨pieces, hpieces, hback, hapart (by decide)⟩,
    hjoin ',' ["", "b", ""] (List.cons_ne_nil _ _) (by decide)⟩

end JsonTemplate.Builtin
