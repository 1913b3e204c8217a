import JsonTemplate.Proofs.Evaluation.Errors
import JsonTemplate.Proofs.Evaluation.Height
import JsonTemplate.Proofs.Evaluation.Joining

/-! Places in arrays and texts. An array and a text have the places of the list of their parts, and
its length is what they count. A negative place is counted from the end: with the length added it is
another place, and still a word. The parts of a text are its pieces without a separator, so that
joining what stands at all places gives the text back. -/

namespace JsonTemplate.Value

variable {v : Value} {parts : List Value} {i : Int}

/-! ### Items of lists -/

section Items
variable {α β : Type} {items : List α}

theorem itemAt_map (f : α → β) (items : List α) (place : Value) :
    itemAt (items.map f) place = f <$> itemAt items place := by
  rw [itemAt_eq_resolve, itemAt_eq_resolve, List.length_map]
  cases resolve items.length place with
  | error e => rfl
  | ok n =>
    change taken (items.map f) n = f <$> taken items n
    rw [taken, taken, List.getElem?_map, List.length_map]
    cases items[n]? <;> rfl

theorem fromFront_inRange {length : Nat} :
    (0 ≤ fromFront length i ∧ fromFront length i < length) ↔
      -(length : Int) ≤ i ∧ i < length := by
  unfold fromFront
  split <;> omega

theorem itemAt_inRange (hi : isInt64 i) (h : -(items.length : Int) ≤ i ∧ i < items.length) :
    itemAt items (.int i) = taken items (fromFront items.length i).toNat := by
  rw [itemAt_eq_resolve, int, resolve, Number.position?, Number.word?_int hi]
  simp only [if_pos (fromFront_inRange.2 h)]
  rfl

theorem itemAt_outOfRange (hi : isInt64 i) (h : ¬(-(items.length : Int) ≤ i ∧ i < items.length)) :
    itemAt items (.int i) = .error (.indexOutOfRange i items.length) := by
  rw [itemAt_eq_resolve, int, resolve, Number.position?, Number.word?_int hi]
  simp only [if_neg (mt fromFront_inRange.1 h)]
  rfl

theorem exists_itemAt_iff (hi : isInt64 i) :
    (∃ item, itemAt items (.int i) = .ok item) ↔
      -(items.length : Int) ≤ i ∧ i < items.length := by
  constructor
  · rintro ⟨item, hitem⟩
    refine Decidable.byContradiction fun h => ?_
    rw [itemAt_outOfRange hi h] at hitem
    cases hitem
  · intro h
    have hplace := fromFront_inRange.2 h
    rw [itemAt_inRange hi h, taken_eq_ok (by omega)]
    exact ⟨_, rfl⟩

/-- A negative place is the one that it is counted from the front. -/
theorem itemAt_negative (hi : isInt64 i) (hlength : isInt64 items.length) (hneg : i < 0)
    (h : -(items.length : Int) ≤ i) :
    itemAt items (.int i) = itemAt items (.int (i + items.length)) := by
  have hword : isInt64 (i + items.length) := by
    unfold isInt64 at *
    omega
  have hsame : fromFront items.length (i + items.length) = fromFront items.length i := by
    unfold fromFront
    rw [if_pos hneg, if_neg (by omega)]
  rw [itemAt_inRange hi (by omega), itemAt_inRange hword (by omega), hsame]

theorem itemAt_natCast {k : Nat} (hword : isInt64 k) (hk : k < items.length) :
    itemAt items (.int k) = .ok items[k] := by
  rw [itemAt_inRange hword (by omega), fromFront, if_neg (by omega), Int.toNat_natCast,
    taken_eq_ok hk]

end Items

/-! ### Parts of values -/

/-- What stands at the places of a value: the items of an array, the characters of a text. -/
def parts? : Value → Option (List Value)
  | .array items => some items
  | .string s => some (s.toList.map fun c => .string (String.ofList [c]))
  | _ => none

theorem exists_parts (h : v.kind = .array ∨ v.kind = .string) : ∃ parts, v.parts? = some parts := by
  cases v with
  | array | string => exact ⟨_, rfl⟩
  | _ => rcases h with h | h <;> cases h

theorem index_of_parts (h : v.parts? = some parts) (place : Value) :
    v.index place = itemAt parts place := by
  cases v with
  | array items =>
    cases h
    rfl
  | string s =>
    cases h
    rw [itemAt_map]
    rfl
  | _ => cases h

theorem len_of_parts (h : v.parts? = some parts) :
    Builtin.len.call [v] = .ok (.int parts.length) := by
  cases v with
  | array items =>
    cases h
    rfl
  | string s =>
    cases h
    rw [List.length_map, String.length_toList]
    rfl
  | _ => cases h

/-- Without a separator, the pieces of a text are its parts. -/
theorem split_of_parts {s : String} (h : (Value.string s).parts? = some parts) :
    Builtin.split.call [.string s, .string ""] = .ok (.array parts) := by
  cases h
  rw [Builtin.split_call, Text.pieces_empty, List.map_map]
  rfl

/-- The places from the front hold all parts. -/
theorem mapM_index_of_parts (h : v.parts? = some parts) (hlength : isInt64 parts.length) :
    (List.range parts.length).mapM (fun k : Nat => v.index (.int k)) = .ok parts := by
  have hget (k : Nat) (hk : k < parts.length) : parts.getD k .null = parts[k] := by
    rw [List.getD_eq_getElem?_getD, List.getElem?_eq_getElem hk, Option.getD_some]
  have hall : (List.range parts.length).map (fun k => parts.getD k .null) = parts := by
    refine List.ext_getElem (by simp) fun k _ hk => ?_
    rw [List.getElem_map, List.getElem_range, hget k hk]
  refine (Expr.mapM_eq_pure fun k hk => ?_).trans (congrArg Except.ok hall)
  have hk : k < parts.length := List.mem_range.1 hk
  have hword : isInt64 k := by
    unfold isInt64 at *
    omega
  rw [index_of_parts h, itemAt_natCast hword hk, hget k hk]
  rfl

/-- Arrays and texts are indexed as they are counted. There is something at the places less than the
length from either end, and there is no other place, whatever the word. A text has the same at its
places as the list of its characters has, and joining all of it gives the text back. -/
theorem index_counts_as_len :
    (∀ v : Value, v.kind = .array ∨ v.kind = .string → ∃ n : Nat,
      Builtin.len.call [v] = .ok (.int n) ∧ ∀ i, isInt64 i →
        ((∃ w, v.index (.int i) = .ok w) ↔ -(n : Int) ≤ i ∧ i < n) ∧
        (¬(-(n : Int) ≤ i ∧ i < n) → v.index (.int i) = .error (.indexOutOfRange i n)) ∧
        (isInt64 n → i < 0 → isInt64 (i + n) ∧
          (-(n : Int) ≤ i → v.index (.int i) = v.index (.int (i + n))))) ∧
    ∀ s : String,
      (∀ place, (Value.string s).index place =
        Builtin.split.call [.string s, .string ""] >>= fun pieces => pieces.index place) ∧
      (isInt64 s.length → ∃ chars,
        (List.range s.length).mapM (fun k : Nat => (Value.string s).index (.int k)) =
          .ok chars ∧
        Builtin.join.call [.array chars, .string ""] = .ok (.string s)) := by
  refine ⟨fun v hv => ?_, fun s => ⟨fun place => ?_, fun hlength => ?_⟩⟩
  · obtain ⟨parts, hparts⟩ := exists_parts hv
    refine ⟨parts.length, len_of_parts hparts, fun i hi => ?_⟩
    simp only [index_of_parts hparts]
    refine ⟨exists_itemAt_iff hi, itemAt_outOfRange hi, fun hlength hneg => ⟨?_, ?_⟩⟩
    · unfold isInt64 at *
      omega
    · exact itemAt_negative hi hlength hneg
  · rw [split_of_parts rfl, index_of_parts rfl]
    rfl
  · have hpieces : (Value.string s).parts? = some ((Text.pieces "" s).map .string) := by
      rw [Text.pieces_empty, List.map_map]
      rfl
    have hcount : ((Text.pieces "" s).map Value.string).length = s.length := by
      rw [Text.pieces_empty, List.length_map, List.length_map, String.length_toList]
    rw [← hcount] at hlength ⊢
    refine ⟨_, mapM_index_of_parts hpieces hlength, ?_⟩
    rw [Builtin.join_call, Text.intercalate_pieces]

/-- A text of two characters and three bytes, at its places and at the least word. -/
theorem index_counts_as_len_ends :
    (Value.string "h\u00E9").index (.int (-1)) = (Value.string "h\u00E9").index (.int 1) ∧
      (∃ w, (Value.string "h\u00E9").index (.int (-2)) = .ok w) ∧
      (Value.string "h\u00E9").index (.int (-9223372036854775808)) =
        .error (.indexOutOfRange (-9223372036854775808) 2) ∧
      ∃ chars,
        (List.range "h\u00E9".length).mapM
          (fun k : Nat => (Value.string "h\u00E9").index (.int k)) = .ok chars ∧
        Builtin.join.call [.array chars, .string ""] = .ok (.string "h\u00E9") := by
  obtain ⟨hplaces, htexts⟩ := index_counts_as_len
  obtain ⟨n, hn, hindex⟩ := hplaces (.string "h\u00E9") (.inr rfl)
  have hlength : "h\u00E9".length = 2 := by decide
  obtain rfl : n = 2 := by
    change Except.ok (Value.int "h\u00E9".length) = _ at hn
    rw [hlength] at hn
    simp only [int, Except.ok.injEq, number.injEq, Number.int.injEq] at hn
    omega
  obtain ⟨-, -, hnegative⟩ := hindex (-1) (by decide)
  obtain ⟨hfound, -⟩ := hindex (-2) (by decide)
  obtain ⟨-, hleast, -⟩ := hindex (-9223372036854775808) (by decide)
  exact ⟨(hnegative (by decide) (by decide)).2 (by decide), hfound.2 (by decide),
    hleast (by decide), (htexts _).2 (by rw [hlength]; decide)⟩

end JsonTemplate.Value
