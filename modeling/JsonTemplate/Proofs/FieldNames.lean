import JsonTemplate.Proofs.Lexing.Rendering
import JsonTemplate.Proofs.Sentences

/-! Words as names of fields, behind a dot and as keys of maps. A word names the field that it
spells, reserved or not, with one exception: nil has two spellings, and as a name both stand for
the field `nil`. -/

namespace JsonTemplate

open Token (Kind)
open Grammar (Phrase FieldName EntryKey Sentence)

/-! ### The names of words -/

/-- The field that a word names. -/
def Keyword.fieldOf (word : String) : String := if word = "null" then "nil" else word

theorem Keyword.mem_spellings {word : String} {k : Keyword} (h : ofText? word = some k) :
    (word, k) ∈ spellings := by
  obtain ⟨before, after, hsplit, -⟩ := List.lookup_eq_some_iff.1 h
  rw [hsplit]
  simp

theorem Token.Kind.text_ofWord (word : String) : (ofWord word).text = Keyword.fieldOf word := by
  unfold ofWord
  cases h : Keyword.ofText? word with
  | none =>
    have hnull : word ≠ "null" := by
      rintro rfl
      cases h
    exact (if_neg hnull).symm
  | some k =>
    have hspelling := Keyword.mem_spellings h
    simp only [Keyword.spellings, List.mem_cons, Prod.mk.injEq, List.not_mem_nil, or_false]
      at hspelling
    rcases hspelling with ⟨rfl, rfl⟩ | ⟨rfl, rfl⟩ | ⟨rfl, rfl⟩ | ⟨rfl, rfl⟩ | ⟨rfl, rfl⟩ |
      ⟨rfl, rfl⟩ | ⟨rfl, rfl⟩ | ⟨rfl, rfl⟩ <;> rfl

theorem Grammar.fieldName_ofWord (word : String) :
    FieldName (.ofWord word) (Keyword.fieldOf word) := by
  rw [← Kind.text_ofWord]
  unfold Kind.ofWord
  split
  · exact .keyword _
  · exact .identifier _

/-! ### Tokens without blanks between them -/

namespace Lexer

variable {word : String} {c : Char} {rest : List Char} {kinds : List Kind}

/-- A symbol that starts no other symbol is read whatever is behind it. -/
theorem Spells.symbol (symbol : Symbol)
    (h : symbol ∈
      [Symbol.minus, .dot, .colon, .leftBracket, .rightBracket, .leftBrace, .rightBrace])
    (hrest : Spells rest kinds) : Spells (symbol.chars ++ rest) (.symbol symbol :: kinds) := by
  refine .lexeme (.symbol ?_) hrest
  simp only [List.mem_cons, List.not_mem_nil, or_false] at h
  rcases h with rfl | rfl | rfl | rfl | rfl | rfl | rfl <;> rfl

theorem Spells.wordBefore (h : IsName word.toList) (hc : ¬isWordChar c)
    (hrest : Spells (c :: rest) kinds) :
    Spells (word.toList ++ c :: rest) (.ofWord word :: kinds) := by
  refine .lexeme (h.lexeme ?_) hrest
  rintro _ ⟨⟩
  exact hc

theorem spells_word (h : IsName word.toList) : Spells word.toList [.ofWord word] := by
  have hspells : Spells (word.toList ++ []) [.ofWord word] := .lexeme (h.lexeme nofun) spells_nil
  rwa [List.append_nil] at hspells

theorem stringText_of_isWordChar {s : List Char} (h : ∀ c ∈ s, isWordChar c) :
    StringText '\'' s s := by
  induction s with
  | nil => exact .nil
  | cons c more ih =>
    obtain ⟨hc, hmore⟩ := List.forall_mem_cons.1 h
    refine .plain ?_ ?_ (ih hmore)
    · rintro rfl
      cases hc
    · rintro rfl
      cases hc

theorem Spells.quoted (h : IsName word.toList) (hrest : Spells rest kinds) :
    Spells ('\'' :: (word.toList ++ '\'' :: rest)) (.string word :: kinds) := by
  have hstring := @Lexeme.string _ _ _ rest (.inl rfl) (stringText_of_isWordChar h.isWordChar)
  have hspells := Spells.lexeme hstring hrest
  simpa using hspells

end Lexer

/-! ### Fields of `x` and maps of one entry -/

namespace Program

open Lexer (IsName Spells)

variable {o : Options} {word : String} {context fields : Fields Value}

theorem spells_x {c : Char} {rest : List Char} {kinds : List Kind} (hc : ¬Lexer.isWordChar c)
    (h : Spells (c :: rest) kinds) : Spells ('x' :: c :: rest) (.identifier "x" :: kinds) :=
  have hx : IsName "x".toList := ⟨'x', [], rfl, by decide, List.forall_mem_nil _⟩
  .wordBefore hx hc h

/-- The field behind a dot is the one that the word names. -/
theorem evaluates_member (h : IsName word.toList)
    (hx : Scope.get? ⟨context, o.globals⟩ "x" = some (.object fields)) :
    Evaluates o ("x." ++ word) context ((fields.get? (Keyword.fieldOf word)).getD .null) := by
  have hspells : Spells ("x." ++ word).toList [.identifier "x", .symbol .dot, .ofWord word] := by
    rw [String.toList_append]
    exact spells_x (by decide) (.symbol .dot (by decide) (Lexer.spells_word h))
  have hmember : Sentence [.identifier "x", .symbol .dot, .ofWord word]
      (.member default (.identifier default "x") ⟨Keyword.fieldOf word, default⟩) :=
    Phrase.sentence (.member default _ (.tighter .access (.identifier default "x"))
      (Grammar.fieldName_ofWord word))
  refine evaluates_of_sentence hspells hmember (by simp [nestingLimit]) (fun _ => rfl) ?_
  simp only [Expr.eval, hx]
  rfl

/-- The field between brackets is the one that stands in the quotes. -/
theorem evaluates_index (h : IsName word.toList)
    (hx : Scope.get? ⟨context, o.globals⟩ "x" = some (.object fields)) :
    Evaluates o ("x['" ++ word ++ "']") context ((fields.get? word).getD .null) := by
  have hspells : Spells ("x['" ++ word ++ "']").toList
      [.identifier "x", .symbol .leftBracket, .string word, .symbol .rightBracket] := by
    rw [String.toList_append, String.toList_append, List.append_assoc]
    exact spells_x (by decide) (.symbol .leftBracket (by decide)
      (.quoted h (.symbol .rightBracket (by decide) Lexer.spells_nil)))
  have hindex : Sentence
      [.identifier "x", .symbol .leftBracket, .string word, .symbol .rightBracket]
      (.index default (.identifier default "x") (.string default word)) :=
    Phrase.sentence (.index default (.tighter .access (.identifier default "x"))
      (Phrase.sentence (.tighter .access (.literal (.string default word)))))
  refine evaluates_of_sentence hspells hindex (by simp [nestingLimit]) (fun _ => rfl) ?_
  simp only [Expr.eval, hx]
  rfl

/-- A map of one entry, given the token of its key. -/
theorem evaluates_map {source key : String} (kind : Kind)
    (hspells : Spells source.toList
      [.symbol .leftBrace, kind, .symbol .colon, .int 1, .symbol .rightBrace])
    (hkey : EntryKey kind key) : Evaluates o source context (.object [(key, .int 1)]) := by
  have hmap : Sentence [.symbol .leftBrace, kind, .symbol .colon, .int 1, .symbol .rightBrace]
      (.map default [(key, .int default 1)]) :=
    Phrase.sentence (.tighter .access (.map default (.lastEntry (.entry hkey
      (Phrase.sentence (.tighter .access (.literal (.int default 1))))))))
  refine evaluates_of_sentence hspells hmap (by simp [nestingLimit]) (fun _ => rfl) ?_
  rfl

/-- The rest of a map of one entry, behind its key. -/
theorem spells_behindKey :
    Spells ": 1\x7d".toList [.symbol .colon, .int 1, .symbol .rightBrace] := by
  have hone : Lexer.Lexeme ['1'] (.int 1) ['\x7d'] := .number rfl rfl rfl (by decide +kernel)
  have hend : Spells ['\x7d'] [.symbol .rightBrace] :=
    .symbol .rightBrace (by decide) Lexer.spells_nil
  have hblank : ∀ c ∈ [' '], Lexer.isSpace c := List.forall_mem_singleton.2 rfl
  exact .symbol .colon (by decide) (.token hblank hone hend)

theorem evaluates_bareKey (h : IsName word.toList) :
    Evaluates o ("\x7b" ++ word ++ ": 1\x7d") context
      (.object [(Keyword.fieldOf word, .int 1)]) := by
  refine evaluates_map (.ofWord word) ?_ (.name (Grammar.fieldName_ofWord word))
  rw [String.toList_append, String.toList_append, List.append_assoc]
  exact .symbol .leftBrace (by decide) (.wordBefore h (by decide) spells_behindKey)

theorem evaluates_quotedKey (h : IsName word.toList) :
    Evaluates o ("\x7b'" ++ word ++ "': 1\x7d") context (.object [(word, .int 1)]) := by
  refine evaluates_map (.string word) ?_ (.string word)
  rw [String.toList_append, String.toList_append, List.append_assoc]
  exact .symbol .leftBrace (by decide) (.quoted h spells_behindKey)

/-! ### Where a word means what it spells -/

theorem fieldOf_of_ne_null (h : word ≠ "null") : Keyword.fieldOf word = word := if_neg h

theorem fieldOf_null : Keyword.fieldOf "null" = "nil" := if_pos rfl

theorem isName_null : IsName "null".toList :=
  ⟨_, _, rfl, by decide, List.all_eq_true.1 (by decide)⟩

/-- Of the fields `nil` and `null`, an object may have the second one only. -/
theorem not_evaluates_null_member :
    ¬∃ v, Evaluates o ("x." ++ "null") [("x", .object [("null", .int 1)])] v ∧
      Evaluates o ("x['" ++ "null" ++ "']") [("x", .object [("null", .int 1)])] v := by
  rintro ⟨v, hdot, hbracket⟩
  have hnil := hdot.unique (evaluates_member isName_null rfl)
  have hone := hbracket.unique (evaluates_index isName_null rfl)
  rw [fieldOf_null] at hnil
  rw [hnil] at hone
  simp [Fields.get?, Value.int] at hone

theorem not_evaluates_null_key :
    ¬∃ v, Evaluates o ("\x7b" ++ "null" ++ ": 1\x7d") context v ∧
      Evaluates o ("\x7b'" ++ "null" ++ "': 1\x7d") context v := by
  rintro ⟨v, hbare, hquoted⟩
  have hnil := hbare.unique (evaluates_bareKey isName_null)
  have hnull := hquoted.unique (evaluates_quotedKey isName_null)
  rw [fieldOf_null] at hnil
  rw [hnil] at hnull
  simp at hnull

/-- A word behind a dot means the same as in quotes between brackets, and a word as the key of a
map the same as in quotes, exactly if it is not `null`. This word names the field `nil`. -/
theorem word_means_spelling_iff (o : Options) {word : String} (h : IsName word.toList) :
    ((∀ context fields, Scope.get? ⟨context, o.globals⟩ "x" = some (.object fields) →
        ∃ v, Evaluates o ("x." ++ word) context v ∧
          Evaluates o ("x['" ++ word ++ "']") context v) ↔ word ≠ "null") ∧
      ((∀ context, ∃ v, Evaluates o ("\x7b" ++ word ++ ": 1\x7d") context v ∧
          Evaluates o ("\x7b'" ++ word ++ "': 1\x7d") context v) ↔ word ≠ "null") ∧
      ∀ context,
        (∀ fields, Scope.get? ⟨context, o.globals⟩ "x" = some (.object fields) →
          Evaluates o ("x." ++ word) context
            ((Fields.get? (if word = "null" then "nil" else word) fields).getD .null)) ∧
        Evaluates o ("\x7b" ++ word ++ ": 1\x7d") context
          (.object [(if word = "null" then "nil" else word, .int 1)]) := by
  refine ⟨⟨?_, fun hne context fields hx => ?_⟩, ⟨?_, fun hne context => ?_⟩, fun context => ?_⟩
  · rintro hsame rfl
    exact not_evaluates_null_member (hsame _ _ rfl)
  · refine ⟨_, evaluates_member h hx, ?_⟩
    rw [fieldOf_of_ne_null hne]
    exact evaluates_index h hx
  · rintro hsame rfl
    exact not_evaluates_null_key (hsame [])
  · refine ⟨_, evaluates_bareKey h, ?_⟩
    rw [fieldOf_of_ne_null hne]
    exact evaluates_quotedKey h
  · exact ⟨fun fields hx => evaluates_member h hx, evaluates_bareKey h⟩

/-- The operator `in` names the field `in`. -/
theorem word_means_spelling_in :
    IsName "in".toList ∧
      (∀ context fields,
        Scope.get? ⟨context, Options.empty.globals⟩ "x" = some (.object fields) →
        ∃ v, Evaluates .empty ("x." ++ "in") context v ∧
          Evaluates .empty ("x['" ++ "in" ++ "']") context v) ∧
      ∀ context, ∃ v, Evaluates .empty ("\x7b" ++ "in" ++ ": 1\x7d") context v ∧
        Evaluates .empty ("\x7b'" ++ "in" ++ "': 1\x7d") context v := by
  have hname : IsName "in".toList := ⟨_, _, rfl, by decide, List.all_eq_true.1 (by decide)⟩
  obtain ⟨hmember, hkey, -⟩ := word_means_spelling_iff .empty hname
  exact ⟨hname, hmember.2 (by decide), hkey.2 (by decide)⟩

/-- The field `null` of an object is not found behind a dot. -/
theorem null_names_another_field :
    Scope.get? ⟨[("x", .object [("null", .int 1)])], Options.empty.globals⟩ "x" =
        some (.object [("null", .int 1)]) ∧
      ¬∃ v, Evaluates .empty "x.null" [("x", .object [("null", .int 1)])] v ∧
        Evaluates .empty "x['null']" [("x", .object [("null", .int 1)])] v := by
  have hdot : "x.null" = "x." ++ "null" := by decide
  have hbracket : "x['null']" = "x['" ++ "null" ++ "']" := by decide
  rw [hdot, hbracket]
  exact ⟨rfl, not_evaluates_null_member⟩

end Program

end JsonTemplate
