import JsonTemplate.Text.Blank
import JsonTemplate.Proofs.Lexing.Places
import JsonTemplate.Proofs.Text.Runs

/-! The texts of tokens. A lexeme is a text that is read as a token, with what is behind it: a word
or a number goes on as far as it can, a string to its closing quote, and of two symbols the longer
one is read. What is behind a lexeme never makes it anything else but longer, so a lexeme on its
own is one of the same token. -/

namespace JsonTemplate.Lexer

open Token (Kind)

variable {s text rest : List Char} {kind : Kind} {p start : Position} {n : Nat}

theorem skip_append (text rest : List Char) (p : Position) :
    Cursor.skip text.length ⟨text ++ rest, p⟩ = ⟨rest, after p text⟩ := by
  simp only [Cursor.skip, List.drop_left, List.take_left]

/-! ### Characters -/

/-- There are five blanks. -/
theorem forall_isSpace {p : Char → Prop} (h : p ' ' ∧ p '\t' ∧ p '\n' ∧ p '\x0c' ∧ p '\r')
    {c : Char} (hc : isSpace c) : p c := by
  simp only [isSpace, Bool.or_eq_true, beq_iff_eq, or_assoc] at hc
  obtain ⟨hspace, htab, hnewline, hfeed, hreturn⟩ := h
  rcases hc with rfl | rfl | rfl | rfl | rfl <;> assumption

theorem isBlank_of_isSpace {c : Char} (h : isSpace c) : Text.isBlank c :=
  forall_isSpace (p := fun c => Text.isBlank c) (by decide) h

/-- No blank is part of a word, also none that is not allowed between tokens. -/
theorem not_isBlank_of_isWordChar {c : Char} (h : isWordChar c) : ¬Text.isBlank c := by
  unfold isWordChar Char.isAlphanum Char.isAlpha Char.isUpper Char.isLower Char.isDigit at h
  simp only [Bool.or_eq_true, Bool.and_eq_true, decide_eq_true_eq, beq_iff_eq,
    UInt32.le_iff_toNat_le, ge_iff_le] at h
  change (((65 ≤ c.toNat ∧ c.toNat ≤ 90) ∨ (97 ≤ c.toNat ∧ c.toNat ≤ 122)) ∨
    (48 ≤ c.toNat ∧ c.toNat ≤ 57)) ∨ c = '_' at h
  have hlow : 32 < c.toNat ∧ c.toNat < 128 := by
    rcases h with ((h | h) | h) | rfl
    · omega
    · omega
    · omega
    · decide
  simp only [Text.isBlank, Bool.or_eq_true, Bool.and_eq_true, decide_eq_true_eq, beq_iff_eq]
  omega

/-- A blank starts nothing and goes on with nothing. -/
theorem not_isWordChar_of_isSpace {c : Char} (h : isSpace c) : ¬isWordChar c := fun hc =>
  not_isBlank_of_isWordChar hc (isBlank_of_isSpace h)

theorem isWordChar_iff {c : Char} : isWordChar c ↔ isWordStart c ∨ c.isDigit := by
  simp only [isWordChar, isWordStart, Char.isAlphanum, Bool.or_eq_true]
  exact or_right_comm

theorem isWordChar_of_isDigit {c : Char} (h : c.isDigit) : isWordChar c :=
  isWordChar_iff.2 (.inr h)

theorem isWordChar_of_isDigitOrMark {c : Char} (h : isDigitOrMark c) : isWordChar c := by
  rcases Bool.or_eq_true_iff.1 h with hdigit | hmark
  · exact isWordChar_of_isDigit hdigit
  · exact Bool.or_eq_true_iff.2 (.inr hmark)

theorem not_isDigit_of_isWordStart {c : Char} (h : isWordStart c) : ¬c.isDigit := by
  rcases Bool.or_eq_true_iff.1 h with hletter | hmark
  · unfold Char.isAlpha Char.isUpper Char.isLower at hletter
    unfold Char.isDigit
    grind
  · rw [eq_of_beq hmark]
    decide

def IsQuote (c : Char) : Prop := c = '\'' ∨ c = '"'

/-- What starts with a character: a string, a number, a word or anything else. -/
theorem start_cases (c : Char) :
    IsQuote c ∨ c.isDigit ∨ isWordStart c ∨ ¬IsQuote c ∧ ¬isWordChar c := by
  by_cases hquote : IsQuote c
  · exact .inl hquote
  by_cases hword : isWordChar c
  · exact .inr ((isWordChar_iff.1 hword).elim (.inr ∘ .inl) .inl)
  · exact .inr (.inr (.inr ⟨hquote, hword⟩))

theorem IsQuote.ne_backslash {c : Char} (h : IsQuote c) : c ≠ '\\' := by
  rcases h with rfl | rfl <;> decide

theorem not_isWordChar_of_isQuote {c : Char} (h : IsQuote c) : ¬isWordChar c := by
  rcases h with rfl | rfl <;> decide

theorem not_isBlank_of_isQuote {c : Char} (h : IsQuote c) : ¬Text.isBlank c := by
  rcases h with rfl | rfl <;> decide

/-! ### Strings -/

/-- What stands between the quotes of a string, and the text that it stands for. -/
inductive StringText (quote : Char) : List Char → List Char → Prop where
  | nil : StringText quote [] []
  | escaped {c e : Char} {body text : List Char} : unescape? c = some e →
    StringText quote body text → StringText quote ('\\' :: c :: body) (e :: text)
  | plain {c : Char} {body text : List Char} : c ≠ '\\' → c ≠ quote →
    StringText quote body text → StringText quote (c :: body) (c :: text)

section Strings
variable {quote c e : Char}

theorem readString_escaped (h : unescape? c = some e) :
    readString quote start p ('\\' :: c :: rest) =
      (readString quote start ((p.advance '\\').advance c) rest).push e [] := by
  rw [readString, h]

theorem readString_unknown (h : unescape? c = none) :
    readString quote start p ('\\' :: c :: rest) =
      (readString quote start ((p.advance '\\').advance c) rest).push c
        [⟨.invalidEscape c, spanTo p ((p.advance '\\').advance c)⟩] := by
  rw [readString, h]

theorem readString_quote (h : quote ≠ '\\') :
    readString quote start p (quote :: rest) = ⟨[], [], ⟨rest, p.advance quote⟩⟩ := by
  rw [readString.eq_4 _ _ _ _ _ (fun hc _ => h hc) (fun _ _ hc _ => h hc), if_pos rfl]

theorem readString_plain (h : c ≠ '\\') (hquote : c ≠ quote) :
    readString quote start p (c :: rest) =
      (readString quote start (p.advance c) rest).push c [] := by
  rw [readString.eq_4 _ _ _ _ _ (fun hc _ => h hc) (fun _ _ hc _ => h hc), if_neg hquote]

theorem StringText.readString_eq {body : List Char} (h : StringText quote body text)
    (hquote : quote ≠ '\\') (start p : Position) (rest : List Char) :
    readString quote start p (body ++ quote :: rest) =
      ⟨text, [], ⟨rest, after p (body ++ [quote])⟩⟩ := by
  induction h generalizing p with
  | nil => exact readString_quote hquote
  | escaped hc _ ih =>
    rw [List.cons_append, List.cons_append, readString_escaped hc, ih]
    rfl
  | plain hc hne _ ih =>
    rw [List.cons_append, readString_plain hc hne, ih]
    rfl

/-- Where no escape is read, there is no backslash. -/
theorem ne_backslash (hlast : c = '\\' → rest = [] → False)
    (hescape : ∀ d more, c = '\\' → rest = d :: more → False) : c ≠ '\\' := by
  intro hc
  cases rest with
  | nil => exact hlast hc rfl
  | cons d more => exact hescape d more hc rfl

/-- Reading without a fault ends at a closing quote. -/
theorem stringText_of_readString (h : (readString quote start p s).faults = []) :
    ∃ body, StringText quote body (readString quote start p s).text ∧
      s = body ++ quote :: (readString quote start p s).next.rest ∧
      (readString quote start p s).next.position = after p (body ++ [quote]) := by
  fun_induction readString quote start p s with
  | case1 => cases h
  | case2 => cases h
  | case3 p c rest q e he ih =>
    obtain ⟨body, hbody, hs, hnext⟩ := ih h
    exact ⟨'\\' :: c :: body, .escaped he hbody, congrArg ('\\' :: c :: ·) hs, hnext⟩
  | case4 => cases h
  | case5 p rest => exact ⟨[], .nil, rfl, rfl⟩
  | case6 p c rest hlast hescape hquote ih =>
    obtain ⟨body, hbody, hs, hnext⟩ := ih h
    exact ⟨c :: body, .plain (ne_backslash hlast hescape) hquote hbody, congrArg (c :: ·) hs,
      hnext⟩

end Strings

/-! ### Numbers -/

/-! Each part of a number is as long if the text is cut off behind it. -/

theorem fractionLength_take (h : fractionLength s ≤ n) :
    fractionLength (s.take n) = fractionLength s := by
  unfold fractionLength at *
  split at h
  · next d more =>
    rcases n with _ | _ | n
    · exact (Nat.le_zero.1 h).symm
    · split at h
      · omega
      · next hd => simp [hd]
    · simp only [List.take_succ_cons, length_takeWhile_take]
      split_ifs at * <;> omega
  · next hs =>
    rcases s with _ | ⟨c, _ | ⟨d, more⟩⟩
    · rw [List.take_nil]
    · rcases n with _ | n <;> simp
    · rcases n with _ | _ | n
      · rfl
      · simp
      · rw [List.take_succ_cons, List.take_succ_cons]
        split
        · next d more hcut =>
          cases hcut
          exact absurd rfl (hs _ _)
        · rfl

theorem powerLength_take (h : powerLength s ≤ n) : powerLength (s.take n) = powerLength s := by
  rcases s with _ | ⟨mark, _ | ⟨sign, more⟩⟩
  · rw [List.take_nil]
  · rcases n with _ | n
    · rfl
    · simp
  · rcases n with _ | _ | n
    · exact (Nat.le_zero.1 h).symm
    · simp only [List.take_succ_cons, List.take_zero, powerLength] at h ⊢
      split_ifs at * <;> omega
    · simp only [List.take_succ_cons, powerLength] at h ⊢
      rw [← List.take_succ_cons, length_takeWhile_take, length_takeWhile_take]
      split_ifs at * <;> omega

theorem fractionLength_le (s : List Char) : fractionLength s ≤ s.length := by
  unfold fractionLength
  split
  · next d more =>
    have hrun := (List.takeWhile_prefix (l := more) isDigitOrMark).length_le
    split_ifs <;> simp only [List.length_cons] <;> omega
  · exact Nat.zero_le _

theorem powerLength_le (s : List Char) : powerLength s ≤ s.length := by
  unfold powerLength
  split
  · next mark sign more =>
    have hrun := (List.takeWhile_prefix (l := more) Char.isDigit).length_le
    have hall := (List.takeWhile_prefix (l := sign :: more) Char.isDigit).length_le
    simp only [List.length_cons] at *
    split_ifs <;> omega
  · exact Nat.zero_le _

theorem NumberParts.length_le (s : List Char) : (of s).length ≤ s.length := by
  have hwhole : (of s).whole ≤ s.length := (List.takeWhile_prefix isDigitOrMark).length_le
  have hfraction := fractionLength_le (s.drop (of s).whole)
  have hpower := powerLength_le (s.drop ((of s).whole + (of s).fraction))
  rw [List.length_drop] at hfraction hpower
  change (of s).fraction ≤ _ at hfraction
  change (of s).power ≤ _ at hpower
  rw [length]
  omega

/-- The parts of a number are found again if the text is cut off behind it. -/
theorem NumberParts.of_take (h : (of s).length ≤ n) : of (s.take n) = of s := by
  have hlength : (of s).length = (of s).whole + (of s).fraction + (of s).power := rfl
  have hwhole : (of (s.take n)).whole = (of s).whole := by
    have hle : (of s).whole ≤ n := by omega
    exact (length_takeWhile_take _ _ _).trans (Nat.min_eq_right hle)
  have hfraction : (of (s.take n)).fraction = (of s).fraction := by
    change fractionLength ((s.take _).drop (of (s.take _)).whole) = _
    rw [hwhole, List.drop_take]
    exact fractionLength_take (show (of s).fraction ≤ _ by omega)
  have hpower : (of (s.take n)).power = (of s).power := by
    change powerLength ((s.take _).drop ((of (s.take _)).whole + (of (s.take _)).fraction)) = _
    rw [hwhole, hfraction, List.drop_take]
    exact powerLength_take (show (of s).power ≤ _ by omega)
  have hparts (n : NumberParts) : n = ⟨n.whole, n.fraction, n.power⟩ := rfl
  rw [hparts (of (s.take _)), hwhole, hfraction, hpower]

section Blanks
variable {c : Char} (hc : Text.isBlank c)
include hc

theorem ne_of_isBlank {d : Char} (hd : ¬Text.isBlank d) : c ≠ d := by
  rintro rfl
  exact hd hc

theorem blank_not_mem_takeWhile {test : Char → Bool} (h : ∀ d, test d → isWordChar d)
    (s : List Char) : c ∉ s.takeWhile test :=
  fun hmem => not_isBlank_of_isWordChar (h c (mem_takeWhile _ hmem)) hc

theorem blank_not_mem_digits (s : List Char) : c ∉ s.takeWhile Char.isDigit :=
  blank_not_mem_takeWhile hc (fun _ => isWordChar_of_isDigit) s

theorem blank_not_mem_digitsOrMarks (s : List Char) : c ∉ s.takeWhile isDigitOrMark :=
  blank_not_mem_takeWhile hc (fun _ => isWordChar_of_isDigitOrMark) s

theorem blank_not_mem_fraction (s : List Char) : c ∉ s.take (fractionLength s) := by
  have hdot : c ≠ '.' := ne_of_isBlank hc (by decide)
  unfold fractionLength
  split
  · next d more =>
    split
    · next hd =>
      have hdigit : c ≠ d := ne_of_isBlank hc (not_isBlank_of_isWordChar (isWordChar_of_isDigit hd))
      have hmore := blank_not_mem_digitsOrMarks hc more
      rw [Nat.add_comm, List.take_succ_cons, List.take_succ_cons, take_length_takeWhile]
      simp only [List.mem_cons, hdot, hdigit, hmore, or_self, not_false_eq_true]
    · rw [List.take_zero]
      exact List.not_mem_nil
  · rw [List.take_zero]
    exact List.not_mem_nil

theorem blank_not_mem_power (s : List Char) : c ∉ s.take (powerLength s) := by
  unfold powerLength
  split
  · next mark sign more =>
    have hmore := blank_not_mem_digits hc more
    have hall := blank_not_mem_digits hc (sign :: more)
    simp only
    split_ifs with hmark hsign hdigits hdigits
    · exact List.not_mem_nil
    · have hfirst : c ≠ mark := ne_of_isBlank hc (by rcases hmark with rfl | rfl <;> decide)
      have hsecond : c ≠ sign := ne_of_isBlank hc (by rcases hsign with rfl | rfl <;> decide)
      rw [Nat.add_comm, List.take_succ_cons, List.take_succ_cons, take_length_takeWhile]
      simp only [List.mem_cons, hfirst, hsecond, hmore, or_self, not_false_eq_true]
    · exact List.not_mem_nil
    · have hfirst : c ≠ mark := ne_of_isBlank hc (by rcases hmark with rfl | rfl <;> decide)
      rw [Nat.add_comm, List.take_succ_cons, take_length_takeWhile]
      simp only [List.mem_cons, hfirst, hall, or_self, not_false_eq_true]
    · exact List.not_mem_nil
  · exact List.not_mem_nil

/-- There are no blanks in a number, and so it stands on one line. -/
theorem blank_not_mem_number (s : List Char) : c ∉ s.take (NumberParts.of s).length := by
  have hwhole : c ∉ s.take (NumberParts.of s).whole := by
    change c ∉ s.take (s.takeWhile isDigitOrMark).length
    rw [take_length_takeWhile]
    exact blank_not_mem_digitsOrMarks hc s
  rw [NumberParts.length, List.take_add, List.take_add, List.mem_append, List.mem_append]
  rintro ((h | h) | h)
  · exact hwhole h
  · exact blank_not_mem_fraction hc _ h
  · exact blank_not_mem_power hc _ h

end Blanks

/-! ### Lexemes -/

/-- The text is read as a token of the kind, with the rest behind it. -/
inductive Lexeme : List Char → Kind → List Char → Prop where
  | string {quote : Char} {body text rest : List Char} : IsQuote quote →
    StringText quote body text →
    Lexeme (quote :: (body ++ [quote])) (.string (String.ofList text)) rest
  | number {first : Char} {more rest : List Char} {parts : NumberParts} {kind : Kind} :
    first.isDigit → NumberParts.of (first :: more ++ rest) = parts →
    parts.length = (first :: more).length →
    numberKind? parts.isFloat ((first :: more).filter (· ≠ '_')) = some kind →
    Lexeme (first :: more) kind rest
  | word {first : Char} {more rest : List Char} : isWordStart first →
    (∀ c ∈ more, isWordChar c) → (∀ c, rest.head? = some c → ¬isWordChar c) →
    Lexeme (first :: more) (.ofWord (String.ofList (first :: more))) rest
  | symbol {symbol : Symbol} {rest : List Char} : Symbol.at? (symbol.chars ++ rest) = some symbol →
    Lexeme symbol.chars (.symbol symbol) rest

theorem not_isBlank_of_mem_chars {symbol : Symbol} {c : Char} (h : c ∈ symbol.chars) :
    ¬Text.isBlank c := by
  have hall : symbol.chars.all fun c => !Text.isBlank c := by cases symbol <;> decide
  simpa using List.all_eq_true.1 hall c h

/-- No symbol starts as another token does. -/
theorem exists_chars_symbol (symbol : Symbol) : ∃ first more, symbol.chars = first :: more ∧
    ¬IsQuote first ∧ ¬isWordChar first ∧ ¬Text.isBlank first := by
  cases symbol <;> exact ⟨_, _, rfl, by unfold IsQuote; decide⟩

section Read
variable {first : Char} {c : Cursor}

theorem read_quote (h : IsQuote first) :
    read first c =
      let body := readString first c.position (c.position.advance first) (c.rest.drop 1)
      ⟨some (.string (String.ofList body.text)), body.faults, body.next⟩ :=
  if_pos h

theorem read_digit (h : first.isDigit) : read first c = readNumber c := by
  have hquote : ¬IsQuote first := fun hq => not_isWordChar_of_isQuote hq (isWordChar_of_isDigit h)
  exact (if_neg hquote).trans (if_pos h)

theorem read_word (h : isWordStart first) : read first c = readWord c := by
  have hquote : ¬IsQuote first :=
    fun hq => not_isWordChar_of_isQuote hq (isWordChar_of_isWordStart h)
  exact (if_neg hquote).trans ((if_neg (not_isDigit_of_isWordStart h)).trans (if_pos h))

theorem read_other (hquote : ¬IsQuote first) (hword : ¬isWordChar first) :
    read first c = match Symbol.at? c.rest with
      | some symbol => ⟨some (.symbol symbol), [], c.skip symbol.chars.length⟩
      | none =>
        let next := c.skip 1
        ⟨none, [⟨.unexpectedCharacter first, spanTo c.position next.position⟩], next⟩ := by
  have hdigit : ¬first.isDigit := fun h => hword (isWordChar_of_isDigit h)
  have hstart : ¬isWordStart first := fun h => hword (isWordChar_of_isWordStart h)
  exact (if_neg hquote).trans ((if_neg hdigit).trans (if_neg hstart))

theorem readNumber_eq {parts : NumberParts} (h : NumberParts.of c.rest = parts)
    (hkind : numberKind? parts.isFloat ((c.rest.take parts.length).filter (· ≠ '_')) = some kind) :
    readNumber c = ⟨some kind, [], c.skip parts.length⟩ := by
  subst h
  simp only [readNumber, hkind]

end Read

theorem Lexeme.read_eq (h : Lexeme text kind rest) :
    ∃ first more, text = first :: more ∧
      ∀ p, read first ⟨text ++ rest, p⟩ = ⟨some kind, [], ⟨rest, after p text⟩⟩ := by
  cases h with
  | @string quote body content _ hquote hbody =>
    refine ⟨quote, _, rfl, fun p => ?_⟩
    have htext : body ++ [quote] ++ rest = body ++ quote :: rest := by simp
    simp only [read_quote hquote, List.cons_append, List.drop_succ_cons, List.drop_zero, htext,
      hbody.readString_eq hquote.ne_backslash]
    rfl
  | @number first more _ parts _ hdigit hparts hlength hkind =>
    refine ⟨first, more, rfl, fun p => ?_⟩
    rw [read_digit hdigit, readNumber_eq hparts (by rwa [hlength, List.take_left]), hlength,
      skip_append]
  | @word first more _ hfirst hmore hrest =>
    refine ⟨first, more, rfl, fun p => ?_⟩
    have hall : ∀ c ∈ first :: more, isWordChar c :=
      List.forall_mem_cons.2 ⟨isWordChar_of_isWordStart hfirst, hmore⟩
    rw [read_word hfirst, readWord]
    simp only [takeWhile_append_stop hall hrest, skip_append]
  | @symbol symbol _ hat =>
    obtain ⟨first, more, hchars, hquote, hword, -⟩ := exists_chars_symbol symbol
    refine ⟨first, more, hchars, fun p => ?_⟩
    rw [read_other hquote hword]
    simp only [hat, skip_append]

/-- A lexeme of the kind stands between two cursors. -/
def Passes (c : Cursor) (kind : Kind) (next : Cursor) : Prop :=
  ∃ text, Lexeme text kind next.rest ∧ c.rest = text ++ next.rest ∧
    next.position = after c.position text

section Passes
variable {first : Char} {more : List Char} {c next : Cursor}

theorem passes_skip (h : Lexeme (c.rest.take n) kind (c.rest.drop n)) : Passes c kind (c.skip n) :=
  ⟨_, h, (List.take_append_drop _ _).symm, rfl⟩

theorem passes_string (hc : c.rest = first :: more) (hquote : IsQuote first)
    (h : read first c = ⟨some kind, [], next⟩) : Passes c kind next := by
  obtain ⟨_, p⟩ := c
  cases hc
  obtain ⟨hkind, hfaults, rfl⟩ := Reading.mk.inj ((read_quote hquote).symm.trans h)
  obtain ⟨body, hbody, hs, hnext⟩ := stringText_of_readString hfaults
  cases hkind
  refine ⟨_, .string hquote hbody, ?_, hnext⟩
  rw [List.cons_append, List.append_assoc]
  exact congrArg (first :: ·) hs

theorem passes_number (hc : c.rest = first :: more) (hdigit : first.isDigit)
    (h : readNumber c = ⟨some kind, [], next⟩) : Passes c kind next := by
  unfold readNumber at h
  simp only at h
  split at h
  · next found hkind =>
    cases h
    have hle := NumberParts.length_le c.rest
    obtain ⟨n, hn⟩ := Nat.exists_eq_add_one.2 (numberParts_length_pos hc hdigit)
    have htext : c.rest.take (NumberParts.of c.rest).length = first :: more.take n := by
      rw [hn, hc, List.take_succ_cons]
    apply passes_skip
    rw [htext] at hkind ⊢
    refine .number hdigit ?_ ?_ hkind
    · rw [← htext]
      exact congrArg NumberParts.of (List.take_append_drop _ _)
    · rw [← htext, List.length_take_of_le hle]
  · cases h

theorem passes_word (hc : c.rest = first :: more) (hword : isWordStart first)
    (h : readWord c = ⟨some kind, [], next⟩) : Passes c kind next := by
  cases h
  have htext : c.rest.takeWhile isWordChar = first :: more.takeWhile isWordChar := by
    rw [hc, List.takeWhile_cons_of_pos (isWordChar_of_isWordStart hword)]
  apply passes_skip
  rw [take_length_takeWhile, drop_length_takeWhile, htext]
  exact .word hword mem_takeWhile fun _ => head?_dropWhile

theorem passes_symbol {symbol : Symbol} (h : Symbol.at? c.rest = some symbol) :
    Passes c (.symbol symbol) (c.skip symbol.chars.length) := by
  have hprefix := Symbol.prefix_of_at? h
  apply passes_skip
  rw [← List.prefix_iff_eq_take.1 hprefix]
  exact .symbol ((congrArg Symbol.at? (List.prefix_iff_eq_append.1 hprefix)).trans h)

/-- What is read as a token without a fault is a lexeme. -/
theorem passes_of_read (hc : c.rest = first :: more) (h : read first c = ⟨some kind, [], next⟩) :
    Passes c kind next := by
  rcases start_cases first with hquote | hdigit | hword | ⟨hquote, hother⟩
  · exact passes_string hc hquote h
  · exact passes_number hc hdigit ((read_digit hdigit).symm.trans h)
  · exact passes_word hc hword ((read_word hword).symm.trans h)
  · rw [read_other hquote hother] at h
    split at h
    · next symbol hat =>
      cases h
      exact passes_symbol hat
    · cases h

end Passes

/-- A symbol is also read if the text ends earlier behind it. -/
theorem at?_of_append {symbol : Symbol} {behind : List Char} (hsymbol : symbol.chars <+: s)
    (h : Symbol.at? (s ++ behind) = some symbol) : Symbol.at? s = some symbol := by
  unfold Symbol.at? at *
  rw [List.find?_eq_some_iff_append] at h ⊢
  obtain ⟨-, before, after, hall, hbefore⟩ := h
  refine ⟨List.isPrefixOf_iff_prefix.2 hsymbol, before, after, hall, fun other hother => ?_⟩
  have hlonger := hbefore other hother
  rw [Bool.not_eq_true', Bool.eq_false_iff] at hlonger ⊢
  exact fun hother => hlonger (List.isPrefixOf_iff_prefix.2
    ((List.isPrefixOf_iff_prefix.1 hother).trans (List.prefix_append _ _)))

/-- What is behind a lexeme is not needed to read it, and may end earlier. -/
theorem Lexeme.cut {behind : List Char} (h : Lexeme text kind (rest ++ behind)) :
    Lexeme text kind rest := by
  generalize hall : rest ++ behind = all at h
  cases h with
  | string hquote hbody => exact .string hquote hbody
  | @number first more _ parts _ hdigit hparts hlength hkind =>
    subst hall
    refine .number hdigit ?_ hlength hkind
    have hle : (NumberParts.of (first :: more ++ (rest ++ behind))).length ≤
        (first :: more ++ rest).length := by
      rw [hparts, hlength, List.length_append]
      exact Nat.le_add_right _ _
    rw [← hparts, ← NumberParts.of_take hle, ← List.append_assoc, List.take_left]
  | word hfirst hmore hrest =>
    refine .word hfirst hmore fun c hc => hrest c ?_
    rw [← hall, List.head?_append, hc]
    rfl
  | @symbol symbol _ hat =>
    refine .symbol ?_
    subst hall
    rw [← List.append_assoc] at hat
    exact at?_of_append (List.prefix_append _ _) hat

/-- A lexeme is one on its own. -/
theorem Lexeme.alone (h : Lexeme text kind rest) : Lexeme text kind [] := h.cut

/-- Numbers are integers and floats. -/
theorem numberKind?_cases {isFloat : Bool} {digits : List Char}
    (h : numberKind? isFloat digits = some kind) : (∃ n, kind = .int n) ∨ ∃ x, kind = .float x := by
  unfold numberKind? at h
  split at h
  · obtain ⟨x, -, rfl⟩ := Option.map_eq_some_iff.1 h
    exact .inr ⟨x, rfl⟩
  · split at h
    · split at h
      · cases h
        exact .inl ⟨_, rfl⟩
      · cases h
    · cases h

theorem Lexeme.ne_eof (h : Lexeme text kind rest) : kind ≠ .eof := by
  cases h with
  | string | symbol => nofun
  | number _ _ _ hkind => rcases numberKind?_cases hkind with ⟨_, rfl⟩ | ⟨_, rfl⟩ <;> nofun
  | word =>
    unfold Kind.ofWord
    split <;> nofun

theorem Lexeme.not_isBlank (h : Lexeme text kind rest) :
    ∃ first more, text = first :: more ∧ ¬Text.isBlank first := by
  cases h with
  | string hquote => exact ⟨_, _, rfl, not_isBlank_of_isQuote hquote⟩
  | number hdigit =>
    exact ⟨_, _, rfl, not_isBlank_of_isWordChar (isWordChar_of_isDigit hdigit)⟩
  | word hfirst => exact ⟨_, _, rfl, not_isBlank_of_isWordChar (isWordChar_of_isWordStart hfirst)⟩
  | @symbol symbol =>
    obtain ⟨first, more, hchars, -, -, hblank⟩ := exists_chars_symbol symbol
    exact ⟨first, more, hchars, hblank⟩

theorem Lexeme.not_isSpace (h : Lexeme text kind rest) :
    ∃ first more, text = first :: more ∧ ¬isSpace first := by
  obtain ⟨first, more, htext, hblank⟩ := h.not_isBlank
  exact ⟨first, more, htext, fun hspace => hblank (isBlank_of_isSpace hspace)⟩

theorem exists_last {first : Char} {more : List Char} (h : ∀ c ∈ first :: more, ¬Text.isBlank c) :
    ∃ init last, first :: more = init ++ [last] ∧ ¬Text.isBlank last := by
  have hne := List.cons_ne_nil first more
  exact ⟨_, _, (List.dropLast_append_getLast hne).symm, h _ (List.getLast_mem hne)⟩

/-- No token ends with a blank, though there may be blanks in a string. -/
theorem Lexeme.exists_last (h : Lexeme text kind rest) :
    ∃ init last, text = init ++ [last] ∧ ¬Text.isBlank last := by
  cases h with
  | @string quote body _ _ hquote =>
    exact ⟨quote :: body, quote, rfl, not_isBlank_of_isQuote hquote⟩
  | @number first more _ parts _ hdigit hparts hlength _ =>
    refine Lexer.exists_last fun c hmem hblank => ?_
    have hnumber := blank_not_mem_number hblank (first :: more ++ rest)
    rw [hparts, hlength, List.take_left] at hnumber
    exact hnumber hmem
  | word hfirst hmore _ =>
    refine Lexer.exists_last fun c hmem => not_isBlank_of_isWordChar ?_
    rcases List.mem_cons.1 hmem with rfl | hmem
    · exact isWordChar_of_isWordStart hfirst
    · exact hmore _ hmem
  | @symbol symbol =>
    obtain ⟨first, more, hchars, -⟩ := exists_chars_symbol symbol
    have hblank : ∀ c ∈ symbol.chars, ¬Text.isBlank c := fun _ => not_isBlank_of_mem_chars
    rw [hchars] at hblank ⊢
    exact Lexer.exists_last hblank

/-- A token ends on the line that its last character is on. -/
theorem Lexeme.exists_last_ne_newline (h : Lexeme text kind rest) :
    ∃ init last, text = init ++ [last] ∧ last ≠ '\n' := by
  obtain ⟨init, last, htext, hlast⟩ := h.exists_last
  refine ⟨init, last, htext, ?_⟩
  rintro rfl
  exact hlast rfl

end JsonTemplate.Lexer
