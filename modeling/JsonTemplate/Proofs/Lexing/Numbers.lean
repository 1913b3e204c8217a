import JsonTemplate.Proofs.Lexing.Rendering

/-! Number literals. Without its underscores a literal is a decimal number, so a literal with a
fraction or a power of ten is always a float. Digits alone are an integer, and at fault only if
there is no such integer of 64 bits. -/

namespace JsonTemplate.Lexer

open Decimal (IsDigits Fraction Power Denotes digitsValue nearestFloat)

variable {s text more : List Char} {first : Char} {c : Cursor} {p : Position}

/-- The number literal that a text starts with, without its underscores. -/
def literal (s : List Char) : List Char :=
  (s.take (NumberParts.of s).length).filter (· ≠ '_')

/-! ### Parts of literals -/

theorem isDigits_filter (hfirst : first.isDigit) (hmore : ∀ c ∈ more, isDigitOrMark c) :
    IsDigits ((first :: more).filter (· ≠ '_')) := by
  have hmark : first ≠ '_' := by
    rintro rfl
    cases hfirst
  refine ⟨List.ne_nil_of_mem (List.mem_filter.2 ⟨List.mem_cons_self, by simpa using hmark⟩), ?_⟩
  intro c hc
  obtain ⟨hmem, hne⟩ := List.mem_filter.1 hc
  rw [decide_eq_true_iff] at hne
  rcases List.mem_cons.1 hmem with rfl | hmem
  · exact hfirst
  · have hdigit := hmore c hmem
    simpa [isDigitOrMark, hne] using hdigit

theorem isDigits_whole (hs : s = first :: more) (hfirst : first.isDigit) :
    IsDigits ((s.take (NumberParts.of s).whole).filter (· ≠ '_')) := by
  have hwhole : s.take (NumberParts.of s).whole = s.takeWhile isDigitOrMark :=
    take_length_takeWhile isDigitOrMark s
  rw [hwhole, hs, List.takeWhile_cons_of_pos (isDigitOrMark_of_isDigit hfirst)]
  exact isDigits_filter hfirst mem_takeWhile

theorem exists_fraction (s : List Char) :
    ∃ digits, Fraction ((s.take (fractionLength s)).filter (· ≠ '_')) digits := by
  unfold fractionLength
  split
  · next d more =>
    split
    · next hd =>
      rw [Nat.add_comm, List.take_succ_cons, List.take_succ_cons, take_length_takeWhile]
      exact ⟨_, .digits (isDigits_filter hd mem_takeWhile)⟩
    · exact ⟨[], .absent⟩
  · exact ⟨[], .absent⟩

theorem exists_power (s : List Char) :
    ∃ exponent, Power ((s.take (powerLength s)).filter (· ≠ '_')) exponent := by
  have hdigits {s : List Char} (h : ¬(s.takeWhile Char.isDigit).length = 0) :
      IsDigits (s.takeWhile Char.isDigit) :=
    ⟨mt List.length_eq_zero_iff.2 h, mem_takeWhile⟩
  unfold powerLength
  split
  · next mark sign more =>
    simp only
    split_ifs with hmark hsign hnone hnone
    · exact ⟨0, .absent⟩
    · have hmarks : mark ≠ '_' ∧ sign ≠ '_' := by
        rcases hmark with rfl | rfl <;> rcases hsign with rfl | rfl <;> decide
      have hrun := hdigits hnone
      rw [Nat.add_comm, List.take_succ_cons, List.take_succ_cons, take_length_takeWhile,
        List.filter_cons_of_pos (by simpa using hmarks.1),
        List.filter_cons_of_pos (by simpa using hmarks.2), filter_digits hrun.isDigit]
      exact ⟨_, .signed hmark hsign hrun⟩
    · exact ⟨0, .absent⟩
    · have hmarks : mark ≠ '_' := by rcases hmark with rfl | rfl <;> decide
      have hrun := hdigits hnone
      rw [Nat.add_comm, List.take_succ_cons, take_length_takeWhile,
        List.filter_cons_of_pos (by simpa using hmarks), filter_digits hrun.isDigit]
      exact ⟨_, .unsigned hmark hrun⟩
    · exact ⟨0, .absent⟩
  · exact ⟨0, .absent⟩

/-- Whatever of the parts are there, a literal is a decimal number. -/
theorem exists_denotes_literal (hs : s = first :: more) (hfirst : first.isDigit) :
    ∃ mantissa exponent, Denotes (literal s) mantissa exponent := by
  obtain ⟨digits, hfraction⟩ := exists_fraction (s.drop (NumberParts.of s).whole)
  obtain ⟨exponent, hpower⟩ :=
    exists_power (s.drop ((NumberParts.of s).whole + (NumberParts.of s).fraction))
  have hparts := Denotes.parts (isDigits_whole hs hfirst) hfraction hpower
  rw [← List.filter_append, ← List.filter_append, ← List.append_assoc] at hparts
  rw [literal, NumberParts.length, List.take_add, List.take_add]
  exact ⟨_, _, hparts⟩

/-- A literal that is no float has digits only. -/
theorem isDigits_literal (hs : s = first :: more) (hfirst : first.isDigit)
    (h : ¬(NumberParts.of s).isFloat) : IsDigits (literal s) := by
  have hlength : (NumberParts.of s).length = (NumberParts.of s).whole := by
    simp only [NumberParts.isFloat, decide_eq_true_eq] at h
    rw [NumberParts.length]
    omega
  rw [literal, hlength]
  exact isDigits_whole hs hfirst

/-! ### Reading -/

/-- A float is never at fault. -/
theorem exists_readNumber_float (hc : c.rest = first :: more) (hfirst : first.isDigit)
    (h : (NumberParts.of c.rest).isFloat) :
    ∃ mantissa exponent, Denotes (literal c.rest) mantissa exponent ∧
      readNumber c = ⟨some (.float (nearestFloat mantissa exponent)), [],
        c.skip (NumberParts.of c.rest).length⟩ := by
  obtain ⟨mantissa, exponent, hliteral⟩ := exists_denotes_literal hc hfirst
  have hkind : numberKind? (NumberParts.of c.rest).isFloat (literal c.rest) =
      some (.float (nearestFloat mantissa exponent)) := by
    rw [numberKind?, if_pos h, hliteral.readFloat?_eq, Option.map_some]
  exact ⟨mantissa, exponent, hliteral, readNumber_eq rfl hkind⟩

/-- An integer is at fault if and only if it has no 64 bits. -/
theorem readNumber_int (hc : c.rest = first :: more) (hfirst : first.isDigit)
    (h : ¬(NumberParts.of c.rest).isFloat) :
    let n := digitsValue (literal c.rest)
    let next := c.skip (NumberParts.of c.rest).length
    readNumber c = if isInt64 n then ⟨some (.int n), [], next⟩ else
      ⟨some (.int 0), [⟨.invalidNumber (String.ofList (literal c.rest)),
        spanTo c.position next.position⟩], next⟩ := by
  have hkind := numberKind?_digits (isDigits_literal hc hfirst h)
  rw [← Bool.eq_false_iff.2 h] at hkind
  intro n next
  split
  · next hn => exact readNumber_eq rfl (hkind.trans (if_pos hn))
  · next hn =>
    have hnone := hkind.trans (if_neg hn)
    unfold literal at hnone
    simp only [readNumber, hnone]
    rfl

/-! ### Digits alone -/

section Digits
variable (hfirst : first.isDigit) (hmore : ∀ c ∈ more, isDigitOrMark c)
include hfirst hmore

theorem forall_isDigitOrMark : ∀ c ∈ first :: more, isDigitOrMark c :=
  List.forall_mem_cons.2 ⟨isDigitOrMark_of_isDigit hfirst, hmore⟩

theorem numberParts_digits :
    NumberParts.of (first :: more) = ⟨(first :: more).length, 0, 0⟩ := by
  have hnone : ∀ c, ([] : List Char).head? = some c → isSpace c := nofun
  simpa only [List.append_nil] using
    numberParts_of_digits hnone (forall_isDigitOrMark hfirst hmore)

theorem literal_digits : literal (first :: more) = (first :: more).filter (· ≠ '_') := by
  rw [literal, numberParts_digits hfirst hmore]
  exact congrArg _ List.take_length

/-- Digits are one token, and at fault if they are too many for an integer of 64 bits. -/
theorem scan_digits (p : Position) :
    let digits := (first :: more).filter (· ≠ '_')
    let stop := after p (first :: more)
    scan 0 ⟨first :: more, p⟩ =
      if isInt64 (digitsValue digits) then
        ([⟨.int (digitsValue digits), spanTo p stop⟩, endToken stop], [])
      else ([⟨.int 0, spanTo p stop⟩, endToken stop],
        [⟨.invalidNumber (String.ofList digits), spanTo p stop⟩]) := by
  intro digits stop
  have hspace : ¬isSpace first := fun h =>
    not_isWordChar_of_isSpace h (isWordChar_of_isDigit hfirst)
  have hskip : (⟨first :: more, p⟩ : Cursor).skipSpaces = ⟨first :: more, p⟩ := by
    simp [Cursor.skipSpaces, hspace, after]
  have hparts := numberParts_digits hfirst hmore
  have hfloat : ¬(NumberParts.of (first :: more)).isFloat := by
    rw [hparts]
    exact Bool.false_ne_true
  have hskipped := skip_append (first :: more) [] p
  rw [List.append_nil] at hskipped
  have hread := readNumber_int (c := ⟨first :: more, p⟩) rfl hfirst hfloat
  simp only [literal_digits hfirst hmore, hparts, NumberParts.length, Nat.add_zero,
    hskipped] at hread
  rw [← read_digit hfirst, ← hskip] at hread
  have hcons := congrArg Cursor.rest hskip
  split at hread
  · next hn =>
    rw [scan_read hcons hread (show 0 + 0 < 20 by decide), scan_done rfl, if_pos hn, hskip]
    rfl
  · next hn =>
    rw [scan_read hcons hread (show 0 + 1 < 20 by decide), scan_done rfl, if_neg hn, hskip]
    rfl

end Digits

/-! ### Faults -/

theorem exists_invalidNumber {fault : Fault} (h : fault.code = .invalidNumber) :
    ∃ text, fault = .invalidNumber text := by
  cases fault with
  | invalidNumber text => exact ⟨text, rfl⟩
  | _ => exact absurd h (by simp only [Fault.code]; decide)

/-- There is no number in a string. -/
theorem ne_invalidNumber_of_readString {quote : Char} {start : Position} (text : String) :
    ∀ f ∈ (readString quote start p s).faults, f.fault ≠ .invalidNumber text := by
  fun_induction readString quote start p s with
  | case1 p => simp
  | case2 p q => simp
  | case3 p c rest q e he ih => exact ih
  | case4 p c rest q he ih =>
    exact List.forall_mem_append.2 ⟨by simp, ih⟩
  | case5 => exact List.forall_mem_nil _
  | case6 p c rest hlast hescape hquote ih => exact ih

/-- What a number at fault consists of: digits that are too many for an integer of 64 bits. -/
structure TooLarge (text : String) : Prop where
  isDigits : IsDigits text.toList
  value : 9223372036854775807 < Nat.ofDigitChars 10 text.toList 0

theorem isInt64_digitsValue (digits : List Char) :
    isInt64 (digitsValue digits) ↔ Nat.ofDigitChars 10 digits 0 ≤ 9223372036854775807 := by
  rw [Nat.ofDigitChars_eq_foldl]
  change isInt64 (digitsValue digits) ↔ digitsValue digits ≤ 9223372036854775807
  unfold isInt64
  omega

theorem tooLarge_of_readNumber {text : String} (hc : c.rest = first :: more)
    (hfirst : first.isDigit) :
    ∀ f ∈ (readNumber c).faults, f.fault = .invalidNumber text → TooLarge text := by
  intro f hf htext
  by_cases hfloat : (NumberParts.of c.rest).isFloat
  · obtain ⟨mantissa, exponent, -, hread⟩ := exists_readNumber_float hc hfirst hfloat
    rw [hread] at hf
    cases hf
  · have hdigits := isDigits_literal hc hfirst hfloat
    rw [readNumber_int hc hfirst hfloat] at hf
    split at hf
    · cases hf
    · next hlarge =>
      cases List.mem_singleton.1 hf
      cases htext
      rw [isInt64_digitsValue, Nat.not_le] at hlarge
      rw [← String.toList_ofList (l := literal c.rest)] at hdigits hlarge
      exact ⟨hdigits, hlarge⟩

theorem tooLarge_of_read {text : String} (hc : c.rest = first :: more) :
    ∀ f ∈ (read first c).faults, f.fault = .invalidNumber text → TooLarge text := by
  intro f hf htext
  rcases start_cases first with hquote | hdigit | hword | ⟨hquote, hother⟩
  · rw [read_quote hquote] at hf
    exact absurd htext (ne_invalidNumber_of_readString text f hf)
  · rw [read_digit hdigit] at hf
    exact tooLarge_of_readNumber hc hdigit f hf htext
  · rw [read_word hword] at hf
    cases hf
  · rw [read_other hquote hother] at hf
    split at hf
    · cases hf
    · cases List.mem_singleton.1 hf
      cases htext

theorem tooLarge_of_scan {text : String} (found : Nat) (c : Cursor) :
    ∀ f ∈ (scan found c).2, f.fault = .invalidNumber text → TooLarge text := by
  fun_induction scan found c with
  | case1 => exact List.forall_mem_nil _
  | case2 => exact List.forall_mem_nil _
  | case3 found start c first rest hc _ r _ _ _ tokens faults hrest ih =>
    rw [hrest] at ih
    exact List.forall_mem_append.2 ⟨tooLarge_of_read hc, ih⟩
  | case4 found start c first rest hc _ r _ _ kind _ _ => exact tooLarge_of_read hc
  | case5 found start c first rest hc _ r _ _ kind _ _ _ tokens faults hrest ih =>
    rw [hrest] at ih
    exact List.forall_mem_append.2 ⟨tooLarge_of_read hc, ih⟩

/-! ### Whole texts -/

/-- A literal of digits and underscores is the integer that its digits stand for, and the only fault
if there is no such integer of 64 bits. A number that is at fault anywhere in a text has digits
only. With a fraction or a power of ten a literal is a decimal number, read as the float that is
nearest to it, and never at fault. -/
theorem lex_numbers :
    (∀ first more, first.isDigit → (∀ c ∈ more, isDigitOrMark c) →
      let digits := (first :: more).filter (· ≠ '_')
      let n := Nat.ofDigitChars 10 digits 0
      let stop := after Position.first (first :: more)
      let span := spanTo Position.first stop
      lex (String.ofList (first :: more)) =
        if n ≤ 9223372036854775807 then ([⟨.int n, span⟩, endToken stop], [])
        else ([⟨.int 0, span⟩, endToken stop],
          [⟨.invalidNumber (String.ofList digits), span⟩])) ∧
    (∀ source, ∀ f ∈ (lex source).2, f.fault.code = .invalidNumber →
      ∃ text, f.fault = .invalidNumber text ∧ TooLarge text) ∧
    ∀ (c : Cursor) (first : Char) (more : List Char), c.rest = first :: more → first.isDigit →
      (NumberParts.of c.rest).isFloat →
      ∃ mantissa exponent, Denotes (literal c.rest) mantissa exponent ∧
        read first c = ⟨some (.float (nearestFloat mantissa exponent)), [],
          c.skip (NumberParts.of c.rest).length⟩ := by
  refine ⟨fun first more hfirst hmore => ?_, fun source f hf hcode => ?_, ?_⟩
  · have hscan := scan_digits hfirst hmore Position.first
    simp only [isInt64_digitsValue] at hscan
    rw [lex, String.toList_ofList, hscan]
    simp only [Nat.ofDigitChars_eq_foldl]
    rfl
  · obtain ⟨text, htext⟩ := exists_invalidNumber hcode
    exact ⟨text, htext, tooLarge_of_scan 0 _ f hf htext⟩
  · intro c first more hc hfirst hfloat
    rw [read_digit hfirst]
    exact exists_readNumber_float hc hfirst hfloat

/-- Three zeros behind an underscore, one digit more than 64 bits hold, and a float behind a sign of
its power. -/
theorem lex_numbers_thousand :
    lex "1_000" = ([⟨.int 1000, ⟨⟨1, 1⟩, ⟨1, 5⟩⟩⟩, endToken ⟨1, 6⟩], []) ∧
    (∃ text, Fault.invalidNumber "9223372036854775808" = .invalidNumber text ∧ TooLarge text) ∧
    ∃ mantissa exponent, Denotes "1000.5e-1".toList mantissa exponent ∧
      read '1' ⟨"1_000.5e-1".toList, .first⟩ =
        ⟨some (.float (nearestFloat mantissa exponent)), [], ⟨[], ⟨1, 11⟩⟩⟩ := by
  refine ⟨?_, ?_, ?_⟩
  · exact lex_numbers.1 '1' ['_', '0', '0', '0'] (by decide) (by simp [isDigitOrMark])
  · have hfaults : (lex "9223372036854775808").2 =
        [⟨.invalidNumber "9223372036854775808", ⟨⟨1, 1⟩, ⟨1, 19⟩⟩⟩] := by decide +kernel
    exact lex_numbers.2.1 "9223372036854775808" _ (hfaults ▸ List.mem_cons_self) rfl
  · exact lex_numbers.2.2 ⟨"1_000.5e-1".toList, .first⟩ '1' "_000.5e-1".toList (by decide)
      (by decide) (by decide)

end JsonTemplate.Lexer
