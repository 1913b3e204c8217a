import JsonTemplate.Proofs.FieldNames
import JsonTemplate.Proofs.Lexing.Numbers

/-! Integers as expressions. The text of an integer of 64 bits is an expression of this value: the
sign is an operator, and the digits behind it are a token. The smallest integer is left out, since
its digits alone are one too large. Digits that are too many for a token are reported. -/

namespace JsonTemplate

open Token (Kind)
open Grammar (Phrase Sentence)

/-! ### The text of an integer -/

namespace Decimal

variable {m n : Int}

theorem mem_intText {c : Char} (h : c ∈ (intText n).toList) : c = '-' ∨ c.isDigit := by
  rw [intText, String.toList_ofList] at h
  split at h
  · rcases List.mem_cons.1 h with rfl | h
    · exact .inl rfl
    · exact .inr (Lexer.isDigit_of_mem_natText h)
  · exact .inr (Lexer.isDigit_of_mem_natText h)

theorem intText_ne_empty (n : Int) : intText n ≠ "" := by
  obtain ⟨first, more, htext⟩ := Lexer.exists_natText n.natAbs
  rw [intText, ne_eq, String.ofList_eq_empty_iff, htext]
  split <;> exact List.cons_ne_nil _ _

theorem trim_intText (n : Int) : Text.trim (intText n) = intText n := by
  rw [Text.trim, Text.trimChars_eq_self, String.ofList_toList]
  intro c hc
  rcases mem_intText hc with rfl | hdigit
  · decide
  · exact Lexer.not_isBlank_of_isWordChar (Lexer.isWordChar_of_isDigit hdigit)

theorem natText_injective {a b : Nat} (h : natText a = natText b) : a = b := by
  rw [← Lexer.digitsValue_natText a, h, Lexer.digitsValue_natText]

theorem intText_injective (h : intText m = intText n) : m = n := by
  have hminus (a : Nat) : '-' ∉ natText a := fun hmem =>
    absurd (Lexer.isDigit_of_mem_natText hmem) (by decide)
  have hchars := String.ofList_injective h
  split at hchars <;> split at hchars
  · have := natText_injective (List.cons.inj hchars).2
    omega
  · exact absurd (hchars ▸ List.mem_cons_self) (hminus n.natAbs)
  · exact absurd (hchars ▸ List.mem_cons_self) (hminus m.natAbs)
  · have := natText_injective hchars
    omega

end Decimal

/-! ### Digits that are too many -/

namespace Lexer

variable {n : Nat}

theorem scan_natText (hn : ¬isInt64 n) (p : Position) :
    ∃ span, (scan 0 ⟨Decimal.natText n, p⟩).2 =
      [⟨.invalidNumber (String.ofList (Decimal.natText n)), span⟩] := by
  have hdigits := isDigits_natText n
  have hmarks := filter_digits hdigits.isDigit
  have hvalue := digitsValue_natText n
  obtain ⟨first, more, htext, hfirst⟩ := hdigits.exists_cons
  rw [htext] at hmarks hvalue ⊢
  have hmore : ∀ c ∈ more, isDigitOrMark c := fun c hc =>
    isDigitOrMark_of_isDigit (hdigits.isDigit c (htext ▸ List.mem_cons_of_mem first hc))
  rw [scan_digits hfirst hmore, hmarks, hvalue, if_neg hn]
  exact ⟨_, rfl⟩

/-- The fault of an integer that does not fit, behind its sign if it is negative. -/
theorem lex_intText {n : Int} (hn : n ≤ -9223372036854775808 ∨ 9223372036854775808 ≤ n) :
    ∃ span, (lex (Decimal.intText n)).2 =
      [⟨.invalidNumber (String.ofList (Decimal.natText n.natAbs)), span⟩] := by
  have habs : ¬isInt64 n.natAbs := by
    unfold isInt64
    omega
  rw [lex, Decimal.intText, String.toList_ofList]
  split
  · have hminus : Symbol.at? ('-' :: Decimal.natText n.natAbs) = some .minus := rfl
    have hread : read '-' ⟨'-' :: Decimal.natText n.natAbs, Position.first⟩ =
        ⟨some (.symbol .minus), [], ⟨Decimal.natText n.natAbs, after Position.first ['-']⟩⟩ := by
      rw [read_other (by unfold IsQuote; decide) (by decide)]
      simp only [hminus]
      rfl
    rw [scan_token rfl hread]
    exact scan_natText habs _
  · exact scan_natText habs _

end Lexer

/-! ### Programs -/

namespace Program

variable {n : Int}

theorem negate_eq {m : Int} (hm : isInt64 m) (hneg : isInt64 (-m)) :
    UnaryOp.negate.apply (.int m) = .ok (.int (-m)) := by
  change (Number.int m).negate = _
  rw [Number.negate, Number.word?_int hm]
  exact if_pos hneg

/-- The text of an integer is an expression of its value. -/
theorem exists_compile_intText (o : Options) (hlow : -9223372036854775808 < n)
    (hhigh : n < 9223372036854775808) :
    ∃ p, compile o (Decimal.intText n) = .ok p ∧ ∀ context, p.run context = .ok (.int n) := by
  have hfits : isInt64 n.natAbs := by
    unfold isInt64
    omega
  have hnone : ∀ c, ([] : List Char).head? = some c → Lexer.isSpace c := nofun
  have hdigits : Lexer.Spells (Decimal.natText n.natAbs) [.int n.natAbs] := by
    have hlexeme := Lexer.lexeme_int hnone (Int.natCast_nonneg n.natAbs) hfits
    rw [Decimal.intText, String.toList_ofList, if_neg (Int.not_lt.2 (Int.natCast_nonneg _)),
      Int.natAbs_natCast] at hlexeme
    simpa only [List.append_nil] using Lexer.Spells.lexeme hlexeme Lexer.spells_nil
  have hliteral : Phrase (.expr .access) [.int n.natAbs] (.int default n.natAbs) :=
    .tighter .access (.literal (.int default _))
  rw [Decimal.intText]
  split
  · next hn =>
    have hspells : Lexer.Spells ('-' :: Decimal.natText n.natAbs) [.symbol .minus, .int n.natAbs] :=
      .symbol .minus (by decide) hdigits
    have hsentence : Sentence [.symbol .minus, .int n.natAbs]
        (.unary default .negate (.int default n.natAbs)) :=
      Phrase.sentence_of_unary (.prefixed default .minus (.tighter .unary hliteral))
    obtain ⟨p, hp, hrun⟩ := exists_compile_of_sentence (o := o) hspells hsentence
      (by simp [nestingLimit]) fun _ => rfl
    refine ⟨p, hp, fun context => (hrun context).trans ?_⟩
    have hneg : n = -(n.natAbs : Int) := by omega
    have hvalue := negate_eq hfits (show isInt64 (-(n.natAbs : Int)) by unfold isInt64; omega)
    rw [← hneg] at hvalue
    exact hvalue
  · next hn =>
    obtain ⟨p, hp, hrun⟩ := exists_compile_of_sentence (o := o) hdigits (Phrase.sentence hliteral)
      (by simp [nestingLimit]) fun _ => rfl
    refine ⟨p, hp, fun context => (hrun context).trans ?_⟩
    rw [Expr.eval, Int.natAbs_of_nonneg (Int.not_lt.1 hn)]

/-- A list of one integer. -/
theorem exists_compile_singleton (o : Options) (hn : 0 ≤ n) (hfits : isInt64 n) :
    ∃ p, compile o ("[" ++ Decimal.intText n ++ " ]") = .ok p ∧
      ∀ context, p.run context = .ok (.array [.int n]) := by
  have hblank : ∀ c, " ]".toList.head? = some c → Lexer.isSpace c := by
    rintro c ⟨⟩
    rfl
  have hbracket : Lexer.Lexeme Symbol.rightBracket.chars (.symbol .rightBracket) [] := .symbol rfl
  have hgap : ∀ c ∈ [' '], Lexer.isSpace c := List.forall_mem_singleton.2 rfl
  have hend : Lexer.Spells " ]".toList [.symbol .rightBracket] :=
    .token hgap hbracket Lexer.spells_nil
  have hspells : Lexer.Spells ("[" ++ Decimal.intText n ++ " ]").toList
      [.symbol .leftBracket, .int n, .symbol .rightBracket] := by
    rw [String.toList_append, String.toList_append, List.append_assoc]
    exact .symbol .leftBracket (by decide) (.lexeme (Lexer.lexeme_int hblank hn hfits) hend)
  have hsentence : Sentence [.symbol .leftBracket, .int n, .symbol .rightBracket]
      (.array default [.int default n]) :=
    Phrase.sentence (.tighter .access (.array default (.lastItem
      (Phrase.sentence (.tighter .access (.literal (.int default n)))))))
  obtain ⟨p, hp, hrun⟩ := exists_compile_of_sentence (o := o) hspells hsentence
    (by simp [nestingLimit]) fun _ => rfl
  rw [String.ofList_toList] at hp
  exact ⟨p, hp, hrun⟩

/-- The first diagnostic for an integer that does not fit is about its digits. -/
theorem compile_intText_error (o : Options)
    (hn : n ≤ -9223372036854775808 ∨ 9223372036854775808 ≤ n) :
    ∃ report, compile o (Decimal.intText n) = .error report ∧
      report.first?.map Diagnostic.code = some Code.invalidNumber := by
  obtain ⟨span, hfaults⟩ := Lexer.lex_intText hn
  have hreports : ¬(Lexer.report (Decimal.intText n) = .empty ∧
      Parsing.report (Decimal.intText n) = .empty) := by
    rintro ⟨hlexer, -⟩
    have hnil := Report.ofFaults_eq_empty.1 hlexer
    rw [hfaults] at hnil
    cases hnil
  refine ⟨_, compile_of_reports hreports, ?_⟩
  rw [reports_eq, Report.ofFaults, Report.ofList_eq, hfaults]
  rfl

end Program

end JsonTemplate
