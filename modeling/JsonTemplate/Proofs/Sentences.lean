import JsonTemplate.Proofs.Grammar.Acceptance
import JsonTemplate.Proofs.Layout
import JsonTemplate.Proofs.Spans
import JsonTemplate.Proofs.Text.Trimming

/-! Sentences as texts. A text that compiles spells a sentence of the grammar. A text that spells a
sentence with no more tokens than there are levels of nesting compiles if its calls can be
resolved, and its program has the values of the expression that the sentence stands for. -/

namespace JsonTemplate

open Token (Kind)
open Grammar (Phrase Sentence)

namespace Lexer

variable {before gap text rest : List Char} {kind : Kind} {kinds : List Kind} {tokens : List Token}

/-- The text consists of blanks and the lexemes of tokens of the kinds. -/
inductive Spells : List Char → List Kind → Prop where
  | done {gap : List Char} : (∀ c ∈ gap, isSpace c) → Spells gap []
  | token {gap text rest : List Char} {kind : Kind} {kinds : List Kind} :
    (∀ c ∈ gap, isSpace c) → Lexeme text kind rest → Spells rest kinds →
    Spells (gap ++ text ++ rest) (kind :: kinds)

/-- A lexeme without blanks in front of it. -/
theorem Spells.lexeme (h : Lexeme text kind rest) (hrest : Spells rest kinds) :
    Spells (text ++ rest) (kind :: kinds) :=
  Spells.token (List.forall_mem_nil _) h hrest

theorem spells_nil : Spells [] [] := .done (List.forall_mem_nil _)

theorem Spells.exists_laid (h : Spells text kinds) (before : List Char) :
    ∃ tokens, Laid before text tokens ∧ tokens.map Token.kind = kinds ++ [.eof] := by
  induction h generalizing before with
  | done hgap => exact ⟨_, .done hgap, rfl⟩
  | @token gap text rest kind kinds hgap hlexeme _ ih =>
    obtain ⟨tokens, hlaid, hkinds⟩ := ih (before ++ gap ++ text)
    exact ⟨_, .token hgap hlexeme hlaid, congrArg (kind :: ·) hkinds⟩

theorem Laid.exists_spells (h : Laid before text tokens) :
    ∃ kinds, Spells text kinds ∧ tokens.map Token.kind = kinds ++ [.eof] := by
  induction h with
  | done hgap => exact ⟨[], .done hgap, rfl⟩
  | @token _ _ _ _ kind _ hgap hlexeme _ ih =>
    obtain ⟨kinds, hspells, hkinds⟩ := ih
    exact ⟨kind :: kinds, .token hgap hlexeme hspells, congrArg (kind :: ·) hkinds⟩

theorem Spells.ne_eof (h : Spells text kinds) : ∀ kind ∈ kinds, kind ≠ .eof := by
  induction h with
  | done => exact List.forall_mem_nil _
  | token _ hlexeme _ ih => exact List.forall_mem_cons.2 ⟨hlexeme.ne_eof, ih⟩

/-- Text that is not blank only has tokens. -/
theorem Spells.ne_nil (h : Spells text kinds) (hkinds : kinds ≠ []) : text ≠ [] := by
  cases h with
  | done => exact absurd rfl hkinds
  | token _ hlexeme _ =>
    obtain ⟨first, more, rfl, -⟩ := hlexeme.not_isSpace
    simp

/-- Text that does not start with a blank starts with a lexeme. -/
theorem Spells.exists_lexeme {c : Char} (h : Spells (c :: rest) kinds) (hc : ¬isSpace c) :
    ∃ text kind behind kinds', Lexeme text kind behind ∧ Spells behind kinds' ∧
      c :: rest = text ++ behind ∧ kinds = kind :: kinds' := by
  generalize hs : c :: rest = s at h
  cases h with
  | done hgap => exact absurd (hgap c (hs ▸ List.mem_cons_self)) hc
  | @token gap text behind kind kinds' hgap hlexeme hrest =>
    cases gap with
    | nil => exact ⟨text, kind, behind, kinds', hlexeme, hrest, rfl, rfl⟩
    | cons b gap =>
      cases hs
      exact absurd (hgap c List.mem_cons_self) hc

/-- Blanks in front of a text have no tokens. -/
theorem Spells.behindBlanks (h : Spells (gap ++ rest) kinds) (hgap : ∀ c ∈ gap, Text.isBlank c) :
    Spells rest kinds := by
  generalize hs : gap ++ rest = s at h
  cases h with
  | done hspaces =>
    subst hs
    exact .done fun c hc => hspaces c (List.mem_append_right gap hc)
  | @token spaces text behind kind kinds hspaces hlexeme hbehind =>
    rw [List.append_assoc] at hs
    rcases List.append_eq_append_iff.1 hs with ⟨m, rfl, rfl⟩ | ⟨m, rfl, htext⟩
    · have hm : ∀ c ∈ m, isSpace c := fun c hc => hspaces c (List.mem_append_right gap hc)
      rw [← List.append_assoc]
      exact .token hm hlexeme hbehind
    -- The lexeme starts with another character, so that nothing of it is taken away.
    · obtain ⟨first, more, rfl, hfirst⟩ := hlexeme.not_isBlank
      cases m with
      | nil =>
        rw [List.nil_append] at htext
        exact htext ▸ Spells.lexeme hlexeme hbehind
      | cons c m =>
        obtain ⟨rfl, -⟩ := List.cons.inj htext
        exact absurd (hgap first (by simp)) hfirst

/-- Nor have blanks behind it. -/
theorem Spells.beforeBlanks (h : Spells (rest ++ gap) kinds) (hgap : ∀ c ∈ gap, Text.isBlank c) :
    Spells rest kinds := by
  generalize hs : rest ++ gap = s at h
  induction h generalizing rest with
  | done hspaces =>
    subst hs
    exact .done fun c hc => hspaces c (List.mem_append_left gap hc)
  | @token spaces text behind kind kinds hspaces hlexeme hbehind ih =>
    rcases List.append_eq_append_iff.1 hs.symm with ⟨m, rfl, rfl⟩ | ⟨m, htext, rfl⟩
    · exact .token hspaces hlexeme.cut (ih rfl)
    -- The lexeme ends with another character, so that all of it is left.
    · obtain ⟨init, last, rfl, hlast⟩ := hlexeme.exists_last
      rcases List.eq_nil_or_concat m with rfl | ⟨m, b, rfl⟩
      · rw [← List.append_nil behind] at hbehind
        have hdone : Spells [] kinds := hbehind.behindBlanks hgap
        rw [List.append_nil] at htext
        rw [← htext, ← List.append_nil (spaces ++ _)]
        exact .token hspaces hlexeme.alone hdone
      · have hends := congrArg List.getLast? htext
        simp only [List.concat_eq_append, ← List.append_assoc, List.getLast?_concat] at hends
        cases hends
        exact absurd (hgap last (by simp)) hlast

/-- Without the blanks around it a text has the same tokens. -/
theorem Spells.trim (h : Spells text kinds) : Spells (Text.trimChars text) kinds := by
  obtain ⟨before, after, htext, hbefore, hafter⟩ := Text.exists_trimChars text
  rw [htext] at h
  exact (h.behindBlanks hbefore).beforeBlanks hafter

end Lexer

namespace Grammar

/-- An operand with or without a sign is a sentence on its own. -/
theorem Phrase.sentence_of_unary {ts : List Kind} {e : Expr} (h : Phrase (.expr .unary) ts e) :
    Sentence ts e :=
  have hproduct : Phrase (.expr .product) ts e := .tighter .product h
  have hand : Phrase (.expr .and) ts e :=
    .tighter .and (.tighter .comparison (.tighter .sum hproduct))
  .tighter .conditional (.tighter .coalesce (.tighter .or hand))

/-- An access is a sentence on its own, and a primary expression is one. -/
theorem Phrase.sentence {ts : List Kind} {e : Expr} (h : Phrase (.expr .access) ts e) :
    Sentence ts e :=
  sentence_of_unary (.tighter .unary h)

end Grammar

/-- Tokens of some kinds with an end token behind them. -/
theorem exists_of_kinds {tokens : List Token} {kinds : List Kind}
    (h : tokens.map Token.kind = kinds ++ [.eof]) :
    ∃ body last, tokens = body ++ [last] ∧ body.map Token.kind = kinds ∧ last.kind = .eof := by
  obtain ⟨body, ends, rfl, hbody, hends⟩ := List.map_eq_append_iff.1 h
  obtain ⟨last, rfl, hlast⟩ := List.map_eq_singleton_iff.1 hends
  exact ⟨body, last, rfl, hbody, hlast⟩

namespace Program

variable {o : Options} {text : List Char} {kinds : List Kind} {e : Expr}

/-- What compiles is a sentence. -/
theorem exists_sentence_of_compile {p : Program} (h : compile o (String.ofList text) = .ok p) :
    ∃ kinds, Lexer.Spells text kinds ∧ Sentence kinds p.expr := by
  obtain ⟨-, -, hlexer, hparser, hexpr, -⟩ := compile_eq_ok_iff.1 h
  have hlaid := Lexer.laid_of_lex (Report.ofFaults_eq_empty.1 hlexer)
  rw [String.toList_ofList] at hlaid
  obtain ⟨kinds, hspells, hkinds⟩ := hlaid.exists_spells
  obtain ⟨body, last, htokens, rfl, hlast⟩ := exists_of_kinds hkinds
  obtain ⟨x, hx⟩ := Parsing.ofSource_of_report hparser
  have hbody : ∀ token ∈ body, token.kind ≠ .eof := fun token htoken =>
    hspells.ne_eof _ (List.mem_map_of_mem htoken)
  rw [hx] at hexpr
  cases hexpr
  rw [Parsing.ofSource, htokens] at hx
  exact ⟨_, hspells, Parsing.sentence_of_ofTokens hlast hbody hx⟩

/-- A sentence without calls compiles to its value. -/
theorem exists_compile_of_sentence (hspells : Lexer.Spells text kinds) (h : Sentence kinds e)
    (hlength : kinds.length ≤ nestingLimit)
    (hcalls : ∀ source, e.subterms.filterMap (o.callDiagnostic? source) = []) :
    ∃ p, compile o (String.ofList text) = .ok p ∧
      ∀ context, p.run context = e.eval o context := by
  obtain ⟨tokens, hlaid, hkinds⟩ := hspells.exists_laid []
  obtain ⟨body, last, rfl, rfl, hlast⟩ := exists_of_kinds hkinds
  have hbody : ∀ token ∈ body, token.kind ≠ .eof := fun token htoken =>
    hspells.ne_eof _ (List.mem_map_of_mem htoken)
  rw [List.length_map] at hlength
  rcases Parsing.ofTokens_of_sentence hlast hbody h with ⟨y, hy, hread⟩ | ⟨hlong, -⟩
  · have hlexer : Lexer.report (String.ofList text) = .empty :=
      Report.ofFaults_eq_empty.2 (by rw [hlaid.lex_eq])
    have hparser : Parsing.ofSource (String.ofList text) = ⟨some y, []⟩ := by
      rw [Parsing.ofSource, hlaid.lex_eq, hread]
    -- The spans of `y` differ from those of `e`, but its calls have the same codes.
    have hnil : y.subterms.filterMap (o.callDiagnostic? (String.ofList text)) = [] := by
      rw [← List.map_eq_nil_iff (f := (·.code)), ← o.codes_bare _ "" y, hy, o.codes_bare "" "" e,
        hcalls]
      rfl
    refine ⟨⟨String.ofList text, y, o⟩, ?_, fun context => ?_⟩
    · rw [compile_of_expr hlexer hparser, Options.callReport, hnil]
      rfl
    · calc y.eval o context = y.bare.eval o context := (y.eval_bare o context).symm
        _ = e.bare.eval o context := by rw [hy]
        _ = e.eval o context := e.eval_bare o context
  · omega

/-- A text of the same tokens compiles as well, and its program does the same. -/
theorem exists_compile_of_spells {text' : List Char} {p : Program}
    (hp : compile o (String.ofList text) = .ok p) (hspells : Lexer.Spells text kinds)
    (hspells' : Lexer.Spells text' kinds) :
    ∃ q, compile o (String.ofList text') = .ok q ∧ ∀ context, q.run context = p.run context := by
  obtain ⟨tokens, hlaid, hkinds⟩ := hspells.exists_laid []
  obtain ⟨tokens', hlaid', hkinds'⟩ := hspells'.exists_laid []
  obtain ⟨hexpr, hfaults⟩ := Parsing.ofTokens_congr (hkinds.trans hkinds'.symm)
  obtain ⟨-, -, hlexer, hparser, -⟩ := compile_eq_ok_iff.1 hp
  obtain ⟨e, he⟩ := Parsing.ofSource_of_report hparser
  have htokens : Parsing.ofTokens tokens = ⟨some e, []⟩ := by
    rw [Parsing.ofSource, hlaid.lex_eq] at he
    exact he
  obtain ⟨e', he', hbare⟩ : ∃ e', Parsing.ofTokens tokens' = ⟨some e', []⟩ ∧ e.bare = e'.bare := by
    rw [htokens] at hexpr hfaults
    generalize Parsing.ofTokens tokens' = parsing at hexpr hfaults
    obtain ⟨x, faults⟩ := parsing
    obtain rfl : faults = [] := List.map_eq_nil_iff.1 hfaults.symm
    cases hexpr with
    | @some _ e' hbare => exact ⟨e', rfl, hbare.symm⟩
  have hlexer' : Lexer.report (String.ofList text') = .empty :=
    Report.ofFaults_eq_empty.2 (by rw [hlaid'.lex_eq])
  have hparser' : Parsing.ofSource (String.ofList text') = ⟨some e', []⟩ := by
    rw [Parsing.ofSource, hlaid'.lex_eq, he']
  have hsame : SameOutcome (compile o (String.ofList text)) (compile o (String.ofList text')) := by
    rw [compile_of_expr hlexer he, compile_of_expr hlexer' hparser']
    exact sameOutcome_of_expr hbare
  rw [hp] at hsame
  generalize compile o (String.ofList text') = outcome at hsame
  cases hsame with
  | @ok _ q hrun => exact ⟨q, rfl, fun context => (hrun context).symm⟩

/-- Blanks around an expression mean nothing. -/
theorem exists_compile_trim {source : String} {p : Program} (hp : compile o source = .ok p) :
    ∃ q, compile o (Text.trim source) = .ok q ∧ ∀ context, q.run context = p.run context := by
  rw [← String.ofList_toList (s := source)] at hp
  obtain ⟨kinds, hspells, -⟩ := exists_sentence_of_compile hp
  exact exists_compile_of_spells hp hspells hspells.trim

/-! ### Values of texts -/

/-- The text compiles, and its program has the value in the context. -/
def Evaluates (o : Options) (source : String) (context : Fields Value) (v : Value) :
    Prop :=
  ∃ p, compile o source = .ok p ∧ p.run context = .ok v

section
variable {source : String} {context : Fields Value} {v w : Value}

theorem Evaluates.unique (hv : Evaluates o source context v)
    (hw : Evaluates o source context w) : v = w := by
  obtain ⟨p, hp, hv⟩ := hv
  obtain ⟨q, hq, hw⟩ := hw
  cases hp.symm.trans hq
  exact Except.ok.inj (hv.symm.trans hw)

theorem evaluates_of_sentence (hspells : Lexer.Spells source.toList kinds) (h : Sentence kinds e)
    (hlength : kinds.length ≤ nestingLimit)
    (hcalls : ∀ source, e.subterms.filterMap (o.callDiagnostic? source) = [])
    (hv : e.eval o context = .ok v) : Evaluates o source context v := by
  obtain ⟨p, hp, hrun⟩ := exists_compile_of_sentence hspells h hlength hcalls
  rw [String.ofList_toList] at hp
  exact ⟨p, hp, (hrun context).trans hv⟩

end

end Program

end JsonTemplate
