import JsonTemplate.Proofs.Compilation
import JsonTemplate.Proofs.Grammar.Extents
import JsonTemplate.Proofs.Grammar.Soundness
import JsonTemplate.Proofs.Lexing.Scanning

/-! The spans of the expressions that are parsed from texts. Reading a text without a fault puts
its tokens in order, so that every node has the span from its first token to its last one. -/

namespace JsonTemplate

namespace Lexer

open Grammar (Ordered)
open Source (place)

variable {before text : List Char} {tokens : List Token}

/-- The tokens of a text are in order, and stand behind the text in front of it. -/
theorem Laid.ordered (h : Laid before text tokens) :
    Ordered tokens ∧ ∀ token ∈ tokens, place before ≤ token.span.start := by
  induction h with
  | @done before gap _ =>
    refine ⟨⟨?_, List.pairwise_singleton _ _⟩, ?_⟩
    · exact List.forall_mem_singleton.2 (Position.le_refl _)
    · exact List.forall_mem_singleton.2 (Source.place_le before gap)
  | @token before gap text rest kind tokens _ hlexeme _ ih =>
    obtain ⟨hordered, hbehind⟩ := ih
    obtain ⟨init, last, rfl, hlast⟩ := hlexeme.exists_last_ne_newline
    rw [Source.spanTo_place _ _ hlast]
    have hstop : place (before ++ gap ++ init) < place (before ++ gap ++ (init ++ [last])) := by
      rw [← List.append_assoc]
      exact Source.place_lt _ (List.cons_ne_nil _ _)
    refine ⟨⟨List.forall_mem_cons.2 ⟨Source.place_le _ _, hordered.upright⟩,
      .cons (fun token htoken => ?_) hordered.apart⟩,
      List.forall_mem_cons.2 ⟨Source.place_le _ _, fun token htoken => ?_⟩⟩
    · exact Position.lt_of_lt_of_le hstop (hbehind token htoken)
    · rw [List.append_assoc] at hbehind
      exact Position.le_trans (Source.place_le _ _) (hbehind token htoken)

theorem Laid.ended (h : Laid before text tokens) : (Parser.start tokens).Ended := by
  induction h with
  | done => exact ⟨[], rfl, List.not_mem_nil⟩
  | @token _ _ _ _ kind _ _ hlexeme _ ih =>
    obtain ⟨ts, hts, hmem⟩ := ih
    refine ⟨kind :: ts, congrArg (kind :: ·) hts, ?_⟩
    rw [List.mem_cons, not_or]
    exact ⟨hlexeme.ne_eof.symm, hmem⟩

end Lexer

namespace Parsing

open Grammar (Stands)

/-- The expression is what the parser of expressions gives, whatever is left behind it. -/
theorem exists_of_expr {tokens : List Token} {e : Expr} (h : (ofTokens tokens).expr = some e) :
    ∃ s, Parser.expression (Parser.start tokens) = (some e, s) := by
  unfold ofTokens at h
  simp only at h
  split at h
  · cases h
  split at h
  · cases h
  · next found s hrun =>
    refine ⟨s, ?_⟩
    split at h <;> cases h <;> exact hrun

/-- The tokens that the parser consumes are those of the expression, and every expression inside
it has tokens of its own among them. Each of these has the span from its first token to its last
one, which contains the spans right inside, and these do not overlap. -/
theorem ofSource_spans {source : String} {e : Expr} (hlexer : (Lexer.lex source).2 = [])
    (h : (ofSource source).expr = some e) :
    ∃ ts s, Parser.expression (Parser.start (Lexer.lex source).1) = (some e, s) ∧
      (Lexer.lex source).1 = ts ++ s.rest ∧ Stands ts e ∧
      ∀ node ∈ e.subterms, ∃ us, us <:+: ts ∧ Stands us node := by
  have hlaid := Lexer.laid_of_lex hlexer
  obtain ⟨s, hrun⟩ := exists_of_expr h
  obtain ⟨ts, hts, hspelled⟩ := Parser.reads_expressionWithin _ hlaid.ended hrun
  have htokens : (Lexer.lex source).1 = ts ++ s.rest := hts.rest
  have hordered : Grammar.Ordered ts := (htokens ▸ hlaid.ordered.1).left
  refine ⟨ts, s, hrun, htokens, hspelled.stands hordered, fun node hnode => ?_⟩
  obtain ⟨r, us, hus, hnode⟩ := hspelled.exists_infix node hnode
  exact ⟨us, hus, hnode.stands (hordered.sublist hus.sublist)⟩

/-- Two lines with an array that ends in a comma, and a bracket too many. -/
theorem ofSource_spans_array :
    (Lexer.lex "a.b + [1,\n 'c', ]]").2 = [] ∧
      ∃ e, (ofSource "a.b + [1,\n 'c', ]]").expr = some e ∧ e.span = ⟨⟨1, 1⟩, ⟨2, 7⟩⟩ ∧
        ∃ ts s, Parser.expression (Parser.start (Lexer.lex "a.b + [1,\n 'c', ]]").1) =
            (some e, s) ∧
          (Lexer.lex "a.b + [1,\n 'c', ]]").1 = ts ++ s.rest ∧ Stands ts e ∧
          ∀ node ∈ e.subterms, ∃ us, us <:+: ts ∧ Stands us node := by
  have hlexer : (Lexer.lex "a.b + [1,\n 'c', ]]").2 = [] := by decide +kernel
  have hspan : (ofSource "a.b + [1,\n 'c', ]]").expr.map Expr.span = some ⟨⟨1, 1⟩, ⟨2, 7⟩⟩ := by
    decide +kernel
  obtain ⟨e, he, hspan⟩ := Option.map_eq_some_iff.1 hspan
  exact ⟨hlexer, e, he, hspan, ofSource_spans hlexer he⟩

end Parsing

end JsonTemplate
