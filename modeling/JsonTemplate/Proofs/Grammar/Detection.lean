import JsonTemplate.Proofs.Grammar.Acceptance
import JsonTemplate.Proofs.Grammar.Faults
import JsonTemplate.Proofs.Grammar.Locality
import JsonTemplate.Proofs.Grammar.Viability

/-! A fault is found at the first token that cannot be there. What stands in front of it can be
gone on with, since the parser gives up behind the start of a phrase only. With the token it
cannot: the fault stays the same whatever follows, and a sentence would be read. -/

namespace JsonTemplate

open Token (Kind)

namespace Grammar

/-- The tokens are the start of a sentence and the end token behind it. -/
def Viable (ts : List Kind) : Prop :=
  ∃ us body x, Sentence body x ∧ ts ++ us = body ++ [.eof]

theorem Extendable.viable {ts : List Kind} (h : Extendable (.expr .conditional) ts) :
    Viable ts := by
  obtain ⟨us, x, hx⟩ := h
  exact ⟨us ++ [.eof], ts ++ us, x, hx, (List.append_assoc _ _ _).symm⟩

end Grammar

/-- There is a next token in front of the end. -/
theorem ParserState.Ended.exists_rest {s : ParserState} (h : s.Ended) :
    ∃ t after, s.rest = t :: after ∧ s.here = t.span := by
  obtain ⟨ts, hts, -⟩ := h
  obtain ⟨_ | ⟨t, after⟩, last, previous, depth, faults⟩ := s
  · simp [kinds] at hts
  · exact ⟨t, after, rfl, rfl⟩

namespace Parsing

open Grammar
open JsonTemplate.Parser
open ParserState (Consumes)

variable {before after body : List Token} {t e : Token} {f : LocatedFault} {s : ParserState}

/-- A viable list of tokens goes on to one that is read without a fault, or nested too deep. -/
theorem exists_after_of_viable (h : Viable ((before ++ [t]).map Token.kind)) :
    ∃ after, (ofTokens (before ++ t :: after)).faults = [] ∨
      ∃ span, (ofTokens (before ++ t :: after)).faults = [⟨.tooDeep, span⟩] := by
  obtain ⟨us, kinds, x, hx, hus⟩ := h
  have hkinds : (before ++ t :: us.map fun k => ⟨k, default⟩).map Token.kind = kinds ++ [.eof] := by
    simpa [Function.comp_def] using hus
  obtain ⟨body, ends, htokens, hbody, hends⟩ := List.map_eq_append_iff.1 hkinds
  obtain ⟨e, rfl, he⟩ := List.map_eq_singleton_iff.1 hends
  have hne : ∀ token ∈ body, token.kind ≠ .eof := by
    intro token hmem heof
    have hin := List.mem_map_of_mem hmem (f := Token.kind)
    rw [hbody, heof] at hin
    exact hx.eof_notMem hin
  rw [← hbody] at hx
  refine ⟨us.map fun k => ⟨k, default⟩, ?_⟩
  rw [htokens]
  rcases ofTokens_of_sentence he hne hx with ⟨y, -, hy⟩ | ⟨-, span, hdeep⟩
  · exact .inl (by rw [hy])
  · exact .inr ⟨span, by rw [hdeep]⟩

/-- A token is impossible if the same fault is found there whatever follows. -/
theorem not_viable (hf : f.fault ≠ .tooDeep)
    (h : ∀ after, (ofTokens (before ++ t :: after)).faults = [f]) :
    ¬Viable ((before ++ [t]).map Token.kind) := by
  intro hviable
  obtain ⟨after, hnone | ⟨span, hdeep⟩⟩ := exists_after_of_viable hviable
  · rw [h after] at hnone
    cases hnone
  · rw [h after] at hdeep
    obtain rfl := List.singleton_inj.1 hdeep
    exact hf rfl

/-- A fault is found at the first token that is not consumed, if what is consumed can be gone on
with. -/
theorem found_behind {tokens ts : List Token} {found : Option Expr}
    (hrun : expression (start tokens) = (found, s)) (hc : Consumes (start tokens) ts s)
    (hts : Extendable (.expr .conditional) (ts.map Token.kind))
    (hfaults : (ofTokens tokens).faults = [f]) (hspan : f.span = s.here)
    (hf : f.fault ≠ .tooDeep) :
    ∃ before t after, tokens = before ++ t :: after ∧ f.span = t.span ∧
      Viable (before.map Token.kind) ∧ ¬Viable ((before ++ [t]).map Token.kind) := by
  obtain ⟨t, after, hrest, hhere⟩ := hc.ended.exists_rest
  have htokens : tokens = ts ++ t :: after := by
    rw [← hrest]
    exact hc.rest
  refine ⟨ts, t, after, htokens, hspan.trans hhere, hts.viable, not_viable hf fun after' => ?_⟩
  subst htokens
  rw [ofTokens_alike hrun hrest after', hfaults]

/-- No list of tokens has more than one fault. -/
theorem faults_eq_singleton {tokens : List Token} (hf : f ∈ (ofTokens tokens).faults) :
    (ofTokens tokens).faults = [f] := by
  rcases ofTokens_cases tokens with ⟨g, -, h⟩ | ⟨x, g, -, h⟩ | ⟨x, h⟩ <;> rw [h] at hf ⊢
  · rw [List.mem_singleton.1 hf]
  · rw [List.mem_singleton.1 hf]
  · cases hf

theorem faults_of_eof (he : e.kind = .eof) (after : List Token) :
    (ofTokens (e :: after)).faults = [⟨.emptyExpression, e.span⟩] := by
  have hkind : (start (e :: after)).kind = .eof := he
  rw [ofTokens, if_pos hkind]
  rfl

/-- The fault behind an expression is at the next token. -/
theorem fault_behind {tokens : List Token} {x : Expr} (hne : (start tokens).kind ≠ .eof)
    (hrun : expression (start tokens) = (some x, s)) (hf : f ∈ (ofTokens tokens).faults) :
    f.span = s.here := by
  have hs : s.faults = [] := stopsAtFault_expression.of_some hrun
  simp only [ofTokens, if_neg hne, hrun] at hf
  split at hf
  · rw [hs] at hf
    cases hf
  · rw [ParserState.report, hs] at hf
    rw [List.mem_singleton.1 hf]

/-- A fault, unless it is that the nesting is too deep, is found at the first impossible token:
the tokens in front of it can be gone on with to a sentence and the end token, but not those up
to it. -/
theorem fault_at_first_impossible (he : e.kind = .eof)
    (hbody : ∀ token ∈ body, token.kind ≠ .eof) (hf : f ∈ (ofTokens (body ++ [e])).faults)
    (hcode : f.fault.code ≠ .nestingLimit) :
    ∃ before t after, body ++ [e] = before ++ t :: after ∧ f.span = t.span ∧
      Viable (before.map Token.kind) ∧ ¬Viable ((before ++ [t]).map Token.kind) := by
  have hdeep : f.fault ≠ .tooDeep := fun h => hcode (by rw [h]; rfl)
  have hended := ParserState.ended_start he hbody
  have hfaults := faults_eq_singleton hf
  by_cases hempty : (start (body ++ [e])).kind = .eof
  · obtain rfl := (kind_start he hbody).1 hempty
    obtain rfl := List.singleton_inj.1 (hfaults.symm.trans (faults_of_eof he []))
    exact ⟨[], e, [], rfl, rfl, (extendable_nil _).viable, not_viable hdeep (faults_of_eof he)⟩
  cases hrun : expression (start (body ++ [e])) with
  | mk found s =>
    cases found with
    | none =>
      have hs : s.faults = [f] := by
        simpa [ofTokens, hempty, hrun] using hfaults
      cases fails_expressionWithin _ hended hrun with
      | tooDeep h =>
        rw [hs] at h
        exact absurd (congrArg LocatedFault.fault (Option.some.inj h)) hdeep
      | behind h hc hts =>
        rw [hs] at h
        have hspan := congrArg LocatedFault.span (Option.some.inj h)
        exact found_behind hrun hc hts hfaults hspan hdeep
    | some x =>
      obtain ⟨ts, hc, hx⟩ := reads_expressionWithin _ hended hrun
      exact found_behind hrun hc hx.phrase.extendable hfaults (fault_behind hempty hrun hf) hdeep

/-- In `a b` it is the second name. -/
theorem fault_at_first_impossible_name :
    let place : Span := ⟨⟨1, 3⟩, ⟨1, 4⟩⟩
    let body : List Token := [⟨.identifier "a", default⟩, ⟨.identifier "b", place⟩]
    ∃ before t after, body ++ [⟨.eof, default⟩] = before ++ t :: after ∧ place = t.span ∧
      Viable (before.map Token.kind) ∧ ¬Viable ((before ++ [t]).map Token.kind) := by
  intro place body
  have hbody : ∀ token ∈ body, token.kind ≠ .eof := by simp [body]
  have hf : (⟨.trailingInput (.identifier "b"), place⟩ : LocatedFault) ∈
      (ofTokens (body ++ [⟨.eof, default⟩])).faults := by
    decide +kernel
  exact fault_at_first_impossible rfl hbody hf (by decide)

end Parsing

end JsonTemplate
