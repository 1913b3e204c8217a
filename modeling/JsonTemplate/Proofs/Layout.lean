import JsonTemplate.Proofs.Compilation
import JsonTemplate.Proofs.Evaluation.Height
import JsonTemplate.Proofs.Grammar.Alike

/-! Layout is insignificant. Texts whose tokens are of the same kinds compile to programs that do
the same, or fail with the same codes: the blanks between the tokens, the quotes around strings and
the underscores in numbers decide where tokens stand and nothing else. -/

namespace JsonTemplate

/-! ### Expressions without spans -/

namespace Expr

section
variable (o : Options) (context : Fields Value)

mutual

/-- The value of an expression does not depend on spans. -/
theorem eval_bare : ∀ e : Expr, e.bare.eval o context = e.eval o context
  | .int .. | .float .. | .string .. | .bool .. | .nil _ | .identifier .. => by
    simp only [bare, eval]
  | .array _ items => by
    simp only [bare, eval, evalItems_bareItems items]
  | .map _ entries => by
    simp only [bare, eval, evalEntries_bareEntries entries]
  | .member _ object _ => by
    simp only [bare, eval, eval_bare object]
  | .index _ object place => by
    simp only [bare, eval, eval_bare object, eval_bare place]
  | .call _ _ arguments => by
    simp only [bare, eval, evalItems_bareItems arguments]
  | .unary _ _ operand => by
    simp only [bare, eval, eval_bare operand]
  | .binary _ _ left right => by
    simp only [bare, eval, eval_bare left, eval_bare right]
  | .lazy _ _ left right => by
    simp only [bare, eval, eval_bare left, eval_bare right]
  | .conditional _ condition yes no => by
    simp only [bare, eval, eval_bare condition, eval_bare yes, eval_bare no]
  | .paren _ inner => by
    simp only [bare, eval, eval_bare inner]

theorem evalItems_bareItems :
    ∀ items : List Expr, evalItems o context (bareItems items) = evalItems o context items
  | [] => rfl
  | e :: rest => by
    simp only [bareItems, evalItems, eval_bare e, evalItems_bareItems rest]

theorem evalEntries_bareEntries : ∀ entries : List (String × Expr),
    evalEntries o context (bareEntries entries) = evalEntries o context entries
  | [] => rfl
  | (_, e) :: rest => by
    simp only [bareEntries, evalEntries, eval_bare e, evalEntries_bareEntries rest]

end

end

theorem bareItems_eq (items : List Expr) : bareItems items = items.map bare := by
  induction items with
  | nil => rfl
  | cons e rest ih => rw [bareItems, ih, List.map_cons]

theorem bareEntries_eq (entries : List (String × Expr)) :
    bareEntries entries = entries.map (Prod.map id bare) := by
  induction entries with
  | nil => rfl
  | cons entry rest ih =>
    rw [bareEntries, ih, List.map_cons]
    rfl

theorem children_bare (e : Expr) : e.bare.children = e.children.map bare := by
  cases e <;> simp [bare, children, bareItems_eq, bareEntries_eq]

theorem subterms_bare (e : Expr) : e.bare.subterms = e.subterms.map bare := by
  induction e using induction_children with
  | h e ih =>
    rw [subterms_eq, subterms_eq e, children_bare, List.map_cons, List.map_flatten, List.map_map,
      List.map_map]
    congr 2
    exact List.map_congr_left ih

end Expr

/-! ### Codes -/

/-- The code of a faulty call depends neither on its spans nor on the text around it. -/
theorem Options.code_callDiagnostic?_bare (o : Options) (source source' : String) (e : Expr) :
    (o.callDiagnostic? source' e.bare).map (·.code) =
      (o.callDiagnostic? source e).map (·.code) := by
  cases e with
  | call span function arguments =>
    simp only [Expr.bare, callDiagnostic?, Option.map_map, Expr.bareItems_eq, List.length_map]
    rfl
  | _ => rfl

/-- The codes of the faulty calls, without the rest of their diagnostics. -/
theorem Options.codes_bare (o : Options) (source source' : String) (e : Expr) :
    (e.bare.subterms.filterMap (o.callDiagnostic? source')).map (·.code) =
      (e.subterms.filterMap (o.callDiagnostic? source)).map (·.code) := by
  rw [Expr.subterms_bare, List.map_filterMap, List.map_filterMap, List.filterMap_map]
  apply List.filterMap_congr
  intro node _
  exact o.code_callDiagnostic?_bare source source' node

/-- The reports count as many faults, and those that they list have the same codes. -/
def Report.SameCodes (r r' : Report) : Prop :=
  r.listed.map (·.code) = r'.listed.map (·.code) ∧ r.total = r'.total

theorem Report.sameCodes_ofList {ds es : List Diagnostic}
    (h : ds.map (·.code) = es.map (·.code)) : (ofList ds).SameCodes (ofList es) := by
  rw [ofList_eq, ofList_eq]
  refine ⟨?_, ?_⟩
  · rw [List.map_take, List.map_take, h]
  · simpa only [List.length_map] using congrArg List.length h

theorem Report.SameCodes.hasErrors {r r' : Report} (h : r.SameCodes r') :
    r.hasErrors = r'.hasErrors := by
  rw [Report.hasErrors, Report.hasErrors, h.2]

theorem Report.sameCodes_ofFaults (source source' : String) {faults faults' : List LocatedFault}
    (h : faults.map LocatedFault.fault = faults'.map LocatedFault.fault) :
    (ofFaults source faults).SameCodes (ofFaults source' faults') := by
  have hcodes (source : String) (faults : List LocatedFault) :
      (faults.map (·.diagnostic source)).map (·.code) =
        (faults.map LocatedFault.fault).map Fault.code := by
    rw [List.map_map, List.map_map]
    rfl
  apply sameCodes_ofList
  rw [hcodes, hcodes, h]

/-! ### Programs -/

namespace Program

/-- Both compilations give programs, which do the same in every context, or both fail with the same
codes. -/
inductive SameOutcome : Except Report Program → Except Report Program → Prop where
  | ok {p p' : Program} : (∀ context, p.run context = p'.run context) → SameOutcome (.ok p) (.ok p')
  | error {r r' : Report} : r.SameCodes r' → SameOutcome (.error r) (.error r')

variable {source source' : String}

theorem sameOutcome_of_expr {o : Options} {e e' : Expr} (h : e.bare = e'.bare) :
    SameOutcome
      (if (o.callReport source e).hasErrors then .error (o.callReport source e)
        else .ok ⟨source, e, o⟩)
      (if (o.callReport source' e').hasErrors then .error (o.callReport source' e')
        else .ok ⟨source', e', o⟩) := by
  have hcodes : (o.callReport source e).SameCodes (o.callReport source' e') := by
    apply Report.sameCodes_ofList
    rw [← o.codes_bare source source e, h, o.codes_bare source' source e']
  rw [hcodes.hasErrors]
  split
  · exact .error hcodes
  · apply SameOutcome.ok
    intro context
    calc e.eval o context = e.bare.eval o context := (e.eval_bare o context).symm
      _ = e'.bare.eval o context := by rw [h]
      _ = e'.eval o context := e'.eval_bare o context

/-- Two texts that are read without a fault, as tokens of the same kinds, have the same outcome:
programs that do the same in every context, or reports of the same codes in the same order. -/
theorem compile_layout (o : Options) (h : (Lexer.lex source).2 = [])
    (h' : (Lexer.lex source').2 = [])
    (hkinds : (Lexer.lex source).1.map Token.kind = (Lexer.lex source').1.map Token.kind) :
    SameOutcome (compile o source) (compile o source') := by
  obtain ⟨hexpr, hfaults⟩ := Parsing.ofTokens_congr hkinds
  unfold compile
  simp only [h, h']
  generalize Parsing.ofTokens (Lexer.lex source).1 = parsing at hexpr hfaults
  generalize Parsing.ofTokens (Lexer.lex source').1 = parsing' at hexpr hfaults
  obtain ⟨x, faults⟩ := parsing
  obtain ⟨x', faults'⟩ := parsing'
  have hcodes : ((Report.ofFaults source []).extend (.ofFaults source faults)).SameCodes
      ((Report.ofFaults source' []).extend (.ofFaults source' faults')) := by
    rw [Report.extend_ofFaults, Report.extend_ofFaults]
    exact Report.sameCodes_ofFaults source source' hfaults
  cases hexpr with
  | none => exact .error hcodes
  | some he =>
    simp only [hcodes.hasErrors]
    split
    · exact .error hcodes
    · exact sameOutcome_of_expr he.symm

/-- Two layouts of one expression. -/
theorem compile_layout_sum :
    let source := "len('ab')+1_0"
    let source' := " len ( \"ab\" )\n+ 10 "
    (Lexer.lex source).2 = [] ∧ (Lexer.lex source').2 = [] ∧
      (Lexer.lex source).1.map Token.kind = (Lexer.lex source').1.map Token.kind ∧
      ∃ p p', compile .empty source = .ok p ∧ compile .empty source' = .ok p' ∧
        ∀ context, p.run context = p'.run context := by
  intro source source'
  have h : (Lexer.lex source).2 = [] := by decide +kernel
  have h' : (Lexer.lex source').2 = [] := by decide +kernel
  have hkinds : (Lexer.lex source).1.map Token.kind = (Lexer.lex source').1.map Token.kind := by
    decide +kernel
  have hok : (compile .empty source).isOk := by decide +kernel
  have hsame := compile_layout .empty h h' hkinds
  refine ⟨h, h', hkinds, ?_⟩
  generalize compile .empty source = outcome at hok hsame
  generalize compile .empty source' = outcome' at hsame
  cases hsame with
  | ok hrun => exact ⟨_, _, rfl, rfl, hrun⟩
  | error => cases hok

end Program

end JsonTemplate
