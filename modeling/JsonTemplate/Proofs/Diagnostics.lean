import JsonTemplate.Proofs.Lexing.Bounds
import JsonTemplate.Proofs.Spans

/-! Where diagnostics point. A fault of the lexer is on what was read there, a fault of the parser
on one of the tokens, and a faulty call on its name or on all of it. Each of them names lines that
the text has, and quotes the first of these. -/

namespace JsonTemplate

/-! ### Lines -/

namespace Source

theorem lines_eq_splitOn (s : List Char) : lines s = s.splitOn '\n' := by
  induction s with
  | nil => rfl
  | cons c rest ih =>
    rw [lines, List.splitOn, List.splitOnP_cons_eq_if_modifyHead, ← List.splitOn, ← ih]
    by_cases hc : c = '\n'
    · rw [if_pos hc, if_pos (by rw [hc]; rfl)]
    · rw [if_neg hc, if_neg (by simpa using hc)]
      cases hlines : lines rest with
      | nil => exact absurd hlines (lines_ne_nil rest)
      | cons line others => rfl

/-- The text is what stands on the line with the number, counted from 1, without the carriage
return that may be in front of its newline. -/
inductive Quotes (source : String) (number : Nat) (text : String) : Prop where
  | plain : (source.toList.splitOn '\n')[number - 1]? = some text.toList →
    text.toList.getLast? ≠ some '\r' → Quotes source number text
  | returned : (source.toList.splitOn '\n')[number - 1]? = some (text.toList ++ ['\r']) →
    Quotes source number text

variable {source : String} {number : Nat}

/-- A line that the text has is found, and quoted as it stands. -/
theorem line?_lineText (hpos : 1 ≤ number) (hle : number ≤ (lines source.toList).length) :
    line? source number = some (lineText source number) ∧
      Quotes source number (lineText source number) := by
  have hlt : number - 1 < (lines source.toList).length := by omega
  obtain ⟨line, hline⟩ : ∃ line, (lines source.toList)[number - 1]? = some line :=
    ⟨_, List.getElem?_eq_getElem hlt⟩
  have hsplit := hline
  rw [lines_eq_splitOn] at hsplit
  have hfound : line? source number = some (String.ofList (dropReturn line)) := by
    rw [line?, if_neg (Nat.ne_of_gt hpos), hline, Option.map_some]
  have htext : lineText source number = String.ofList (dropReturn line) := by
    rw [lineText, hfound, Option.getD_some]
  refine ⟨by rw [hfound, htext], ?_⟩
  rw [htext]
  by_cases hreturn : line.getLast? = some '\r'
  · apply Quotes.returned
    obtain ⟨init, rfl⟩ := List.getLast?_eq_some_iff.1 hreturn
    rw [hsplit, dropReturn, if_pos hreturn, String.toList_ofList, List.dropLast_concat]
  · apply Quotes.plain
    · rw [hsplit, dropReturn, if_neg hreturn, String.toList_ofList]
    · rwa [dropReturn, if_neg hreturn, String.toList_ofList]

end Source

/-! ### Diagnostics -/

/-- The diagnostic goes forward from one line of the source to another and quotes the first of
these, and its category is that of its code. -/
structure Diagnostic.PointsInto (source : String) (d : Diagnostic) : Prop where
  first : 1 ≤ d.span.start.line
  lines : d.span.start.line ≤ d.span.stop.line
  last : d.span.stop.line ≤ (source.toList.splitOn '\n').length
  upright : d.span.start ≤ d.span.stop
  found : Source.line? source d.span.start.line = some d.sourceLine
  quotes : Source.Quotes source d.span.start.line d.sourceLine
  category : d.category = d.code.category

section
variable {source : String}

theorem Diagnostic.pointsInto_of_within {d : Diagnostic} (h : d.span.Within source.toList)
    (hline : d.sourceLine = Source.lineText source d.span.start.line)
    (hcategory : d.category = d.code.category) : d.PointsInto source := by
  obtain ⟨hfound, hquotes⟩ := Source.line?_lineText h.first (h.lines_le.trans h.last)
  rw [← hline] at hfound hquotes
  refine ⟨h.first, h.lines_le, ?_, h.upright, hfound, hquotes, hcategory⟩
  rw [← Source.lines_eq_splitOn]
  exact h.last

theorem LocatedFault.pointsInto {f : LocatedFault} (h : f.span.Within source.toList) :
    (f.diagnostic source).PointsInto source :=
  Diagnostic.pointsInto_of_within h rfl rfl

/-- There is always the end token. -/
theorem Lexer.scan_ne_nil (found : Nat) (c : Cursor) : (scan found c).1 ≠ [] := by
  fun_induction scan found c with
  | case3 _ _ _ _ _ _ _ _ _ _ _ tokens faults hrest ih => rwa [hrest] at ih
  | _ => exact List.cons_ne_nil _ _

/-- The faults of the parser are in the text, since all tokens are. -/
theorem Parsing.within_faults (source : String) :
    ∀ f ∈ (ofSource source).faults, f.span.Within source.toList := by
  intro f hf
  obtain ⟨t, ht, hspan⟩ := exists_token_of_faults (Lexer.scan_ne_nil 0 _) f hf
  rw [← hspan]
  exact (Lexer.within_lex source).1 t ht

/-! ### Calls -/

namespace Grammar

variable {ts : List Token}

/-- If the node is a call, the tokens start with its name. -/
def Heads (ts : List Token) : Expr → Prop
  | .call _ function _ => ∃ k, ts.head? = some ⟨k, function.span⟩
  | _ => True

/-- What is to be shown of trees that may be calls. -/
def Named : (n : Nonterminal) → List Token → n.Tree → Prop
  | .expr _, ts, e => Heads ts e
  | .items, _, _ | .entry, _, _ | .entries, _, _ => True

theorem Spelled.named {n : Nonterminal} {tree : n.Tree} (h : Spelled n ts tree) :
    Named n ts tree := by
  induction h with
  | call function => exact ⟨_, rfl⟩
  | tighter _ _ ih => exact ih
  | literal h => cases h <;> trivial
  | chained _ hop => cases hop <;> trivial
  | _ => trivial

/-- Every call has tokens in order, the first of which is its name. -/
theorem Spelled.exists_call {e : Expr} {r : Rank} (h : Spelled (.expr r) ts e) (hts : Ordered ts)
    {span : Span} {function : Name} {arguments : List Expr}
    (hnode : .call span function arguments ∈ e.subterms) :
    ∃ first ∈ ts, ∃ last ∈ ts, first.span = function.span ∧ span.start = function.span.start ∧
      span.stop = last.span.stop ∧ span.start ≤ span.stop := by
  obtain ⟨q, us, hus, hcall⟩ := h.exists_infix _ hnode
  have hordered := hts.sublist hus.sublist
  have hextent : Extent us span := hcall.exact hordered
  obtain ⟨k, hname⟩ : ∃ k, us.head? = some ⟨k, function.span⟩ := hcall.named
  obtain ⟨first, hfirst, hstart⟩ := hextent.start
  obtain ⟨last, hlast, hstop⟩ := hextent.stop
  cases hname.symm.trans hfirst
  exact ⟨_, hus.subset (List.mem_of_mem_head? hfirst), last,
    hus.subset (List.mem_of_getLast? hlast), rfl, hstart.symm, hstop.symm,
    hextent.upright hordered⟩

end Grammar

/-- The nodes of an expression that is read from a text without a fault of the lexer are spelled by
tokens of the text. -/
theorem Parsing.exists_spelled {e : Expr} (hlexer : (Lexer.lex source).2 = [])
    (h : (ofSource source).expr = some e) :
    ∃ r ts, ts ⊆ (Lexer.lex source).1 ∧ Grammar.Ordered ts ∧ Grammar.Spelled (.expr r) ts e := by
  have hlaid := Lexer.laid_of_lex hlexer
  obtain ⟨s, hrun⟩ := exists_of_expr h
  obtain ⟨ts, hts, hspelled⟩ := Parser.reads_expressionWithin _ hlaid.ended hrun
  have htokens : (Lexer.lex source).1 = ts ++ s.rest := hts.rest
  refine ⟨_, ts, ?_, (htokens ▸ hlaid.ordered.1).left, hspelled⟩
  rw [htokens]
  exact List.subset_append_left ts _

/-- The diagnostic of a call is about its name or about all of it, and quotes the line of the
name. -/
theorem Options.span_callDiagnostic? {o : Options} {node : Expr} {d : Diagnostic}
    (h : o.callDiagnostic? source node = some d) :
    ∃ span function arguments, node = .call span function arguments ∧
      (d.span = function.span ∨ d.span = span) ∧
      d.sourceLine = Source.lineText source function.span.start.line ∧
      d.category = d.code.category := by
  cases node with
  | call span function arguments =>
    obtain ⟨fault, -, rfl⟩ := Option.map_eq_some_iff.1 h
    refine ⟨span, function, arguments, rfl, ?_, rfl, rfl⟩
    cases fault with
    | unknownFunction => exact .inl rfl
    | wrongArgumentCount => exact .inr rfl
  | _ => cases h

/-- A call starts on the line of its name, so that this line is the right one for both. -/
theorem Options.pointsInto_callDiagnostic? {o : Options} {e node : Expr} {d : Diagnostic}
    (hlexer : (Lexer.lex source).2 = []) (he : (Parsing.ofSource source).expr = some e)
    (hnode : node ∈ e.subterms) (h : o.callDiagnostic? source node = some d) :
    d.PointsInto source := by
  have hwithin := (Lexer.within_lex source).1
  obtain ⟨r, ts, hts, hordered, hspelled⟩ := Parsing.exists_spelled hlexer he
  obtain ⟨span, function, arguments, rfl, hspan, hline, hcategory⟩ := span_callDiagnostic? h
  obtain ⟨first, hfirst, last, hlast, hname, hstart, hstop, hle⟩ :=
    hspelled.exists_call hordered hnode
  have hfirst := hwithin first (hts hfirst)
  have hlast := hwithin last (hts hlast)
  rw [hname] at hfirst
  rcases hspan with hspan | hspan
  · exact Diagnostic.pointsInto_of_within (hspan ▸ hfirst) (hspan ▸ hline) hcategory
  · rw [← hstart, ← hspan] at hline
    exact Diagnostic.pointsInto_of_within (hspan ▸ hfirst.between hlast hstart hstop hle) hline
      hcategory

/-- Every diagnostic that is listed when a text does not compile goes forward from one line of the
text to another and quotes the first of these. -/
theorem Program.compile_pointsInto {o : Options} {r : Report}
    (h : compile o source = .error r) : ∀ d ∈ r.listed, d.PointsInto source := by
  intro d hd
  by_cases hreports : Lexer.report source = .empty ∧ Parsing.report source = .empty
  · obtain ⟨hlexer, hparser⟩ := hreports
    obtain ⟨e, he, rfl, -⟩ := callReport_of_compile_eq_error h hlexer hparser
    rw [Options.callReport, Report.ofList_eq] at hd
    obtain ⟨node, hnode, hd⟩ := List.mem_filterMap.1 (List.mem_of_mem_take hd)
    exact Options.pointsInto_callDiagnostic? (Report.ofFaults_eq_empty.1 hlexer) he hnode hd
  · rw [compile_of_reports hreports] at h
    cases h
    rw [reports_eq, Report.ofFaults, Report.ofList_eq] at hd
    obtain ⟨f, hf, rfl⟩ := List.mem_map.1 (List.mem_of_mem_take hd)
    apply LocatedFault.pointsInto
    rcases List.mem_append.1 hf with hf | hf
    · exact (Lexer.within_lex source).2 f hf
    · exact Parsing.within_faults source f hf

end

/-- An escaped newline, which is no escape, in a string that is not closed. -/
theorem Program.compile_pointsInto_string :
    ∃ r, compile .empty "1 +\r\n 'a\\\n" = .error r ∧ r.listed.length = 2 ∧
      ∀ d ∈ r.listed, d.PointsInto "1 +\r\n 'a\\\n" := by
  have hlisted : (match compile .empty "1 +\r\n 'a\\\n" with
      | .ok _ => 0
      | .error r => r.listed.length) = 2 := by decide +kernel
  cases hr : compile .empty "1 +\r\n 'a\\\n" with
  | ok p =>
    rw [hr] at hlisted
    cases hlisted
  | error r =>
    rw [hr] at hlisted
    exact ⟨r, rfl, hlisted, compile_pointsInto hr⟩

end JsonTemplate
