import Mathlib.Data.List.Forall2
import JsonTemplate.Expr.Program
import JsonTemplate.Proofs.Grammar.Faults
import JsonTemplate.Proofs.Reports

/-! When a text compiles, and what is reported if it does not. The lexer and the parser come first,
and their reports are put together. Only if both have nothing to report, there is an expression for
certain, and each of its calls that cannot be resolved is reported once. -/

namespace JsonTemplate

/-! ### The parts of a report -/

/-- How a text is parsed. -/
def Parsing.ofSource (source : String) : Parsing := .ofTokens (Lexer.lex source).1

def Lexer.report (source : String) : Report := .ofFaults source (lex source).2

def Parsing.report (source : String) : Report := .ofFaults source (ofSource source).faults

def Options.callReport (o : Options) (source : String) (e : Expr) : Report :=
  .ofList (e.subterms.filterMap (o.callDiagnostic? source))

theorem Report.ofFaults_eq_empty {source : String} {faults : List LocatedFault} :
    ofFaults source faults = empty ↔ faults = [] :=
  ofList_eq_empty.trans List.map_eq_nil_iff

theorem Report.extend_ofFaults (source : String) (faults more : List LocatedFault) :
    (ofFaults source faults).extend (ofFaults source more) = ofFaults source (faults ++ more) := by
  rw [ofFaults, ofFaults, extend_ofList, ← List.map_append, ofFaults]

/-- Without a report of the parser there is an expression. -/
theorem Parsing.ofSource_of_report {source : String} (h : report source = .empty) :
    ∃ e, ofSource source = ⟨some e, []⟩ :=
  exists_expr (Report.ofFaults_eq_empty.1 h)

/-! ### Calls -/

/-- A list with the results for those of its members that have one. -/
theorem forall₂_filterMap {α β : Type} {R : α → β → Prop} {p : α → Bool} {f : α → Option β}
    (hp : ∀ a, p a = (f a).isSome) (hR : ∀ {a b}, f a = some b → R a b) (l : List α) :
    List.Forall₂ R (l.filter p) (l.filterMap f) := by
  induction l with
  | nil => exact .nil
  | cons a rest ih =>
    cases hf : f a with
    | none =>
      rwa [List.filter_cons_of_neg (by rw [hp, hf]; nofun), List.filterMap_cons_none hf]
    | some b =>
      rw [List.filter_cons_of_pos (by rw [hp, hf]; rfl), List.filterMap_cons_some hf]
      exact .cons (hR hf) ih

namespace Options

variable {o : Options}

/-- The name is that of a function of the caller's own, or else of a builtin one that takes so many
arguments. -/
def accepts (o : Options) (name : String) (given : Nat) : Bool :=
  (o.function? name).isSome || (Builtin.ofName? name).any (·.arity.accepts given)

/-- The node is a call that cannot be resolved. -/
def rejects (o : Options) : Expr → Bool
  | .call _ function arguments => !o.accepts function.text arguments.length
  | _ => false

/-- The diagnostic tells what is wrong with a call: its name, or how many arguments it has. -/
inductive Blames (o : Options) : Expr → Diagnostic → Prop where
  | unknown {span : Span} {function : Name} {arguments : List Expr} {d : Diagnostic} :
    o.function? function.text = none → Builtin.ofName? function.text = none →
    d.code.text = "E200" → d.span = function.span → Blames o (.call span function arguments) d
  | miscounted {span : Span} {function : Name} {arguments : List Expr} {b : Builtin}
      {d : Diagnostic} :
    o.function? function.text = none → Builtin.ofName? function.text = some b →
    ¬b.arity.accepts arguments.length → d.code.text = "E201" → d.span = span →
    Blames o (.call span function arguments) d

theorem text_unknownFunction : Code.unknownFunction.text = "E200" := by decide

theorem text_wrongArgumentCount : Code.wrongArgumentCount.text = "E201" := by decide

theorem isSome_callFault? {name : String} {given : Nat} :
    (o.callFault? name given).isSome = !o.accepts name given := by
  unfold callFault? accepts
  cases o.function? name with
  | some f => rfl
  | none =>
    cases Builtin.ofName? name with
    | none => rfl
    | some b =>
      cases haccepts : b.arity.accepts given <;> simp [haccepts]

theorem rejects_eq (source : String) (node : Expr) :
    o.rejects node = (o.callDiagnostic? source node).isSome := by
  cases node with
  | call => rw [rejects, callDiagnostic?, Option.isSome_map, isSome_callFault?]
  | _ => rfl

theorem blames_of_callDiagnostic? {source : String} {node : Expr} {d : Diagnostic}
    (h : o.callDiagnostic? source node = some d) : o.Blames node d := by
  cases node with
  | call span function arguments =>
    obtain ⟨fault, hfault, rfl⟩ := Option.map_eq_some_iff.1 h
    unfold callFault? at hfault
    split at hfault
    · cases hfault
    · next hown =>
      have hown := Option.not_isSome_iff_eq_none.1 hown
      split at hfault
      · next b hb =>
        split at hfault
        · cases hfault
        · next haccepts =>
          cases hfault
          exact .miscounted hown hb haccepts text_wrongArgumentCount rfl
      · next hunknown =>
        cases hfault
        exact .unknown hown hunknown text_unknownFunction rfl
  | _ => cases h

/-- Each call that cannot be resolved has its diagnostic, in the order of the calls. -/
theorem forall₂_callDiagnostic? (source : String) (nodes : List Expr) :
    List.Forall₂ o.Blames (nodes.filter o.rejects) (nodes.filterMap (o.callDiagnostic? source)) :=
  forall₂_filterMap (rejects_eq source) blames_of_callDiagnostic? nodes

theorem filterMap_callDiagnostic?_eq_nil (source : String) {nodes : List Expr} :
    nodes.filterMap (o.callDiagnostic? source) = [] ↔
      ∀ span function arguments, .call span function arguments ∈ nodes →
        o.accepts function.text arguments.length := by
  rw [List.filterMap_eq_nil_iff]
  constructor
  · intro h span function arguments hmem
    have hnone := rejects_eq (o := o) source (.call span function arguments)
    rw [h _ hmem] at hnone
    simpa [rejects] using hnone
  · intro h node hmem
    rw [← Option.not_isSome_iff_eq_none, ← rejects_eq source]
    cases node with
    | call span function arguments => simpa [rejects] using h span function arguments hmem
    | _ => nofun

end Options

/-! ### Compiling -/

/-- The text is that of a program. -/
def Compiles (o : Options) (source : String) : Prop := ∃ p, Program.compile o source = .ok p

theorem compiles_of_isOk {o : Options} {source : String}
    (h : (Program.compile o source).isOk) : Compiles o source := by
  cases hp : Program.compile o source with
  | ok p => exact ⟨p, hp⟩
  | error report =>
    rw [hp] at h
    cases h

namespace Program

variable {o : Options} {source : String}

/-- The reports of the lexer and the parser together are the report of all their faults. -/
theorem reports_eq (source : String) :
    (Lexer.report source).extend (Parsing.report source) =
      .ofFaults source ((Lexer.lex source).2 ++ (Parsing.ofSource source).faults) :=
  Report.extend_ofFaults source _ _

theorem hasErrors_reports (h : ¬(Lexer.report source = .empty ∧ Parsing.report source = .empty)) :
    ((Lexer.report source).extend (Parsing.report source)).hasErrors := by
  rw [reports_eq, Report.ofFaults, Report.hasErrors_ofList]
  intro hnil
  obtain ⟨hlexer, hparser⟩ := List.append_eq_nil_iff.1 (List.map_eq_nil_iff.1 hnil)
  exact h ⟨Report.ofFaults_eq_empty.2 hlexer, Report.ofFaults_eq_empty.2 hparser⟩

/-- Anything that the lexer or the parser reports ends the compilation. -/
theorem compile_of_reports
    (h : ¬(Lexer.report source = .empty ∧ Parsing.report source = .empty)) :
    compile o source = .error ((Lexer.report source).extend (Parsing.report source)) := by
  unfold compile
  simp only
  split
  · rfl
  · exact if_pos (hasErrors_reports h)

/-- Otherwise only the calls decide. -/
theorem compile_of_expr {e : Expr} (hlexer : Lexer.report source = .empty)
    (hparser : Parsing.ofSource source = ⟨some e, []⟩) :
    compile o source =
      if (o.callReport source e).hasErrors then .error (o.callReport source e)
      else .ok ⟨source, e, o⟩ := by
  have hfaults : (Lexer.lex source).2 = [] := Report.ofFaults_eq_empty.1 hlexer
  have hparsing : Parsing.ofTokens (Lexer.lex source).1 = ⟨some e, []⟩ := hparser
  unfold compile
  simp only [hfaults, hparsing]
  rfl

theorem compile_eq_ok_iff {p : Program} :
    compile o source = .ok p ↔
      p.source = source ∧ p.options = o ∧ Lexer.report source = .empty ∧
        Parsing.report source = .empty ∧ (Parsing.ofSource source).expr = some p.expr ∧
        ∀ span function arguments, .call span function arguments ∈ p.expr.subterms →
          o.accepts function.text arguments.length := by
  by_cases hreports : Lexer.report source = .empty ∧ Parsing.report source = .empty
  · obtain ⟨hlexer, hparser⟩ := hreports
    obtain ⟨e, he⟩ := Parsing.ofSource_of_report hparser
    rw [compile_of_expr hlexer he, he, ← Options.filterMap_callDiagnostic?_eq_nil source]
    by_cases hcalls : (o.callReport source e).hasErrors
    · rw [if_pos hcalls]
      constructor
      · nofun
      · rintro ⟨-, -, -, -, hexpr, hnil⟩
        cases hexpr
        exact absurd hnil (Report.hasErrors_ofList.1 hcalls)
    · rw [if_neg hcalls]
      have hnil : e.subterms.filterMap (o.callDiagnostic? source) = [] :=
        Decidable.not_not.1 (mt Report.hasErrors_ofList.2 hcalls)
      constructor
      · intro h
        cases h
        exact ⟨rfl, rfl, hlexer, hparser, rfl, hnil⟩
      · rintro ⟨rfl, rfl, -, -, hexpr, -⟩
        cases hexpr
        rfl
  · rw [compile_of_reports hreports]
    constructor
    · nofun
    · rintro ⟨-, -, hlexer, hparser, -, -⟩
      exact absurd ⟨hlexer, hparser⟩ hreports

/-- What is reported for calls alone. -/
theorem callReport_of_compile_eq_error {r : Report} (h : compile o source = .error r)
    (hlexer : Lexer.report source = .empty) (hparser : Parsing.report source = .empty) :
    ∃ e, (Parsing.ofSource source).expr = some e ∧ r = o.callReport source e ∧ r.hasErrors := by
  obtain ⟨e, he⟩ := Parsing.ofSource_of_report hparser
  rw [compile_of_expr hlexer he] at h
  split at h
  · next hcalls =>
    cases h
    exact ⟨e, by rw [he], rfl, hcalls⟩
  · cases h

/-- A report of a compilation is one of a list of diagnostics, and not of none. -/
theorem exists_of_compile_eq_error {r : Report} (h : compile o source = .error r) :
    r.hasErrors ∧ ∃ ds, r = .ofList ds := by
  by_cases hreports : Lexer.report source = .empty ∧ Parsing.report source = .empty
  · obtain ⟨e, -, hr, herrors⟩ := callReport_of_compile_eq_error h hreports.1 hreports.2
    exact ⟨herrors, _, hr⟩
  · rw [compile_of_reports hreports] at h
    cases h
    exact ⟨hasErrors_reports hreports, _, reports_eq source⟩

end Program

/-- A text compiles exactly if the lexer and the parser report nothing and all calls name functions
that take as many arguments. Otherwise something is reported, and the first twenty diagnostics are
listed: those of the lexer and behind them those of the parser, or, if there are none of these, one
for each call that cannot be resolved, in their order. -/
theorem Program.compile_report (o : Options) (source : String) :
    (∀ p, compile o source = .ok p ↔
      p.source = source ∧ p.options = o ∧ Lexer.report source = .empty ∧
        Parsing.report source = .empty ∧ (Parsing.ofSource source).expr = some p.expr ∧
        ∀ span function arguments, .call span function arguments ∈ p.expr.subterms →
          o.accepts function.text arguments.length) ∧
    ∀ r, compile o source = .error r →
      1 ≤ r.total ∧ r.listed.length = min r.total 20 ∧
      (¬(Lexer.report source = .empty ∧ Parsing.report source = .empty) →
        r.listed = ((Lexer.report source).listed ++ (Parsing.report source).listed).take 20 ∧
          r.total = (Lexer.report source).total + (Parsing.report source).total) ∧
      (Lexer.report source = .empty → Parsing.report source = .empty →
        ∃ e, (Parsing.ofSource source).expr = some e ∧
          r.total = (e.subterms.filter o.rejects).length ∧
          List.Forall₂ o.Blames ((e.subterms.filter o.rejects).take 20) r.listed) := by
  refine ⟨fun p => compile_eq_ok_iff, fun r h => ?_⟩
  obtain ⟨herrors, ds, hds⟩ := exists_of_compile_eq_error h
  refine ⟨of_decide_eq_true herrors, ?_, fun hreports => ?_, fun hlexer hparser => ?_⟩
  · rw [hds]
    exact Report.length_listed_ofList ds
  · rw [compile_of_reports hreports] at h
    cases h
    exact ⟨Report.listed_extend (Report.length_listed_le _),
      Report.total_extend (Report.length_listed_le_total _)⟩
  · obtain ⟨e, he, hr, -⟩ := callReport_of_compile_eq_error h hlexer hparser
    have hcalls := Options.forall₂_callDiagnostic? (o := o) source e.subterms
    rw [Options.callReport, Report.ofList_eq] at hr
    rw [hr]
    exact ⟨e, he, hcalls.length_eq.symm, List.forall₂_take 20 hcalls⟩

/-- An unknown function and a function that lacks its argument. -/
theorem Program.compile_report_calls :
    ∃ r, compile .empty "shout(1) + len()" = .error r ∧
      1 ≤ r.total ∧ r.listed.length = min r.total 20 ∧
      ∃ e, (Parsing.ofSource "shout(1) + len()").expr = some e ∧
        r.total = (e.subterms.filter Options.empty.rejects).length ∧
        List.Forall₂ Options.empty.Blames ((e.subterms.filter Options.empty.rejects).take 20)
          r.listed := by
  have hlexer : Lexer.report "shout(1) + len()" = .empty := by decide +kernel
  have hparser : Parsing.report "shout(1) + len()" = .empty := by decide +kernel
  have hfails : ¬(compile .empty "shout(1) + len()").isOk := by decide +kernel
  cases hr : compile .empty "shout(1) + len()" with
  | ok p =>
    rw [hr] at hfails
    exact absurd rfl hfails
  | error r =>
    obtain ⟨htotal, hlisted, -, hcalls⟩ :=
      (compile_report .empty "shout(1) + len()").2 r hr
    exact ⟨r, rfl, htotal, hlisted, hcalls hlexer hparser⟩

end JsonTemplate
