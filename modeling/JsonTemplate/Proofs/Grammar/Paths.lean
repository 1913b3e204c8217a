import JsonTemplate.Proofs.Grammar.Logged
import JsonTemplate.Proofs.Grammar.Progress

/-! The states that the parser goes through. Each follows from the one before by a single step: a
token is consumed, a fault is reported, a level is taken up, or levels are given back. The record of
the parser has all of them, and keeping it changes nothing. -/

namespace JsonTemplate

open Grammar (Rank)
open Token (Kind)

namespace ParserState

variable {s t u : ParserState} {states more : List ParserState} {tokens : List Token}

/-! ### Steps from state to state -/

/-- What one step does to the state of a parser. -/
inductive Step : ParserState → ParserState → Prop where
  | stay {s : ParserState} : Step s s
  | next {s : ParserState} : Step s s.next
  | report {s : ParserState} (fault : Fault) : Step s (s.report fault)
  | enter {s : ParserState} : s.depth < nestingLimit → Step s { s with depth := s.depth + 1 }
  | leave {s : ParserState} : Step s s.leave
  | giveBack {s : ParserState} {depth : Nat} : depth ≤ s.depth → Step s { s with depth := depth }

/-- The states that lead from the first one to the last one step by step, the last one included. -/
inductive Path : ParserState → List ParserState → ParserState → Prop where
  | nil {s : ParserState} : Path s [] s
  | cons {s t u : ParserState} {states : List ParserState} : Step s t → Path t states u →
    Path s (t :: states) u

theorem Path.append (h : Path s states t) (h' : Path t more u) : Path s (states ++ more) u := by
  induction h with
  | nil => exact h'
  | cons hstep _ ih => exact .cons hstep (ih h')

theorem Step.path (h : Step s t) : Path s [t] t := .cons h .nil

theorem Step.depth_le (h : Step s t) (hs : s.depth ≤ nestingLimit) : t.depth ≤ nestingLimit := by
  cases h with
  | stay | report => exact hs
  | next => rwa [depth_next]
  | enter hlt => exact hlt
  | leave => exact Nat.le_trans (Nat.sub_le _ 1) hs
  | giveBack hle => exact Nat.le_trans hle hs

theorem Path.depth_le (h : Path s states t) (hs : s.depth ≤ nestingLimit) :
    ∀ u ∈ states, u.depth ≤ nestingLimit := by
  induction h with
  | nil => exact List.forall_mem_nil _
  | cons hstep _ ih =>
    have ht := hstep.depth_le hs
    exact List.forall_mem_cons.2 ⟨ht, ih ht⟩

/-! ### Cursors -/

/-- How many of the tokens are consumed. -/
def cursor (tokens : List Token) (s : ParserState) : Nat := tokens.length - s.rest.length

/-- The state is one of reading the tokens: the ones behind the cursor are left. -/
structure Over (tokens : List Token) (s : ParserState) : Prop where
  rest : s.rest = tokens.drop (s.cursor tokens)
  last : s.last = tokens.getLast?

theorem over_start (tokens : List Token) : (Parser.start tokens).Over tokens :=
  ⟨List.suffix_iff_eq_drop.1 List.suffix_rfl, rfl⟩

/-- The tokens left in the second state are the last ones of those left in the first one. -/
structure Continues (s t : ParserState) : Prop where
  rest : t.rest <:+ s.rest
  last : t.last = s.last

theorem Continues.refl (s : ParserState) : s.Continues s := ⟨List.suffix_rfl, rfl⟩

theorem Continues.trans (h : s.Continues t) (h' : t.Continues u) : s.Continues u :=
  ⟨h'.rest.trans h.rest, h'.last.trans h.last⟩

theorem Continues.over (h : s.Continues t) (hs : s.Over tokens) : t.Over tokens :=
  ⟨List.suffix_iff_eq_drop.1 (h.rest.trans (List.suffix_iff_eq_drop.2 hs.rest)),
    h.last.trans hs.last⟩

theorem Continues.cursor_le (h : s.Continues t) : s.cursor tokens ≤ t.cursor tokens :=
  Nat.sub_le_sub_left h.rest.length_le _

theorem Step.continues (h : Step s t) : s.Continues t := by
  cases h with
  | stay | report | enter | leave | giveBack => exact ⟨List.suffix_rfl, rfl⟩
  | next =>
    obtain ⟨_ | ⟨token, rest⟩, last, previous, depth, faults⟩ := s
    · exact .refl _
    · exact ⟨List.suffix_cons token rest, rfl⟩

theorem Path.continues (h : Path s states t) : (s :: states).Pairwise Continues := by
  induction h with
  | nil => exact List.pairwise_singleton _ _
  | @cons s t u states hstep _ ih =>
    refine List.pairwise_cons.2 ⟨?_, ih⟩
    have hlater := (List.pairwise_cons.1 ih).1
    exact List.forall_mem_cons.2
      ⟨hstep.continues, fun v hv => hstep.continues.trans (hlater v hv)⟩

end ParserState

namespace LoggedParser

open JsonTemplate.Parser (Proceeds closed_proceeds Level)
open ParserState (Path Step)

variable {α β : Type} {q : LoggedParser α} {p : Parser α} {s t : ParserState}
  {states : List ParserState}

/-! ### The record is complete -/

theorem bind_of_some {g : α → LoggedParser β} {a : α} (h : q s = (states, some a, t)) :
    (q >>= g) s = (states ++ (g a t).1, (g a t).2) := by
  change LoggedParser.bind q g s = _
  rw [LoggedParser.bind, h]

theorem bind_of_none {g : α → LoggedParser β} (h : q s = (states, none, t)) :
    (q >>= g) s = (states, none, t) := by
  change LoggedParser.bind q g s = _
  rw [LoggedParser.bind, h]

/-- The record does not change what a parser does, and it has every state that the parser comes to:
each differs from the one before by a single step. -/
structure Records (q : LoggedParser α) (p : Parser α) : Prop where
  proceeds : Proceeds p
  run (s : ParserState) : ∃ states, q s = (states, p s) ∧ Path s states (p s).2

theorem records_pure (a : α) : Records (pure a) (pure a) :=
  ⟨closed_proceeds.pure a, fun _ => ⟨[], rfl, .nil⟩⟩

theorem records_step (h : ∀ s, Step s (p s).2) (hp : Proceeds p) : Records (liftM p) p :=
  ⟨hp, fun s => ⟨_, rfl, (h s).path⟩⟩

theorem Records.bind {g : α → LoggedParser β} {f : α → Parser β} (h : Records q p)
    (hf : ∀ a, Records (g a) (f a)) : Records (q >>= g) (p >>= f) := by
  refine ⟨closed_proceeds.bind h.proceeds fun a => (hf a).proceeds, fun s => ?_⟩
  obtain ⟨states, hq, hpath⟩ := h.run s
  cases hp : p s with
  | mk found t =>
    rw [hp] at hq hpath
    cases found with
    | none =>
      rw [Parser.bind_of_none hp, bind_of_none hq]
      exact ⟨states, rfl, hpath⟩
    | some a =>
      obtain ⟨more, hg, hmore⟩ := (hf a).run t
      rw [Parser.bind_of_some hp, bind_of_some hq, hg]
      exact ⟨states ++ more, rfl, hpath.append hmore⟩

theorem Records.restoring (h : Records q p) : Records (restoring q) (Parser.restoring p) := by
  refine ⟨closed_proceeds.restoring h.proceeds, fun s => ?_⟩
  obtain ⟨states, hq, hpath⟩ := h.run s
  refine ⟨states ++ [(Parser.restoring p s).2], ?_, ?_⟩
  · rw [LoggedParser.restoring, hq]
    rfl
  · exact hpath.append (Step.giveBack (h.proceeds s).depth).path

/-! ### Elementary steps -/

theorem records_kind : Records (liftM Parser.kind) Parser.kind :=
  records_step (fun _ => .stay) closed_proceeds.kind

theorem records_following : Records (liftM Parser.following) Parser.following :=
  records_step (fun _ => .stay) closed_proceeds.following

theorem records_here : Records (liftM Parser.here) Parser.here :=
  records_step (fun _ => .stay) closed_proceeds.here

theorem records_previous : Records (liftM Parser.previous) Parser.previous :=
  records_step (fun _ => .stay) closed_proceeds.previous

theorem records_advance : Records (liftM Parser.advance) Parser.advance :=
  records_step (fun _ => .next) closed_proceeds.advance

theorem records_fail {fault : Fault} (hfault : fault.isTrailing = false) :
    Records (liftM (Parser.fail fault : Parser α)) (Parser.fail fault) :=
  records_step (fun _ => .report fault) (closed_proceeds.fail hfault)

theorem records_eat (symbol : Symbol) : Records (liftM (Parser.eat symbol)) (Parser.eat symbol) := by
  refine records_step (fun s => ?_) (closed_proceeds.eat symbol)
  unfold Parser.eat
  split
  · exact .next
  · exact .stay

theorem records_expect (symbol : Symbol) :
    Records (liftM (Parser.expect symbol)) (Parser.expect symbol) := by
  refine records_step (fun s => ?_) (closed_proceeds.expect symbol)
  unfold Parser.expect
  split
  · exact .next
  · exact .report _

theorem records_enter : Records (liftM Parser.enter) Parser.enter := by
  refine records_step (fun s => ?_) closed_proceeds.enter
  unfold Parser.enter
  split
  · next hlt => exact .enter hlt
  · exact .report _

/-- A name is one token, or it is reported. -/
theorem records_fieldName : Records (liftM Parser.fieldName) Parser.fieldName := by
  refine records_step (fun s => ?_) closed_proceeds.fieldName
  rw [Parser.fieldName, Parser.kind_bind]
  cases Parser.fieldText? s.kind with
  | none => exact .report _
  | some text => exact .next

theorem records_key : Records (liftM Parser.key) Parser.key := by
  refine records_step (fun s => ?_) closed_proceeds.key
  rw [Parser.key, Parser.kind_bind]
  cases Parser.keyText? s.kind with
  | none => exact .report _
  | some text => exact .next

/-- The closing symbol of a node, and the node around all of its text. -/
theorem records_closed (close : Symbol) (node : Span → Expr) :
    Records (do Parser.expect close; pure (node (← Parser.previous)))
      (do Parser.expect close; pure (node (← Parser.previous))) :=
  (records_expect close).bind fun _ => records_previous.bind fun _ => records_pure _

/-- One level deeper the record starts with the level taken up, and ends with that given back. -/
theorem Records.nested (h : Records q p) : Records (nested q) (Parser.nested p) := by
  refine ⟨closed_proceeds.nested h.proceeds, fun s => ?_⟩
  by_cases hd : s.depth < nestingLimit
  · have henter : (liftM Parser.enter : LoggedParser Unit) s =
        ([{ s with depth := s.depth + 1 }], some (), { s with depth := s.depth + 1 }) := by
      change step Parser.enter s = _
      rw [step, Parser.enter_eq_some.2 ⟨hd, rfl⟩]
    obtain ⟨states, hq, hpath⟩ := h.run { s with depth := s.depth + 1 }
    rw [Parser.nested_of_lt p hd, LoggedParser.nested, bind_of_some henter, leaving, hq]
    exact ⟨_, rfl, .cons (.enter hd) (hpath.append Step.leave.path)⟩
  · have henter : (liftM Parser.enter : LoggedParser Unit) s =
        ([s.report .tooDeep], none, s.report .tooDeep) := by
      change step Parser.enter s = _
      rw [step, Parser.enter, if_neg hd]
    rw [Parser.nested_of_not_lt p hd, LoggedParser.nested, bind_of_none henter]
    exact ⟨_, rfl, (Step.report _).path⟩

/-! ### Operators -/

section Operators
variable {operand : LoggedParser Expr} {operand' : Parser Expr} (h : Records operand operand')
include h

theorem records_chainFrom (level : Level) (rounds : Nat) (left : Expr) :
    Records (chainFrom level operand rounds left)
      (Parser.chainFrom level operand' rounds left) := by
  induction rounds generalizing left with
  | zero => exact records_fail rfl
  | succ rounds ih =>
    refine records_kind.bind fun k => ?_
    cases level k with
    | none => exact records_pure left
    | some join =>
      exact records_advance.bind fun _ => records_enter.bind fun _ => h.bind fun right => ih _

theorem records_chain (level : Level) :
    Records (chain level operand) (Parser.chain level operand') :=
  (h.bind fun left => records_chainFrom h level _ left).restoring

theorem records_comparison : Records (comparison operand) (Parser.comparison operand') := by
  refine h.bind fun left => records_kind.bind fun k => ?_
  cases Parser.comparison? k with
  | none => exact records_pure left
  | some op =>
    refine records_advance.bind fun _ => h.bind fun right => records_kind.bind fun k => ?_
    cases Parser.comparison? k with
    | none => exact records_pure _
    | some _ => exact records_fail rfl

theorem records_prefixed (rounds : Nat) :
    Records (prefixed operand rounds) (Parser.prefixed operand' rounds) := by
  induction rounds with
  | zero => exact records_fail rfl
  | succ rounds ih =>
    refine records_kind.bind fun k => ?_
    cases Parser.prefixOp? k with
    | none => exact h
    | some op => exact records_advance.bind fun _ => ih.nested.bind fun _ => records_pure _

end Operators

/-! ### Lists -/

section Items
variable {item : LoggedParser α} {item' : Parser α} (h : Records item item')
include h

theorem records_itemsFrom (close : Symbol) (rounds : Nat) :
    Records (itemsFrom item close rounds) (Parser.itemsFrom item' close rounds) := by
  induction rounds with
  | zero => exact records_kind.bind fun _ => records_fail rfl
  | succ rounds ih =>
    refine records_kind.bind fun k => ?_
    split
    · exact records_pure _
    · refine h.bind fun first => (records_eat _).bind fun more => ?_
      split
      · exact ih.bind fun _ => records_pure _
      · exact records_pure _

theorem records_items (close : Symbol) : Records (items item close) (Parser.items item' close) :=
  ⟨closed_proceeds.guarded.items h.proceeds close, fun s => (records_itemsFrom h close _).run s⟩

end Items

/-! ### Expressions -/

section Expressions
variable {expression : LoggedParser Expr} {expression' : Parser Expr}
  (h : Records expression expression')
include h

theorem records_accessFrom (rounds : Nat) (object : Expr) :
    Records (accessFrom expression rounds object)
      (Parser.accessFrom expression' rounds object) := by
  induction rounds generalizing object with
  | zero => exact records_fail rfl
  | succ rounds ih =>
    refine records_kind.bind fun k => ?_
    cases k with
    | symbol symbol =>
      cases symbol with
      | dot =>
        exact records_enter.bind fun _ => records_advance.bind fun _ =>
          records_fieldName.bind fun _ => ih _
      | leftBracket =>
        exact records_enter.bind fun _ => records_advance.bind fun _ => h.bind fun _ =>
          (records_expect _).bind fun _ => records_previous.bind fun _ => ih _
      | _ => exact records_pure object
    | _ => exact records_pure object

theorem records_access {primary : LoggedParser Expr} {primary' : Parser Expr}
    (hprimary : Records primary primary') :
    Records (access expression primary) (Parser.access expression' primary') :=
  (hprimary.bind fun object => records_accessFrom h _ object).restoring

theorem records_entry : Records (entry expression) (Parser.entry expression') :=
  records_key.bind fun _ => (records_expect _).bind fun _ => h.bind fun _ => records_pure _

theorem records_array : Records (array expression) (Parser.array expression') :=
  records_advance.bind fun _ => (records_items h _).bind fun _ => records_closed _ _

theorem records_map : Records (map expression) (Parser.map expression') :=
  records_advance.bind fun _ => (records_items (records_entry h) _).bind fun _ =>
    records_closed _ _

theorem records_paren : Records (paren expression) (Parser.paren expression') :=
  records_advance.bind fun _ => h.bind fun _ => records_closed _ _

theorem records_call (name : String) :
    Records (call expression name) (Parser.call expression' name) :=
  records_advance.bind fun _ => (records_expect _).bind fun _ => (records_items h _).bind fun _ =>
    records_closed _ _

omit h in
theorem records_literal (k : Kind) :
    Records (do
      match Parser.literal? (← Parser.here) k with
      | some e =>
        let _ ← Parser.advance
        pure e
      | none => Parser.fail (.expectedExpression k)) (do
      match Parser.literal? (← Parser.here) k with
      | some e =>
        let _ ← Parser.advance
        pure e
      | none => Parser.fail (.expectedExpression k)) := by
  refine records_here.bind fun span => ?_
  cases Parser.literal? span k with
  | some e => exact records_advance.bind fun _ => records_pure e
  | none => exact records_fail rfl

theorem records_primary : Records (primary expression) (Parser.primary expression') := by
  refine records_kind.bind fun k => ?_
  have hliteral := records_literal k
  cases k with
  | symbol symbol =>
    cases symbol with
    | leftBracket => exact records_array h
    | leftBrace => exact records_map h
    | leftParen => exact records_paren h
    | _ => exact hliteral
  | identifier name =>
    refine records_following.bind fun k => ?_
    split
    · exact records_call h name
    · exact records_advance.bind fun _ => records_pure _
  | _ => exact hliteral

theorem records_factor : Records (factor expression) (Parser.factor expression') :=
  records_prefixed (records_access h (records_primary h)) _

theorem records_product : Records (product expression) (Parser.product expression') :=
  records_chain (records_factor h) _

theorem records_sum : Records (sum expression) (Parser.sum expression') :=
  records_chain (records_product h) _

theorem records_conjunction : Records (conjunction expression) (Parser.conjunction expression') :=
  records_chain (records_comparison (records_sum h)) _

theorem records_disjunction : Records (disjunction expression) (Parser.disjunction expression') :=
  records_chain (records_conjunction h) _

theorem records_ofRank (r : Rank) :
    Records (ofRank expression r) (Parser.ofRank expression' r) := by
  cases r with
  | conditional =>
    refine (records_chain (records_disjunction h) _).bind fun condition =>
      (records_eat _).bind fun asked => ?_
    split
    · exact h.bind fun _ => (records_expect _).bind fun _ => h.bind fun _ => records_pure _
    · exact records_pure condition
  | coalesce => exact records_chain (records_disjunction h) _
  | or => exact records_disjunction h
  | and => exact records_conjunction h
  | comparison => exact records_comparison (records_sum h)
  | sum => exact records_sum h
  | product => exact records_product h
  | unary => exact records_factor h
  | access => exact records_access h (records_primary h)
  | primary => exact records_primary h

end Expressions

theorem records_expressionWithin (levels : Nat) :
    Records (expressionWithin levels) (Parser.expressionWithin levels) := by
  induction levels with
  | zero => exact records_fail rfl
  | succ levels ih => exact (records_ofRank ih .conditional).nested

end LoggedParser

theorem Routine.records {α : Type} (r : Routine α) (levels : Nat) :
    LoggedParser.Records (r.logged levels) (r.parser levels) := by
  have h := LoggedParser.records_expressionWithin levels
  cases r with
  | expression => exact h
  | rank r => exact LoggedParser.records_ofRank h r
  | array => exact LoggedParser.records_array h
  | map => exact LoggedParser.records_map h
  | paren => exact LoggedParser.records_paren h
  | call name => exact LoggedParser.records_call h name
  | items close => exact LoggedParser.records_items h close
  | entries => exact LoggedParser.records_items (LoggedParser.records_entry h) _
  | entry => exact LoggedParser.records_entry h
  | key => exact LoggedParser.records_key
  | fieldName => exact LoggedParser.records_fieldName

end JsonTemplate
