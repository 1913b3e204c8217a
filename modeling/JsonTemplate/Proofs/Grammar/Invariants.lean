import JsonTemplate.Proofs.Grammar.Reading

/-! Properties of parsers that the elementary steps have and that stay when parsers are put
together. The parser of expressions has all of them. -/

namespace JsonTemplate

/-- The fault is about tokens behind a whole expression. -/
def Fault.isTrailing : Fault → Bool
  | .trailingInput _ => true
  | _ => false

namespace Parser

/-- A property of the elementary steps that stays when parsers are put together. Nothing fails
within an expression for what stands behind it. -/
structure Stepwise (P : {α : Type} → Parser α → Prop) : Prop where
  pure {α : Type} (a : α) : P (Pure.pure a : Parser α)
  bind {α β : Type} {p : Parser α} {f : α → Parser β} : P p → (∀ a, P (f a)) → P (p >>= f)
  kind : P Parser.kind
  here : P Parser.here
  previous : P Parser.previous
  advance : P Parser.advance
  fail {α : Type} {fault : Fault} : fault.isTrailing = false → P (Parser.fail fault : Parser α)
  eat (symbol : Symbol) : P (Parser.eat symbol)
  expect (symbol : Symbol) : P (Parser.expect symbol)
  enter : P Parser.enter
  restoring {α : Type} {p : Parser α} : P p → P (Parser.restoring p)
  nested {α : Type} {p : Parser α} : P p → P (Parser.nested p)

/-- A property that need not stay when a parser looks past the next token and then leaves it. -/
structure Guarded (P : {α : Type} → Parser α → Prop) : Prop extends Stepwise P where
  lookahead {α : Type} {f : Token.Kind → Span → Parser α} : (∀ k span, P (f k span)) →
    P (Parser.following >>= fun k => Parser.advance >>= f k)
  items {α : Type} {item : Parser α} (hitem : P item) (close : Symbol) :
    P (Parser.items item close)

/-- A property that stays whatever of the state a parser goes by. -/
structure Closed (P : {α : Type} → Parser α → Prop) : Prop extends Stepwise P where
  following : P Parser.following
  /-- A parser may be chosen by the state that it starts from. -/
  chosen {α : Type} {f : ParserState → Parser α} : (∀ s, P (f s)) → P fun s => f s s

variable {P : {α : Type} → Parser α → Prop}

namespace Stepwise

variable (h : Stepwise P)
include h

/-! ### Operators -/

section Operators
variable {operand : Parser Expr} (hoperand : P operand)
include hoperand

theorem chainFrom (level : Level) (rounds : Nat) (left : Expr) :
    P (Parser.chainFrom level operand rounds left) := by
  induction rounds generalizing left with
  | zero => exact h.fail rfl
  | succ rounds ih =>
    rw [Parser.chainFrom]
    refine h.bind h.kind fun k => ?_
    split
    · exact h.pure left
    · exact h.bind h.advance fun _ => h.bind h.enter fun _ => h.bind hoperand fun _ => ih _

theorem chain (level : Level) : P (Parser.chain level operand) :=
  h.restoring (h.bind hoperand fun left => h.chainFrom hoperand level _ left)

theorem comparison : P (Parser.comparison operand) := by
  refine h.bind hoperand fun left => h.bind h.kind fun k => ?_
  split
  · exact h.pure left
  · refine h.bind h.advance fun _ => h.bind hoperand fun right => h.bind h.kind fun k => ?_
    split
    · exact h.pure _
    · exact h.fail rfl

theorem prefixed (rounds : Nat) : P (Parser.prefixed operand rounds) := by
  induction rounds with
  | zero => exact h.fail rfl
  | succ rounds ih =>
    rw [Parser.prefixed]
    refine h.bind h.kind fun k => ?_
    split
    · exact hoperand
    · exact h.bind h.advance fun _ => h.bind (h.nested ih) fun _ => h.pure _

end Operators

theorem fieldName : P Parser.fieldName := by
  refine h.bind h.kind fun k => ?_
  split
  · exact h.bind h.advance fun _ => h.pure _
  · exact h.fail rfl

/-! ### Lists -/

section Items
variable {α : Type} {item : Parser α} (hitem : P item)
include hitem

theorem itemsFrom (close : Symbol) (rounds : Nat) : P (Parser.itemsFrom item close rounds) := by
  induction rounds with
  | zero => exact h.bind h.kind fun _ => h.fail rfl
  | succ rounds ih =>
    rw [Parser.itemsFrom]
    refine h.bind h.kind fun k => ?_
    split
    · exact h.pure _
    · refine h.bind hitem fun first => h.bind (h.eat _) fun more => ?_
      split
      · exact h.bind ih fun _ => h.pure _
      · exact h.pure _

end Items

theorem key : P Parser.key := by
  refine h.bind h.kind fun k => ?_
  split
  · exact h.bind h.advance fun _ => h.pure _
  · exact h.fail rfl

end Stepwise

/-! ### Expressions -/

namespace Guarded

variable (h : Guarded P)
include h

section Expressions
variable {expression : Parser Expr} (hexpression : P expression)
include hexpression

theorem entry : P (Parser.entry expression) :=
  h.bind h.key fun _ => h.bind (h.expect _) fun _ => h.bind hexpression fun _ => h.pure _

theorem array : P (Parser.array expression) :=
  h.bind h.advance fun _ => h.bind (h.items hexpression _) fun _ =>
    h.bind (h.expect _) fun _ => h.bind h.previous fun _ => h.pure _

theorem map : P (Parser.map expression) :=
  h.bind h.advance fun _ => h.bind (h.items (h.entry hexpression) _) fun _ =>
    h.bind (h.expect _) fun _ => h.bind h.previous fun _ => h.pure _

theorem paren : P (Parser.paren expression) :=
  h.bind h.advance fun _ => h.bind hexpression fun _ =>
    h.bind (h.expect _) fun _ => h.bind h.previous fun _ => h.pure _

theorem call (name : String) : P (Parser.call expression name) :=
  h.bind h.advance fun _ => h.bind (h.expect _) fun _ => h.bind (h.items hexpression _) fun _ =>
    h.bind (h.expect _) fun _ => h.bind h.previous fun _ => h.pure _

/-- Calls and names are told apart by the token behind the name, which is consumed either way. -/
theorem named (name : String) :
    P (Parser.following >>= fun k =>
      if k = .symbol .leftParen then Parser.call expression name
      else Parser.advance >>= fun span => Pure.pure (.identifier span name)) := by
  have hsplit : ∀ k : Token.Kind, (if k = .symbol .leftParen then Parser.call expression name
      else Parser.advance >>= fun span => Pure.pure (.identifier span name)) =
      Parser.advance >>= fun span => if k = .symbol .leftParen then do
          Parser.expect .leftParen
          let arguments ← Parser.items expression .rightParen
          Parser.expect .rightParen
          Pure.pure (.call (span.merge (← Parser.previous)) ⟨name, span⟩ arguments)
        else Pure.pure (.identifier span name) := by
    intro k
    split <;> rfl
  simp only [hsplit]
  refine h.lookahead fun k span => ?_
  split
  · exact h.bind (h.expect _) fun _ => h.bind (h.items hexpression _) fun _ =>
      h.bind (h.expect _) fun _ => h.bind h.previous fun _ => h.pure _
  · exact h.pure _

theorem primary : P (Parser.primary expression) := by
  refine h.bind h.kind fun k => ?_
  split
  · exact h.array hexpression
  · exact h.map hexpression
  · exact h.paren hexpression
  · exact h.named hexpression _
  · refine h.bind h.here fun span => ?_
    split
    · exact h.bind h.advance fun _ => h.pure _
    · exact h.fail rfl

theorem accessFrom (rounds : Nat) (object : Expr) :
    P (Parser.accessFrom expression rounds object) := by
  induction rounds generalizing object with
  | zero => exact h.fail rfl
  | succ rounds ih =>
    rw [Parser.accessFrom]
    refine h.bind h.kind fun k => ?_
    split
    · exact h.bind h.enter fun _ => h.bind h.advance fun _ => h.bind h.fieldName fun _ => ih _
    · exact h.bind h.enter fun _ => h.bind h.advance fun _ => h.bind hexpression fun _ =>
        h.bind (h.expect _) fun _ => h.bind h.previous fun _ => ih _
    · exact h.pure object

theorem access {primary : Parser Expr} (hprimary : P primary) :
    P (Parser.access expression primary) :=
  h.restoring (h.bind hprimary fun object => h.accessFrom hexpression _ object)

theorem operators {primary : Parser Expr} (hprimary : P primary) :
    P (Parser.operators expression primary) := by
  have hfactor := h.prefixed (h.access hexpression hprimary) (nestingLimit + 1)
  have hsum := h.chain (h.chain hfactor productLevel) sumLevel
  exact h.chain (h.chain (h.chain (h.comparison hsum) andLevel) orLevel) coalesceLevel

theorem ternary {primary : Parser Expr} (hprimary : P primary) :
    P (Parser.ternary expression primary) := by
  refine h.bind (h.operators hexpression hprimary) fun condition =>
    h.bind (h.eat _) fun asked => ?_
  split
  · exact h.bind hexpression fun _ => h.bind (h.expect _) fun _ =>
      h.bind hexpression fun _ => h.pure _
  · exact h.pure condition

theorem ofRank (r : Grammar.Rank) : P (Parser.ofRank expression r) := by
  have hprimary := h.primary hexpression
  have haccess := h.access hexpression hprimary
  have hfactor := h.prefixed haccess (nestingLimit + 1)
  have hproduct := h.chain hfactor productLevel
  have hsum := h.chain hproduct sumLevel
  have hconjunction := h.chain (h.comparison hsum) andLevel
  cases r with
  | conditional => exact h.ternary hexpression hprimary
  | coalesce => exact h.operators hexpression hprimary
  | or => exact h.chain hconjunction orLevel
  | and => exact hconjunction
  | comparison => exact h.comparison hsum
  | sum => exact hsum
  | product => exact hproduct
  | unary => exact hfactor
  | access => exact haccess
  | primary => exact hprimary

end Expressions

theorem expressionWithin (levels : Nat) : P (Parser.expressionWithin levels) := by
  induction levels with
  | zero => exact h.fail rfl
  | succ levels ih => exact h.nested (h.ternary ih (h.primary ih))

end Guarded

namespace Closed

variable (h : Closed P)
include h

theorem guarded : Guarded P where
  toStepwise := h.toStepwise
  lookahead hf := h.bind h.following fun k => h.bind h.advance (hf k)
  items {_ item} hitem close :=
    h.chosen (f := fun s => Parser.itemsFrom item close (s.rest.length + 2))
      fun _ => h.itemsFrom hitem close _

theorem expressionWithin (levels : Nat) : P (Parser.expressionWithin levels) :=
  h.guarded.expressionWithin levels

end Closed

end Parser

end JsonTemplate
