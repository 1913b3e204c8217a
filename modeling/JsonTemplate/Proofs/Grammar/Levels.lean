import JsonTemplate.Proofs.Grammar.Faults
import JsonTemplate.Proofs.Grammar.Paths

/-! Levels of nesting. Whatever the parser reads, and whether it gets to the end of it or fails on
the way, it gives back the levels that it has taken up, and it never takes up more than there are. -/

namespace JsonTemplate

open Grammar (Rank)

namespace Parser

/-! ### Levels are given back -/

/-- The level at the end is that at the start, whether the parser fails or not. -/
def GivesBack {α : Type} (p : Parser α) : Prop := ∀ s, (p s).2.depth = s.depth

section
variable {α β : Type} {p : Parser α}

theorem givesBack_read (f : ParserState → α) : GivesBack fun s => (some (f s), s) := fun _ => rfl

theorem givesBack_pure (a : α) : GivesBack (pure a) := fun _ => rfl

theorem givesBack_advance : GivesBack advance := ParserState.depth_next

theorem givesBack_fail (fault : Fault) : GivesBack (fail fault : Parser α) := fun _ => rfl

theorem givesBack_eat (symbol : Symbol) : GivesBack (eat symbol) := by
  intro s
  unfold eat
  split
  · exact s.depth_next
  · rfl

theorem givesBack_expect (symbol : Symbol) : GivesBack (expect symbol) := by
  intro s
  unfold expect
  split
  · exact s.depth_next
  · rfl

theorem GivesBack.bind {f : α → Parser β} (h : GivesBack p) (hf : ∀ a, GivesBack (f a)) :
    GivesBack (p >>= f) := by
  intro s
  have hp := h s
  rw [bind_apply]
  split
  · next a t hrun =>
    rw [hrun] at hp
    exact (hf a t).trans hp
  · next t hrun =>
    rw [hrun] at hp
    exact hp

/-- Behind a loop over operators or accesses the level is set back to that in front of it. -/
theorem givesBack_restoring (p : Parser α) : GivesBack (restoring p) := fun _ => rfl

/-- One level is taken up and one is given back, so what is read in between has to give back its
own levels. Where there is no level left, none is taken up. -/
theorem GivesBack.nested (h : GivesBack p) : GivesBack (nested p) := by
  intro s
  by_cases hd : s.depth < nestingLimit
  · rw [nested_of_lt p hd]
    exact Nat.sub_eq_of_eq_add (h { s with depth := s.depth + 1 })
  · rw [nested_of_not_lt p hd]
    rfl

/-- The closing symbol of a node, and the node around all of its text. -/
theorem givesBack_closed (close : Symbol) (node : Span → Expr) :
    GivesBack (do expect close; pure (node (← previous))) :=
  (givesBack_expect close).bind fun _ => (givesBack_read _).bind fun _ => givesBack_pure _

theorem givesBack_key : GivesBack key := by
  refine (givesBack_read _).bind fun k => ?_
  split
  · exact givesBack_advance.bind fun _ => givesBack_pure _
  · exact givesBack_fail _

theorem givesBack_fieldName : GivesBack fieldName := by
  refine (givesBack_read _).bind fun k => ?_
  split
  · exact givesBack_advance.bind fun _ => givesBack_pure _
  · exact givesBack_fail _

theorem GivesBack.comparison {operand : Parser Expr} (h : GivesBack operand) :
    GivesBack (comparison operand) := by
  refine h.bind fun left => (givesBack_read _).bind fun k => ?_
  split
  · exact givesBack_pure left
  · refine givesBack_advance.bind fun _ => h.bind fun right => (givesBack_read _).bind fun k => ?_
    split
    · exact givesBack_pure _
    · exact givesBack_fail _

/-- What is behind a prefix operator is read one level deeper. -/
theorem GivesBack.prefixed {operand : Parser Expr} (h : GivesBack operand) (rounds : Nat) :
    GivesBack (prefixed operand rounds) := by
  induction rounds with
  | zero => exact givesBack_fail _
  | succ rounds ih =>
    refine (givesBack_read _).bind fun k => ?_
    split
    · exact h
    · exact givesBack_advance.bind fun _ => ih.nested.bind fun _ => givesBack_pure _

theorem GivesBack.itemsFrom (h : GivesBack p) (close : Symbol) (rounds : Nat) :
    GivesBack (itemsFrom p close rounds) := by
  induction rounds with
  | zero => exact (givesBack_read _).bind fun _ => givesBack_fail _
  | succ rounds ih =>
    refine (givesBack_read _).bind fun k => ?_
    split
    · exact givesBack_pure _
    · refine h.bind fun first => (givesBack_eat _).bind fun more => ?_
      split
      · exact ih.bind fun _ => givesBack_pure _
      · exact givesBack_pure _

theorem GivesBack.items (h : GivesBack p) (close : Symbol) : GivesBack (items p close) :=
  fun s => h.itemsFrom close _ s

section Expressions
variable {expression : Parser Expr} (h : GivesBack expression)
include h

theorem GivesBack.entry : GivesBack (entry expression) :=
  givesBack_key.bind fun _ => (givesBack_expect _).bind fun _ => h.bind fun _ => givesBack_pure _

theorem GivesBack.array : GivesBack (array expression) :=
  givesBack_advance.bind fun _ => (h.items _).bind fun _ => givesBack_closed _ _

theorem GivesBack.map : GivesBack (map expression) :=
  givesBack_advance.bind fun _ => (h.entry.items _).bind fun _ => givesBack_closed _ _

theorem GivesBack.paren : GivesBack (paren expression) :=
  givesBack_advance.bind fun _ => h.bind fun _ => givesBack_closed _ _

theorem GivesBack.call (name : String) : GivesBack (call expression name) :=
  givesBack_advance.bind fun _ => (givesBack_expect _).bind fun _ => (h.items _).bind fun _ =>
    givesBack_closed _ _

theorem GivesBack.primary : GivesBack (primary expression) := by
  refine (givesBack_read _).bind fun k => ?_
  split
  · exact h.array
  · exact h.map
  · exact h.paren
  · refine (givesBack_read _).bind fun k => ?_
    split
    · exact h.call _
    · exact givesBack_advance.bind fun _ => givesBack_pure _
  · refine (givesBack_read _).bind fun span => ?_
    split
    · exact givesBack_advance.bind fun _ => givesBack_pure _
    · exact givesBack_fail _

/-- Chains and accesses give back what their loops take up. -/
theorem GivesBack.ofRank (r : Rank) : GivesBack (ofRank expression r) := by
  cases r with
  | conditional =>
    refine (givesBack_restoring _).bind fun condition => (givesBack_eat _).bind fun asked => ?_
    split
    · exact h.bind fun _ => (givesBack_expect _).bind fun _ => h.bind fun _ => givesBack_pure _
    · exact givesBack_pure condition
  | coalesce | or | and | sum | product | access => exact givesBack_restoring _
  | comparison => exact (givesBack_restoring _).comparison
  | unary => exact (givesBack_restoring _).prefixed _
  | primary => exact h.primary

end Expressions

/-- The parsers call each other, so the induction is on the expressions inside each other. -/
theorem givesBack_expressionWithin (levels : Nat) : GivesBack (expressionWithin levels) := by
  induction levels with
  | zero => exact givesBack_fail _
  | succ levels ih => exact (ih.ofRank .conditional).nested

end

end Parser

/-! ### All routines -/

namespace Routine

open ParserState (Path)
open JsonTemplate.Parser (GivesBack Guarded StopsAtFault closed_stopsAtFault
  givesBack_expressionWithin)

variable {α : Type} (r : Routine α) (levels : Nat)

theorem givesBack : GivesBack (r.parser levels) := by
  have h := givesBack_expressionWithin levels
  cases r with
  | expression => exact h
  | rank r => exact h.ofRank r
  | array => exact h.array
  | map => exact h.map
  | paren => exact h.paren
  | call name => exact h.call name
  | items close => exact h.items close
  | entries => exact h.entry.items _
  | entry => exact h.entry
  | key => exact Parser.givesBack_key
  | fieldName => exact Parser.givesBack_fieldName

theorem guarded {P : {α : Type} → Parser α → Prop} (h : Guarded P) : P (r.parser levels) := by
  have hexpression := h.expressionWithin levels
  cases r with
  | expression => exact hexpression
  | rank r => exact h.ofRank hexpression r
  | array => exact h.array hexpression
  | map => exact h.map hexpression
  | paren => exact h.paren hexpression
  | call name => exact h.call hexpression name
  | items close => exact h.items hexpression close
  | entries => exact h.items (h.entry hexpression) _
  | entry => exact h.entry hexpression
  | key => exact h.key
  | fieldName => exact h.fieldName

end Routine

end JsonTemplate
