import JsonTemplate.Proofs.Grammar.Reading

/-! The parser with a record of the states that it goes through. Every elementary step records the
state behind it, and so does giving levels back. -/

namespace JsonTemplate

open Grammar (Rank)
open JsonTemplate.Parser (Level)

/-- A parser that also lists the states behind its start, in order. -/
def LoggedParser (α : Type) : Type := ParserState → List ParserState × (Option α × ParserState)

namespace LoggedParser

variable {α β : Type}

protected def pure (a : α) : LoggedParser α := fun s => ([], some a, s)

protected def bind (p : LoggedParser α) (f : α → LoggedParser β) : LoggedParser β := fun s =>
  match p s with
  | (states, some a, t) => (states ++ (f a t).1, (f a t).2)
  | (states, none, t) => (states, none, t)

instance : Monad LoggedParser where
  pure := LoggedParser.pure
  bind := LoggedParser.bind

/-- An elementary step. -/
def step (p : Parser α) : LoggedParser α := fun s => ([(p s).2], p s)

instance : MonadLift Parser LoggedParser := ⟨step⟩

/-- Runs a parser and goes back to the level at its start. -/
def restoring (p : LoggedParser α) : LoggedParser α := fun s =>
  let (states, result, t) := p s
  let t := { t with depth := s.depth }
  (states ++ [t], result, t)

/-- Runs a parser and gives one level back behind it. -/
def leaving (p : LoggedParser α) : LoggedParser α := fun s =>
  let (states, result, t) := p s
  (states ++ [t.leave], result, t.leave)

/-- Runs a parser one level deeper. -/
def nested (p : LoggedParser α) : LoggedParser α := do
  Parser.enter
  leaving p

/-! ### Operators -/

def chainFrom (level : Level) (operand : LoggedParser Expr) : Nat → Expr → LoggedParser Expr
  | 0, _ => Parser.fail .tooDeep
  | rounds + 1, left => do
    match level (← Parser.kind) with
    | none => pure left
    | some join =>
      let _ ← Parser.advance
      Parser.enter
      let right ← operand
      chainFrom level operand rounds (join left right)

def chain (level : Level) (operand : LoggedParser Expr) : LoggedParser Expr :=
  restoring do
    let left ← operand
    chainFrom level operand (nestingLimit + 1) left

def comparison (operand : LoggedParser Expr) : LoggedParser Expr := do
  let left ← operand
  match Parser.comparison? (← Parser.kind) with
  | none => pure left
  | some op =>
    let _ ← Parser.advance
    let right ← operand
    match Parser.comparison? (← Parser.kind) with
    | none => pure (Parser.joinBinary op left right)
    | some _ => Parser.fail .chainedComparison

def prefixed (operand : LoggedParser Expr) : Nat → LoggedParser Expr
  | 0 => Parser.fail .tooDeep
  | rounds + 1 => do
    match Parser.prefixOp? (← Parser.kind) with
    | none => operand
    | some op =>
      let start ← Parser.advance
      let inner ← nested (prefixed operand rounds)
      pure (.unary (start.merge inner.span) op inner)

def accessFrom (expression : LoggedParser Expr) : Nat → Expr → LoggedParser Expr
  | 0, _ => Parser.fail .tooDeep
  | rounds + 1, object => do
    match ← Parser.kind with
    | .symbol .dot =>
      Parser.enter
      let _ ← Parser.advance
      let field ← Parser.fieldName
      accessFrom expression rounds (.member (object.span.merge field.span) object field)
    | .symbol .leftBracket =>
      Parser.enter
      let _ ← Parser.advance
      let index ← expression
      Parser.expect .rightBracket
      accessFrom expression rounds (.index (object.span.merge (← Parser.previous)) object index)
    | _ => pure object

def access (expression primary : LoggedParser Expr) : LoggedParser Expr :=
  restoring do
    let object ← primary
    accessFrom expression (nestingLimit + 1) object

/-! ### Primary expressions -/

def itemsFrom (item : LoggedParser α) (close : Symbol) : Nat → LoggedParser (List α)
  | 0 => do Parser.fail (.expectedExpression (← Parser.kind))
  | rounds + 1 => do
    if (← Parser.kind) = .symbol close then pure []
    else
      let first ← item
      if ← Parser.eat .comma then
        let others ← itemsFrom item close rounds
        pure (first :: others)
      else pure [first]

def items (item : LoggedParser α) (close : Symbol) : LoggedParser (List α) := fun s =>
  itemsFrom item close (s.rest.length + 2) s

section Expressions
variable (expression : LoggedParser Expr)

def entry : LoggedParser (String × Expr) := do
  let name ← Parser.key
  Parser.expect .colon
  let value ← expression
  pure (name, value)

def array : LoggedParser Expr := do
  let start ← Parser.advance
  let elements ← items expression .rightBracket
  Parser.expect .rightBracket
  pure (.array (start.merge (← Parser.previous)) elements)

def map : LoggedParser Expr := do
  let start ← Parser.advance
  let entries ← items (entry expression) .rightBrace
  Parser.expect .rightBrace
  pure (.map (start.merge (← Parser.previous)) entries)

def paren : LoggedParser Expr := do
  let start ← Parser.advance
  let inner ← expression
  Parser.expect .rightParen
  pure (.paren (start.merge (← Parser.previous)) inner)

def call (name : String) : LoggedParser Expr := do
  let function : Name := ⟨name, ← Parser.advance⟩
  Parser.expect .leftParen
  let arguments ← items expression .rightParen
  Parser.expect .rightParen
  pure (.call (function.span.merge (← Parser.previous)) function arguments)

def primary : LoggedParser Expr := do
  let found ← Parser.kind
  match found with
  | .symbol .leftBracket => array expression
  | .symbol .leftBrace => map expression
  | .symbol .leftParen => paren expression
  | .identifier name =>
    if (← Parser.following) = .symbol .leftParen then call expression name
    else pure (.identifier (← Parser.advance) name)
  | found =>
    match Parser.literal? (← Parser.here) found with
    | some e =>
      let _ ← Parser.advance
      pure e
    | none => Parser.fail (.expectedExpression found)

/-! ### Expressions -/

def factor : LoggedParser Expr :=
  prefixed (access expression (primary expression)) (nestingLimit + 1)

def product : LoggedParser Expr := chain Parser.productLevel (factor expression)

def sum : LoggedParser Expr := chain Parser.sumLevel (product expression)

def conjunction : LoggedParser Expr := chain Parser.andLevel (comparison (sum expression))

def disjunction : LoggedParser Expr := chain Parser.orLevel (conjunction expression)

def coalescing : LoggedParser Expr := chain Parser.coalesceLevel (disjunction expression)

def ternary : LoggedParser Expr := do
  let condition ← coalescing expression
  if ← Parser.eat .question then
    let yes ← expression
    Parser.expect .colon
    let no ← expression
    pure (.conditional (condition.span.merge no.span) condition yes no)
  else
    pure condition

/-- The parser of a rank, around a parser of the expressions inside. -/
def ofRank : Rank → LoggedParser Expr
  | .conditional => ternary expression
  | .coalesce => coalescing expression
  | .or => disjunction expression
  | .and => conjunction expression
  | .comparison => comparison (sum expression)
  | .sum => sum expression
  | .product => product expression
  | .unary => factor expression
  | .access => access expression (primary expression)
  | .primary => primary expression

end Expressions

def expressionWithin : Nat → LoggedParser Expr
  | 0 => Parser.fail .tooDeep
  | levels + 1 => nested (ofRank (expressionWithin levels) .conditional)

end LoggedParser

/-! ### All parsers of expressions and their parts -/

/-- What the parsers read. The loops behind the first operand of a chain and behind the object of an
access belong to these: the levels that they take up are given back at the end of the loop. -/
inductive Routine : Type → Type where
  | expression : Routine Expr
  | rank (r : Rank) : Routine Expr
  | array : Routine Expr
  | map : Routine Expr
  | paren : Routine Expr
  | call (name : String) : Routine Expr
  | items (close : Symbol) : Routine (List Expr)
  | entries : Routine (List (String × Expr))
  | entry : Routine (String × Expr)
  | key : Routine String
  | fieldName : Routine Name

namespace Routine

variable {α : Type}

/-- The parser, with at most so many expressions inside each other. -/
def parser (levels : Nat) : Routine α → Parser α
  | .expression => Parser.expressionWithin levels
  | .rank r => Parser.ofRank (Parser.expressionWithin levels) r
  | .array => Parser.array (Parser.expressionWithin levels)
  | .map => Parser.map (Parser.expressionWithin levels)
  | .paren => Parser.paren (Parser.expressionWithin levels)
  | .call name => Parser.call (Parser.expressionWithin levels) name
  | .items close => Parser.items (Parser.expressionWithin levels) close
  | .entries => Parser.items (Parser.entry (Parser.expressionWithin levels)) .rightBrace
  | .entry => Parser.entry (Parser.expressionWithin levels)
  | .key => Parser.key
  | .fieldName => Parser.fieldName

/-- The same parser with its record. -/
def logged (levels : Nat) : Routine α → LoggedParser α
  | .expression => LoggedParser.expressionWithin levels
  | .rank r => LoggedParser.ofRank (LoggedParser.expressionWithin levels) r
  | .array => LoggedParser.array (LoggedParser.expressionWithin levels)
  | .map => LoggedParser.map (LoggedParser.expressionWithin levels)
  | .paren => LoggedParser.paren (LoggedParser.expressionWithin levels)
  | .call name => LoggedParser.call (LoggedParser.expressionWithin levels) name
  | .items close => LoggedParser.items (LoggedParser.expressionWithin levels) close
  | .entries =>
    LoggedParser.items (LoggedParser.entry (LoggedParser.expressionWithin levels)) .rightBrace
  | .entry => LoggedParser.entry (LoggedParser.expressionWithin levels)
  | .key => LoggedParser.step Parser.key
  | .fieldName => LoggedParser.step Parser.fieldName

end Routine

end JsonTemplate
