import JsonTemplate.Proofs.Grammar.Reading

/-! The parser with loops and recursion that no count of rounds and levels ends. It is the same
procedure as the parser that counts them, written with calls: an iteration is a call too, and a
run is given up when too many calls are open at once. So a run ends if some number of open calls is
enough for it. -/

namespace JsonTemplate

open Token (Kind)

/-- A parser that may be given up. Then it gives nothing, not even a failure. -/
abbrev OpenParser (α : Type) : Type := OptionT (StateT ParserState Option) α

namespace OpenParser

open Grammar (Rank)

variable {α : Type}

/-- The elementary steps always end. -/
def ofParser (p : Parser α) : OpenParser α := fun s => some (p s)

instance : MonadLift Parser OpenParser := ⟨ofParser⟩

def giveUp : OpenParser α := fun _ => none

/-- Runs a parser and goes back to the level at its start. -/
def restoring (p : OpenParser α) : OpenParser α := fun s =>
  (p s).map fun (found, t) => (found, { t with depth := s.depth })

/-- Runs a parser and gives one level back behind it. -/
def leaving (p : OpenParser α) : OpenParser α := fun s =>
  (p s).map fun (found, t) => (found, t.leave)

/-- Runs a parser one level deeper. -/
def nested (p : OpenParser α) : OpenParser α := do
  Parser.enter
  leaving p

/-- One round of a loop over items. It goes on for as long as commas follow. -/
def listOf (close : Symbol) (item : OpenParser α) (others : OpenParser (List α)) :
    OpenParser (List α) := do
  if (← Parser.kind) = .symbol close then pure []
  else
    let first ← item
    if ← Parser.eat .comma then
      let others ← others
      pure (first :: others)
    else pure [first]

end OpenParser

/-- The procedures that call each other, or themselves in place of a loop. -/
structure Procedures where
  expression : OpenParser Expr
  chain : Grammar.Rank → OpenParser Expr
  chainFrom : Grammar.Rank → Expr → OpenParser Expr
  prefixed : OpenParser Expr
  accessFrom : Expr → OpenParser Expr
  items : Symbol → OpenParser (List Expr)
  entries : OpenParser (List (String × Expr))

namespace Procedures

open Grammar (Rank)
open OpenParser (giveUp restoring nested listOf)

/-! ### What makes no loop of its own -/

variable (p : Procedures)

def ternary : OpenParser Expr := do
  let condition ← p.chain .coalesce
  if ← Parser.eat .question then
    let yes ← p.expression
    Parser.expect .colon
    let no ← p.expression
    pure (.conditional (condition.span.merge no.span) condition yes no)
  else
    pure condition

def comparison : OpenParser Expr := do
  let left ← p.chain .sum
  match Parser.comparison? (← Parser.kind) with
  | none => pure left
  | some op =>
    let _ ← Parser.advance
    let right ← p.chain .sum
    match Parser.comparison? (← Parser.kind) with
    | none => pure (Parser.joinBinary op left right)
    | some _ => Parser.fail .chainedComparison

/-- The operands of the chains of a rank. -/
def operand (r : Rank) : OpenParser Expr :=
  match r with
  | .coalesce => p.chain .or
  | .or => p.chain .and
  | .and => p.comparison
  | .sum => p.chain .product
  | _ => p.prefixed

def entry : OpenParser (String × Expr) := do
  let name ← Parser.key
  Parser.expect .colon
  let value ← p.expression
  pure (name, value)

/-- A literal, if the next token is one. -/
def literal (found : Kind) : OpenParser Expr := do
  match Parser.literal? (← Parser.here) found with
  | some e =>
    let _ ← Parser.advance
    pure e
  | none => Parser.fail (.expectedExpression found)

def primary : OpenParser Expr := do
  match ← Parser.kind with
  | .symbol .leftBracket =>
    let start ← Parser.advance
    let elements ← p.items .rightBracket
    Parser.expect .rightBracket
    pure (.array (start.merge (← Parser.previous)) elements)
  | .symbol .leftBrace =>
    let start ← Parser.advance
    let entries ← p.entries
    Parser.expect .rightBrace
    pure (.map (start.merge (← Parser.previous)) entries)
  | .symbol .leftParen =>
    let start ← Parser.advance
    let inner ← p.expression
    Parser.expect .rightParen
    pure (.paren (start.merge (← Parser.previous)) inner)
  | .identifier name =>
    if (← Parser.following) = .symbol .leftParen then
      let function : Name := ⟨name, ← Parser.advance⟩
      Parser.expect .leftParen
      let arguments ← p.items .rightParen
      Parser.expect .rightParen
      pure (.call (function.span.merge (← Parser.previous)) function arguments)
    else pure (.identifier (← Parser.advance) name)
  | found => literal found

def access : OpenParser Expr := restoring do p.accessFrom (← p.primary)

/-! ### Calls -/

/-- The procedures whose calls are the given ones. -/
def calling : Procedures where
  expression := nested p.ternary
  chain r := restoring do p.chainFrom r (← p.operand r)
  -- Goes on for as long as operators follow.
  chainFrom r left := do
    match Parser.levelOf r (← Parser.kind) with
    | none => pure left
    | some join =>
      let _ ← Parser.advance
      Parser.enter
      let right ← p.operand r
      p.chainFrom r (join left right)
  prefixed := do
    match Parser.prefixOp? (← Parser.kind) with
    | none => p.access
    | some op =>
      let start ← Parser.advance
      let inner ← nested p.prefixed
      pure (.unary (start.merge inner.span) op inner)
  -- Goes on for as long as a dot or a bracket follows.
  accessFrom object := do
    match ← Parser.kind with
    | .symbol .dot =>
      Parser.enter
      let _ ← Parser.advance
      let field ← Parser.fieldName
      p.accessFrom (.member (object.span.merge field.span) object field)
    | .symbol .leftBracket =>
      Parser.enter
      let _ ← Parser.advance
      let index ← p.expression
      Parser.expect .rightBracket
      p.accessFrom (.index (object.span.merge (← Parser.previous)) object index)
    | _ => pure object
  items close := listOf close p.expression (p.items close)
  entries := listOf .rightBrace p.entry p.entries

/-- The procedures with as many calls open at once. -/
def within : Nat → Procedures
  | 0 => ⟨giveUp, fun _ => giveUp, fun _ _ => giveUp, giveUp, fun _ => giveUp, fun _ => giveUp,
      giveUp⟩
  | calls + 1 => (within calls).calling

end Procedures

/-- Reads all tokens as one expression, if no more calls are open at once. -/
def Parsing.openly (calls : Nat) (tokens : List Token) : Option Parsing :=
  let s := Parser.start tokens
  if s.kind = .eof then some ⟨none, (s.report .emptyExpression).faults⟩
  else match (Procedures.within calls).expression s with
    | none => none
    | some (none, s) => some ⟨none, s.faults⟩
    | some (some e, s) =>
      if s.kind = .eof then some ⟨some e, s.faults⟩
      else some ⟨some e, (s.report (.trailingInput s.kind)).faults⟩

end JsonTemplate
