import JsonTemplate.Expr.Parser.State

/-! Operators and their precedence. From the loosest to the tightest: the conditional, `??`, `||`,
`&&`, comparisons, sums, products, prefix operators, and access to fields and items. An operand
of a level is an expression of the next tighter level. -/

namespace JsonTemplate.Parser

/-- The node of an operator and its operands, around the text of both. -/
def joinBinary (op : BinaryOp) (left right : Expr) : Expr :=
  .binary (left.span.merge right.span) op left right

def joinLazy (op : LazyOp) (left right : Expr) : Expr :=
  .lazy (left.span.merge right.span) op left right

/-- The operators of a level, each with the node it makes. -/
abbrev Level := Token.Kind → Option (Expr → Expr → Expr)

def coalesceLevel : Level
  | .symbol .coalesce => some (joinLazy .coalesce)
  | _ => none

def orLevel : Level
  | .symbol .or | .keyword .or => some (joinLazy .or)
  | _ => none

def andLevel : Level
  | .symbol .and | .keyword .and => some (joinLazy .and)
  | _ => none

def comparison? : Token.Kind → Option BinaryOp
  | .symbol .equal => some .equal
  | .symbol .notEqual => some .notEqual
  | .symbol .less => some .less
  | .symbol .greater => some .greater
  | .symbol .lessEqual => some .lessEqual
  | .symbol .greaterEqual => some .greaterEqual
  | .keyword .isIn => some .isIn
  | _ => none

def sumLevel : Level
  | .symbol .plus => some (joinBinary .add)
  | .symbol .minus => some (joinBinary .subtract)
  | _ => none

def productLevel : Level
  | .symbol .star => some (joinBinary .multiply)
  | .symbol .slash => some (joinBinary .divide)
  | .symbol .percent => some (joinBinary .modulo)
  | _ => none

def prefixOp? : Token.Kind → Option UnaryOp
  | .symbol .minus => some .negate
  | .symbol .bang | .keyword .not => some .not
  | _ => none

/-- Goes on with a chain behind its left operand. Every operator takes up a level of nesting, so
the rounds need not be more than there are levels. -/
def chainFrom (level : Level) (operand : Parser Expr) : Nat → Expr → Parser Expr
  | 0, _ => fail .tooDeep
  | rounds + 1, left => do
    match level (← kind) with
    | none => pure left
    | some join =>
      let _ ← advance
      enter
      let right ← operand
      chainFrom level operand rounds (join left right)

/-- Operands with operators of one level between them, grouped from the left. -/
def chain (level : Level) (operand : Parser Expr) : Parser Expr :=
  restoring do
    let left ← operand
    chainFrom level operand (nestingLimit + 1) left

/-- One operand, or two with a comparison between them. -/
def comparison (operand : Parser Expr) : Parser Expr := do
  let left ← operand
  match comparison? (← kind) with
  | none => pure left
  | some op =>
    let _ ← advance
    let right ← operand
    match comparison? (← kind) with
    | none => pure (joinBinary op left right)
    | some _ => fail .chainedComparison

/-- Prefix operators in front of an operand, each a level of nesting. -/
def prefixed (operand : Parser Expr) : Nat → Parser Expr
  | 0 => fail .tooDeep
  | rounds + 1 => do
    match prefixOp? (← kind) with
    | none => operand
    | some op =>
      let start ← advance
      let inner ← nested (prefixed operand rounds)
      pure (.unary (start.merge inner.span) op inner)

/-- The text of a field name. Keywords are fields too. -/
def fieldText? : Token.Kind → Option String
  | .identifier name => some name
  | .keyword k => some k.text
  | _ => none

/-- The name of a field behind its dot. -/
def fieldName : Parser Name := do
  let found ← kind
  match fieldText? found with
  | some text => pure ⟨text, ← advance⟩
  | none => fail (.expectedFieldName found)

/-- Goes on with accesses behind an object. Every access takes up a level of nesting. -/
def accessFrom (expression : Parser Expr) : Nat → Expr → Parser Expr
  | 0, _ => fail .tooDeep
  | rounds + 1, object => do
    match ← kind with
    | .symbol .dot =>
      enter
      let _ ← advance
      let field ← fieldName
      accessFrom expression rounds (.member (object.span.merge field.span) object field)
    | .symbol .leftBracket =>
      enter
      let _ ← advance
      let index ← expression
      expect .rightBracket
      accessFrom expression rounds (.index (object.span.merge (← previous)) object index)
    | _ => pure object

/-- A primary expression and the accesses behind it. -/
def access (expression primary : Parser Expr) : Parser Expr :=
  restoring do
    let object ← primary
    accessFrom expression (nestingLimit + 1) object

/-- All operators around primary expressions but the conditional. -/
def operators (expression primary : Parser Expr) : Parser Expr :=
  let factor := prefixed (access expression primary) (nestingLimit + 1)
  let sum := chain sumLevel (chain productLevel factor)
  chain coalesceLevel (chain orLevel (chain andLevel (comparison sum)))

/-- A condition, with or without two branches. -/
def ternary (expression primary : Parser Expr) : Parser Expr := do
  let condition ← operators expression primary
  if ← eat .question then
    let yes ← expression
    expect .colon
    let no ← expression
    pure (.conditional (condition.span.merge no.span) condition yes no)
  else
    pure condition

end JsonTemplate.Parser
