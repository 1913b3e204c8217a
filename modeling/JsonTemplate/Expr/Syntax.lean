import JsonTemplate.Source.Span

/-! Expressions. Every node has the span of the text it was read from. -/

namespace JsonTemplate

/-- A name with its place. -/
structure Name where
  text : String
  span : Span
  deriving DecidableEq, Repr

inductive UnaryOp where
  | negate
  | not
  deriving DecidableEq, Repr

def UnaryOp.symbol : UnaryOp → String
  | .negate => "-"
  | .not => "!"

/-- Operators that need both operands. -/
inductive BinaryOp where
  | add | subtract | multiply | divide | modulo
  | equal | notEqual | less | greater | lessEqual | greaterEqual | isIn
  deriving DecidableEq, Repr

def BinaryOp.symbol : BinaryOp → String
  | .add => "+"
  | .subtract => "-"
  | .multiply => "*"
  | .divide => "/"
  | .modulo => "%"
  | .equal => "=="
  | .notEqual => "!="
  | .less => "<"
  | .greater => ">"
  | .lessEqual => "<="
  | .greaterEqual => ">="
  | .isIn => "in"

/-- Operators whose right operand may not be needed. -/
inductive LazyOp where
  | and | or | coalesce
  deriving DecidableEq, Repr

def LazyOp.symbol : LazyOp → String
  | .and => "&&"
  | .or => "||"
  | .coalesce => "??"

inductive Expr where
  | int (span : Span) (n : Int)
  | float (span : Span) (x : Float)
  | string (span : Span) (s : String)
  | bool (span : Span) (b : Bool)
  | nil (span : Span)
  | array (span : Span) (items : List Expr)
  | map (span : Span) (entries : List (String × Expr))
  | identifier (span : Span) (name : String)
  | member (span : Span) (object : Expr) (field : Name)
  | index (span : Span) (object place : Expr)
  | call (span : Span) (function : Name) (arguments : List Expr)
  | unary (span : Span) (op : UnaryOp) (operand : Expr)
  | binary (span : Span) (op : BinaryOp) (left right : Expr)
  | lazy (span : Span) (op : LazyOp) (left right : Expr)
  | conditional (span : Span) (condition yes no : Expr)
  | paren (span : Span) (inner : Expr)
  deriving Inhabited

namespace Expr

def span : Expr → Span
  | .int span _ | .float span _ | .string span _ | .bool span _ | .nil span | .array span _
  | .map span _ | .identifier span _ | .member span _ _ | .index span _ _ | .call span _ _
  | .unary span _ _ | .binary span _ _ _ | .lazy span _ _ _ | .conditional span _ _ _
  | .paren span _ => span

mutual

/-- The expression and all expressions inside it, parents before children and children from left
to right. -/
def subterms : Expr → List Expr
  | .array s items => .array s items :: subtermsOfItems items
  | .map s entries => .map s entries :: subtermsOfEntries entries
  | .member s object field => .member s object field :: object.subterms
  | .index s object place => .index s object place :: (object.subterms ++ place.subterms)
  | .call s function arguments => .call s function arguments :: subtermsOfItems arguments
  | .unary s op operand => .unary s op operand :: operand.subterms
  | .binary s op left right => .binary s op left right :: (left.subterms ++ right.subterms)
  | .lazy s op left right => .lazy s op left right :: (left.subterms ++ right.subterms)
  | .conditional s condition yes no =>
    .conditional s condition yes no :: (condition.subterms ++ yes.subterms ++ no.subterms)
  | .paren s inner => .paren s inner :: inner.subterms
  | e => [e]

def subtermsOfItems : List Expr → List Expr
  | [] => []
  | e :: rest => e.subterms ++ subtermsOfItems rest

def subtermsOfEntries : List (String × Expr) → List Expr
  | [] => []
  | (_, e) :: rest => e.subterms ++ subtermsOfEntries rest

end

theorem subterms_ne_nil (e : Expr) : e.subterms ≠ [] := by
  cases e <;> simp [subterms]

theorem mem_subterms_self (e : Expr) : e ∈ e.subterms := by
  cases e <;> simp [subterms]

end Expr

end JsonTemplate
