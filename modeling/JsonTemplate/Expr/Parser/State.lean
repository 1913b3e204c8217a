import JsonTemplate.Expr.Fault
import JsonTemplate.Expr.Syntax

/-! The state of a parser and its elementary steps. A parser consumes tokens and keeps count of
the nesting level. At the end of the list it goes on seeing the last token. -/

namespace JsonTemplate

structure ParserState where
  /-- The tokens that are not consumed yet. -/
  rest : List Token
  /-- The last token of the whole list. -/
  last : Option Token
  /-- The span of the token consumed last. -/
  previous : Span
  depth : Nat
  faults : List LocatedFault

/-- A parser changes the state, and gives a result unless it fails. -/
def Parser (α : Type) : Type := ParserState → Option α × ParserState

namespace Parser

variable {α β : Type}

/-- The state before the first token. -/
def start (tokens : List Token) : ParserState :=
  ⟨tokens, tokens.getLast?, .point .first, 0, []⟩

protected def pure (a : α) : Parser α := fun s => (some a, s)

protected def bind (p : Parser α) (f : α → Parser β) : Parser β := fun s =>
  match p s with
  | (some a, s') => f a s'
  | (none, s') => (none, s')

instance : Monad Parser where
  pure := Parser.pure
  bind := Parser.bind

@[simp] theorem pure_apply (a : α) (s : ParserState) : (pure a : Parser α) s = (some a, s) := rfl

theorem bind_apply (p : Parser α) (f : α → Parser β) (s : ParserState) :
    (p >>= f) s = match p s with
      | (some a, s') => f a s'
      | (none, s') => (none, s') := rfl

end Parser

namespace ParserState

/-- The token to be consumed next. -/
def current? (s : ParserState) : Option Token :=
  match s.rest with
  | token :: _ => some token
  | [] => s.last

def kind (s : ParserState) : Token.Kind :=
  match s.current? with
  | some token => token.kind
  | none => .eof

/-- The span of the token to be consumed next. -/
def here (s : ParserState) : Span :=
  match s.current? with
  | some token => token.span
  | none => .point .first

/-- The kind of the token behind the next one. -/
def following (s : ParserState) : Token.Kind :=
  match s.rest with
  | _ :: token :: _ => token.kind
  | _ => .eof

/-- The state behind the next token. -/
def next (s : ParserState) : ParserState :=
  match s.rest with
  | token :: rest => { s with rest := rest, previous := token.span }
  | [] => s

/-- The state with one more fault at the next token. -/
def report (s : ParserState) (fault : Fault) : ParserState :=
  { s with faults := s.faults ++ [⟨fault, s.here⟩] }

/-- The state with one level of nesting given back. -/
def leave (s : ParserState) : ParserState := { s with depth := s.depth - 1 }

end ParserState

namespace Parser

variable {α : Type}

def kind : Parser Token.Kind := fun s => (some s.kind, s)

def following : Parser Token.Kind := fun s => (some s.following, s)

def here : Parser Span := fun s => (some s.here, s)

def previous : Parser Span := fun s => (some s.previous, s)

/-- Consumes the next token and gives its span. -/
def advance : Parser Span := fun s => (some s.here, s.next)

def fail (fault : Fault) : Parser α := fun s => (none, s.report fault)

/-- Consumes the next token if it is the given symbol, and tells whether it was. -/
def eat (symbol : Symbol) : Parser Bool := fun s =>
  if s.kind = .symbol symbol then (some true, s.next) else (some false, s)

/-- Consumes a symbol that has to come next. -/
def expect (symbol : Symbol) : Parser Unit := fun s =>
  if s.kind = .symbol symbol then (some (), s.next)
  else (none, s.report (.expectedToken (.symbol symbol) s.kind))

/-- Takes up one level of nesting. -/
def enter : Parser Unit := fun s =>
  if s.depth < nestingLimit then (some (), { s with depth := s.depth + 1 })
  else (none, s.report .tooDeep)

/-- Runs a parser and goes back to the level at its start, whether it fails or not. -/
def restoring (p : Parser α) : Parser α := fun s =>
  let (result, s') := p s
  (result, { s' with depth := s.depth })

/-- Runs a parser and gives one level back behind it, whether it fails or not. -/
def leaving (p : Parser α) : Parser α := fun s =>
  let (result, s') := p s
  (result, s'.leave)

/-- Runs a parser one level deeper. -/
def nested (p : Parser α) : Parser α := do
  enter
  leaving p

end Parser

end JsonTemplate
