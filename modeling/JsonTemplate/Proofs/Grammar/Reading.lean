import JsonTemplate.Proofs.Grammar.Phrase

/-! The parser of each rank, and how the elementary steps of parsers consume tokens. A list of
tokens is looked at through the kinds of its tokens. -/

namespace JsonTemplate

open Token (Kind)

namespace ParserState

variable {s s' : ParserState} {k : Kind} {ts us : List Kind}

/-- The kinds of the tokens that are not consumed yet. -/
def kinds (s : ParserState) : List Kind := s.rest.map Token.kind

theorem kind_of_kinds (h : s.kinds = k :: ts) : s.kind = k := by
  obtain ⟨_ | ⟨token, rest⟩, last, previous, depth, faults⟩ := s
  · cases h
  · exact (List.cons.inj h).1

theorem kinds_next (h : s.kinds = k :: ts) : s.next.kinds = ts := by
  obtain ⟨_ | ⟨token, rest⟩, last, previous, depth, faults⟩ := s
  · cases h
  · exact (List.cons.inj h).2

theorem following_of_kinds (h : s.kinds = k :: ts) : s.following = ts.headD .eof := by
  obtain ⟨_ | ⟨token, _ | ⟨second, rest⟩⟩, last, previous, depth, faults⟩ := s
  · cases h
  · rw [← (List.cons.inj h).2]; rfl
  · rw [← (List.cons.inj h).2]; rfl

@[simp] theorem depth_next (s : ParserState) : s.next.depth = s.depth := by
  unfold next
  split <;> rfl

@[simp] theorem faults_next (s : ParserState) : s.next.faults = s.faults := by
  unfold next
  split <;> rfl

/-- The only end token among the tokens left is the last one. -/
def Ended (s : ParserState) : Prop := ∃ ts, s.kinds = ts ++ [.eof] ∧ Kind.eof ∉ ts

/-- The kinds in front of the end token. -/
theorem ended_start {tokens : List Token} {e : Token} (he : e.kind = .eof)
    (h : ∀ token ∈ tokens, token.kind ≠ .eof) : (Parser.start (tokens ++ [e])).Ended := by
  refine ⟨tokens.map Token.kind, by simp [kinds, Parser.start, he], ?_⟩
  intro hmem
  obtain ⟨token, ht, hk⟩ := List.mem_map.1 hmem
  exact h token ht hk

/-- The tokens are consumed between two states. -/
structure Consumes (s : ParserState) (tokens : List Token) (s' : ParserState) : Prop where
  rest : s.rest = tokens ++ s'.rest
  ended : s'.Ended

section Consumes
variable {tokens more : List Token}

theorem Consumes.kinds (h : Consumes s tokens s') :
    s.kinds = tokens.map Token.kind ++ s'.kinds := by
  rw [ParserState.kinds, h.rest, List.map_append, ParserState.kinds]

theorem Ended.consumes_nil (h : s.Ended) : Consumes s [] s := ⟨rfl, h⟩

/-- Anything but the end token is consumed. -/
theorem Ended.consumes_next (h : s.Ended) (hk : s.kind ≠ .eof) :
    Consumes s [⟨s.kind, s.here⟩] s.next := by
  obtain ⟨_ | ⟨k, ts⟩, hts, hmem⟩ := h
  · exact absurd (kind_of_kinds hts) hk
  · refine ⟨?_, ts, kinds_next hts, fun hin => hmem (List.mem_cons_of_mem k hin)⟩
    obtain ⟨_ | ⟨token, rest⟩, last, previous, depth, faults⟩ := s
    · cases hts
    · rfl

theorem Ended.previous_next (h : s.Ended) : s.next.previous = s.here := by
  obtain ⟨ts, hts, -⟩ := h
  obtain ⟨_ | ⟨token, rest⟩, last, previous, depth, faults⟩ := s
  · simp [kinds] at hts
  · rfl

theorem Consumes.trans {s'' : ParserState} (h₁ : Consumes s tokens s')
    (h₂ : Consumes s' more s'') : Consumes s (tokens ++ more) s'' :=
  ⟨by rw [h₁.rest, h₂.rest, List.append_assoc], h₂.ended⟩

theorem Ended.withDepth (h : s.Ended) (depth : Nat) : Ended { s with depth := depth } := h

theorem Consumes.withDepth (h : Consumes s tokens s') (depth : Nat) :
    Consumes s tokens { s' with depth := depth } := ⟨h.rest, h.ended⟩

theorem Consumes.fromDepth {depth : Nat} (h : Consumes { s with depth := depth } tokens s') :
    Consumes s tokens s' := ⟨h.rest, h.ended⟩

end Consumes

end ParserState

namespace Parser

variable {α β : Type} {s s' : ParserState}

@[simp] theorem fail_apply (fault : Fault) (s : ParserState) :
    (fail fault : Parser α) s = (none, s.report fault) := rfl

theorem bind_of_some {p : Parser α} {f : α → Parser β} {a : α} (h : p s = (some a, s')) :
    (p >>= f) s = f a s' := by
  rw [bind_apply, h]

theorem bind_of_none {p : Parser α} {f : α → Parser β} (h : p s = (none, s')) :
    (p >>= f) s = (none, s') := by
  rw [bind_apply, h]

theorem bind_eq_some {p : Parser α} {f : α → Parser β} {b : β} :
    (p >>= f) s = (some b, s') ↔ ∃ a t, p s = (some a, t) ∧ f a t = (some b, s') := by
  constructor
  · intro h
    cases hp : p s with
    | mk result t =>
      cases result with
      | none => rw [bind_of_none hp] at h; cases h
      | some a => rw [bind_of_some hp] at h; exact ⟨a, t, rfl, h⟩
  · rintro ⟨a, t, hp, hf⟩
    rw [bind_of_some hp, hf]

theorem bind_eq_none {p : Parser α} {f : α → Parser β} :
    (p >>= f) s = (none, s') ↔
      p s = (none, s') ∨ ∃ a t, p s = (some a, t) ∧ f a t = (none, s') := by
  cases hp : p s with
  | mk result t =>
    cases result with
    | none => simp [bind_of_none hp]
    | some a =>
      rw [bind_of_some hp]
      constructor
      · intro h
        exact .inr ⟨a, t, rfl, h⟩
      · rintro (h | ⟨b, u, h, hf⟩)
        · cases h
        · cases h
          exact hf

@[simp] theorem kind_bind (f : Kind → Parser β) (s : ParserState) :
    (kind >>= f) s = f s.kind s := rfl

@[simp] theorem following_bind (f : Kind → Parser β) (s : ParserState) :
    (following >>= f) s = f s.following s := rfl

@[simp] theorem previous_bind (f : Span → Parser β) (s : ParserState) :
    (previous >>= f) s = f s.previous s := rfl

@[simp] theorem advance_bind (f : Span → Parser β) (s : ParserState) :
    (advance >>= f) s = f s.here s.next := rfl

theorem enter_eq_some :
    enter s = (some (), s') ↔ s.depth < nestingLimit ∧ s' = { s with depth := s.depth + 1 } := by
  unfold enter
  split
  · next h => simp [h, eq_comm]
  · next h => simp [h]

theorem expect_eq_some {symbol : Symbol} :
    expect symbol s = (some (), s') ↔ s.kind = .symbol symbol ∧ s' = s.next := by
  unfold expect
  split
  · next h => simp [h, eq_comm]
  · next h => simp [h]

theorem eat_eq_true {symbol : Symbol} :
    eat symbol s = (some true, s') ↔ s.kind = .symbol symbol ∧ s' = s.next := by
  unfold eat
  split
  · next h => simp [h, eq_comm]
  · next h => simp [h]

theorem eat_eq_false {symbol : Symbol} :
    eat symbol s = (some false, s') ↔ s.kind ≠ .symbol symbol ∧ s' = s := by
  unfold eat
  split
  · next h => simp [h]
  · next h => simp [h, eq_comm]

/-- The result of a run whose last state is changed behind it. -/
theorem changed_eq (run : Option α × ParserState) (change : ParserState → ParserState)
    {result : Option α} :
    (run.1, change run.2) = (result, s') ↔ ∃ t, run = (result, t) ∧ s' = change t := by
  obtain ⟨found, t⟩ := run
  constructor
  · rintro ⟨⟩
    exact ⟨t, rfl, rfl⟩
  · rintro ⟨_, ⟨⟩, rfl⟩
    rfl

theorem restoring_eq {p : Parser α} {result : Option α} :
    restoring p s = (result, s') ↔
      ∃ t, p s = (result, t) ∧ s' = { t with depth := s.depth } :=
  changed_eq (p s) fun t => { t with depth := s.depth }

theorem leaving_eq {p : Parser α} {result : Option α} :
    leaving p s = (result, s') ↔ ∃ t, p s = (result, t) ∧ s' = t.leave :=
  changed_eq (p s) ParserState.leave

/-- Where there is a level, the parser runs one level deeper and leaves it again. -/
theorem nested_of_lt (p : Parser α) (hd : s.depth < nestingLimit) :
    nested p s = leaving p { s with depth := s.depth + 1 } :=
  bind_of_some (enter_eq_some.2 ⟨hd, rfl⟩)

theorem nested_of_not_lt (p : Parser α) (hd : ¬s.depth < nestingLimit) :
    nested p s = (none, s.report .tooDeep) := bind_of_none (if_neg hd)

theorem nested_eq_some {p : Parser α} {a : α} :
    nested p s = (some a, s') ↔ s.depth < nestingLimit ∧
      ∃ t, p { s with depth := s.depth + 1 } = (some a, t) ∧ s' = t.leave := by
  by_cases hd : s.depth < nestingLimit
  · rw [nested_of_lt p hd, leaving_eq]
    exact (and_iff_right hd).symm
  · simp [nested_of_not_lt p hd, hd]

/-- What a parser does one level deeper decides, and only if there is such a level. -/
theorem nested_congr {p q : Parser α}
    (h : s.depth < nestingLimit → p { s with depth := s.depth + 1 } =
      q { s with depth := s.depth + 1 }) : nested p s = nested q s := by
  by_cases hd : s.depth < nestingLimit
  · rw [nested_of_lt p hd, nested_of_lt q hd, leaving, h hd, leaving]
  · rw [nested_of_not_lt p hd, nested_of_not_lt q hd]

open Grammar (Rank)

/-! ### Tokens -/

theorem literal_of_literal? {span : Span} {k : Kind} {e : Expr} (h : literal? span k = some e) :
    Grammar.Literal k e := by
  unfold literal? at h
  split at h <;> cases h <;> constructor

theorem span_of_literal? {span : Span} {k : Kind} {e : Expr} (h : literal? span k = some e) :
    e.span = span := by
  unfold literal? at h
  split at h <;> cases h <;> rfl

theorem fieldText?_eq_some {k : Kind} {text : String} :
    fieldText? k = some text ↔ Grammar.FieldName k text := by
  constructor
  · intro h
    unfold fieldText? at h
    split at h <;> cases h <;> constructor
  · rintro ⟨⟩ <;> rfl

theorem keyText?_eq_some {k : Kind} {text : String} :
    keyText? k = some text ↔ Grammar.EntryKey k text := by
  constructor
  · intro h
    unfold keyText? at h
    split at h <;> cases h
    · exact .name (.identifier _)
    · exact .string _
    · exact .int _
    · exact .name (.keyword _)
  · rintro (⟨⟨⟩⟩ | _ | _) <;> rfl

theorem prefixOp?_eq_some {k : Kind} {op : UnaryOp} :
    prefixOp? k = some op ↔ Grammar.PrefixOperator k op := by
  constructor
  · intro h
    unfold prefixOp? at h
    split at h <;> cases h <;> constructor
  · rintro ⟨⟩ <;> rfl

theorem comparison?_eq_some {k : Kind} {op : BinaryOp} :
    comparison? k = some op ↔ Grammar.ComparisonOperator k op := by
  constructor
  · intro h
    unfold comparison? at h
    split at h <;> cases h <;> constructor
  · rintro ⟨⟩ <;> rfl

/-- The operators of the chains of a rank. -/
def levelOf : Rank → Level
  | .coalesce => coalesceLevel
  | .or => orLevel
  | .and => andLevel
  | .sum => sumLevel
  | .product => productLevel
  | _ => fun _ => none

/-- A chain makes the node of its operator around the text of both operands. -/
theorem levelOf_eq_some {r : Rank} {k : Kind} {join : Expr → Expr → Expr} :
    levelOf r k = some join ↔ ∃ node, Grammar.ChainOperator r k node ∧
      join = fun left right => node (left.span.merge right.span) left right := by
  constructor
  · intro h
    cases r <;> simp only [levelOf, coalesceLevel, orLevel, andLevel, sumLevel,
      productLevel, reduceCtorEq] at h
    all_goals split at h <;> cases h <;> exact ⟨_, by constructor, rfl⟩
  · rintro ⟨node, ⟨⟩, rfl⟩ <;> rfl

/-! ### Single steps -/

section Steps
variable {p : Parser Expr} {rounds : Nat} {left object e : Expr}

theorem chainFrom_none {level : Level} (h : level s.kind = none) :
    chainFrom level p (rounds + 1) left s = (some left, s) := by
  rw [chainFrom, kind_bind, h]
  rfl

theorem chainFrom_some {level : Level} {join : Expr → Expr → Expr}
    (h : level s.kind = some join) :
    chainFrom level p (rounds + 1) left s =
      (do enter; let right ← p; chainFrom level p rounds (join left right)) s.next := by
  rw [chainFrom, kind_bind, h]
  rfl

theorem prefixed_none (h : prefixOp? s.kind = none) : prefixed p (rounds + 1) s = p s := by
  rw [prefixed, kind_bind, h]

theorem prefixed_some {op : UnaryOp} (h : prefixOp? s.kind = some op) :
    prefixed p (rounds + 1) s =
      (do let inner ← nested (prefixed p rounds)
          pure (Expr.unary (s.here.merge inner.span) op inner)) s.next := by
  rw [prefixed, kind_bind, h]
  rfl

theorem accessFrom_dot (h : s.kind = .symbol .dot) :
    accessFrom p (rounds + 1) object s =
      (do enter
          let _ ← advance
          let field ← fieldName
          accessFrom p rounds (.member (object.span.merge field.span) object field)) s := by
  rw [accessFrom, kind_bind, h]

theorem accessFrom_bracket (h : s.kind = .symbol .leftBracket) :
    accessFrom p (rounds + 1) object s =
      (do enter
          let _ ← advance
          let index ← p
          expect .rightBracket
          accessFrom p rounds (.index (object.span.merge (← previous)) object index)) s := by
  rw [accessFrom, kind_bind, h]

theorem accessFrom_other (hd : s.kind ≠ .symbol .dot) (hb : s.kind ≠ .symbol .leftBracket) :
    accessFrom p (rounds + 1) object s = (some object, s) := by
  rw [accessFrom, kind_bind]
  generalize s.kind = k at hd hb
  cases k with
  | symbol symbol => cases symbol <;> first | rfl | contradiction
  | _ => rfl

theorem fieldName_eq_some {field : Name} :
    fieldName s = (some field, s') ↔
      Grammar.FieldName s.kind field.text ∧ field.span = s.here ∧ s' = s.next := by
  rw [← fieldText?_eq_some, fieldName, kind_bind]
  cases h : fieldText? s.kind with
  | none => simp
  | some text =>
    obtain ⟨name, span⟩ := field
    simp [advance_bind, eq_comm, and_assoc]

theorem primary_array (h : s.kind = .symbol .leftBracket) : primary p s = array p s := by
  rw [primary, kind_bind, h]

theorem primary_map (h : s.kind = .symbol .leftBrace) : primary p s = map p s := by
  rw [primary, kind_bind, h]

theorem primary_paren (h : s.kind = .symbol .leftParen) : primary p s = paren p s := by
  rw [primary, kind_bind, h]

theorem primary_call {name : String} (h : s.kind = .identifier name)
    (hf : s.following = .symbol .leftParen) : primary p s = call p name s := by
  simp only [primary, kind_bind, h, following_bind, hf, if_true]

theorem primary_identifier {name : String} (h : s.kind = .identifier name)
    (hf : s.following ≠ .symbol .leftParen) :
    primary p s = (some (.identifier s.here name), s.next) := by
  simp only [primary, kind_bind, h, following_bind, hf, if_false]
  rfl

theorem primary_literal (h : literal? s.here s.kind = some e) :
    primary p s = (some e, s.next) := by
  rw [primary, kind_bind]
  generalize s.kind = k at h
  cases k with
  | identifier name => cases h
  | symbol symbol => cases h
  | eof => cases h
  | keyword k => cases k <;> cases h <;> rfl
  | int n => cases h; rfl
  | float x => cases h; rfl
  | string t => cases h; rfl

/-- Nothing else starts a primary expression. -/
theorem primary_other (ha : s.kind ≠ .symbol .leftBracket) (hm : s.kind ≠ .symbol .leftBrace)
    (hp : s.kind ≠ .symbol .leftParen) (hi : ∀ name, s.kind ≠ .identifier name)
    (hl : literal? s.here s.kind = none) :
    primary p s = (none, s.report (.expectedExpression s.kind)) := by
  rw [primary, kind_bind]
  generalize s.kind = k at ha hm hp hi hl
  cases k with
  | identifier name => exact absurd rfl (hi name)
  | symbol symbol => cases symbol <;> first | rfl | contradiction
  | keyword k => cases k <;> first | rfl | cases hl
  | eof => rfl
  | int n => cases hl
  | float x => cases hl
  | string t => cases hl

end Steps

section Ranks
variable (expression : Parser Expr)

def factor : Parser Expr := prefixed (access expression (primary expression)) (nestingLimit + 1)

def product : Parser Expr := chain (levelOf .product) (factor expression)

def sum : Parser Expr := chain (levelOf .sum) (product expression)

def conjunction : Parser Expr := chain (levelOf .and) (comparison (sum expression))

def disjunction : Parser Expr := chain (levelOf .or) (conjunction expression)

/-- The parser of a rank, around a parser of the expressions inside. -/
def ofRank : Rank → Parser Expr
  | .conditional => ternary expression (primary expression)
  | .coalesce => chain (levelOf .coalesce) (disjunction expression)
  | .or => disjunction expression
  | .and => conjunction expression
  | .comparison => comparison (sum expression)
  | .sum => sum expression
  | .product => product expression
  | .unary => factor expression
  | .access => access expression (primary expression)
  | .primary => primary expression

end Ranks

theorem expressionWithin_succ (levels : Nat) :
    expressionWithin (levels + 1) = nested (ofRank (expressionWithin levels) .conditional) := rfl

end Parser

end JsonTemplate
