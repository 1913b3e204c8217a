import JsonTemplate.Expr.Parser.Basic

/-! The grammar of expressions, with no limit on nesting. A phrase is a list of kinds of tokens
together with the tree that it stands for. Chains of operators group from the left, conditionals
from the right. The grammar leaves the spans of a tree open. -/

namespace JsonTemplate

open Token (Kind)

namespace Grammar

/-- How tightly the parts of a phrase hold together, from the loosest to the tightest. -/
inductive Rank where
  | conditional | coalesce | or | and | comparison | sum | product | unary | access | primary
  deriving DecidableEq, Repr

/-- What phrases stand for: expressions, lists of them, and entries of a map. -/
inductive Nonterminal where
  | expr (r : Rank)
  | items
  | entry
  | entries

abbrev Nonterminal.Tree : Nonterminal → Type
  | .expr _ => Expr
  | .items => List Expr
  | .entry => String × Expr
  | .entries => List (String × Expr)

/-! ### Tokens -/

/-- A token that is an expression on its own. -/
inductive Literal : Kind → Expr → Prop where
  | int (span : Span) (n : Int) : Literal (.int n) (.int span n)
  | float (span : Span) (x : Float) : Literal (.float x) (.float span x)
  | string (span : Span) (s : String) : Literal (.string s) (.string span s)
  | true (span : Span) : Literal (.keyword .true) (.bool span true)
  | false (span : Span) : Literal (.keyword .false) (.bool span false)
  | nil (span : Span) : Literal (.keyword .nil) (.nil span)

/-- The name of a field. It may be a keyword. -/
inductive FieldName : Kind → String → Prop where
  | identifier (name : String) : FieldName (.identifier name) name
  | keyword (k : Keyword) : FieldName (.keyword k) k.text

/-- The key of an entry: a name, a keyword, a string or an integer. -/
inductive EntryKey : Kind → String → Prop where
  | name {k : Kind} {text : String} : FieldName k text → EntryKey k text
  | string (s : String) : EntryKey (.string s) s
  | int (n : Int) : EntryKey (.int n) (Decimal.intText n)

inductive PrefixOperator : Kind → UnaryOp → Prop where
  | minus : PrefixOperator (.symbol .minus) .negate
  | bang : PrefixOperator (.symbol .bang) .not
  | not : PrefixOperator (.keyword .not) .not

inductive ComparisonOperator : Kind → BinaryOp → Prop where
  | equal : ComparisonOperator (.symbol .equal) .equal
  | notEqual : ComparisonOperator (.symbol .notEqual) .notEqual
  | less : ComparisonOperator (.symbol .less) .less
  | greater : ComparisonOperator (.symbol .greater) .greater
  | lessEqual : ComparisonOperator (.symbol .lessEqual) .lessEqual
  | greaterEqual : ComparisonOperator (.symbol .greaterEqual) .greaterEqual
  | isIn : ComparisonOperator (.keyword .isIn) .isIn

/-- The operators of the chains of a rank, each with the node that it makes. -/
inductive ChainOperator : Rank → Kind → (Span → Expr → Expr → Expr) → Prop where
  | coalesce : ChainOperator .coalesce (.symbol .coalesce) fun s l r => .lazy s .coalesce l r
  | or : ChainOperator .or (.symbol .or) fun s l r => .lazy s .or l r
  | orWord : ChainOperator .or (.keyword .or) fun s l r => .lazy s .or l r
  | and : ChainOperator .and (.symbol .and) fun s l r => .lazy s .and l r
  | andWord : ChainOperator .and (.keyword .and) fun s l r => .lazy s .and l r
  | plus : ChainOperator .sum (.symbol .plus) fun s l r => .binary s .add l r
  | minus : ChainOperator .sum (.symbol .minus) fun s l r => .binary s .subtract l r
  | star : ChainOperator .product (.symbol .star) fun s l r => .binary s .multiply l r
  | slash : ChainOperator .product (.symbol .slash) fun s l r => .binary s .divide l r
  | percent : ChainOperator .product (.symbol .percent) fun s l r => .binary s .modulo l r

section End
variable {k : Kind}

/-! No part of a phrase is the end token. -/

theorem Literal.ne_eof {e : Expr} (h : Literal k e) : k ≠ .eof := by
  cases h <;> nofun

theorem FieldName.ne_eof {text : String} (h : FieldName k text) : k ≠ .eof := by
  cases h <;> nofun

theorem EntryKey.ne_eof {text : String} (h : EntryKey k text) : k ≠ .eof := by
  cases h with
  | name h => exact h.ne_eof
  | string => nofun
  | int => nofun

theorem PrefixOperator.ne_eof {op : UnaryOp} (h : PrefixOperator k op) : k ≠ .eof := by
  cases h <;> nofun

theorem ComparisonOperator.ne_eof {op : BinaryOp} (h : ComparisonOperator k op) : k ≠ .eof := by
  cases h <;> nofun

theorem ChainOperator.ne_eof {r : Rank} {node : Span → Expr → Expr → Expr}
    (h : ChainOperator r k node) : k ≠ .eof := by
  cases h <;> nofun

end End

/-- The next tighter rank. -/
inductive Tighter : Rank → Rank → Prop where
  | conditional : Tighter .conditional .coalesce
  | coalesce : Tighter .coalesce .or
  | or : Tighter .or .and
  | and : Tighter .and .comparison
  | comparison : Tighter .comparison .sum
  | sum : Tighter .sum .product
  | product : Tighter .product .unary
  | unary : Tighter .unary .access
  | access : Tighter .access .primary

/-! ### Phrases -/

inductive Phrase : (n : Nonterminal) → List Kind → n.Tree → Prop where
  | literal {k : Kind} {e : Expr} : Literal k e → Phrase (.expr .primary) [k] e
  | identifier (span : Span) (name : String) :
    Phrase (.expr .primary) [.identifier name] (.identifier span name)
  | call (span : Span) (function : Name) {ts : List Kind} {arguments : List Expr} :
    Phrase .items ts arguments →
    Phrase (.expr .primary)
      (.identifier function.text :: .symbol .leftParen :: ts ++ [.symbol .rightParen])
      (.call span function arguments)
  | array (span : Span) {ts : List Kind} {items : List Expr} :
    Phrase .items ts items →
    Phrase (.expr .primary) (.symbol .leftBracket :: ts ++ [.symbol .rightBracket])
      (.array span items)
  | map (span : Span) {ts : List Kind} {entries : List (String × Expr)} :
    Phrase .entries ts entries →
    Phrase (.expr .primary) (.symbol .leftBrace :: ts ++ [.symbol .rightBrace])
      (.map span entries)
  | paren (span : Span) {ts : List Kind} {e : Expr} :
    Phrase (.expr .conditional) ts e →
    Phrase (.expr .primary) (.symbol .leftParen :: ts ++ [.symbol .rightParen]) (.paren span e)
  | member (span : Span) (field : Name) {ts : List Kind} {k : Kind} {object : Expr} :
    Phrase (.expr .access) ts object → FieldName k field.text →
    Phrase (.expr .access) (ts ++ [.symbol .dot, k]) (.member span object field)
  | index (span : Span) {ts us : List Kind} {object place : Expr} :
    Phrase (.expr .access) ts object → Phrase (.expr .conditional) us place →
    Phrase (.expr .access) (ts ++ .symbol .leftBracket :: us ++ [.symbol .rightBracket])
      (.index span object place)
  | prefixed (span : Span) {k : Kind} {op : UnaryOp} {ts : List Kind} {e : Expr} :
    PrefixOperator k op → Phrase (.expr .unary) ts e →
    Phrase (.expr .unary) (k :: ts) (.unary span op e)
  | chained (span : Span) {r operand : Rank} {k : Kind} {node : Span → Expr → Expr → Expr}
    {ts us : List Kind} {left right : Expr} :
    ChainOperator r k node → Tighter r operand →
    Phrase (.expr r) ts left → Phrase (.expr operand) us right →
    Phrase (.expr r) (ts ++ k :: us) (node span left right)
  | compared (span : Span) {k : Kind} {op : BinaryOp} {ts us : List Kind} {left right : Expr} :
    ComparisonOperator k op → Phrase (.expr .sum) ts left → Phrase (.expr .sum) us right →
    Phrase (.expr .comparison) (ts ++ k :: us) (.binary span op left right)
  | conditional (span : Span) {ts us vs : List Kind} {condition yes no : Expr} :
    Phrase (.expr .coalesce) ts condition → Phrase (.expr .conditional) us yes →
    Phrase (.expr .conditional) vs no →
    Phrase (.expr .conditional) (ts ++ .symbol .question :: us ++ .symbol .colon :: vs)
      (.conditional span condition yes no)
  | tighter {r operand : Rank} {ts : List Kind} {e : Expr} :
    Tighter r operand → Phrase (.expr operand) ts e → Phrase (.expr r) ts e
  | noItems : Phrase .items [] []
  | lastItem {ts : List Kind} {e : Expr} : Phrase (.expr .conditional) ts e → Phrase .items ts [e]
  | moreItems {ts us : List Kind} {e : Expr} {items : List Expr} :
    Phrase (.expr .conditional) ts e → Phrase .items us items →
    Phrase .items (ts ++ .symbol .comma :: us) (e :: items)
  | entry {k : Kind} {key : String} {ts : List Kind} {e : Expr} :
    EntryKey k key → Phrase (.expr .conditional) ts e →
    Phrase .entry (k :: .symbol .colon :: ts) (key, e)
  | noEntries : Phrase .entries [] []
  | lastEntry {ts : List Kind} {entry : String × Expr} :
    Phrase .entry ts entry → Phrase .entries ts [entry]
  | moreEntries {ts us : List Kind} {entry : String × Expr} {entries : List (String × Expr)} :
    Phrase .entry ts entry → Phrase .entries us entries →
    Phrase .entries (ts ++ .symbol .comma :: us) (entry :: entries)

/-- The sentences of the grammar, with their expressions. -/
abbrev Sentence (ts : List Kind) (e : Expr) : Prop := Phrase (.expr .conditional) ts e

end Grammar

/-! ### Trees without spans -/

namespace Expr

mutual

/-- The expression with all its spans forgotten. -/
def bare : Expr → Expr
  | .int _ n => .int default n
  | .float _ x => .float default x
  | .string _ s => .string default s
  | .bool _ b => .bool default b
  | .nil _ => .nil default
  | .array _ items => .array default (bareItems items)
  | .map _ entries => .map default (bareEntries entries)
  | .identifier _ name => .identifier default name
  | .member _ object field => .member default object.bare ⟨field.text, default⟩
  | .index _ object place => .index default object.bare place.bare
  | .call _ function arguments => .call default ⟨function.text, default⟩ (bareItems arguments)
  | .unary _ op operand => .unary default op operand.bare
  | .binary _ op left right => .binary default op left.bare right.bare
  | .lazy _ op left right => .lazy default op left.bare right.bare
  | .conditional _ condition yes no => .conditional default condition.bare yes.bare no.bare
  | .paren _ inner => .paren default inner.bare

def bareItems : List Expr → List Expr
  | [] => []
  | e :: rest => e.bare :: bareItems rest

def bareEntries : List (String × Expr) → List (String × Expr)
  | [] => []
  | (name, e) :: rest => (name, e.bare) :: bareEntries rest

end

end Expr

namespace Grammar

/-- Two nodes of an operator are the same without spans if their operands are. -/
theorem ChainOperator.bare_node {r : Rank} {k : Kind} {node : Span → Expr → Expr → Expr}
    (h : ChainOperator r k node) (span : Span) (left right : Expr) :
    (node span left right).bare = node default left.bare right.bare := by
  cases h <;> rfl

/-! ### The first token -/

/-- A token that starts a primary expression. -/
inductive Opener : Kind → Prop where
  | literal {k : Kind} {e : Expr} : Literal k e → Opener k
  | identifier (name : String) : Opener (.identifier name)
  | bracket : Opener (.symbol .leftBracket)
  | brace : Opener (.symbol .leftBrace)
  | paren : Opener (.symbol .leftParen)

/-- How loose a rank is, as a number. -/
def Rank.looseness : Rank → Nat
  | .primary => 0
  | .access => 1
  | .unary => 2
  | .product => 3
  | .sum => 4
  | .comparison => 5
  | .and => 6
  | .or => 7
  | .coalesce => 8
  | .conditional => 9

theorem Tighter.looseness {r operand : Rank} (h : Tighter r operand) :
    operand.looseness < r.looseness := by
  cases h <;> decide

/-- Only phrases looser than an access start with a prefix operator. -/
def Starts (r : Rank) (k : Kind) : Prop :=
  Opener k ∨ Rank.access.looseness < r.looseness ∧ ∃ op, PrefixOperator k op

theorem Starts.looser {r q : Rank} {k : Kind} (h : Starts r k) (hr : r.looseness ≤ q.looseness) :
    Starts q k := by
  rcases h with h | ⟨hl, h⟩
  · exact .inl h
  · exact .inr ⟨Nat.lt_of_lt_of_le hl hr, h⟩

theorem Phrase.starts {n : Nonterminal} {ts : List Kind} {t : n.Tree} (h : Phrase n ts t) :
    ∀ r, n = .expr r → ∃ k us, ts = k :: us ∧ Starts r k := by
  induction h with
  | literal h => rintro r ⟨⟩; exact ⟨_, _, rfl, .inl (.literal h)⟩
  | identifier span name => rintro r ⟨⟩; exact ⟨_, _, rfl, .inl (.identifier name)⟩
  | call span function => rintro r ⟨⟩; exact ⟨_, _, rfl, .inl (.identifier _)⟩
  | array => rintro r ⟨⟩; exact ⟨_, _, rfl, .inl .bracket⟩
  | map => rintro r ⟨⟩; exact ⟨_, _, rfl, .inl .brace⟩
  | paren => rintro r ⟨⟩; exact ⟨_, _, rfl, .inl .paren⟩
  | prefixed span hop => rintro r ⟨⟩; exact ⟨_, _, rfl, .inr ⟨by decide, _, hop⟩⟩
  | tighter hr _ ih =>
    rintro r ⟨⟩
    obtain ⟨k, us, rfl, hk⟩ := ih _ rfl
    exact ⟨k, us, rfl, hk.looser (Nat.le_of_lt hr.looseness)⟩
  | member _ _ _ _ ih | index _ _ _ ih | chained _ _ _ _ _ ih =>
    rintro r ⟨⟩
    obtain ⟨k, us, rfl, hk⟩ := ih _ rfl
    exact ⟨k, _, rfl, hk⟩
  | compared _ _ _ _ ih | conditional _ _ _ _ ih =>
    rintro r ⟨⟩
    obtain ⟨k, us, rfl, hk⟩ := ih _ rfl
    exact ⟨k, _, rfl, hk.looser (by decide)⟩
  | noItems | lastItem | moreItems | entry | noEntries | lastEntry | moreEntries => rintro r ⟨⟩

theorem Phrase.length_pos {r : Rank} {ts : List Kind} {e : Expr} (h : Phrase (.expr r) ts e) :
    0 < ts.length := by
  obtain ⟨k, us, rfl, -⟩ := h.starts r rfl
  exact Nat.succ_pos _

/-- The end token is no part of a phrase. -/
theorem Phrase.eof_notMem {n : Nonterminal} {ts : List Kind} {t : n.Tree} (h : Phrase n ts t) :
    Kind.eof ∉ ts := by
  induction h with
  | literal h => simpa using h.ne_eof.symm
  | member _ _ _ hfield ih => simpa [ih] using hfield.ne_eof.symm
  | prefixed _ hop _ ih => simpa [ih] using hop.ne_eof.symm
  | chained _ hop _ _ _ ihl ihr => simpa [ihl, ihr] using hop.ne_eof.symm
  | compared _ hop _ _ ihl ihr => simpa [ihl, ihr] using hop.ne_eof.symm
  | entry hkey _ ih => simpa [ih] using hkey.ne_eof.symm
  | _ => simp_all

/-- The symbols behind lists. -/
inductive Closes : Symbol → Prop where
  | paren : Closes .rightParen
  | bracket : Closes .rightBracket
  | brace : Closes .rightBrace

theorem Closes.ne_comma {close : Symbol} (h : Closes close) :
    Kind.symbol close ≠ .symbol .comma := by
  cases h <;> decide

theorem Starts.ne_close {r : Rank} {k : Kind} {close : Symbol} (h : Starts r k)
    (hc : Closes close) : k ≠ .symbol close := by
  rintro rfl
  rcases h with h | ⟨-, op, h⟩
  · cases hc <;> rcases h with ⟨⟨⟩⟩
  · cases hc <;> cases h

theorem EntryKey.ne_symbol {k : Kind} {key : String} {symbol : Symbol} (h : EntryKey k key) :
    k ≠ .symbol symbol := by
  rcases h with ⟨⟨⟩⟩ | _ | _ <;> nofun

end Grammar

end JsonTemplate
