import JsonTemplate.Proofs.Grammar.Phrase

/-! Phrases of tokens. The names and leaves of a tree have the spans of their tokens, and the span
of any other node joins those of its ends: the outermost operands of an operator, or the opening
and the closing token. -/

namespace JsonTemplate

open Token (Kind)

namespace Grammar

inductive Spelled : (n : Nonterminal) → List Token → n.Tree → Prop where
  | literal {k : Kind} {e : Expr} : Literal k e → Spelled (.expr .primary) [⟨k, e.span⟩] e
  | identifier (span : Span) (name : String) :
    Spelled (.expr .primary) [⟨.identifier name, span⟩] (.identifier span name)
  | call (function : Name) (opening closing : Span) {ts : List Token} {arguments : List Expr} :
    Spelled .items ts arguments →
    Spelled (.expr .primary)
      (⟨.identifier function.text, function.span⟩ :: ⟨.symbol .leftParen, opening⟩ :: ts ++
        [⟨.symbol .rightParen, closing⟩])
      (.call (function.span.merge closing) function arguments)
  | array (opening closing : Span) {ts : List Token} {items : List Expr} :
    Spelled .items ts items →
    Spelled (.expr .primary)
      (⟨.symbol .leftBracket, opening⟩ :: ts ++ [⟨.symbol .rightBracket, closing⟩])
      (.array (opening.merge closing) items)
  | map (opening closing : Span) {ts : List Token} {entries : List (String × Expr)} :
    Spelled .entries ts entries →
    Spelled (.expr .primary)
      (⟨.symbol .leftBrace, opening⟩ :: ts ++ [⟨.symbol .rightBrace, closing⟩])
      (.map (opening.merge closing) entries)
  | paren (opening closing : Span) {ts : List Token} {e : Expr} :
    Spelled (.expr .conditional) ts e →
    Spelled (.expr .primary)
      (⟨.symbol .leftParen, opening⟩ :: ts ++ [⟨.symbol .rightParen, closing⟩])
      (.paren (opening.merge closing) e)
  | member (dot : Span) (field : Name) {ts : List Token} {k : Kind} {object : Expr} :
    Spelled (.expr .access) ts object → FieldName k field.text →
    Spelled (.expr .access) (ts ++ [⟨.symbol .dot, dot⟩, ⟨k, field.span⟩])
      (.member (object.span.merge field.span) object field)
  | index (opening closing : Span) {ts us : List Token} {object place : Expr} :
    Spelled (.expr .access) ts object → Spelled (.expr .conditional) us place →
    Spelled (.expr .access)
      (ts ++ ⟨.symbol .leftBracket, opening⟩ :: us ++ [⟨.symbol .rightBracket, closing⟩])
      (.index (object.span.merge closing) object place)
  | prefixed (start : Span) {k : Kind} {op : UnaryOp} {ts : List Token} {e : Expr} :
    PrefixOperator k op → Spelled (.expr .unary) ts e →
    Spelled (.expr .unary) (⟨k, start⟩ :: ts) (.unary (start.merge e.span) op e)
  | chained (place : Span) {r operand : Rank} {k : Kind} {node : Span → Expr → Expr → Expr}
    {ts us : List Token} {left right : Expr} :
    ChainOperator r k node → Tighter r operand →
    Spelled (.expr r) ts left → Spelled (.expr operand) us right →
    Spelled (.expr r) (ts ++ ⟨k, place⟩ :: us) (node (left.span.merge right.span) left right)
  | compared (place : Span) {k : Kind} {op : BinaryOp} {ts us : List Token} {left right : Expr} :
    ComparisonOperator k op → Spelled (.expr .sum) ts left → Spelled (.expr .sum) us right →
    Spelled (.expr .comparison) (ts ++ ⟨k, place⟩ :: us)
      (.binary (left.span.merge right.span) op left right)
  | conditional (question colon : Span) {ts us vs : List Token} {condition yes no : Expr} :
    Spelled (.expr .coalesce) ts condition → Spelled (.expr .conditional) us yes →
    Spelled (.expr .conditional) vs no →
    Spelled (.expr .conditional)
      (ts ++ ⟨.symbol .question, question⟩ :: us ++ ⟨.symbol .colon, colon⟩ :: vs)
      (.conditional (condition.span.merge no.span) condition yes no)
  | tighter {r operand : Rank} {ts : List Token} {e : Expr} :
    Tighter r operand → Spelled (.expr operand) ts e → Spelled (.expr r) ts e
  | noItems : Spelled .items [] []
  | lastItem {ts : List Token} {e : Expr} :
    Spelled (.expr .conditional) ts e → Spelled .items ts [e]
  | moreItems (comma : Span) {ts us : List Token} {e : Expr} {items : List Expr} :
    Spelled (.expr .conditional) ts e → Spelled .items us items →
    Spelled .items (ts ++ ⟨.symbol .comma, comma⟩ :: us) (e :: items)
  | entry (start colon : Span) {k : Kind} {key : String} {ts : List Token} {e : Expr} :
    EntryKey k key → Spelled (.expr .conditional) ts e →
    Spelled .entry (⟨k, start⟩ :: ⟨.symbol .colon, colon⟩ :: ts) (key, e)
  | noEntries : Spelled .entries [] []
  | lastEntry {ts : List Token} {entry : String × Expr} :
    Spelled .entry ts entry → Spelled .entries ts [entry]
  | moreEntries (comma : Span) {ts us : List Token} {entry : String × Expr}
    {entries : List (String × Expr)} :
    Spelled .entry ts entry → Spelled .entries us entries →
    Spelled .entries (ts ++ ⟨.symbol .comma, comma⟩ :: us) (entry :: entries)

/-- The kinds of the tokens are a phrase for the same tree. -/
theorem Spelled.phrase {n : Nonterminal} {ts : List Token} {t : n.Tree} (h : Spelled n ts t) :
    Phrase n (ts.map Token.kind) t := by
  induction h with
  | literal h => exact .literal h
  | identifier span name => exact .identifier span name
  | call function _ _ _ ih => simpa using Phrase.call _ function ih
  | array _ _ _ ih => simpa using Phrase.array _ ih
  | map _ _ _ ih => simpa using Phrase.map _ ih
  | paren _ _ _ ih => simpa using Phrase.paren _ ih
  | member _ field _ hfield ih => simpa using Phrase.member _ field ih hfield
  | index _ _ _ _ ihobject ihplace => simpa using Phrase.index _ ihobject ihplace
  | prefixed _ hop _ ih => exact .prefixed _ hop ih
  | chained _ hop hr _ _ ihleft ihright => simpa using Phrase.chained _ hop hr ihleft ihright
  | compared _ hop _ _ ihleft ihright => simpa using Phrase.compared _ hop ihleft ihright
  | conditional _ _ _ _ _ ihcondition ihyes ihno =>
    simpa using Phrase.conditional _ ihcondition ihyes ihno
  | tighter hr _ ih => exact .tighter hr ih
  | noItems => exact .noItems
  | lastItem _ ih => exact .lastItem ih
  | moreItems _ _ _ ih ihrest => simpa using Phrase.moreItems ih ihrest
  | entry _ _ hkey _ ih => exact .entry hkey ih
  | noEntries => exact .noEntries
  | lastEntry _ ih => exact .lastEntry ih
  | moreEntries _ _ _ ih ihrest => simpa using Phrase.moreEntries ih ihrest

end Grammar

end JsonTemplate
