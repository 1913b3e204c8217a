/-! Places in a text. Lines and columns count from 1, columns in characters. A span goes from
its first character to its last one. -/

namespace JsonTemplate

/-- A place in a text. Its line and its column are taken to stay below 2 ^ 32. -/
structure Position where
  line : Nat
  column : Nat
  deriving DecidableEq, Repr, Inhabited

namespace Position

/-- Earlier in the text: on an earlier line, or before on the same line. -/
instance : LT Position := ⟨fun a b => a.line < b.line ∨ a.line = b.line ∧ a.column < b.column⟩

instance : LE Position := ⟨fun a b => ¬ b < a⟩

theorem lt_def (a b : Position) :
    a < b ↔ a.line < b.line ∨ a.line = b.line ∧ a.column < b.column := Iff.rfl

theorem le_def (a b : Position) :
    a ≤ b ↔ a.line < b.line ∨ a.line = b.line ∧ a.column ≤ b.column := by
  show ¬ (b.line < a.line ∨ b.line = a.line ∧ b.column < a.column) ↔ _
  omega

instance (a b : Position) : Decidable (a < b) := decidable_of_iff _ (lt_def a b).symm

instance (a b : Position) : Decidable (a ≤ b) := inferInstanceAs (Decidable (¬ b < a))

/-- The earlier of two places. -/
instance : Min Position := ⟨fun a b => if b < a then b else a⟩

/-- The later of two places. -/
instance : Max Position := ⟨fun a b => if a < b then b else a⟩

theorem min_def (a b : Position) : min a b = if b < a then b else a := rfl

theorem max_def (a b : Position) : max a b = if a < b then b else a := rfl

/-- The place of the first character. -/
def first : Position := ⟨1, 1⟩

/-- The place after a character that stands at `p`. -/
def advance (p : Position) (c : Char) : Position :=
  if c = '\n' then ⟨p.line + 1, 1⟩ else ⟨p.line, p.column + 1⟩

end Position

structure Span where
  start : Position
  stop : Position
  deriving DecidableEq, Repr, Inhabited

namespace Span

/-- The empty span at a place. -/
def point (p : Position) : Span := ⟨p, p⟩

/-- The smallest span around two others. -/
def merge (a b : Span) : Span := ⟨min a.start b.start, max a.stop b.stop⟩

/-- A span is written as the place where it starts. -/
def text (s : Span) : String := s!"{s.start.line}:{s.start.column}"

theorem merge_assoc (a b c : Span) : (a.merge b).merge c = a.merge (b.merge c) := by
  simp only [merge, Position.min_def, Position.max_def, Position.lt_def, Span.mk.injEq]
  constructor <;> (repeat' split) <;> first | rfl | omega

end Span

end JsonTemplate
