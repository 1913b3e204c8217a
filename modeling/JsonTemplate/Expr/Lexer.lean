import JsonTemplate.Decimal.Reader
import JsonTemplate.Expr.Fault
import JsonTemplate.Value.Number

/-! Reading tokens. Blanks separate tokens and mean nothing else. A faulty character is left
out, a faulty literal is read all the same, and reading goes on behind it until the faults
fill a report. -/

namespace JsonTemplate.Lexer

/-- The characters between tokens. -/
def isSpace (c : Char) : Bool :=
  c == ' ' || c == '\t' || c == '\n' || c == '\x0c' || c == '\r'

def isWordStart (c : Char) : Bool := c.isAlpha || c == '_'

def isWordChar (c : Char) : Bool := c.isAlphanum || c == '_'

/-- A digit, or an underscore between digits. -/
def isDigitOrMark (c : Char) : Bool := c.isDigit || c == '_'

/-- The place after a stretch of text. -/
def after (p : Position) (text : List Char) : Position := text.foldl Position.advance p

/-- The span of a stretch of text between a place and the place right after it. -/
def spanTo (start stop : Position) : Span := ⟨start, ⟨stop.line, max 1 (stop.column - 1)⟩⟩

/-- Text that is left to read, and its place. -/
structure Cursor where
  rest : List Char
  position : Position
  deriving DecidableEq, Repr

namespace Cursor

/-- Goes past the first `n` characters. -/
def skip (n : Nat) (c : Cursor) : Cursor := ⟨c.rest.drop n, after c.position (c.rest.take n)⟩

/-- Goes past the blanks. -/
def skipSpaces (c : Cursor) : Cursor :=
  ⟨c.rest.dropWhile isSpace, after c.position (c.rest.takeWhile isSpace)⟩

end Cursor

/-! ### Numbers -/

/-- The length of a fraction, if a digit follows the point. -/
def fractionLength : List Char → Nat
  | '.' :: d :: rest => if d.isDigit then 2 + (rest.takeWhile isDigitOrMark).length else 0
  | _ => 0

/-- The length of a power of ten, if a digit follows the mark and its sign. -/
def powerLength : List Char → Nat
  | mark :: sign :: rest =>
    if mark = 'e' ∨ mark = 'E' then
      if sign = '+' ∨ sign = '-' then
        let digits := (rest.takeWhile Char.isDigit).length
        if digits = 0 then 0 else 2 + digits
      else
        let digits := ((sign :: rest).takeWhile Char.isDigit).length
        if digits = 0 then 0 else 1 + digits
    else 0
  | _ => 0

/-- The lengths of the parts of a number literal: the digits before the point, the fraction and
the power of ten. -/
structure NumberParts where
  whole : Nat
  fraction : Nat
  power : Nat
  deriving DecidableEq, Repr

namespace NumberParts

def of (s : List Char) : NumberParts :=
  let whole := (s.takeWhile isDigitOrMark).length
  let fraction := fractionLength (s.drop whole)
  ⟨whole, fraction, powerLength (s.drop (whole + fraction))⟩

def length (n : NumberParts) : Nat := n.whole + n.fraction + n.power

/-- Only a literal with a fraction or a power of ten is a float. -/
def isFloat (n : NumberParts) : Bool := 0 < n.fraction + n.power

end NumberParts

/-- The token of a number literal without underscores, if its number can be held. -/
def numberKind? (isFloat : Bool) (literal : List Char) : Option Token.Kind :=
  if isFloat then (Decimal.readFloat? literal).map .float
  else match Decimal.readInt? literal with
    | some n => if isInt64 n then some (.int n) else none
    | none => none

/-! ### What starts at a character that is no blank -/

/-- What was read: a token unless it was a faulty character, the faults found, and the text
behind it. -/
structure Reading where
  kind : Option Token.Kind
  faults : List LocatedFault
  next : Cursor
  deriving DecidableEq, Repr

/-- A number that is too large stands as zero. -/
def readNumber (c : Cursor) : Reading :=
  let parts := NumberParts.of c.rest
  let next := c.skip parts.length
  let literal := (c.rest.take parts.length).filter (· ≠ '_')
  match numberKind? parts.isFloat literal with
  | some kind => ⟨some kind, [], next⟩
  | none =>
    let fault := .invalidNumber (String.ofList literal)
    ⟨some (.int 0), [⟨fault, spanTo c.position next.position⟩], next⟩

def readWord (c : Cursor) : Reading :=
  let word := c.rest.takeWhile isWordChar
  ⟨some (.ofWord (String.ofList word)), [], c.skip word.length⟩

/-- The character that an escape stands for. -/
def unescape? : Char → Option Char
  | '"' => some '"'
  | '\'' => some '\''
  | '\\' => some '\\'
  | 'n' => some '\n'
  | 't' => some '\t'
  | 'r' => some '\r'
  | _ => none

/-- The inside of a string, the faults in it, and what is behind its closing quote. -/
structure StringBody where
  text : List Char
  faults : List LocatedFault
  next : Cursor
  deriving DecidableEq, Repr

/-- Puts a character and the faults of its spelling in front. -/
def StringBody.push (b : StringBody) (c : Char) (faults : List LocatedFault) : StringBody :=
  ⟨c :: b.text, faults ++ b.faults, b.next⟩

/-- Reads a string that starts at `start`, after its opening quote. An unknown escape stands for
its character. -/
def readString (quote : Char) (start : Position) : Position → List Char → StringBody
  | p, [] => ⟨[], [⟨.unterminatedString quote, spanTo start p⟩], ⟨[], p⟩⟩
  | p, ['\\'] =>
    let q := p.advance '\\'
    ⟨[], [⟨.unfinishedEscape, spanTo p q⟩, ⟨.unterminatedString quote, spanTo start q⟩], ⟨[], q⟩⟩
  | p, '\\' :: c :: rest =>
    let q := (p.advance '\\').advance c
    match unescape? c with
    | some e => (readString quote start q rest).push e []
    | none => (readString quote start q rest).push c [⟨.invalidEscape c, spanTo p q⟩]
  | p, c :: rest =>
    if c = quote then ⟨[], [], ⟨rest, p.advance c⟩⟩
    else (readString quote start (p.advance c) rest).push c []

/-- Reads what starts with the character `first`. -/
def read (first : Char) (c : Cursor) : Reading :=
  if first = '\'' ∨ first = '"' then
    let body := readString first c.position (c.position.advance first) (c.rest.drop 1)
    ⟨some (.string (String.ofList body.text)), body.faults, body.next⟩
  else if first.isDigit then readNumber c
  else if isWordStart first then readWord c
  else match Symbol.at? c.rest with
    | some symbol => ⟨some (.symbol symbol), [], c.skip symbol.chars.length⟩
    | none =>
      let next := c.skip 1
      ⟨none, [⟨.unexpectedCharacter first, spanTo c.position next.position⟩], next⟩

/-! ### Reading consumes text -/

theorem length_readString_le (quote : Char) (start p : Position) (s : List Char) :
    (readString quote start p s).next.rest.length ≤ s.length := by
  fun_induction readString quote start p s with
  | case1 => simp
  | case2 => simp
  | case3 p c rest q e he ih => simp only [StringBody.push, List.length_cons]; omega
  | case4 p c rest q he ih => simp only [StringBody.push, List.length_cons]; omega
  | case5 => simp
  | case6 p c rest h₁ h₂ ih => simp only [StringBody.push, List.length_cons]; omega

theorem length_skip (n : Nat) (c : Cursor) : (c.skip n).rest.length = c.rest.length - n := by
  simp [Cursor.skip]

theorem length_skip_lt {n : Nat} {c : Cursor} (hn : 0 < n) (hc : c.rest ≠ []) :
    (c.skip n).rest.length < c.rest.length := by
  have := List.length_pos_iff.2 hc
  rw [length_skip]
  omega

theorem numberParts_length_pos {s : List Char} {d : Char} {rest : List Char} (hs : s = d :: rest)
    (h : d.isDigit = true) : 0 < (NumberParts.of s).length := by
  subst hs
  simp only [NumberParts.length, NumberParts.of, isDigitOrMark, List.takeWhile_cons, h,
    Bool.true_or, if_true, List.length_cons]
  omega

theorem next_readNumber (c : Cursor) :
    (readNumber c).next = c.skip (NumberParts.of c.rest).length := by
  unfold readNumber
  simp only
  split <;> rfl

theorem isWordChar_of_isWordStart {c : Char} (h : isWordStart c = true) : isWordChar c = true := by
  simp only [isWordStart, isWordChar, Char.isAlphanum, Bool.or_eq_true] at h ⊢
  exact h.imp_left .inl

/-- Reading always gets past the first character. -/
theorem length_read_lt {first : Char} {c : Cursor} {rest : List Char} (h : c.rest = first :: rest) :
    (read first c).next.rest.length < c.rest.length := by
  have hc : c.rest ≠ [] := by simp [h]
  unfold read
  split
  · have := length_readString_le first c.position (c.position.advance first) (c.rest.drop 1)
    simp only [h, List.drop_succ_cons, List.drop_zero, List.length_cons] at this ⊢
    omega
  · split
    · next hd =>
      rw [next_readNumber]
      exact length_skip_lt (numberParts_length_pos h hd) hc
    · split
      · next hw =>
        refine length_skip_lt ?_ hc
        simp [h, isWordChar_of_isWordStart hw]
      · split
        · next symbol _ => exact length_skip_lt (List.length_pos_iff.2 symbol.chars_ne_nil) hc
        · exact length_skip_lt Nat.one_pos hc

theorem length_skipSpaces_le (c : Cursor) : c.skipSpaces.rest.length ≤ c.rest.length :=
  (List.dropWhile_suffix _).length_le

/-! ### Whole texts -/

/-- The end of a text as a token. -/
def endToken (p : Position) : Token := ⟨.eof, .point p⟩

/-- The tokens and faults of the text at a cursor, after `found` faults before it. Reading ends
with the text or with a full report. -/
def scan (found : Nat) (start : Cursor) : List Token × List LocatedFault :=
  let c := start.skipSpaces
  match h : c.rest with
  | [] => ([endToken c.position], [])
  | first :: _ =>
    if Report.capacity ≤ found then ([endToken c.position], [])
    else
      let r := read first c
      have : r.next.rest.length < start.rest.length :=
        Nat.lt_of_lt_of_le (length_read_lt h) (length_skipSpaces_le start)
      let found := found + r.faults.length
      match r.kind with
      | none =>
        let (tokens, faults) := scan found r.next
        (tokens, r.faults ++ faults)
      | some kind =>
        let token : Token := ⟨kind, spanTo c.position r.next.position⟩
        if Report.capacity ≤ found then ([token, endToken r.next.position], r.faults)
        else
          let (tokens, faults) := scan found r.next
          (token :: tokens, r.faults ++ faults)
  termination_by start.rest.length

/-- The tokens of an expression, the end of its text last, and the faults found. -/
def lex (source : String) : List Token × List LocatedFault :=
  scan 0 ⟨source.toList, Position.first⟩

end JsonTemplate.Lexer
