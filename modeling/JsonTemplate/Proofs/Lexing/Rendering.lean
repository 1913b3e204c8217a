import JsonTemplate.Proofs.Decimal.Literals
import JsonTemplate.Proofs.Lexing.Scanning
import JsonTemplate.Proofs.Lexing.Separation

/-! Writing tokens. A token is written as it stands in messages, but for the characters of a string
that would end it or start an escape, and there are blanks between any two tokens. What is written
so is read as the same tokens. -/

namespace JsonTemplate

namespace Lexer

open Token (Kind)
open Source (place)

/-- The two kinds of quotes around a string. -/
inductive Quote where
  | single | double
  deriving DecidableEq, Repr

def Quote.char : Quote → Char
  | .single => '\''
  | .double => '"'

/-- A character inside a string. The quote and the backslash need a backslash in front. -/
def quotedChar (quote c : Char) : List Char := if c = '\\' ∨ c = quote then ['\\', c] else [c]

/-- A token as it can be written in an expression. -/
def spelling (quote : Quote) : Kind → List Char
  | .string s => quote.char :: (s.toList.flatMap (quotedChar quote.char) ++ [quote.char])
  | kind => kind.text.toList

/-- A letter or underscore, and letters, digits and underscores behind it. -/
def IsName (s : List Char) : Prop :=
  ∃ first more, s = first :: more ∧ isWordStart first ∧ ∀ c ∈ more, isWordChar c

/-- The tokens that are written here: no floats, no negative integers, and no names that are no
names. -/
def Writable : Kind → Prop
  | .int n => 0 ≤ n ∧ isInt64 n
  | .identifier name => IsName name.toList ∧ Keyword.ofText? name = none
  | .float _ | .eof => False
  | .string _ | .keyword _ | .symbol _ => True

/-- A token, the quotes around it if it is a string, and the blanks behind it if it is not the
last one. -/
structure Written where
  kind : Kind
  quote : Quote
  gap : List Char

def Written.text (w : Written) : List Char := spelling w.quote w.kind

def write : List Written → List Char
  | [] => []
  | [w] => w.text
  | w :: v :: more => w.text ++ w.gap ++ write (v :: more)

/-! ### Integers -/

theorem digitsValue_natText (n : Nat) : Decimal.digitsValue (Decimal.natText n) = n := by
  rw [Decimal.digitsValue, ← Nat.ofDigitChars_eq_foldl]
  exact Nat.ofDigitChars_ten_toDigits

theorem isDigit_of_mem_natText {n : Nat} {c : Char} (h : c ∈ Decimal.natText n) : c.isDigit :=
  Nat.isDigit_of_mem_toDigits (by decide) (by decide) h

theorem exists_natText (n : Nat) : ∃ first more, Decimal.natText n = first :: more :=
  List.exists_cons_of_ne_nil (List.ne_nil_of_length_pos Nat.length_toDigits_pos)

/-- A number is written with digits. -/
theorem isDigits_natText (n : Nat) : Decimal.IsDigits (Decimal.natText n) :=
  ⟨List.ne_nil_of_length_pos Nat.length_toDigits_pos, fun _ => isDigit_of_mem_natText⟩

/-- There is no underscore among digits. -/
theorem filter_digits {s : List Char} (h : ∀ c ∈ s, c.isDigit) : s.filter (· ≠ '_') = s := by
  rw [List.filter_eq_self]
  intro c hc
  have hdigit := h c hc
  rw [decide_eq_true_iff]
  rintro rfl
  cases hdigit

theorem isDigitOrMark_of_isDigit {c : Char} (h : c.isDigit) : isDigitOrMark c :=
  Bool.or_eq_true_iff.2 (.inl h)

/-- Digits are a token if their number has 64 bits with the sign. -/
theorem numberKind?_digits {digits : List Char} (h : Decimal.IsDigits digits) :
    numberKind? false digits = if isInt64 (Decimal.digitsValue digits) then
      some (.int (Decimal.digitsValue digits)) else none := by
  rw [numberKind?, if_neg Bool.false_ne_true, h.readInt?_eq]

/-! ### Words -/

/-- A name goes on up to a character that is in no name. -/
theorem IsName.lexeme {word : String} {rest : List Char} (h : IsName word.toList)
    (hrest : ∀ c, rest.head? = some c → ¬isWordChar c) :
    Lexeme word.toList (.ofWord word) rest := by
  obtain ⟨first, more, hword, hfirst, hmore⟩ := h
  have hlexeme := Lexeme.word hfirst hmore hrest
  rwa [← hword, String.ofList_toList] at hlexeme

theorem IsName.isWordChar {s : List Char} (h : IsName s) : ∀ c ∈ s, isWordChar c := by
  obtain ⟨first, more, rfl, hfirst, hmore⟩ := h
  exact List.forall_mem_cons.2 ⟨isWordChar_of_isWordStart hfirst, hmore⟩

/-! ### Tokens in front of a blank -/

section Ends
variable {rest : List Char} (hrest : ∀ c, rest.head? = some c → isSpace c)
include hrest

theorem numberParts_of_digits {digits : List Char} (hdigits : ∀ c ∈ digits, isDigitOrMark c) :
    NumberParts.of (digits ++ rest) = ⟨digits.length, 0, 0⟩ := by
  have hwhole : digits.takeWhile isDigitOrMark = digits := List.takeWhile_eq_self_iff.2 hdigits
  rw [numberParts_append hrest]
  simp only [NumberParts.of, hwhole, List.drop_length, fractionLength, powerLength, Nat.add_zero]

theorem lexeme_int {n : Int} (hn : 0 ≤ n) (hword : isInt64 n) :
    Lexeme (Decimal.intText n).toList (.int n) rest := by
  have hnat : (n.natAbs : Int) = n := Int.natAbs_of_nonneg hn
  have hdigits := isDigits_natText n.natAbs
  have hmarks := filter_digits hdigits.isDigit
  have hparts := numberParts_of_digits hrest fun c hc =>
    isDigitOrMark_of_isDigit (hdigits.isDigit c hc)
  have hkind : numberKind? false (Decimal.natText n.natAbs) = some (.int n) := by
    rw [numberKind?_digits hdigits, digitsValue_natText, hnat, if_pos hword]
  rw [Decimal.intText, String.toList_ofList, if_neg (Int.not_lt.2 hn)]
  obtain ⟨first, more, htext, hfirst⟩ := hdigits.exists_cons
  rw [htext] at hmarks hparts hkind ⊢
  exact .number hfirst hparts rfl ((congrArg _ hmarks).trans hkind)

theorem lexeme_word {word : String} (h : IsName word.toList) :
    Lexeme word.toList (.ofWord word) rest :=
  h.lexeme fun c hc => not_isWordChar_of_isSpace (hrest c hc)

theorem lexeme_symbol (symbol : Symbol) : Lexeme symbol.text.toList (.symbol symbol) rest := by
  rw [Symbol.text, String.toList_ofList]
  apply Lexeme.symbol
  rw [at?_append hrest]
  cases symbol <;> rfl

omit hrest in
theorem stringText_quotedChar (quote : Quote) (s : List Char) :
    StringText quote.char (s.flatMap (quotedChar quote.char)) s := by
  induction s with
  | nil => exact .nil
  | cons c more ih =>
    rw [List.flatMap_cons, quotedChar]
    split
    · next h =>
      have hescape : unescape? c = some c := by
        rcases h with rfl | rfl
        · rfl
        · cases quote <;> rfl
      exact .escaped hescape ih
    · next h => exact .plain (fun hc => h (.inl hc)) (fun hc => h (.inr hc)) ih

theorem lexeme_spelling {kind : Kind} (h : Writable kind) (quote : Quote) :
    Lexeme (spelling quote kind) kind rest := by
  cases kind with
  | int n => exact lexeme_int hrest h.1 h.2
  | float x => cases h
  | string s =>
    have hquote : IsQuote quote.char := by cases quote <;> simp [IsQuote, Quote.char]
    have hstring := @Lexeme.string _ _ _ rest hquote (stringText_quotedChar quote s.toList)
    rwa [String.ofList_toList] at hstring
  | identifier name =>
    have hword := lexeme_word hrest h.1
    rwa [Kind.ofWord, h.2] at hword
  | keyword k =>
    have hname : IsName k.text.toList := by
      cases k <;> exact ⟨_, _, rfl, by decide, List.all_eq_true.1 (by decide)⟩
    have hword := lexeme_word hrest hname
    rwa [Kind.ofWord, Keyword.ofText?_text] at hword
  | symbol symbol => exact lexeme_symbol hrest symbol
  | eof => cases h

end Ends

/-! ### Lists of tokens -/

/-- The blanks between two tokens. -/
def IsGap (s : List Char) : Prop := s ≠ [] ∧ ∀ c ∈ s, isSpace c

theorem IsGap.head? {gap rest : List Char} (h : IsGap gap) :
    ∀ c, (gap ++ rest).head? = some c → isSpace c := by
  obtain ⟨hne, hspaces⟩ := h
  obtain ⟨first, more, rfl⟩ := List.exists_cons_of_ne_nil hne
  rintro c ⟨⟩
  exact hspaces _ List.mem_cons_self

theorem laid_write {ws : List Written} (hkinds : ∀ w ∈ ws, Writable w.kind)
    (hgaps : ∀ w ∈ ws.dropLast, IsGap w.gap) {before gap : List Char}
    (hgap : ∀ c ∈ gap, isSpace c) :
    ∃ tokens, Laid before (gap ++ write ws) tokens ∧
      tokens.map Token.kind = ws.map Written.kind ++ [.eof] := by
  have hend : ∀ c, ([] : List Char).head? = some c → isSpace c := nofun
  induction ws generalizing before gap with
  | nil =>
    rw [write, List.append_nil]
    exact ⟨_, .done hgap, rfl⟩
  | cons w more ih =>
    obtain ⟨hkind, hkinds⟩ := List.forall_mem_cons.1 hkinds
    cases more with
    | nil =>
      have hlaid := Laid.token hgap (lexeme_spelling hend hkind w.quote)
        (.done nofun : Laid (before ++ gap ++ w.text) [] _)
      rw [List.append_nil] at hlaid
      exact ⟨_, hlaid, rfl⟩
    | cons v more =>
      rw [List.dropLast_cons_cons] at hgaps
      obtain ⟨hbehind, hgaps⟩ := List.forall_mem_cons.1 hgaps
      obtain ⟨tokens, hlaid, htokens⟩ := @ih hkinds hgaps (before ++ gap ++ w.text) _ hbehind.2
      have hall := Laid.token hgap (lexeme_spelling hbehind.head? hkind w.quote) hlaid
      rw [List.append_assoc, ← List.append_assoc (spelling w.quote w.kind)] at hall
      exact ⟨_, hall, congrArg (w.kind :: ·) htokens⟩

/-- Reading undoes writing, whatever the quotes and the blanks are. -/
theorem lex_write {ws : List Written} (hkinds : ∀ w ∈ ws, Writable w.kind)
    (hgaps : ∀ w ∈ ws.dropLast, IsGap w.gap) :
    (lex (String.ofList (write ws))).1.map Token.kind = ws.map Written.kind ++ [.eof] ∧
      (lex (String.ofList (write ws))).2 = [] := by
  obtain ⟨tokens, hlaid, htokens⟩ := @laid_write ws hkinds hgaps [] [] nofun
  rw [List.nil_append] at hlaid
  rw [hlaid.lex_eq]
  exact ⟨htokens, rfl⟩

/-- A string with a quote and a backslash in it, between a name and an integer. -/
theorem lex_write_string :
    let ws : List Written := [⟨.identifier "a_1", .single, "\n\t".toList⟩,
      ⟨.symbol .coalesce, .single, " ".toList⟩, ⟨.string "it's \\ ∞", .single, "\r\n".toList⟩,
      ⟨.int 7, .double, []⟩]
    String.ofList (write ws) = "a_1\n\t?? 'it\\'s \\\\ ∞'\r\n7" ∧
      (∀ w ∈ ws, Writable w.kind) ∧ (∀ w ∈ ws.dropLast, IsGap w.gap) ∧
      (lex (String.ofList (write ws))).1.map Token.kind = ws.map Written.kind ++ [.eof] ∧
      (lex (String.ofList (write ws))).2 = [] := by
  intro ws
  have hkinds : ∀ w ∈ ws, Writable w.kind := by
    simp only [ws, List.forall_mem_cons]
    have hname : IsName "a_1".toList := ⟨_, _, rfl, by decide, List.all_eq_true.1 (by decide)⟩
    exact ⟨⟨hname, by decide⟩, trivial, trivial, ⟨by decide, by decide⟩, nofun⟩
  have hgaps : ∀ w ∈ ws.dropLast, IsGap w.gap := by
    simp only [ws, List.dropLast_cons_cons, List.forall_mem_cons]
    exact ⟨⟨nofun, List.all_eq_true.1 (by decide)⟩, ⟨nofun, List.all_eq_true.1 (by decide)⟩,
      ⟨nofun, List.all_eq_true.1 (by decide)⟩, nofun⟩
  exact ⟨by decide +kernel, hkinds, hgaps, lex_write hkinds hgaps⟩

end Lexer

end JsonTemplate
