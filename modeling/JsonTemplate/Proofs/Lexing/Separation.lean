import JsonTemplate.Proofs.Lexing.Lexemes

/-! Reading a text with a blank behind it. Words, numbers and symbols end there at the latest, and
a string has ended before, or else it is not closed in the text itself. So what is read, with its
faults, is the same as without the blank and all that is behind it. -/

namespace JsonTemplate

/-- No longer text is found at the start if a text goes on with a character that is not in it. -/
theorem prefix_append_of_stop {l s behind : List Char}
    (hstop : ∀ c, behind.head? = some c → c ∉ l) : l <+: s ++ behind ↔ l <+: s := by
  refine ⟨fun h => ?_, fun h => h.trans (List.prefix_append _ _)⟩
  rcases Nat.le_total l.length s.length with hle | hle
  · exact List.prefix_of_prefix_length_le h (List.prefix_append _ _) hle
  · obtain ⟨more, rfl⟩ := List.prefix_of_prefix_length_le (List.prefix_append s behind) h hle
    rw [List.prefix_append_right_inj] at h
    cases more with
    | nil => exact ⟨[], by rw [List.append_nil, List.append_nil]⟩
    | cons c more =>
      obtain ⟨rest, rfl⟩ := h
      exact absurd (List.mem_append_right _ List.mem_cons_self) (hstop c rfl)

namespace Lexer

variable {s behind : List Char} {n : Nat} {c : Cursor} {first : Char} {more : List Char}

/-! ### More text behind -/

def Cursor.append (c : Cursor) (behind : List Char) : Cursor := ⟨c.rest ++ behind, c.position⟩

def StringBody.append (b : StringBody) (behind : List Char) : StringBody :=
  ⟨b.text, b.faults, b.next.append behind⟩

def Reading.append (r : Reading) (behind : List Char) : Reading :=
  ⟨r.kind, r.faults, r.next.append behind⟩

namespace Cursor

theorem append_skip (h : n ≤ c.rest.length) (behind : List Char) :
    (c.append behind).skip n = (c.skip n).append behind := by
  simp only [skip, append, List.drop_append_of_le_length h, List.take_append_of_le_length h]

theorem append_skipSpaces (h : c.skipSpaces.rest = first :: more) (behind : List Char) :
    (c.append behind).skipSpaces = c.skipSpaces.append behind := by
  have hfirst : ∀ d, (c.rest.dropWhile isSpace ++ behind).head? = some d → ¬isSpace d := by
    change c.rest.dropWhile isSpace = _ at h
    intro d hd
    apply head?_dropWhile (s := c.rest)
    rwa [h] at hd ⊢
  obtain ⟨htake, hdrop⟩ := runs_append hfirst
  simp only [skipSpaces, append, htake, hdrop]

end Cursor

/-- A string that is closed ends where it does. -/
theorem readString_append {quote : Char} {start p : Position} (hquote : quote ≠ '\\')
    (hclosed : ∀ f ∈ (readString quote start p s).faults, f.fault.code ≠ .unterminatedString) :
    readString quote start p (s ++ behind) = (readString quote start p s).append behind := by
  fun_induction readString quote start p s with
  | case1 => exact absurd rfl (hclosed _ List.mem_cons_self)
  | case2 => exact absurd rfl (hclosed _ List.mem_cons_self)
  | case3 p c rest q e he ih =>
    rw [List.cons_append, List.cons_append, readString_escaped he, ih hclosed]
    rfl
  | case4 p c rest q he ih =>
    have hrest := (List.forall_mem_append.1 hclosed).2
    rw [List.cons_append, List.cons_append, readString_unknown he, ih hrest]
    rfl
  | case5 p rest hlast hescape =>
    rw [List.cons_append, readString_quote hquote]
    rfl
  | case6 p c rest hlast hescape hne ih =>
    rw [List.cons_append, readString_plain (ne_backslash hlast hescape) hne, ih hclosed]
    rfl

/-! ### Blanks behind -/

section Blank
variable (hblank : ∀ c, behind.head? = some c → isSpace c)
include hblank

theorem numberParts_append : NumberParts.of (s ++ behind) = NumberParts.of s := by
  have hle : (NumberParts.of (s ++ behind)).length ≤ s.length := by
    by_contra hlt
    rw [Nat.not_le] at hlt
    cases behind with
    | nil =>
      have hlength := NumberParts.length_le (s ++ [])
      rw [List.append_nil] at hlength hlt
      omega
    | cons c rest =>
      -- A number that is longer goes past the blank.
      refine blank_not_mem_number (isBlank_of_isSpace (hblank c rfl)) (s ++ c :: rest) ?_
      obtain ⟨n, hn⟩ := Nat.exists_eq_add_of_lt hlt
      rw [hn, Nat.add_assoc, List.take_length_add_append, List.take_succ_cons]
      exact List.mem_append_right _ List.mem_cons_self
  rw [← NumberParts.of_take hle, List.take_left]

theorem at?_append : Symbol.at? (s ++ behind) = Symbol.at? s := by
  unfold Symbol.at?
  congr 1
  funext symbol
  rw [Bool.eq_iff_iff, List.isPrefixOf_iff_prefix, List.isPrefixOf_iff_prefix]
  exact prefix_append_of_stop fun c hc hmem =>
    not_isBlank_of_mem_chars hmem (isBlank_of_isSpace (hblank c hc))

theorem readNumber_append : readNumber (c.append behind) = (readNumber c).append behind := by
  have hle := NumberParts.length_le c.rest
  have hskip := Cursor.append_skip hle behind
  have htake : (c.rest ++ behind).take (NumberParts.of c.rest).length =
      c.rest.take (NumberParts.of c.rest).length := List.take_append_of_le_length hle
  unfold readNumber
  simp only [show (c.append behind).rest = c.rest ++ behind from rfl, numberParts_append hblank,
    htake, hskip]
  split <;> rfl

theorem readWord_append : readWord (c.append behind) = (readWord c).append behind := by
  have hstop : ∀ d, (c.rest.dropWhile isWordChar ++ behind).head? = some d → ¬isWordChar d := by
    intro d hd
    rw [List.head?_append, Option.or_eq_some_iff] at hd
    rcases hd with hword | ⟨-, hspace⟩
    · exact head?_dropWhile hword
    · exact not_isWordChar_of_isSpace (hblank d hspace)
  have hword : (c.append behind).rest.takeWhile isWordChar = c.rest.takeWhile isWordChar :=
    (runs_append hstop).1
  have hle : (c.rest.takeWhile isWordChar).length ≤ c.rest.length :=
    (List.takeWhile_prefix _).length_le
  rw [readWord, readWord, hword]
  exact congrArg _ (Cursor.append_skip hle behind)

/-- Reading does not see what is behind a blank, unless a string is still open there. -/
theorem read_append (hc : c.rest = first :: more)
    (hclosed : ∀ f ∈ (read first c).faults, f.fault.code ≠ .unterminatedString) :
    read first (c.append behind) = (read first c).append behind := by
  rcases start_cases first with hquote | hdigit | hword | ⟨hquote, hother⟩
  · have hrest : (c.append behind).rest.drop 1 = c.rest.drop 1 ++ behind := by
      change (c.rest ++ behind).drop 1 = _
      rw [hc]
      rfl
    rw [read_quote hquote] at hclosed
    rw [read_quote hquote, read_quote hquote, hrest]
    simp only [show (c.append behind).position = c.position from rfl,
      readString_append hquote.ne_backslash hclosed]
    rfl
  · rw [read_digit hdigit, read_digit hdigit]
    exact readNumber_append hblank
  · rw [read_word hword, read_word hword]
    exact readWord_append hblank
  · have hat : Symbol.at? (c.append behind).rest = Symbol.at? c.rest := at?_append hblank
    rw [read_other hquote hother, read_other hquote hother, hat]
    split
    · next symbol hsymbol =>
      rw [Cursor.append_skip (Symbol.prefix_of_at? hsymbol).length_le]
      rfl
    · have hone : 1 ≤ c.rest.length := by
        rw [hc]
        exact Nat.le_add_left 1 _
      rw [Cursor.append_skip hone]
      rfl

end Blank

end Lexer

end JsonTemplate
