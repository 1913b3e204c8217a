import JsonTemplate.Proofs.Lexing.Bounds

/-! Reading a text that does not start at its first place. All places are those of the text alone,
moved to where it starts: the columns of its first line count on from there, those of its other
lines do not change. -/

namespace JsonTemplate

namespace Position

/-- A place of a text when the text starts at `p`. -/
def movedTo (p q : Position) : Position :=
  ⟨p.line + q.line - 1, if q.line = 1 then p.column + q.column - 1 else q.column⟩

/-- Lines and columns count from 1. -/
structure Counted (p : Position) : Prop where
  line : 1 ≤ p.line
  column : 1 ≤ p.column

theorem Counted.advance {p : Position} (h : p.Counted) (c : Char) : (p.advance c).Counted := by
  unfold Position.advance
  split
  · exact ⟨Nat.le_add_left 1 _, Nat.le_refl 1⟩
  · exact ⟨h.line, Nat.le_add_left 1 _⟩

theorem counted_place (before : List Char) : (Source.place before).Counted :=
  ⟨Nat.le_add_right 1 _, Nat.le_add_right 1 _⟩

theorem movedTo_first (p : Position) : p.movedTo first = p := rfl

end Position

def Span.movedTo (p : Position) (s : Span) : Span := ⟨p.movedTo s.start, p.movedTo s.stop⟩

def Token.movedTo (p : Position) (t : Token) : Token := ⟨t.kind, t.span.movedTo p⟩

def LocatedFault.movedTo (p : Position) (f : LocatedFault) : LocatedFault :=
  ⟨f.fault, f.span.movedTo p⟩

namespace Lexer

variable {p q start : Position} {c : Cursor} {first : Char} {more : List Char}

def Cursor.movedTo (p : Position) (c : Cursor) : Cursor := ⟨c.rest, p.movedTo c.position⟩

def StringBody.movedTo (p : Position) (b : StringBody) : StringBody :=
  ⟨b.text, b.faults.map (·.movedTo p), b.next.movedTo p⟩

def Reading.movedTo (p : Position) (r : Reading) : Reading :=
  ⟨r.kind, r.faults.map (·.movedTo p), r.next.movedTo p⟩

/-! ### Places and spans -/

theorem movedTo_advance (hp : p.Counted) (hq : q.Counted) (c : Char) :
    p.movedTo (q.advance c) = (p.movedTo q).advance c := by
  have hpcolumn := hp.column
  have hqline := hq.line
  by_cases hc : c = '\n'
  · have hlater : q.line + 1 ≠ 1 := by omega
    rw [Position.advance, if_pos hc, Position.advance, if_pos hc]
    simp only [Position.movedTo, if_neg hlater, Position.mk.injEq, and_true]
    omega
  · rw [Position.advance, if_neg hc, Position.advance, if_neg hc]
    simp only [Position.movedTo, Position.mk.injEq, true_and]
    split <;> omega

theorem movedTo_after (hp : p.Counted) (hq : q.Counted) (text : List Char) :
    p.movedTo (after q text) = after (p.movedTo q) text := by
  induction text generalizing q with
  | nil => rfl
  | cons c rest ih =>
    have hstep := ih (hq.advance c)
    rwa [movedTo_advance hp hq] at hstep

/-- A place in the second of two texts. -/
theorem movedTo_place (before text : List Char) :
    (Source.place before).movedTo (Source.place text) = Source.place (before ++ text) := by
  have htext : Source.place text = after Position.first text := (Source.after_place [] text).symm
  have hfirst : Position.first.Counted := Position.counted_place []
  rw [htext, movedTo_after (Position.counted_place before) hfirst, Position.movedTo_first,
    Source.after_place]

theorem lt_after (q : Position) {text : List Char} (h : text ≠ []) : q < after q text := by
  induction text generalizing q with
  | nil => exact absurd rfl h
  | cons c rest ih =>
    have hfirst := Position.lt_advance q c
    cases rest with
    | nil => exact hfirst
    | cons => exact Position.lt_trans hfirst (ih _ (List.cons_ne_nil _ _))

/-- The end of a span is the column in front of a place, which is on the line of the start only if
there is a column between. -/
theorem movedTo_spanTo (hp : p.Counted) (hstart : start.Counted) (h : start < q) :
    (spanTo start q).movedTo p = spanTo (p.movedTo start) (p.movedTo q) := by
  have hpcolumn := hp.column
  have hsline := hstart.line
  have hscolumn := hstart.column
  rw [Position.lt_def] at h
  rw [spanTo, spanTo, Span.movedTo, Span.mk.injEq]
  refine ⟨rfl, ?_⟩
  simp only
  simp only [Position.movedTo, Position.mk.injEq, true_and]
  split <;> omega

/-! ### Reading -/

namespace Cursor

theorem StandsIn.counted {source : List Char} (h : c.StandsIn source) : c.position.Counted := by
  obtain ⟨before, -, hp⟩ := h
  rw [hp]
  exact Position.counted_place before

theorem movedTo_skip (hp : p.Counted) (hc : c.position.Counted) (n : Nat) :
    (c.skip n).movedTo p = (c.movedTo p).skip n := by
  simp only [skip, movedTo, movedTo_after hp hc]

theorem movedTo_skipSpaces (hp : p.Counted) (hc : c.position.Counted) :
    c.skipSpaces.movedTo p = (c.movedTo p).skipSpaces := by
  simp only [skipSpaces, movedTo, movedTo_after hp hc]

theorem movedTo_spanTo_skip (hp : p.Counted) (hc : c.position.Counted) {n : Nat} (hn : 0 < n)
    (hrest : c.rest ≠ []) :
    (spanTo c.position (c.skip n).position).movedTo p =
      spanTo (c.movedTo p).position ((c.movedTo p).skip n).position := by
  have htext : c.rest.take n ≠ [] := by
    rw [Ne, List.take_eq_nil_iff, not_or]
    exact ⟨Nat.ne_of_gt hn, hrest⟩
  have hlt : c.position < (c.skip n).position := lt_after _ htext
  rw [movedTo_spanTo hp hc hlt, ← movedTo_skip hp hc]
  rfl

end Cursor

theorem StringBody.movedTo_push (b : StringBody) (c : Char) (faults : List LocatedFault) :
    (b.push c faults).movedTo p = (b.movedTo p).push c (faults.map (·.movedTo p)) := by
  simp only [StringBody.movedTo, StringBody.push, List.map_append]

theorem movedTo_readString (hp : p.Counted) (hstart : start.Counted) (hq : q.Counted)
    (h : start < q) (quote : Char) (s : List Char) :
    (readString quote start q s).movedTo p =
      readString quote (p.movedTo start) (p.movedTo q) s := by
  have hforward {q : Position} (h : start < q) (c : Char) : start < q.advance c :=
    Position.lt_trans h (Position.lt_advance q c)
  fun_induction readString quote start q s with
  | case1 q =>
    simp only [readString, StringBody.movedTo, Cursor.movedTo, List.map_cons, List.map_nil,
      LocatedFault.movedTo, movedTo_spanTo hp hstart h]
  | case2 q next =>
    simp only [readString, StringBody.movedTo, Cursor.movedTo, List.map_cons, List.map_nil,
      LocatedFault.movedTo, movedTo_spanTo hp hstart (hforward h _), next,
      movedTo_spanTo hp hq (Position.lt_advance q _), movedTo_advance hp hq]
  | case3 q c rest next e he ih =>
    have hnext := hq.advance '\\'
    rw [StringBody.movedTo_push, readString_escaped he, ← movedTo_advance hp hq,
      ← movedTo_advance hp hnext, ih (hnext.advance c) (hforward (hforward h _) c), List.map_nil]
  | case4 q c rest next he ih =>
    have hnext := hq.advance '\\'
    have hspan := movedTo_spanTo hp hq (Position.lt_trans (Position.lt_advance q '\\')
      (Position.lt_advance (q.advance '\\') c))
    rw [StringBody.movedTo_push, readString_unknown he, ← movedTo_advance hp hq,
      ← movedTo_advance hp hnext, ih (hnext.advance c) (hforward (hforward h _) c), ← hspan]
    rfl
  | case5 q rest hlast hescape =>
    rw [readString_quote (ne_backslash hlast hescape), ← movedTo_advance hp hq]
    rfl
  | case6 q c rest hlast hescape hquote ih =>
    rw [StringBody.movedTo_push, readString_plain (ne_backslash hlast hescape) hquote,
      ← movedTo_advance hp hq, ih (hq.advance c) (hforward h c), List.map_nil]

theorem movedTo_readNumber (hp : p.Counted) (hc : c.position.Counted)
    (hrest : c.rest = first :: more) (hdigit : first.isDigit) :
    (readNumber c).movedTo p = readNumber (c.movedTo p) := by
  have hpos : 0 < (NumberParts.of c.rest).length := numberParts_length_pos hrest hdigit
  have hne : c.rest ≠ [] := by rw [hrest]; exact List.cons_ne_nil _ _
  have hnext := Cursor.movedTo_skip hp hc (NumberParts.of c.rest).length
  have hspan := Cursor.movedTo_spanTo_skip hp hc hpos hne
  unfold readNumber
  simp only [show (c.movedTo p).rest = c.rest from rfl]
  split
  · rw [Reading.movedTo, hnext, List.map_nil]
  · rw [Reading.movedTo, hnext, List.map_cons, LocatedFault.movedTo, hspan, List.map_nil]

/-- Reading does not depend on where it starts. -/
theorem movedTo_read (hp : p.Counted) (hc : c.position.Counted) (hrest : c.rest = first :: more) :
    (read first c).movedTo p = read first (c.movedTo p) := by
  rcases start_cases first with hquote | hdigit | hword | ⟨hquote, hother⟩
  · have hstring := movedTo_readString hp hc (hc.advance first) (Position.lt_advance _ first)
      first (c.rest.drop 1)
    rw [movedTo_advance hp hc] at hstring
    rw [read_quote hquote, read_quote hquote]
    simp only [Cursor.movedTo, ← hstring]
    rfl
  · rw [read_digit hdigit, read_digit hdigit]
    exact movedTo_readNumber hp hc hrest hdigit
  · rw [read_word hword, read_word hword, readWord, readWord, Reading.movedTo,
      Cursor.movedTo_skip hp hc]
    rfl
  · have hne : c.rest ≠ [] := by rw [hrest]; exact List.cons_ne_nil _ _
    rw [read_other hquote hother, read_other hquote hother]
    simp only [show (c.movedTo p).rest = c.rest from rfl]
    split
    · rw [Reading.movedTo, Cursor.movedTo_skip hp hc, List.map_nil]
    · rw [Reading.movedTo, Cursor.movedTo_skip hp hc, List.map_cons, LocatedFault.movedTo,
        Cursor.movedTo_spanTo_skip hp hc Nat.one_pos hne, List.map_nil]

end Lexer
end JsonTemplate
