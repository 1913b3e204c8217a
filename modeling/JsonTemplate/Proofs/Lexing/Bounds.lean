import JsonTemplate.Proofs.Lexing.Lexemes
import JsonTemplate.Source.Lines

/-! Spans in any text, faulty or not. Wherever reading stands, its place is that of the text in
front of it, and it only goes forward. So the spans of all tokens and of all faults start at a line
of the text, end there or behind, and leave no line out that they would need. -/

namespace JsonTemplate

/-- The span goes forward from one line of the text to another. -/
structure Span.Within (source : List Char) (span : Span) : Prop where
  first : 1 ≤ span.start.line
  upright : span.start ≤ span.stop
  last : span.stop.line ≤ (Source.lines source).length

namespace Span

variable {source : List Char} {span : Span}

theorem Within.lines_le (h : span.Within source) : span.start.line ≤ span.stop.line := by
  have hle := h.upright
  rw [Position.le_def] at hle
  omega

/-- A span that starts with one span of the text and ends with another one behind it. -/
theorem Within.between {a b : Span} (ha : a.Within source) (hb : b.Within source)
    (hstart : span.start = a.start) (hstop : span.stop = b.stop) (hle : span.start ≤ span.stop) :
    span.Within source :=
  ⟨hstart ▸ ha.first, hle, hstop ▸ hb.last⟩

end Span

namespace Lexer

open Source (place)

variable {source : List Char} {c next : Cursor} {first : Char} {rest : List Char} {p : Position}

/-! ### Cursors -/

/-- What is left at the cursor is the end of the text, and its place is that of the text before. -/
def Cursor.StandsIn (source : List Char) (c : Cursor) : Prop :=
  ∃ before, source = before ++ c.rest ∧ c.position = place before

namespace Cursor

theorem standsIn_start (source : List Char) : StandsIn source ⟨source, Position.first⟩ :=
  ⟨[], rfl, rfl⟩

/-- Going forward keeps the right place. -/
theorem StandsIn.after (text : List Char) (h : StandsIn source ⟨text ++ rest, p⟩) :
    StandsIn source ⟨rest, Lexer.after p text⟩ := by
  obtain ⟨before, hsource, hp⟩ := h
  refine ⟨before ++ text, ?_, ?_⟩
  · rw [hsource, List.append_assoc]
  · rw [show p = place before from hp, Source.after_place]

theorem StandsIn.advance (h : StandsIn source ⟨first :: rest, p⟩) :
    StandsIn source ⟨rest, p.advance first⟩ :=
  h.after [first]

theorem StandsIn.skip (h : c.StandsIn source) (n : Nat) : (c.skip n).StandsIn source := by
  apply StandsIn.after
  rwa [List.take_append_drop]

theorem StandsIn.skipSpaces (h : c.StandsIn source) : c.skipSpaces.StandsIn source := by
  apply StandsIn.after
  rwa [List.takeWhile_append_dropWhile]

/-- With nothing left the place is the end of the text. -/
theorem StandsIn.position_eq (h : c.StandsIn source) (hrest : c.rest = []) :
    c.position = place source := by
  obtain ⟨before, hsource, hp⟩ := h
  rw [hp, hsource, hrest, List.append_nil]

theorem StandsIn.line_le (h : c.StandsIn source) :
    c.position.line ≤ (Source.lines source).length := by
  obtain ⟨before, hsource, hp⟩ := h
  have hcount : before.count '\n' ≤ source.count '\n' := by
    rw [hsource, List.count_append]
    exact Nat.le_add_right _ _
  rw [hp, Source.length_lines, place, Nat.add_comm]
  exact Nat.add_le_add_right hcount 1

theorem StandsIn.within_point (h : c.StandsIn source) :
    (Span.point c.position).Within source := by
  refine ⟨?_, Position.le_refl _, h.line_le⟩
  obtain ⟨before, -, hp⟩ := h
  rw [hp]
  exact Nat.le_add_right 1 _

theorem StandsIn.lt (h : c.StandsIn source) (hnext : next.StandsIn source)
    (hlt : next.rest.length < c.rest.length) : c.position < next.position := by
  obtain ⟨before, hsource, hp⟩ := h
  obtain ⟨ahead, hahead, hq⟩ := hnext
  have hlength : (before ++ c.rest).length = (ahead ++ next.rest).length := by
    rw [← hsource, ← hahead]
  rw [List.length_append, List.length_append] at hlength
  have hbefore : before <+: source := ⟨c.rest, hsource.symm⟩
  have hahead : ahead <+: source := ⟨next.rest, hahead.symm⟩
  obtain ⟨text, rfl⟩ : before <+: ahead :=
    List.prefix_of_prefix_length_le hbefore hahead (by omega)
  rw [hp, hq]
  apply Source.place_lt
  rintro rfl
  rw [List.append_nil] at hlength
  omega

/-- The span of what is read between two cursors. -/
theorem StandsIn.within_spanTo (h : c.StandsIn source) (hnext : next.StandsIn source)
    (hlt : next.rest.length < c.rest.length) :
    (spanTo c.position next.position).Within source := by
  refine ⟨h.within_point.first, ?_, hnext.line_le⟩
  have hforward := h.lt hnext hlt
  rw [Position.lt_def] at hforward
  rw [Position.le_def, spanTo]
  simp only
  omega

end Cursor

/-! ### Reading -/

/-- All faults are in the text, and reading goes on in it. -/
structure Bounded (source : List Char) (faults : List LocatedFault) (next : Cursor) : Prop where
  faults : ∀ f ∈ faults, f.span.Within source
  next : next.StandsIn source

theorem Bounded.push {b : StringBody} (h : Bounded source b.faults b.next)
    {faults : List LocatedFault} (hfaults : ∀ f ∈ faults, f.span.Within source) (c : Char) :
    Bounded source (b.push c faults).faults (b.push c faults).next :=
  ⟨List.forall_mem_append.2 ⟨hfaults, h.faults⟩, h.next⟩

/-- A string that is not closed is at fault from its opening quote on, which is why its start
stands in the text as well. -/
theorem bounded_readString {quote : Char} {start : Position} {opened s : List Char}
    (hstart : Cursor.StandsIn source ⟨opened, start⟩) (h : Cursor.StandsIn source ⟨s, p⟩)
    (hlt : s.length < opened.length) :
    Bounded source (readString quote start p s).faults (readString quote start p s).next := by
  have hnone : ∀ f ∈ ([] : List LocatedFault), f.span.Within source := List.forall_mem_nil _
  fun_induction readString quote start p s with
  | case1 p =>
    exact ⟨List.forall_mem_singleton.2 (hstart.within_spanTo h hlt), h⟩
  | case2 p q =>
    have hq : Cursor.StandsIn source ⟨[], q⟩ := h.advance
    have hopened : 0 < opened.length := Nat.zero_lt_of_lt hlt
    exact ⟨List.forall_mem_cons.2 ⟨h.within_spanTo hq Nat.one_pos,
      List.forall_mem_singleton.2 (hstart.within_spanTo hq hopened)⟩, hq⟩
  | case3 p c rest q e _ ih =>
    have hq : Cursor.StandsIn source ⟨rest, q⟩ := h.advance.advance
    simp only [List.length_cons] at hlt
    exact (ih hq (by omega)).push hnone e
  | case4 p c rest q _ ih =>
    have hq : Cursor.StandsIn source ⟨rest, q⟩ := h.advance.advance
    have hescape : (spanTo p q).Within source :=
      h.within_spanTo hq (Nat.lt_succ_of_lt (Nat.lt_succ_self _))
    simp only [List.length_cons] at hlt
    exact (ih hq (by omega)).push (List.forall_mem_singleton.2 hescape) c
  | case5 p rest => exact ⟨hnone, h.advance⟩
  | case6 p c rest _ _ _ ih =>
    simp only [List.length_cons] at hlt
    exact (ih h.advance (by omega)).push hnone c

theorem bounded_readNumber (h : c.StandsIn source)
    (hlt : (readNumber c).next.rest.length < c.rest.length) :
    Bounded source (readNumber c).faults (readNumber c).next := by
  have hnext : (readNumber c).next.StandsIn source := by
    rw [next_readNumber]
    exact h.skip _
  refine ⟨?_, hnext⟩
  have hspan := h.within_spanTo hnext hlt
  rw [next_readNumber] at hspan
  unfold readNumber
  simp only
  split
  · exact List.forall_mem_nil _
  · exact List.forall_mem_singleton.2 hspan

/-- Whatever is read, its faults are in the text, and so is what is behind it. -/
theorem bounded_read (h : c.StandsIn source) (hc : c.rest = first :: rest) :
    Bounded source (read first c).faults (read first c).next := by
  have hlt := length_read_lt hc
  rcases start_cases first with hquote | hdigit | hword | ⟨hquote, hother⟩
  · obtain ⟨s, p⟩ := c
    cases hc
    rw [read_quote hquote]
    exact bounded_readString h h.advance (Nat.lt_succ_self _)
  · rw [read_digit hdigit] at hlt ⊢
    exact bounded_readNumber h hlt
  · rw [read_word hword]
    exact ⟨List.forall_mem_nil _, h.skip _⟩
  · rw [read_other hquote hother]
    split
    · exact ⟨List.forall_mem_nil _, h.skip _⟩
    · have hone : (c.skip 1).rest.length < c.rest.length :=
        length_skip_lt Nat.one_pos (by rw [hc]; exact List.cons_ne_nil _ _)
      exact ⟨List.forall_mem_singleton.2 (h.within_spanTo (h.skip 1) hone), h.skip 1⟩

/-! ### Whole texts -/

theorem within_scan (found : Nat) (h : c.StandsIn source) :
    (∀ t ∈ (scan found c).1, t.span.Within source) ∧
      ∀ f ∈ (scan found c).2, f.span.Within source := by
  have hend {c : Cursor} (hc : c.StandsIn source) :
      ∀ t ∈ [endToken c.position], t.span.Within source :=
    List.forall_mem_singleton.2 hc.within_point
  have hread {c : Cursor} (hc : c.StandsIn source) {first : Char} {rest : List Char}
      (hrest : c.rest = first :: rest) :
      Bounded source (read first c).faults (read first c).next ∧
        (spanTo c.position (read first c).next.position).Within source :=
    have hbounded := bounded_read hc hrest
    ⟨hbounded, hc.within_spanTo hbounded.next (length_read_lt hrest)⟩
  fun_induction scan found c with
  | case1 found start c hc => exact ⟨hend h.skipSpaces, List.forall_mem_nil _⟩
  | case2 found start c first rest hc hfull => exact ⟨hend h.skipSpaces, List.forall_mem_nil _⟩
  | case3 found start c first rest hc _ r _ _ _ tokens faults hrest ih =>
    obtain ⟨hbounded, -⟩ := hread h.skipSpaces hc
    rw [hrest] at ih
    obtain ⟨htokens, hfaults⟩ := ih hbounded.next
    exact ⟨htokens, List.forall_mem_append.2 ⟨hbounded.faults, hfaults⟩⟩
  | case4 found start c first rest hc _ r _ _ kind _ _ =>
    obtain ⟨hbounded, hspan⟩ := hread h.skipSpaces hc
    exact ⟨List.forall_mem_cons.2 ⟨hspan, hend hbounded.next⟩, hbounded.faults⟩
  | case5 found start c first rest hc _ r _ _ kind _ _ _ tokens faults hrest ih =>
    obtain ⟨hbounded, hspan⟩ := hread h.skipSpaces hc
    rw [hrest] at ih
    obtain ⟨htokens, hfaults⟩ := ih hbounded.next
    exact ⟨List.forall_mem_cons.2 ⟨hspan, htokens⟩,
      List.forall_mem_append.2 ⟨hbounded.faults, hfaults⟩⟩

/-- The spans of all tokens and faults of a text are in it. -/
theorem within_lex (source : String) :
    (∀ t ∈ (lex source).1, t.span.Within source.toList) ∧
      ∀ f ∈ (lex source).2, f.span.Within source.toList :=
  within_scan 0 (Cursor.standsIn_start source.toList)

end Lexer

end JsonTemplate
