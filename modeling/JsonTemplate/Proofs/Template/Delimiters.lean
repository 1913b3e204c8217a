import JsonTemplate.Proofs.Sentences
import JsonTemplate.Proofs.Template.MarkerText
import JsonTemplate.Proofs.Text.Trimming
import JsonTemplate.Proofs.Template.Building

/-! Expressions between delimiters. A string that consists of an expression between double braces
becomes the program of this expression, and of no other part of the string. An expression that
starts with `s=` is not read so without a blank in front of it, and one with a newline in it is not
read at all. -/

namespace JsonTemplate

open Token (Kind)

/-! ### Where an expression ends -/

namespace Marker

variable {before w after : List Char} {n : Nat}

/-- Nothing is closed within the text, given what is behind it. -/
def StaysOpen (w after : List Char) : Prop :=
  ∀ t, t ≠ [] → t <:+ w → closing? (t ++ after) = none

theorem StaysOpen.of_cons {c : Char} (h : StaysOpen (c :: w) after) : StaysOpen w after :=
  fun t hne ht => h t hne (ht.trans (List.suffix_cons c w))

/-- Braces in a text close it only if two of them stand side by side. -/
theorem closing?_append {t : List Char} (hne : t ≠ [])
    (hlast : ∀ c, t.getLast? = some c → ¬Text.isBlank c) (hbraces : ¬['}', '}'] <:+: t)
    (hend : t.getLast? = some '}' → after.head? ≠ some '}') : closing? (t ++ after) = none := by
  induction t with
  | nil => exact absurd rfl hne
  | cons c t ih =>
    cases t with
    | nil =>
      rw [List.singleton_append, closing?_other (hlast c rfl), if_neg]
      rintro ⟨rfl, hhead⟩
      exact hend rfl hhead
    | cons d t =>
      rw [List.getLast?_cons_cons] at hlast hend
      by_cases hc : Text.isBlank c
      · have hbehind : ¬['}', '}'] <:+: d :: t := fun h =>
          hbraces (h.trans (List.suffix_cons c _).isInfix)
        rw [List.cons_append, closing?_blank hc, ih (List.cons_ne_nil d t) hlast hbehind hend]
        rfl
      · rw [List.cons_append, closing?_other hc, if_neg]
        rintro ⟨rfl, hd⟩
        obtain rfl : d = '}' := Option.some.inj hd
        exact hbraces ⟨[], t, rfl⟩

theorem staysOpen_of_braces (hlast : ∀ c, w.getLast? = some c → ¬Text.isBlank c)
    (hbraces : ¬['}', '}'] <:+: w) (hend : w.getLast? = some '}' → after.head? ≠ some '}') :
    StaysOpen w after := by
  rintro t hne ⟨front, rfl⟩
  rw [List.getLast?_append_of_ne_nil front hne] at hlast hend
  exact closing?_append hne hlast (fun h => hbraces (h.trans List.infix_append_right)) hend

/-- Blanks in front of a text close nothing either. -/
theorem StaysOpen.blanks (h : StaysOpen w after) (hw : w ≠ [])
    (hbefore : ∀ c ∈ before, Text.isBlank c) : StaysOpen (before ++ w) after := by
  induction before with
  | nil => exact h
  | cons b before ih =>
    obtain ⟨hb, hbefore⟩ := List.forall_mem_cons.1 hbefore
    intro t hne ht
    rcases List.suffix_cons_iff.1 ht with rfl | ht
    -- A blank is skipped, so that nothing new is found in front of it.
    · have hrest := ih hbefore (before ++ w) (by simp [hw]) (List.suffix_refl _)
      show closing? (b :: (before ++ w ++ after)) = none
      rw [closing?_blank hb, hrest]
      rfl
    · exact ih hbefore t hne ht

theorem closing?_closed_blanks (hafter : ∀ c ∈ after, Text.isBlank c) :
    closing? (closed after []) = some (after.length + 2) := by
  have hstop : ∀ c, ['}', '}'].head? = some c → ¬Text.isBlank c := by
    rintro c ⟨⟩
    decide
  rw [closing?, closed, dropWhile_append_stop hafter hstop, takeWhile_append_stop hafter hstop]
  rfl

/-! ### Whole texts between delimiters -/

theorem content?_append (hw : w ≠ []) (hline : '\n' ∉ w) (hopen : StaysOpen w after)
    (hclose : closing? after = some n) : content? (w ++ after) = some (w, w.length + n) := by
  induction w with
  | nil => exact absurd rfl hw
  | cons c w ih =>
    obtain ⟨hc, hline⟩ := not_or.1 (mt List.mem_cons.2 hline)
    rw [List.cons_append, content?, if_neg (Ne.symm hc)]
    cases w with
    | nil =>
      rw [List.nil_append, hclose]
      simp [Nat.add_comm]
    | cons d w =>
      rw [hopen (d :: w) (List.cons_ne_nil d w) (List.suffix_cons c _),
        ih (List.cons_ne_nil d w) hline hopen.of_cons]
      simp [Nat.add_right_comm]

theorem content?_newline (hline : '\n' ∈ w) (hopen : StaysOpen w after) :
    content? (w ++ after) = none := by
  induction w with
  | nil => cases hline
  | cons c w ih =>
    rw [List.cons_append, content?]
    by_cases hc : c = '\n'
    · rw [if_pos hc]
    · have hline : '\n' ∈ w := (List.mem_cons.1 hline).resolve_left (Ne.symm hc)
      rw [if_neg hc, hopen w (List.ne_nil_of_mem hline) (List.suffix_cons c w),
        ih hline hopen.of_cons]
      rfl

theorem contentAfter?_of_content {s cs : List Char} {k : Nat}
    (h : content? (s.drop n) = some (cs, k)) : contentAfter? s n = some (cs, n + k) := by
  cases n with
  | zero => simpa [contentAfter?] using h
  | succ n => simp [contentAfter?, h]

section OneLine
variable (hw : w ≠ []) (hhead : ∀ c, w.head? = some c → ¬Text.isBlank c) (hline : '\n' ∉ w)
include hw hhead hline

/-- An expression on one line is read up to the braces, and without the blanks around it. -/
theorem inside?_eq (hbefore : ∀ c ∈ before, Text.isBlank c) (hafter : ∀ c ∈ after, Text.isBlank c)
    (hopen : StaysOpen w (closed after [])) :
    inside? (before ++ (w ++ closed after [])) =
      some (w, (before ++ (w ++ closed after [])).length) := by
  have hstop : ∀ c, (w ++ closed after []).head? = some c → ¬Text.isBlank c := by
    rw [List.head?_append_of_ne_nil w hw]
    exact hhead
  have hcontent : content? ((before ++ (w ++ closed after [])).drop before.length) =
      some (w, w.length + (after.length + 2)) := by
    rw [List.drop_left]
    exact content?_append hw hline hopen (closing?_closed_blanks hafter)
  rw [inside?, takeWhile_append_stop hbefore hstop, contentAfter?_of_content hcontent]
  simp [closed]

theorem inside?_closed_eq (hopen : StaysOpen w ['}', '}']) :
    inside? (closed w []) = some (w, (closed w []).length) :=
  @inside?_eq [] w [] hw hhead hline (List.forall_mem_nil _) (List.forall_mem_nil _) hopen

theorem body?_unmarked (hopen : StaysOpen w ['}', '}'])
    (hmark : ∀ rest, w ≠ 's' :: '=' :: rest) :
    body? (closed w []) = some (w, false, (closed w []).length) := by
  rw [body?_closed_plain hmark, inside?_closed_eq hw hhead hline hopen]
  rfl

theorem body?_marked (hopen : StaysOpen w ['}', '}']) :
    body? (closed ('s' :: '=' :: w) []) =
      some (w, true, (closed ('s' :: '=' :: w) []).length) := by
  rw [body?_closed_marked, inside?_closed_eq hw hhead hline hopen]
  rfl

/-- A blank is no part of a mark. -/
theorem body?_blanks (hopen : StaysOpen w (closed [' '] [])) :
    body? ([' '] ++ (w ++ closed [' '] [])) =
      some (w, false, ([' '] ++ (w ++ closed [' '] [])).length) := by
  have hblank : ∀ c ∈ [' '], Text.isBlank c := List.forall_mem_singleton.2 rfl
  change (inside? _).map _ = _
  rw [inside?_eq hw hhead hline hblank hblank hopen]
  rfl

end OneLine

theorem inside?_newline (hbefore : ∀ c ∈ before, Text.isBlank c)
    (hhead : ∀ c, w.head? = some c → ¬Text.isBlank c) (hline : '\n' ∈ w)
    (hopen : StaysOpen w after) : inside? (before ++ (w ++ after)) = none := by
  have hw : w ≠ [] := List.ne_nil_of_mem hline
  have hstop : ∀ c, (w ++ after).head? = some c → ¬Text.isBlank c := by
    rw [List.head?_append_of_ne_nil w hw]
    exact hhead
  rw [← Option.not_isSome_iff_eq_none, inside?, isSome_contentAfter?,
    takeWhile_append_stop hbefore hstop]
  rintro ⟨n, hn, hsome⟩
  have hdrop : ∀ c ∈ before.drop n, Text.isBlank c := fun c hc =>
    hbefore c (List.mem_of_mem_drop hc)
  rw [List.drop_append_of_le_length hn, ← List.append_assoc,
    content?_newline (List.mem_append_right _ hline) (hopen.blanks hw hdrop)] at hsome
  cases hsome

theorem at?_newline (hhead : ∀ c, w.head? = some c → ¬Text.isBlank c) (hline : '\n' ∈ w)
    (hopen : StaysOpen w (closed [' '] [])) :
    at? ('{' :: '{' :: ([' '] ++ (w ++ closed [' '] []))) = none := by
  have hblank : ∀ c ∈ [' '], Text.isBlank c := List.forall_mem_singleton.2 rfl
  change ((inside? ([' '] ++ (w ++ closed [' '] []))).map _).map _ = none
  rw [inside?_newline hblank hhead hline hopen]
  rfl

/-- A marker that goes to the end of the text. -/
theorem at?_of_body? {s cs : List Char} {asText : Bool}
    (h : body? s = some (cs, asText, s.length)) :
    at? ('{' :: '{' :: s) = some ⟨'{' :: '{' :: s, cs, asText⟩ := by
  simp [at?, h]

end Marker

theorem Segment.ofText_of_at? {s : List Char} {m : Marker} (h : Marker.at? s = some m)
    (hraw : m.raw = s) : ofText s = [.marker m] := by
  have hend : ofText (m.raw ++ []) = .marker m :: ofText [] :=
    ofText_marker (by rwa [List.append_nil, hraw])
  rwa [List.append_nil, hraw, show ofText [] = [] from ofText.eq_1] at hend

namespace Node

variable {o : Options} {text : String} {s : List Char}

/-- A text that is one marker is the expression in it, which has to compile. -/
theorem ofText_of_body? {cs : List Char} {asText : Bool} (htext : text.toList = '{' :: '{' :: s)
    (hbody : Marker.body? s = some (cs, asText, s.length)) :
    ofText o text =
      (o.compile (String.ofList cs)).map fun p => .block (.expression p asText) := by
  have hone := Segment.ofText_of_at? (Marker.at?_of_body? hbody) rfl
  unfold ofText
  rw [htext, hone]
  rfl

/-- A text that does not start with a marker is no expression. -/
theorem ofText_ne_expression {c : Char} (htext : text.toList = c :: s)
    (hat : Marker.at? (c :: s) = none) (p : Program) (asText : Bool) :
    ofText o text ≠ .ok (.block (.expression p asText)) := by
  intro h
  have hfirst : Segment.ofText text.toList = .char c :: Segment.ofText s := by
    rw [htext, Segment.ofText_char hat]
  unfold ofText at h
  rw [hfirst] at h
  simp only at h
  split at h
  · cases h
  · next hmarkers hone =>
    rw [(List.cons.inj hone).2] at hmarkers
    cases hmarkers
  · obtain ⟨programs, -, h⟩ := bind_eq_ok.1 h
    cases h

theorem ofText_of_not_hasMarker (h : ¬HasMarker text.toList) :
    ofText o text = .ok (.static (.string text)) := by
  unfold ofText
  simp only [Segment.markers_eq_nil_iff.2 h]

end Node

/-! ### Where no marker stands -/

theorem MarkerText.opening {m : List Char} (h : MarkerText m) : ['{', '{'] <+: m := by
  cases h
  exact ⟨_, rfl⟩

theorem infix_of_append {w rest : List Char} (hrest : '{' ∉ rest)
    (h : ['{', '{'] <:+: w ++ rest) : ['{', '{'] <:+: w := by
  induction w with
  | nil => exact absurd (h.subset List.mem_cons_self) hrest
  | cons c w ih =>
    rcases List.infix_cons_iff.1 h with h | h
    · obtain ⟨hc, hbehind⟩ := List.cons_prefix_cons.1 h
      cases w with
      | nil => exact absurd (hbehind.subset List.mem_cons_self) hrest
      | cons d w =>
        obtain ⟨hd, -⟩ := List.cons_prefix_cons.1 hbehind
        exact hc ▸ hd ▸ ⟨[], w, rfl⟩
    · exact (ih h).trans (List.suffix_cons c w).isInfix

/-- Braces and a blank open nothing else than a marker at their place. -/
theorem not_hasMarker_of_at? {w rest : List Char} (hw : ¬['{', '{'] <:+: w) (hrest : '{' ∉ rest)
    (hat : Marker.at? ('{' :: '{' :: ' ' :: (w ++ rest)) = none) :
    ¬HasMarker ('{' :: '{' :: ' ' :: (w ++ rest)) := by
  rintro ⟨m, hm, h⟩
  rcases List.infix_cons_iff.1 h with h | h
  · have hsome := Marker.isSome_at?.2 ⟨m, hm, h⟩
    rw [hat] at hsome
    cases hsome
  · have hopening := hm.opening.isInfix.trans h
    rw [List.infix_cons_iff, List.infix_cons_iff] at hopening
    rcases hopening with ⟨t, ⟨⟩⟩ | ⟨t, ⟨⟩⟩ | hopening
    exact hw (infix_of_append hrest hopening)

/-! ### Texts that start with an equals sign -/

namespace Lexer

variable {rest : List Char} {kinds : List Kind}

/-- There is no token `=`. -/
theorem Spells.equal (h : Spells ('=' :: rest) kinds) :
    ∃ rest' kinds', rest = '=' :: rest' ∧ kinds = .symbol .equal :: kinds' := by
  obtain ⟨text, kind, behind, kinds', hlexeme, -, htext, rfl⟩ := h.exists_lexeme (by decide)
  cases hlexeme with
  | string hquote =>
    cases htext
    rcases hquote with hquote | hquote <;> cases hquote
  | number hdigit =>
    cases htext
    cases hdigit
  | word hstart =>
    cases htext
    cases hstart
  | @symbol symbol =>
    cases symbol <;> cases htext
    exact ⟨_, _, rfl, rfl⟩

theorem Spells.word_equal {c : Char} (hc : isWordStart c) (h : Spells (c :: '=' :: rest) kinds) :
    ∃ kinds', Spells ('=' :: rest) kinds' := by
  have hspace : ¬isSpace c := fun hs =>
    not_isWordChar_of_isSpace hs (isWordChar_of_isWordStart hc)
  obtain ⟨text, kind, behind, kinds', hlexeme, hrest, htext, rfl⟩ := h.exists_lexeme hspace
  cases hlexeme with
  | string hquote =>
    obtain ⟨rfl, -⟩ := List.cons.inj htext
    exact absurd (isWordChar_of_isWordStart hc) (not_isWordChar_of_isQuote hquote)
  | number hdigit =>
    obtain ⟨rfl, -⟩ := List.cons.inj htext
    exact absurd hdigit (not_isDigit_of_isWordStart hc)
  | @word _ more _ _ hmore =>
    cases more with
    | nil =>
      cases htext
      exact ⟨kinds', hrest⟩
    | cons d more =>
      cases htext
      cases (List.forall_mem_cons.1 hmore).1
  | @symbol symbol =>
    obtain ⟨first, more, hchars, -, hword, -⟩ := exists_chars_symbol symbol
    rw [hchars] at htext
    obtain ⟨rfl, -⟩ := List.cons.inj htext
    exact absurd (isWordChar_of_isWordStart hc) hword

end Lexer

/-! ### Expressions that compile -/

section Expressions
variable {o : Options} {e : String} {w : List Char} {p : Program}

theorem Program.ne_nil_of_compile (hp : Program.compile o (String.ofList w) = .ok p) : w ≠ [] := by
  obtain ⟨kinds, hspells, hsentence⟩ := exists_sentence_of_compile hp
  exact hspells.ne_nil (List.ne_nil_of_length_pos hsentence.length_pos)

/-- No expression starts with an equals sign. -/
theorem not_compiles_equal (o : Options) (rest : List Char) :
    ¬Compiles o (String.ofList ('=' :: rest)) := by
  rintro ⟨p, hp⟩
  obtain ⟨kinds, hspells, hsentence⟩ := Program.exists_sentence_of_compile hp
  obtain ⟨behind, kinds', -, rfl⟩ := hspells.equal
  obtain ⟨_, _, ⟨⟩, hstart⟩ := Grammar.Phrase.starts hsentence _ rfl
  rcases hstart with hopener | ⟨-, op, hop⟩
  · rcases hopener with ⟨⟨⟩⟩
  · cases hop

/-- An expression that starts with `s=` compares the variable `s`. -/
theorem Program.equal_of_compile {rest : List Char}
    (hp : Program.compile o (String.ofList ('s' :: '=' :: rest)) = .ok p) :
    ∃ rest', rest = '=' :: rest' := by
  obtain ⟨kinds, hspells, -⟩ := exists_sentence_of_compile hp
  obtain ⟨kinds', hbehind⟩ := hspells.word_equal (by decide)
  obtain ⟨rest', -, h, -⟩ := hbehind.equal
  exact ⟨rest', h⟩

theorem Options.exists_compile_error (h : ¬Compiles o e) :
    ∃ report, o.compile e = .error (.compile e report) := by
  unfold compile
  cases hp : Program.compile o e with
  | ok p => exact absurd ⟨p, hp⟩ h
  | error report => exact ⟨report, rfl⟩

end Expressions

namespace Node

variable {o : Options} {e : String} {w : List Char} {p : Program}

section OneLine
variable (hw : w ≠ []) (hhead : ∀ c, w.head? = some c → ¬Text.isBlank c) (hline : '\n' ∉ w)
  (hopen : Marker.StaysOpen w ['\x7d', '\x7d'])
include hw hhead hline hopen

theorem ofText_unmarked (hmark : ∀ rest, w ≠ 's' :: '=' :: rest) :
    ofText o ("\x7b\x7b" ++ String.ofList w ++ "\x7d\x7d") =
      (o.compile (String.ofList w)).map fun p => .block (.expression p false) := by
  have htext : ("\x7b\x7b" ++ String.ofList w ++ "\x7d\x7d").toList =
      '\x7b' :: '\x7b' :: Marker.closed w [] := by
    simp [Marker.closed]
  exact ofText_of_body? htext (Marker.body?_unmarked hw hhead hline hopen hmark)

theorem ofText_marked :
    ofText o ("\x7b\x7bs=" ++ String.ofList w ++ "\x7d\x7d") =
      (o.compile (String.ofList w)).map fun p => .block (.expression p true) := by
  have htext : ("\x7b\x7bs=" ++ String.ofList w ++ "\x7d\x7d").toList =
      '\x7b' :: '\x7b' :: Marker.closed ('s' :: '=' :: w) [] := by
    simp [Marker.closed]
  exact ofText_of_body? htext (Marker.body?_marked hw hhead hline hopen)

end OneLine

/-- What is behind `s=` is compiled on its own, and an expression has another equals sign there. -/
theorem ofText_comparison_of_s {rest : List Char}
    (hp : Program.compile o (String.ofList ('s' :: '=' :: rest)) = .ok p)
    (hline : '\n' ∉ 's' :: '=' :: rest)
    (hopen : Marker.StaysOpen ('s' :: '=' :: rest) ['\x7d', '\x7d']) :
    ∃ report, ofText o ("\x7b\x7b" ++ String.ofList ('s' :: '=' :: rest) ++ "\x7d\x7d") =
      .error (.compile (String.ofList rest) report) := by
  obtain ⟨behind, rfl⟩ := Program.equal_of_compile hp
  obtain ⟨report, hreport⟩ := Options.exists_compile_error (not_compiles_equal o behind)
  have hbehind : '\n' ∉ '=' :: behind := fun h =>
    hline (List.mem_cons_of_mem _ (List.mem_cons_of_mem _ h))
  have hhead : ∀ c, ('=' :: behind).head? = some c → ¬Text.isBlank c := by
    rintro c ⟨⟩
    decide
  have htext : "\x7b\x7b" ++ String.ofList ('s' :: '=' :: '=' :: behind) ++ "\x7d\x7d" =
      "\x7b\x7bs=" ++ String.ofList ('=' :: behind) ++ "\x7d\x7d" :=
    String.toList_injective (by simp)
  refine ⟨report, ?_⟩
  rw [htext, ofText_marked (List.cons_ne_nil _ _) hhead hbehind hopen.of_cons.of_cons, hreport]
  rfl

/-- An expression without braces at its end goes to the closing braces. If it starts with `s=`,
what is behind that is compiled in its place, and is no expression. -/
theorem ofText_between_braces (hp : Program.compile o e = .ok p) (htrim : Text.trim e = e)
    (hline : '\n' ∉ e.toList) (hbraces : ¬['\x7d', '\x7d'] <:+: e.toList)
    (hend : e.toList.getLast? ≠ some '\x7d') :
    p.source = e ∧
      ofText o ("\x7b\x7bs=" ++ e ++ "\x7d\x7d") = .ok (.block (.expression p true)) ∧
      ((∀ rest, e.toList ≠ 's' :: '=' :: rest) →
        ofText o ("\x7b\x7b" ++ e ++ "\x7d\x7d") = .ok (.block (.expression p false))) ∧
      ∀ rest, e.toList = 's' :: '=' :: rest → ∃ report,
        ofText o ("\x7b\x7b" ++ e ++ "\x7d\x7d") =
          .error (.compile (String.ofList rest) report) := by
  have hblanks := Text.trimChars_of_trim htrim
  have hcompile : o.compile e = .ok p := compile_eq_ok.2 hp
  obtain ⟨w, rfl⟩ : ∃ w, e = String.ofList w := ⟨e.toList, String.ofList_toList.symm⟩
  rw [String.toList_ofList] at hline hbraces hend hblanks ⊢
  have hw := Program.ne_nil_of_compile hp
  have hhead : ∀ c, w.head? = some c → ¬Text.isBlank c := fun _ => Text.not_isBlank_head hblanks
  have hopen : Marker.StaysOpen w ['\x7d', '\x7d'] :=
    Marker.staysOpen_of_braces (fun _ => Text.not_isBlank_last hblanks) hbraces
      fun h => absurd h hend
  refine ⟨(Program.compile_eq_ok_iff.1 hp).1, ?_, fun hmark => ?_, fun rest hrest => ?_⟩
  · rw [ofText_marked hw hhead hline hopen, hcompile]
    rfl
  · rw [ofText_unmarked hw hhead hline hopen hmark, hcompile]
    rfl
  · subst hrest
    exact ofText_comparison_of_s hp hline hopen

/-- The variable `s` may be read, as long as it is not compared at once. -/
theorem ofText_between_braces_member :
    ∃ p, Program.compile .empty "s.size" = .ok p ∧
      ofText .empty "\x7b\x7bs.size\x7d\x7d" = .ok (.block (.expression p false)) ∧
      ofText .empty "\x7b\x7bs=s.size\x7d\x7d" = .ok (.block (.expression p true)) := by
  have hcompiles : Compiles .empty "s.size" := compiles_of_isOk (by decide +kernel)
  have htrim : Text.trim "s.size" = "s.size" := by decide +kernel
  have hbraces : ¬['\x7d', '\x7d'] <:+: "s.size".toList := by decide +kernel
  obtain ⟨p, hp⟩ := hcompiles
  obtain ⟨-, hmarked, hplain, -⟩ := ofText_between_braces hp htrim (by decide) hbraces (by decide)
  have hsecond : "s.size".toList[1]? ≠ some '=' := by decide
  exact ⟨p, hp, hplain fun rest hrest => hsecond (by rw [hrest]; rfl), hmarked⟩

/-- Between braces, a comparison of `s` loses its start. -/
theorem comparison_of_s_loses_start :
    Compiles .empty "s==1" ∧ Text.trim "s==1" = "s==1" ∧ '\n' ∉ "s==1".toList ∧
      ¬['\x7d', '\x7d'] <:+: "s==1".toList ∧ "s==1".toList.getLast? ≠ some '\x7d' ∧
      ¬∃ n, ofText .empty "\x7b\x7bs==1\x7d\x7d" = .ok n := by
  refine ⟨compiles_of_isOk (by decide +kernel), by decide +kernel, by decide, by decide +kernel,
    by decide, ?_⟩
  rintro ⟨n, hn⟩
  have hok : (ofText .empty "\x7b\x7bs==1\x7d\x7d").isOk = false := by decide +kernel
  rw [hn] at hok
  cases hok

theorem toList_blanks : ("\x7b\x7b " ++ String.ofList w ++ " \x7d\x7d").toList =
    '\x7b' :: '\x7b' :: ([' '] ++ (w ++ Marker.closed [' '] [])) := by
  simp [Marker.closed]

theorem ofText_blanks (hw : w ≠ []) (hhead : ∀ c, w.head? = some c → ¬Text.isBlank c)
    (hline : '\n' ∉ w) (hopen : Marker.StaysOpen w (Marker.closed [' '] [])) :
    ofText o ("\x7b\x7b " ++ String.ofList w ++ " \x7d\x7d") =
      (o.compile (String.ofList w)).map fun p => .block (.expression p false) :=
  ofText_of_body? toList_blanks (Marker.body?_blanks hw hhead hline hopen)

/-- An expression on one line is read between blanks as well. An expression with a newline is not:
the text stays, unless another marker stands in the expression. -/
theorem ofText_between_blanks (hp : Program.compile o e = .ok p) (htrim : Text.trim e = e)
    (hbraces : ¬['\x7d', '\x7d'] <:+: e.toList) :
    p.source = e ∧
      ('\n' ∉ e.toList →
        ofText o ("\x7b\x7b " ++ e ++ " \x7d\x7d") = .ok (.block (.expression p false))) ∧
      ('\n' ∈ e.toList →
        (∀ q asText,
          ofText o ("\x7b\x7b " ++ e ++ " \x7d\x7d") ≠ .ok (.block (.expression q asText))) ∧
        (¬['\x7b', '\x7b'] <:+: e.toList →
          ofText o ("\x7b\x7b " ++ e ++ " \x7d\x7d") =
            .ok (.static (.string ("\x7b\x7b " ++ e ++ " \x7d\x7d"))))) := by
  have hblanks := Text.trimChars_of_trim htrim
  have hcompile : o.compile e = .ok p := compile_eq_ok.2 hp
  obtain ⟨w, rfl⟩ : ∃ w, e = String.ofList w := ⟨e.toList, String.ofList_toList.symm⟩
  rw [String.toList_ofList] at hbraces hblanks ⊢
  have hhead : ∀ c, w.head? = some c → ¬Text.isBlank c := fun _ => Text.not_isBlank_head hblanks
  have hopen : Marker.StaysOpen w (Marker.closed [' '] []) :=
    Marker.staysOpen_of_braces (fun _ => Text.not_isBlank_last hblanks) hbraces nofun
  refine ⟨(Program.compile_eq_ok_iff.1 hp).1, fun hline => ?_,
    fun hline => ⟨?_, fun hopening => ?_⟩⟩
  · rw [ofText_blanks (Program.ne_nil_of_compile hp) hhead hline hopen, hcompile]
    rfl
  · exact ofText_ne_expression toList_blanks (Marker.at?_newline hhead hline hopen)
  · refine ofText_of_not_hasMarker ?_
    rw [toList_blanks]
    exact @not_hasMarker_of_at? w _ hopening (by decide) (Marker.at?_newline hhead hline hopen)

theorem ofText_between_blanks_sum :
    ∃ p, Program.compile .empty "a + b" = .ok p ∧
      ofText .empty "\x7b\x7b a + b \x7d\x7d" = .ok (.block (.expression p false)) := by
  have hcompiles : Compiles .empty "a + b" := compiles_of_isOk (by decide +kernel)
  have htrim : Text.trim "a + b" = "a + b" := by decide +kernel
  have hbraces : ¬['\x7d', '\x7d'] <:+: "a + b".toList := by decide +kernel
  obtain ⟨p, hp⟩ := hcompiles
  obtain ⟨-, hline, -⟩ := ofText_between_blanks hp htrim hbraces
  exact ⟨p, hp, hline (by decide)⟩

/-- A line break turns an expression into plain text. -/
theorem line_break_hides_expression :
    Compiles .empty "a +\n b" ∧ Text.trim "a +\n b" = "a +\n b" ∧
      ¬['\x7d', '\x7d'] <:+: "a +\n b".toList ∧
      ofText .empty "\x7b\x7b a +\n b \x7d\x7d" =
        .ok (.static (.string "\x7b\x7b a +\n b \x7d\x7d")) := by
  refine ⟨compiles_of_isOk (by decide +kernel), by decide +kernel, by decide +kernel,
    ofText_of_not_hasMarker ?_⟩
  rw [← Segment.markers_eq_nil_iff]
  decide +kernel

end Node

end JsonTemplate
