import JsonTemplate.Proofs.Compilation
import JsonTemplate.Proofs.Lexing.Moving
import JsonTemplate.Proofs.Lexing.Rendering
import JsonTemplate.Proofs.Lexing.Separation

/-! Faults are local. Two texts with blanks between them are read one after the other: whatever is
wrong with the first one, the second is read as it would be alone, from where it starts. Only two
faults reach further, a string that is not closed, and one too many for the report. -/

namespace JsonTemplate

/-- A diagnostic of a text when the text starts at `p`. -/
def Diagnostic.movedTo (p : Position) (d : Diagnostic) : Diagnostic :=
  { d with span := d.span.movedTo p }

/-- A diagnostic without the line that it quotes. -/
def Diagnostic.unquoted (d : Diagnostic) : Diagnostic := { d with sourceLine := "" }

namespace Lexer

open Source (place)

variable {c d : Cursor} {p : Position} {source behind gap : List Char}
  {tokens more : List Token} {faults others : List LocatedFault}

/-! ### All that is read -/

/-- The tokens at a cursor but for the end of the text, and the faults, however many. -/
inductive Scans : Cursor → List Token → List LocatedFault → Prop where
  | done {c : Cursor} : c.skipSpaces.rest = [] → Scans c [] []
  | step {c d : Cursor} {first : Char} {rest : List Char} {r : Reading} {tokens : List Token}
    {faults : List LocatedFault} : c.skipSpaces = d → d.rest = first :: rest → read first d = r →
    Scans r.next tokens faults →
    Scans c ((r.token? d.position).toList ++ tokens) (r.faults ++ faults)

theorem Scans.scan_eq (h : Scans c tokens faults) (hc : c.StandsIn source) {found : Nat}
    (hroom : found + faults.length < Report.capacity) :
    scan found c = (tokens ++ [endToken (place source)], faults) := by
  induction h generalizing found with
  | done hnil => rw [scan_done hnil, hc.skipSpaces.position_eq hnil, List.nil_append]
  | @step c _ first rest _ tokens faults hskip hcons hread _ ih =>
    subst hskip hread
    rw [List.length_append, ← Nat.add_assoc] at hroom
    have hstep := scan_step hcons rfl (Nat.lt_of_le_of_lt (Nat.le_add_right _ _) hroom)
    rw [hstep, ih (bounded_read hc.skipSpaces hcons).next hroom, List.append_assoc]

/-- Reading that does not fill the report gets to the end of the text. -/
theorem exists_scans {found : Nat} (h : found + (scan found c).2.length < Report.capacity) :
    ∃ tokens, Scans c tokens (scan found c).2 := by
  fun_induction scan found c with
  | case1 found start c hc => exact ⟨[], .done hc⟩
  | case2 found start c first rest hc hfull =>
    exact absurd (Nat.lt_of_le_of_lt (Nat.le_add_right _ _) h) (Nat.not_lt_of_le hfull)
  | case3 found start c first rest hc _ r _ total _ tokens faults hscan ih =>
    rw [hscan] at ih
    rw [List.length_append, ← Nat.add_assoc] at h
    obtain ⟨others, hothers⟩ := ih h
    exact ⟨_, .step rfl hc rfl hothers⟩
  | case4 found start c first rest hc _ r _ total kind _ _ hfull =>
    exact absurd h (Nat.not_lt_of_le hfull)
  | case5 found start c first rest hc _ r _ total kind _ _ _ tokens faults hscan ih =>
    rw [hscan] at ih
    rw [List.length_append, ← Nat.add_assoc] at h
    obtain ⟨others, hothers⟩ := ih h
    exact ⟨_, .step rfl hc rfl hothers⟩

/-- What is read of a text if not too much is wrong with it. -/
theorem lex_eq_of_few {s : String} (h : (lex s).2.length < Report.capacity) :
    ∃ tokens, Scans ⟨s.toList, Position.first⟩ tokens (lex s).2 ∧
      (lex s).1 = tokens ++ [endToken (place s.toList)] := by
  rw [← Nat.zero_add (lex s).2.length] at h
  obtain ⟨tokens, hscans⟩ := exists_scans h
  have hlex := hscans.scan_eq (Cursor.standsIn_start _) h
  exact ⟨tokens, hscans, congrArg Prod.fst hlex⟩

theorem Scans.lex_eq {s : String} (h : Scans ⟨s.toList, Position.first⟩ tokens faults)
    (hfew : faults.length < Report.capacity) :
    lex s = (tokens ++ [endToken (place s.toList)], faults) :=
  h.scan_eq (Cursor.standsIn_start _) (by rwa [Nat.zero_add])

/-! ### Another start -/

/-- Blanks in front only move a text. -/
theorem Scans.of_skipSpaces (h : Scans c tokens faults) (heq : c.skipSpaces = d.skipSpaces) :
    Scans d tokens faults := by
  cases h with
  | done hnil => exact .done (heq ▸ hnil)
  | step hskip hcons hread hrest => exact .step (heq.symm.trans hskip) hcons hread hrest

theorem skipSpaces_gap (hgap : ∀ c ∈ gap, isSpace c) (rest : List Char) (p : Position) :
    (⟨gap ++ rest, p⟩ : Cursor).skipSpaces = (⟨rest, after p gap⟩ : Cursor).skipSpaces := by
  simp only [Cursor.skipSpaces, List.takeWhile_append_of_pos hgap,
    List.dropWhile_append_of_pos hgap, after, List.foldl_append]

theorem Reading.movedTo_token? {start : Position} (r : Reading) (hp : p.Counted)
    (hstart : start.Counted) (h : start < r.next.position) :
    (r.movedTo p).token? (p.movedTo start) = (r.token? start).map (·.movedTo p) := by
  rw [token?, token?, Option.map_map]
  refine Option.map_congr fun kind _ => ?_
  exact congrArg (Token.mk kind) (movedTo_spanTo hp hstart h).symm

theorem Scans.movedTo (h : Scans c tokens faults) (hc : c.StandsIn source) (hp : p.Counted) :
    Scans (c.movedTo p) (tokens.map (·.movedTo p)) (faults.map (·.movedTo p)) := by
  induction h with
  | done hnil =>
    refine .done ?_
    rw [← Cursor.movedTo_skipSpaces hp hc.counted]
    exact hnil
  | @step c d first rest r tokens faults hskip hcons hread _ ih =>
    subst hskip hread
    have hstart := hc.skipSpaces
    have hnext := (bounded_read hstart hcons).next
    have htoken := Reading.movedTo_token? (read first c.skipSpaces) hp hstart.counted
      (hstart.lt hnext (length_read_lt hcons))
    have hscans := Scans.step (Cursor.movedTo_skipSpaces hp hc.counted).symm hcons
      (movedTo_read hp hstart.counted hcons).symm (ih hnext)
    rw [List.map_append, List.map_append, ← Option.toList_map, ← htoken]
    exact hscans

/-! ### Texts behind each other -/

/-- Behind a text that leaves no string open, the text behind a blank is read as it is alone. -/
theorem Scans.append (h : Scans c tokens faults) (hc : c.StandsIn source)
    (hblank : ∀ c, behind.head? = some c → isSpace c)
    (hclosed : ∀ f ∈ faults, f.fault.code ≠ .unterminatedString)
    (hbehind : Scans ⟨behind, place source⟩ more others) :
    Scans (c.append behind) (tokens ++ more) (faults ++ others) := by
  induction h with
  | @done c hnil =>
    have hgap : ∀ d ∈ c.rest, isSpace d := List.dropWhile_eq_nil_iff.1 hnil
    have hend : Cursor.StandsIn source ⟨[], after c.position c.rest⟩ := by
      apply Cursor.StandsIn.after
      rwa [List.append_nil]
    refine hbehind.of_skipSpaces ?_
    rw [← hend.position_eq rfl]
    exact (skipSpaces_gap hgap behind c.position).symm
  | @step c d first rest r tokens faults hskip hcons hread _ ih =>
    subst hskip hread
    obtain ⟨hfirst, hrest⟩ := List.forall_mem_append.1 hclosed
    have hnext := (bounded_read hc.skipSpaces hcons).next
    have happend := read_append hblank hcons hfirst
    have hscans := Scans.step (Cursor.append_skipSpaces hcons behind)
      (congrArg (· ++ behind) hcons) happend (ih hnext hrest)
    rw [List.append_assoc, List.append_assoc]
    exact hscans

/-- Two texts with blanks between them, by their tokens and faults. -/
theorem lex_gap {a b s : String} (hgap : IsGap gap) (hs : s.toList = a.toList ++ (gap ++ b.toList))
    (hclosed : ∀ f ∈ (lex a).2, f.fault.code ≠ .unterminatedString)
    (hfew : (lex a).2.length + (lex b).2.length < Report.capacity) :
    ∃ tokens, (lex a).1 = tokens ++ [endToken (place a.toList)] ∧
      lex s = (tokens ++ (lex b).1.map (·.movedTo (place (a.toList ++ gap))),
        (lex a).2 ++ (lex b).2.map (·.movedTo (place (a.toList ++ gap)))) := by
  obtain ⟨tokens, hscansA, hlexA⟩ := lex_eq_of_few (Nat.lt_of_le_of_lt (Nat.le_add_right _ _) hfew)
  obtain ⟨others, hscansB, hlexB⟩ := lex_eq_of_few (Nat.lt_of_le_of_lt (Nat.le_add_left _ _) hfew)
  -- The second text, moved to where it starts, and then with the blanks in front of it.
  have hmoved := hscansB.movedTo (Cursor.standsIn_start _)
    (Position.counted_place (a.toList ++ gap))
  have hskip : (⟨gap ++ b.toList, place a.toList⟩ : Cursor).skipSpaces =
      (⟨b.toList, place (a.toList ++ gap)⟩ : Cursor).skipSpaces := by
    rw [skipSpaces_gap hgap.2, Source.after_place]
  have hbehind := hmoved.of_skipSpaces hskip.symm
  have hwhole := hscansA.append (Cursor.standsIn_start _) hgap.head? hclosed hbehind
  have hlast : (endToken (place b.toList)).movedTo (place (a.toList ++ gap)) =
      endToken (place s.toList) := by
    rw [hs, ← List.append_assoc, ← movedTo_place (a.toList ++ gap)]
    rfl
  refine ⟨tokens, hlexA, ?_⟩
  rw [Cursor.append, ← hs] at hwhole
  rw [hlexB, List.map_append, List.map_singleton, hlast, ← List.append_assoc]
  apply hwhole.lex_eq
  rwa [List.length_append, List.length_map]

/-! ### Reports -/

theorem total_report (s : String) : (report s).total = (lex s).2.length := by
  rw [report, Report.ofFaults, Report.ofList_eq, List.length_map]

theorem listed_report {s : String} (h : (lex s).2.length < Report.capacity) :
    (report s).listed = (lex s).2.map (·.diagnostic s) := by
  rw [report, Report.ofFaults, Report.ofList_eq]
  exact List.take_of_length_le (by rw [List.length_map]; exact Nat.le_of_lt h)

/-- Whatever is wrong with two texts, with blanks between them they are read one after the other.
The tokens and faults of the second one are its own, counted from where it starts. -/
theorem lex_apart (a b : String) {gap : List Char} (hgap : IsGap gap)
    (hclosed : ∀ d ∈ (report a).listed, d.code ≠ .unterminatedString)
    (hfew : (report a).total + (report b).total < 20) :
    let whole := a ++ String.ofList gap ++ b
    let p := place (a.toList ++ gap)
    (lex a).1 = (lex a).1.dropLast ++ [endToken (place a.toList)] ∧
      (lex whole).1 = (lex a).1.dropLast ++ (lex b).1.map (·.movedTo p) ∧
      (lex whole).2 = (lex a).2 ++ (lex b).2.map (·.movedTo p) ∧
      (report whole).total = (report a).total + (report b).total ∧
      (report whole).listed.map Diagnostic.unquoted =
        (report a).listed.map Diagnostic.unquoted ++
          (report b).listed.map fun d => (d.movedTo p).unquoted := by
  intro whole p
  rw [total_report, total_report] at hfew
  have hfewA : (lex a).2.length < Report.capacity := Nat.lt_of_le_of_lt (Nat.le_add_right _ _) hfew
  have hfewB : (lex b).2.length < Report.capacity := Nat.lt_of_le_of_lt (Nat.le_add_left _ _) hfew
  have hwhole : whole.toList = a.toList ++ (gap ++ b.toList) := by
    simp only [whole, String.toList_append, String.toList_ofList, List.append_assoc]
  rw [listed_report hfewA, List.forall_mem_map] at hclosed
  obtain ⟨tokens, htokens, hlex⟩ := lex_gap hgap hwhole hclosed hfew
  have hinit : (lex a).1.dropLast = tokens := by rw [htokens, List.dropLast_concat]
  have hfaults : (lex whole).2 = (lex a).2 ++ (lex b).2.map (·.movedTo p) := by rw [hlex]
  have htotal : (lex whole).2.length = (lex a).2.length + (lex b).2.length := by
    rw [hfaults, List.length_append, List.length_map]
  have hlisted := listed_report (htotal.trans_lt hfew)
  refine ⟨?_, ?_, hfaults, ?_, ?_⟩
  · rw [hinit]
    exact htokens
  · rw [hinit, hlex]
  · rw [total_report, total_report, total_report, htotal]
  · rw [hlisted, listed_report hfewA, listed_report hfewB, hfaults]
    simp only [List.map_append, List.map_map]
    -- Without its line a diagnostic is that of the fault and its place, in any text.
    rfl

/-- The halves of an operator on two lines, with faults on each of them. -/
theorem lex_apart_halves :
    let a := "n #\n'\\d' &"
    let b := "& 12 $\n@"
    let whole := "n #\n'\\d' &\n & 12 $\n@"
    (lex whole).1 = (lex a).1.dropLast ++ (lex b).1.map (·.movedTo ⟨3, 2⟩) ∧
      (lex whole).2 = (lex a).2 ++ (lex b).2.map (·.movedTo ⟨3, 2⟩) ∧
      (report whole).total = 6 := by
  intro a b whole
  have hgap : IsGap ['\n', ' '] := ⟨List.cons_ne_nil _ _, List.all_eq_true.1 (by decide)⟩
  have hclosed : ∀ d ∈ (report a).listed, d.code ≠ .unterminatedString := by decide +kernel
  have htotal : (report a).total + (report b).total = 6 := by decide +kernel
  have hwhole : a ++ String.ofList ['\n', ' '] ++ b = whole := by decide +kernel
  have hplace : place (a.toList ++ ['\n', ' ']) = ⟨3, 2⟩ := by decide +kernel
  have hapart := lex_apart a b hgap hclosed (by rw [htotal]; decide)
  simp only [hwhole, hplace] at hapart
  obtain ⟨-, htokens, hfaults, hsum, -⟩ := hapart
  exact ⟨htokens, hfaults, hsum.trans htotal⟩

end Lexer

end JsonTemplate
