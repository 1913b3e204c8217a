import JsonTemplate.Proofs.Template.Agreement
import JsonTemplate.Proofs.Template.Failures
import JsonTemplate.Proofs.Template.Preference
import JsonTemplate.Proofs.Text.ByteOrder

/-! Texts with markers in them. Each marker of the text gives way to the text of its value, and
what stands between the markers stays. If a program fails, the error is that of the first marker in
the order of bytes. -/

namespace JsonTemplate

/-! ### One marker behind the other -/

section Scan
variable {gap behind s last : List Char} {pieces : List (List Char × Marker)}

/-- No marker starts in the gap, given what is behind it. -/
def Unmarked (gap behind : List Char) : Prop :=
  ∀ t, t ≠ [] → t <:+ gap → ¬∃ w, MarkerText w ∧ w <+: t ++ behind

/-- The markers of a text from left to right, each with the gap in front of it, and the last gap.
The next marker starts as early as it can behind the one before it. -/
inductive Scan : List Char → List (List Char × Marker) → List Char → Prop where
  | done {gap : List Char} : Unmarked gap [] → Scan gap [] gap
  | marker {gap rest last : List Char} {m : Marker} {pieces : List (List Char × Marker)} :
    Unmarked gap (m.raw ++ rest) → m.IsFirst (m.raw ++ rest) → Scan rest pieces last →
    Scan (gap ++ (m.raw ++ rest)) ((gap, m) :: pieces) last

/-- The gaps, with the given texts in place of the markers. -/
def weave (filler : Marker → List Char) (pieces : List (List Char × Marker)) (last : List Char) :
    List Char :=
  (pieces.flatMap fun piece => piece.1 ++ filler piece.2) ++ last

theorem Scan.weave_raw (h : Scan s pieces last) : weave Marker.raw pieces last = s := by
  induction h with
  | done => rfl
  | marker _ _ _ ih =>
    rw [← ih]
    simp [weave]

theorem weave_congr {f g : Marker → List Char} (h : ∀ piece ∈ pieces, f piece.2 = g piece.2) :
    weave f pieces last = weave g pieces last :=
  congrArg (· ++ last) (List.flatMap_congr fun piece hpiece => by rw [h piece hpiece])

theorem Marker.at?_eq_none_iff : Marker.at? s = none ↔ ¬∃ w, MarkerText w ∧ w <+: s := by
  rw [← Marker.isSome_at?, Option.not_isSome_iff_eq_none]

theorem unmarked_nil (behind : List Char) : Unmarked [] behind :=
  fun _ hne ht => absurd (List.suffix_nil.1 ht) hne

theorem Unmarked.cons {c : Char} (h : Unmarked gap behind)
    (hat : Marker.at? (c :: (gap ++ behind)) = none) : Unmarked (c :: gap) behind := by
  intro t hne ht
  rcases List.suffix_cons_iff.1 ht with rfl | ht
  · exact Marker.at?_eq_none_iff.1 hat
  · exact h t hne ht

/-! ### Pieces of a text -/

namespace Segment

/-- The pieces of gaps and markers. -/
def ofScan (pieces : List (List Char × Marker)) (last : List Char) : List Segment :=
  (pieces.flatMap fun piece => piece.1.map char ++ [marker piece.2]) ++ last.map char

theorem markers_map_char (cs : List Char) : markers (cs.map char) = [] := by
  induction cs with
  | nil => rfl
  | cons c cs ih => exact ih

theorem markers_ofScan : markers (ofScan pieces last) = pieces.map Prod.snd := by
  induction pieces with
  | nil => exact markers_map_char last
  | cons piece pieces ih =>
    have hgap : markers (piece.1.map char ++ [marker piece.2] ++ ofScan pieces last) =
        piece.2 :: markers (ofScan pieces last) := by
      rw [markers, List.filterMap_append, List.filterMap_append]
      exact congrArg (· ++ [piece.2] ++ markers (ofScan pieces last)) (markers_map_char piece.1)
    rw [List.map_cons, ← ih, ← hgap]
    simp [ofScan]

theorem fill_map_char (filler : Marker → List Char) (cs : List Char) :
    fill filler (cs.map char) = cs := by
  induction cs with
  | nil => rfl
  | cons c cs ih => exact congrArg (c :: ·) ih

theorem fill_ofScan (filler : Marker → List Char) :
    fill filler (ofScan pieces last) = weave filler pieces last := by
  induction pieces with
  | nil => exact fill_map_char filler last
  | cons piece pieces ih =>
    have hgap : fill filler (piece.1.map char ++ (marker piece.2 :: ofScan pieces last)) =
        piece.1 ++ (filler piece.2 ++ fill filler (ofScan pieces last)) := by
      rw [fill, List.flatMap_append]
      exact congrArg (· ++ _) (fill_map_char filler piece.1)
    rw [ih] at hgap
    simpa [ofScan, weave] using hgap

theorem ofText_unmarked (h : Unmarked gap behind) :
    ofText (gap ++ behind) = gap.map char ++ ofText behind := by
  induction gap with
  | nil => rfl
  | cons c gap ih =>
    have hat : Marker.at? (c :: (gap ++ behind)) = none :=
      Marker.at?_eq_none_iff.2 (h (c :: gap) (List.cons_ne_nil c gap) (List.suffix_refl _))
    have hgap : Unmarked gap behind := fun t hne ht => h t hne (ht.trans (List.suffix_cons c gap))
    rw [List.cons_append, ofText_char hat, ih hgap]
    rfl

end Segment

/-- A text is read as its markers stand one behind the other. -/
theorem Scan.ofText_eq (h : Scan s pieces last) :
    Segment.ofText s = Segment.ofScan pieces last := by
  induction h with
  | @done gap hgap =>
    have htext := Segment.ofText_unmarked hgap
    rwa [List.append_nil, Segment.ofText.eq_1, List.append_nil] at htext
  | marker hgap hfirst _ ih =>
    rw [Segment.ofText_unmarked hgap, Segment.ofText_marker (Marker.at?_eq_some_iff.2 hfirst), ih]
    simp [Segment.ofScan]

theorem Scan.markers_eq (h : Scan s pieces last) :
    Segment.markers (Segment.ofText s) = pieces.map Prod.snd := by
  rw [h.ofText_eq, Segment.markers_ofScan]

/-- A marker is known by its text, in whatever text it stands. -/
theorem Scan.eq_of_text {s' last' : List Char} {others : List (List Char × Marker)}
    {piece other : List Char × Marker} (h : Scan s pieces last) (h' : Scan s' others last')
    (hpiece : piece ∈ pieces) (hother : other ∈ others) (htext : piece.2.text = other.2.text) :
    piece.2 = other.2 :=
  Segment.eq_of_text (h.markers_eq ▸ List.mem_map_of_mem hpiece)
    (h'.markers_eq ▸ List.mem_map_of_mem hother) htext

theorem exists_scan (s : List Char) : ∃ pieces last, Scan s pieces last := by
  induction s using Segment.ofText.induct with
  | case1 => exact ⟨[], [], .done (unmarked_nil [])⟩
  | case2 c rest m hat ih =>
    obtain ⟨pieces, last, hscan⟩ := ih
    obtain ⟨behind, hbehind⟩ := Marker.prefix_of_at? hat
    -- The first character of the marker is not part of `rest`.
    have hdrop : rest.drop (m.raw.length - 1) = behind := by
      obtain ⟨first, more, hraw⟩ := List.exists_cons_of_ne_nil (Marker.raw_ne_nil_of_at? hat)
      rw [hraw] at hbehind ⊢
      rw [← (List.cons.inj hbehind).2]
      exact List.drop_left
    rw [hdrop] at hscan
    rw [← hbehind] at hat ⊢
    exact ⟨([], m) :: pieces, last,
      .marker (unmarked_nil _) (Marker.at?_eq_some_iff.1 hat) hscan⟩
  | case3 c rest hat ih =>
    obtain ⟨pieces, last, hscan⟩ := ih
    cases hscan with
    | done hgap =>
      exact ⟨[], c :: rest, .done (hgap.cons (by rwa [List.append_nil]))⟩
    | @marker gap behind _ m pieces hgap hfirst hscan =>
      exact ⟨(c :: gap, m) :: pieces, last, .marker (hgap.cons hat) hfirst hscan⟩

end Scan

/-! ### The programs of a text -/

namespace TextTemplate

open Interpretation

variable {o : Options} {text : String} {programs : Fields Program} {c : Context}

section Added
variable (h : addPrograms o (markersOf text) [] = .ok programs)
include h

theorem ordered_of_addPrograms : programs.Ordered := by
  have hordered : (compiled o (distinctMarkers text)).Ordered :=
    Fields.ordered_mapValues.2 (Fields.ordered_ofList _)
  rw [compiled_distinctMarkers h] at hordered
  exact Fields.ordered_mapValues.1 hordered

theorem map_get?_of_addPrograms (name : String) :
    (programs.get? name).map Except.ok =
      ((distinctMarkers text).get? name).map fun m => o.compile (String.ofList m.source) := by
  rw [← Fields.get?_mapValues, ← compiled_distinctMarkers h, compiled, Fields.get?_mapValues]

theorem exists_get?_of_addPrograms {m : Marker} (hm : m ∈ markersOf text) :
    ∃ p, programs.get? m.text = some p ∧ Program.compile o (String.ofList m.source) = .ok p := by
  have hget := map_get?_of_addPrograms h m.text
  rw [get?_distinctMarkers hm, Option.map_some] at hget
  obtain ⟨p, hp, hcompile⟩ := Option.map_eq_some_iff.1 hget
  exact ⟨p, hp, compile_eq_ok.1 hcompile.symm⟩

theorem mem_names_of_addPrograms {name : String} :
    name ∈ programs.names ↔ ∃ m ∈ markersOf text, m.text = name := by
  constructor
  · intro hname
    obtain ⟨p, hp⟩ := Option.ne_none_iff_exists'.1 fun hnone =>
      Fields.get?_eq_none_iff.1 hnone hname
    have hget := map_get?_of_addPrograms h name
    rw [hp, Option.map_some, eq_comm] at hget
    obtain ⟨m, hm, -⟩ := Option.map_eq_some_iff.1 hget
    obtain ⟨m', hm', hentry⟩ := List.mem_map.1 (Fields.mem_of_get?_ofList hm)
    exact ⟨m', hm', (Prod.mk.inj hentry).1⟩
  · rintro ⟨m, hm, rfl⟩
    obtain ⟨p, hp, -⟩ := exists_get?_of_addPrograms h hm
    exact List.mem_map_of_mem (Fields.mem_of_get? hp)

end Added

/-! ### What the programs give -/

/-- All programs run, with the values given for the texts of their markers. -/
def Yields (programs : Fields Program) (c : Context) (v : String → Value) : Prop :=
  ∀ name p, programs.get? name = some p → p.run c.vars = .ok (v name)

/-- The program of the marker fails. -/
def FailsAt (programs : Fields Program) (c : Context) (name : String) (cause : EvalError) : Prop :=
  ∃ p, programs.get? name = some p ∧ p.run c.vars = .error cause

theorem exists_failsAt (h : ¬∃ v, Yields programs c v) :
    ∃ name cause, FailsAt programs c name cause := by
  by_contra hnone
  refine h ⟨fun name => ((programs.get? name).bind fun p => (p.run c.vars).toOption).getD .null,
    fun name p hp => ?_⟩
  cases hrun : p.run c.vars with
  | ok v => simp [hp, hrun, Except.toOption]
  | error cause => exact absurd ⟨name, cause, p, hp, hrun⟩ hnone

theorem exists_emitPrograms {v : String → Value}
    (h : ∀ entry ∈ programs, entry.2.run c.vars = .ok (v entry.1)) :
    ∃ found, emitPrograms c programs = .ok found ∧
      ∀ name ∈ programs.names, found.get? name = some (v name).displayText := by
  induction programs with
  | nil => exact ⟨[], rfl, nofun⟩
  | cons entry rest ih =>
    obtain ⟨key, p⟩ := entry
    obtain ⟨hp, hrest⟩ := List.forall_mem_cons.1 h
    obtain ⟨found, hfound, hget⟩ := ih hrest
    refine ⟨(key, (v key).displayText) :: found, ?_, fun name hname => ?_⟩
    · exact bind_eq_ok.2 ⟨v key, Program.emit_eq_ok.2 hp, bind_eq_ok.2 ⟨found, hfound, rfl⟩⟩
    · by_cases hkey : name = key
      · rw [hkey]
        exact if_pos rfl
      · exact (if_neg hkey).trans (hget name ((List.mem_cons.1 hname).resolve_left hkey))

/-- The programs run in the order of their names, so the least of those that fail is the one that
the error is of. -/
theorem exists_least_failure (hordered : programs.Ordered)
    (h : ∃ entry ∈ programs, ∃ cause, entry.2.run c.vars = .error cause) :
    ∃ name p cause, (name, p) ∈ programs ∧ p.run c.vars = .error cause ∧
      emitPrograms c programs = .error (.evaluation p.source cause) ∧
      ∀ entry ∈ programs, (∃ cause', entry.2.run c.vars = .error cause') → name ≤ entry.1 := by
  induction programs with
  | nil =>
    obtain ⟨entry, hentry, -⟩ := h
    cases hentry
  | cons head rest ih =>
    obtain ⟨key, p⟩ := head
    obtain ⟨hfirst, hrest⟩ := List.pairwise_cons.1 hordered
    cases hrun : p.run c.vars with
    | error cause =>
      refine ⟨key, p, cause, List.mem_cons_self, hrun,
        bind_eq_error.2 (.inl (Program.emit_eq_error.2 ⟨cause, hrun, rfl⟩)), ?_⟩
      intro entry hentry _
      rcases List.mem_cons.1 hentry with rfl | hentry
      · exact String.le_refl key
      · exact Std.le_of_lt (hfirst entry hentry)
    | ok v =>
      have hlater {entry : String × Program} (hentry : entry ∈ (key, p) :: rest)
          (hcause : ∃ cause, entry.2.run c.vars = .error cause) : entry ∈ rest := by
        rcases List.mem_cons.1 hentry with rfl | hentry
        · obtain ⟨cause, hcause⟩ := hcause
          cases hrun.symm.trans hcause
        · exact hentry
      obtain ⟨entry, hentry, hcause⟩ := h
      obtain ⟨name, q, cause, hq, hfails, hemit, hleast⟩ :=
        ih hrest ⟨entry, hlater hentry hcause, hcause⟩
      refine ⟨name, q, cause, List.mem_cons_of_mem _ hq, hfails, ?_, fun entry hentry hcause =>
        hleast entry (hlater hentry hcause) hcause⟩
      exact bind_eq_error.2 (.inr ⟨v, Program.emit_eq_ok.2 hrun, bind_eq_error.2 (.inl hemit)⟩)

end TextTemplate

theorem Node.ofText_eq_interpolation {o : Options} {text : String} {template : TextTemplate}
    (h : ofText o text = .ok (.block (.interpolation template))) :
    template.text = text ∧
      TextTemplate.addPrograms o (markersOf text) [] = .ok template.programs := by
  unfold ofText at h
  simp only at h
  split at h
  · cases h
  · obtain ⟨p, -, h⟩ := bind_eq_ok.1 h
    cases h
  · obtain ⟨programs, hprograms, h⟩ := bind_eq_ok.1 h
    cases h
    exact ⟨rfl, hprograms⟩

/-! ### Filling in -/

section Filling
variable {o : Options} {text : String} {template : TextTemplate} {c : Context}
  {pieces : List (List Char × Marker)} {last : List Char}

theorem Scan.markersOf_eq (hscan : Scan text.toList pieces last) :
    markersOf text = pieces.map Prod.snd :=
  hscan.markers_eq

namespace TextTemplate

section Scanned
variable (h : Node.ofText o text = .ok (.block (.interpolation template)))
  (hscan : Scan text.toList pieces last)
include h hscan

theorem mem_names_of_scan {name : String} :
    name ∈ template.programs.names ↔ ∃ piece ∈ pieces, piece.2.text = name := by
  obtain ⟨-, hprograms⟩ := Node.ofText_eq_interpolation h
  rw [mem_names_of_addPrograms hprograms, hscan.markersOf_eq]
  constructor
  · rintro ⟨m, hm, hname⟩
    obtain ⟨piece, hpiece, rfl⟩ := List.mem_map.1 hm
    exact ⟨piece, hpiece, hname⟩
  · rintro ⟨piece, hpiece, hname⟩
    exact ⟨piece.2, List.mem_map_of_mem hpiece, hname⟩

theorem exists_get?_of_scan {piece : List Char × Marker} (hpiece : piece ∈ pieces) :
    ∃ p, template.programs.get? piece.2.text = some p ∧
      Program.compile o (String.ofList piece.2.source) = .ok p :=
  exists_get?_of_addPrograms (Node.ofText_eq_interpolation h).2
    (hscan.markersOf_eq ▸ List.mem_map_of_mem hpiece)

/-- Every marker finds the text of its value. -/
theorem exists_found_of_yields {v : String → Value} (hv : Yields template.programs c v) :
    ∃ found, emitPrograms c template.programs = .ok found ∧
      ∀ piece ∈ pieces, found.get? piece.2.text = some (v piece.2.text).displayText := by
  have hordered := ordered_of_addPrograms (Node.ofText_eq_interpolation h).2
  obtain ⟨found, hfound, hget⟩ := exists_emitPrograms (v := v) fun entry hentry =>
    hv _ _ (Fields.get?_of_mem hordered hentry)
  exact ⟨found, hfound, fun piece hpiece =>
    hget _ ((mem_names_of_scan h hscan).2 ⟨piece, hpiece, rfl⟩)⟩

theorem emit_of_yields {v : String → Value} (hv : Yields template.programs c v) :
    (Block.interpolation template).emit c = .ok (.string (String.ofList
      (weave (fun m => (v m.text).displayText.toList) pieces last))) := by
  obtain ⟨found, hfound, hget⟩ := exists_found_of_yields h hscan hv
  have hfill : substitute text found =
      String.ofList (weave (fun m => (v m.text).displayText.toList) pieces last) := by
    rw [substitute, hscan.ofText_eq, Segment.fill_ofScan]
    refine congrArg String.ofList (weave_congr fun piece hpiece => ?_)
    rw [hget piece hpiece]
  rw [Block.emit, emit, hfound, (Node.ofText_eq_interpolation h).1]
  exact congrArg (fun filled => Except.ok (Value.string filled)) hfill

theorem emit_of_not_yields (hnone : ¬∃ v, Yields template.programs c v) :
    ∃ piece ∈ pieces, ∃ cause, FailsAt template.programs c piece.2.text cause ∧
      (∀ name cause', FailsAt template.programs c name cause' →
        Text.utf8 piece.2.text ≤ Text.utf8 name) ∧
      (Block.interpolation template).emit c =
        .error (.evaluation (String.ofList piece.2.source) cause) := by
  have hordered := ordered_of_addPrograms (Node.ofText_eq_interpolation h).2
  obtain ⟨name, cause, p, hp, hrun⟩ := exists_failsAt hnone
  obtain ⟨least, q, cause', hq, hfails, hemit, hleast⟩ :=
    exists_least_failure hordered ⟨_, Fields.mem_of_get? hp, cause, hrun⟩
  obtain ⟨piece, hpiece, rfl⟩ := (mem_names_of_scan h hscan).1 (List.mem_map_of_mem hq)
  have hget := Fields.get?_of_mem hordered hq
  have hsource : q.source = String.ofList piece.2.source := by
    obtain ⟨q', hq', hcompile⟩ := exists_get?_of_scan h hscan hpiece
    cases hget.symm.trans hq'
    exact Program.source_of_compile hcompile
  refine ⟨piece, hpiece, cause', ⟨q, hget, hfails⟩, ?_, ?_⟩
  · rintro name' cause'' ⟨q', hq', hrun'⟩
    exact Text.utf8_le_iff.2 (hleast _ (Fields.mem_of_get? hq') ⟨cause'', hrun'⟩)
  · rw [Block.emit, emit, hemit, ← hsource]
    rfl

end Scanned

/-- Filling in a text is one pass over it. Its programs are those of the expressions in its
markers, one for each text of a marker. If all of them run, the gaps stay and each marker gives way
to the text of its value. Otherwise the error is that of the least marker that fails, in the order
of bytes. -/
theorem emit_scan (h : Node.ofText o text = .ok (.block (.interpolation template))) :
    template.text = text ∧ template.programs.Ordered ∧
      (∃ pieces last, Scan text.toList pieces last) ∧
      ∀ pieces last, Scan text.toList pieces last →
        weave Marker.raw pieces last = text.toList ∧
        (∀ name, name ∈ template.programs.names ↔ ∃ piece ∈ pieces, piece.2.text = name) ∧
        (∀ s' others last', Scan s' others last' → ∀ piece ∈ pieces, ∀ other ∈ others,
          piece.2.text = other.2.text → piece.2.source = other.2.source) ∧
        (∀ piece ∈ pieces, ∃ p, template.programs.get? piece.2.text = some p ∧
          Program.compile o (String.ofList piece.2.source) = .ok p) ∧
        ∀ c : Context,
          (∀ v, Yields template.programs c v →
            (∃ found, emitPrograms c template.programs = .ok found ∧ ∀ piece ∈ pieces,
              found.get? piece.2.text = some (v piece.2.text).displayText) ∧
            (Block.interpolation template).emit c = .ok (.string (String.ofList
              (weave (fun m => (v m.text).displayText.toList) pieces last)))) ∧
          ((¬∃ v, Yields template.programs c v) →
            ∃ piece ∈ pieces, ∃ cause, FailsAt template.programs c piece.2.text cause ∧
              (∀ name cause', FailsAt template.programs c name cause' →
                Text.utf8 piece.2.text ≤ Text.utf8 name) ∧
              (Block.interpolation template).emit c =
                .error (.evaluation (String.ofList piece.2.source) cause)) := by
  obtain ⟨htext, hprograms⟩ := Node.ofText_eq_interpolation h
  refine ⟨htext, ordered_of_addPrograms hprograms, exists_scan _, fun pieces last hscan => ?_⟩
  refine ⟨hscan.weave_raw, fun _ => mem_names_of_scan h hscan, ?_,
    fun _ => exists_get?_of_scan h hscan, fun c => ⟨fun v hv => ?_, emit_of_not_yields h hscan⟩⟩
  · intro s' others last' hscan' piece hpiece other hother htexts
    exact congrArg Marker.source (hscan.eq_of_text hscan' hpiece hother htexts)
  · exact ⟨exists_found_of_yields h hscan hv, emit_of_yields h hscan hv⟩

/-- Two markers of the same text share a program. -/
theorem emit_scan_twice :
    ∃ template, Node.ofText .empty "\x7b\x7b a \x7d\x7d, \x7b\x7b a \x7d\x7d" =
        .ok (.block (.interpolation template)) ∧
      template.programs.names = ["\x7b\x7b a \x7d\x7d"] ∧
      ∃ pieces last,
        weave Marker.raw pieces last =
          "\x7b\x7b a \x7d\x7d, \x7b\x7b a \x7d\x7d".toList ∧
        ∀ c v, Yields template.programs c v →
          (Block.interpolation template).emit c = .ok (.string (String.ofList
            (weave (fun m => (v m.text).displayText.toList) pieces last))) := by
  have hnames : (Node.ofText .empty "\x7b\x7b a \x7d\x7d, \x7b\x7b a \x7d\x7d").toOption.map
      (fun n => match n with
        | .block (.interpolation template) => template.programs.names
        | _ => []) = some ["\x7b\x7b a \x7d\x7d"] := by
    decide +kernel
  generalize hnode : Node.ofText .empty "\x7b\x7b a \x7d\x7d, \x7b\x7b a \x7d\x7d" = result
    at hnames
  match result, hnames with
  | .ok (.block (.interpolation template)), hnames =>
    obtain ⟨-, -, ⟨pieces, last, hscan⟩, hall⟩ := emit_scan hnode
    obtain ⟨hraw, -, -, -, hemit⟩ := hall pieces last hscan
    exact ⟨template, rfl, Option.some.inj hnames, pieces, last, hraw,
      fun c v hv => ((hemit c).1 v hv).2⟩

end TextTemplate

end Filling

end JsonTemplate
