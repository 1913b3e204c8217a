import JsonTemplate.Proofs.Template.MarkerText
import JsonTemplate.Proofs.Text.Runs

/-! Which marker is read where several could be. Taking `s=` for a mark comes first, then leaving
out as many blanks as possible in front of the expression, then the shortest expression. -/

namespace JsonTemplate.Marker

variable {s cs : List Char} {n : Nat}

/-! ### The parts of a marker -/

/-- What stands between braces: an expression on one line, and blanks around it. -/
structure Inside where
  before : List Char
  inner : List Char
  after : List Char
  blank_before : ∀ c ∈ before, Text.isBlank c
  inner_ne_nil : inner ≠ []
  one_line : '\n' ∉ inner
  blank_after : ∀ c ∈ after, Text.isBlank c

namespace Inside

/-- With the closing braces, and text behind them. -/
def text (p : Inside) (rest : List Char) : List Char :=
  p.before ++ (p.inner ++ closed p.after rest)

/-- Blanks are rather left out than read, and the expression is rather short than long. -/
def Precedes (p q : Inside) : Prop :=
  q.before.length ≤ p.before.length ∧
    (p.before.length = q.before.length → p.inner.length ≤ q.inner.length)

/-- The text goes on as it does, and is not to be read in a way that comes before. -/
def Leads (p : Inside) (s : List Char) : Prop :=
  (∃ rest, s = p.text rest) ∧ ∀ (q : Inside) (rest : List Char), s = q.text rest → p.Precedes q

theorem hasContent (p : Inside) (rest : List Char) : HasContent (p.inner ++ closed p.after rest) :=
  ⟨p.inner, _, p.inner_ne_nil, p.one_line, ⟨p.after, rest, p.blank_after, rfl⟩, rfl⟩

theorem hasInside (p : Inside) (rest : List Char) : HasInside (p.text rest) :=
  ⟨p.before, _, p.blank_before, p.hasContent rest, rfl⟩

end Inside

structure Parts extends Inside where
  asText : Bool

namespace Parts

/-- What stands behind the opening braces. -/
def body (p : Parts) (rest : List Char) : List Char :=
  if p.asText then 's' :: '=' :: p.text rest else p.text rest

def raw (p : Parts) : List Char := '{' :: '{' :: p.body []

def marker (p : Parts) : Marker := ⟨p.raw, p.inner, p.asText⟩

/-- The mark is rather read than not. -/
def Precedes (p q : Parts) : Prop :=
  (q.asText → p.asText) ∧ (p.asText = q.asText → p.toInside.Precedes q.toInside)

def Leads (p : Parts) (s : List Char) : Prop :=
  (∃ rest, s = p.body rest) ∧ ∀ (q : Parts) (rest : List Char), s = q.body rest → p.Precedes q

theorem raw_append (p : Parts) (rest : List Char) : p.raw ++ rest = '{' :: '{' :: p.body rest := by
  unfold raw body Inside.text closed
  cases p.asText <;> simp

theorem markerText (p : Parts) : MarkerText p.raw := by
  unfold raw body Inside.text closed
  cases p.asText with
  | false => exact .mk (.inl rfl) p.blank_before p.inner_ne_nil p.one_line p.blank_after
  | true => exact .mk (.inr rfl) p.blank_before p.inner_ne_nil p.one_line p.blank_after

end Parts

/-- The marker that a text starts with, of all ways to read one the first. -/
def IsFirst (s : List Char) (m : Marker) : Prop :=
  ∃ p : Parts, p.marker = m ∧ p.raw <+: s ∧ ∀ q : Parts, q.raw <+: s → p.Precedes q

/-! ### What is read comes first -/

theorem exists_of_closing? (h : closing? s = some n) :
    ∃ after rest, (∀ c ∈ after, Text.isBlank c) ∧ s = closed after rest ∧ n = after.length + 2 := by
  unfold closing? at h
  split at h
  · next rest hrest =>
    cases h
    refine ⟨s.takeWhile Text.isBlank, rest, mem_takeWhile, ?_, rfl⟩
    rw [closed, ← hrest, List.takeWhile_append_dropWhile]
  · cases h

theorem exists_of_content? (h : content? s = some (cs, n)) :
    ∃ p : Inside, p.before = [] ∧ p.inner = cs ∧ (∃ rest, s = p.text rest) ∧
      n = (p.text []).length ∧
      ∀ inner t, inner ≠ [] → Closes t → s = inner ++ t → cs.length ≤ inner.length := by
  induction s generalizing cs n with
  | nil => cases h
  | cons c s ih =>
    rw [content?] at h
    split at h
    · cases h
    · next hc =>
      cases hclosing : closing? s with
      | some k =>
        rw [hclosing] at h
        cases h
        obtain ⟨after, rest, hafter, rfl, rfl⟩ := exists_of_closing? hclosing
        have hline : '\n' ∉ [c] := by simpa using Ne.symm hc
        refine ⟨⟨[], [c], after, List.forall_mem_nil _, List.cons_ne_nil c [], hline, hafter⟩,
          rfl, rfl, ⟨rest, rfl⟩, ?_, fun inner _ hinner _ _ => List.length_pos_iff.2 hinner⟩
        simp [Inside.text, closed]
      | none =>
        simp only [hclosing, Option.map_eq_some_iff, Prod.exists, Prod.mk.injEq] at h
        obtain ⟨cs', k, hcontent, rfl, rfl⟩ := h
        obtain ⟨p, hbefore, rfl, ⟨rest, htext⟩, rfl, hshort⟩ := ih hcontent
        have hline : '\n' ∉ c :: p.inner := by simpa [p.one_line] using Ne.symm hc
        refine ⟨⟨[], c :: p.inner, p.after, List.forall_mem_nil _, List.cons_ne_nil _ _, hline,
          p.blank_after⟩, rfl, rfl, ⟨rest, ?_⟩, ?_, ?_⟩
        · rw [htext, Inside.text, hbefore]
          rfl
        · simp [Inside.text, closed, hbefore]
        · rintro (_ | ⟨d, inner⟩) t hinner hcloses hs
          · exact absurd rfl hinner
          · obtain ⟨-, hbehind⟩ := List.cons.inj hs
            refine Nat.succ_le_succ (hshort inner t ?_ hcloses hbehind)
            -- An expression of one character would have ended in front of the rest.
            rintro rfl
            have hsome := isSome_closing?.2 hcloses
            rw [← show s = t from hbehind, hclosing] at hsome
            cases hsome

theorem exists_of_contentAfter? {blanks : Nat} (h : contentAfter? s blanks = some (cs, n)) :
    ∃ j ≤ blanks, ∃ k, n = j + k ∧ content? (s.drop j) = some (cs, k) ∧
      ∀ i, j < i → i ≤ blanks → content? (s.drop i) = none := by
  induction blanks with
  | zero => exact ⟨0, Nat.le_refl 0, n, (Nat.zero_add n).symm, h, fun i hi hle => by omega⟩
  | succ blanks ih =>
    rw [contentAfter?] at h
    cases hcontent : content? (s.drop (blanks + 1)) with
    | some found =>
      obtain ⟨cs', k⟩ := found
      rw [hcontent] at h
      cases h
      exact ⟨blanks + 1, Nat.le_refl _, k, rfl, hcontent, fun i hi hle => by omega⟩
    | none =>
      rw [hcontent] at h
      obtain ⟨j, hj, k, hn, hfound, hnone⟩ := ih h
      refine ⟨j, Nat.le_succ_of_le hj, k, hn, hfound, fun i hi hle => ?_⟩
      rcases Nat.le_or_eq_of_le_succ hle with hle | rfl
      · exact hnone i hi hle
      · exact hcontent

theorem exists_of_inside? (h : inside? s = some (cs, n)) :
    ∃ p : Inside, p.inner = cs ∧ n = (p.text []).length ∧ p.Leads s := by
  obtain ⟨j, hj, k, rfl, hcontent, hnone⟩ := exists_of_contentAfter? h
  obtain ⟨p, hbefore, rfl, ⟨rest, htext⟩, rfl, hshort⟩ := exists_of_content? hcontent
  have hstart : s.take j <+: s.takeWhile Text.isBlank :=
    List.prefix_of_prefix_length_le (List.take_prefix j s) (List.takeWhile_prefix _)
      (Nat.le_trans (List.length_take_le j s) hj)
  have hlength : (s.take j).length = j :=
    List.length_take_of_le (Nat.le_trans hj (List.takeWhile_prefix _).length_le)
  rw [Inside.text, hbefore, List.nil_append] at htext
  refine ⟨⟨s.take j, p.inner, p.after, fun c hc => mem_takeWhile c (hstart.subset hc),
    p.inner_ne_nil, p.one_line, p.blank_after⟩, rfl, ?_, ⟨rest, ?_⟩, fun q rest' hs => ?_⟩
  · simp [Inside.text, hbefore, hlength]
  · rw [Inside.text, ← htext, List.take_append_drop]
  · have hblanks : q.before.length ≤ (s.takeWhile Text.isBlank).length := by
      rw [hs, Inside.text, List.takeWhile_append_of_pos q.blank_before, List.length_append]
      exact Nat.le_add_right _ _
    have hdrop : s.drop q.before.length = q.inner ++ closed q.after rest' := by
      rw [hs, Inside.text, List.drop_left]
    constructor
    · refine Nat.le_of_not_lt fun hlt => ?_
      have hsome := isSome_content?.2 (q.hasContent rest')
      rw [hlength] at hlt
      rw [← hdrop, hnone _ hlt hblanks] at hsome
      cases hsome
    · intro hsame
      rw [← hsame, hlength] at hdrop
      exact hshort _ _ q.inner_ne_nil ⟨q.after, rest', q.blank_after, rfl⟩ hdrop

theorem Inside.Leads.marked {p : Inside} (h : p.Leads s) :
    Parts.Leads ⟨p, true⟩ ('s' :: '=' :: s) := by
  obtain ⟨⟨rest, htext⟩, hfirst⟩ := h
  refine ⟨⟨rest, congrArg ('s' :: '=' :: ·) htext⟩, fun q rest' hs => ⟨fun _ => rfl, ?_⟩⟩
  obtain ⟨q, asText⟩ := q
  rintro (rfl : true = asText)
  exact hfirst q rest' (List.cons.inj (List.cons.inj hs).2).2

/-- What stands behind the braces is read from there on if nothing is read behind a mark. -/
theorem Inside.Leads.unmarked {p : Inside} (h : p.Leads s)
    (hnone : ∀ w, s = 's' :: '=' :: w → inside? w = none) : Parts.Leads ⟨p, false⟩ s := by
  obtain ⟨htext, hfirst⟩ := h
  refine ⟨htext, fun q rest hs => ?_⟩
  obtain ⟨q, asText⟩ := q
  cases asText with
  | false => exact ⟨id, fun _ => hfirst q rest hs⟩
  | true =>
    have hsome := isSome_inside?.2 (q.hasInside rest)
    rw [hnone _ hs] at hsome
    cases hsome

theorem exists_of_body? {b : Bool} (h : body? s = some (cs, b, n)) :
    ∃ p : Parts, p.inner = cs ∧ p.asText = b ∧ n = (p.body []).length ∧ p.Leads s := by
  have hplain (hnone : ∀ w, s = 's' :: '=' :: w → inside? w = none)
      (h : (inside? s).map (fun found => (found.1, false, found.2)) = some (cs, b, n)) :
      ∃ p : Parts, p.inner = cs ∧ p.asText = b ∧ n = (p.body []).length ∧ p.Leads s := by
    simp only [Option.map_eq_some_iff, Prod.exists, Prod.mk.injEq] at h
    obtain ⟨cs', k, hinside, rfl, rfl, rfl⟩ := h
    obtain ⟨p, rfl, hn, hleads⟩ := exists_of_inside? hinside
    exact ⟨⟨p, false⟩, rfl, rfl, hn, hleads.unmarked hnone⟩
  unfold body? at h
  split at h
  · next w =>
    split at h
    · next cs' k hinside =>
      cases h
      obtain ⟨p, rfl, rfl, hleads⟩ := exists_of_inside? hinside
      exact ⟨⟨p, true⟩, rfl, rfl, rfl, hleads.marked⟩
    · next hnone =>
      refine hplain (fun w' hw => ?_) h
      cases hw
      exact hnone
  · next hother => exact hplain (fun w hw => absurd hw (hother w)) h

theorem isFirst_of_at? {m : Marker} (h : at? s = some m) : IsFirst s m := by
  unfold at? at h
  split at h
  · next s =>
    simp only [Option.map_eq_some_iff, Prod.exists] at h
    obtain ⟨cs, b, n, hbody, rfl⟩ := h
    obtain ⟨p, rfl, rfl, rfl, ⟨rest, rfl⟩, hfirst⟩ := exists_of_body? hbody
    have htake : (p.raw ++ rest).take ((p.body []).length + 2) = p.raw := List.take_left' rfl
    rw [← p.raw_append]
    refine ⟨p, ?_, List.prefix_append _ _, fun q hq => ?_⟩
    · rw [htake]
      rfl
    · obtain ⟨rest', hq⟩ := hq
      rw [p.raw_append, q.raw_append] at hq
      exact hfirst q rest' (List.cons.inj (List.cons.inj hq).2).2.symm
  · cases h

/-! ### The first way to read a marker -/

theorem Inside.eq_of_precedes {p q : Inside} {rest rest' : List Char}
    (h : p.text rest = q.text rest') (hpq : p.Precedes q) (hqp : q.Precedes p) : p = q := by
  have hlength : p.before.length = q.before.length := Nat.le_antisymm hqp.1 hpq.1
  obtain ⟨hbefore, h⟩ := List.append_inj h hlength
  obtain ⟨hinner, h⟩ := List.append_inj h
    (Nat.le_antisymm (hpq.2 hlength) (hqp.2 hlength.symm))
  have hafter : p.after = q.after := by
    have hstop (t : List Char) : ∀ c, ('}' :: '}' :: t).head? = some c → ¬Text.isBlank c := by
      rintro c ⟨⟩
      decide
    rw [← takeWhile_append_stop p.blank_after (hstop rest),
      ← takeWhile_append_stop q.blank_after (hstop rest')]
    exact congrArg (List.takeWhile Text.isBlank) h
  cases p
  cases q
  cases hbefore
  cases hinner
  cases hafter
  rfl

theorem IsFirst.unique {m m' : Marker} (h : IsFirst s m) (h' : IsFirst s m') : m = m' := by
  obtain ⟨⟨p, asText⟩, rfl, ⟨rest, hp⟩, hfirst⟩ := h
  obtain ⟨⟨q, asText'⟩, rfl, ⟨rest', hq⟩, hfirst'⟩ := h'
  have hpq := hfirst _ ⟨rest', hq⟩
  have hqp := hfirst' _ ⟨rest, hp⟩
  obtain rfl : asText = asText' := Bool.eq_iff_iff.2 ⟨hqp.1, hpq.1⟩
  rw [← hq, Parts.raw_append, Parts.raw_append] at hp
  have hbody := (List.cons.inj (List.cons.inj hp).2).2
  have htext : p.text rest = q.text rest' := by
    cases asText with
    | false => exact hbody
    | true => exact (List.cons.inj (List.cons.inj hbody).2).2
  rw [Inside.eq_of_precedes htext (hpq.2 rfl) (hqp.2 rfl)]

/-- Where a text starts with markers, the first one is read. -/
theorem at?_eq_some_iff {m : Marker} : at? s = some m ↔ IsFirst s m := by
  refine ⟨isFirst_of_at?, fun h => ?_⟩
  have hsome : (at? s).isSome := by
    obtain ⟨p, -, hp, -⟩ := h
    exact isSome_at?.2 ⟨p.raw, p.markerText, hp⟩
  obtain ⟨m', hm'⟩ := Option.isSome_iff_exists.1 hsome
  rw [hm', h.unique (isFirst_of_at? hm')]

end JsonTemplate.Marker
