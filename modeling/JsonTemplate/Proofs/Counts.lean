import JsonTemplate.Proofs.Codec
import JsonTemplate.Proofs.Reports

/-! The count of a report beside its list. Pushing and extending keep the two in agreement, but the
count of a document is taken as it is written. So the reports that come from documents agree with
their counts exactly if the documents do. -/

namespace JsonTemplate.Report

open Diagnostic (ReadFrom)

variable {r other : Report} {v : Value} {docs : Value → Prop}

/-- The count covers the list, and where nothing is listed nothing is counted. -/
structure Balanced (r : Report) : Prop where
  covered : r.listed.length ≤ r.total
  nothing : r.listed = [] → r.total = 0

/-! ### Pushing and extending -/

theorem balanced_empty : Balanced .empty := ⟨Nat.le_refl 0, fun _ => rfl⟩

theorem listed_push_ne_nil (r : Report) (d : Diagnostic) : (r.push d).listed ≠ [] := by
  by_cases hroom : r.listed.length < capacity
  · rw [listed_push_of_lt d hroom]
    exact List.concat_ne_nil d r.listed
  · rw [listed_push_of_le d (Nat.le_of_not_lt hroom)]
    rintro hnil
    exact hroom (by rw [hnil]; decide)

theorem length_listed_push_le (r : Report) (d : Diagnostic) :
    (r.push d).listed.length ≤ r.listed.length + 1 := by
  by_cases hroom : r.listed.length < capacity
  · rw [listed_push_of_lt d hroom, List.length_append]
    exact Nat.le_refl _
  · rw [listed_push_of_le d (Nat.le_of_not_lt hroom)]
    exact Nat.le_succ _

theorem Balanced.push (h : r.Balanced) (d : Diagnostic) : (r.push d).Balanced where
  covered := Nat.le_trans (r.length_listed_push_le d) (Nat.succ_le_succ h.covered)
  nothing hnil := absurd hnil (r.listed_push_ne_nil d)

theorem Balanced.foldl_push (h : r.Balanced) (ds : List Diagnostic) :
    (ds.foldl Report.push r).Balanced := by
  induction ds generalizing r with
  | nil => exact h
  | cons d rest ih => exact ih (h.push d)

theorem listed_foldl_push_ne_nil {ds : List Diagnostic} (h : ds ≠ []) (r : Report) :
    (ds.foldl push r).listed ≠ [] := by
  obtain ⟨init, d, rfl⟩ := ds.eq_nil_or_concat.resolve_left h
  rw [List.concat_eq_append, List.foldl_append]
  exact listed_push_ne_nil _ d

/-- Where the other report lists nothing, it has nothing to add to the count either. -/
theorem Balanced.extend (h : r.Balanced) (hother : other.Balanced) : (r.extend other).Balanced := by
  have hpushed := h.foldl_push other.listed
  refine ⟨Nat.le_trans hpushed.covered (Nat.le_add_right _ _), fun hnil => ?_⟩
  have hnone : other.listed = [] :=
    Decidable.byContradiction fun hne => listed_foldl_push_ne_nil hne r hnil
  have htotal : other.total = 0 := hother.nothing hnone
  have hzero : (other.listed.foldl Report.push r).total = 0 := hpushed.nothing hnil
  rw [Report.extend, hzero, htotal, Nat.zero_sub]

/-! ### What comes from documents -/

/-- The reports that come about from nothing and from the documents, by pushing diagnostics and by
extending one by another. -/
inductive Arises (docs : Value → Prop) : Report → Prop where
  | empty : Arises docs .empty
  | read {v : Value} {r : Report} : docs v → ofValue? v = some r → Arises docs r
  | push {r : Report} (d : Diagnostic) : Arises docs r → Arises docs (r.push d)
  | extend {r other : Report} : Arises docs r → Arises docs other → Arises docs (r.extend other)

/-- The document counts at least what it lists, and nothing if it lists nothing. -/
inductive CountsItems : Value → Prop where
  | object {fields : Fields Value} {items : List Value} {n : Int} :
    fields.get? "errors" = some (.array items) → fields.get? "total_errors" = some (.int n) →
    items.length ≤ n → (items = [] → n = 0) → CountsItems (.object fields)
  | array {items : List Value} {n : Int} : items.length ≤ n → (items = [] → n = 0) →
    CountsItems (.array [.array items, .int n])

theorem balanced_iff_of_readFrom {items : List Value} (h : ReadFrom items r.listed) :
    r.Balanced ↔ (items.length : Int) ≤ r.total ∧ (items = [] → (r.total : Int) = 0) := by
  have hlength := h.length_eq
  have hnil : items = [] ↔ r.listed = [] := by
    rw [← List.length_eq_zero_iff, hlength, List.length_eq_zero_iff]
  rw [hlength, hnil]
  constructor
  · rintro ⟨hcovered, hnothing⟩
    exact ⟨Int.ofNat_le.2 hcovered, fun h => congrArg _ (hnothing h)⟩
  · rintro ⟨hcovered, hnothing⟩
    exact ⟨Int.ofNat_le.1 hcovered, fun h => Int.ofNat_eq_zero.1 (hnothing h)⟩

/-- A report is in agreement with its count if the document is. -/
theorem balanced_iff_countsItems (h : r.IsIn v) : r.Balanced ↔ CountsItems v := by
  cases h with
  | object herrors htotal hitems =>
    rw [balanced_iff_of_readFrom hitems]
    constructor
    · rintro ⟨hcovered, hnothing⟩
      exact .object herrors htotal hcovered hnothing
    · intro h
      cases h with
      | object herrors' htotal' hcovered hnothing =>
        cases herrors.symm.trans herrors'
        cases htotal.symm.trans htotal'
        exact ⟨hcovered, hnothing⟩
  | array hitems =>
    rw [balanced_iff_of_readFrom hitems]
    constructor
    · rintro ⟨hcovered, hnothing⟩
      exact .array hcovered hnothing
    · intro h
      cases h with
      | array hcovered hnothing => exact ⟨hcovered, hnothing⟩

theorem Arises.balanced (hdocs : ∀ v r, docs v → ofValue? v = some r → CountsItems v)
    (h : Arises docs r) : r.Balanced := by
  induction h with
  | empty => exact balanced_empty
  | read hv hread =>
    exact (balanced_iff_countsItems (ofValue?_eq_some.1 hread).2).2 (hdocs _ _ hv hread)
  | push d _ ih => exact ih.push d
  | extend _ _ ih ihother => exact ih.extend ihother

/-! ### What is shown of a report -/

/-- The count covers the list, there are errors exactly if some are listed, and in this case the
number of the others is one less than the count. -/
structure Agrees (r : Report) : Prop where
  covered : r.listed.length ≤ r.total
  hasErrors : r.hasErrors ↔ r.listed ≠ []
  others : r.listed ≠ [] → (r.others : Int) = r.total - 1

theorem others_of_pos (hpos : 0 < r.total) (hroom : r.total < 18446744073709551616) :
    (r.others : Int) = r.total - 1 := by
  rw [others]
  omega

theorem hasErrors_iff : r.hasErrors ↔ 0 < r.total := decide_eq_true_iff

theorem agrees_iff_balanced (hroom : r.total < 18446744073709551616) : r.Agrees ↔ r.Balanced := by
  constructor
  · intro h
    refine ⟨h.covered, fun hnil => Nat.eq_zero_of_not_pos fun hpos => ?_⟩
    exact h.hasErrors.1 (hasErrors_iff.2 hpos) hnil
  · intro h
    have hpos : 0 < r.total ↔ r.listed ≠ [] := by
      constructor
      · rintro hpos hnil
        exact Nat.ne_of_gt hpos (h.nothing hnil)
      · exact fun hne => Nat.lt_of_lt_of_le (List.length_pos_iff.2 hne) h.covered
    exact ⟨h.covered, hasErrors_iff.trans hpos, fun hne => others_of_pos (hpos.2 hne) hroom⟩

/-- All reports that come from documents agree with their counts, as long as these have room,
exactly if each document that can be read counts what it lists. -/
theorem agrees_iff_documents (docs : Value → Prop) :
    (∀ r, Arises docs r → r.total < 18446744073709551616 → r.Agrees) ↔
      ∀ v r, docs v → ofValue? v = some r → CountsItems v := by
  constructor
  · intro h v r hv hread
    obtain ⟨hfits, hin⟩ := ofValue?_eq_some.1 hread
    have hagrees := h r (.read hv hread) hfits.total
    exact (balanced_iff_countsItems hin).1 ((agrees_iff_balanced hfits.total).1 hagrees)
  · intro hdocs r h hroom
    exact (agrees_iff_balanced hroom).2 (h.balanced hdocs)

/-- A document that lists one diagnostic of three, and a report that is extended by itself. -/
theorem agrees_iff_documents_extended :
    let d : Diagnostic :=
      ⟨⟨102⟩, .syntactic, "Unexpected character", ⟨⟨1, 1⟩, ⟨1, 1⟩⟩, "#", none⟩
    let v : Value := .object [("errors", .array [d.toValue]), ("total_errors", .int 3)]
    ofValue? v = some ⟨[d], 3⟩ ∧ CountsItems v ∧
      ((Report.mk [d] 3).extend ⟨[d], 3⟩).listed = [d, d] ∧
      ((Report.mk [d] 3).extend ⟨[d], 3⟩).Agrees := by
  intro d v
  have hread : ofValue? v = some ⟨[d], 3⟩ := by decide +kernel
  have hcounts : CountsItems v := .object rfl rfl (by decide) nofun
  have hdocs : ∀ w r, w = v → ofValue? w = some r → CountsItems w := by
    rintro w r rfl -
    exact hcounts
  have harises : Arises (· = v) ⟨[d], 3⟩ := .read rfl hread
  exact ⟨hread, hcounts, rfl,
    (agrees_iff_documents (· = v)).2 hdocs _ (harises.extend harises) (by decide)⟩

/-- A document that counts one diagnostic and lists two, and one that lists one and counts none. -/
theorem counted_less_than_listed :
    let d : Diagnostic :=
      ⟨⟨102⟩, .syntactic, "Unexpected character", ⟨⟨1, 1⟩, ⟨1, 1⟩⟩, "#", none⟩
    ofValue? (.object [("errors", .array [d.toValue, d.toValue]), ("total_errors", .int 1)]) =
        some ⟨[d, d], 1⟩ ∧
      ¬[d, d].length ≤ (Report.mk [d, d] 1).total ∧
      ofValue? (.object [("errors", .array [d.toValue]), ("total_errors", .int 0)]) =
        some ⟨[d], 0⟩ ∧
      ((Report.mk [d] 0).total : Int) - 1 < 0 ∧ ¬(Report.mk [d] 0).hasErrors := by
  decide +kernel

end JsonTemplate.Report
