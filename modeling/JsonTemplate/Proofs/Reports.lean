import JsonTemplate.Diagnostic.Report

/-! What a report lists and counts, by the diagnostics that it was made of. -/

namespace JsonTemplate.Report

variable {r other : Report}

theorem listed_push_of_lt (d : Diagnostic) (h : r.listed.length < capacity) :
    (r.push d).listed = r.listed ++ [d] := if_pos h

theorem listed_push_of_le (d : Diagnostic) (h : capacity ≤ r.listed.length) :
    (r.push d).listed = r.listed := if_neg (Nat.not_lt_of_le h)

/-- Pushing goes on with the list until it is full. -/
theorem listed_foldl_push (ds : List Diagnostic) (h : r.listed.length ≤ capacity) :
    (ds.foldl push r).listed = (r.listed ++ ds).take capacity := by
  induction ds generalizing r with
  | nil => rw [List.foldl_nil, List.append_nil, List.take_of_length_le h]
  | cons d rest ih =>
    rw [List.foldl_cons, ih (length_push_le d h)]
    rcases Nat.lt_or_eq_of_le h with hlt | hfull
    · rw [listed_push_of_lt d hlt, List.append_assoc, List.singleton_append]
    · rw [listed_push_of_le d (Nat.le_of_eq hfull.symm), List.take_append_of_le_length
        (Nat.le_of_eq hfull.symm), List.take_append_of_le_length (Nat.le_of_eq hfull.symm)]

theorem ofList_eq (ds : List Diagnostic) : ofList ds = ⟨ds.take capacity, ds.length⟩ := by
  have hlisted : (ofList ds).listed = ds.take capacity :=
    listed_foldl_push ds (Nat.zero_le capacity)
  have htotal : (ofList ds).total = 0 + ds.length := total_foldl_push ds empty
  rw [← hlisted, ← Nat.zero_add ds.length, ← htotal]

/-- A report lists all that it counts, up to its capacity. -/
theorem length_listed_ofList (ds : List Diagnostic) :
    (ofList ds).listed.length = min (ofList ds).total capacity := by
  rw [ofList_eq, List.length_take, Nat.min_comm]

theorem length_listed_le (ds : List Diagnostic) : (ofList ds).listed.length ≤ capacity := by
  rw [length_listed_ofList]
  exact Nat.min_le_right _ _

theorem length_listed_le_total (ds : List Diagnostic) :
    (ofList ds).listed.length ≤ (ofList ds).total := by
  rw [length_listed_ofList]
  exact Nat.min_le_left _ _

theorem hasErrors_ofList {ds : List Diagnostic} : (ofList ds).hasErrors ↔ ds ≠ [] := by
  rw [ofList_eq, hasErrors, decide_eq_true_iff]
  exact List.length_pos_iff

theorem ofList_eq_empty {ds : List Diagnostic} : ofList ds = empty ↔ ds = [] := by
  constructor
  · intro h
    rw [ofList_eq] at h
    exact List.eq_nil_of_length_eq_zero (congrArg total h)
  · rintro rfl
    rfl

theorem listed_extend (h : r.listed.length ≤ capacity) :
    (r.extend other).listed = (r.listed ++ other.listed).take capacity :=
  listed_foldl_push other.listed h

/-- Nothing that the other report counts is lost. -/
theorem total_extend (h : other.listed.length ≤ other.total) :
    (r.extend other).total = r.total + other.total := by
  simp only [extend, total_foldl_push]
  omega

/-- A report of two lists, put together from the reports of both. -/
theorem extend_ofList (ds es : List Diagnostic) :
    (ofList ds).extend (ofList es) = ofList (ds ++ es) := by
  have hlisted : ((ofList ds).extend (ofList es)).listed = (ds ++ es).take capacity := by
    have hroom : min (capacity - min capacity ds.length) capacity = capacity - ds.length := by
      omega
    rw [listed_extend (length_listed_le ds), ofList_eq, ofList_eq, List.take_append,
      List.take_append, List.take_take, List.take_take, List.length_take, Nat.min_self, hroom]
  have htotal : ((ofList ds).extend (ofList es)).total = (ds ++ es).length := by
    rw [total_extend (length_listed_le_total es), ofList_eq, ofList_eq, List.length_append]
  rw [ofList_eq (ds ++ es), ← hlisted, ← htotal]

/-! ### Reports in parts -/

theorem push_ofList (ds : List Diagnostic) (d : Diagnostic) :
    (ofList ds).push d = ofList (ds ++ [d]) := by
  rw [ofList, ofList, List.foldl_append, List.foldl_cons, List.foldl_nil]

theorem isFull_ofList {ds : List Diagnostic} : (ofList ds).isFull ↔ capacity ≤ ds.length := by
  rw [ofList_eq, isFull, decide_eq_true_iff]

/-- How diagnostics are collected: one after the other, and whole collections at once. -/
inductive Collection where
  | empty
  | push (c : Collection) (d : Diagnostic)
  | extend (c other : Collection)

namespace Collection

def report : Collection → Report
  | empty => .empty
  | push c d => c.report.push d
  | extend c other => c.report.extend other.report

/-- All diagnostics that were pushed anywhere, in the order in which they come together. -/
def diagnostics : Collection → List Diagnostic
  | empty => []
  | push c d => c.diagnostics ++ [d]
  | extend c other => c.diagnostics ++ other.diagnostics

theorem report_eq_ofList (c : Collection) : c.report = ofList c.diagnostics := by
  induction c with
  | empty => rfl
  | push c d ih => rw [report, ih, push_ofList, diagnostics]
  | extend c other ih ihother => rw [report, ih, ihother, extend_ofList, diagnostics]

/-- Whatever parts a report is collected in, it is that of all diagnostics one after the other. So
it counts them all and lists the first of them, and how the parts are grouped does not matter. -/
theorem report_of_parts (c d e : Collection) :
    c.report = ofList c.diagnostics ∧ c.report.total = c.diagnostics.length ∧
      c.report.listed = c.diagnostics.take (min 20 c.report.total) ∧
      (c.report.isFull ↔ 20 ≤ c.diagnostics.length) ∧
      (c.report.extend d.report).extend e.report = c.report.extend (d.report.extend e.report) ∧
      c.report.extend .empty = c.report ∧ Report.empty.extend c.report = c.report := by
  have hc := report_eq_ofList c
  have hempty : Report.empty = ofList [] := rfl
  have htotal : c.report.total = c.diagnostics.length := by rw [hc, ofList_eq]
  refine ⟨hc, htotal, ?_, ?_, ?_, ?_, ?_⟩
  · rw [htotal, hc, ofList_eq, List.take_eq_take_min]
    rfl
  · rw [hc]
    exact isFull_ofList
  · rw [hc, report_eq_ofList d, report_eq_ofList e, extend_ofList, extend_ofList, extend_ofList,
      extend_ofList, List.append_assoc]
  · rw [hc, hempty, extend_ofList, List.append_nil]
  · rw [hc, hempty, extend_ofList, List.nil_append]

end Collection

end JsonTemplate.Report
