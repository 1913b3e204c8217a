import Mathlib.Data.List.Forall2
import JsonTemplate.Diagnostic.Codec
import JsonTemplate.Proofs.Fields

/-! Reports written as documents and read again. What a diagnostic is read from are the values under
nine names, and it says each of them. So reading gives back what was written, and writing what was
read leaves out all that is under other names. -/

namespace JsonTemplate

namespace Value

theorem natBelow?_eq_some {bound n : Nat} {v : Value} :
    natBelow? bound v = some n ↔ v = .int n ∧ n < bound := by
  constructor
  · intro h
    unfold natBelow? at h
    split at h
    · split at h
      · next hbound =>
        cases h
        refine ⟨congrArg Value.int (Int.toNat_of_nonneg hbound.1).symm, ?_⟩
        omega
      · cases h
    · cases h
  · rintro ⟨rfl, h⟩
    have hbound : (0 : Int) ≤ n ∧ (n : Int) < bound := by omega
    exact (if_pos hbound).trans (congrArg some (Int.toNat_natCast n))

theorem string?_eq_some {s : String} {v : Value} : string? v = some s ↔ v = .string s := by
  cases v <;> simp [string?]

end Value

namespace Category

theorem ofText?_eq_some {s : String} {c : Category} : ofText? s = some c ↔ s = c.text := by
  constructor
  · intro h
    unfold ofText? at h
    split at h <;> cases h <;> rfl
  · rintro rfl
    cases c <;> rfl

theorem ofValue?_eq_some {v : Value} {c : Category} :
    ofValue? v = some c ↔ v = .string c.text ∨ v = .object [(c.text, .null)] := by
  constructor
  · intro h
    unfold ofValue? at h
    split at h
    · rw [ofText?_eq_some.1 h]
      exact .inl rfl
    · rw [ofText?_eq_some.1 h]
      exact .inr rfl
    · cases h
  · rintro (rfl | rfl) <;> exact ofText?_eq_some.2 rfl

end Category

/-! ### Diagnostics -/

namespace Diagnostic

variable {d : Diagnostic} {fields : Fields Value} {v : Value}

/-- The numbers are in their ranges: 16 bits for the code, 32 bits for lines and columns. -/
structure Fits (d : Diagnostic) : Prop where
  code : d.code.number < 65536
  line : d.span.start.line < 4294967296
  column : d.span.start.column < 4294967296
  endLine : d.span.stop.line < 4294967296
  endColumn : d.span.stop.column < 4294967296

/-- The fields say what the diagnostic is, if they say more or not. -/
structure IsIn (d : Diagnostic) (fields : Fields Value) : Prop where
  code : fields.get? "code" = some (.int d.code.number)
  category : fields.get? "category" = some (.string d.category.text) ∨
    fields.get? "category" = some (.object [(d.category.text, .null)])
  message : fields.get? "message" = some (.string d.message)
  line : fields.get? "line" = some (.int d.span.start.line)
  column : fields.get? "column" = some (.int d.span.start.column)
  endLine : fields.get? "end_line" = some (.int d.span.stop.line)
  endColumn : fields.get? "end_column" = some (.int d.span.stop.column)
  sourceLine : fields.get? "source_line" = some (.string d.sourceLine)
  suggestion : (fields.get? "suggestion").filter (!·.isNull) = d.suggestion.map .string

theorem suggestion?_eq_some {s : Option String} :
    suggestion? fields = some s ↔
      (fields.get? "suggestion").filter (!·.isNull) = s.map .string := by
  unfold suggestion?
  rcases fields.get? "suggestion" with _ | v
  · cases s <;> simp
  · cases v <;> cases s <;> simp [Value.isNull]

theorem ofValue?_object : ofValue? (.object fields) = some d ↔ d.Fits ∧ d.IsIn fields := by
  simp only [ofValue?, place?, Option.bind_eq_bind, Option.bind_eq_some_iff, Option.pure_def,
    Option.some.injEq, Value.natBelow?_eq_some, Value.string?_eq_some, Category.ofValue?_eq_some,
    suggestion?_eq_some]
  constructor
  · rintro ⟨code, ⟨_, hcode, rfl, hcodeFits⟩, category, ⟨_, hcategory, hspelling⟩, message,
      ⟨_, hmessage, rfl⟩, sourceLine, ⟨_, hsourceLine, rfl⟩, suggestion, hsuggestion,
      line, ⟨_, hline, rfl, hlineFits⟩, column, ⟨_, hcolumn, rfl, hcolumnFits⟩,
      endLine, ⟨_, hendLine, rfl, hendLineFits⟩, endColumn, ⟨_, hendColumn, rfl, hendColumnFits⟩,
      rfl⟩
    refine ⟨⟨hcodeFits, hlineFits, hcolumnFits, hendLineFits, hendColumnFits⟩,
      ⟨hcode, ?_, hmessage, hline, hcolumn, hendLine, hendColumn, hsourceLine, hsuggestion⟩⟩
    rwa [hcategory, Option.some.injEq, Option.some.injEq]
  · rintro ⟨hfits, h⟩
    refine ⟨_, ⟨_, h.code, rfl, hfits.code⟩, d.category, ?_, _, ⟨_, h.message, rfl⟩, _,
      ⟨_, h.sourceLine, rfl⟩, _, h.suggestion, _, ⟨_, h.line, rfl, hfits.line⟩, _,
      ⟨_, h.column, rfl, hfits.column⟩, _, ⟨_, h.endLine, rfl, hfits.endLine⟩, _,
      ⟨_, h.endColumn, rfl, hfits.endColumn⟩, rfl⟩
    exact h.category.elim (fun h => ⟨_, h, .inl rfl⟩) fun h => ⟨_, h, .inr rfl⟩

theorem exists_fields_of_ofValue? (h : ofValue? v = some d) : ∃ fields, v = .object fields := by
  cases v with
  | object fields => exact ⟨fields, rfl⟩
  | _ => cases h

/-- What a diagnostic is written as, in the order of its parts. -/
def entries (d : Diagnostic) : List (String × Value) :=
  [("code", .int d.code.number), ("category", .string d.category.text),
    ("message", .string d.message), ("line", .int d.span.start.line),
    ("column", .int d.span.start.column), ("end_line", .int d.span.stop.line),
    ("end_column", .int d.span.stop.column), ("source_line", .string d.sourceLine)] ++
  match d.suggestion with
    | some s => [("suggestion", .string s)]
    | none => []

theorem toValue_eq (d : Diagnostic) : d.toValue = .object (Fields.ofList d.entries) := rfl

theorem nodup_names_entries (d : Diagnostic) : (Fields.names d.entries).Nodup := by
  obtain ⟨code, category, message, span, sourceLine, suggestion⟩ := d
  cases suggestion with
  | none => exact (by decide : ["code", "category", "message", "line", "column", "end_line",
      "end_column", "source_line"].Nodup)
  | some s => exact (by decide : ["code", "category", "message", "line", "column", "end_line",
      "end_column", "source_line", "suggestion"].Nodup)

theorem get?_entries (d : Diagnostic) (name : String) :
    (Fields.ofList d.entries).get? name = Fields.get? name d.entries :=
  Fields.get?_ofList d.nodup_names_entries

theorem get?_suggestion (d : Diagnostic) :
    (Fields.ofList d.entries).get? "suggestion" = d.suggestion.map .string := by
  rw [get?_entries]
  obtain ⟨code, category, message, span, sourceLine, suggestion⟩ := d
  cases suggestion <;> rfl

theorem isIn_entries (d : Diagnostic) : d.IsIn (Fields.ofList d.entries) where
  code := d.get?_entries "code"
  category := .inl (d.get?_entries "category")
  message := d.get?_entries "message"
  line := d.get?_entries "line"
  column := d.get?_entries "column"
  endLine := d.get?_entries "end_line"
  endColumn := d.get?_entries "end_column"
  sourceLine := d.get?_entries "source_line"
  suggestion := by
    rw [get?_suggestion]
    cases d.suggestion <;> rfl

/-- Reading undoes writing. -/
theorem ofValue?_toValue (h : d.Fits) : ofValue? d.toValue = some d :=
  ofValue?_object.2 ⟨h, d.isIn_entries⟩

/-- The names under which something is read. -/
def keys : List String :=
  ["code", "category", "message", "line", "column", "end_line", "end_column", "source_line",
    "suggestion"]

theorem get?_entries_of_not_mem {name : String} (h : name ∉ keys) :
    Fields.get? name d.entries = none := by
  apply Fields.get?_eq_none_iff.2
  obtain ⟨code, category, message, span, sourceLine, suggestion⟩ := d
  cases suggestion with
  | none => exact fun hmem => h (List.subset_append_left _ ["suggestion"] hmem)
  | some s => exact h

/-- The second document is the first without the entries under other names and without a suggestion
that is null. The category is a text in it. -/
inductive Tidies : Value → Value → Prop where
  | object {fields written : Fields Value} {category : String} :
    (fields.get? "category" = some (.string category) ∨
      fields.get? "category" = some (.object [(category, .null)])) →
    written.get? "category" = some (.string category) →
    (∀ name ∈ keys, name ≠ "category" →
      written.get? name = (fields.get? name).filter (!·.isNull)) →
    (∀ name, name ∉ keys → written.get? name = none) → Tidies (.object fields) (.object written)

theorem tidies_toValue (h : ofValue? v = some d) : Tidies v d.toValue := by
  obtain ⟨fields, rfl⟩ := exists_fields_of_ofValue? h
  obtain ⟨-, hread⟩ := ofValue?_object.1 h
  have hwritten := d.isIn_entries
  have hkept {name : String} {w : Value} (hread : Fields.get? name fields = some w)
      (hwritten : Fields.get? name (Fields.ofList d.entries) = some w) (hnull : w.isNull = false) :
      Fields.get? name (Fields.ofList d.entries) =
        (Fields.get? name fields).filter (!·.isNull) := by
    rw [hwritten, hread, Option.filter_some_pos (by rw [hnull]; rfl)]
  rw [toValue_eq]
  refine .object hread.category (d.get?_entries "category") ?_ fun name hname => ?_
  · simp only [keys, List.forall_mem_cons]
    exact ⟨fun _ => hkept hread.code hwritten.code rfl, fun hne => absurd rfl hne,
      fun _ => hkept hread.message hwritten.message rfl,
      fun _ => hkept hread.line hwritten.line rfl,
      fun _ => hkept hread.column hwritten.column rfl,
      fun _ => hkept hread.endLine hwritten.endLine rfl,
      fun _ => hkept hread.endColumn hwritten.endColumn rfl,
      fun _ => hkept hread.sourceLine hwritten.sourceLine rfl,
      fun _ => d.get?_suggestion.trans hread.suggestion.symm, List.forall_mem_nil _⟩
  · rw [get?_entries, get?_entries_of_not_mem hname]

end Diagnostic

/-- The results of a list that all exist, each that of its member. -/
theorem mapM_eq_some {α β : Type} {f : α → Option β} {l : List α} {l' : List β} :
    l.mapM f = some l' ↔ List.Forall₂ (fun a b => f a = some b) l l' := by
  induction l generalizing l' with
  | nil =>
    rw [List.mapM_nil, Option.pure_def, Option.some.injEq, List.forall₂_nil_left_iff]
    exact eq_comm
  | cons a rest ih =>
    simp only [List.mapM_cons, Option.bind_eq_bind, Option.bind_eq_some_iff, Option.pure_def,
      Option.some.injEq, ih, List.forall₂_cons_left_iff]
    constructor
    · rintro ⟨b, hb, bs, hbs, rfl⟩
      exact ⟨b, bs, hb, hbs, rfl⟩
    · rintro ⟨b, bs, hb, hbs, rfl⟩
      exact ⟨b, hb, bs, hbs, rfl⟩

/-- The documents are those that the diagnostics are read from, one by one. -/
abbrev Diagnostic.ReadFrom (items : List Value) (ds : List Diagnostic) : Prop :=
  List.Forall₂ (fun item d => ofValue? item = some d) items ds

theorem Diagnostic.ReadFrom.fits {items : List Value} {ds : List Diagnostic}
    (h : ReadFrom items ds) : ∀ d ∈ ds, d.Fits := by
  induction h with
  | nil => nofun
  | cons hitem _ ih =>
    obtain ⟨fields, rfl⟩ := exists_fields_of_ofValue? hitem
    exact List.forall_mem_cons.2 ⟨(ofValue?_object.1 hitem).1, ih⟩

theorem Diagnostic.readFrom_toValue {ds : List Diagnostic} (h : ∀ d ∈ ds, d.Fits) :
    ReadFrom (ds.map toValue) ds :=
  List.forall₂_map_left_iff.2 (List.forall₂_same.2 fun d hd => ofValue?_toValue (h d hd))

/-! ### Reports -/

namespace Report

open Diagnostic (ReadFrom)

variable {r : Report} {v : Value}

/-- The numbers of the diagnostics are in their ranges, and the count has 64 bits. -/
structure Fits (r : Report) : Prop where
  listed : ∀ d ∈ r.listed, d.Fits
  total : r.total < 18446744073709551616

/-- The document has the list and the count of the report, under their names or in their order. -/
inductive IsIn (r : Report) : Value → Prop where
  | object {fields : Fields Value} {items : List Value} :
    fields.get? "errors" = some (.array items) →
    fields.get? "total_errors" = some (.int r.total) → ReadFrom items r.listed →
    IsIn r (.object fields)
  | array {items : List Value} : ReadFrom items r.listed →
    IsIn r (.array [.array items, .int r.total])

theorem ofParts?_eq_some {errors total : Value} :
    ofParts? errors total = some r ↔
      ∃ items, errors = .array items ∧ total = .int r.total ∧ r.total < 18446744073709551616 ∧
        ReadFrom items r.listed := by
  cases errors with
  | array items =>
    simp only [ofParts?, Option.bind_eq_bind, Option.bind_eq_some_iff, Option.pure_def,
      Option.some.injEq, mapM_eq_some, Value.natBelow?_eq_some]
    constructor
    · rintro ⟨listed, hlisted, n, ⟨rfl, hn⟩, rfl⟩
      exact ⟨items, rfl, rfl, hn, hlisted⟩
    · rintro ⟨_, hitems, rfl, hn, hlisted⟩
      cases hitems
      exact ⟨_, hlisted, _, ⟨rfl, hn⟩, rfl⟩
  | _ =>
    constructor
    · nofun
    · rintro ⟨_, hitems, -⟩
      cases hitems

theorem ofValue?_eq_some : ofValue? v = some r ↔ r.Fits ∧ r.IsIn v := by
  constructor
  · intro h
    unfold ofValue? at h
    split at h
    · next fields =>
      simp only [Option.bind_eq_bind, Option.bind_eq_some_iff] at h
      obtain ⟨_, herrors, _, htotal, h⟩ := h
      obtain ⟨items, rfl, rfl, hfits, hitems⟩ := ofParts?_eq_some.1 h
      exact ⟨⟨hitems.fits, hfits⟩, .object herrors htotal hitems⟩
    · obtain ⟨items, rfl, rfl, hfits, hitems⟩ := ofParts?_eq_some.1 h
      exact ⟨⟨hitems.fits, hfits⟩, .array hitems⟩
    · cases h
  · rintro ⟨hfits, h⟩
    cases h with
    | object herrors htotal hitems =>
      unfold ofValue?
      simp only [herrors, htotal, Option.bind_eq_bind, Option.bind_some]
      exact ofParts?_eq_some.2 ⟨_, rfl, rfl, hfits.total, hitems⟩
    | array hitems => exact ofParts?_eq_some.2 ⟨_, rfl, rfl, hfits.total, hitems⟩

/-- A report as it is written. -/
theorem toValue_eq (r : Report) :
    r.toValue = .object
      [("errors", .array (r.listed.map Diagnostic.toValue)), ("total_errors", .int r.total)] := by
  have hlt : ¬"total_errors" < "errors" := by decide
  have hne : "total_errors" ≠ "errors" := by decide
  simp only [toValue, Fields.ofList, List.foldl_cons, List.foldl_nil, Fields.insert, if_neg hlt,
    if_neg hne]

/-- Reading undoes writing. -/
theorem ofValue?_toValue (h : r.Fits) : ofValue? r.toValue = some r := by
  rw [toValue_eq]
  exact ofValue?_eq_some.2 ⟨h, .object rfl rfl (Diagnostic.readFrom_toValue h.listed)⟩

/-- The second document has the list and the count of the first and nothing else, and in the
diagnostics nothing that they are not read from. -/
inductive Tidies : Value → Value → Prop where
  | object {fields : Fields Value} {items written : List Value} {total : Value} :
    fields.get? "errors" = some (.array items) → fields.get? "total_errors" = some total →
    List.Forall₂ Diagnostic.Tidies items written →
    Tidies (.object fields) (.object [("errors", .array written), ("total_errors", total)])
  | array {items written : List Value} {total : Value} :
    List.Forall₂ Diagnostic.Tidies items written →
    Tidies (.array [.array items, total])
      (.object [("errors", .array written), ("total_errors", total)])

theorem tidies_toValue (h : r.IsIn v) : Tidies v r.toValue := by
  have htidies {items : List Value} (hitems : ReadFrom items r.listed) :
      List.Forall₂ Diagnostic.Tidies items (r.listed.map Diagnostic.toValue) :=
    List.forall₂_map_right_iff.2 (hitems.imp fun _ _ => Diagnostic.tidies_toValue)
  rw [toValue_eq]
  cases h with
  | object herrors htotal hitems => exact .object herrors htotal (htidies hitems)
  | array hitems => exact .array (htidies hitems)

/-- A report survives being written and read, whatever it lists and counts as long as its numbers
have room. A document that is read as a report is written again without what was not read, and
means the same report. -/
theorem survives_writing :
    (∀ r : Report, r.Fits → ofValue? r.toValue = some r) ∧
      ∀ v r, ofValue? v = some r →
        ofValue? r.toValue = some r ∧ Tidies v r.toValue ∧ r.Fits := by
  refine ⟨fun r => ofValue?_toValue, fun v r h => ?_⟩
  obtain ⟨hfits, hread⟩ := ofValue?_eq_some.1 h
  exact ⟨ofValue?_toValue hfits, tidies_toValue hread, hfits⟩

/-- The largest numbers, entries that are not read, and a category that is no text. -/
theorem survives_writing_largest :
    let d : Diagnostic :=
      ⟨⟨65535⟩, .name, "é", ⟨⟨4294967295, 0⟩, ⟨3, 4⟩⟩, "", none⟩
    let r : Report := ⟨[d], 18446744073709551615⟩
    let item : Value := .object [("category", .object [("name", .null)]), ("code", .int 65535),
      ("column", .int 0), ("end_column", .int 4), ("end_line", .int 3), ("extra", .bool true),
      ("line", .int 4294967295), ("message", .string "é"), ("source_line", .string ""),
      ("suggestion", .null)]
    let v : Value := .object [("errors", .array [item]), ("more", .null),
      ("total_errors", .int 18446744073709551615)]
    r.Fits ∧ ofValue? r.toValue = some r ∧ ofValue? v = some r ∧ Tidies v r.toValue := by
  intro d r item v
  have hread : ofValue? v = some r := by decide +kernel
  obtain ⟨-, htidies, hfits⟩ := survives_writing.2 v r hread
  exact ⟨hfits, survives_writing.1 r hfits, hread, htidies⟩

end Report

end JsonTemplate
