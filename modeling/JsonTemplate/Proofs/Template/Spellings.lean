import JsonTemplate.Proofs.Fields
import JsonTemplate.Proofs.Template.Building

/-! Spellings of controls. What stands beside the key of a control in the short form stands inside
it in the structured form, and the fields of a body can stand under a key of their own. Spellings
that have one form are built alike, and fail alike. An object with several controls in short form
is built like the structured forms inside each other. -/

namespace JsonTemplate

open Form (HasForm)

namespace Fields

variable {α : Type} {names : List String} {name : String} {v : α} {fields : Fields α}

/-- None of the names has an entry. -/
def Lacks (fields : Fields α) (names : List String) : Prop :=
  ∀ name ∈ names, fields.get? name = none

/-- Sets the entry of a name if there is something to set. -/
def insertSome (name : String) (v : Option α) (fields : Fields α) : Fields α :=
  match v with
  | some v => fields.insert name v
  | none => fields

theorem get?_insert_self (name : String) (v : α) (fields : Fields α) :
    (fields.insert name v).get? name = some v := by
  rw [get?_insert, if_pos rfl]

theorem lacks_singleton (hname : name ∉ names) : Lacks [(name, v)] names := by
  intro other hother
  refine if_neg ?_
  rintro rfl
  exact hname hother

theorem without_eq_self (h : fields.Lacks names) : fields.without names = fields := by
  rw [without, List.filter_eq_self]
  intro entry hentry
  rw [decide_eq_true_iff]
  intro hname
  exact get?_eq_none_iff.1 (h _ hname) (List.mem_map_of_mem hentry)

/-- An entry that is left out need not be set. -/
theorem without_insert (hname : name ∈ names) :
    (fields.insert name v).without names = fields.without names := by
  have hdrop (entries : Fields α) (w : α) :
      without names ((name, w) :: entries) = without names entries :=
    List.filter_cons_of_neg (by simpa using hname)
  induction fields with
  | nil => exact hdrop [] v
  | cons entry rest ih =>
    obtain ⟨key, old⟩ := entry
    unfold insert
    split
    · exact hdrop _ v
    split
    · next heq => rw [← heq, hdrop, hdrop]
    · simp only [without, List.filter_cons] at ih ⊢
      rw [ih]

theorem without_insertSome {v : Option α} (hname : name ∈ names) :
    (fields.insertSome name v).without names = fields.without names := by
  cases v with
  | none => rfl
  | some v => exact without_insert hname

theorem without_insert_of_lacks (hname : name ∈ names) (h : fields.Lacks names) :
    (fields.insert name v).without names = fields := by
  rw [without_insert hname, without_eq_self h]

theorem Lacks.insert (h : fields.Lacks names) (hname : name ∉ names) :
    (fields.insert name v).Lacks names := by
  intro other hother
  rw [get?_insert, if_neg]
  · exact h other hother
  · rintro rfl
    exact hname hother

theorem Lacks.insertSome {v : Option α} (h : fields.Lacks names) (hname : name ∉ names) :
    (fields.insertSome name v).Lacks names := by
  cases v with
  | none => exact h
  | some v => exact h.insert hname

theorem Lacks.mono {fewer : List String} (h : fields.Lacks names) (hsubset : fewer ⊆ names) :
    fields.Lacks fewer := fun name hname => h name (hsubset hname)

theorem get?_insertSome (name other : String) (v : Option α) (fields : Fields α)
    (h : fields.get? name = none) :
    (fields.insertSome name v).get? other = if other = name then v else fields.get? other := by
  cases v with
  | none =>
    by_cases hother : other = name
    · rw [if_pos hother, hother]
      exact h
    · rw [if_neg hother]
      rfl
  | some v => exact get?_insert name other v fields

theorem mem_names_insertSome {other : String} {v : Option α}
    (h : other ∈ (fields.insertSome name v).names) : other = name ∨ other ∈ fields.names := by
  cases v with
  | none => exact .inr h
  | some v =>
    obtain ⟨entry, hentry, rfl⟩ := List.mem_map.1 h
    rcases mem_insert hentry with rfl | hentry
    · exact .inl rfl
    · exact .inr (List.mem_map_of_mem hentry)

end Fields

open Fields (get?_insert get?_insert_self get?_insertSome without_insert_of_lacks)

namespace Form

variable {b : Fields Value}

/-! ### Bodies -/

theorem bodyOf_of_lacks (control : Control) (h : b.get? "$body" = none) :
    bodyOf control b = .ok (.object b) :=
  bodyOf_eq_ok.2 (.fields h)

/-- The fields of a body can stand under a key of their own. -/
theorem bodyOf_alone (control : Control) (h : b.get? "$body" = none) :
    bodyOf control [("$body", .object b)] = bodyOf control b := by
  rw [bodyOf_of_lacks control h]
  exact bodyOf_eq_ok.2 (.alone rfl)

/-! ### Forms of the spellings -/

/-- The condition beside its branch. -/
theorem hasForm_shortConditional {c : Value} {text : String} (otherwise : Option Value)
    (htext : scalarText? c = some text) (hb : b.Lacks ["$if", "$else"]) :
    HasForm ((b.insert "$if" c).insertSome "$else" otherwise) (.conditional text b otherwise) := by
  have helse : (b.insert "$if" c).get? "$else" = none := by
    rw [get?_insert, if_neg (by decide)]
    exact hb "$else" (by simp)
  have hmarker : ((b.insert "$if" c).insertSome "$else" otherwise).get? "$if" = some c := by
    rw [get?_insertSome _ _ _ _ helse, if_neg (by decide), get?_insert_self]
  have hbranch :
      ((b.insert "$if" c).insertSome "$else" otherwise).without ["$if", "$else"] = b := by
    rw [Fields.without_insertSome (by simp), without_insert_of_lacks (by simp) hb]
  have hotherwise :
      ((b.insert "$if" c).insertSome "$else" otherwise).get? "$else" = otherwise := by
    rw [get?_insertSome _ _ _ _ helse, if_pos rfl]
  have hform := HasForm.conditional hmarker (.short htext)
  rwa [hbranch, hotherwise] at hform

/-- The condition and its branch in one object. -/
theorem hasForm_structuredConditional {c : Value} {text : String} (otherwise : Option Value)
    (htext : scalarText? c = some text) (hblank : ¬isBlankText text)
    (hb : b.Lacks ["$cond", "$condition"]) :
    HasForm (Fields.insertSome "$else" otherwise [("$if", .object (b.insert "$cond" c))])
      (.conditional text b otherwise) := by
  have hcondition : ConditionText (b.insert "$cond" c) text :=
    .first ⟨⟨c, get?_insert_self _ _ b, htext⟩, hblank⟩
  have honly : ∀ name ∈ Fields.names
      (Fields.insertSome "$else" otherwise [("$if", Value.object (b.insert "$cond" c))]),
      name ∈ ["$if", "$else"] := by
    intro name hname
    rcases Fields.mem_names_insertSome hname with rfl | hname
    · simp
    · obtain rfl := List.mem_singleton.1 hname
      simp
  have hmarker : Fields.get? "$if"
      (Fields.insertSome "$else" otherwise [("$if", Value.object (b.insert "$cond" c))]) =
        some (.object (b.insert "$cond" c)) := by
    rw [get?_insertSome _ _ _ _ rfl, if_neg (by decide)]
    rfl
  have hotherwise : Fields.get? "$else"
      (Fields.insertSome "$else" otherwise [("$if", Value.object (b.insert "$cond" c))]) =
        otherwise := by
    rw [get?_insertSome _ _ _ _ rfl, if_pos rfl]
  have hform := HasForm.conditional hmarker (.structured honly hcondition)
  rwa [without_insert_of_lacks (by simp) hb, hotherwise] at hform

/-- The text of the source beside the body. -/
theorem ofFields_shortIteration (source : String) (hb : b.Lacks ["$if", "$iterate"]) :
    ofFields (b.insert "$iterate" (.string source)) =
      Form.iteration source .standard <$> bodyOf .iteration b := by
  have hif : (b.insert "$iterate" (.string source)).Lacks ["$if"] :=
    (hb.mono (by simp)).insert (by simp)
  have hbody : (b.insert "$iterate" (.string source)).without ["$iterate"] = b :=
    without_insert_of_lacks (by simp) (hb.mono (by simp))
  rw [ofFields, hif "$if" (by simp)]
  simp only [get?_insert_self, ofIteration, hbody]
  rfl

/-- The text of the source and the body in one object. -/
theorem ofFields_structuredIteration {source : String} (hblank : ¬isBlankText source)
    (hb : b.Lacks ["$expr", "$index", "$key", "$value"]) :
    ofFields [("$iterate", .object (b.insert "$expr" (.string source)))] =
      Form.iteration source .standard <$> bodyOf .iteration b := by
  have honly : onlyKeys .iteration [("$iterate", Value.object (b.insert "$expr" (.string source)))]
      ["$iterate"] = .ok () := onlyKeys_eq_ok.2 (by simp [Fields.names])
  have hsource : requiredText .iteration (b.insert "$expr" (.string source)) "$expr" = .ok source :=
    requiredText_eq_ok.2 ⟨get?_insert_self _ _ b, hblank⟩
  have hname {key : String} (standard : String) (hkey : key ∈ ["$index", "$key", "$value"])
      (hne : key ≠ "$expr") :
      loopName (b.insert "$expr" (.string source)) key standard = .ok standard := by
    refine loopName_eq_ok.2 (.absent ?_)
    rw [get?_insert, if_neg hne]
    exact hb key (List.mem_cons_of_mem _ hkey)
  have hbody : (b.insert "$expr" (.string source)).without ["$expr", "$index", "$key", "$value"] =
      b := without_insert_of_lacks (by simp) hb
  have hindex := hname LoopNames.standard.index (by simp : "$index" ∈ _) (by decide)
  have hkey := hname LoopNames.standard.key (by simp : "$key" ∈ _) (by decide)
  have hitem := hname LoopNames.standard.item (by simp : "$value" ∈ _) (by decide)
  generalize b.insert "$expr" (.string source) = inner at *
  change ofIteration [("$iterate", .object inner)] (.object inner) = _
  simp only [ofIteration, honly, hsource, hindex, hkey, hitem, hbody]
  rfl

/-- The text of the binding beside the body. -/
theorem ofFields_shortBinding (text : String) (hb : b.Lacks ["$if", "$iterate", "$with"]) :
    ofFields (b.insert "$with" (.string text)) = Form.binding text <$> bodyOf .binding b := by
  have hother : (b.insert "$with" (.string text)).Lacks ["$if", "$iterate"] :=
    (hb.mono (by simp)).insert (by simp)
  have hbody : (b.insert "$with" (.string text)).without ["$with"] = b :=
    without_insert_of_lacks (by simp) (hb.mono (by simp))
  rw [ofFields, hother "$if" (by simp)]
  simp only [hother "$iterate" (by simp), get?_insert_self, ofBinding, hbody]
  rfl

/-- The text of the binding and the body in one object. -/
theorem ofFields_structuredBinding {text : String} (hblank : ¬isBlankText text)
    (hb : b.Lacks ["$expr"]) :
    ofFields [("$with", .object (b.insert "$expr" (.string text)))] =
      Form.binding text <$> bodyOf .binding b := by
  have honly : onlyKeys .binding [("$with", Value.object (b.insert "$expr" (.string text)))]
      ["$with"] = .ok () := onlyKeys_eq_ok.2 (by simp [Fields.names])
  have htext : requiredText .binding (b.insert "$expr" (.string text)) "$expr" = .ok text :=
    requiredText_eq_ok.2 ⟨get?_insert_self _ _ b, hblank⟩
  have hbody : (b.insert "$expr" (.string text)).without ["$expr"] = b :=
    without_insert_of_lacks (by simp) hb
  generalize b.insert "$expr" (.string text) = inner at *
  change ofBinding [("$with", .object inner)] (.object inner) = _
  simp only [ofBinding, honly, htext, hbody]
  rfl

end Form

/-! ### Building from spellings -/

namespace Node

variable {o : Options} {fields b b' : Fields Value}

/-- The body of an iteration is read before it is built. -/
theorem build_of_iteration {source : String} {names : LoopNames} {body : TemplateResult Value}
    (h : Form.ofFields fields = Form.iteration source names <$> body) :
    build o (.object fields) =
      (do let bodyNode ← body >>= build o
          .block <$> Block.ofIteration o source names bodyNode.toBlock) := by
  cases body with
  | error e => exact build_of_formError h
  | ok body => exact build_iteration (Form.ofFields_eq_ok.1 h)

theorem build_of_binding {text : String} {body : TemplateResult Value}
    (h : Form.ofFields fields = Form.binding text <$> body) :
    build o (.object fields) =
      (do let bodyNode ← body >>= build o
          .block <$> Block.ofBinding o text bodyNode.toBlock) := by
  cases body with
  | error e => exact build_of_formError h
  | ok body => exact build_binding (Form.ofFields_eq_ok.1 h)

/-- A conditional with a branch in another spelling. -/
theorem build_conditional_spelling {c : Value} {text : String} {otherwise : Option Value}
    (htext : Form.scalarText? c = some text) (hblank : ¬Form.isBlankText text)
    (hb : b.Lacks ["$if", "$else"]) (hb' : b'.Lacks ["$cond", "$condition"])
    (h : build o (.object b) = build o (.object b')) :
    build o (.object ((b.insert "$if" c).insertSome "$else" otherwise)) =
      build o (.object (Fields.insertSome "$else" otherwise
        [("$if", .object (b'.insert "$cond" c))])) := by
  rw [build_conditional (Form.hasForm_shortConditional otherwise htext hb),
    build_conditional (Form.hasForm_structuredConditional otherwise htext hblank hb'), h]

/-- An iteration with a body in another spelling. -/
theorem build_iteration_spelling {source : String} (hblank : ¬Form.isBlankText source)
    (hb : b.Lacks ["$if", "$iterate"]) (hb' : b'.Lacks ["$expr", "$index", "$key", "$value"])
    (h : Form.bodyOf .iteration b >>= build o = Form.bodyOf .iteration b' >>= build o) :
    build o (.object (b.insert "$iterate" (.string source))) =
      build o (.object [("$iterate", .object (b'.insert "$expr" (.string source)))]) := by
  rw [build_of_iteration (Form.ofFields_shortIteration source hb),
    build_of_iteration (Form.ofFields_structuredIteration hblank hb'), h]

theorem build_binding_spelling {text : String} (hblank : ¬Form.isBlankText text)
    (hb : b.Lacks ["$if", "$iterate", "$with"]) (hb' : b.Lacks ["$expr"]) :
    build o (.object (b.insert "$with" (.string text))) =
      build o (.object [("$with", .object (b.insert "$expr" (.string text)))]) := by
  rw [build_of_binding (Form.ofFields_shortBinding text hb),
    build_of_binding (Form.ofFields_structuredBinding hblank hb')]

/-! ### Bodies under a key of their own -/

theorem build_shortIteration_body {source : String} (hb : b.Lacks ["$if", "$iterate"])
    (hbody : b.get? "$body" = none) :
    build o (.object (b.insert "$iterate" (.string source))) =
      build o (.object [("$body", .object b), ("$iterate", .string source)]) := by
  have halone : Fields.Lacks [("$body", Value.object b)] ["$if", "$iterate"] :=
    Fields.lacks_singleton (by simp)
  rw [build_of_iteration (Form.ofFields_shortIteration source hb),
    ← Form.bodyOf_alone .iteration hbody,
    ← build_of_iteration (Form.ofFields_shortIteration source halone)]
  rfl

theorem build_structuredIteration_body {source : String} (hblank : ¬Form.isBlankText source)
    (hb : b.Lacks ["$expr", "$index", "$key", "$value"]) (hbody : b.get? "$body" = none) :
    build o (.object [("$iterate", .object (b.insert "$expr" (.string source)))]) =
      build o (.object
        [("$iterate", .object [("$body", .object b), ("$expr", .string source)])]) := by
  have halone : Fields.Lacks [("$body", Value.object b)] ["$expr", "$index", "$key", "$value"] :=
    Fields.lacks_singleton (by simp)
  rw [build_of_iteration (Form.ofFields_structuredIteration hblank hb),
    ← Form.bodyOf_alone .iteration hbody,
    ← build_of_iteration (Form.ofFields_structuredIteration hblank halone)]
  rfl

theorem build_shortBinding_body {text : String} (hb : b.Lacks ["$if", "$iterate", "$with"])
    (hbody : b.get? "$body" = none) :
    build o (.object (b.insert "$with" (.string text))) =
      build o (.object [("$body", .object b), ("$with", .string text)]) := by
  have halone : Fields.Lacks [("$body", Value.object b)] ["$if", "$iterate", "$with"] :=
    Fields.lacks_singleton (by simp)
  rw [build_of_binding (Form.ofFields_shortBinding text hb),
    ← Form.bodyOf_alone .binding hbody,
    ← build_of_binding (Form.ofFields_shortBinding text halone)]
  rfl

theorem build_structuredBinding_body {text : String} (hblank : ¬Form.isBlankText text)
    (hb : b.Lacks ["$expr"]) (hbody : b.get? "$body" = none) :
    build o (.object [("$with", .object (b.insert "$expr" (.string text)))]) =
      build o (.object [("$with", .object [("$body", .object b), ("$expr", .string text)])]) := by
  have halone : Fields.Lacks [("$body", Value.object b)] ["$expr"] :=
    Fields.lacks_singleton (by simp)
  rw [build_of_binding (Form.ofFields_structuredBinding hblank hb),
    ← Form.bodyOf_alone .binding hbody,
    ← build_of_binding (Form.ofFields_structuredBinding hblank halone)]
  rfl

end Node

/-! ### Several controls in one object -/

/-- Controls that one object can have in short form: what is under `$if`, with what is under `$else`
if anything is, what is under `$iterate`, and what is under `$with`. -/
structure Controls where
  condition : Option (Value × Option Value)
  source : Option String
  binding : Option String

namespace Controls

def shortBinding (binding : Option String) (b : Fields Value) : Fields Value :=
  b.insertSome "$with" (binding.map .string)

def shortLoop (source : Option String) (b : Fields Value) : Fields Value :=
  b.insertSome "$iterate" (source.map .string)

def shortBranch (condition : Option (Value × Option Value)) (b : Fields Value) : Fields Value :=
  match condition with
  | none => b
  | some (c, otherwise) => (b.insert "$if" c).insertSome "$else" otherwise

/-- The object with the controls beside the other fields. -/
def short (controls : Controls) (b : Fields Value) : Fields Value :=
  shortBranch controls.condition (shortLoop controls.source (shortBinding controls.binding b))

def nestedBinding (binding : Option String) (b : Fields Value) : Fields Value :=
  match binding with
  | none => b
  | some text => [("$with", .object (b.insert "$expr" (.string text)))]

def nestedLoop (source : Option String) (b : Fields Value) : Fields Value :=
  match source with
  | none => b
  | some text => [("$iterate", .object (b.insert "$expr" (.string text)))]

def nestedBranch (condition : Option (Value × Option Value)) (b : Fields Value) : Fields Value :=
  match condition with
  | none => b
  | some (c, otherwise) =>
    Fields.insertSome "$else" otherwise [("$if", .object (b.insert "$cond" c))]

/-- The object of the outermost control with the others inside it, each in structured form, and the
other fields in the innermost. -/
def nested (controls : Controls) (b : Fields Value) : Fields Value :=
  nestedBranch controls.condition (nestedLoop controls.source (nestedBinding controls.binding b))

/-- The keys that the structured form of the innermost control takes for itself. -/
def innermostKeys (controls : Controls) : List String :=
  match controls.binding, controls.source, controls.condition with
  | some _, _, _ => ["$expr"]
  | none, some _, _ => ["$expr", "$index", "$key", "$value"]
  | none, none, some _ => ["$cond", "$condition"]
  | none, none, none => []

/-- The controls have texts that are not blank, and no other field is the key of a control or one of
those that belong to it. There is no `$body` for an iteration and a binding at once. -/
structure Fits (controls : Controls) (b : Fields Value) : Prop where
  condition : ∀ c otherwise, controls.condition = some (c, otherwise) →
    ∃ text, Form.scalarText? c = some text ∧ ¬Form.isBlankText text
  source : ∀ text, controls.source = some text → ¬Form.isBlankText text
  binding : ∀ text, controls.binding = some text → ¬Form.isBlankText text
  keys : b.Lacks ["$if", "$iterate", "$with"]
  otherwise : controls.condition.isSome → b.Lacks ["$else"]
  innermost : b.Lacks controls.innermostKeys
  body : controls.source.isSome → controls.binding.isSome → b.Lacks ["$body"]

variable {controls : Controls} {b : Fields Value}

theorem build_binding_alike (o : Options) (h : controls.Fits b) :
    Node.build o (.object (shortBinding controls.binding b)) =
      Node.build o (.object (nestedBinding controls.binding b)) := by
  obtain ⟨condition, source, binding⟩ := controls
  cases binding with
  | none => rfl
  | some text => exact Node.build_binding_spelling (h.binding text rfl) h.keys h.innermost

theorem build_loop_alike (o : Options) (h : controls.Fits b) :
    Node.build o (.object (shortLoop controls.source (shortBinding controls.binding b))) =
      Node.build o (.object (nestedLoop controls.source (nestedBinding controls.binding b))) := by
  have hbinding := build_binding_alike o h
  obtain ⟨condition, source, binding⟩ := controls
  cases source with
  | none => exact hbinding
  | some source =>
    cases binding with
    | none =>
      exact Node.build_iteration_spelling (h.source source rfl) (h.keys.mono (by simp))
        h.innermost rfl
    | some text =>
      have hlacks : (b.insert "$with" (.string text)).Lacks ["$body"] :=
        (h.body rfl rfl).insert (by simp)
      have hshort : Form.bodyOf .iteration (shortBinding (some text) b) = .ok _ :=
        Form.bodyOf_of_lacks _ (hlacks "$body" (by simp))
      have hnested : Form.bodyOf .iteration (nestedBinding (some text) b) = .ok _ :=
        Form.bodyOf_of_lacks _ rfl
      refine Node.build_iteration_spelling (h.source source rfl)
        ((h.keys.mono (by simp)).insert (by simp)) (Fields.lacks_singleton (by simp)) ?_
      simp only [hshort, hnested]
      exact hbinding

/-- Where a structured conditional is the outermost control, its keys are free for it. -/
theorem lacks_nestedLoop (h : controls.Fits b) (hcondition : controls.condition.isSome) :
    (nestedLoop controls.source (nestedBinding controls.binding b)).Lacks
      ["$cond", "$condition"] := by
  obtain ⟨_ | condition, _ | source, _ | text⟩ := controls
  all_goals try cases hcondition
  · exact h.innermost
  all_goals exact Fields.lacks_singleton (by simp)

theorem build_alike (o : Options) (h : controls.Fits b) :
    Node.build o (.object (controls.short b)) = Node.build o (.object (controls.nested b)) := by
  have hloop := build_loop_alike o h
  rw [short, nested]
  cases hcondition : controls.condition with
  | none => exact hloop
  | some condition =>
    obtain ⟨c, otherwise⟩ := condition
    obtain ⟨text, htext, hblank⟩ := h.condition c otherwise hcondition
    have hsome : controls.condition.isSome := by
      rw [hcondition]
      rfl
    have hb : b.Lacks ["$if", "$else"] :=
      List.forall_mem_cons.2 ⟨h.keys "$if" (by simp), h.otherwise hsome⟩
    have hshort : (shortLoop controls.source (shortBinding controls.binding b)).Lacks
        ["$if", "$else"] := (hb.insertSome (by simp)).insertSome (by simp)
    exact Node.build_conditional_spelling htext hblank hshort (lacks_nestedLoop h hsome) hloop

/-- There is a `$body` beside an iteration and a binding. -/
structure Clashes (controls : Controls) (b : Fields Value) : Prop where
  condition : ∀ c otherwise, controls.condition = some (c, otherwise) →
    ∃ text, Form.scalarText? c = some text
  source : controls.source.isSome
  binding : controls.binding.isSome
  body : (b.get? "$body").isSome
  keys : b.Lacks ["$if", "$iterate"]
  otherwise : controls.condition.isSome → b.Lacks ["$else"]

/-- An iteration in short form takes a binding for a field, which a `$body` has none beside it. -/
theorem build_shortLoop_refused (o : Options) (source text : String)
    (hkeys : b.Lacks ["$if", "$iterate"]) (hbody : (b.get? "$body").isSome) :
    Node.build o (.object (shortLoop (some source) (shortBinding (some text) b))) =
      .error (.malformed .iteration .fieldsBesideBody) := by
  obtain ⟨body, hbody⟩ := Option.isSome_iff_exists.1 hbody
  have hfound : (b.insert "$with" (.string text)).get? "$body" = some body := by
    rw [get?_insert, if_neg (by decide)]
    exact hbody
  have hbinding := get?_insert_self "$with" (Value.string text) b
  have hlength : 1 < (b.insert "$with" (.string text)).length := by
    by_contra hshort
    rw [Form.get?_singleton hfound (Nat.le_of_not_lt hshort)] at hbinding
    cases hbinding
  have hrefused : Form.bodyOf .iteration (b.insert "$with" (.string text)) =
      .error (.malformed .iteration .fieldsBesideBody) := by
    rw [Form.bodyOf, hfound]
    exact if_pos hlength
  have hform := Form.ofFields_shortIteration source
    (hkeys.insert (v := .string text) (by simp : "$with" ∉ ["$if", "$iterate"]))
  rw [hrefused] at hform
  exact Node.build_of_formError hform

/-- A conditional around them does not help: its branch is built first. -/
theorem build_short_refused (o : Options) (h : controls.Clashes b) :
    Node.build o (.object (controls.short b)) =
      .error (.malformed .iteration .fieldsBesideBody) := by
  obtain ⟨condition, source, binding⟩ := controls
  obtain ⟨source, rfl⟩ := Option.isSome_iff_exists.1 h.source
  obtain ⟨text, rfl⟩ := Option.isSome_iff_exists.1 h.binding
  have hloop := build_shortLoop_refused o source text h.keys h.body
  cases condition with
  | none => exact hloop
  | some condition =>
    obtain ⟨c, otherwise⟩ := condition
    obtain ⟨ctext, hctext⟩ := h.condition c otherwise rfl
    have hb : b.Lacks ["$if", "$else"] :=
      List.forall_mem_cons.2 ⟨h.keys "$if" (by simp), h.otherwise rfl⟩
    have hshort : (shortLoop (some source) (shortBinding (some text) b)).Lacks ["$if", "$else"] :=
      (hb.insertSome (by simp)).insertSome (by simp)
    have hform := Form.hasForm_shortConditional otherwise hctext hshort
    refine (Node.build_conditional hform).trans ?_
    rw [hloop]
    rfl

end Controls

/-- The spellings of controls are built alike, into the same tree or with the same error. The fields
that stand beside a text or a condition in the short form can stand beside it in an object, and the
fields of a body can stand in a `$body`. Several controls in one object mean the same as structured
controls inside each other, a conditional outside an iteration and that outside a binding, but for
an iteration and a binding with a `$body`, which are refused. -/
theorem Node.build_spellings (o : Options) :
    (∀ (s : String) (b : Fields Value), ¬Form.isBlankText s →
      b.Lacks ["$if", "$iterate", "$expr", "$index", "$key", "$value"] →
      build o (.object (b.insert "$iterate" (.string s))) =
        build o (.object [("$iterate", .object (b.insert "$expr" (.string s)))])) ∧
    (∀ (s : String) (b : Fields Value), ¬Form.isBlankText s →
      b.Lacks ["$if", "$iterate", "$with", "$expr"] →
      build o (.object (b.insert "$with" (.string s))) =
        build o (.object [("$with", .object (b.insert "$expr" (.string s)))])) ∧
    (∀ (c : Value) (text : String) (otherwise : Option Value) (b : Fields Value),
      Form.scalarText? c = some text → ¬Form.isBlankText text →
      b.Lacks ["$if", "$else", "$cond", "$condition"] →
      build o (.object ((b.insert "$if" c).insertSome "$else" otherwise)) =
        build o (.object (Fields.insertSome "$else" otherwise
          [("$if", .object (b.insert "$cond" c))]))) ∧
    (∀ (s : String) (b : Fields Value), ¬Form.isBlankText s → b.Lacks ["$body"] →
      (b.Lacks ["$if", "$iterate", "$expr", "$index", "$key", "$value"] →
        build o (.object (b.insert "$iterate" (.string s))) =
            build o (.object [("$body", .object b), ("$iterate", .string s)]) ∧
          build o (.object [("$iterate", .object (b.insert "$expr" (.string s)))]) =
            build o (.object
              [("$iterate", .object [("$body", .object b), ("$expr", .string s)])])) ∧
      (b.Lacks ["$if", "$iterate", "$with", "$expr"] →
        build o (.object (b.insert "$with" (.string s))) =
            build o (.object [("$body", .object b), ("$with", .string s)]) ∧
          build o (.object [("$with", .object (b.insert "$expr" (.string s)))]) =
            build o (.object
              [("$with", .object [("$body", .object b), ("$expr", .string s)])]))) ∧
    (∀ (controls : Controls) (b : Fields Value), controls.Fits b →
      build o (.object (controls.short b)) = build o (.object (controls.nested b))) ∧
    ∀ (controls : Controls) (b : Fields Value), controls.Clashes b →
      build o (.object (controls.short b)) = .error (.malformed .iteration .fieldsBesideBody) := by
  refine ⟨fun s b hblank hb => ?_, fun s b hblank hb => ?_,
    fun c text otherwise b htext hblank hb => ?_, fun s b hblank hbody => ⟨fun hb => ⟨?_, ?_⟩,
      fun hb => ⟨?_, ?_⟩⟩, fun controls b h => Controls.build_alike o h,
    fun controls b h => Controls.build_short_refused o h⟩
  · exact build_iteration_spelling hblank (hb.mono (by simp)) (hb.mono (by simp)) rfl
  · exact build_binding_spelling hblank (hb.mono (by simp)) (hb.mono (by simp))
  · exact build_conditional_spelling htext hblank (hb.mono (by simp)) (hb.mono (by simp)) rfl
  · exact build_shortIteration_body (hb.mono (by simp)) (hbody "$body" (by simp))
  · exact build_structuredIteration_body hblank (hb.mono (by simp)) (hbody "$body" (by simp))
  · exact build_shortBinding_body (hb.mono (by simp)) (hbody "$body" (by simp))
  · exact build_structuredBinding_body hblank (hb.mono (by simp)) (hbody "$body" (by simp))

/-- A conditional over an iteration over a binding, and each control with a field beside it. -/
theorem Node.build_spellings_branch :
    let b : Fields Value := [("a", .string "{{x}}")]
    let controls : Controls := ⟨some (.string "y", some .null), some "xs", some "x := 1"⟩
    let body : Fields Value := [("$body", .object b)]
    ¬Form.isBlankText "xs" ∧ ¬Form.isBlankText "x := 1" ∧ controls.Fits b ∧
      controls.Clashes body ∧
      build .empty (.object (b.insert "$iterate" (.string "xs"))) =
        build .empty (.object [("$iterate", .object (b.insert "$expr" (.string "xs")))]) ∧
      build .empty (.object (b.insert "$with" (.string "x := 1"))) =
        build .empty (.object [("$with", .object (b.insert "$expr" (.string "x := 1")))]) ∧
      build .empty (.object ((b.insert "$if" (.string "y")).insertSome "$else" none)) =
        build .empty (.object (Fields.insertSome "$else" none
          [("$if", .object (b.insert "$cond" (.string "y")))])) ∧
      build .empty (.object (b.insert "$iterate" (.string "xs"))) =
        build .empty (.object [("$body", .object b), ("$iterate", .string "xs")]) ∧
      build .empty (.object (controls.short b)) = build .empty (.object (controls.nested b)) ∧
      build .empty (.object (controls.short body)) =
        .error (.malformed .iteration .fieldsBesideBody) := by
  intro b controls body
  have hxs : ¬Form.isBlankText "xs" := by decide
  have hx : ¬Form.isBlankText "x := 1" := by decide
  have hlacks (names : List String) (h : "a" ∉ names) : b.Lacks names :=
    Fields.lacks_singleton h
  have hfits : controls.Fits b :=
    { condition := by
        rintro c otherwise ⟨⟩
        exact ⟨"y", rfl, by decide⟩
      source := by
        rintro _ ⟨⟩
        exact hxs
      binding := by
        rintro _ ⟨⟩
        exact hx
      keys := hlacks _ (by decide)
      otherwise := fun _ => hlacks _ (by decide)
      innermost := hlacks _ (by decide)
      body := fun _ _ => hlacks _ (by decide) }
  have hclashes : controls.Clashes body :=
    { condition := by
        rintro c otherwise ⟨⟩
        exact ⟨"y", rfl⟩
      source := rfl
      binding := rfl
      body := rfl
      keys := Fields.lacks_singleton (by decide)
      otherwise := fun _ => Fields.lacks_singleton (by decide) }
  obtain ⟨hiterate, hwith, hif, hbody, hall, hrefused⟩ := build_spellings .empty
  exact ⟨hxs, hx, hfits, hclashes, hiterate "xs" b hxs (hlacks _ (by decide)),
    hwith "x := 1" b hx (hlacks _ (by decide)),
    hif (.string "y") "y" none b rfl (by decide) (hlacks _ (by decide)),
    ((hbody "xs" b hxs (hlacks _ (by decide))).1 (hlacks _ (by decide))).1, hall controls b hfits,
    hrefused controls body hclashes⟩

/-- An iteration and a binding beside a `$body` are refused. Inside each other, with the `$body` in
the binding, they are built. -/
theorem Controls.build_body_differs :
    let controls : Controls := ⟨none, some "xs", some "x := 1"⟩
    let b : Fields Value := [("$body", .bool true)]
    controls.short b =
        [("$body", .bool true), ("$iterate", .string "xs"), ("$with", .string "x := 1")] ∧
      controls.nested b = [("$iterate", .object [("$expr", .string "xs"),
        ("$with", .object [("$body", .bool true), ("$expr", .string "x := 1")])])] ∧
      Node.build .empty (.object (controls.short b)) =
        .error (.malformed .iteration .fieldsBesideBody) ∧
      ∃ n, Node.build .empty (.object (controls.nested b)) = .ok n := by
  intro controls b
  refine ⟨rfl, rfl, build_shortLoop_refused .empty "xs" "x := 1" ?_ rfl, ?_⟩
  · exact Fields.lacks_singleton (by simp)
  · have hbinding : HasForm (nestedBinding (some "x := 1") b) (.binding "x := 1" (.bool true)) :=
      Form.ofFields_eq_ok.1 (Form.ofFields_structuredBinding (by decide)
        (Fields.lacks_singleton (by simp)))
    have hloop : HasForm (controls.nested b)
        (.iteration "xs" .standard (.object (nestedBinding (some "x := 1") b))) :=
      Form.ofFields_eq_ok.1 (Form.ofFields_structuredIteration (by decide)
        (Fields.lacks_singleton (by simp)))
    obtain ⟨bound, hbound⟩ : ∃ bound, Block.ofBinding .empty "x := 1" (.literal (.bool true)) =
        .ok bound :=
      Block.exists_ofBinding.2 ⟨['x'], ['1'], by decide, by decide,
        compiles_of_isOk (by decide +kernel)⟩
    obtain ⟨looped, hlooped⟩ : ∃ looped, Block.ofIteration .empty "xs" .standard bound =
        .ok looped :=
      Block.exists_ofIteration.2 ⟨by decide, compiles_of_isOk (by decide +kernel)⟩
    have hbody : Node.build .empty (.object (nestedBinding (some "x := 1") b)) =
        .ok (.block bound) :=
      Node.build_eq_ok.2 (.binding hbinding (Node.build_bool .empty true) hbound)
    exact ⟨.block looped, Node.build_eq_ok.2 (.iteration hloop hbody hlooped)⟩

end JsonTemplate
