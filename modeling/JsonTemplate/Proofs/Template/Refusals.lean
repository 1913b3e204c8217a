import JsonTemplate.Proofs.Template.Static

/-! Why documents are refused: an expression that does not compile, or a fault of a control whose
key is in the document. -/

namespace JsonTemplate

open Form (HasForm)

/-! ### Keys of a document -/

namespace Value

/-- There is an object with the name somewhere in the value, or the value is that object. -/
def Mentions (v : Value) (name : String) : Prop :=
  ∃ fields, .object fields ∈ v.inside ∧ name ∈ Fields.names fields

theorem mem_insideItems {items : List Value} {v w : Value} (hv : v ∈ items) (hw : w ∈ v.inside) :
    w ∈ insideItems items :=
  forall_mem_insideItems.1 (fun _ => id) v hv w hw

theorem mem_insideFields {fields : Fields Value} {entry : String × Value} {w : Value}
    (hentry : entry ∈ fields) (hw : w ∈ entry.2.inside) : w ∈ insideFields fields :=
  forall_mem_insideFields.1 (fun _ => id) entry hentry w hw

theorem mentions_own {fields : Fields Value} {name : String} (h : name ∈ fields.names) :
    (Value.object fields).Mentions name :=
  ⟨fields, List.mem_cons_self, h⟩

theorem Mentions.of_item {items : List Value} {v : Value} {name : String} (h : v.Mentions name)
    (hv : v ∈ items) : (Value.array items).Mentions name := by
  obtain ⟨fields, hinside, hname⟩ := h
  exact ⟨fields, List.mem_cons_of_mem _ (mem_insideItems hv hinside), hname⟩

theorem Mentions.of_entry {fields : Fields Value} {entry : String × Value} {name : String}
    (h : entry.2.Mentions name) (hentry : entry ∈ fields) :
    (Value.object fields).Mentions name := by
  obtain ⟨found, hinside, hname⟩ := h
  exact ⟨found, List.mem_cons_of_mem _ (mem_insideFields hentry hinside), hname⟩

/-- Fields that are added take no key away. -/
theorem Mentions.of_subset {fewer fields : Fields Value} {name : String}
    (h : (Value.object fewer).Mentions name) (hsubset : fewer ⊆ fields) :
    (Value.object fields).Mentions name := by
  obtain ⟨found, hinside, hname⟩ := h
  rcases List.mem_cons.1 hinside with heq | hinside
  · cases heq
    exact mentions_own (List.map_subset Prod.fst hsubset hname)
  · refine ⟨found, List.mem_cons_of_mem _ ?_, hname⟩
    have hall := forall_mem_insideFields.1 fun w (hw : w ∈ insideFields fields) => hw
    exact forall_mem_insideFields.2 (fun entry hentry => hall entry (hsubset hentry)) _ hinside

end Value

namespace Form

variable {fields inner rest : Fields Value} {name : String}

theorem without_subset (names : List String) (fields : Fields Value) :
    fields.without names ⊆ fields := fun _ h => List.mem_of_mem_filter h

theorem mentions_of_body {body : Value} (hbody : Body rest body) (h : body.Mentions name) :
    (Value.object rest).Mentions name := by
  cases hbody with
  | alone hrest => exact h.of_entry (by rw [hrest]; exact List.mem_cons_self)
  | fields => exact h

/-- What is left of the object under a key is inside the object. -/
theorem mentions_of_marker {names : List String} {key : String}
    (hkey : fields.get? key = some (.object inner))
    (h : (Value.object (inner.without names)).Mentions name) :
    (Value.object fields).Mentions name :=
  (h.of_subset (without_subset names inner)).of_entry (Fields.mem_of_get? hkey)

/-- The keys in the parts of a form are keys in the object. -/
theorem mentions_of_part {form : Form} {part : Value} (hform : HasForm fields form)
    (hpart : part ∈ form.parts) (h : part.Mentions name) :
    (Value.object fields).Mentions name := by
  cases hform with
  | plain => cases hpart
  | conditional hmarker hconditional =>
    have helse {no : Value} (hno : no ∈ (fields.get? "$else").toList) (h : no.Mentions name) :
        (Value.object fields).Mentions name :=
      h.of_entry (Fields.mem_of_get? (Option.mem_toList.1 hno))
    cases hconditional with
    | short =>
      rcases List.mem_cons.1 hpart with rfl | hno
      · exact h.of_subset (without_subset _ fields)
      · exact helse hno h
    | structured =>
      rcases List.mem_cons.1 hpart with rfl | hno
      · exact mentions_of_marker hmarker h
      · exact helse hno h
  | iteration _ hmarker hiteration =>
    obtain rfl := List.mem_singleton.1 hpart
    cases hiteration with
    | short hbody => exact (mentions_of_body hbody h).of_subset (without_subset _ fields)
    | structured _ _ _ _ _ hbody => exact mentions_of_marker hmarker (mentions_of_body hbody h)
  | binding _ _ hmarker hbinding =>
    obtain rfl := List.mem_singleton.1 hpart
    cases hbinding with
    | short hbody => exact (mentions_of_body hbody h).of_subset (without_subset _ fields)
    | structured _ _ hbody => exact mentions_of_marker hmarker (mentions_of_body hbody h)

end Form

/-! ### Errors of building -/

/-- The error tells of an expression that does not compile, or of a fault of a control that is one
of the given ones. -/
inductive Refusal (o : Options) (controls : Control → Prop) : TemplateError → Prop where
  | compile {source : String} {report : Report} : Program.compile o source = .error report →
    Refusal o controls (.compile source report)
  | malformed {control : Control} (fault : FormFault) : controls control →
    Refusal o controls (.malformed control fault)

/-- If there is no result, the error is such a refusal. -/
def RefusedFor {α : Type} (o : Options) (controls : Control → Prop) (r : TemplateResult α) : Prop :=
  ∀ e, r = .error e → Refusal o controls e

section RefusedFor
variable {α β : Type} {o : Options} {controls : Control → Prop} {r : TemplateResult α}

theorem refusedFor_ok (a : α) : RefusedFor o controls (.ok a) := nofun

theorem refusedFor_malformed {control : Control} (fault : FormFault) (h : controls control) :
    RefusedFor o controls (.error (.malformed control fault) : TemplateResult α) := by
  rintro _ ⟨⟩
  exact .malformed fault h

theorem RefusedFor.mono {more : Control → Prop} (h : RefusedFor o controls r)
    (hmore : ∀ control, controls control → more control) : RefusedFor o more r := by
  intro e he
  cases h e he with
  | compile hcompile => exact .compile hcompile
  | malformed fault hcontrol => exact .malformed fault (hmore _ hcontrol)

theorem RefusedFor.bind {f : α → TemplateResult β} (h : RefusedFor o controls r)
    (hf : ∀ a, r = .ok a → RefusedFor o controls (f a)) : RefusedFor o controls (r >>= f) := by
  cases r with
  | ok a => exact hf a rfl
  | error e =>
    rintro _ ⟨⟩
    exact h e rfl

theorem RefusedFor.map {f : α → β} (h : RefusedFor o controls r) :
    RefusedFor o controls (f <$> r) := by
  cases r with
  | ok a => exact refusedFor_ok _
  | error e =>
    rintro _ ⟨⟩
    exact h e rfl

theorem refusedFor_compile (source : String) : RefusedFor o controls (o.compile source) := by
  unfold Options.compile
  split
  · exact refusedFor_ok _
  · next hreport =>
    rintro _ ⟨⟩
    exact .compile hreport

end RefusedFor

namespace Form

variable {o : Options} {fields : Fields Value}

theorem refusedFor_onlyKeys {control : Control} {allowed : List String} :
    RefusedFor o (· = control) (onlyKeys control fields allowed) := by
  unfold onlyKeys
  split
  · exact refusedFor_malformed _ rfl
  · exact refusedFor_ok _

theorem refusedFor_requiredText {control : Control} {key : String} :
    RefusedFor o (· = control) (requiredText control fields key) := by
  unfold requiredText
  split
  · exact refusedFor_malformed _ rfl
  · split
    · exact refusedFor_malformed _ rfl
    · exact refusedFor_ok _
  · exact refusedFor_malformed _ rfl

theorem refusedFor_loopName {key standard : String} :
    RefusedFor o (· = .iteration) (loopName fields key standard) := by
  unfold loopName
  split
  · exact refusedFor_ok _
  · split
    · exact refusedFor_malformed _ rfl
    · exact refusedFor_ok _
  · exact refusedFor_malformed _ rfl

theorem refusedFor_bodyOf {control : Control} :
    RefusedFor o (· = control) (bodyOf control fields) := by
  unfold bodyOf
  split
  · exact refusedFor_ok _
  · split
    · exact refusedFor_malformed _ rfl
    · exact refusedFor_ok _

theorem refusedFor_ofConditional {marker : Value} :
    RefusedFor o (· = .conditional) (ofConditional fields marker) := by
  unfold ofConditional
  split
  · apply refusedFor_onlyKeys.bind
    intro _ _
    split
    · exact refusedFor_ok _
    · exact refusedFor_malformed _ rfl
  · split
    · exact refusedFor_ok _
    · exact refusedFor_malformed _ rfl

theorem refusedFor_ofIteration {marker : Value} :
    RefusedFor o (· = .iteration) (ofIteration fields marker) := by
  unfold ofIteration
  split
  · exact refusedFor_bodyOf.bind fun _ _ => refusedFor_ok _
  · apply refusedFor_onlyKeys.bind
    intro _ _
    apply refusedFor_requiredText.bind
    intro _ _
    apply refusedFor_loopName.bind
    intro _ _
    apply refusedFor_loopName.bind
    intro _ _
    apply refusedFor_loopName.bind
    intro _ _
    exact refusedFor_bodyOf.bind fun _ _ => refusedFor_ok _
  · exact refusedFor_malformed _ rfl

theorem refusedFor_ofBinding {marker : Value} :
    RefusedFor o (· = .binding) (ofBinding fields marker) := by
  unfold ofBinding
  split
  · exact refusedFor_bodyOf.bind fun _ _ => refusedFor_ok _
  · apply refusedFor_onlyKeys.bind
    intro _ _
    apply refusedFor_requiredText.bind
    intro _ _
    exact refusedFor_bodyOf.bind fun _ _ => refusedFor_ok _
  · exact refusedFor_malformed _ rfl

/-- An object without a form has the key of the control at fault. -/
theorem refusedFor_ofFields :
    RefusedFor o (·.key ∈ fields.names) (ofFields fields) := by
  have howned (control : Control) {marker : Value} (h : fields.get? control.key = some marker) :
      ∀ other, other = control → other.key ∈ fields.names := by
    rintro _ rfl
    exact List.mem_map_of_mem (Fields.mem_of_get? h)
  unfold ofFields
  split
  · next h => exact refusedFor_ofConditional.mono (howned .conditional h)
  · split
    · next h => exact refusedFor_ofIteration.mono (howned .iteration h)
    · split
      · next h => exact refusedFor_ofBinding.mono (howned .binding h)
      · exact refusedFor_ok _

end Form

/-- The control that a form belongs to. -/
def Form.control? : Form → Option Control
  | .plain => none
  | .conditional .. => some .conditional
  | .iteration .. => some .iteration
  | .binding .. => some .binding

theorem Form.key_mem_of_hasForm {fields : Fields Value} {form : Form} {control : Control}
    (h : HasForm fields form) (hcontrol : form.control? = some control) :
    control.key ∈ fields.names := by
  cases h with
  | plain => cases hcontrol
  | conditional hmarker | iteration _ hmarker | binding _ _ hmarker =>
    cases hcontrol
    exact List.mem_map_of_mem (Fields.mem_of_get? hmarker)

namespace Block

variable {o : Options}

theorem refusedFor_ofCondition {condition : String} {yes : Block} {no : Option Block} :
    RefusedFor o (· = .conditional) (ofCondition o condition yes no) := by
  unfold ofCondition
  simp only
  split
  · exact refusedFor_malformed _ rfl
  · split
    · exact refusedFor_ok _
    · exact refusedFor_ok _
    · exact (refusedFor_compile _).bind fun _ _ => refusedFor_ok _

theorem refusedFor_ofIteration {source : String} {names : LoopNames} {body : Block} :
    RefusedFor o (· = .iteration) (ofIteration o source names body) := by
  unfold ofIteration
  simp only
  split
  · exact refusedFor_malformed _ rfl
  · exact (refusedFor_compile _).bind fun _ _ => refusedFor_ok _

theorem refusedFor_ofBinding {text : String} {body : Block} :
    RefusedFor o (· = .binding) (ofBinding o text body) := by
  unfold ofBinding
  split
  · exact refusedFor_malformed _ rfl
  · exact refusedFor_malformed _ rfl
  · exact (refusedFor_compile _).bind fun _ _ => refusedFor_ok _

end Block

namespace Node

variable {o : Options} {controls : Control → Prop}

theorem refusedFor_addPrograms {markers : List Marker} {programs : Fields Program} :
    RefusedFor o controls (TextTemplate.addPrograms o markers programs) := by
  induction markers generalizing programs with
  | nil => exact refusedFor_ok _
  | cons m rest ih =>
    unfold TextTemplate.addPrograms
    split
    · exact ih
    · exact (refusedFor_compile _).bind fun _ _ => ih

theorem refusedFor_ofText (s : String) : RefusedFor o controls (ofText o s) := by
  unfold ofText
  simp only
  split
  · exact refusedFor_ok _
  · exact (refusedFor_compile _).bind fun _ _ => refusedFor_ok _
  · exact refusedFor_addPrograms.bind fun _ _ => refusedFor_ok _

theorem refusedFor_buildItems {items : List Value}
    (h : ∀ v ∈ items, RefusedFor o controls (build o v)) :
    RefusedFor o controls (buildItems o items) := by
  induction items with
  | nil =>
    rw [buildItems]
    exact refusedFor_ok _
  | cons v rest ih =>
    obtain ⟨hv, hrest⟩ := List.forall_mem_cons.1 h
    rw [buildItems]
    exact hv.bind fun _ _ => (ih hrest).bind fun _ _ => refusedFor_ok _

theorem refusedFor_buildFields {entries : List (String × Value)}
    (h : ∀ entry ∈ entries, RefusedFor o controls (build o entry.2)) :
    RefusedFor o controls (buildFields o entries) := by
  induction entries with
  | nil =>
    rw [buildFields]
    exact refusedFor_ok _
  | cons entry rest ih =>
    obtain ⟨hentry, hrest⟩ := List.forall_mem_cons.1 h
    obtain ⟨name, v⟩ := entry
    rw [buildFields]
    exact hentry.bind fun _ _ => (ih hrest).bind fun _ _ => refusedFor_ok _

/-- An object is refused for its own control or for what one of its parts is refused for. -/
theorem refusedFor_ofForm {fields : Fields Value} {form : Form} (hform : Form.HasForm fields form)
    (hown : ∀ control, form.control? = some control → controls control)
    (hentries : ∀ entry ∈ fields, RefusedFor o controls (build o entry.2))
    (hparts : ∀ part ∈ form.parts, RefusedFor o controls (build o part)) :
    RefusedFor o controls (build o (.object fields)) := by
  cases form with
  | plain =>
    rw [build_plain hform]
    exact (refusedFor_buildFields hentries).bind fun _ _ => refusedFor_ok _
  | conditional text yes no =>
    obtain ⟨hyes, hno⟩ := List.forall_mem_cons.1 hparts
    rw [build_conditional hform]
    refine hyes.bind fun _ _ => RefusedFor.bind ?_ fun _ _ => ?_
    · cases no with
      | none => exact refusedFor_ok _
      | some no => exact (hno no (List.mem_singleton_self no)).map
    · exact (Block.refusedFor_ofCondition.mono (by rintro _ rfl; exact hown _ rfl)).map
  | iteration source names body =>
    rw [build_iteration hform]
    refine (hparts body (List.mem_singleton_self body)).bind fun _ _ => ?_
    exact (Block.refusedFor_ofIteration.mono (by rintro _ rfl; exact hown _ rfl)).map
  | binding text body =>
    rw [build_binding hform]
    refine (hparts body (List.mem_singleton_self body)).bind fun _ _ => ?_
    exact (Block.refusedFor_ofBinding.mono (by rintro _ rfl; exact hown _ rfl)).map

/-- A document is refused for expressions and for controls with a key in the document only. -/
theorem refusedFor_build (v : Value) :
    RefusedFor o (fun control => v.Mentions control.key) (build o v) := by
  induction v using Value.induction_forms with
  | null =>
    rw [build_null]
    exact refusedFor_ok _
  | bool b =>
    rw [build_bool]
    exact refusedFor_ok _
  | number n =>
    rw [build_number]
    exact refusedFor_ok _
  | string s =>
    rw [build_string]
    exact refusedFor_ofText s
  | array items ih =>
    rw [build_array]
    refine RefusedFor.bind (refusedFor_buildItems fun v hv => ?_) fun _ _ => refusedFor_ok _
    exact (ih v hv).mono fun _ h => h.of_item hv
  | object fields ihEntries ihParts =>
    cases hform : Form.ofFields fields with
    | error e =>
      rw [build_of_formError hform]
      rintro _ ⟨⟩
      exact Form.refusedFor_ofFields.mono (fun _ h => Value.mentions_own h) e hform
    | ok form =>
      have hform := Form.ofFields_eq_ok.1 hform
      refine refusedFor_ofForm hform (fun control hcontrol => ?_) (fun entry hentry => ?_)
        fun part hpart => ?_
      · exact Value.mentions_own (Form.key_mem_of_hasForm hform hcontrol)
      · exact (ihEntries entry hentry).mono fun _ h => h.of_entry hentry
      · exact (ihParts form hform part hpart).mono fun _ h =>
          Form.mentions_of_part hform hpart h

end Node

end JsonTemplate
