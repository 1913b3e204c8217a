import JsonTemplate.Proofs.Evaluation.Errors
import JsonTemplate.Template.Form

/-! What makes an object a conditional, an iteration or a binding, as relations between its fields
and the parts of its form. The forms that are read off objects are those of the relations. -/

namespace JsonTemplate

namespace Form

variable {fields inner : Fields Value} {marker : Value}

theorem isBlankText_iff {s : String} : isBlankText s ↔ Text.trim s = "" := by
  rw [isBlankText, Text.trim, beq_iff_eq, ← String.ofList_nil]
  constructor
  · intro h
    rw [h]
  · intro h
    exact String.ofList_injective h

/-! ### Fields -/

/-- There is a string, a boolean or a number under the key, and its text is not blank. -/
def TextAt (fields : Fields Value) (key text : String) : Prop :=
  (∃ v, fields.get? key = some v ∧ scalarText? v = some text) ∧ ¬isBlankText text

/-- There is a string under the key, and it is not blank. -/
def StringAt (fields : Fields Value) (key text : String) : Prop :=
  fields.get? key = some (.string text) ∧ ¬isBlankText text

/-- There is a string under the key that is a name but for the blanks around it. Without the key
the name is the standard one. -/
inductive NameAt (fields : Fields Value) (key standard : String) : String → Prop where
  | absent : fields.get? key = none → NameAt fields key standard standard
  | given {text : String} : StringAt fields key text → NameAt fields key standard (Text.trim text)

/-- The text of a condition, under `$cond` or else under `$condition`. -/
inductive ConditionText (inner : Fields Value) : String → Prop where
  | first {text : String} : TextAt inner "$cond" text → ConditionText inner text
  | second {text : String} : (∀ other, ¬TextAt inner "$cond" other) →
    TextAt inner "$condition" text → ConditionText inner text

/-- The body of a loop or a binding is all that is left, or what stands alone under `$body`. -/
inductive Body (rest : Fields Value) : Value → Prop where
  | alone {body : Value} : rest = [("$body", body)] → Body rest body
  | fields : rest.get? "$body" = none → Body rest (.object rest)

theorem textAt_iff {key text : String} :
    ((fields.get? key).bind scalarText?).filter (fun s => !isBlankText s) = some text ↔
      TextAt fields key text := by
  rw [Option.filter_eq_some_iff, Option.bind_eq_some_iff, TextAt]
  simp

theorem conditionText?_eq_some {text : String} :
    conditionText? inner = some text ↔ ConditionText inner text := by
  have hfirst (t : String) : ((inner.get? "$cond").bind scalarText?).filter
      (fun s => !isBlankText s) = some t ↔ TextAt inner "$cond" t := textAt_iff
  have hsecond : ((inner.get? "$condition").bind scalarText?).filter
      (fun s => !isBlankText s) = some text ↔ TextAt inner "$condition" text := textAt_iff
  simp only [conditionText?, List.findSome?_cons, List.findSome?_nil]
  generalize ((inner.get? "$cond").bind scalarText?).filter _ = cond at hfirst
  generalize ((inner.get? "$condition").bind scalarText?).filter _ = condition at hsecond
  cases cond with
  | some t =>
    have ht : TextAt inner "$cond" t := (hfirst t).1 rfl
    constructor
    · intro h
      cases h
      exact .first ht
    · rintro (h | ⟨hnone, -⟩)
      · exact (hfirst text).2 h
      · exact absurd ht (hnone t)
  | none =>
    have hnone : ∀ t, ¬TextAt inner "$cond" t := by
      intro t ht
      cases (hfirst t).2 ht
    constructor
    · intro h
      refine .second hnone (hsecond.1 ?_)
      cases condition with
      | none => cases h
      | some t => exact h
    · rintro (h | ⟨-, h⟩)
      · exact absurd h (hnone text)
      · rw [hsecond.2 h]

theorem requiredText_eq_ok {control : Control} {key text : String} :
    requiredText control fields key = .ok text ↔ StringAt fields key text := by
  unfold requiredText StringAt
  constructor
  · intro h
    split at h
    · cases h
    · next s hs =>
      split at h
      · cases h
      · next hblank =>
        cases h
        exact ⟨hs, hblank⟩
    · cases h
  · rintro ⟨hs, hblank⟩
    rw [hs]
    exact if_neg hblank

theorem loopName_eq_ok {key standard name : String} :
    loopName fields key standard = .ok name ↔ NameAt fields key standard name := by
  unfold loopName
  constructor
  · intro h
    split at h
    · next hnone =>
      cases h
      exact .absent hnone
    · next s hs =>
      split at h
      · cases h
      · next hblank =>
        cases h
        exact .given ⟨hs, hblank⟩
    · cases h
  · rintro (hnone | ⟨hs, hblank⟩)
    · rw [hnone]
    · rw [hs]
      exact if_neg hblank

theorem onlyKeys_eq_ok {control : Control} {allowed : List String} :
    onlyKeys control fields allowed = .ok () ↔ ∀ name ∈ fields.names, name ∈ allowed := by
  unfold onlyKeys
  constructor
  · intro h
    split at h
    · cases h
    · next hnone => simpa [List.find?_eq_none] using hnone
  · intro h
    have hnone : (fields.names.find? fun name => name ∉ allowed) = none := by
      simpa [List.find?_eq_none] using h
    rw [hnone]

theorem get?_singleton {rest : Fields Value} {key : String} {v : Value}
    (h : rest.get? key = some v) (hlength : rest.length ≤ 1) : rest = [(key, v)] := by
  obtain _ | ⟨⟨name, w⟩, _ | ⟨second, more⟩⟩ := rest
  · cases h
  · simp only [Fields.get?, Option.ite_none_right_eq_some, Option.some.injEq] at h
    obtain ⟨rfl, rfl⟩ := h
    rfl
  · simp only [List.length_cons] at hlength
    omega

theorem bodyOf_eq_ok {control : Control} {rest : Fields Value} {body : Value} :
    bodyOf control rest = .ok body ↔ Body rest body := by
  unfold bodyOf
  constructor
  · intro h
    split at h
    · next hnone =>
      cases h
      exact .fields hnone
    · next v hv =>
      split at h
      · cases h
      · next hlength =>
        cases h
        exact .alone (get?_singleton hv (Nat.le_of_not_lt hlength))
  · rintro (rfl | hnone)
    · rfl
    · rw [hnone]

/-! ### Forms -/

/-- The text of a condition and both branches, given what is under `$if`. -/
inductive Conditional (fields : Fields Value) :
    Value → String → Fields Value → Option Value → Prop where
  | short {marker : Value} {text : String} : scalarText? marker = some text →
    Conditional fields marker text (fields.without ["$if", "$else"]) (fields.get? "$else")
  | structured {inner : Fields Value} {text : String} :
    (∀ name ∈ fields.names, name ∈ ["$if", "$else"]) → ConditionText inner text →
    Conditional fields (.object inner) text (inner.without ["$cond", "$condition"])
      (fields.get? "$else")

/-- The text of the source, the names and the body of a loop, given what is under `$iterate`. -/
inductive Iteration (fields : Fields Value) : Value → String → LoopNames → Value → Prop where
  | short {source : String} {body : Value} : Body (fields.without ["$iterate"]) body →
    Iteration fields (.string source) source .standard body
  | structured {inner : Fields Value} {source index key item : String} {body : Value} :
    (∀ name ∈ fields.names, name ∈ ["$iterate"]) → StringAt inner "$expr" source →
    NameAt inner "$index" LoopNames.standard.index index →
    NameAt inner "$key" LoopNames.standard.key key →
    NameAt inner "$value" LoopNames.standard.item item →
    Body (inner.without ["$expr", "$index", "$key", "$value"]) body →
    Iteration fields (.object inner) source ⟨index, key, item⟩ body

/-- The text and the body of a binding, given what is under `$with`. -/
inductive Binding (fields : Fields Value) : Value → String → Value → Prop where
  | short {text : String} {body : Value} : Body (fields.without ["$with"]) body →
    Binding fields (.string text) text body
  | structured {inner : Fields Value} {text : String} {body : Value} :
    (∀ name ∈ fields.names, name ∈ ["$with"]) → StringAt inner "$expr" text →
    Body (inner.without ["$expr"]) body → Binding fields (.object inner) text body

theorem ofConditional_eq_ok {form : Form} :
    ofConditional fields marker = .ok form ↔
      ∃ text yes no, form = .conditional text yes no ∧ Conditional fields marker text yes no := by
  constructor
  · intro h
    unfold ofConditional at h
    split at h
    · next inner =>
      obtain ⟨_, honly, h⟩ := bind_eq_ok.1 h
      cases hcondition : conditionText? inner with
      | none =>
        rw [hcondition] at h
        cases h
      | some text =>
        rw [hcondition] at h
        cases h
        exact ⟨_, _, _, rfl,
          .structured (onlyKeys_eq_ok.1 honly) (conditionText?_eq_some.1 hcondition)⟩
    · split at h
      · next text htext =>
        cases h
        exact ⟨_, _, _, rfl, .short htext⟩
      · cases h
  · rintro ⟨text, yes, no, rfl, h⟩
    cases h with
    | short htext => cases marker <;> simp_all [ofConditional, scalarText?]
    | structured honly hcondition =>
      have honly : onlyKeys .conditional fields ["$if", "$else"] = .ok () :=
        onlyKeys_eq_ok.2 honly
      simp only [ofConditional, honly, conditionText?_eq_some.2 hcondition]
      rfl

theorem ofIteration_eq_ok {form : Form} :
    ofIteration fields marker = .ok form ↔
      ∃ source names body, form = .iteration source names body ∧
        Iteration fields marker source names body := by
  constructor
  · intro h
    unfold ofIteration at h
    split at h
    · next source =>
      obtain ⟨body, hbody, h⟩ := bind_eq_ok.1 h
      cases h
      exact ⟨_, _, _, rfl, .short (bodyOf_eq_ok.1 hbody)⟩
    · next inner =>
      obtain ⟨_, honly, h⟩ := bind_eq_ok.1 h
      obtain ⟨source, hsource, h⟩ := bind_eq_ok.1 h
      obtain ⟨index, hindex, h⟩ := bind_eq_ok.1 h
      obtain ⟨key, hkey, h⟩ := bind_eq_ok.1 h
      obtain ⟨item, hitem, h⟩ := bind_eq_ok.1 h
      obtain ⟨body, hbody, h⟩ := bind_eq_ok.1 h
      cases h
      exact ⟨_, _, _, rfl, .structured (onlyKeys_eq_ok.1 honly) (requiredText_eq_ok.1 hsource)
        (loopName_eq_ok.1 hindex) (loopName_eq_ok.1 hkey) (loopName_eq_ok.1 hitem)
        (bodyOf_eq_ok.1 hbody)⟩
    · cases h
  · rintro ⟨source, names, body, rfl, h⟩
    cases h with
    | short hbody =>
      exact bind_eq_ok.2 ⟨body, bodyOf_eq_ok.2 hbody, rfl⟩
    | structured honly hsource hindex hkey hitem hbody =>
      exact bind_eq_ok.2 ⟨_, onlyKeys_eq_ok.2 honly, bind_eq_ok.2
        ⟨_, requiredText_eq_ok.2 hsource, bind_eq_ok.2 ⟨_, loopName_eq_ok.2 hindex, bind_eq_ok.2
          ⟨_, loopName_eq_ok.2 hkey, bind_eq_ok.2 ⟨_, loopName_eq_ok.2 hitem, bind_eq_ok.2
            ⟨_, bodyOf_eq_ok.2 hbody, rfl⟩⟩⟩⟩⟩⟩

theorem ofBinding_eq_ok {form : Form} :
    ofBinding fields marker = .ok form ↔
      ∃ text body, form = .binding text body ∧ Binding fields marker text body := by
  constructor
  · intro h
    unfold ofBinding at h
    split at h
    · next text =>
      obtain ⟨body, hbody, h⟩ := bind_eq_ok.1 h
      cases h
      exact ⟨_, _, rfl, .short (bodyOf_eq_ok.1 hbody)⟩
    · next inner =>
      obtain ⟨_, honly, h⟩ := bind_eq_ok.1 h
      obtain ⟨text, htext, h⟩ := bind_eq_ok.1 h
      obtain ⟨body, hbody, h⟩ := bind_eq_ok.1 h
      cases h
      exact ⟨_, _, rfl, .structured (onlyKeys_eq_ok.1 honly) (requiredText_eq_ok.1 htext)
        (bodyOf_eq_ok.1 hbody)⟩
    · cases h
  · rintro ⟨text, body, rfl, h⟩
    cases h with
    | short hbody => exact bind_eq_ok.2 ⟨body, bodyOf_eq_ok.2 hbody, rfl⟩
    | structured honly htext hbody =>
      exact bind_eq_ok.2 ⟨_, onlyKeys_eq_ok.2 honly, bind_eq_ok.2
        ⟨_, requiredText_eq_ok.2 htext, bind_eq_ok.2 ⟨_, bodyOf_eq_ok.2 hbody, rfl⟩⟩⟩

/-- The forms of an object. A conditional goes before an iteration, and that before a binding. -/
inductive HasForm (fields : Fields Value) : Form → Prop where
  | plain : fields.get? "$if" = none → fields.get? "$iterate" = none →
    fields.get? "$with" = none → HasForm fields .plain
  | conditional {marker : Value} {text : String} {yes : Fields Value} {no : Option Value} :
    fields.get? "$if" = some marker → Conditional fields marker text yes no →
    HasForm fields (.conditional text yes no)
  | iteration {marker : Value} {source : String} {names : LoopNames} {body : Value} :
    fields.get? "$if" = none → fields.get? "$iterate" = some marker →
    Iteration fields marker source names body → HasForm fields (.iteration source names body)
  | binding {marker : Value} {text : String} {body : Value} :
    fields.get? "$if" = none → fields.get? "$iterate" = none →
    fields.get? "$with" = some marker → Binding fields marker text body →
    HasForm fields (.binding text body)

theorem ofFields_eq_ok {form : Form} : ofFields fields = .ok form ↔ HasForm fields form := by
  unfold ofFields
  cases hif : fields.get? "$if" with
  | some marker =>
    simp only [ofConditional_eq_ok]
    constructor
    · rintro ⟨text, yes, no, rfl, h⟩
      exact .conditional hif h
    · intro h
      cases h with
      | conditional hmarker h =>
        cases hif.symm.trans hmarker
        exact ⟨_, _, _, rfl, h⟩
      | plain hnone | iteration hnone | binding hnone => cases hif.symm.trans hnone
  | none =>
    cases hiterate : fields.get? "$iterate" with
    | some marker =>
      simp only [ofIteration_eq_ok]
      constructor
      · rintro ⟨source, names, body, rfl, h⟩
        exact .iteration hif hiterate h
      · intro h
        cases h with
        | iteration _ hmarker h =>
          cases hiterate.symm.trans hmarker
          exact ⟨_, _, _, rfl, h⟩
        | conditional hmarker => cases hif.symm.trans hmarker
        | plain _ hnone | binding _ hnone => cases hiterate.symm.trans hnone
    | none =>
      cases hwith : fields.get? "$with" with
      | some marker =>
        simp only [ofBinding_eq_ok]
        constructor
        · rintro ⟨text, body, rfl, h⟩
          exact .binding hif hiterate hwith h
        · intro h
          cases h with
          | binding _ _ hmarker h =>
            cases hwith.symm.trans hmarker
            exact ⟨_, _, rfl, h⟩
          | conditional hmarker => cases hif.symm.trans hmarker
          | iteration _ hmarker => cases hiterate.symm.trans hmarker
          | plain _ _ hnone => cases hwith.symm.trans hnone
      | none =>
        constructor
        · intro h
          cases h
          exact .plain hif hiterate hwith
        · intro h
          cases h with
          | plain => rfl
          | conditional hmarker => cases hif.symm.trans hmarker
          | iteration _ hmarker => cases hiterate.symm.trans hmarker
          | binding _ _ hmarker => cases hwith.symm.trans hmarker

end Form

end JsonTemplate
