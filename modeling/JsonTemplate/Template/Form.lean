import JsonTemplate.Template.Block
import JsonTemplate.Value.Printer

/-! The forms of objects. A control object has the key of its control; a conditional goes before
an iteration, and that before a binding. The short form has a text under the key and the body in
the fields beside it, the structured form has an object there with everything inside. -/

namespace JsonTemplate

/-- The form of an object, with the values that are templates themselves. -/
inductive Form where
  | plain
  | conditional (condition : String) (yes : Fields Value) (no : Option Value)
  | iteration (source : String) (names : LoopNames) (body : Value)
  | binding (text : String) (body : Value)

namespace Form

/-- The text of a value that is neither null nor an array nor an object. -/
def scalarText? : Value → Option String
  | .string s => some s
  | .bool b => some (Value.bool b).jsonText
  | .number n => some n.jsonText
  | _ => none

def isBlankText (s : String) : Bool := Text.trimChars s.toList == []

/-- A structured control object has no fields but the given ones. -/
def onlyKeys (control : Control) (fields : Fields Value) (allowed : List String) :
    TemplateResult Unit :=
  match fields.names.find? fun name => name ∉ allowed with
  | some name => .error (.malformed control (.unexpectedKey name))
  | none => .ok ()

/-- The text under a key that must have one. -/
def requiredText (control : Control) (fields : Fields Value) (key : String) :
    TemplateResult String :=
  match fields.get? key with
  | none => .error (.malformed control (.missingText key))
  | some (.string s) =>
    if isBlankText s then .error (.malformed control (.missingText key)) else .ok s
  | some v => .error (.malformed control (.notText key v.kind))

/-- The name under a key, without blanks around it. -/
def loopName (fields : Fields Value) (key standard : String) : TemplateResult String :=
  match fields.get? key with
  | none => .ok standard
  | some (.string s) =>
    if isBlankText s then .error (.malformed .iteration (.notName key .string))
    else .ok (Text.trim s)
  | some v => .error (.malformed .iteration (.notName key v.kind))

/-- The condition of a structured conditional: the first of its keys with a text. -/
def conditionText? (fields : Fields Value) : Option String :=
  ["$cond", "$condition"].findSome? fun key =>
    ((fields.get? key).bind scalarText?).filter fun s => !isBlankText s

/-- The body in `$body`, or else the fields themselves. -/
def bodyOf (control : Control) (fields : Fields Value) : TemplateResult Value :=
  match fields.get? "$body" with
  | none => .ok (.object fields)
  | some body =>
    if 1 < fields.length then .error (.malformed control .fieldsBesideBody) else .ok body

def ofConditional (fields : Fields Value) (marker : Value) : TemplateResult Form :=
  match marker with
  | .object inner => do
    onlyKeys .conditional fields ["$if", "$else"]
    match conditionText? inner with
    | some condition =>
      pure (.conditional condition (Fields.without ["$cond", "$condition"] inner)
        (fields.get? "$else"))
    | none => .error (.malformed .conditional .missingCondition)
  | v =>
    match scalarText? v with
    | some condition =>
      .ok (.conditional condition (fields.without ["$if", "$else"]) (fields.get? "$else"))
    | none => .error (.malformed .conditional (.conditionKind v.kind))

def ofIteration (fields : Fields Value) (marker : Value) : TemplateResult Form :=
  match marker with
  | .string source => do
    let body ← bodyOf .iteration (fields.without ["$iterate"])
    pure (.iteration source .standard body)
  | .object inner => do
    onlyKeys .iteration fields ["$iterate"]
    let source ← requiredText .iteration inner "$expr"
    let index ← loopName inner "$index" LoopNames.standard.index
    let key ← loopName inner "$key" LoopNames.standard.key
    let item ← loopName inner "$value" LoopNames.standard.item
    let body ← bodyOf .iteration (Fields.without ["$expr", "$index", "$key", "$value"] inner)
    pure (.iteration source ⟨index, key, item⟩ body)
  | v => .error (.malformed .iteration (.markerKind v.kind))

def ofBinding (fields : Fields Value) (marker : Value) : TemplateResult Form :=
  match marker with
  | .string text => do
    let body ← bodyOf .binding (fields.without ["$with"])
    pure (.binding text body)
  | .object inner => do
    onlyKeys .binding fields ["$with"]
    let text ← requiredText .binding inner "$expr"
    let body ← bodyOf .binding (Fields.without ["$expr"] inner)
    pure (.binding text body)
  | v => .error (.malformed .binding (.markerKind v.kind))

def ofFields (fields : Fields Value) : TemplateResult Form :=
  match fields.get? "$if" with
  | some marker => ofConditional fields marker
  | none =>
    match fields.get? "$iterate" with
    | some marker => ofIteration fields marker
    | none =>
      match fields.get? "$with" with
      | some marker => ofBinding fields marker
      | none => .ok .plain

/-! ### The parts of a form are smaller than the object -/

/-- The values of a form that are templates themselves. -/
def parts : Form → List Value
  | .plain => []
  | .conditional _ yes no => .object yes :: no.toList
  | .iteration _ _ body => [body]
  | .binding _ body => [body]

open Value (sizeFields)

theorem size_le_of_bodyOf {control : Control} {fields : Fields Value} {body : Value}
    (h : bodyOf control fields = .ok body) : body.size ≤ 1 + sizeFields fields := by
  unfold bodyOf at h
  split at h
  · cases h; simp [Value.size]
  · next v hv =>
    split at h
    · cases h
    · cases h
      have := Value.size_lt_of_get? hv
      omega

/-- Taking the marker away leaves less than the object. -/
theorem size_without_marker {fields : Fields Value} {names : List String} {name : String}
    {marker : Value} (hn : name ∈ names) (h : fields.get? name = some marker) :
    1 + sizeFields (fields.without names) < 1 + sizeFields fields := by
  have := Value.sizeFields_without_lt hn h
  have := marker.size_pos
  omega

/-- The fields inside a marker, some taken away, are less than the object. -/
theorem size_inside_marker {fields inner : Fields Value} {names : List String} {name : String}
    (h : fields.get? name = some (.object inner)) :
    1 + sizeFields (inner.without names) < 1 + sizeFields fields := by
  have h₁ := Value.size_lt_of_get? h
  have h₂ := Value.sizeFields_without_le names inner
  rw [Value.size] at h₁
  omega

section Parts
variable {fields : Fields Value} {marker : Value} {form : Form} {part : Value}

theorem size_lt_of_ofConditional (hm : fields.get? "$if" = some marker)
    (h : ofConditional fields marker = .ok form) (hp : part ∈ form.parts) :
    part.size < 1 + sizeFields fields := by
  have noCase (hno : part ∈ (fields.get? "$else").toList) : part.size < 1 + sizeFields fields := by
    have := Value.size_lt_of_get? (Option.mem_toList.1 hno)
    omega
  unfold ofConditional at h
  split at h
  · simp only [bind, Except.bind] at h
    split at h
    · cases h
    · split at h
      · cases h
        rcases List.mem_cons.1 hp with rfl | hp
        · rw [Value.size]; exact size_inside_marker hm
        · exact noCase hp
      · cases h
  · split at h
    · cases h
      rcases List.mem_cons.1 hp with rfl | hp
      · rw [Value.size]; exact size_without_marker (by simp) hm
      · exact noCase hp
    · cases h

/-- The body beside a marker is smaller than the object. -/
theorem size_lt_beside_marker {control : Control} {names : List String} {name : String}
    {body : Value} (hn : name ∈ names) (hm : fields.get? name = some marker)
    (hb : bodyOf control (fields.without names) = .ok body) :
    body.size < 1 + sizeFields fields :=
  Nat.lt_of_le_of_lt (size_le_of_bodyOf hb) (size_without_marker hn hm)

/-- The body inside a marker is smaller than the object. -/
theorem size_lt_inside_marker {control : Control} {inner : Fields Value} {names : List String}
    {name : String} {body : Value} (hm : fields.get? name = some (.object inner))
    (hb : bodyOf control (Fields.without names inner) = .ok body) :
    body.size < 1 + sizeFields fields :=
  Nat.lt_of_le_of_lt (size_le_of_bodyOf hb) (size_inside_marker hm)

theorem size_lt_of_ofIteration (hm : fields.get? "$iterate" = some marker)
    (h : ofIteration fields marker = .ok form) (hp : part ∈ form.parts) :
    part.size < 1 + sizeFields fields := by
  unfold ofIteration at h
  split at h
  · simp only [bind, Except.bind] at h
    split at h
    · cases h
    · next hb =>
      cases h
      obtain rfl := List.mem_singleton.1 hp
      exact size_lt_beside_marker (by simp) hm hb
  · simp only [bind, Except.bind] at h
    repeat' (split at h; · cases h)
    next hb =>
      cases h
      obtain rfl := List.mem_singleton.1 hp
      exact size_lt_inside_marker hm hb
  · cases h

theorem size_lt_of_ofBinding (hm : fields.get? "$with" = some marker)
    (h : ofBinding fields marker = .ok form) (hp : part ∈ form.parts) :
    part.size < 1 + sizeFields fields := by
  unfold ofBinding at h
  split at h
  · simp only [bind, Except.bind] at h
    split at h
    · cases h
    · next hb =>
      cases h
      obtain rfl := List.mem_singleton.1 hp
      exact size_lt_beside_marker (by simp) hm hb
  · simp only [bind, Except.bind] at h
    repeat' (split at h; · cases h)
    next hb =>
      cases h
      obtain rfl := List.mem_singleton.1 hp
      exact size_lt_inside_marker hm hb
  · cases h

theorem size_lt_of_mem_parts (h : ofFields fields = .ok form) (hp : part ∈ form.parts) :
    part.size < (Value.object fields).size := by
  rw [Value.size]
  unfold ofFields at h
  split at h
  · next hm => exact size_lt_of_ofConditional hm h hp
  split at h
  · next hm => exact size_lt_of_ofIteration hm h hp
  split at h
  · next hm => exact size_lt_of_ofBinding hm h hp
  · cases h
    cases hp

end Parts

end Form

end JsonTemplate
