import JsonTemplate.Proofs.Fields
import JsonTemplate.Proofs.Template.Building
import JsonTemplate.Template.Basic

/-! The meaning of a document read directly: controls are looked up in the document whenever they
are reached, and the text of an expression is compiled whenever its value is needed. A template
that is built gives the same values and the same errors. -/

namespace JsonTemplate

namespace Interpretation

open Form (scalarText? isBlankText)

/-! ### Reading control objects -/

/-- The text under a key if it is not blank. -/
def textUnder? (fields : Fields Value) (key : String) : Option String :=
  ((fields.get? key).bind scalarText?).filter fun s => !isBlankText s

/-- The text of a condition, given what is under `$if`. -/
def condition : Value → String
  | .object inner =>
    ((textUnder? inner "$cond").or (textUnder? inner "$condition")).getD ""
  | marker => (scalarText? marker).getD ""

/-- What is left for the branch of a condition that holds. -/
def yesFields (fields : Fields Value) : Value → Fields Value
  | .object inner => Fields.without ["$cond", "$condition"] inner
  | _ => fields.without ["$if", "$else"]

/-- The text of a loop or a binding, given what is under its key. -/
def controlText : Value → String
  | .object inner => ((Fields.get? "$expr" inner).bind scalarText?).getD ""
  | marker => (scalarText? marker).getD ""

/-- The name under a key, or else the standard one. -/
def nameUnder (fields : Fields Value) (key standard : String) : String :=
  match fields.get? key with
  | some (.string s) => Text.trim s
  | _ => standard

def loopNames : Value → LoopNames
  | .object inner =>
    ⟨nameUnder inner "$index" "index", nameUnder inner "$key" "key",
      nameUnder inner "$value" "item"⟩
  | _ => ⟨"index", "key", "item"⟩

/-- What stands under `$body`, or else all that is left. -/
def bodyIn (rest : Fields Value) : Value := (rest.get? "$body").getD (.object rest)

def loopBody (fields : Fields Value) : Value → Value
  | .object inner => bodyIn (Fields.without ["$expr", "$index", "$key", "$value"] inner)
  | _ => bodyIn (fields.without ["$iterate"])

def bindingBody (fields : Fields Value) : Value → Value
  | .object inner => bodyIn (Fields.without ["$expr"] inner)
  | _ => bodyIn (fields.without ["$with"])

theorem size_yesFields {fields : Fields Value} {marker : Value}
    (h : fields.get? "$if" = some marker) :
    (Value.object (yesFields fields marker)).size < (Value.object fields).size := by
  rw [Value.size, Value.size]
  cases marker with
  | object inner => exact Form.size_inside_marker h
  | _ => exact Form.size_without_marker (by simp) h

theorem size_bodyIn_le (rest : Fields Value) : (bodyIn rest).size ≤ 1 + Value.sizeFields rest := by
  unfold bodyIn
  cases h : rest.get? "$body" with
  | none => exact Nat.le_refl _
  | some body =>
    have hlt := Value.size_lt_of_get? h
    simp only [Option.getD_some]
    omega

theorem size_loopBody {fields : Fields Value} {marker : Value}
    (h : fields.get? "$iterate" = some marker) :
    (loopBody fields marker).size < (Value.object fields).size := by
  rw [Value.size]
  cases marker with
  | object inner => exact Nat.lt_of_le_of_lt (size_bodyIn_le _) (Form.size_inside_marker h)
  | _ => exact Nat.lt_of_le_of_lt (size_bodyIn_le _) (Form.size_without_marker (by simp) h)

theorem size_bindingBody {fields : Fields Value} {marker : Value}
    (h : fields.get? "$with" = some marker) :
    (bindingBody fields marker).size < (Value.object fields).size := by
  rw [Value.size]
  cases marker with
  | object inner => exact Nat.lt_of_le_of_lt (size_bodyIn_le _) (Form.size_inside_marker h)
  | _ => exact Nat.lt_of_le_of_lt (size_bodyIn_le _) (Form.size_without_marker (by simp) h)

/-! ### Values -/

section
variable (o : Options)

/-- The value of the text of an expression. -/
def expression (source : String) (c : Context) : TemplateResult Value := do
  let program ← o.compile source
  program.emit c

def marked (c : Context) (m : Marker) : TemplateResult Value :=
  expression o (String.ofList m.source) c

/-- The markers of a text, one of each text, in ascending order of their texts. -/
def distinctMarkers (s : String) : Fields Marker :=
  Fields.ofList ((markersOf s).map fun m => (m.text, m))

/-- What a piece of a text is replaced by. -/
def piece (c : Context) : Segment → TemplateResult (List Char)
  | .char ch => .ok [ch]
  | .marker m => do pure (← marked o c m).displayText.toList

/-- All markers of a text are evaluated before any is replaced. -/
def text (s : String) (c : Context) : TemplateResult Value :=
  match Segment.ofText s.toList with
  | [.marker m] => do
    let v ← marked o c m
    pure (if m.asText then .string v.displayText else v)
  | segments =>
    if Segment.markers segments = [] then .ok (.string s)
    else do
      let _ ← (distinctMarkers s).values.mapM (marked o c)
      let pieces ← segments.mapM (piece o c)
      pure (.string (String.ofList pieces.flatten))

/-- Whether a condition holds, by its word or by its value. -/
def holds (condition : String) (c : Context) : TemplateResult Bool :=
  match Block.constantTruth? (Text.trim condition) with
  | some b => .ok b
  | none => do pure (← expression o (Text.trim condition) c).truthy

/-- The values of a body for all items or entries of a collection. -/
def loop (source : String) (names : LoopNames) (body : Context → TemplateResult Value)
    (c : Context) : Value → TemplateResult Value
  | .array items => do
    let results ← items.zipIdx.mapM fun (item, index) =>
      body ((c.bind names.index (.int index)).bind names.item item)
    pure (.array (results.filter fun v => !v.isNull))
  | .object fields => do
    let results ← fields.zipIdx.mapM fun ((key, item), index) =>
      body (((c.bind names.key (.string key)).bind names.item item).bind names.index (.int index))
    pure (.array results)
  | v => .error (.notIterable source v.kind)

mutual

/-- The meaning of a document in a context. Control objects that are malformed are read in some
way as well. -/
def value (v : Value) (c : Context) : TemplateResult Value :=
  match v with
  | .string s => text o s c
  | .array elements => do pure (.array (← items elements c))
  | .object fields =>
    match _hif : Fields.get? "$if" fields with
    | some marker => do
      if ← holds o (condition marker) c then value (.object (yesFields fields marker)) c
      else
        match _helse : Fields.get? "$else" fields with
        | some no => value no c
        | none => pure .null
    | none =>
      match _hiterate : Fields.get? "$iterate" fields with
      | some marker => do
        let source := Text.trim (controlText marker)
        let collection ← expression o source c
        loop source (loopNames marker) (fun inside => value (loopBody fields marker) inside) c
          collection
      | none =>
        match _hwith : Fields.get? "$with" fields with
        | some marker =>
          match Block.splitBinding? (controlText marker).toList with
          | some (name, source) => do
            let bound ← expression o (String.ofList source) c
            value (bindingBody fields marker) (c.bind (String.ofList name) bound)
          | none => pure .null
        | none => do pure (.object (← entries fields c))
  | v => .ok v
  termination_by (v.size, 0)
  decreasing_by
    · simp only [Value.size]; exact Prod.Lex.left _ _ (by omega)
    · exact Prod.Lex.left _ _ (size_yesFields _hif)
    · have := Value.size_lt_of_get? _helse
      simp only [Value.size]; exact Prod.Lex.left _ _ (by omega)
    · exact Prod.Lex.left _ _ (size_loopBody _hiterate)
    · exact Prod.Lex.left _ _ (size_bindingBody _hwith)
    · simp only [Value.size]; exact Prod.Lex.left _ _ (by omega)

def items (elements : List Value) (c : Context) : TemplateResult (List Value) :=
  match elements with
  | [] => .ok []
  | v :: rest => do
    let first ← value v c
    pure (first :: (← items rest c))
  termination_by (Value.sizeItems elements, 1)
  decreasing_by
    · simp only [Value.sizeItems]
      rcases Nat.eq_zero_or_pos (Value.sizeItems rest) with h | h
      · rw [h]; exact Prod.Lex.right _ (by omega)
      · exact Prod.Lex.left _ _ (by omega)
    · simp only [Value.sizeItems]
      have := v.size_pos
      exact Prod.Lex.left _ _ (by omega)

def entries (fields : List (String × Value)) (c : Context) :
    TemplateResult (List (String × Value)) :=
  match fields with
  | [] => .ok []
  | (name, v) :: rest => do
    let first ← value v c
    pure ((name, first) :: (← entries rest c))
  termination_by (Value.sizeFields fields, 1)
  decreasing_by
    · simp only [Value.sizeFields]; exact Prod.Lex.left _ _ (by omega)
    · simp only [Value.sizeFields]; exact Prod.Lex.left _ _ (by omega)

end

end

end Interpretation

end JsonTemplate
