import JsonTemplate.Template.Form

/-! Building templates from documents. All expressions are compiled, also those of branches that
will never be taken, and the first fault ends the building. -/

namespace JsonTemplate

/-- Compiles an expression of a template. -/
def Options.compile (o : Options) (source : String) : TemplateResult Program :=
  match Program.compile o source with
  | .ok p => .ok p
  | .error report => .error (.compile source report)

namespace TextTemplate

/-- Adds the programs of markers. A marker that is there already is not compiled again. -/
def addPrograms (o : Options) : List Marker → Fields Program → TemplateResult (Fields Program)
  | [], programs => .ok programs
  | m :: rest, programs =>
    if (programs.get? m.text).isSome then addPrograms o rest programs
    else do
      let program ← o.compile (String.ofList m.source)
      addPrograms o rest (programs.insert m.text program)

end TextTemplate

/-- The node of a string. A string that is one marker keeps the kind of its value, other strings
with markers are texts. -/
def Node.ofText (o : Options) (text : String) : TemplateResult Node :=
  let segments := Segment.ofText text.toList
  match Segment.markers segments, segments with
  | [], _ => .ok (.static (.string text))
  | [m], [_] => do
    let program ← o.compile (String.ofList m.source)
    pure (.block (.expression program m.asText))
  | markers, _ => do
    let programs ← TextTemplate.addPrograms o markers []
    pure (.block (.interpolation ⟨text, programs⟩))

namespace Block

/-- The truth of a condition that is spelled as a constant, in upper or lower case. -/
def constantTruth? (condition : String) : Option Bool :=
  match String.ofList (condition.toList.map Char.toLower) with
  | "true" | "1" => some true
  | "false" | "0" | "nil" | "null" => some false
  | _ => none

/-- A conditional of a condition's text. A constant condition leaves nothing but its branch. -/
def ofCondition (o : Options) (condition : String) (yes : Block) (no : Option Block) :
    TemplateResult Block :=
  let condition := Text.trim condition
  if condition = "" then .error (.malformed .conditional .emptyCondition)
  else match constantTruth? condition with
    | some true => .ok yes
    | some false => .ok (no.getD (.literal .null))
    | none => do
      let program ← o.compile condition
      pure (.conditional program yes no)

/-- An iteration of the text of its source. -/
def ofIteration (o : Options) (source : String) (names : LoopNames) (body : Block) :
    TemplateResult Block :=
  let source := Text.trim source
  if source = "" then .error (.malformed .iteration .emptyIteration)
  else do
    let program ← o.compile source
    pure (.iteration program names body)

/-- The characters of a bound name. -/
def isNameChar (c : Char) : Bool := c.isAlphanum || c == '_'

/-- The name and the expression of a text such as `name := expression`. -/
def splitBinding? (text : List Char) : Option (List Char × List Char) :=
  let text := text.dropWhile Text.isBlank
  let name := text.takeWhile isNameChar
  match name, (text.dropWhile isNameChar).dropWhile Text.isBlank with
  | _ :: _, ':' :: '=' :: rest => some (name, Text.trimChars rest)
  | _, _ => none

/-- A binding of the text of its name and expression. -/
def ofBinding (o : Options) (text : String) (body : Block) : TemplateResult Block :=
  match splitBinding? text.toList with
  | none => .error (.malformed .binding (.notBinding text))
  | some (name, []) => .error (.malformed .binding (.missingExpression (String.ofList name)))
  | some (name, source) => do
    let program ← o.compile (String.ofList source)
    pure (.binding (String.ofList name) program body)

end Block

namespace Node

/-- A sequence, or the array itself if nothing in it is a block. -/
def ofItems (items : List Value) (nodes : List Node) : Node :=
  if nodes.any isBlock then .block (.sequence nodes) else .static (.array items)

/-- A mapping, or the object itself if nothing in it is a block. -/
def ofEntries (fields : Fields Value) (nodes : List (String × Node)) : Node :=
  if nodes.any fun n => n.2.isBlock then .block (.mapping nodes) else .static (.object fields)

mutual

/-- The node of a value. The parts of a control object are built before its expression is
compiled. -/
def build (o : Options) (v : Value) : TemplateResult Node :=
  match v with
  | .string s => ofText o s
  | .array items => do
    let nodes ← buildItems o items
    pure (ofItems items nodes)
  | .object fields =>
    match _h : Form.ofFields fields with
    | .error e => .error e
    | .ok .plain => do
      let nodes ← buildFields o fields
      pure (ofEntries fields nodes)
    | .ok (.conditional condition yes no) => do
      let yesNode ← build o (.object yes)
      match _hno : no with
      | none => .block <$> Block.ofCondition o condition yesNode.toBlock none
      | some no => do
        let noNode ← build o no
        .block <$> Block.ofCondition o condition yesNode.toBlock (some noNode.toBlock)
    | .ok (.iteration source names body) => do
      let bodyNode ← build o body
      .block <$> Block.ofIteration o source names bodyNode.toBlock
    | .ok (.binding text body) => do
      let bodyNode ← build o body
      .block <$> Block.ofBinding o text bodyNode.toBlock
  | v => .ok (.static v)
  termination_by (v.size, 0)
  decreasing_by
    · simp only [Value.size]; exact Prod.Lex.left _ _ (by omega)
    · simp only [Value.size]; exact Prod.Lex.left _ _ (by omega)
    · exact Prod.Lex.left _ _ (Form.size_lt_of_mem_parts _h (by simp [Form.parts]))
    · exact Prod.Lex.left _ _ (Form.size_lt_of_mem_parts _h (by simp [Form.parts, _hno]))
    · exact Prod.Lex.left _ _ (Form.size_lt_of_mem_parts _h (by simp [Form.parts]))
    · exact Prod.Lex.left _ _ (Form.size_lt_of_mem_parts _h (by simp [Form.parts]))

def buildItems (o : Options) (items : List Value) : TemplateResult (List Node) :=
  match items with
  | [] => .ok []
  | v :: rest => do
    let node ← build o v
    pure (node :: (← buildItems o rest))
  termination_by (Value.sizeItems items, 1)
  decreasing_by
    · simp only [Value.sizeItems]
      rcases Nat.eq_zero_or_pos (Value.sizeItems rest) with h | h
      · rw [h]; exact Prod.Lex.right _ (by omega)
      · exact Prod.Lex.left _ _ (by omega)
    · simp only [Value.sizeItems]
      have := v.size_pos
      exact Prod.Lex.left _ _ (by omega)

def buildFields (o : Options) (fields : List (String × Value)) :
    TemplateResult (List (String × Node)) :=
  match fields with
  | [] => .ok []
  | (name, v) :: rest => do
    let node ← build o v
    pure ((name, node) :: (← buildFields o rest))
  termination_by (Value.sizeFields fields, 1)
  decreasing_by
    · simp only [Value.sizeFields]; exact Prod.Lex.left _ _ (by omega)
    · simp only [Value.sizeFields]; exact Prod.Lex.left _ _ (by omega)

end

end Node

end JsonTemplate
