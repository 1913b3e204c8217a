import JsonTemplate.Template.Block

/-! Filling in a template. A block gives a value for a context, or the first error. -/

namespace JsonTemplate

/-- Runs a program as part of a template. -/
def Program.emit (p : Program) (c : Context) : TemplateResult Value :=
  match p.run c.vars with
  | .ok v => .ok v
  | .error e => .error (.evaluation p.source e)

namespace TextTemplate

/-- The display texts of all programs, each under the text of its marker. -/
def emitPrograms (c : Context) : Fields Program → TemplateResult (Fields String)
  | [] => .ok []
  | (marker, program) :: rest => do
    let v ← program.emit c
    pure ((marker, v.displayText) :: (← emitPrograms c rest))

/-- The text with every marker replaced by the text found for it. -/
def substitute (text : String) (found : Fields String) : String :=
  String.ofList (Segment.fill
    (fun m => match found.get? m.text with
      | some s => s.toList
      | none => m.raw)
    (Segment.ofText text.toList))

/-- All programs run before anything is replaced, and what is put in is not looked at again. -/
def emit (t : TextTemplate) (c : Context) : TemplateResult Value := do
  pure (.string (substitute t.text (← emitPrograms c t.programs)))

end TextTemplate

namespace Context

/-- The context of one pass over an array, given the one that the pass starts from. -/
def bindItem (c : Context) (names : LoopNames) (index : Nat) (item : Value) : Context :=
  (c.bind names.index (.int index)).bind names.item item

/-- The context of one pass over an object, given the one that the pass starts from. -/
def bindEntry (c : Context) (names : LoopNames) (index : Nat) (entry : String × Value) : Context :=
  ((c.bind names.key (.string entry.1)).bind names.item entry.2).bind names.index (.int index)

/-- The values of a body for all members of a collection with their positions. One context serves
all passes: each pass sets its names in the context that the pass before it leaves. -/
def passes {α : Type} (enter : Context → Nat → α → Context)
    (body : Context → TemplateResult Value) :
    Context → List (α × Nat) → TemplateResult (List Value)
  | _, [] => .ok []
  | c, (member, index) :: rest => do
    let inside := enter c index member
    let v ← body inside
    pure (v :: (← passes enter body inside rest))

end Context

mutual

def Node.emit (c : Context) : Node → TemplateResult Value
  | .static v => .ok v
  | .block b => b.emit c

/-- The value of a block. Over an array the nulls among the results of an iteration are left out,
over an object they stay. -/
def Block.emit (c : Context) : Block → TemplateResult Value
  | .literal v => .ok v
  | .expression program asText => do
    let v ← program.emit c
    pure (if asText then .string v.displayText else v)
  | .interpolation template => template.emit c
  | .sequence items => do pure (.array (← Node.emitItems c items))
  | .mapping fields => do pure (.object (← Node.emitFields c fields))
  | .conditional condition yes no => do
    if (← condition.emit c).truthy then yes.emit c else Block.emitBranch c no
  | .iteration source names body => do
    match ← source.emit c with
    | .array items => do
      let results ← Context.passes (·.bindItem names) (fun inside => body.emit inside) c
        items.zipIdx
      pure (.array (results.filter fun v => !v.isNull))
    | .object fields => do
      let results ← Context.passes (·.bindEntry names) (fun inside => body.emit inside) c
        fields.zipIdx
      pure (.array results)
    | v => .error (.notIterable source.source v.kind)
  | .binding name value body => do
    let v ← value.emit c
    body.emit (c.bind name v)

/-- A branch that is not there gives null. -/
def Block.emitBranch (c : Context) : Option Block → TemplateResult Value
  | none => .ok .null
  | some b => b.emit c

def Node.emitItems (c : Context) : List Node → TemplateResult (List Value)
  | [] => .ok []
  | n :: rest => do
    let v ← n.emit c
    pure (v :: (← Node.emitItems c rest))

def Node.emitFields (c : Context) : List (String × Node) → TemplateResult (List (String × Value))
  | [] => .ok []
  | (name, n) :: rest => do
    let v ← n.emit c
    pure ((name, v) :: (← Node.emitFields c rest))

end

end JsonTemplate
