import JsonTemplate.Template.Build
import JsonTemplate.Template.Emit
import JsonTemplate.Template.Printer
import JsonTemplate.Value.Decode

/-! Templates: built once from a document, then filled in with any number of contexts. -/

namespace JsonTemplate

structure Template where
  root : Block

namespace Template

def build (o : Options) (document : Value) : TemplateResult Template := do
  let node ← Node.build o document
  pure ⟨node.toBlock⟩

/-- The value of a template in a context. -/
def process (t : Template) (c : Context) : TemplateResult Value := t.root.emit c

/-- The value of a template, read as typed data. -/
def processAs {α : Type} (d : Decoder α) (t : Template) (c : Context) : TemplateResult α := do
  match d (← t.process c) with
  | some a => pure a
  | none => .error .decoding

def text (t : Template) : String := t.root.text

end Template

end JsonTemplate
