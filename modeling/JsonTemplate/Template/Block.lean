import JsonTemplate.Expr.Program
import JsonTemplate.Template.Context
import JsonTemplate.Template.Marker

/-! Templates as trees. A node is either static, a value that is the same in every context, or a
block. Objects and arrays become blocks only if there is a block inside them. -/

namespace JsonTemplate

/-- The names that an iteration binds for its body. -/
structure LoopNames where
  index : String
  key : String
  item : String
  deriving DecidableEq, Repr

def LoopNames.standard : LoopNames := ⟨"index", "key", "item"⟩

/-- A text with markers in it, and the programs of its markers under the texts of the markers. -/
structure TextTemplate where
  text : String
  programs : Fields Program

mutual

inductive Node where
  | static (v : Value)
  | block (b : Block)

inductive Block where
  | literal (v : Value)
  | expression (program : Program) (asText : Bool)
  | interpolation (template : TextTemplate)
  | sequence (items : List Node)
  | mapping (fields : List (String × Node))
  | conditional (condition : Program) (yes : Block) (no : Option Block)
  | iteration (source : Program) (names : LoopNames) (body : Block)
  | binding (name : String) (value : Program) (body : Block)

end

instance : Inhabited Node := ⟨.static .null⟩

instance : Inhabited Block := ⟨.literal .null⟩

namespace Block

inductive Kind where
  | literal | expression | interpolation | sequence | mapping | conditional | iteration | binding
  deriving DecidableEq, Repr

def Kind.name : Kind → String
  | .literal => "literal"
  | .expression => "expression"
  | .interpolation => "string template"
  | .sequence => "sequence"
  | .mapping => "mapping"
  | .conditional => "conditional"
  | .iteration => "iteration"
  | .binding => "binding"

def kind : Block → Kind
  | .literal _ => .literal
  | .expression .. => .expression
  | .interpolation _ => .interpolation
  | .sequence _ => .sequence
  | .mapping _ => .mapping
  | .conditional .. => .conditional
  | .iteration .. => .iteration
  | .binding .. => .binding

end Block

namespace Node

def isBlock : Node → Bool
  | .static _ => false
  | .block _ => true

/-- The node as a block. A static value becomes a literal. -/
def toBlock : Node → Block
  | .static v => .literal v
  | .block b => b

end Node

end JsonTemplate
