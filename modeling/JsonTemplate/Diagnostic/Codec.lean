import JsonTemplate.Diagnostic.Report
import JsonTemplate.Value.Basic

/-! Reports as documents. The place of a diagnostic is written as four fields beside the others.
On reading, the suggestion may be missing or null, and unknown fields are passed over. -/

namespace JsonTemplate

namespace Value

/-- A natural number below a bound. -/
def natBelow? (bound : Nat) : Value → Option Nat
  | .number (.int n) => if 0 ≤ n ∧ n < bound then some n.toNat else none
  | _ => none

def string? : Value → Option String
  | .string s => some s
  | _ => none

end Value

namespace Category

def ofText? : String → Option Category
  | "syntax" => some .syntactic
  | "name" => some .name
  | "structure" => some .structural
  | _ => none

/-- A category is written as its text, or as an object with its text for its only name. -/
def ofValue? : Value → Option Category
  | .string s => ofText? s
  | .object [(s, .null)] => ofText? s
  | _ => none

end Category

namespace Diagnostic

def toValue (d : Diagnostic) : Value :=
  let suggestion : List (String × Value) := match d.suggestion with
    | some s => [("suggestion", .string s)]
    | none => []
  .object <| Fields.ofList <|
    [("code", .int d.code.number), ("category", .string d.category.text),
      ("message", .string d.message), ("line", .int d.span.start.line),
      ("column", .int d.span.start.column), ("end_line", .int d.span.stop.line),
      ("end_column", .int d.span.stop.column), ("source_line", .string d.sourceLine)] ++ suggestion

/-- The number of a line or column. -/
def place? (fields : Fields Value) (name : String) : Option Nat :=
  (fields.get? name).bind (Value.natBelow? 4294967296)

def suggestion? (fields : Fields Value) : Option (Option String) :=
  match fields.get? "suggestion" with
  | none | some .null => some none
  | some (.string s) => some (some s)
  | some _ => none

def ofValue? : Value → Option Diagnostic
  | .object fields => do
    let number ← (Fields.get? "code" fields).bind (Value.natBelow? 65536)
    let category ← (Fields.get? "category" fields).bind Category.ofValue?
    let message ← (Fields.get? "message" fields).bind Value.string?
    let sourceLine ← (Fields.get? "source_line" fields).bind Value.string?
    let suggestion ← suggestion? fields
    let start : Position := ⟨← place? fields "line", ← place? fields "column"⟩
    let stop : Position := ⟨← place? fields "end_line", ← place? fields "end_column"⟩
    pure ⟨⟨number⟩, category, message, ⟨start, stop⟩, sourceLine, suggestion⟩
  | _ => none

end Diagnostic

namespace Report

def toValue (r : Report) : Value :=
  .object (Fields.ofList
    [("errors", .array (r.listed.map Diagnostic.toValue)), ("total_errors", .int r.total)])

/-- The report with the given list and count. -/
def ofParts? (errors total : Value) : Option Report := do
  match errors with
  | .array items => pure ⟨← items.mapM Diagnostic.ofValue?, ← total.natBelow? 18446744073709551616⟩
  | _ => none

/-- Reads a report, also one that is written as an array of its two parts. The count is taken as
it is written. -/
def ofValue? : Value → Option Report
  | .object fields => do
    ofParts? (← Fields.get? "errors" fields) (← Fields.get? "total_errors" fields)
  | .array [errors, total] => ofParts? errors total
  | _ => none

end Report

end JsonTemplate
