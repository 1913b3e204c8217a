import JsonTemplate.Expr.Arithmetic
import JsonTemplate.Text.Blank
import JsonTemplate.Text.Casing
import JsonTemplate.Value.Printer

/-! The functions that every expression can call. How many arguments a function takes is checked
before an expression runs. -/

namespace JsonTemplate

/-- How many arguments a function takes. -/
structure Arity where
  least : Nat
  most : Nat
  deriving DecidableEq, Repr

def Arity.accepts (a : Arity) (count : Nat) : Bool := a.least ≤ count && count ≤ a.most

def Arity.text (a : Arity) : String :=
  let noun := if a.most = 1 then "argument" else "arguments"
  if a.least = a.most then s!"{a.least} {noun}" else s!"{a.least} to {a.most} {noun}"

inductive Builtin where
  | len | upper | lower | trim | string | int | float | abs | keys | values | join | split
  deriving DecidableEq, Repr

namespace Builtin

def name : Builtin → String
  | .len => "len"
  | .upper => "upper"
  | .lower => "lower"
  | .trim => "trim"
  | .string => "string"
  | .int => "int"
  | .float => "float"
  | .abs => "abs"
  | .keys => "keys"
  | .values => "values"
  | .join => "join"
  | .split => "split"

def all : List Builtin :=
  [.len, .upper, .lower, .trim, .string, .int, .float, .abs, .keys, .values, .join, .split]

def arity : Builtin → Arity
  | .join => ⟨1, 2⟩
  | .split => ⟨2, 2⟩
  | _ => ⟨1, 1⟩

def ofName? (name : String) : Option Builtin := all.find? fun b => b.name == name

theorem ofName?_name (b : Builtin) : ofName? b.name = some b := by cases b <;> decide

/-- A function with its arity. -/
def describe (b : Builtin) : String := s!"{b.name}/{b.arity.text}"

/-! ### What the functions do -/

/-- An argument that has to be a string. -/
def stringArgument (function : String) : Value → Except EvalError String
  | .string s => .ok s
  | v => .error (.argument function "a string" v.kind)

def lengthOf : Value → EvalResult
  | .string s => .ok (.int s.length)
  | .array items => .ok (.int items.length)
  | .object fields => .ok (.int fields.length)
  | .null => .ok (.int 0)
  | v => .error (.argument "len" "a string, array or object" v.kind)

/-- The part of a float before its point, if it has 64 bits. -/
def integerPart (x : Float) : EvalResult :=
  let failed := .error (.failure "int" s!"{Decimal.plainLayout.text x} is out of integer range")
  match Decimal.truncate? x with
  | some n => if isInt64 n then .ok (.int n) else failed
  | none => failed

/-- The integer of 64 bits that a text stands for. -/
def readInt64? (s : List Char) : Option Int :=
  match Decimal.readInt? s with
  | some n => if isInt64 n then some n else none
  | none => none

/-- The error of a text that is no number. -/
def notParsed (function text : String) : EvalError := .failure function s!"cannot parse '{text}'"

def toInt : Value → EvalResult
  | .bool b => .ok (.int (if b then 1 else 0))
  | .string s =>
    let text := Text.trimChars s.toList
    match readInt64? text with
    | some n => .ok (.int n)
    | none =>
      match Decimal.readFloat? text with
      | some x => integerPart x
      | none => .error (notParsed "int" s)
  | .number n =>
    match n.word? with
    | some i => .ok (.int i)
    | none => integerPart n.toFloat
  | v => .error (.notConvertible "int" v.kind)

def toFloat : Value → EvalResult
  | .string s =>
    match Decimal.readFloat? (Text.trimChars s.toList) with
    | some x => Number.finite x
    | none => .error (notParsed "float" s)
  | .number n => Number.finite n.toFloat
  | v => .error (.notConvertible "float" v.kind)

def absolute : Value → EvalResult
  | .number n => n.abs
  | v => .error (.argument "abs" "a number" v.kind)

def keysOf : Value → EvalResult
  | .object fields => .ok (.array ((Fields.names fields).map .string))
  | v => .error (.argument "keys" "an object" v.kind)

def valuesOf : Value → EvalResult
  | .object fields => .ok (.array (Fields.values fields))
  | v => .error (.argument "values" "an object" v.kind)

/-- The display texts of the items, with the separator between them. -/
def joinItems (separator : String) (items : List Value) : Value :=
  .string (separator.intercalate (items.map Value.displayText))

def joinWith (list : Value) (separator : Option Value) : EvalResult :=
  match list with
  | .array items => do
    let separator ← match separator with
      | some v => stringArgument "join" v
      | none => pure ","
    pure (joinItems separator items)
  | v => .error (.argument "join" "an array" v.kind)

/-- Applies a function to its only argument. Further arguments are not looked at. -/
def onFirst (b : Builtin) (f : Value → EvalResult) : List Value → EvalResult
  | v :: _ => f v
  | [] => .error (.missingArgument b.name)

/-- Applies a function of texts to the only argument. -/
def onText (b : Builtin) (f : String → String) : List Value → EvalResult :=
  b.onFirst fun v => do pure (.string (f (← stringArgument b.name v)))

def call (b : Builtin) (arguments : List Value) : EvalResult :=
  match b with
  | .len => b.onFirst lengthOf arguments
  | .upper => b.onText Text.upper arguments
  | .lower => b.onText Text.lower arguments
  | .trim => b.onText Text.trim arguments
  | .string => b.onFirst (fun v => .ok (.string v.displayText)) arguments
  | .int => b.onFirst toInt arguments
  | .float => b.onFirst toFloat arguments
  | .abs => b.onFirst absolute arguments
  | .keys => b.onFirst keysOf arguments
  | .values => b.onFirst valuesOf arguments
  | .join => b.onFirst (fun v => joinWith v arguments[1]?) arguments
  | .split =>
    b.onFirst (fun v => do
      let text ← stringArgument "split" v
      match arguments[1]? with
      | some w =>
        let separator ← stringArgument "split" w
        pure (.array ((Text.pieces separator text).map .string))
      | none => .error (.missingArgument b.name)) arguments

end Builtin

end JsonTemplate
