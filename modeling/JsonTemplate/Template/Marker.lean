import JsonTemplate.Text.Blank

/-! Markers. An expression stands between double braces, with blanks around it left out; `s=`
behind the opening braces asks for the text of its value. The expression has no newline, and
ends as early as it can. -/

namespace JsonTemplate

/-- A marker in a text. -/
structure Marker where
  /-- The text from the opening to the closing braces. -/
  raw : List Char
  source : List Char
  asText : Bool
  deriving DecidableEq, Repr

namespace Marker

/-- The number of characters up to the end of the closing braces, if nothing but blanks comes
before them. -/
def closing? (s : List Char) : Option Nat :=
  match s.dropWhile Text.isBlank with
  | '}' :: '}' :: _ => some ((s.takeWhile Text.isBlank).length + 2)
  | _ => none

/-- The shortest expression that closing braces follow, and the number of characters up to their
end. It has at least one character, and no newline. -/
def content? : List Char → Option (List Char × Nat)
  | [] => none
  | c :: rest =>
    if c = '\n' then none
    else match closing? rest with
      | some n => some ([c], n + 1)
      | none => (content? rest).map fun (cs, n) => (c :: cs, n + 1)

/-- An expression behind up to `n` blanks, as many as possible. -/
def contentAfter? (s : List Char) : Nat → Option (List Char × Nat)
  | 0 => content? s
  | n + 1 =>
    match content? (s.drop (n + 1)) with
    | some (cs, k) => some (cs, n + 1 + k)
    | none => contentAfter? s n

/-- What stands behind the opening braces, or behind `s=`. -/
def inside? (s : List Char) : Option (List Char × Nat) :=
  contentAfter? s (s.takeWhile Text.isBlank).length

/-- The inside with `s=` taken off, if there is an expression left, or else the whole inside. -/
def body? (s : List Char) : Option (List Char × Bool × Nat) :=
  let plain := (inside? s).map fun (cs, n) => (cs, false, n)
  match s with
  | 's' :: '=' :: rest =>
    match inside? rest with
    | some (cs, n) => some (cs, true, n + 2)
    | none => plain
  | _ => plain

/-- The marker that a text starts with. -/
def at? (s : List Char) : Option Marker :=
  match s with
  | '{' :: '{' :: rest =>
    (body? rest).map fun (cs, asText, n) => ⟨s.take (n + 2), cs, asText⟩
  | _ => none

/-- A marker as a key. -/
def text (m : Marker) : String := String.ofList m.raw

end Marker

/-- A piece of a text: a character of its own, or a marker. -/
inductive Segment where
  | char (c : Char)
  | marker (m : Marker)
  deriving DecidableEq, Repr

namespace Segment

/-- The pieces of a text. Markers are looked for from left to right, and a marker ends before the
next one starts. -/
def ofText : List Char → List Segment
  | [] => []
  | c :: rest =>
    match Marker.at? (c :: rest) with
    | some m => .marker m :: ofText (rest.drop (m.raw.length - 1))
    | none => .char c :: ofText rest
  termination_by s => s.length
  decreasing_by
    · rw [List.length_drop, List.length_cons]; omega
    · rw [List.length_cons]; omega

def marker? : Segment → Option Marker
  | .marker m => some m
  | .char _ => none

/-- The markers among pieces. -/
def markers (segments : List Segment) : List Marker := segments.filterMap marker?

/-- The text of the pieces, with the given texts in place of markers. -/
def fill (filler : Marker → List Char) (segments : List Segment) : List Char :=
  segments.flatMap fun
    | .char c => [c]
    | .marker m => filler m

end Segment

example : (Marker.at? "\x7b\x7bs= a \x7d\x7d b".toList).map Marker.text =
    some "\x7b\x7bs= a \x7d\x7d" := by decide +kernel
example : (Marker.at? "\x7b\x7b \x7d\x7d".toList).map Marker.source = some [' '] := by
  decide +kernel
example : (Marker.at? "\x7b\x7bs=\x7d\x7d".toList).map Marker.source = some ['s', '='] := by
  decide +kernel

end JsonTemplate
