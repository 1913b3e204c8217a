import JsonTemplate.Text.CaseTable

/-! Capitals and small letters of all scripts. A capital may take several characters. The
small sigma has a second form for the end of a word, which depends on its neighbours. -/

namespace JsonTemplate.Text

def inRanges (ranges : List (Nat × Nat)) (c : Char) : Bool :=
  ranges.any fun (first, last) => first ≤ c.toNat && c.toNat ≤ last

def isCased (c : Char) : Bool := inRanges casedRanges c

def isCaseIgnorable (c : Char) : Bool := inRanges caseIgnorableRanges c

/-- The image of a character in the first run that has it, or the character itself. -/
def mapRuns (runs : List CaseRun) (c : Char) : Char :=
  match runs.findSome? fun r => r.map? c.toNat with
  | some n => Char.ofNat n
  | none => c

def upperChar (c : Char) : List Char :=
  match upperExpansions.find? fun e => e.1 == c.toNat with
  | some (_, image) => image.map Char.ofNat
  | none => [mapRuns upperRuns c]

/-- Whether the first character that counts for case is a cased one. -/
def startsCased (s : List Char) : Bool :=
  match s.dropWhile isCaseIgnorable with
  | [] => false
  | c :: _ => isCased c

/-- The small letters of one character, with the characters before it, nearest first, and the
ones after it. The capital sigma ends a word if a cased character comes before it and none
after it. The dotted capital I keeps its dot as a character of its own. -/
def lowerChar (before : List Char) (c : Char) (after : List Char) : List Char :=
  if c = '\u03A3' then
    [if startsCased before && !startsCased after then '\u03C2' else '\u03C3']
  else if c = '\u0130' then ['i', '\u0307']
  else [mapRuns lowerRuns c]

def lowerChars (before : List Char) : List Char → List Char
  | [] => []
  | c :: after => lowerChar before c after ++ lowerChars (c :: before) after

def upper (s : String) : String := String.ofList (s.toList.flatMap upperChar)

def lower (s : String) : String := String.ofList (lowerChars [] s.toList)

example : upper "h\u00E9llo \u00DF" = "H\u00C9LLO SS" := by decide +kernel
example : lower "\u0391\u03A3" = "\u03B1\u03C2" := by decide +kernel
example : lower "\u0391\u03A3\u0391 \u03A3" = "\u03B1\u03C3\u03B1 \u03C3" := by decide +kernel

end JsonTemplate.Text
