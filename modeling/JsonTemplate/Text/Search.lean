/-! Occurrences of one text in another. Splitting looks for the separator from left to right,
and goes on behind each occurrence it finds. -/

namespace JsonTemplate.Text

/-- Whether `part` stands somewhere in the text. -/
def occursIn (part : List Char) : List Char → Bool
  | [] => part.isEmpty
  | c :: rest => part.isPrefixOf (c :: rest) || occursIn part rest

theorem occursIn_iff {part text : List Char} : occursIn part text = true ↔ part <:+: text := by
  induction text with
  | nil => simp [occursIn]
  | cons c rest ih => simp [occursIn, ih, List.infix_cons_iff]

/-- Adds a character to the first piece. -/
def extendHead (c : Char) : List (List Char) → List (List Char)
  | [] => [[c]]
  | piece :: rest => (c :: piece) :: rest

/-- The pieces of a text between the occurrences of a separator. -/
def splitOn (sep : List Char) (hs : sep ≠ []) (text : List Char) : List (List Char) :=
  match text with
  | [] => [[]]
  | c :: rest =>
    if sep.isPrefixOf (c :: rest) then [] :: splitOn sep hs ((c :: rest).drop sep.length)
    else extendHead c (splitOn sep hs rest)
  termination_by text.length
  decreasing_by
    · have := List.length_pos_iff.2 hs
      rw [List.length_drop, List.length_cons]
      omega
    · simp

theorem splitOn_ne_nil (sep : List Char) (hs : sep ≠ []) (text : List Char) :
    splitOn sep hs text ≠ [] := by
  cases text with
  | nil => simp [splitOn]
  | cons c rest =>
    rw [splitOn]
    split
    · simp
    · cases splitOn sep hs rest <;> simp [extendHead]

/-- The pieces of a text between the occurrences of a separator. An empty separator stands
between any two characters, so that each character is a piece. -/
def pieces (sep text : String) : List String :=
  if hs : sep.toList = [] then text.toList.map fun c => String.ofList [c]
  else (splitOn sep.toList hs text.toList).map String.ofList

example : pieces "," "a,,b" = ["a", "", "b"] := by cbv
example : pieces "aa" "aaa" = ["", "a"] := by cbv
example : pieces "" "ab" = ["a", "b"] := by cbv

end JsonTemplate.Text
