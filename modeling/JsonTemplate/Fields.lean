/-! Named entries in ascending order of their names. Inserting keeps the order and replaces an
entry of the same name, so each name has one entry, and a look-up finds it wherever it stands. -/

namespace JsonTemplate

/-- Entries with a name each. -/
abbrev Fields (α : Type) := List (String × α)

namespace Fields

variable {α β : Type}

/-- The entry of a name. -/
def get? (name : String) : Fields α → Option α
  | [] => none
  | (key, value) :: rest => if name = key then some value else get? name rest

/-- Sets the entry of a name, in front of the first greater name. -/
def insert (name : String) (value : α) : Fields α → Fields α
  | [] => [(name, value)]
  | (key, old) :: rest =>
    if name < key then (name, value) :: (key, old) :: rest
    else if name = key then (name, value) :: rest
    else (key, old) :: insert name value rest

/-- The entries of a list, of which later ones replace earlier ones of the same name. -/
def ofList (entries : List (String × α)) : Fields α :=
  entries.foldl (fun fields entry => insert entry.1 entry.2 fields) []

/-- The entries of all names but the given ones. -/
def without (names : List String) (fields : Fields α) : Fields α :=
  fields.filter fun entry => entry.1 ∉ names

/-- The names, in order. -/
def names (fields : Fields α) : List String := fields.map Prod.fst

/-- The values, in the order of their names. -/
def values (fields : Fields α) : List α := fields.map Prod.snd

/-- The same names with other values. -/
def mapValues (f : α → β) (fields : Fields α) : Fields β :=
  fields.map fun entry => (entry.1, f entry.2)

/-- Names in ascending order, each of them once. -/
def Ordered (fields : Fields α) : Prop := fields.Pairwise fun a b => a.1 < b.1

@[simp] theorem get?_nil (name : String) : get? name ([] : Fields α) = none := rfl

/-- The entry just set is found, and no other entry changes. -/
theorem get?_insert (name other : String) (value : α) (fields : Fields α) :
    get? other (insert name value fields) =
      if other = name then some value else get? other fields := by
  induction fields with
  | nil => simp [insert, get?]
  | cons entry rest ih =>
    obtain ⟨key, old⟩ := entry
    unfold insert
    split
    · simp [get?]
    · split
      · next h => subst h; simp only [get?]; split <;> rfl
      · next h =>
        simp only [get?, ih]
        by_cases ho : other = key
        · subst ho; simp [Ne.symm h]
        · simp [ho]

theorem mem_insert {name : String} {value : α} {fields : Fields α} {entry : String × α}
    (h : entry ∈ insert name value fields) : entry = (name, value) ∨ entry ∈ fields := by
  induction fields with
  | nil => simpa [insert] using h
  | cons head rest ih =>
    obtain ⟨key, old⟩ := head
    unfold insert at h
    split at h
    · simpa using h
    · split at h
      · simp only [List.mem_cons] at h ⊢
        rcases h with h | h
        · exact .inl h
        · exact .inr (.inr h)
      · simp only [List.mem_cons] at h ⊢
        rcases h with h | h
        · exact .inr (.inl h)
        · rcases ih h with h | h
          · exact .inl h
          · exact .inr (.inr h)

theorem ordered_insert {name : String} {value : α} {fields : Fields α} (h : Ordered fields) :
    Ordered (insert name value fields) := by
  induction fields with
  | nil => simp [insert, Ordered]
  | cons head rest ih =>
    obtain ⟨key, old⟩ := head
    have hcons := List.pairwise_cons.1 h
    unfold insert
    split
    · next hlt =>
      refine List.pairwise_cons.2 ⟨fun e he => ?_, h⟩
      rcases List.mem_cons.1 he with rfl | he
      · exact hlt
      · exact String.lt_trans hlt (hcons.1 e he)
    · split
      · next heq =>
        subst heq
        exact List.pairwise_cons.2 ⟨hcons.1, hcons.2⟩
      · next hlt hne =>
        refine List.pairwise_cons.2 ⟨fun e he => ?_, ih hcons.2⟩
        rcases mem_insert he with rfl | he
        · exact Std.lt_of_le_of_ne (Std.not_lt.1 hlt) (Ne.symm hne)
        · exact hcons.1 e he

theorem ordered_foldl_insert (entries : List (String × α)) {fields : Fields α}
    (h : Ordered fields) :
    Ordered (entries.foldl (fun fs e => insert e.1 e.2 fs) fields) := by
  induction entries generalizing fields with
  | nil => exact h
  | cons e rest ih => exact ih (ordered_insert h)

theorem ordered_ofList (entries : List (String × α)) : Ordered (ofList entries) :=
  ordered_foldl_insert entries List.Pairwise.nil

theorem ordered_without {names : List String} {fields : Fields α} (h : Ordered fields) :
    Ordered (without names fields) := h.filter _

end Fields

end JsonTemplate
