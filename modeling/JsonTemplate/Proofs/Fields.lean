import JsonTemplate.Fields
import Mathlib.Data.List.Nodup
import Mathlib.Data.List.Perm.Subperm

/-! More about entries with names: what a look-up finds after several entries are set, how setting
an entry goes with changing all values, and what follows from counting entries, as no name stands
twice. -/

namespace JsonTemplate.Fields

variable {α β : Type} {name : String} {value : α} {fields : Fields α}

theorem mem_of_get? (h : get? name fields = some value) : (name, value) ∈ fields := by
  induction fields with
  | nil => cases h
  | cons entry rest ih =>
    obtain ⟨key, old⟩ := entry
    unfold get? at h
    split at h
    · next hname =>
      cases h
      rw [hname]
      exact List.mem_cons_self
    · exact List.mem_cons_of_mem _ (ih h)

theorem get?_eq_none_iff : get? name fields = none ↔ name ∉ names fields := by
  induction fields with
  | nil => simp [names]
  | cons entry rest ih =>
    obtain ⟨key, old⟩ := entry
    by_cases hname : name = key
    · simp [get?, names, hname]
    · simpa [get?, names, hname] using ih

/-- A name that is in order with all others has one entry, which is found. -/
theorem get?_of_mem (hordered : Ordered fields) (h : (name, value) ∈ fields) :
    get? name fields = some value := by
  induction fields with
  | nil => cases h
  | cons entry rest ih =>
    obtain ⟨hfirst, hrest⟩ := List.pairwise_cons.1 hordered
    rcases List.mem_cons.1 h with rfl | h
    · exact if_pos rfl
    · have hne : name ≠ entry.1 := by
        rintro rfl
        exact String.lt_irrefl _ (hfirst (entry.1, value) h)
      exact (if_neg hne).trans (ih hrest h)

theorem ordered_mapValues {f : α → β} : Ordered (mapValues f fields) ↔ Ordered fields :=
  List.pairwise_map

/-- Setting an entry to its own value changes nothing. -/
theorem insert_of_get? (hordered : Ordered fields) (h : get? name fields = some value) :
    insert name value fields = fields := by
  induction fields with
  | nil => cases h
  | cons entry rest ih =>
    obtain ⟨key, old⟩ := entry
    have hcons := List.pairwise_cons.1 hordered
    unfold get? at h
    by_cases hname : name = key
    · rw [if_pos hname] at h
      cases h
      rw [insert, if_neg (by rw [hname]; exact String.lt_irrefl key), if_pos hname, hname]
    · rw [if_neg hname] at h
      have hlt : key < name := hcons.1 _ (mem_of_get? h)
      have hnot : ¬name < key := fun hgt => String.lt_irrefl key (String.lt_trans hlt hgt)
      rw [insert, if_neg hnot, if_neg hname, ih hcons.2 h]

theorem get?_mapValues (f : α → β) (name : String) (fields : Fields α) :
    get? name (mapValues f fields) = (get? name fields).map f := by
  induction fields with
  | nil => rfl
  | cons entry rest ih =>
    obtain ⟨key, old⟩ := entry
    change get? name ((key, f old) :: mapValues f rest) = _
    rw [get?, get?]
    split
    · rfl
    · exact ih

theorem mapValues_insert (f : α → β) (name : String) (value : α) (fields : Fields α) :
    mapValues f (insert name value fields) = insert name (f value) (mapValues f fields) := by
  induction fields with
  | nil => rfl
  | cons entry rest ih =>
    obtain ⟨key, old⟩ := entry
    change _ = insert name (f value) ((key, f old) :: mapValues f rest)
    rw [insert, insert]
    split
    · rfl
    split
    · rfl
    · rw [← ih]
      rfl

/-- The value found under a name is one of those that were set under it. -/
theorem mem_of_get?_foldl_insert {entries : List (String × α)}
    (h : get? name (entries.foldl (fun fs e => insert e.1 e.2 fs) fields) = some value) :
    (name, value) ∈ entries ∨ get? name fields = some value := by
  induction entries generalizing fields with
  | nil => exact .inr h
  | cons entry rest ih =>
    rcases ih h with hrest | hset
    · exact .inl (List.mem_cons_of_mem entry hrest)
    · rw [get?_insert] at hset
      split at hset
      · next hname =>
        cases hset
        rw [hname]
        exact .inl List.mem_cons_self
      · exact .inr hset

theorem mem_of_get?_ofList {entries : List (String × α)}
    (h : get? name (ofList entries) = some value) : (name, value) ∈ entries := by
  rcases mem_of_get?_foldl_insert h with hmem | hnil
  · exact hmem
  · cases hnil

/-- A name that was set once stays. -/
theorem isSome_get?_foldl_insert {entries : List (String × α)}
    (h : (∃ value, (name, value) ∈ entries) ∨ (get? name fields).isSome) :
    (get? name (entries.foldl (fun fs e => insert e.1 e.2 fs) fields)).isSome := by
  induction entries generalizing fields with
  | nil =>
    rcases h with ⟨value, h⟩ | h
    · cases h
    · exact h
  | cons entry rest ih =>
    apply ih
    rw [get?_insert]
    by_cases hname : name = entry.1
    · rw [if_pos hname]
      exact .inr rfl
    · rw [if_neg hname]
      rcases h with ⟨value, h⟩ | h
      · rcases List.mem_cons.1 h with rfl | h
        · exact absurd rfl hname
        · exact .inl ⟨value, h⟩
      · exact .inr h

theorem isSome_get?_ofList {entries : List (String × α)} (h : (name, value) ∈ entries) :
    (get? name (ofList entries)).isSome :=
  isSome_get?_foldl_insert (.inl ⟨value, h⟩)

/-- A look-up after entries of different names were set. -/
theorem get?_foldl_insert {entries : List (String × α)} (h : (names entries).Nodup) :
    get? name (entries.foldl (fun fs e => insert e.1 e.2 fs) fields) =
      (get? name entries).or (get? name fields) := by
  induction entries generalizing fields with
  | nil => rfl
  | cons entry rest ih =>
    obtain ⟨hfirst, hrest⟩ := List.nodup_cons.1 h
    rw [List.foldl_cons, ih hrest, get?_insert, get?]
    by_cases hname : name = entry.1
    · rw [if_pos hname, if_pos hname, get?_eq_none_iff.2 (hname ▸ hfirst)]
      rfl
    · rw [if_neg hname, if_neg hname]

theorem get?_ofList {entries : List (String × α)} (h : (names entries).Nodup) :
    get? name (ofList entries) = get? name entries :=
  (get?_foldl_insert h).trans Option.or_none

/-! ### Entries in order -/

section Counting
variable {xs : Fields α} {ys : Fields β}

theorem nodup_names (h : xs.Ordered) : xs.names.Nodup := by
  refine (List.pairwise_map.2 h).imp ?_
  rintro name _ hlt rfl
  exact String.lt_irrefl name hlt

/-- If all names of the entries are names of as many others, then the others have no names
besides. -/
theorem names_subset_of_length_eq (hx : xs.Ordered) (hlength : xs.length = ys.length)
    (hnames : xs.names ⊆ ys.names) : ys.names ⊆ xs.names := by
  have hsubperm : xs.names.Subperm ys.names := (nodup_names hx).subperm hnames
  have hle : ys.names.length ≤ xs.names.length := by
    rw [names, names, List.length_map, List.length_map]
    exact Nat.le_of_eq hlength.symm
  exact (hsubperm.perm_of_length_le hle).symm.subset

/-- Entries that are all among as many others are the others, as both are in order. -/
theorem eq_of_subset {xs ys : Fields α} (hx : xs.Ordered) (hy : ys.Ordered)
    (hlength : xs.length = ys.length) (h : xs ⊆ ys) : xs = ys := by
  have hnodup : xs.Nodup := (nodup_names hx).of_map Prod.fst
  have hperm := (hnodup.subperm h).perm_of_length_le (Nat.le_of_eq hlength.symm)
  refine hperm.eq_of_pairwise ?_ hx hy
  intro a b _ _ hab hba
  exact absurd (String.lt_trans hab hba) (String.lt_irrefl a.1)

end Counting

end JsonTemplate.Fields
