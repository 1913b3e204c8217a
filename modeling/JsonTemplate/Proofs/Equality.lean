import JsonTemplate.Proofs.Comparison
import JsonTemplate.Proofs.Fields

/-! Equality of documents. Two documents are equal if they have the same shape with numbers of the
same quantity in the same places. For objects it is only asked whether all entries of the one are
found in the other. As no name stands twice, an object with as many entries has no others then. So
equality goes both ways, it is identity where all numbers are words, and it agrees with the order
of numbers and texts. -/

namespace JsonTemplate

/-! ### Numbers -/

/-- A finite float stands for so many units. -/
theorem Decimal.exists_units {x : Float} (h : x.isFinite) : ∃ i, units? x = some i := by
  change x.toModel.unpack.isFinite = true at h
  unfold units?
  generalize x.toModel.unpack = u at h
  cases u with
  | zero s => exact ⟨0, rfl⟩
  | finite s m e hm => exact ⟨signed (isNegative s) (scaled m e), rfl⟩
  | infinity | notANumber => cases h

namespace Number

/-- The numbers of documents: the integers that a document can hold, and finite floats. -/
def IsDocument : Number → Prop
  | .int n => isDocumentInteger n
  | .float x => x.isFinite

def IsWord (a : Number) : Prop := ∃ n, isInt64 n ∧ a = .int n

variable {a b : Number}

theorem exists_units (h : a.IsDocument) : ∃ i, Decimal.units? a.toFloat = some i := by
  cases a with
  | int n => exact ⟨_, Decimal.units?_ofInt (isDocumentInteger.natAbs_lt h)⟩
  | float x => exact Decimal.exists_units h

/-- Words have an order as integers, and other numbers as floats. In the opposite order of the
operands it is turned around, and the numbers are equal if it says so. -/
theorem exists_order (ha : a.IsDocument) (hb : b.IsDocument) :
    ∃ order : Ordering, compare? a b = some order ∧ compare? b a = some order.swap ∧
      sameQuantity a b = order.isEq := by
  suffices horder : ∃ i j : Int, compare? a b = some (compare i j) ∧
      compare? b a = some (compare j i) ∧ (sameQuantity a b = true ↔ i = j) by
    obtain ⟨i, j, hab, hba, hsame⟩ := horder
    refine ⟨compare i j, hab, hba.trans (congrArg some Std.OrientedCmp.eq_swap), ?_⟩
    rw [Bool.eq_iff_iff, hsame, Ordering.isEq_iff_eq_eq, compare_eq_iff_eq]
  unfold compare? sameQuantity words?
  cases hm : a.word? with
  | some m =>
    cases hn : b.word? with
    | some n => exact ⟨m, n, rfl, rfl, beq_iff_eq⟩
    | none =>
      obtain ⟨i, hi⟩ := exists_units ha
      obtain ⟨j, hj⟩ := exists_units hb
      exact ⟨i, j, Decimal.compareFloats?_eq_compare hi hj,
        Decimal.compareFloats?_eq_compare hj hi, Decimal.beq_iff_units hi hj⟩
  | none =>
    obtain ⟨i, hi⟩ := exists_units ha
    obtain ⟨j, hj⟩ := exists_units hb
    refine ⟨i, j, Decimal.compareFloats?_eq_compare hi hj, ?_, Decimal.beq_iff_units hi hj⟩
    cases b.word? <;> exact Decimal.compareFloats?_eq_compare hj hi

theorem sameQuantity_self (h : a.IsDocument) : sameQuantity a a = true := by
  obtain ⟨order, horder, hswap, hsame⟩ := exists_order h h
  rw [horder] at hswap
  rw [hsame]
  cases order with
  | eq => rfl
  | lt | gt => cases hswap

theorem sameQuantity_comm (ha : a.IsDocument) (hb : b.IsDocument) :
    sameQuantity a b = sameQuantity b a := by
  obtain ⟨order, horder, -, hsame⟩ := exists_order ha hb
  obtain ⟨order', -, hswap, hsame'⟩ := exists_order hb ha
  rw [horder] at hswap
  cases hswap
  rw [hsame, hsame']
  cases order' <;> rfl

theorem IsWord.sameQuantity_iff (ha : a.IsWord) (hb : b.IsWord) :
    sameQuantity a b = true ↔ a = b := by
  obtain ⟨m, hm, rfl⟩ := ha
  obtain ⟨n, hn, rfl⟩ := hb
  rw [sameQuantity, words?_int hm hn]
  simp

end Number

/-! ### Documents -/

namespace Value

mutual

/-- All numbers inside a value. -/
def numbers : Value → List Number
  | .number n => [n]
  | .array items => numbersOfItems items
  | .object fields => numbersOfFields fields
  | _ => []

def numbersOfItems : List Value → List Number
  | [] => []
  | v :: rest => v.numbers ++ numbersOfItems rest

def numbersOfFields : List (String × Value) → List Number
  | [] => []
  | (_, v) :: rest => v.numbers ++ numbersOfFields rest

end

/-- The values that a document can have: the names of every object are in order, and every number
is one of a document. -/
structure IsDocument (v : Value) : Prop where
  ordered : v.Ordered
  numbers : ∀ n ∈ v.numbers, n.IsDocument

variable {items xs ys : List Value} {fields : Fields Value} {a b : Value} {m n : Number}

theorem isDocument_number : (Value.number n).IsDocument ↔ n.IsDocument := by
  constructor
  · exact fun h => h.numbers n List.mem_cons_self
  · exact fun h => ⟨trivial, List.forall_mem_singleton.2 h⟩

theorem ordered_array : (Value.array items).Ordered ↔ ∀ v ∈ items, v.Ordered := by
  rw [Ordered]
  induction items with
  | nil => simp [OrderedItems]
  | cons v rest ih => rw [OrderedItems, ih, List.forall_mem_cons]

theorem ordered_object :
    (Value.object fields).Ordered ↔ fields.Ordered ∧ ∀ entry ∈ fields, entry.2.Ordered := by
  have hfields (fields : Fields Value) :
      OrderedFields fields ↔ ∀ entry ∈ fields, entry.2.Ordered := by
    induction fields with
    | nil => simp [OrderedFields]
    | cons entry rest ih => rw [OrderedFields, ih, List.forall_mem_cons]
  rw [Ordered, hfields]

theorem numbers_array : (Value.array items).numbers = items.flatMap numbers := by
  rw [numbers]
  induction items with
  | nil => rfl
  | cons v rest ih => rw [numbersOfItems, ih, List.flatMap_cons]

theorem numbers_object :
    (Value.object fields).numbers = fields.flatMap fun entry => entry.2.numbers := by
  rw [numbers]
  induction fields with
  | nil => rfl
  | cons entry rest ih => rw [numbersOfFields, ih, List.flatMap_cons]

theorem isDocument_array : (Value.array items).IsDocument ↔ ∀ v ∈ items, v.IsDocument := by
  constructor
  · rintro ⟨hordered, hnumbers⟩ v hv
    rw [numbers_array, List.forall_mem_flatMap] at hnumbers
    exact ⟨ordered_array.1 hordered v hv, hnumbers v hv⟩
  · intro h
    refine ⟨ordered_array.2 fun v hv => (h v hv).ordered, ?_⟩
    rw [numbers_array, List.forall_mem_flatMap]
    exact fun v hv => (h v hv).numbers

theorem isDocument_object : (Value.object fields).IsDocument ↔
    fields.Ordered ∧ ∀ entry ∈ fields, entry.2.IsDocument := by
  constructor
  · rintro ⟨hordered, hnumbers⟩
    rw [ordered_object] at hordered
    rw [numbers_object, List.forall_mem_flatMap] at hnumbers
    exact ⟨hordered.1, fun entry hentry => ⟨hordered.2 entry hentry, hnumbers entry hentry⟩⟩
  · rintro ⟨hordered, h⟩
    refine ⟨ordered_object.2 ⟨hordered, fun entry hentry => (h entry hentry).ordered⟩, ?_⟩
    rw [numbers_object, List.forall_mem_flatMap]
    exact fun entry hentry => (h entry hentry).numbers

/-- Induction over values with all that is inside an array or an object. -/
theorem induction_members {P : Value → Prop} (null : P .null) (bool : ∀ b, P (.bool b))
    (number : ∀ n, P (.number n)) (string : ∀ s, P (.string s))
    (array : ∀ items, (∀ v ∈ items, P v) → P (.array items))
    (object : ∀ fields : Fields Value, (∀ entry ∈ fields, P entry.2) → P (.object fields))
    (v : Value) : P v := by
  induction hsize : v.size using Nat.strongRecOn generalizing v with
  | ind size ih =>
    subst hsize
    cases v with
    | null => exact null
    | bool b => exact bool b
    | number n => exact number n
    | string s => exact string s
    | array items => exact array items fun v hv => ih _ (size_lt_of_mem_items hv) v rfl
    | object fields =>
      exact object fields fun entry hentry => ih _ (size_lt_of_mem_fields hentry) _ rfl

/-! ### Equality -/

/-- What equality asks of two values, given what it asks of the values inside them. -/
inductive Matches (R : Value → Value → Prop) : Value → Value → Prop where
  | null : Matches R .null .null
  | bool (b : Bool) : Matches R (.bool b) (.bool b)
  | number {m n : Number} : m.sameQuantity n → Matches R (.number m) (.number n)
  | string (s : String) : Matches R (.string s) (.string s)
  | array {xs ys : List Value} : List.Forall₂ R xs ys → Matches R (.array xs) (.array ys)
  | object {xs ys : Fields Value} : xs.length = ys.length →
    (∀ entry ∈ xs, ∃ y, ys.get? entry.1 = some y ∧ R entry.2 y) →
    Matches R (.object xs) (.object ys)

theorem equalItemsBy_iff {same : Number → Number → Bool} :
    equalItemsBy same xs ys = true ↔
      List.Forall₂ (fun x y => equalBy same x y = true) xs ys := by
  induction xs generalizing ys with
  | nil => cases ys <;> simp [equalItemsBy]
  | cons x xs ih => cases ys <;> simp [equalItemsBy, ih]

theorem foundBy_iff {same : Number → Number → Bool} {xs ys : Fields Value} :
    foundBy same xs ys = true ↔
      ∀ entry ∈ xs, ∃ y, ys.get? entry.1 = some y ∧ equalBy same entry.2 y = true := by
  induction xs with
  | nil => simp [foundBy]
  | cons entry xs ih =>
    rw [foundBy, Bool.and_eq_true, ih, List.forall_mem_cons]
    refine and_congr_left fun _ => ?_
    cases ys.get? entry.1 <;> simp

theorem equal_iff_matches : a.equal b = true ↔ Matches (fun x y => x.equal y = true) a b := by
  constructor
  · intro h
    cases a with
    | null =>
      cases b with
      | null => exact .null
      | _ => cases h
    | bool =>
      cases b with
      | bool =>
        cases beq_iff_eq.1 h
        exact .bool _
      | _ => cases h
    | number =>
      cases b with
      | number => exact .number h
      | _ => cases h
    | string =>
      cases b with
      | string =>
        cases beq_iff_eq.1 h
        exact .string _
      | _ => cases h
    | array =>
      cases b with
      | array => exact .array (equalItemsBy_iff.1 h)
      | _ => cases h
    | object =>
      cases b with
      | object =>
        rw [equal, equalBy, Bool.and_eq_true, beq_iff_eq] at h
        exact .object h.1 (foundBy_iff.1 h.2)
      | _ => cases h
  · rintro (_ | b | h | s | h | ⟨hlength, h⟩)
    · rfl
    · exact beq_self_eq_true b
    · exact h
    · exact beq_self_eq_true s
    · exact equalItemsBy_iff.2 h
    · rw [equal, equalBy, Bool.and_eq_true, beq_iff_eq]
      exact ⟨hlength, foundBy_iff.2 h⟩

/-- What follows for two members that are related follows for related lists. -/
theorem forall₂_imp_of_mem {R S : Value → Value → Prop} (h : List.Forall₂ R xs ys)
    (himp : ∀ x ∈ xs, ∀ y ∈ ys, R x y → S x y) : List.Forall₂ S xs ys := by
  induction h with
  | nil => exact .nil
  | cons hxy _ ih =>
    refine .cons (himp _ List.mem_cons_self _ List.mem_cons_self hxy) (ih fun x hx y hy => ?_)
    exact himp x (List.mem_cons_of_mem _ hx) y (List.mem_cons_of_mem _ hy)

theorem equal_self (h : a.IsDocument) : a.equal a = true := by
  induction a using induction_members with
  | null => rfl
  | bool b => exact equal_iff_matches.2 (.bool b)
  | number n =>
    have hn : n.IsDocument := isDocument_number.1 h
    exact equal_iff_matches.2 (.number (Number.sameQuantity_self hn))
  | string s => exact equal_iff_matches.2 (.string s)
  | array items ih =>
    refine equal_iff_matches.2 (.array (List.forall₂_same.2 fun v hv => ?_))
    exact ih v hv (isDocument_array.1 h v hv)
  | object fields ih =>
    obtain ⟨hordered, hentries⟩ := isDocument_object.1 h
    refine equal_iff_matches.2 (.object rfl fun entry hentry => ⟨entry.2, ?_, ?_⟩)
    · exact Fields.get?_of_mem hordered hentry
    · exact ih entry hentry (hentries entry hentry)

/-- Objects: each entry of the second one has the name of an entry of the first one, as no other
names are left. -/
theorem equal_symm (ha : a.IsDocument) (hb : b.IsDocument) (h : a.equal b = true) :
    b.equal a = true := by
  induction a using induction_members generalizing b with
  | null | bool | string =>
    cases equal_iff_matches.1 h
    exact h
  | number m =>
    cases equal_iff_matches.1 h with
    | @number _ n hmn =>
      rw [Number.sameQuantity_comm (isDocument_number.1 ha) (isDocument_number.1 hb)] at hmn
      exact equal_iff_matches.2 (.number hmn)
  | array xs ih =>
    cases equal_iff_matches.1 h with
    | @array _ ys hitems =>
      rw [isDocument_array] at ha hb
      have hflip := forall₂_imp_of_mem hitems fun x hx y hy => ih x hx (ha x hx) (hb y hy)
      exact equal_iff_matches.2 (.array hflip.flip)
  | object xs ih =>
    cases equal_iff_matches.1 h with
    | @object _ ys hlength hentries =>
      obtain ⟨hxs, hx⟩ := isDocument_object.1 ha
      obtain ⟨hys, hy⟩ := isDocument_object.1 hb
      have hsubset : xs.names ⊆ ys.names := by
        intro name hname
        obtain ⟨entry, hentry, rfl⟩ := List.mem_map.1 hname
        obtain ⟨y, hfound, -⟩ := hentries entry hentry
        exact List.mem_map.2 ⟨(entry.1, y), Fields.mem_of_get? hfound, rfl⟩
      have hnames := Fields.names_subset_of_length_eq hxs hlength hsubset
      refine equal_iff_matches.2 (.object hlength.symm fun entry hentry => ?_)
      obtain ⟨⟨name, x⟩, hmem, hname⟩ := List.mem_map.1 (hnames (List.mem_map_of_mem hentry))
      obtain ⟨y, hfound, hxy⟩ := hentries _ hmem
      cases hname
      have hget := Fields.get?_of_mem hys hentry
      cases hfound.symm.trans hget
      exact ⟨x, Fields.get?_of_mem hxs hmem, ih _ hmem (hx _ hmem) (hy _ hentry) hxy⟩

theorem eq_of_equal (ha : a.IsDocument) (hb : b.IsDocument) (hawords : ∀ n ∈ a.numbers, n.IsWord)
    (hbwords : ∀ n ∈ b.numbers, n.IsWord) (h : a.equal b = true) : a = b := by
  induction a using induction_members generalizing b with
  | null | bool | string =>
    cases equal_iff_matches.1 h
    rfl
  | number m =>
    cases equal_iff_matches.1 h with
    | @number _ n hmn =>
      have hm : m.IsWord := hawords m List.mem_cons_self
      rw [(hm.sameQuantity_iff (hbwords n List.mem_cons_self)).1 hmn]
  | array xs ih =>
    cases equal_iff_matches.1 h with
    | @array _ ys hitems =>
      rw [isDocument_array] at ha hb
      rw [numbers_array, List.forall_mem_flatMap] at hawords hbwords
      have heq := forall₂_imp_of_mem hitems fun x hx y hy =>
        ih x hx (ha x hx) (hb y hy) (hawords x hx) (hbwords y hy)
      rw [List.forall₂_eq_eq_eq] at heq
      rw [heq]
  | object xs ih =>
    cases equal_iff_matches.1 h with
    | @object _ ys hlength hentries =>
      obtain ⟨hxs, hx⟩ := isDocument_object.1 ha
      obtain ⟨hys, hy⟩ := isDocument_object.1 hb
      rw [numbers_object, List.forall_mem_flatMap] at hawords hbwords
      have hsubset : xs ⊆ ys := by
        intro entry hentry
        obtain ⟨y, hfound, hxy⟩ := hentries entry hentry
        have hmem := Fields.mem_of_get? hfound
        have heq : entry.2 = y := ih entry hentry (hx _ hentry) (hy _ hmem) (hawords _ hentry)
          (hbwords _ hmem) hxy
        rwa [← heq] at hmem
      rw [Fields.eq_of_subset hxs hys hlength hsubset]

/-- Only two numbers or two texts have an order. -/
theorem order_of_compare? {order : Ordering} (ha : a.IsDocument) (hb : b.IsDocument)
    (h : a.compare? b = some order) :
    b.compare? a = some order.swap ∧ a.equal b = order.isEq := by
  cases a with
  | string s =>
    cases b with
    | string t =>
      cases h
      refine ⟨congrArg some Std.OrientedCmp.eq_swap, ?_⟩
      rw [Bool.eq_iff_iff, Ordering.isEq_iff_eq_eq, compare_eq_iff_eq]
      exact beq_iff_eq
    | _ => cases h
  | number m =>
    cases b with
    | number n =>
      obtain ⟨order', horder, hswap, hsame⟩ :=
        Number.exists_order (isDocument_number.1 ha) (isDocument_number.1 hb)
      cases horder.symm.trans h
      exact ⟨hswap, hsame⟩
    | _ => cases h
  | _ => cases h

/-- Equality of documents holds of a document and itself, goes both ways, and is identity if all
numbers are words. Where two documents have an order, it is turned around with them, and they are
equal if it says so. -/
theorem equal_documents (ha : a.IsDocument) (hb : b.IsDocument) :
    a.equal a = true ∧ a.equal b = b.equal a ∧
      ((∀ n ∈ a.numbers, n.IsWord) → (∀ n ∈ b.numbers, n.IsWord) →
        (a.equal b = true ↔ a = b)) ∧
      ∀ order, a.compare? b = some order →
        b.compare? a = some order.swap ∧ (a.equal b = true ↔ order = .eq) := by
  refine ⟨equal_self ha, ?_, fun hawords hbwords => ⟨?_, ?_⟩, fun order horder => ?_⟩
  · exact Bool.eq_iff_iff.2 ⟨equal_symm ha hb, equal_symm hb ha⟩
  · exact eq_of_equal ha hb hawords hbwords
  · rintro rfl
    exact equal_self ha
  · obtain ⟨hswap, hequal⟩ := order_of_compare? ha hb horder
    rw [hequal, Ordering.isEq_iff_eq_eq]
    exact ⟨hswap, Iff.rfl⟩

/-- An integer and a float of the same quantity inside two objects, and two integers. -/
theorem equal_documents_mixed :
    (Value.object [("a", .array [.number (.float 2), .null])]).equal
        (.object [("a", .array [.int 2, .null])]) = true ∧
      ((Value.int 2).equal (.int 3) = true ↔ Value.int 2 = .int 3) ∧
      (Value.int 3).compare? (.int 2) = some .gt := by
  have hobject {n : Number} (hn : n.IsDocument) :
      (Value.object [("a", .array [.number n, .null])]).IsDocument := by
    refine isDocument_object.2 ⟨List.pairwise_singleton _ _, List.forall_mem_singleton.2 ?_⟩
    refine isDocument_array.2 (List.forall_mem_cons.2 ⟨isDocument_number.2 hn, ?_⟩)
    exact List.forall_mem_singleton.2 ⟨trivial, List.forall_mem_nil _⟩
  have hword (n : Int) (hn : isInt64 n) : ∀ m ∈ (Value.int n).numbers, m.IsWord :=
    List.forall_mem_singleton.2 ⟨n, hn, rfl⟩
  have htwo : (Value.int 2).IsDocument := isDocument_number.2 (by decide : isDocumentInteger 2)
  have hthree : (Value.int 3).IsDocument := isDocument_number.2 (by decide : isDocumentInteger 3)
  have hfloat : (Number.float 2).IsDocument := by
    change Float.isFinite 2 = true
    decide +kernel
  obtain ⟨-, hcomm, -⟩ := equal_documents (hobject hfloat) (hobject (isDocument_number.1 htwo))
  obtain ⟨-, -, hidentity, horder⟩ := equal_documents htwo hthree
  refine ⟨?_, hidentity (hword 2 (by decide)) (hword 3 (by decide)), (horder .lt (by decide)).1⟩
  exact hcomm.trans (by decide +kernel)

end Value

end JsonTemplate
