import JsonTemplate.Proofs.Fields
import JsonTemplate.Proofs.Template.Building
import JsonTemplate.Proofs.Template.MarkerText
import JsonTemplate.Template.Basic

/-! Static documents: no control key and no marker anywhere in them. Building leaves them as they
are, and makes a block of every other document, so that no array or object becomes a block without
a block inside. -/

namespace JsonTemplate

namespace Value

mutual

/-- The value and all values inside it. -/
def inside : Value → List Value
  | .array items => .array items :: insideItems items
  | .object fields => .object fields :: insideFields fields
  | v => [v]

def insideItems : List Value → List Value
  | [] => []
  | v :: rest => v.inside ++ insideItems rest

def insideFields : List (String × Value) → List Value
  | [] => []
  | (_, v) :: rest => v.inside ++ insideFields rest

end

/-- The value is no text with a marker and no object with the key of a control. What is inside it
does not count. -/
def Inert : Value → Prop
  | .string s => ¬HasMarker s.toList
  | .object fields => ∀ control : Control, control.key ∉ Fields.names fields
  | _ => True

/-- There is no marker and no key of a control anywhere in the value. -/
def Static (v : Value) : Prop := ∀ w ∈ v.inside, w.Inert

theorem forall_mem_insideItems {items : List Value} {p : Value → Prop} :
    (∀ w ∈ insideItems items, p w) ↔ ∀ v ∈ items, ∀ w ∈ v.inside, p w := by
  induction items with
  | nil => simp [insideItems]
  | cons v rest ih => rw [insideItems, List.forall_mem_append, List.forall_mem_cons, ih]

theorem forall_mem_insideFields {fields : List (String × Value)} {p : Value → Prop} :
    (∀ w ∈ insideFields fields, p w) ↔ ∀ entry ∈ fields, ∀ w ∈ entry.2.inside, p w := by
  induction fields with
  | nil => simp [insideFields]
  | cons entry rest ih => rw [insideFields, List.forall_mem_append, List.forall_mem_cons, ih]

theorem static_string {s : String} : (Value.string s).Static ↔ ¬HasMarker s.toList :=
  List.forall_mem_singleton

theorem static_array {items : List Value} :
    (Value.array items).Static ↔ ∀ v ∈ items, v.Static := by
  rw [Static, inside, List.forall_mem_cons, forall_mem_insideItems]
  exact and_iff_right trivial

theorem static_object {fields : Fields Value} :
    (Value.object fields).Static ↔
      (∀ control : Control, control.key ∉ fields.names) ∧ ∀ entry ∈ fields, entry.2.Static := by
  rw [Static, inside, List.forall_mem_cons, forall_mem_insideFields]
  rfl

end Value

/-- An object is plain exactly if it has no key of a control. -/
theorem Form.hasForm_plain_iff {fields : Fields Value} :
    HasForm fields .plain ↔ ∀ control : Control, control.key ∉ fields.names := by
  constructor
  · intro h control
    cases h with
    | plain hif hiterate hwith =>
      rw [← Fields.get?_eq_none_iff]
      cases control with
      | conditional => exact hif
      | iteration => exact hiterate
      | binding => exact hwith
  · intro h
    exact .plain (Fields.get?_eq_none_iff.2 (h .conditional))
      (Fields.get?_eq_none_iff.2 (h .iteration)) (Fields.get?_eq_none_iff.2 (h .binding))

namespace Node

variable {o : Options}

/-! ### Static documents stay -/

theorem ofText_of_static {s : String} (h : ¬HasMarker s.toList) :
    ofText o s = .ok (.static (.string s)) := by
  rw [ofText, Segment.markers_eq_nil_iff.2 h]

theorem ofItems_static (items : List Value) :
    ofItems items (items.map .static) = .static (.array items) := by
  simp [ofItems, isBlock]

theorem ofEntries_static (fields : Fields Value) :
    ofEntries fields (fields.mapValues .static) = .static (.object fields) := by
  simp [ofEntries, Fields.mapValues, isBlock]

theorem build_of_static {v : Value} (h : v.Static) : build o v = .ok (.static v) := by
  rw [build_eq_ok]
  induction hsize : v.size using Nat.strongRecOn generalizing v with
  | ind size ih =>
    subst hsize
    cases v with
    | null => exact .null
    | bool b => exact .bool b
    | number n => exact .number n
    | string s => exact .string (ofText_of_static (Value.static_string.1 h))
    | array items =>
      have hitems : buildItems o items = .ok (items.map .static) := by
        rw [buildItems_eq_ok, List.forall₂_map_right_iff, List.forall₂_same]
        intro v hv
        rw [build_eq_ok]
        exact ih _ (Value.size_lt_of_mem_items hv) (Value.static_array.1 h v hv) rfl
      rw [← ofItems_static]
      exact .array hitems
    | object fields =>
      obtain ⟨hkeys, hentries⟩ := Value.static_object.1 h
      have hfields : buildFields o fields = .ok (Fields.mapValues .static fields) := by
        rw [buildFields_eq_ok, Fields.mapValues, List.forall₂_map_right_iff, List.forall₂_same]
        intro entry hentry
        refine ⟨rfl, build_eq_ok.2 ?_⟩
        exact ih _ (Value.size_lt_of_mem_fields hentry) (hentries entry hentry) rfl
      rw [← ofEntries_static]
      exact .plain (Form.hasForm_plain_iff.2 hkeys) hfields

/-! ### Other documents become blocks -/

theorem static_of_ofText {s : String} {w : Value} (h : ofText o s = .ok (.static w)) :
    ¬HasMarker s.toList := by
  rw [← Segment.markers_eq_nil_iff]
  rcases ofText_cases h with ⟨hnone, -⟩ | ⟨_, _, h⟩ | ⟨_, h⟩
  · exact hnone
  all_goals cases h

theorem exists_static_of_not_isBlock {n : Node} (h : ¬n.isBlock) : ∃ w, n = .static w := by
  cases n with
  | static w => exact ⟨w, rfl⟩
  | block b => exact absurd rfl h

/-- Every item has its node, of which no one is a block if the array is none. -/
theorem forall_items_of_static {items : List Value} {nodes : List Node} {w : Value}
    (h : buildItems o items = .ok nodes) (hstatic : ofItems items nodes = .static w) :
    ∀ v ∈ items, ∃ w, build o v = .ok (.static w) := by
  intro v hv
  obtain ⟨n, hn, hbuild⟩ := exists_mem_of_forall₂ (buildItems_eq_ok.1 h) v hv
  unfold ofItems at hstatic
  split at hstatic
  · cases hstatic
  · next hnone =>
    obtain ⟨w, rfl⟩ := exists_static_of_not_isBlock fun hblock =>
      hnone (List.any_eq_true.2 ⟨n, hn, hblock⟩)
    exact ⟨w, hbuild⟩

theorem forall_fields_of_static {fields : Fields Value} {nodes : List (String × Node)} {w : Value}
    (h : buildFields o fields = .ok nodes) (hstatic : ofEntries fields nodes = .static w) :
    ∀ entry ∈ fields, ∃ w, build o entry.2 = .ok (.static w) := by
  intro entry hentry
  obtain ⟨⟨name, n⟩, hn, -, hbuild⟩ :=
    exists_mem_of_forall₂ (buildFields_eq_ok.1 h) entry hentry
  unfold ofEntries at hstatic
  split at hstatic
  · cases hstatic
  · next hnone =>
    obtain ⟨w, rfl⟩ := exists_static_of_not_isBlock fun hblock =>
      hnone (List.any_eq_true.2 ⟨_, hn, hblock⟩)
    exact ⟨w, hbuild⟩

theorem static_of_build {v w : Value} (h : build o v = .ok (.static w)) : v.Static := by
  induction hsize : v.size using Nat.strongRecOn generalizing v w with
  | ind size ih =>
    subst hsize
    generalize hn : Node.static w = n at h
    cases build_eq_ok.1 h with
    | null | bool | number =>
      exact List.forall_mem_singleton.2 trivial
    | string htext =>
      subst hn
      exact Value.static_string.2 (static_of_ofText htext)
    | array hnodes =>
      refine Value.static_array.2 fun v hv => ?_
      obtain ⟨w, hw⟩ := forall_items_of_static hnodes hn.symm v hv
      exact ih _ (Value.size_lt_of_mem_items hv) hw rfl
    | plain hform hnodes =>
      refine Value.static_object.2 ⟨Form.hasForm_plain_iff.1 hform, fun entry hentry => ?_⟩
      obtain ⟨w, hw⟩ := forall_fields_of_static hnodes hn.symm entry hentry
      exact ih _ (Value.size_lt_of_mem_fields hentry) hw rfl
    | conditional | iteration | binding => cases hn

end Node

/-! ### Blocks inside blocks -/

mutual

/-- All blocks of the tree. -/
def Node.inside : Node → List Block
  | .static _ => []
  | .block b => b.inside

/-- The block and all blocks inside it. -/
def Block.inside : Block → List Block
  | .sequence items => .sequence items :: Node.insideItems items
  | .mapping fields => .mapping fields :: Node.insideFields fields
  | .conditional condition yes no =>
    .conditional condition yes no :: (yes.inside ++ Block.insideBranch no)
  | .iteration source names body => .iteration source names body :: body.inside
  | .binding name value body => .binding name value body :: body.inside
  | b => [b]

def Block.insideBranch : Option Block → List Block
  | none => []
  | some b => b.inside

def Node.insideItems : List Node → List Block
  | [] => []
  | n :: rest => n.inside ++ Node.insideItems rest

def Node.insideFields : List (String × Node) → List Block
  | [] => []
  | (_, n) :: rest => n.inside ++ Node.insideFields rest

end

/-- A sequence or a mapping has a block among its members. -/
def Block.Proper : Block → Prop
  | .sequence items => ∃ n ∈ items, n.isBlock
  | .mapping fields => ∃ entry ∈ fields, entry.2.isBlock
  | _ => True

namespace Block

variable {o : Options} {b : Block}

theorem proper_ofCondition {condition : String} {yes : Block} {no : Option Block}
    (h : ofCondition o condition yes no = .ok b) (hyes : ∀ i ∈ yes.inside, i.Proper)
    (hno : ∀ i ∈ insideBranch no, i.Proper) : ∀ i ∈ b.inside, i.Proper := by
  obtain ⟨-, ⟨-, rfl⟩ | ⟨-, rfl⟩ | ⟨-, p, -, rfl⟩⟩ := ofCondition_eq_ok.1 h
  · exact hyes
  · cases no with
    | none => exact List.forall_mem_singleton.2 trivial
    | some no => exact hno
  · exact List.forall_mem_cons.2 ⟨trivial, List.forall_mem_append.2 ⟨hyes, hno⟩⟩

theorem proper_ofIteration {source : String} {names : LoopNames} {body : Block}
    (h : ofIteration o source names body = .ok b) (hbody : ∀ i ∈ body.inside, i.Proper) :
    ∀ i ∈ b.inside, i.Proper := by
  obtain ⟨-, p, -, rfl⟩ := ofIteration_eq_ok.1 h
  exact List.forall_mem_cons.2 ⟨trivial, hbody⟩

theorem proper_ofBinding {text : String} {body : Block} (h : ofBinding o text body = .ok b)
    (hbody : ∀ i ∈ body.inside, i.Proper) : ∀ i ∈ b.inside, i.Proper := by
  obtain ⟨name, source, p, -, -, -, rfl⟩ := ofBinding_eq_ok.1 h
  exact List.forall_mem_cons.2 ⟨trivial, hbody⟩

end Block

namespace Node

variable {o : Options}

theorem proper_toBlock {n : Node} (h : ∀ i ∈ n.inside, i.Proper) :
    ∀ i ∈ n.toBlock.inside, i.Proper := by
  cases n with
  | static w => exact List.forall_mem_singleton.2 trivial
  | block b => exact h

theorem proper_ofItems {items : List Value} {nodes : List Node}
    (h : ∀ i ∈ insideItems nodes, i.Proper) : ∀ i ∈ (ofItems items nodes).inside, i.Proper := by
  unfold ofItems
  split
  · next hany => exact List.forall_mem_cons.2 ⟨List.any_eq_true.1 hany, h⟩
  · nofun

theorem proper_ofEntries {fields : Fields Value} {nodes : List (String × Node)}
    (h : ∀ i ∈ insideFields nodes, i.Proper) :
    ∀ i ∈ (ofEntries fields nodes).inside, i.Proper := by
  unfold ofEntries
  split
  · next hany => exact List.forall_mem_cons.2 ⟨List.any_eq_true.1 hany, h⟩
  · nofun

theorem proper_items {items : List Value} {nodes : List Node} (h : buildItems o items = .ok nodes)
    (hitems : ∀ v ∈ items, ∀ n, build o v = .ok n → ∀ i ∈ n.inside, i.Proper) :
    ∀ i ∈ insideItems nodes, i.Proper := by
  induction buildItems_eq_ok.1 h with
  | nil => nofun
  | cons hn hothers ih =>
    obtain ⟨hfirst, hrest⟩ := List.forall_mem_cons.1 hitems
    exact List.forall_mem_append.2 ⟨hfirst _ hn, ih (buildItems_eq_ok.2 hothers) hrest⟩

theorem proper_fields {fields : Fields Value} {nodes : List (String × Node)}
    (h : buildFields o fields = .ok nodes)
    (hfields : ∀ entry ∈ fields, ∀ n, build o entry.2 = .ok n → ∀ i ∈ n.inside, i.Proper) :
    ∀ i ∈ insideFields nodes, i.Proper := by
  induction buildFields_eq_ok.1 h with
  | nil => nofun
  | cons hn hothers ih =>
    obtain ⟨hfirst, hrest⟩ := List.forall_mem_cons.1 hfields
    exact List.forall_mem_append.2 ⟨hfirst _ hn.2, ih (buildFields_eq_ok.2 hothers) hrest⟩

/-- The branch that a conditional has for the other case. -/
theorem proper_branch {no : Option Value} {noNode : Option Node}
    (h : no.mapM (build o) = .ok noNode)
    (hno : ∀ v ∈ no, ∀ n, build o v = .ok n → ∀ i ∈ n.inside, i.Proper) :
    ∀ i ∈ Block.insideBranch (noNode.map toBlock), i.Proper := by
  cases no with
  | none =>
    cases h
    nofun
  | some v =>
    obtain ⟨n, hn, rfl⟩ := map_eq_ok.1 h
    exact proper_toBlock (hno v rfl n hn)

/-- No array and no object becomes a block for nothing, at any depth. -/
theorem proper_of_build {v : Value} {n : Node} (h : build o v = .ok n) :
    ∀ i ∈ n.inside, i.Proper := by
  induction hsize : v.size using Nat.strongRecOn generalizing v n with
  | ind size ih =>
    subst hsize
    cases build_eq_ok.1 h with
    | null | bool | number => nofun
    | string htext =>
      rcases ofText_cases htext with ⟨-, rfl⟩ | ⟨_, _, rfl⟩ | ⟨_, rfl⟩
      · nofun
      all_goals exact List.forall_mem_singleton.2 trivial
    | array hnodes =>
      exact proper_ofItems (proper_items hnodes fun w hw m hm =>
        ih _ (Value.size_lt_of_mem_items hw) hm rfl)
    | plain _ hnodes =>
      exact proper_ofEntries (proper_fields hnodes fun entry hentry m hm =>
        ih _ (Value.size_lt_of_mem_fields hentry) hm rfl)
    | conditional hform hyes hno hb =>
      refine Block.proper_ofCondition hb (proper_toBlock ?_) (proper_branch hno ?_)
      · exact ih _ (Value.size_lt_of_hasForm hform (by simp [Form.parts])) hyes rfl
      · intro w hw m hm
        exact ih _ (Value.size_lt_of_hasForm hform (by simp_all [Form.parts])) hm rfl
    | iteration hform hbody hb =>
      refine Block.proper_ofIteration hb (proper_toBlock ?_)
      exact ih _ (Value.size_lt_of_hasForm hform (by simp [Form.parts])) hbody rfl
    | binding hform hbody hb =>
      refine Block.proper_ofBinding hb (proper_toBlock ?_)
      exact ih _ (Value.size_lt_of_hasForm hform (by simp [Form.parts])) hbody rfl

theorem build_eq_static_iff {v w : Value} :
    build o v = .ok (.static w) ↔ v.Static ∧ w = v := by
  constructor
  · intro h
    exact ⟨static_of_build h, eq_of_build_static h⟩
  · rintro ⟨h, rfl⟩
    exact build_of_static h

end Node

/-- A document is built into a value exactly if it is static. Its template then gives it back in
every context. Every other document becomes a block or is refused, and no block in a tree is a
sequence or a mapping without a block in it. -/
theorem Node.build_static (o : Options) (v : Value) :
    (∀ w, build o v = .ok (.static w) ↔ v.Static ∧ w = v) ∧
      (v.Static → ∃ t, Template.build o v = .ok t ∧ t.root = .literal v ∧
        ∀ c, t.process c = .ok v) ∧
      (¬v.Static → (∃ b, build o v = .ok (.block b)) ∨ ∃ e, build o v = .error e) ∧
      ∀ n, build o v = .ok n → ∀ b ∈ n.inside, b.Proper := by
  refine ⟨fun w => build_eq_static_iff, fun h => ?_, fun h => ?_, fun n => proper_of_build⟩
  · refine ⟨⟨.literal v⟩, ?_, rfl, fun c => ?_⟩
    · exact bind_eq_ok.2 ⟨_, build_of_static h, rfl⟩
    · rw [Template.process, Block.emit]
  · cases hn : build o v with
    | error e => exact .inr ⟨e, rfl⟩
    | ok n =>
      cases n with
      | static w => exact absurd (static_of_build hn) h
      | block b => exact .inl ⟨b, rfl⟩

/-- Braces alone make no marker, and keys are not read as texts. -/
theorem Node.build_static_braces :
    ∃ v : Value,
      v = .object [("a", .array [.bool true, .string "{ no marker }"]), ("{{b}}", .null)] ∧
      v.Static ∧ ∃ t, Template.build .empty v = .ok t ∧ t.root = .literal v ∧
        ∀ c, t.process c = .ok v := by
  refine ⟨_, rfl, ?_⟩
  have hstatic : (Value.object
      [("a", .array [.bool true, .string "{ no marker }"]), ("{{b}}", .null)]).Static := by
    rw [Value.static_object]
    refine ⟨fun control => by cases control <;> decide, ?_⟩
    simp only [List.forall_mem_cons, List.not_mem_nil, false_imp_iff, implies_true, and_true,
      Value.static_array, Value.static_string]
    refine ⟨⟨List.forall_mem_singleton.2 trivial, ?_⟩, List.forall_mem_singleton.2 trivial⟩
    rw [← Segment.markers_eq_nil_iff]
    decide +kernel
  exact ⟨hstatic, (build_static .empty _).2.1 hstatic⟩

end JsonTemplate
