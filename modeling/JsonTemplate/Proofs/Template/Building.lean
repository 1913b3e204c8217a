import Mathlib.Data.List.Forall2
import JsonTemplate.Proofs.Compilation
import JsonTemplate.Proofs.Template.Forms
import JsonTemplate.Proofs.Template.Markers
import JsonTemplate.Template.Build

/-! Building, one case for each kind of value and each form of object, and what it takes for each
part to be built. -/

namespace JsonTemplate

open Form (HasForm)

theorem compile_eq_ok {o : Options} {source : String} {p : Program} :
    o.compile source = .ok p ↔ Program.compile o source = .ok p := by
  unfold Options.compile
  cases Program.compile o source with
  | ok q => exact ⟨fun h => by cases h; rfl, fun h => by cases h; rfl⟩
  | error report => exact ⟨nofun, nofun⟩

theorem exists_compile_eq_ok {o : Options} {source : String} :
    (∃ p, o.compile source = .ok p) ↔ Compiles o source := by
  simp only [compile_eq_ok, Compiles]

theorem map_eq_ok {ε α β : Type} {f : α → β} {x : Except ε α} {b : β} :
    f <$> x = .ok b ↔ ∃ a, x = .ok a ∧ f a = b := by
  cases x with
  | error e => exact ⟨nofun, nofun⟩
  | ok a =>
    constructor
    · intro h
      exact ⟨a, rfl, Except.ok.inj h⟩
    · rintro ⟨_, ⟨⟩, rfl⟩
      rfl

/-! ### Texts -/

namespace TextTemplate

variable {o : Options}

theorem exists_addPrograms {markers : List Marker} {programs : Fields Program}
    (hsame : ∀ m ∈ markers, ∀ m' ∈ markers, m.text = m'.text → m = m')
    (hfound : ∀ m ∈ markers, (programs.get? m.text).isSome →
      Compiles o (String.ofList m.source)) :
    (∃ all, addPrograms o markers programs = .ok all) ↔
      ∀ m ∈ markers, Compiles o (String.ofList m.source) := by
  induction markers generalizing programs with
  | nil => exact ⟨fun _ => nofun, fun _ => ⟨programs, rfl⟩⟩
  | cons m rest ih =>
    have hrest : ∀ m ∈ rest, ∀ m' ∈ rest, m.text = m'.text → m = m' := fun a ha b hb =>
      hsame a (List.mem_cons_of_mem m ha) b (List.mem_cons_of_mem m hb)
    rw [List.forall_mem_cons, addPrograms]
    by_cases hm : (programs.get? m.text).isSome
    · rw [if_pos hm, ih hrest fun a ha => hfound a (List.mem_cons_of_mem m ha)]
      exact ⟨fun h => ⟨hfound m List.mem_cons_self hm, h⟩, fun h => h.2⟩
    · rw [if_neg hm]
      -- Another marker of this text has this source, so its program is the one just added.
      have hadded {p : Program} (hp : Compiles o (String.ofList m.source)) :
          ∀ a ∈ rest, (Fields.get? a.text (programs.insert m.text p)).isSome →
            Compiles o (String.ofList a.source) := by
        intro a ha hsome
        rw [Fields.get?_insert] at hsome
        by_cases htext : a.text = m.text
        · rw [hsame a (List.mem_cons_of_mem m ha) m List.mem_cons_self htext]
          exact hp
        · rw [if_neg htext] at hsome
          exact hfound a (List.mem_cons_of_mem m ha) hsome
      constructor
      · rintro ⟨all, h⟩
        obtain ⟨p, hp, h⟩ := bind_eq_ok.1 h
        have hcompiles := exists_compile_eq_ok.1 ⟨p, hp⟩
        exact ⟨hcompiles, (ih hrest (hadded hcompiles)).1 ⟨all, h⟩⟩
      · rintro ⟨hcompiles, h⟩
        obtain ⟨p, hp⟩ := exists_compile_eq_ok.2 hcompiles
        obtain ⟨all, hall⟩ := (ih hrest (hadded (p := p) hcompiles)).2 h
        exact ⟨all, bind_eq_ok.2 ⟨p, hp, hall⟩⟩

end TextTemplate

/-- The markers of a text. -/
def markersOf (text : String) : List Marker := Segment.markers (Segment.ofText text.toList)

theorem Node.exists_ofText {o : Options} {text : String} :
    (∃ n, ofText o text = .ok n) ↔
      ∀ m ∈ markersOf text, Compiles o (String.ofList m.source) := by
  have hsame : ∀ m ∈ markersOf text, ∀ m' ∈ markersOf text, m.text = m'.text → m = m' :=
    fun _ hm _ hm' => Segment.eq_of_text hm hm'
  have hprograms : (∃ all, TextTemplate.addPrograms o (markersOf text) [] = .ok all) ↔ _ :=
    TextTemplate.exists_addPrograms hsame nofun
  unfold ofText
  rw [markersOf] at *
  simp only
  split
  · next hnil =>
    rw [hnil]
    exact ⟨fun _ => nofun, fun _ => ⟨_, rfl⟩⟩
  · next m _ hone _ =>
    rw [hone, List.forall_mem_singleton, ← exists_compile_eq_ok]
    constructor
    · rintro ⟨n, h⟩
      obtain ⟨p, hp, -⟩ := bind_eq_ok.1 h
      exact ⟨p, hp⟩
    · rintro ⟨p, hp⟩
      exact ⟨_, bind_eq_ok.2 ⟨p, hp, rfl⟩⟩
  · rw [← hprograms]
    constructor
    · rintro ⟨n, h⟩
      obtain ⟨all, hall, -⟩ := bind_eq_ok.1 h
      exact ⟨all, hall⟩
    · rintro ⟨all, hall⟩
      exact ⟨_, bind_eq_ok.2 ⟨all, hall, rfl⟩⟩

/-- A text stays if it has no markers. Otherwise it becomes an expression or an interpolation. -/
theorem Node.ofText_cases {o : Options} {text : String} {n : Node} (h : ofText o text = .ok n) :
    (markersOf text = [] ∧ n = .static (.string text)) ∨
      (∃ p asText, n = .block (.expression p asText)) ∨ ∃ t, n = .block (.interpolation t) := by
  unfold ofText at h
  simp only at h
  split at h
  · next hnil =>
    cases h
    exact .inl ⟨hnil, rfl⟩
  · obtain ⟨p, -, h⟩ := bind_eq_ok.1 h
    cases h
    exact .inr (.inl ⟨p, _, rfl⟩)
  · obtain ⟨programs, -, h⟩ := bind_eq_ok.1 h
    cases h
    exact .inr (.inr ⟨_, rfl⟩)

/-! ### Controls -/

namespace Block

variable {o : Options}

/-- A constant condition leaves one of its branches, and any other is compiled. -/
theorem ofCondition_eq_ok {condition : String} {yes b : Block} {no : Option Block} :
    ofCondition o condition yes no = .ok b ↔
      ¬Form.isBlankText condition ∧
        (constantTruth? (Text.trim condition) = some true ∧ b = yes ∨
          constantTruth? (Text.trim condition) = some false ∧ b = no.getD (.literal .null) ∨
          constantTruth? (Text.trim condition) = none ∧
            ∃ p, Program.compile o (Text.trim condition) = .ok p ∧
              b = .conditional p yes no) := by
  unfold ofCondition
  rw [Form.isBlankText_iff]
  simp only
  by_cases hempty : Text.trim condition = ""
  · rw [if_pos hempty]
    exact ⟨nofun, fun h => absurd hempty h.1⟩
  rw [if_neg hempty, and_iff_right hempty]
  cases constantTruth? (Text.trim condition) with
  | some truth => cases truth <;> simp [eq_comm]
  | none =>
    simp only [bind_eq_ok, compile_eq_ok, reduceCtorEq, false_and, false_or, true_and]
    constructor
    · rintro ⟨p, hp, h⟩
      cases h
      exact ⟨p, hp, rfl⟩
    · rintro ⟨p, hp, rfl⟩
      exact ⟨p, hp, rfl⟩

theorem ofIteration_eq_ok {source : String} {names : LoopNames} {body b : Block} :
    ofIteration o source names body = .ok b ↔
      ¬Form.isBlankText source ∧
        ∃ p, Program.compile o (Text.trim source) = .ok p ∧ b = .iteration p names body := by
  unfold ofIteration
  rw [Form.isBlankText_iff]
  simp only
  by_cases hempty : Text.trim source = ""
  · rw [if_pos hempty]
    exact ⟨nofun, fun h => absurd hempty h.1⟩
  rw [if_neg hempty, and_iff_right hempty, bind_eq_ok]
  simp only [compile_eq_ok]
  constructor
  · rintro ⟨p, hp, h⟩
    cases h
    exact ⟨p, hp, rfl⟩
  · rintro ⟨p, hp, rfl⟩
    exact ⟨p, hp, rfl⟩

theorem ofBinding_eq_ok {text : String} {body b : Block} :
    ofBinding o text body = .ok b ↔
      ∃ name source p, splitBinding? text.toList = some (name, source) ∧ source ≠ [] ∧
        Program.compile o (String.ofList source) = .ok p ∧
        b = .binding (String.ofList name) p body := by
  unfold ofBinding
  split
  · next hnone =>
    rw [hnone]
    exact ⟨nofun, fun ⟨_, _, _, h, _⟩ => (nomatch h)⟩
  · next name hempty =>
    rw [hempty]
    constructor
    · nofun
    · rintro ⟨_, source, p, h, hne, -⟩
      cases h
      exact absurd rfl hne
  · next name source hne hsplit =>
    rw [hsplit, bind_eq_ok]
    simp only [compile_eq_ok]
    constructor
    · rintro ⟨p, hp, h⟩
      cases h
      refine ⟨name, source, p, rfl, ?_, hp, rfl⟩
      rintro rfl
      exact hne rfl
    · rintro ⟨_, _, p, h, -, hp, rfl⟩
      cases h
      exact ⟨p, hp, rfl⟩

theorem exists_ofCondition {condition : String} {yes : Block} {no : Option Block} :
    (∃ b, ofCondition o condition yes no = .ok b) ↔
      ¬Form.isBlankText condition ∧
        ((constantTruth? (Text.trim condition)).isSome ∨ Compiles o (Text.trim condition)) := by
  constructor
  · rintro ⟨b, h⟩
    obtain ⟨hblank, ⟨htrue, -⟩ | ⟨hfalse, -⟩ | ⟨-, p, hp, -⟩⟩ := ofCondition_eq_ok.1 h
    · exact ⟨hblank, .inl (by rw [htrue]; rfl)⟩
    · exact ⟨hblank, .inl (by rw [hfalse]; rfl)⟩
    · exact ⟨hblank, .inr ⟨p, hp⟩⟩
  · rintro ⟨hblank, h⟩
    simp only [ofCondition_eq_ok, hblank]
    cases hconstant : constantTruth? (Text.trim condition) with
    | some truth => cases truth <;> simp
    | none =>
      obtain ⟨p, hp⟩ : Compiles o (Text.trim condition) := by simpa [hconstant] using h
      exact ⟨_, nofun, .inr (.inr ⟨rfl, p, hp, rfl⟩)⟩

theorem exists_ofIteration {source : String} {names : LoopNames} {body : Block} :
    (∃ b, ofIteration o source names body = .ok b) ↔
      ¬Form.isBlankText source ∧ Compiles o (Text.trim source) := by
  simp only [ofIteration_eq_ok, exists_and_left]
  refine and_congr_right fun _ => ?_
  constructor
  · rintro ⟨b, p, hp, -⟩
    exact ⟨p, hp⟩
  · rintro ⟨p, hp⟩
    exact ⟨_, p, hp, rfl⟩

theorem exists_ofBinding {text : String} {body : Block} :
    (∃ b, ofBinding o text body = .ok b) ↔
      ∃ name source, splitBinding? text.toList = some (name, source) ∧ source ≠ [] ∧
        Compiles o (String.ofList source) := by
  simp only [ofBinding_eq_ok]
  constructor
  · rintro ⟨b, name, source, p, hsplit, hne, hp, -⟩
    exact ⟨name, source, hsplit, hne, p, hp⟩
  · rintro ⟨name, source, hsplit, hne, p, hp⟩
    exact ⟨_, name, source, p, hsplit, hne, hp, rfl⟩

end Block

/-! ### Values -/

theorem Value.size_lt_of_hasForm {fields : Fields Value} {form : Form} {part : Value}
    (h : HasForm fields form) (hp : part ∈ form.parts) :
    part.size < (Value.object fields).size :=
  Form.size_lt_of_mem_parts (Form.ofFields_eq_ok.2 h) hp

/-- Induction over documents as building goes through them. An object stands for its fields or for
the parts of its form, and both are smaller. -/
theorem Value.induction_forms {P : Value → Prop} (null : P .null) (bool : ∀ b, P (.bool b))
    (number : ∀ n, P (.number n)) (string : ∀ s, P (.string s))
    (array : ∀ items, (∀ v ∈ items, P v) → P (.array items))
    (object : ∀ fields, (∀ entry ∈ fields, P entry.2) →
      (∀ form, HasForm fields form → ∀ part ∈ form.parts, P part) → P (.object fields))
    (v : Value) : P v := by
  induction hsize : v.size using Nat.strongRecOn generalizing v with
  | ind size ih =>
    subst hsize
    cases v with
    | null => exact null
    | bool b => exact bool b
    | number n => exact number n
    | string s => exact string s
    | array items => exact array items fun v hv => ih _ (size_lt_of_mem_items hv) v rfl
    | object fields =>
      exact object fields (fun entry hentry => ih _ (size_lt_of_mem_fields hentry) _ rfl)
        fun form hform part hpart => ih _ (size_lt_of_hasForm hform hpart) part rfl

namespace Node

variable {o : Options} {fields : Fields Value}

theorem build_null (o : Options) : build o .null = .ok (.static .null) := by
  rw [build]
  all_goals rintro _ ⟨⟩

theorem build_bool (o : Options) (b : Bool) : build o (.bool b) = .ok (.static (.bool b)) := by
  rw [build]
  all_goals rintro _ ⟨⟩

theorem build_number (o : Options) (n : Number) :
    build o (.number n) = .ok (.static (.number n)) := by
  rw [build]
  all_goals rintro _ ⟨⟩

theorem build_string (o : Options) (s : String) : build o (.string s) = ofText o s := by
  rw [build]

theorem build_array (o : Options) (items : List Value) :
    build o (.array items) =
      (do let nodes ← buildItems o items
          pure (ofItems items nodes)) := by
  rw [build]

theorem build_plain (h : HasForm fields .plain) :
    build o (.object fields) =
      (do let nodes ← buildFields o fields
          pure (ofEntries fields nodes)) := by
  have hform := Form.ofFields_eq_ok.2 h
  rw [build]
  split <;> next hother => cases hform.symm.trans hother <;> rfl

theorem build_conditional {text : String} {yes : Fields Value} {no : Option Value}
    (h : HasForm fields (.conditional text yes no)) :
    build o (.object fields) =
      (do let yesNode ← build o (.object yes)
          let noNode ← no.mapM (build o)
          .block <$> Block.ofCondition o text yesNode.toBlock (noNode.map toBlock)) := by
  have hform := Form.ofFields_eq_ok.2 h
  rw [build]
  split
  all_goals try next hother => cases hform.symm.trans hother
  next hother =>
    cases hform.symm.trans hother
    cases build o (.object yes) with
    | error e => rfl
    | ok yesNode =>
      cases no with
      | none => rfl
      | some no =>
        change (build o no >>= fun noNode =>
          block <$> Block.ofCondition o text yesNode.toBlock (some noNode.toBlock)) =
          (some <$> build o no) >>= fun noNode =>
            block <$> Block.ofCondition o text yesNode.toBlock (noNode.map toBlock)
        cases build o no <;> rfl

theorem build_iteration {source : String} {names : LoopNames} {body : Value}
    (h : HasForm fields (.iteration source names body)) :
    build o (.object fields) =
      (do let bodyNode ← build o body
          .block <$> Block.ofIteration o source names bodyNode.toBlock) := by
  have hform := Form.ofFields_eq_ok.2 h
  rw [build]
  split <;> next hother => cases hform.symm.trans hother <;> rfl

theorem build_binding {text : String} {body : Value} (h : HasForm fields (.binding text body)) :
    build o (.object fields) =
      (do let bodyNode ← build o body
          .block <$> Block.ofBinding o text bodyNode.toBlock) := by
  have hform := Form.ofFields_eq_ok.2 h
  rw [build]
  split <;> next hother => cases hform.symm.trans hother <;> rfl

theorem build_of_formError {e : TemplateError} (h : Form.ofFields fields = .error e) :
    build o (.object fields) = .error e := by
  rw [build]
  split <;> next hother => cases h.symm.trans hother <;> rfl

/-- An object that is built has a form. -/
theorem hasForm_of_build {n : Node} (h : build o (.object fields) = .ok n) :
    ∃ form, HasForm fields form := by
  cases hform : Form.ofFields fields with
  | ok form => exact ⟨form, Form.ofFields_eq_ok.1 hform⟩
  | error e =>
    rw [build_of_formError hform] at h
    cases h

/-- What a value is built into, with what its parts are built into. -/
inductive Built (o : Options) : Value → Node → Prop where
  | null : Built o .null (.static .null)
  | bool (b : Bool) : Built o (.bool b) (.static (.bool b))
  | number (n : Number) : Built o (.number n) (.static (.number n))
  | string {s : String} {n : Node} : ofText o s = .ok n → Built o (.string s) n
  | array {items : List Value} {nodes : List Node} : buildItems o items = .ok nodes →
    Built o (.array items) (ofItems items nodes)
  | plain {fields : Fields Value} {nodes : List (String × Node)} : HasForm fields .plain →
    buildFields o fields = .ok nodes → Built o (.object fields) (ofEntries fields nodes)
  | conditional {fields yes : Fields Value} {text : String} {no : Option Value} {yesNode : Node}
      {noNode : Option Node} {b : Block} :
    HasForm fields (.conditional text yes no) → build o (.object yes) = .ok yesNode →
    no.mapM (build o) = .ok noNode →
    Block.ofCondition o text yesNode.toBlock (noNode.map toBlock) = .ok b →
    Built o (.object fields) (.block b)
  | iteration {fields : Fields Value} {source : String} {names : LoopNames} {body : Value}
      {bodyNode : Node} {b : Block} :
    HasForm fields (.iteration source names body) → build o body = .ok bodyNode →
    Block.ofIteration o source names bodyNode.toBlock = .ok b → Built o (.object fields) (.block b)
  | binding {fields : Fields Value} {text : String} {body : Value} {bodyNode : Node} {b : Block} :
    HasForm fields (.binding text body) → build o body = .ok bodyNode →
    Block.ofBinding o text bodyNode.toBlock = .ok b → Built o (.object fields) (.block b)

theorem built_of_form {form : Form} {n : Node} (hform : HasForm fields form)
    (h : build o (.object fields) = .ok n) : Built o (.object fields) n := by
  cases form with
  | plain =>
    rw [build_plain hform] at h
    obtain ⟨nodes, hnodes, h⟩ := bind_eq_ok.1 h
    cases h
    exact .plain hform hnodes
  | conditional text yes no =>
    rw [build_conditional hform] at h
    obtain ⟨yesNode, hyes, h⟩ := bind_eq_ok.1 h
    obtain ⟨noNode, hno, h⟩ := bind_eq_ok.1 h
    obtain ⟨b, hb, rfl⟩ := map_eq_ok.1 h
    exact .conditional hform hyes hno hb
  | iteration source names body =>
    rw [build_iteration hform] at h
    obtain ⟨bodyNode, hbody, h⟩ := bind_eq_ok.1 h
    obtain ⟨b, hb, rfl⟩ := map_eq_ok.1 h
    exact .iteration hform hbody hb
  | binding text body =>
    rw [build_binding hform] at h
    obtain ⟨bodyNode, hbody, h⟩ := bind_eq_ok.1 h
    obtain ⟨b, hb, rfl⟩ := map_eq_ok.1 h
    exact .binding hform hbody hb

theorem build_eq_ok {v : Value} {n : Node} : build o v = .ok n ↔ Built o v n := by
  constructor
  · intro h
    cases v with
    | null | bool | number =>
      rw [build] at h
      · cases h
        constructor
      all_goals rintro _ ⟨⟩
    | string s =>
      rw [build_string] at h
      exact .string h
    | array items =>
      rw [build_array] at h
      obtain ⟨nodes, hnodes, h⟩ := bind_eq_ok.1 h
      cases h
      exact .array hnodes
    | object fields =>
      obtain ⟨form, hform⟩ := hasForm_of_build h
      exact built_of_form hform h
  · intro h
    cases h with
    | null | bool | number =>
      rw [build]
      all_goals rintro _ ⟨⟩
    | string h => rw [build_string, h]
    | array hnodes =>
      rw [build_array]
      exact bind_eq_ok.2 ⟨_, hnodes, rfl⟩
    | plain hform hnodes =>
      rw [build_plain hform]
      exact bind_eq_ok.2 ⟨_, hnodes, rfl⟩
    | conditional hform hyes hno hb =>
      rw [build_conditional hform]
      exact bind_eq_ok.2 ⟨_, hyes, bind_eq_ok.2 ⟨_, hno, map_eq_ok.2 ⟨_, hb, rfl⟩⟩⟩
    | iteration hform hbody hb =>
      rw [build_iteration hform]
      exact bind_eq_ok.2 ⟨_, hbody, map_eq_ok.2 ⟨_, hb, rfl⟩⟩
    | binding hform hbody hb =>
      rw [build_binding hform]
      exact bind_eq_ok.2 ⟨_, hbody, map_eq_ok.2 ⟨_, hb, rfl⟩⟩

/-- A value that is built into a value is that value. -/
theorem eq_of_build_static {v w : Value} (h : build o v = .ok (.static w)) : w = v := by
  generalize hn : Node.static w = n at h
  cases build_eq_ok.1 h with
  | null | bool | number =>
    cases hn
    rfl
  | string htext =>
    subst hn
    rcases ofText_cases htext with ⟨-, h⟩ | ⟨_, _, h⟩ | ⟨_, h⟩
    · cases h
      rfl
    all_goals cases h
  | array hnodes =>
    unfold ofItems at hn
    split at hn <;> cases hn
    rfl
  | plain hform hnodes =>
    unfold ofEntries at hn
    split at hn <;> cases hn
    rfl
  | conditional | iteration | binding => cases hn

/-! ### Items and fields -/

theorem buildItems_eq_ok {items : List Value} {nodes : List Node} :
    buildItems o items = .ok nodes ↔ List.Forall₂ (fun v n => build o v = .ok n) items nodes := by
  constructor
  · intro h
    induction items generalizing nodes with
    | nil =>
      rw [buildItems] at h
      cases h
      exact .nil
    | cons v rest ih =>
      rw [buildItems] at h
      obtain ⟨n, hn, h⟩ := bind_eq_ok.1 h
      obtain ⟨others, hothers, h⟩ := bind_eq_ok.1 h
      cases h
      exact .cons hn (ih hothers)
  · intro h
    induction h with
    | nil => rw [buildItems]
    | cons hn _ ih =>
      rw [buildItems]
      exact bind_eq_ok.2 ⟨_, hn, bind_eq_ok.2 ⟨_, ih, rfl⟩⟩

theorem buildFields_eq_ok {entries : List (String × Value)} {nodes : List (String × Node)} :
    buildFields o entries = .ok nodes ↔
      List.Forall₂ (fun entry n => n.1 = entry.1 ∧ build o entry.2 = .ok n.2) entries nodes := by
  constructor
  · intro h
    induction entries generalizing nodes with
    | nil =>
      rw [buildFields] at h
      cases h
      exact .nil
    | cons entry rest ih =>
      rw [buildFields] at h
      obtain ⟨n, hn, h⟩ := bind_eq_ok.1 h
      obtain ⟨others, hothers, h⟩ := bind_eq_ok.1 h
      cases h
      exact .cons ⟨rfl, hn⟩ (ih hothers)
  · intro h
    induction h with
    | nil => rw [buildFields]
    | @cons entry n rest others hn _ ih =>
      obtain ⟨name, v⟩ := entry
      obtain ⟨_, n⟩ := n
      obtain ⟨rfl, hn⟩ := hn
      rw [buildFields]
      exact bind_eq_ok.2 ⟨_, hn, bind_eq_ok.2 ⟨_, ih, rfl⟩⟩

/-- There is a list related to another if there is something for each of its items. -/
theorem exists_forall₂ {α β : Type} {R : α → β → Prop} {l : List α} :
    (∃ u, List.Forall₂ R l u) ↔ ∀ a ∈ l, ∃ b, R a b := by
  induction l with
  | nil => simp
  | cons a rest ih =>
    rw [List.forall_mem_cons, ← ih]
    constructor
    · rintro ⟨_, _ | ⟨hb, hrest⟩⟩
      exact ⟨⟨_, hb⟩, _, hrest⟩
    · rintro ⟨⟨b, hb⟩, u, hrest⟩
      exact ⟨b :: u, .cons hb hrest⟩

theorem exists_mem_of_forall₂ {α β : Type} {R : α → β → Prop} {l : List α} {u : List β}
    (h : List.Forall₂ R l u) : ∀ a ∈ l, ∃ b ∈ u, R a b := by
  induction h with
  | nil => nofun
  | cons hab _ ih =>
    rw [List.forall_mem_cons]
    refine ⟨⟨_, List.mem_cons_self, hab⟩, fun a ha => ?_⟩
    obtain ⟨b, hb, hR⟩ := ih a ha
    exact ⟨b, List.mem_cons_of_mem _ hb, hR⟩

theorem exists_buildItems {items : List Value} :
    (∃ nodes, buildItems o items = .ok nodes) ↔ ∀ v ∈ items, ∃ n, build o v = .ok n := by
  simp only [buildItems_eq_ok, exists_forall₂]

theorem exists_buildFields {entries : List (String × Value)} :
    (∃ nodes, buildFields o entries = .ok nodes) ↔
      ∀ entry ∈ entries, ∃ n, build o entry.2 = .ok n := by
  simp only [buildFields_eq_ok, exists_forall₂, Prod.exists, exists_and_left, exists_eq_left]

end Node

end JsonTemplate
