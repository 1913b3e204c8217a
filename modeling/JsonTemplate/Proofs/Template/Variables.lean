import JsonTemplate.Proofs.Integers
import JsonTemplate.Proofs.Template.Agreement
import JsonTemplate.Proofs.Template.Delimiters
import JsonTemplate.Proofs.Template.Failures
import JsonTemplate.Proofs.Template.Scoping
import JsonTemplate.Proofs.Template.WellFormed
import JsonTemplate.Proofs.Variables

/-! Names that are bound and names that are read. A binding takes keywords and words that start
with a digit, and a loop takes any text that is not blank, but what stands between double braces
looks up variables only. A value that is bound to another name is never found. -/

namespace JsonTemplate

variable {o : Options} {name text : String} {n : Node} {c : Context}

/-! ### What a text looks up -/

theorem TextTemplate.isVariable_of_addPrograms {markers : List Marker}
    {programs all : Fields Program}
    (hprograms : ∀ entry ∈ programs, ∀ name ∈ entry.2.identifiers, IsVariable name)
    (h : addPrograms o markers programs = .ok all) :
    ∀ entry ∈ all, ∀ name ∈ entry.2.identifiers, IsVariable name := by
  induction markers generalizing programs with
  | nil =>
    cases h
    exact hprograms
  | cons m rest ih =>
    rw [addPrograms] at h
    split at h
    · exact ih hprograms h
    · obtain ⟨p, hp, h⟩ := bind_eq_ok.1 h
      refine ih (fun entry hentry => ?_) h
      rcases Fields.mem_insert hentry with rfl | hentry
      · exact fun _ => Program.isVariable_of_mem_identifiers (compile_eq_ok.1 hp)
      · exact hprograms entry hentry

namespace Node

/-- The free names of a text are variables. -/
theorem isVariable_of_mem_freeNames (h : ofText o text = .ok n) (hname : name ∈ n.freeNames) :
    IsVariable name := by
  unfold ofText at h
  simp only at h
  split at h
  · cases h
    cases hname
  · obtain ⟨p, hp, h⟩ := bind_eq_ok.1 h
    cases h
    exact Program.isVariable_of_mem_identifiers (compile_eq_ok.1 hp) hname
  · obtain ⟨programs, hprograms, h⟩ := bind_eq_ok.1 h
    cases h
    obtain ⟨entry, hentry, hname⟩ := List.mem_flatMap.1 hname
    exact TextTemplate.isVariable_of_addPrograms (List.forall_mem_nil _) hprograms entry hentry
      name hname

/-- A text gives the same whatever is bound to a name that is no variable. -/
theorem emit_bind (h : ofText o text = .ok n) (hname : ¬IsVariable name) (v : Value) :
    n.emit (c.bind name v) = n.emit c := by
  refine emit_congr n fun other hother => ?_
  rw [Context.get?_bind, if_neg]
  rintro rfl
  exact hname (isVariable_of_mem_freeNames h hother)

end Node

/-! ### Texts that read one name -/

/-- The name between double braces. -/
def readingText (name : String) : String := "\x7b\x7b " ++ name ++ " \x7d\x7d"

theorem IsVariable.ne_empty (h : IsVariable name) : name ≠ "" := by
  rintro rfl
  obtain ⟨_, _, ⟨⟩, -⟩ := h.1

/-- A word between braces is compiled, also with more blanks around it. -/
theorem Node.ofText_readingText (hname : Text.trim name ≠ "")
    (hchars : ∀ c ∈ (Text.trim name).toList, Lexer.isWordChar c) :
    ofText o (readingText name) =
      (o.compile (Text.trim name)).map fun p => .block (.expression p false) := by
  obtain ⟨before, after, htext, hbefore, hafter⟩ := Text.exists_trimChars name.toList
  simp only [Text.trim, String.toList_ofList, ne_eq, String.ofList_eq_empty_iff] at hname hchars ⊢
  generalize Text.trimChars name.toList = w at *
  have hhead : ∀ c, w.head? = some c → ¬Text.isBlank c := fun c hc =>
    Lexer.not_isBlank_of_isWordChar (hchars c (List.mem_of_mem_head? hc))
  have hline : '\n' ∉ w := fun hmem => absurd (hchars _ hmem) (by decide)
  have hbrace : '\x7d' ∉ w := fun hmem => absurd (hchars _ hmem) (by decide)
  have hopen : Marker.StaysOpen w (Marker.closed (after ++ [' ']) []) := by
    refine Marker.staysOpen_of_braces (fun c hc => ?_) (fun hbraces => ?_) (fun hlast => ?_)
    · exact Lexer.not_isBlank_of_isWordChar (hchars c (List.mem_of_getLast? hc))
    · exact absurd (hbraces.subset List.mem_cons_self) hbrace
    · exact absurd (List.mem_of_getLast? hlast) hbrace
  have hbefore' : ∀ c ∈ ' ' :: before, Text.isBlank c := List.forall_mem_cons.2 ⟨rfl, hbefore⟩
  have hafter' : ∀ c ∈ after ++ [' '], Text.isBlank c :=
    List.forall_mem_append.2 ⟨hafter, List.forall_mem_singleton.2 rfl⟩
  have hreading : (readingText name).toList = '\x7b' :: '\x7b' ::
      (' ' :: before ++ (w ++ Marker.closed (after ++ [' ']) [])) := by
    simp [readingText, htext, Marker.closed]
  have hbody : Marker.body? (' ' :: before ++ (w ++ Marker.closed (after ++ [' ']) [])) =
      some (w, false, (' ' :: before ++ (w ++ Marker.closed (after ++ [' ']) [])).length) := by
    change (Marker.inside? _).map _ = _
    rw [Marker.inside?_eq hname hhead hline hbefore' hafter' hopen]
    rfl
  exact ofText_of_body? hreading hbody

/-- A variable is read. -/
theorem Node.exists_ofText_readingText (o : Options) (h : IsVariable (Text.trim name)) :
    ∃ p, ofText o (readingText name) = .ok (.block (.expression p false)) ∧
      ∀ context, p.run context =
        .ok ((Scope.get? ⟨context, o.globals⟩ (Text.trim name)).getD .null) := by
  obtain ⟨p, hp, hrun⟩ := Program.exists_compile_variable o h
  refine ⟨p, ?_, hrun⟩
  rw [ofText_readingText h.ne_empty h.1.isWordChar, compile_eq_ok.2 hp]
  rfl

/-! ### Documents that read what they bind -/

namespace Value

/-- A document that binds the value of an expression to a name and reads the name. -/
def bindingRead (name expr : String) : Value :=
  .object [("$body", .string (readingText name)), ("$with", .string (name ++ " := " ++ expr))]

/-- A document that goes over the value of an expression and reads the name of its items. -/
def loopRead (name expr : String) : Value :=
  .object [("$iterate", .object [("$body", .string (readingText name)), ("$expr", .string expr),
    ("$value", .string name)])]

end Value

open Form (HasForm)

/-- A binding takes any name of letters, digits and underscores. -/
theorem bindingText_of_isNameChar (expr : String) (hname : Text.trim name ≠ "")
    (hchars : ∀ c ∈ (Text.trim name).toList, Block.isNameChar c) :
    BindingText (name ++ " := " ++ expr).toList (Text.trim name).toList
      (Text.trim expr).toList := by
  obtain ⟨before, after, htext, hbefore, hafter⟩ := Text.exists_trimChars name.toList
  simp only [Text.trim, String.toList_ofList, ne_eq, String.ofList_eq_empty_iff] at hname hchars ⊢
  generalize Text.trimChars name.toList = w at *
  have hbetween : ∀ c ∈ after ++ [' '], Text.isBlank c :=
    List.forall_mem_append.2 ⟨hafter, List.forall_mem_singleton.2 rfl⟩
  have hbinding : BindingText (before ++ w ++ (after ++ [' ']) ++ ':' :: '=' :: ' ' :: expr.toList)
      w (Text.trimChars (' ' :: expr.toList)) :=
    .mk hbefore hname hchars hbetween
  have hall : (name ++ " := " ++ expr).toList =
      before ++ w ++ (after ++ [' ']) ++ ':' :: '=' :: ' ' :: expr.toList := by
    simp [htext]
  rw [hall]
  exact hbinding

/-- What a binding takes as a name. -/
theorem isNameChar_of_ofBinding {text : String} {body : Block} {p : Program}
    (h : Block.ofBinding o text body = .ok (.binding name p body)) :
    name ≠ "" ∧ ∀ c ∈ name.toList, Block.isNameChar c := by
  obtain ⟨w, source, q, hsplit, -, -, hb⟩ := Block.ofBinding_eq_ok.1 h
  cases hb
  rw [splitBinding?_eq_some] at hsplit
  generalize text.toList = s at hsplit
  cases hsplit with
  | mk _ hne hchars =>
    rw [String.toList_ofList]
    exact ⟨fun hempty => hne (String.ofList_eq_empty_iff.1 hempty), hchars⟩

namespace Template

variable {expr : String} {p : Program} (hp : Program.compile o (Text.trim expr) = .ok p)
include hp

theorem build_bindingRead (hname : Text.trim name ≠ "")
    (hchars : ∀ c ∈ (Text.trim name).toList, Block.isNameChar c) :
    build o (.bindingRead name expr) =
      (fun n => ⟨.binding (Text.trim name) p n.toBlock⟩) <$> Node.ofText o (readingText name) := by
  have hform : HasForm [("$body", .string (readingText name)),
      ("$with", .string (name ++ " := " ++ expr))]
      (.binding (name ++ " := " ++ expr) (.string (readingText name))) :=
    .binding rfl rfl rfl (.short (.alone rfl))
  have hblock (body : Block) : Block.ofBinding o (name ++ " := " ++ expr) body =
      .ok (.binding (Text.trim name) p body) := by
    rw [← String.ofList_toList (s := Text.trim expr)] at hp
    refine Block.ofBinding_eq_ok.2 ⟨_, _, p, splitBinding?_eq_some.2
      (bindingText_of_isNameChar expr hname hchars), Program.ne_nil_of_compile hp, hp, ?_⟩
    rw [String.ofList_toList]
  rw [build, Value.bindingRead, Node.build_binding hform, Node.build_string]
  simp only [hblock]
  cases Node.ofText o (readingText name) <;> rfl

theorem build_loopRead (hname : ¬Form.isBlankText name) :
    build o (.loopRead name expr) =
      (fun n => ⟨.iteration p ⟨"index", "key", Text.trim name⟩ n.toBlock⟩) <$>
        Node.ofText o (readingText name) := by
  have hexpr : ¬Form.isBlankText expr := by
    rw [Form.isBlankText_iff]
    intro hempty
    rw [← String.ofList_toList (s := Text.trim expr)] at hp
    exact Program.ne_nil_of_compile hp (by rw [hempty]; rfl)
  have hform : HasForm [("$iterate", .object [("$body", .string (readingText name)),
      ("$expr", .string expr), ("$value", .string name)])]
      (.iteration expr ⟨"index", "key", Text.trim name⟩ (.string (readingText name))) :=
    .iteration rfl rfl (.structured (by simp [Fields.names]) ⟨rfl, hexpr⟩ (.absent rfl)
      (.absent rfl) (.given ⟨rfl, hname⟩) (.alone rfl))
  have hblock (body : Block) :
      Block.ofIteration o expr ⟨"index", "key", Text.trim name⟩ body = .ok _ :=
    Block.ofIteration_eq_ok.2 ⟨hexpr, p, hp, rfl⟩
  rw [build, Value.loopRead, Node.build_iteration hform, Node.build_string]
  simp only [hblock]
  cases Node.ofText o (readingText name) <;> rfl

omit hp in
/-- Where the name of a program that reads it is bound to a value, the program gives the value. -/
theorem emit_reading {q : Program} (hrun : ∀ context, q.run context =
    .ok ((Scope.get? ⟨context, o.globals⟩ name).getD .null)) {v : Value}
    (h : c.get? name = some v) : (Block.expression q false).emit c = .ok v := by
  have hfound : Scope.get? ⟨c.vars, o.globals⟩ name = some v := by
    rw [Scope.get?, show c.vars.get? name = some v from h]
  rw [Block.emit]
  refine bind_eq_ok.2 ⟨v, Program.emit_eq_ok.2 ?_, rfl⟩
  rw [hrun, hfound]
  rfl

end Template

/-! ### Variables are read back -/

/-- Passes that give the items themselves. -/
theorem Context.passes_eq_ok {enter : Context → Nat → Value → Context}
    {body : Context → TemplateResult Value}
    (h : ∀ c index item, body (enter c index item) = .ok item) (c : Context)
    (members : List (Value × Nat)) : passes enter body c members = .ok (members.map Prod.fst) := by
  induction members generalizing c with
  | nil => rfl
  | cons first rest ih =>
    obtain ⟨item, index⟩ := first
    rw [passes]
    exact bind_eq_ok.2 ⟨_, h c index item, bind_eq_ok.2 ⟨_, ih _, rfl⟩⟩

namespace Template

variable {expr : String} {p : Program}

theorem process_bindingRead (h : IsVariable (Text.trim name))
    (hp : Program.compile o expr = .ok p) :
    ∃ t, build o (.bindingRead name expr) = .ok t ∧
      ∀ c v, p.run c.vars = .ok v → t.process c = .ok v := by
  obtain ⟨q, hq, hrun⟩ := Node.exists_ofText_readingText o h
  obtain ⟨p', hp', hsame⟩ := Program.exists_compile_trim hp
  refine ⟨_, by rw [build_bindingRead hp' h.ne_empty h.1.isWordChar, hq]; rfl, fun c v hv => ?_⟩
  have hvalue : p'.emit c = .ok v := Program.emit_eq_ok.2 ((hsame c.vars).trans hv)
  have hread : (Block.expression q false).emit (c.bind (Text.trim name) v) = .ok v :=
    emit_reading hrun (by rw [Context.get?_bind, if_pos rfl])
  rw [process, Block.emit]
  exact bind_eq_ok.2 ⟨v, hvalue, hread⟩

theorem process_loopRead (h : IsVariable (Text.trim name))
    (hp : Program.compile o expr = .ok p) :
    ∃ t, build o (.loopRead name expr) = .ok t ∧
      ∀ c items, p.run c.vars = .ok (.array items) → (∀ v ∈ items, ¬v.isNull) →
        t.process c = .ok (.array items) := by
  obtain ⟨q, hq, hrun⟩ := Node.exists_ofText_readingText o h
  obtain ⟨p', hp', hsame⟩ := Program.exists_compile_trim hp
  have hname : ¬Form.isBlankText name := fun hblank => h.ne_empty (Form.isBlankText_iff.1 hblank)
  refine ⟨_, by rw [build_loopRead hp' hname, hq]; rfl, fun c items hv hnulls => ?_⟩
  have hvalue : p'.emit c = .ok (.array items) := Program.emit_eq_ok.2 ((hsame c.vars).trans hv)
  -- The item is bound behind the index, so that it is read also under the name of the index.
  have hpasses : Context.passes (·.bindItem ⟨"index", "key", Text.trim name⟩)
      (fun inside => (Block.expression q false).emit inside) c items.zipIdx =
        .ok (items.zipIdx.map Prod.fst) := by
    refine Context.passes_eq_ok (fun c index item => emit_reading hrun ?_) c items.zipIdx
    exact (Context.get?_bind _ _ _ item).trans (if_pos rfl)
  have hitems : items.zipIdx.map Prod.fst = items := List.zipIdx_map_fst 0 items
  have hall : items.filter (fun v => !v.isNull) = items := by
    rw [List.filter_eq_self]
    exact fun v hv => by simpa using hnulls v hv
  rw [process, Block.emit]
  refine bind_eq_ok.2 ⟨_, hvalue, bind_eq_ok.2 ⟨_, hpasses, ?_⟩⟩
  rw [hitems, hall]
  rfl

/-! ### Other names are not -/

/-- A text that gives both one and two where a name is bound to them reads the name. -/
theorem isVariable_of_reads (o : Options) (text : String) (c : Context)
    (h : ∀ m : Int, isInt64 m ∧ 0 ≤ m → ∃ n, Node.ofText o text = .ok n ∧
      n.emit (c.bind name (.int m)) = .ok (.int m)) : IsVariable name := by
  obtain ⟨n, hn, hone⟩ := h 1 (by decide)
  obtain ⟨n', hn', htwo⟩ := h 2 (by decide)
  cases hn.symm.trans hn'
  by_contra hname
  rw [Node.emit_bind hn hname] at hone htwo
  exact absurd (Except.ok.inj (hone.symm.trans htwo)) (by simp [Value.int])

theorem emit_of_bindingRead (hname : Text.trim name ≠ "")
    (hchars : ∀ c ∈ (Text.trim name).toList, Block.isNameChar c)
    (hp : Program.compile o expr = .ok p) {t : Template} {v w : Value}
    (ht : build o (.bindingRead name expr) = .ok t) (hv : p.run c.vars = .ok v)
    (hw : t.process c = .ok w) :
    ∃ n, Node.ofText o (readingText name) = .ok n ∧
      n.emit (c.bind (Text.trim name) v) = .ok w := by
  obtain ⟨p', hp', hsame⟩ := Program.exists_compile_trim hp
  rw [build_bindingRead hp' hname hchars] at ht
  obtain ⟨n, hn, rfl⟩ := map_eq_ok.1 ht
  rw [process, Block.emit, Program.emit_eq_ok.2 ((hsame c.vars).trans hv)] at hw
  refine ⟨n, hn, ?_⟩
  rw [← Node.emit_toBlock]
  exact hw

theorem emit_of_loopRead (hname : ¬Form.isBlankText name) (hp : Program.compile o expr = .ok p)
    {t : Template} {v w : Value} (ht : build o (.loopRead name expr) = .ok t)
    (hv : p.run c.vars = .ok (.array [v])) (hw : t.process c = .ok (.array [w])) :
    ∃ n, Node.ofText o (readingText name) = .ok n ∧
      n.emit ((c.bind "index" (.int 0)).bind (Text.trim name) v) = .ok w := by
  obtain ⟨p', hp', hsame⟩ := Program.exists_compile_trim hp
  rw [build_loopRead hp' hname] at ht
  obtain ⟨n, hn, rfl⟩ := map_eq_ok.1 ht
  rw [process, Block.emit, Program.emit_eq_ok.2 ((hsame c.vars).trans hv)] at hw
  obtain ⟨_, ⟨⟩, hw⟩ := bind_eq_ok.1 hw
  obtain ⟨results, hresults, hw⟩ := bind_eq_ok.1 hw
  obtain ⟨a, ha, hresults⟩ := bind_eq_ok.1 hresults
  cases hresults
  have hitems : [a].filter (fun v => !v.isNull) = [w] := Value.array.inj (Except.ok.inj hw)
  have hkept : w ∈ [a].filter fun v => !v.isNull := by
    rw [hitems]
    exact List.mem_cons_self
  refine ⟨n, hn, ?_⟩
  rw [← Node.emit_toBlock, List.mem_singleton.1 (List.mem_of_mem_filter hkept)]
  exact ha

/-- A bound name is read back for every expression only if it is a variable. Otherwise the document
cannot give both one and two. -/
theorem isVariable_of_bindingRead (hname : Text.trim name ≠ "")
    (hchars : ∀ c ∈ (Text.trim name).toList, Block.isNameChar c)
    (h : ∀ expr p, Program.compile o expr = .ok p → ∃ t, build o (.bindingRead name expr) = .ok t ∧
      ∀ c v, p.run c.vars = .ok v → t.process c = .ok v) : IsVariable (Text.trim name) := by
  refine isVariable_of_reads o (readingText name) .empty fun m hm => ?_
  have hlow : -9223372036854775808 < m := by omega
  obtain ⟨p, hp, hrun⟩ := Program.exists_compile_intText o hlow (by have := hm.1.2; omega)
  obtain ⟨t, ht, hprocess⟩ := h _ p hp
  exact emit_of_bindingRead hname hchars hp ht (hrun _) (hprocess .empty (.int m) (hrun _))

theorem isVariable_of_loopRead (hname : ¬Form.isBlankText name)
    (h : ∀ expr p, Program.compile o expr = .ok p → ∃ t, build o (.loopRead name expr) = .ok t ∧
      ∀ c items, p.run c.vars = .ok (.array items) → (∀ v ∈ items, ¬v.isNull) →
        t.process c = .ok (.array items)) : IsVariable (Text.trim name) := by
  refine isVariable_of_reads o (readingText name) (Context.empty.bind "index" (.int 0))
    fun m hm => ?_
  obtain ⟨p, hp, hrun⟩ := Program.exists_compile_singleton o hm.2 hm.1
  obtain ⟨t, ht, hprocess⟩ := h _ p hp
  exact emit_of_loopRead hname hp ht (hrun _)
    (hprocess .empty _ (hrun _) (List.forall_mem_singleton.2 nofun))

/-- A name that a binding or a loop takes can be read back exactly if it is a variable: the
document that reads the name between braces then gives the bound value, or all items of the
array. -/
theorem reads_back_iff (o : Options) (name : String) :
    (∀ text body p, Block.ofBinding o (name ++ " := " ++ text) body =
        .ok (.binding (Text.trim name) p body) →
      ((∀ expr p, Program.compile o expr = .ok p →
          ∃ t, build o (.bindingRead name expr) = .ok t ∧
            ∀ c v, p.run c.vars = .ok v → t.process c = .ok v) ↔
        IsVariable (Text.trim name))) ∧
    ∀ item, Form.loopName [("$value", .string name)] "$value" LoopNames.standard.item = .ok item →
      ((∀ expr p, Program.compile o expr = .ok p →
          ∃ t, build o (.loopRead name expr) = .ok t ∧
            ∀ c items, p.run c.vars = .ok (.array items) → (∀ v ∈ items, ¬v.isNull) →
              t.process c = .ok (.array items)) ↔
        IsVariable item) := by
  constructor
  · intro text body p h
    obtain ⟨hname, hchars⟩ := isNameChar_of_ofBinding h
    exact ⟨isVariable_of_bindingRead hname hchars,
      fun hvariable _ _ => process_bindingRead hvariable⟩
  · intro item h
    cases Form.loopName_eq_ok.1 h with
    | absent hnone => cases hnone
    | given htext =>
      obtain ⟨hget, hblank⟩ := htext
      cases hget
      exact ⟨isVariable_of_loopRead hblank, fun hvariable _ _ => process_loopRead hvariable⟩

/-- A total is read back, and so are the items of a list. -/
theorem reads_back_iff_total :
    (∃ t, build .empty (.bindingRead "total" "5") = .ok t ∧
      t.process .empty = .ok (.int 5)) ∧
    ∃ t, build .empty (.loopRead " item " "[5 ]") = .ok t ∧
      t.process .empty = .ok (.array [.int 5]) := by
  have hword (word : String) (h : word ∈ ["total", "item"]) : IsVariable word := by
    simp only [List.mem_cons, List.not_mem_nil, or_false] at h
    rcases h with rfl | rfl <;>
      exact ⟨⟨_, _, rfl, by decide, List.all_eq_true.1 (by decide)⟩, by decide⟩
  have htotal : Text.trim "total" = "total" := by decide +kernel
  have hitem : Text.trim " item " = "item" := by decide +kernel
  have hsplit : Block.splitBinding? ("total" ++ " := " ++ "5").toList =
      some ("total".toList, ['5']) := by decide +kernel
  obtain ⟨p, hp, hrun⟩ := Program.exists_compile_intText .empty (n := 5) (by decide) (by decide)
  obtain ⟨q, hq, hlist⟩ := Program.exists_compile_singleton .empty (n := 5) (by decide) (by decide)
  constructor
  · have hbinding : Block.ofBinding .empty ("total" ++ " := " ++ "5") (.literal .null) =
        .ok (.binding (Text.trim "total") p (.literal .null)) :=
      Block.ofBinding_eq_ok.2 ⟨_, _, p, hsplit, List.cons_ne_nil _ _, hp, by rw [htotal]; rfl⟩
    obtain ⟨t, ht, hprocess⟩ := ((reads_back_iff .empty "total").1 _ _ _ hbinding).2
      (htotal ▸ hword _ (by decide)) _ p hp
    exact ⟨t, ht, hprocess .empty _ (hrun _)⟩
  · have hname : Form.loopName [("$value", .string " item ")] "$value" LoopNames.standard.item =
        .ok "item" := by
      rw [← hitem]
      exact Form.loopName_eq_ok.2 (.given ⟨rfl, by decide +kernel⟩)
    obtain ⟨t, ht, hprocess⟩ := ((reads_back_iff .empty " item ").2 _ hname).2
      (hword _ (by decide)) _ q hq
    exact ⟨t, ht, hprocess .empty _ (hlist _) (List.forall_mem_singleton.2 nofun)⟩

/-- A keyword is bound without an error, and between braces it is still the keyword. -/
theorem keyword_bound_and_not_read :
    ∃ p t, Program.compile .empty "5" = .ok p ∧
      Block.ofBinding .empty ("true" ++ " := " ++ "5") (.literal .null) =
        .ok (.binding "true" p (.literal .null)) ∧
      p.run Context.empty.vars = .ok (.int 5) ∧
      build .empty (.bindingRead "true" "5") = .ok t ∧ t.process .empty = .ok (.bool true) := by
  have htrim : Text.trim "true" = "true" := by decide +kernel
  have hfive : Text.trim "5" = "5" := by decide +kernel
  have hsplit : Block.splitBinding? ("true" ++ " := " ++ "5").toList =
      some ("true".toList, ['5']) := by decide +kernel
  have hname : Lexer.IsName "true".toList :=
    ⟨_, _, rfl, by decide, List.all_eq_true.1 (by decide)⟩
  have hsentence : Grammar.Sentence [.keyword .true] (.bool default true) :=
    Grammar.Phrase.sentence (.tighter .access (.literal (.true default)))
  obtain ⟨p, hp, hrun⟩ := Program.exists_compile_intText .empty (n := 5) (by decide) (by decide)
  obtain ⟨q, hq, hkeyword⟩ := Program.exists_compile_of_sentence (o := .empty)
    (Lexer.spells_word hname) hsentence (by decide) fun _ => rfl
  rw [String.ofList_toList] at hq
  have htext : Node.ofText .empty (readingText "true") = .ok (.block (.expression q false)) := by
    rw [Node.ofText_readingText (by rw [htrim]; decide) (by rw [htrim]; exact hname.isWordChar),
      htrim, compile_eq_ok.2 hq]
    rfl
  refine ⟨p, ⟨.binding "true" p (.expression q false)⟩, hp, ?_, hrun _, ?_, ?_⟩
  · exact Block.ofBinding_eq_ok.2 ⟨_, _, p, hsplit, List.cons_ne_nil _ _, hp, rfl⟩
  · have hp' : Program.compile .empty (Text.trim "5") = .ok p := by rwa [hfive]
    rw [build_bindingRead hp' (by rw [htrim]; decide) (by rw [htrim]; exact hname.isWordChar),
      htext, htrim]
    rfl
  · rw [process, Block.emit, Program.emit_eq_ok.2 (hrun _)]
    refine (bind_eq_ok.2 ⟨_, rfl, ?_⟩)
    rw [Block.emit]
    exact bind_eq_ok.2 ⟨_, Program.emit_eq_ok.2 (hkeyword _), rfl⟩

end Template

end JsonTemplate
