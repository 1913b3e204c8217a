import JsonTemplate.Proofs.Fields
import JsonTemplate.Proofs.Template.Building
import JsonTemplate.Template.Basic

/-! Globals. Building does not look at them, so that a document becomes the same tree with other
globals, but for what its programs hold. A name is looked up among the globals after the context, at
every depth, so that globals are entries of the context which those of the caller override. -/

namespace JsonTemplate

/-! ### Trees with other programs -/

mutual

def Node.mapPrograms (f : Program → Program) : Node → Node
  | .static v => .static v
  | .block b => .block (b.mapPrograms f)

/-- The block with other programs, at every depth. -/
def Block.mapPrograms (f : Program → Program) : Block → Block
  | .literal v => .literal v
  | .expression program asText => .expression (f program) asText
  | .interpolation template => .interpolation ⟨template.text, template.programs.mapValues f⟩
  | .sequence items => .sequence (Node.mapItems f items)
  | .mapping fields => .mapping (Node.mapFields f fields)
  | .conditional condition yes no =>
    .conditional (f condition) (yes.mapPrograms f) (Block.mapBranch f no)
  | .iteration source names body => .iteration (f source) names (body.mapPrograms f)
  | .binding name value body => .binding name (f value) (body.mapPrograms f)

def Block.mapBranch (f : Program → Program) : Option Block → Option Block
  | none => none
  | some b => some (b.mapPrograms f)

def Node.mapItems (f : Program → Program) : List Node → List Node
  | [] => []
  | n :: rest => n.mapPrograms f :: Node.mapItems f rest

def Node.mapFields (f : Program → Program) : List (String × Node) → List (String × Node)
  | [] => []
  | (name, n) :: rest => (name, n.mapPrograms f) :: Node.mapFields f rest

end

/-- Results that come of each other, and what is made of them. -/
theorem bind_eq_map {ε α α' β β' : Type} {x : Except ε α} {x' : Except ε α'} {g : α → α'}
    {k : α → Except ε β} {k' : α' → Except ε β'} {h : β → β'} (hx : x' = g <$> x)
    (hk : ∀ a, k' (g a) = h <$> k a) : (x' >>= k') = h <$> (x >>= k) := by
  subst hx
  cases x with
  | error e => rfl
  | ok a => exact hk a

theorem map_eq_map {ε α α' β β' : Type} {x : Except ε α} {x' : Except ε α'} {g : α → α'}
    {k : α → β} {k' : α' → β'} {h : β → β'} (hx : x' = g <$> x) (hk : ∀ a, k' (g a) = h (k a)) :
    k' <$> x' = h <$> (k <$> x) := by
  subst hx
  cases x with
  | error e => rfl
  | ok a => exact congrArg Except.ok (hk a)

section Build
variable {o o' : Options} {f : Program → Program}

theorem Options.compile_eq_map
    (hcompile : ∀ source, Program.compile o' source = f <$> Program.compile o source)
    (source : String) : o'.compile source = f <$> o.compile source := by
  unfold Options.compile
  rw [hcompile]
  cases Program.compile o source <;> rfl

/-- The markers of a text decide which programs there are, whatever the programs are. -/
theorem TextTemplate.addPrograms_eq_map
    (hcompile : ∀ source, o'.compile source = f <$> o.compile source) (markers : List Marker)
    (programs : Fields Program) :
    addPrograms o' markers (programs.mapValues f) =
      Fields.mapValues f <$> addPrograms o markers programs := by
  induction markers generalizing programs with
  | nil => rfl
  | cons m rest ih =>
    rw [addPrograms, addPrograms, Fields.get?_mapValues, Option.isSome_map]
    split
    · exact ih programs
    · refine bind_eq_map (hcompile _) fun program => ?_
      rw [← Fields.mapValues_insert]
      exact ih _

theorem Node.ofText_eq_map (hcompile : ∀ source, o'.compile source = f <$> o.compile source)
    (text : String) : ofText o' text = mapPrograms f <$> ofText o text := by
  unfold ofText
  simp only
  split
  · rfl
  · exact bind_eq_map (hcompile _) fun _ => rfl
  · exact bind_eq_map (TextTemplate.addPrograms_eq_map hcompile _ []) fun _ => rfl

namespace Block

theorem ofCondition_eq_map (hcompile : ∀ source, o'.compile source = f <$> o.compile source)
    (condition : String) (yes : Block) (no : Option Block) :
    ofCondition o' condition (yes.mapPrograms f) (no.map (mapPrograms f)) =
      mapPrograms f <$> ofCondition o condition yes no := by
  unfold ofCondition
  simp only
  split
  · rfl
  split
  · rfl
  · cases no <;> rfl
  · exact bind_eq_map (hcompile _) fun _ => by cases no <;> rfl

theorem ofIteration_eq_map (hcompile : ∀ source, o'.compile source = f <$> o.compile source)
    (source : String) (names : LoopNames) (body : Block) :
    ofIteration o' source names (body.mapPrograms f) =
      mapPrograms f <$> ofIteration o source names body := by
  unfold ofIteration
  simp only
  split
  · rfl
  · exact bind_eq_map (hcompile _) fun _ => rfl

theorem ofBinding_eq_map (hcompile : ∀ source, o'.compile source = f <$> o.compile source)
    (text : String) (body : Block) :
    ofBinding o' text (body.mapPrograms f) = mapPrograms f <$> ofBinding o text body := by
  unfold ofBinding
  split
  · rfl
  · rfl
  · exact bind_eq_map (hcompile _) fun _ => rfl

end Block

namespace Node

theorem toBlock_mapPrograms (n : Node) : (n.mapPrograms f).toBlock = n.toBlock.mapPrograms f := by
  cases n <;> rfl

theorem isBlock_mapPrograms (n : Node) : (n.mapPrograms f).isBlock = n.isBlock := by
  cases n <;> rfl

theorem mapItems_eq (items : List Node) : mapItems f items = items.map (mapPrograms f) := by
  induction items with
  | nil => rfl
  | cons n rest ih => rw [mapItems, ih, List.map_cons]

theorem mapFields_eq (fields : List (String × Node)) :
    mapFields f fields = fields.map fun field => (field.1, field.2.mapPrograms f) := by
  induction fields with
  | nil => rfl
  | cons field rest ih => rw [mapFields, ih, List.map_cons]

theorem ofItems_mapItems (items : List Value) (nodes : List Node) :
    ofItems items (mapItems f nodes) = (ofItems items nodes).mapPrograms f := by
  have hany : (mapItems f nodes).any isBlock = nodes.any isBlock := by
    simp only [mapItems_eq, List.any_map, Function.comp_def, isBlock_mapPrograms]
  rw [ofItems, ofItems, hany]
  split <;> rfl

theorem ofEntries_mapFields (fields : Fields Value) (nodes : List (String × Node)) :
    ofEntries fields (mapFields f nodes) = (ofEntries fields nodes).mapPrograms f := by
  have hany : ((mapFields f nodes).any fun n => n.2.isBlock) = nodes.any fun n => n.2.isBlock := by
    simp only [mapFields_eq, List.any_map, Function.comp_def, isBlock_mapPrograms]
  rw [ofEntries, ofEntries, hany]
  split <;> rfl

theorem buildItems_eq_map {items : List Value}
    (h : ∀ v ∈ items, build o' v = mapPrograms f <$> build o v) :
    buildItems o' items = mapItems f <$> buildItems o items := by
  induction items with
  | nil =>
    rw [buildItems, buildItems]
    rfl
  | cons v rest ih =>
    obtain ⟨hv, hrest⟩ := List.forall_mem_cons.1 h
    rw [buildItems, buildItems]
    exact bind_eq_map hv fun _ => bind_eq_map (ih hrest) fun _ => rfl

theorem buildFields_eq_map {entries : List (String × Value)}
    (h : ∀ entry ∈ entries, build o' entry.2 = mapPrograms f <$> build o entry.2) :
    buildFields o' entries = mapFields f <$> buildFields o entries := by
  induction entries with
  | nil =>
    rw [buildFields, buildFields]
    rfl
  | cons entry rest ih =>
    obtain ⟨hentry, hrest⟩ := List.forall_mem_cons.1 h
    obtain ⟨name, v⟩ := entry
    rw [buildFields, buildFields]
    exact bind_eq_map hentry fun _ => bind_eq_map (ih hrest) fun _ => rfl

theorem build_form_eq_map (hcompile : ∀ source, o'.compile source = f <$> o.compile source)
    {fields : Fields Value} {form : Form} (hform : Form.HasForm fields form)
    (hentries : ∀ entry ∈ fields, build o' entry.2 = mapPrograms f <$> build o entry.2)
    (hparts : ∀ part ∈ form.parts, build o' part = mapPrograms f <$> build o part) :
    build o' (.object fields) = mapPrograms f <$> build o (.object fields) := by
  cases form with
  | plain =>
    rw [build_plain hform, build_plain hform]
    refine bind_eq_map (buildFields_eq_map hentries) fun nodes => ?_
    rw [ofEntries_mapFields]
    rfl
  | conditional text yes no =>
    obtain ⟨hyes, hno⟩ := List.forall_mem_cons.1 hparts
    have hno : no.mapM (build o') = Option.map (mapPrograms f) <$> no.mapM (build o) := by
      cases no with
      | none => rfl
      | some no => exact map_eq_map (hno no (List.mem_singleton_self no)) fun _ => rfl
    rw [build_conditional hform, build_conditional hform]
    refine bind_eq_map hyes fun yesNode => bind_eq_map hno fun noNode => ?_
    have hbranch : (noNode.map (mapPrograms f)).map toBlock =
        (noNode.map toBlock).map (Block.mapPrograms f) := by
      cases noNode with
      | none => rfl
      | some n => exact congrArg some n.toBlock_mapPrograms
    rw [toBlock_mapPrograms, hbranch]
    exact map_eq_map (Block.ofCondition_eq_map hcompile ..) fun _ => rfl
  | iteration source names body =>
    rw [build_iteration hform, build_iteration hform]
    refine bind_eq_map (hparts body (List.mem_singleton_self body)) fun bodyNode => ?_
    rw [toBlock_mapPrograms]
    exact map_eq_map (Block.ofIteration_eq_map hcompile ..) fun _ => rfl
  | binding text body =>
    rw [build_binding hform, build_binding hform]
    refine bind_eq_map (hparts body (List.mem_singleton_self body)) fun bodyNode => ?_
    rw [toBlock_mapPrograms]
    exact map_eq_map (Block.ofBinding_eq_map hcompile ..) fun _ => rfl

/-- If all texts compile to the programs that come of each other, or fail alike, then so do all
documents. -/
theorem build_eq_map (hcompile : ∀ source, o'.compile source = f <$> o.compile source)
    (v : Value) : build o' v = mapPrograms f <$> build o v := by
  induction v using Value.induction_forms with
  | null =>
    rw [build_null, build_null]
    rfl
  | bool b =>
    rw [build_bool, build_bool]
    rfl
  | number n =>
    rw [build_number, build_number]
    rfl
  | string s =>
    rw [build_string, build_string]
    exact ofText_eq_map hcompile s
  | array items ih =>
    rw [build_array, build_array]
    refine bind_eq_map (buildItems_eq_map ih) fun nodes => ?_
    rw [ofItems_mapItems]
    rfl
  | object fields ihEntries ihParts =>
    cases hform : Form.ofFields fields with
    | error e =>
      rw [build_of_formError hform, build_of_formError hform]
      rfl
    | ok form =>
      have hform := Form.ofFields_eq_ok.1 hform
      exact build_form_eq_map hcompile hform ihEntries (ihParts form hform)

end Node

end Build

/-! ### Filling in trees with other programs -/

/-- In contexts that are related, the programs give the same, and so they do in the contexts inside
any binding. -/
structure Interchangeable (R : Context → Context → Prop) (f g : Program → Program) : Prop where
  source : ∀ p, (f p).source = (g p).source
  run : ∀ p {c c'}, R c c' → (f p).run c.vars = (g p).run c'.vars
  bind : ∀ {c c'} name v, R c c' → R (c.bind name v) (c'.bind name v)

section Emit
variable {R : Context → Context → Prop} {f g : Program → Program}

theorem Interchangeable.emit (h : Interchangeable R f g) (p : Program) {c c' : Context}
    (hc : R c c') : (f p).emit c = (g p).emit c' := by
  rw [Program.emit, Program.emit, h.run p hc, h.source p]

theorem TextTemplate.emitPrograms_mapValues (h : Interchangeable R f g) {c c' : Context}
    (hc : R c c') (programs : Fields Program) :
    emitPrograms c (programs.mapValues f) = emitPrograms c' (programs.mapValues g) := by
  induction programs with
  | nil => rfl
  | cons entry rest ih =>
    obtain ⟨marker, p⟩ := entry
    change emitPrograms c ((marker, f p) :: Fields.mapValues f rest) =
      emitPrograms c' ((marker, g p) :: Fields.mapValues g rest)
    rw [emitPrograms, emitPrograms, h.emit p hc, ih]

/-- Passes that enter related contexts from related contexts have the same values. -/
theorem Context.passes_related {α : Type} {enter : Context → Nat → α → Context}
    {body body' : Context → TemplateResult Value}
    (henter : ∀ {c c'} index member, R c c' → R (enter c index member) (enter c' index member))
    (hbody : ∀ {c c'}, R c c' → body c = body' c') {c c' : Context} (hc : R c c')
    (members : List (α × Nat)) : passes enter body c members = passes enter body' c' members := by
  induction members generalizing c c' with
  | nil => rfl
  | cons first rest ih =>
    obtain ⟨member, index⟩ := first
    have hinside := henter index member hc
    rw [passes, passes, hbody hinside, ih hinside]

theorem Block.emit_iteration_mapPrograms (h : Interchangeable R f g) {source : Program}
    {names : LoopNames} {body : Block}
    (hbody : ∀ {c c'}, R c c' → (body.mapPrograms f).emit c = (body.mapPrograms g).emit c')
    {c c' : Context} (hc : R c c') :
    ((Block.iteration source names body).mapPrograms f).emit c =
      ((Block.iteration source names body).mapPrograms g).emit c' := by
  have hitem {c c'} (index : Nat) (item : Value) (hc : R c c') :
      R (c.bindItem names index item) (c'.bindItem names index item) :=
    h.bind _ _ (h.bind _ _ hc)
  have hentry {c c'} (index : Nat) (entry : String × Value) (hc : R c c') :
      R (c.bindEntry names index entry) (c'.bindEntry names index entry) :=
    h.bind _ _ (h.bind _ _ (h.bind _ _ hc))
  rw [mapPrograms, mapPrograms, Block.emit, Block.emit, h.emit source hc, h.source source]
  congr 1
  funext collection
  cases collection with
  | array items => simp only [Context.passes_related (R := R) hitem hbody hc]
  | object fields => simp only [Context.passes_related (R := R) hentry hbody hc]
  | _ => rfl

mutual

theorem Node.emit_mapPrograms (h : Interchangeable R f g) :
    ∀ (n : Node) {c c' : Context}, R c c' →
      (n.mapPrograms f).emit c = (n.mapPrograms g).emit c'
  | .static _, _, _, _ => by simp only [Node.mapPrograms, Node.emit]
  | .block b, _, _, hc => by
    simp only [Node.mapPrograms, Node.emit, Block.emit_mapPrograms h b hc]

/-- Trees with interchangeable programs give the same value or the same error. -/
theorem Block.emit_mapPrograms (h : Interchangeable R f g) :
    ∀ (b : Block) {c c' : Context}, R c c' →
      (b.mapPrograms f).emit c = (b.mapPrograms g).emit c'
  | .literal _, _, _, _ => by simp only [Block.mapPrograms, Block.emit]
  | .expression program _, _, _, hc => by
    simp only [Block.mapPrograms, Block.emit, h.emit program hc]
  | .interpolation template, _, _, hc => by
    simp only [Block.mapPrograms, Block.emit, TextTemplate.emit,
      TextTemplate.emitPrograms_mapValues h hc template.programs]
  | .sequence items, _, _, hc => by
    simp only [Block.mapPrograms, Block.emit, Node.emitItems_mapItems h items hc]
  | .mapping fields, _, _, hc => by
    simp only [Block.mapPrograms, Block.emit, Node.emitFields_mapFields h fields hc]
  | .conditional condition yes no, _, _, hc => by
    simp only [Block.mapPrograms, Block.emit, h.emit condition hc,
      Block.emit_mapPrograms h yes hc, Block.emitBranch_mapBranch h no hc]
  | .iteration _ _ body, _, _, hc =>
    Block.emit_iteration_mapPrograms h (fun hinside => Block.emit_mapPrograms h body hinside) hc
  | .binding name value body, _, _, hc => by
    simp only [Block.mapPrograms, Block.emit, h.emit value hc]
    congr 1
    funext v
    exact Block.emit_mapPrograms h body (h.bind name v hc)

theorem Block.emitBranch_mapBranch (h : Interchangeable R f g) :
    ∀ (no : Option Block) {c c' : Context}, R c c' →
      Block.emitBranch c (Block.mapBranch f no) = Block.emitBranch c' (Block.mapBranch g no)
  | none, _, _, _ => by simp only [Block.mapBranch, Block.emitBranch]
  | some b, _, _, hc => by
    simp only [Block.mapBranch, Block.emitBranch, Block.emit_mapPrograms h b hc]

theorem Node.emitItems_mapItems (h : Interchangeable R f g) :
    ∀ (items : List Node) {c c' : Context}, R c c' →
      Node.emitItems c (Node.mapItems f items) = Node.emitItems c' (Node.mapItems g items)
  | [], _, _, _ => by simp only [Node.mapItems, Node.emitItems]
  | n :: rest, _, _, hc => by
    simp only [Node.mapItems, Node.emitItems, Node.emit_mapPrograms h n hc,
      Node.emitItems_mapItems h rest hc]

theorem Node.emitFields_mapFields (h : Interchangeable R f g) :
    ∀ (fields : List (String × Node)) {c c' : Context}, R c c' →
      Node.emitFields c (Node.mapFields f fields) = Node.emitFields c' (Node.mapFields g fields)
  | [], _, _, _ => by simp only [Node.mapFields, Node.emitFields]
  | (_, n) :: rest, _, _, hc => by
    simp only [Node.mapFields, Node.emitFields, Node.emit_mapPrograms h n hc,
      Node.emitFields_mapFields h rest hc]

end

end Emit

/-! ### Evaluation with other globals -/

theorem Options.call_congr {o o' : Options} (h : o.functions = o'.functions) (name : String)
    (arguments : List Value) : o.call name arguments = o'.call name arguments := by
  unfold call function?
  rw [h]

namespace Expr

variable {o o' : Options} {a b : Fields Value}

mutual

/-- An expression does not tell a global from an entry of its context. -/
theorem eval_scope_congr (hfunctions : o.functions = o'.functions)
    (h : ∀ name, Scope.get? ⟨a, o.globals⟩ name = Scope.get? ⟨b, o'.globals⟩ name) :
    ∀ e : Expr, e.eval o a = e.eval o' b
  | .int .. | .float .. | .string .. | .bool .. | .nil _ => by simp only [eval]
  | .identifier _ name => by simp only [eval, h name]
  | .array _ items => by simp only [eval, evalItems_scope_congr hfunctions h items]
  | .map _ entries => by simp only [eval, evalEntries_scope_congr hfunctions h entries]
  | .member _ object _ => by simp only [eval, eval_scope_congr hfunctions h object]
  | .index _ object place => by
    simp only [eval, eval_scope_congr hfunctions h object, eval_scope_congr hfunctions h place]
  | .call _ _ arguments => by
    simp only [eval, evalItems_scope_congr hfunctions h arguments, Options.call_congr hfunctions]
  | .unary _ _ operand => by simp only [eval, eval_scope_congr hfunctions h operand]
  | .binary _ _ left right => by
    simp only [eval, eval_scope_congr hfunctions h left, eval_scope_congr hfunctions h right]
  | .lazy _ _ left right => by
    simp only [eval, eval_scope_congr hfunctions h left, eval_scope_congr hfunctions h right]
  | .conditional _ condition yes no => by
    simp only [eval, eval_scope_congr hfunctions h condition, eval_scope_congr hfunctions h yes,
      eval_scope_congr hfunctions h no]
  | .paren _ inner => by simp only [eval, eval_scope_congr hfunctions h inner]

theorem evalItems_scope_congr (hfunctions : o.functions = o'.functions)
    (h : ∀ name, Scope.get? ⟨a, o.globals⟩ name = Scope.get? ⟨b, o'.globals⟩ name) :
    ∀ items : List Expr, evalItems o a items = evalItems o' b items
  | [] => rfl
  | e :: rest => by
    simp only [evalItems, eval_scope_congr hfunctions h e,
      evalItems_scope_congr hfunctions h rest]

theorem evalEntries_scope_congr (hfunctions : o.functions = o'.functions)
    (h : ∀ name, Scope.get? ⟨a, o.globals⟩ name = Scope.get? ⟨b, o'.globals⟩ name) :
    ∀ entries : List (String × Expr), evalEntries o a entries = evalEntries o' b entries
  | [] => rfl
  | (_, e) :: rest => by
    simp only [evalEntries, eval_scope_congr hfunctions h e,
      evalEntries_scope_congr hfunctions h rest]

end

end Expr

/-! ### Globals as entries -/

def Options.setGlobals (o : Options) (globals : Fields Value) : Options :=
  { o with globals := globals }

def Program.setGlobals (globals : Fields Value) (p : Program) : Program :=
  { p with options := p.options.setGlobals globals }

/-- Neither the text nor its calls are read with the globals in sight. -/
theorem Program.compile_setGlobals (o : Options) (globals : Fields Value) (source : String) :
    compile (o.setGlobals globals) source = setGlobals globals <$> compile o source := by
  have hcalls : (o.setGlobals globals).callDiagnostic? source = o.callDiagnostic? source := rfl
  unfold compile
  simp only [hcalls]
  split
  · rfl
  · split
    · rfl
    · split <;> rfl

namespace Context

/-- The entries of the context, and those that the globals have for other names. -/
def withDefaults (c : Context) (globals : Fields Value) : Context :=
  ⟨c.vars.foldr (fun entry vars => vars.insert entry.1 entry.2) globals⟩

theorem get?_withDefaults (globals : Fields Value) (c : Context) (name : String) :
    (c.withDefaults globals).get? name = Scope.get? ⟨c.vars, globals⟩ name := by
  obtain ⟨vars⟩ := c
  induction vars with
  | nil => rfl
  | cons entry rest ih =>
    obtain ⟨key, v⟩ := entry
    rw [withDefaults, get?, List.foldr_cons, Fields.get?_insert, Scope.get?, Fields.get?]
    split
    · rfl
    · exact ih

example : (Context.withDefaults ⟨[("a", .null)]⟩ [("a", .int 1)]).get? "a" = some .null := rfl

theorem ordered_withDefaults {globals : Fields Value} (h : globals.Ordered) (c : Context) :
    (c.withDefaults globals).vars.Ordered := by
  obtain ⟨vars⟩ := c
  induction vars with
  | nil => exact h
  | cons entry rest ih => exact Fields.ordered_insert ih

/-- The merged context has alone what the other context has together with the globals. -/
def Holds (globals : Fields Value) (c merged : Context) : Prop :=
  ∀ name, Scope.get? ⟨c.vars, globals⟩ name = merged.get? name

theorem holds_withDefaults (globals : Fields Value) (c : Context) :
    Holds globals c (c.withDefaults globals) :=
  fun name => (get?_withDefaults globals c name).symm

theorem scope_bind (globals : Fields Value) (c : Context) (name other : String) (v : Value) :
    Scope.get? ⟨(c.bind name v).vars, globals⟩ other =
      if other = name then some v else Scope.get? ⟨c.vars, globals⟩ other := by
  simp only [Scope.get?, bind, Fields.get?_insert]
  by_cases h : other = name
  · rw [if_pos h, if_pos h]
  · rw [if_neg h, if_neg h]

/-- A name that is bound hides a global and an entry alike. -/
theorem Holds.bind {globals : Fields Value} {c merged : Context} (h : Holds globals c merged)
    (name : String) (v : Value) : Holds globals (c.bind name v) (merged.bind name v) := by
  intro other
  rw [scope_bind, get?_bind, h other]

end Context

/-- Programs with globals in a context are interchangeable with programs without in the context
that holds the globals too. -/
theorem Program.interchangeable_setGlobals (globals : Fields Value) :
    Interchangeable (Context.Holds globals) (setGlobals globals) (setGlobals []) where
  source _ := rfl
  run p {c c'} h := by
    have hfunctions : (p.options.setGlobals globals).functions =
        (p.options.setGlobals []).functions := rfl
    refine Expr.eval_scope_congr hfunctions (fun name => ?_) p.expr
    change Scope.get? ⟨c.vars, globals⟩ name = Scope.get? ⟨c'.vars, []⟩ name
    rw [h name, Scope.get?, Context.get?]
    cases c'.vars.get? name <;> rfl
  bind name v h := h.bind name v

/-- Globals are entries of the context that any entry of the caller's overrides, null as well. A
document is refused with them exactly if it is refused without them, with the same error, and the
templates it is built into give the same value or the same error. -/
theorem Template.process_globals (functions : Fields Function) (globals : Fields Value)
    (v : Value) :
    (∀ (c : Context) (name : String), (c.withDefaults globals).get? name =
      match c.get? name with
      | some w => some w
      | none => globals.get? name) ∧
    ((∃ e, build ⟨globals, functions⟩ v = .error e ∧ build ⟨[], functions⟩ v = .error e) ∨
      ∃ t t', build ⟨globals, functions⟩ v = .ok t ∧ build ⟨[], functions⟩ v = .ok t' ∧
        ∀ c, t.process c = t'.process (c.withDefaults globals)) := by
  refine ⟨Context.get?_withDefaults globals, ?_⟩
  have hbuild (others : Fields Value) : Node.build ⟨others, functions⟩ v =
      Node.mapPrograms (Program.setGlobals others) <$> Node.build ⟨[], functions⟩ v :=
    Node.build_eq_map (Options.compile_eq_map (Program.compile_setGlobals ⟨[], functions⟩ others)) v
  cases hnode : Node.build ⟨[], functions⟩ v with
  | error e =>
    rw [hnode] at hbuild
    refine .inl ⟨e, ?_, ?_⟩
    · rw [build, hbuild]
      rfl
    · rw [build, hbuild]
      rfl
  | ok n =>
    rw [hnode] at hbuild
    refine .inr ⟨⟨(n.mapPrograms (Program.setGlobals globals)).toBlock⟩,
      ⟨(n.mapPrograms (Program.setGlobals [])).toBlock⟩, ?_, ?_, fun c => ?_⟩
    · rw [build, hbuild]
      rfl
    · rw [build, hbuild]
      rfl
    · rw [process, process, Node.toBlock_mapPrograms, Node.toBlock_mapPrograms]
      exact Block.emit_mapPrograms (Program.interchangeable_setGlobals globals) n.toBlock
        (Context.holds_withDefaults globals c)

end JsonTemplate
