import JsonTemplate.Proofs.Template.Refusals

/-! Failures of templates that are built. Filling in a template fails in one of its blocks, in the
context that reaches the block: a program of the block has no value there, or the block is an
iteration over something that has no members. Building and filling in have no error in common. -/

namespace JsonTemplate

/-! ### Blocks that are reached -/

/-- The contexts of the passes that are entered. The body has a value in the passes before. -/
inductive Context.Enters {α : Type} (enter : Context → Nat → α → Context)
    (body : Context → TemplateResult Value) : Context → List (α × Nat) → Context → Prop where
  | first (c : Context) (member : α) (index : Nat) (rest : List (α × Nat)) :
    Enters enter body c ((member, index) :: rest) (enter c index member)
  | later {c inside : Context} {member : α} {index : Nat} {rest : List (α × Nat)} {v : Value} :
    body (enter c index member) = .ok v → Enters enter body (enter c index member) rest inside →
    Enters enter body c ((member, index) :: rest) inside

namespace Block

/-- Filling in a block in a context reaches a block inside it, in a context of its own. What comes
before it has a value. -/
inductive Reaches : Block → Context → Block → Context → Prop where
  | here (b : Block) (c : Context) : Reaches b c b c
  | item {before after : List Node} {b a : Block} {c d : Context} {values : List Value} :
    Node.emitItems c before = .ok values → Reaches b c a d →
    Reaches (.sequence (before ++ .block b :: after)) c a d
  | field {before after : List (String × Node)} {name : String} {b a : Block} {c d : Context}
      {values : List (String × Value)} :
    Node.emitFields c before = .ok values → Reaches b c a d →
    Reaches (.mapping (before ++ (name, .block b) :: after)) c a d
  | yes {condition : Program} {yes a : Block} {no : Option Block} {c d : Context} {v : Value} :
    condition.run c.vars = .ok v → v.truthy = true → Reaches yes c a d →
    Reaches (.conditional condition yes no) c a d
  | no {condition : Program} {yes no a : Block} {c d : Context} {v : Value} :
    condition.run c.vars = .ok v → v.truthy = false → Reaches no c a d →
    Reaches (.conditional condition yes (some no)) c a d
  | element {source : Program} {names : LoopNames} {body a : Block} {c inside d : Context}
      {items : List Value} :
    source.run c.vars = .ok (.array items) →
    Context.Enters (·.bindItem names) (fun inside => body.emit inside) c items.zipIdx inside →
    Reaches body inside a d → Reaches (.iteration source names body) c a d
  | entry {source : Program} {names : LoopNames} {body a : Block} {c inside d : Context}
      {fields : Fields Value} :
    source.run c.vars = .ok (.object fields) →
    Context.Enters (·.bindEntry names) (fun inside => body.emit inside) c fields.zipIdx inside →
    Reaches body inside a d → Reaches (.iteration source names body) c a d
  | bound {name : String} {value : Program} {body a : Block} {c d : Context} {v : Value} :
    value.run c.vars = .ok v → Reaches body (c.bind name v) a d →
    Reaches (.binding name value body) c a d

/-- The programs of a block itself. -/
def programs : Block → List Program
  | .literal _ | .sequence _ | .mapping _ => []
  | .expression program _ => [program]
  | .interpolation template => template.programs.values
  | .conditional condition _ _ => [condition]
  | .iteration source _ _ => [source]
  | .binding _ value _ => [value]

/-- The errors of a block itself. The programs before the one that fails have values. -/
inductive Raises : Block → Context → TemplateError → Prop where
  | evaluation {b : Block} {c : Context} {before after : List Program} {p : Program}
      {cause : EvalError} :
    b.programs = before ++ p :: after → (∀ q ∈ before, ∃ v, q.run c.vars = .ok v) →
    p.run c.vars = .error cause → Raises b c (.evaluation p.source cause)
  | notIterable {source : Program} {names : LoopNames} {body : Block} {c : Context} {v : Value} :
    source.run c.vars = .ok v → v.kind ≠ .array → v.kind ≠ .object →
    Raises (.iteration source names body) c (.notIterable source.source v.kind)

/-- The error is that of a block which is reached. -/
def FailsInside (b : Block) (c : Context) (e : TemplateError) : Prop :=
  ∃ a d, b.Reaches c a d ∧ a.Raises d e

variable {b : Block} {c : Context} {e : TemplateError}

theorem failsInside_own (h : b.Raises c e) : b.FailsInside c e := ⟨b, c, .here b c, h⟩

end Block

/-! ### Errors of programs -/

theorem Program.emit_eq_ok {p : Program} {c : Context} {v : Value} :
    p.emit c = .ok v ↔ p.run c.vars = .ok v := by
  unfold emit
  cases p.run c.vars <;> simp

theorem Program.emit_eq_error {p : Program} {c : Context} {e : TemplateError} :
    p.emit c = .error e ↔
      ∃ cause, p.run c.vars = .error cause ∧ e = .evaluation p.source cause := by
  unfold emit
  cases p.run c.vars <;> simp [eq_comm]

/-- The only program of a block. -/
theorem Block.raises_of_emit {b : Block} {p : Program} {c : Context} {e : TemplateError}
    (hprograms : b.programs = [p]) (h : p.emit c = .error e) : b.Raises c e := by
  obtain ⟨cause, hcause, rfl⟩ := Program.emit_eq_error.1 h
  exact .evaluation (show b.programs = [] ++ [p] from hprograms) nofun hcause

theorem TextTemplate.emitPrograms_eq_error {programs : Fields Program} {c : Context}
    {e : TemplateError} :
    emitPrograms c programs = .error e ↔ ∃ before p after,
      programs.values = before ++ p :: after ∧ (∀ q ∈ before, ∃ v, q.run c.vars = .ok v) ∧
        p.emit c = .error e := by
  constructor
  · intro h
    induction programs with
    | nil => cases h
    | cons entry rest ih =>
      obtain ⟨marker, p⟩ := entry
      rw [emitPrograms] at h
      rcases bind_eq_error.1 h with hp | ⟨v, hv, h⟩
      · exact ⟨[], p, Fields.values rest, rfl, nofun, hp⟩
      · rcases bind_eq_error.1 h with hrest | ⟨texts, -, h⟩
        · obtain ⟨before, q, after, hprograms, hbefore, hq⟩ := ih hrest
          have hp : ∃ v, p.run c.vars = .ok v := ⟨v, Program.emit_eq_ok.1 hv⟩
          exact ⟨p :: before, q, after, congrArg (p :: ·) hprograms,
            List.forall_mem_cons.2 ⟨hp, hbefore⟩, hq⟩
        · cases h
  · rintro ⟨before, q, after, hprograms, hbefore, hq⟩
    induction before generalizing programs with
    | nil =>
      obtain _ | ⟨⟨marker, p⟩, rest⟩ := programs
      · cases hprograms
      · cases hprograms
        exact bind_eq_error.2 (.inl hq)
    | cons p before ih =>
      obtain _ | ⟨⟨marker, p⟩, rest⟩ := programs
      · cases hprograms
      · obtain ⟨rfl, hrest⟩ := List.cons.inj hprograms
        obtain ⟨⟨v, hv⟩, hbefore⟩ := List.forall_mem_cons.1 hbefore
        exact bind_eq_error.2 (.inr ⟨v, Program.emit_eq_ok.2 hv,
          bind_eq_error.2 (.inl (ih hrest hbefore))⟩)

/-- Passes fail exactly if the body fails in a pass that is entered. -/
theorem Context.passes_eq_error {α : Type} {enter : Context → Nat → α → Context}
    {body : Context → TemplateResult Value} {c : Context} {members : List (α × Nat)}
    {e : TemplateError} :
    passes enter body c members = .error e ↔
      ∃ inside, Enters enter body c members inside ∧ body inside = .error e := by
  constructor
  · intro h
    induction members generalizing c with
    | nil => cases h
    | cons first rest ih =>
      obtain ⟨member, index⟩ := first
      rw [passes] at h
      rcases bind_eq_error.1 h with hbody | ⟨v, hv, h⟩
      · exact ⟨_, .first c member index rest, hbody⟩
      · rcases bind_eq_error.1 h with hrest | ⟨values, -, h⟩
        · obtain ⟨inside, henters, hfails⟩ := ih hrest
          exact ⟨inside, .later hv henters, hfails⟩
        · cases h
  · rintro ⟨inside, henters, hfails⟩
    induction henters with
    | first => exact bind_eq_error.2 (.inl hfails)
    | later hv _ ih => exact bind_eq_error.2 (.inr ⟨_, hv, bind_eq_error.2 (.inl (ih hfails))⟩)

/-! ### Errors of blocks -/

open Block (FailsInside failsInside_own raises_of_emit)

/-- An iteration fails in its source, for what the source is, or in its body. -/
theorem Block.failsInside_iteration {source : Program} {names : LoopNames} {body : Block}
    {c : Context} {e : TemplateError}
    (hbody : ∀ {c}, body.emit c = .error e → body.FailsInside c e)
    (h : (Block.iteration source names body).emit c = .error e) :
    (Block.iteration source names body).FailsInside c e := by
  rw [emit] at h
  rcases bind_eq_error.1 h with hsource | ⟨collection, hcollection, h⟩
  · exact failsInside_own (raises_of_emit rfl hsource)
  have hrun := Program.emit_eq_ok.1 hcollection
  have hother (harray : collection.kind ≠ .array) (hobject : collection.kind ≠ .object)
      (h : e = .notIterable source.source collection.kind) :
      (Block.iteration source names body).FailsInside c e := by
    rw [h]
    exact failsInside_own (.notIterable hrun harray hobject)
  cases collection with
  | array items =>
    rcases bind_eq_error.1 h with hpasses | ⟨values, -, h⟩
    · obtain ⟨inside, henters, hfails⟩ := Context.passes_eq_error.1 hpasses
      obtain ⟨a, d, hreaches, hraises⟩ := hbody hfails
      exact ⟨a, d, .element hrun henters hreaches, hraises⟩
    · cases h
  | object fields =>
    rcases bind_eq_error.1 h with hpasses | ⟨values, -, h⟩
    · obtain ⟨inside, henters, hfails⟩ := Context.passes_eq_error.1 hpasses
      obtain ⟨a, d, hreaches, hraises⟩ := hbody hfails
      exact ⟨a, d, .entry hrun henters hreaches, hraises⟩
    · cases h
  | _ =>
    cases h
    exact hother nofun nofun rfl

mutual

/-- A block that fails has the error of a block inside it that is reached. -/
theorem Block.failsInside_of_emit :
    ∀ (b : Block) {c : Context} {e : TemplateError}, b.emit c = .error e → b.FailsInside c e
  | .literal _, _, _, h => by
    rw [Block.emit] at h
    cases h
  | .expression program _, _, _, h => by
    rw [Block.emit] at h
    rcases bind_eq_error.1 h with hprogram | ⟨_, -, h⟩
    · exact failsInside_own (raises_of_emit rfl hprogram)
    · cases h
  | .interpolation template, _, _, h => by
    rw [Block.emit, TextTemplate.emit] at h
    rcases bind_eq_error.1 h with hprograms | ⟨_, -, h⟩
    · obtain ⟨before, p, after, hsplit, hbefore, hp⟩ :=
        TextTemplate.emitPrograms_eq_error.1 hprograms
      obtain ⟨cause, hcause, rfl⟩ := Program.emit_eq_error.1 hp
      exact failsInside_own (.evaluation hsplit hbefore hcause)
    · cases h
  | .sequence items, _, _, h => by
    rw [Block.emit] at h
    rcases bind_eq_error.1 h with hitems | ⟨_, -, h⟩
    · obtain ⟨before, b, after, values, rfl, hbefore, a, d, hreaches, hraises⟩ :=
        Node.failsInside_of_emitItems items hitems
      exact ⟨a, d, .item hbefore hreaches, hraises⟩
    · cases h
  | .mapping fields, _, _, h => by
    rw [Block.emit] at h
    rcases bind_eq_error.1 h with hfields | ⟨_, -, h⟩
    · obtain ⟨before, name, b, after, values, rfl, hbefore, a, d, hreaches, hraises⟩ :=
        Node.failsInside_of_emitFields fields hfields
      exact ⟨a, d, .field hbefore hreaches, hraises⟩
    · cases h
  | .conditional condition yes no, _, _, h => by
    rw [Block.emit] at h
    rcases bind_eq_error.1 h with hcondition | ⟨v, hv, h⟩
    · exact failsInside_own (raises_of_emit rfl hcondition)
    · have hrun := Program.emit_eq_ok.1 hv
      cases htruthy : v.truthy with
      | true =>
        rw [htruthy] at h
        obtain ⟨a, d, hreaches, hraises⟩ := Block.failsInside_of_emit yes h
        exact ⟨a, d, .yes hrun htruthy hreaches, hraises⟩
      | false =>
        rw [htruthy] at h
        obtain ⟨no, rfl, a, d, hreaches, hraises⟩ := Block.failsInside_of_emitBranch no h
        exact ⟨a, d, .no hrun htruthy hreaches, hraises⟩
  | .iteration _ _ body, _, _, h =>
    Block.failsInside_iteration (fun hfails => Block.failsInside_of_emit body hfails) h
  | .binding _ value body, _, _, h => by
    rw [Block.emit] at h
    rcases bind_eq_error.1 h with hvalue | ⟨v, hv, h⟩
    · exact failsInside_own (raises_of_emit rfl hvalue)
    · obtain ⟨a, d, hreaches, hraises⟩ := Block.failsInside_of_emit body h
      exact ⟨a, d, .bound (Program.emit_eq_ok.1 hv) hreaches, hraises⟩

theorem Block.failsInside_of_emitBranch : ∀ (no : Option Block) {c : Context} {e : TemplateError},
    Block.emitBranch c no = .error e → ∃ b, no = some b ∧ b.FailsInside c e
  | none, _, _, h => by
    rw [Block.emitBranch] at h
    cases h
  | some b, _, _, h => by
    rw [Block.emitBranch] at h
    exact ⟨b, rfl, Block.failsInside_of_emit b h⟩

theorem Node.failsInside_of_emit : ∀ (n : Node) {c : Context} {e : TemplateError},
    n.emit c = .error e → ∃ b, n = .block b ∧ b.FailsInside c e
  | .static _, _, _, h => by
    rw [Node.emit] at h
    cases h
  | .block b, _, _, h => by
    rw [Node.emit] at h
    exact ⟨b, rfl, Block.failsInside_of_emit b h⟩

/-- The items before the one that fails have values. -/
theorem Node.failsInside_of_emitItems : ∀ (items : List Node) {c : Context} {e : TemplateError},
    Node.emitItems c items = .error e → ∃ before b after values,
      items = before ++ .block b :: after ∧ Node.emitItems c before = .ok values ∧
        b.FailsInside c e
  | [], _, _, h => by
    rw [Node.emitItems] at h
    cases h
  | n :: rest, _, _, h => by
    rw [Node.emitItems] at h
    rcases bind_eq_error.1 h with hn | ⟨v, hv, h⟩
    · obtain ⟨b, rfl, hfails⟩ := Node.failsInside_of_emit n hn
      exact ⟨[], b, rest, [], rfl, by rw [Node.emitItems], hfails⟩
    rcases bind_eq_error.1 h with hrest | ⟨_, -, h⟩
    · obtain ⟨before, b, after, values, rfl, hbefore, hfails⟩ :=
        Node.failsInside_of_emitItems rest hrest
      refine ⟨n :: before, b, after, v :: values, rfl, ?_, hfails⟩
      rw [Node.emitItems, hv, hbefore]
      rfl
    · cases h

theorem Node.failsInside_of_emitFields : ∀ (fields : List (String × Node)) {c : Context}
    {e : TemplateError}, Node.emitFields c fields = .error e → ∃ before name b after values,
      fields = before ++ (name, .block b) :: after ∧ Node.emitFields c before = .ok values ∧
        b.FailsInside c e
  | [], _, _, h => by
    rw [Node.emitFields] at h
    cases h
  | (first, n) :: rest, _, _, h => by
    rw [Node.emitFields] at h
    rcases bind_eq_error.1 h with hn | ⟨v, hv, h⟩
    · obtain ⟨b, rfl, hfails⟩ := Node.failsInside_of_emit n hn
      exact ⟨[], first, b, rest, [], rfl, by rw [Node.emitFields], hfails⟩
    rcases bind_eq_error.1 h with hrest | ⟨_, -, h⟩
    · obtain ⟨before, name, b, after, values, rfl, hbefore, hfails⟩ :=
        Node.failsInside_of_emitFields rest hrest
      refine ⟨(first, n) :: before, name, b, after, (first, v) :: values, rfl, ?_, hfails⟩
      rw [Node.emitFields, hv, hbefore]
      rfl
    · cases h

end

/-! ### Errors of blocks that are reached -/

theorem Node.emitItems_eq_error {before after : List Node} {b : Block} {c : Context}
    {values : List Value} {e : TemplateError} (hbefore : emitItems c before = .ok values)
    (hb : b.emit c = .error e) : emitItems c (before ++ .block b :: after) = .error e := by
  induction before generalizing values with
  | nil =>
    rw [List.nil_append, emitItems, emit, hb]
    rfl
  | cons n before ih =>
    rw [emitItems] at hbefore
    obtain ⟨v, hv, h⟩ := bind_eq_ok.1 hbefore
    obtain ⟨others, hothers, -⟩ := bind_eq_ok.1 h
    rw [List.cons_append, emitItems, hv, ih hothers]
    rfl

theorem Node.emitFields_eq_error {before after : List (String × Node)} {name : String} {b : Block}
    {c : Context} {values : List (String × Value)} {e : TemplateError}
    (hbefore : emitFields c before = .ok values) (hb : b.emit c = .error e) :
    emitFields c (before ++ (name, .block b) :: after) = .error e := by
  induction before generalizing values with
  | nil =>
    rw [List.nil_append, emitFields, emit, hb]
    rfl
  | cons field before ih =>
    obtain ⟨other, n⟩ := field
    rw [emitFields] at hbefore
    obtain ⟨v, hv, h⟩ := bind_eq_ok.1 hbefore
    obtain ⟨others, hothers, -⟩ := bind_eq_ok.1 h
    rw [List.cons_append, emitFields, hv, ih hothers]
    rfl

namespace Block

variable {b a : Block} {c d : Context} {e : TemplateError}

theorem Raises.emit_eq_error (h : b.Raises c e) : b.emit c = .error e := by
  cases h with
  | @evaluation _ _ before after p cause hprograms hbefore hrun =>
    have hmem : p ∈ b.programs := by
      rw [hprograms]
      exact List.mem_append_right before List.mem_cons_self
    have hp : p.emit c = .error (.evaluation p.source cause) :=
      Program.emit_eq_error.2 ⟨cause, hrun, rfl⟩
    cases b with
    | literal | sequence | mapping => cases hmem
    | interpolation t =>
      have hall := TextTemplate.emitPrograms_eq_error.2 ⟨before, p, after, hprograms, hbefore, hp⟩
      rw [emit, TextTemplate.emit, hall]
      rfl
    | expression | conditional | iteration | binding =>
      cases List.mem_singleton.1 hmem
      rw [emit, hp]
      rfl
  | @notIterable source _ _ _ v hrun harray hobject =>
    rw [emit, Program.emit_eq_ok.2 hrun]
    cases v with
    | array => exact absurd rfl harray
    | object => exact absurd rfl hobject
    | _ => rfl

/-- The error of a block that is reached is that of the whole. -/
theorem Reaches.emit_eq_error (h : b.Reaches c a d) (ha : a.emit d = .error e) :
    b.emit c = .error e := by
  induction h with
  | here => exact ha
  | item hbefore _ ih =>
    rw [emit, Node.emitItems_eq_error hbefore (ih ha)]
    rfl
  | field hbefore _ ih =>
    rw [emit, Node.emitFields_eq_error hbefore (ih ha)]
    rfl
  | yes hrun htruthy _ ih =>
    rw [emit, Program.emit_eq_ok.2 hrun]
    change (if _ then _ else _) = _
    rw [if_pos htruthy]
    exact ih ha
  | no hrun htruthy _ ih =>
    rw [emit, Program.emit_eq_ok.2 hrun]
    change (if _ then _ else _) = _
    rw [htruthy, emitBranch]
    exact ih ha
  | element hrun henters _ ih =>
    have hpasses := Context.passes_eq_error.2 ⟨_, henters, ih ha⟩
    rw [emit]
    exact bind_eq_error.2 (.inr ⟨_, Program.emit_eq_ok.2 hrun, bind_eq_error.2 (.inl hpasses)⟩)
  | entry hrun henters _ ih =>
    have hpasses := Context.passes_eq_error.2 ⟨_, henters, ih ha⟩
    rw [emit]
    exact bind_eq_error.2 (.inr ⟨_, Program.emit_eq_ok.2 hrun, bind_eq_error.2 (.inl hpasses)⟩)
  | bound hrun _ ih =>
    rw [emit, Program.emit_eq_ok.2 hrun]
    exact ih ha

/-- A block fails exactly with the errors of blocks that are reached. -/
theorem emit_eq_error : b.emit c = .error e ↔ b.FailsInside c e := by
  constructor
  · exact b.failsInside_of_emit
  · rintro ⟨a, d, hreaches, hraises⟩
    exact hreaches.emit_eq_error hraises.emit_eq_error

end Block

/-! ### Where blocks that are reached stand -/

theorem Node.mem_insideItems {items : List Node} {n : Node} {a : Block} (hn : n ∈ items)
    (ha : a ∈ n.inside) : a ∈ insideItems items := by
  induction items with
  | nil => cases hn
  | cons first rest ih =>
    rw [insideItems, List.mem_append]
    rcases List.mem_cons.1 hn with rfl | hn
    · exact .inl ha
    · exact .inr (ih hn)

theorem Node.mem_insideFields {fields : List (String × Node)} {f : String × Node} {a : Block}
    (hf : f ∈ fields) (ha : a ∈ f.2.inside) : a ∈ insideFields fields := by
  induction fields with
  | nil => cases hf
  | cons first rest ih =>
    rw [insideFields, List.mem_append]
    rcases List.mem_cons.1 hf with rfl | hf
    · exact .inl ha
    · exact .inr (ih hf)

namespace Block

variable {b a : Block} {c d : Context} {e : TemplateError}

theorem mem_inside (b : Block) : b ∈ b.inside := by
  cases b <;> exact List.mem_cons_self

theorem Reaches.mem_inside (h : b.Reaches c a d) : a ∈ b.inside := by
  induction h with
  | here b _ => exact b.mem_inside
  | item _ _ ih =>
    refine List.mem_cons_of_mem _ (Node.mem_insideItems (n := .block _) ?_ ih)
    exact List.mem_append_right _ List.mem_cons_self
  | @field _ _ name b _ _ _ _ _ _ ih =>
    refine List.mem_cons_of_mem _ (Node.mem_insideFields (f := (name, .block b)) ?_ ih)
    exact List.mem_append_right _ List.mem_cons_self
  | yes _ _ _ ih => exact List.mem_cons_of_mem _ (List.mem_append_left _ ih)
  | no _ _ _ ih => exact List.mem_cons_of_mem _ (List.mem_append_right _ ih)
  | element _ _ _ ih | entry _ _ _ ih | bound _ _ ih => exact List.mem_cons_of_mem _ ih

end Block

theorem Control.key_mem (control : Control) : control.key ∈ ["$if", "$iterate", "$with"] := by
  cases control <;> decide

/-- A text that does not compile has a diagnostic that is listed. -/
theorem Program.listed_ne_nil {o : Options} {source : String} {report : Report}
    (h : compile o source = .error report) : report.listed ≠ [] := by
  obtain ⟨herrors, ds, rfl⟩ := exists_of_compile_eq_error h
  have hne := Report.hasErrors_ofList.1 herrors
  rw [Report.ofList_eq]
  simpa [Report.capacity] using hne

/-- Building fails with errors of construction, and filling in a template, however it was made,
fails with other errors. A document is refused for an expression that does not compile, with at
least one diagnostic, or for a control whose key is in it. A template fails for a program in it that
has no value in the context that its block is reached in, or for an iteration in it whose source has
a value there that is neither an array nor an object. -/
theorem Template.errors_apart :
    (∀ (o : Options) (v : Value) (e : TemplateError), build o v = .error e →
      e.isConstruction ∧
        ((∃ source report, e = .compile source report ∧
            Program.compile o source = .error report ∧ report.listed ≠ []) ∨
          ∃ control fault, e = .malformed control fault ∧
            control.key ∈ ["$if", "$iterate", "$with"] ∧ v.Mentions control.key)) ∧
    ∀ (t : Template) (c : Context) (e : TemplateError), t.process c = .error e →
      ¬e.isConstruction ∧ ∃ b ∈ t.root.inside, ∃ d, t.root.Reaches c b d ∧
        ((∃ p ∈ b.programs, ∃ cause, p.run d.vars = .error cause ∧
            e = .evaluation p.source cause) ∨
          ∃ source names body w, b = .iteration source names body ∧ source.run d.vars = .ok w ∧
            w.kind ≠ .array ∧ w.kind ≠ .object ∧ e = .notIterable source.source w.kind) := by
  constructor
  · intro o v e h
    have hnode : Node.build o v = .error e := by
      rcases bind_eq_error.1 h with hnode | ⟨n, -, h⟩
      · exact hnode
      · cases h
    cases Node.refusedFor_build v e hnode with
    | compile hcompile =>
      exact ⟨rfl, .inl ⟨_, _, rfl, hcompile, Program.listed_ne_nil hcompile⟩⟩
    | malformed fault hmentions =>
      exact ⟨rfl, .inr ⟨_, fault, rfl, Control.key_mem _, hmentions⟩⟩
  · intro t c e h
    obtain ⟨b, d, hreaches, hraises⟩ := Block.emit_eq_error.1 h
    cases hraises with
    | @evaluation _ _ before after p cause hprograms _ hrun =>
      have hp : p ∈ b.programs := by
        rw [hprograms]
        exact List.mem_append_right before List.mem_cons_self
      exact ⟨nofun, b, hreaches.mem_inside, d, hreaches, .inl ⟨p, hp, cause, hrun, rfl⟩⟩
    | notIterable hrun harray hobject =>
      exact ⟨nofun, _, hreaches.mem_inside, d, hreaches,
        .inr ⟨_, _, _, _, rfl, hrun, harray, hobject, rfl⟩⟩

/-- A binding without a text, and an iteration over nil. -/
theorem Template.errors_apart_binding :
    ∃ source e e', build .empty (.object [("$with", .null)]) = .error e ∧ e.isConstruction ∧
      Program.compile .empty "nil" = .ok source ∧
      process ⟨.iteration source .standard (.literal .null)⟩ .empty = .error e' ∧
      ¬e'.isConstruction := by
  have hform : Form.ofFields [("$with", .null)] =
      .error (.malformed .binding (.markerKind .nil)) := rfl
  have hbuild : build .empty (.object [("$with", .null)]) =
      .error (.malformed .binding (.markerKind .nil)) :=
    bind_eq_error.2 (.inl (Node.build_of_formError hform))
  have hnil : (Program.compile .empty "nil").toOption.map
      (fun p => (p.run []).toOption.map Value.kind) = some (some .nil) := by
    decide +kernel
  cases hsource : Program.compile .empty "nil" with
  | error report =>
    rw [hsource] at hnil
    cases hnil
  | ok source =>
    rw [hsource] at hnil
    cases hrun : source.run [] with
    | error cause => simp [hrun, Except.toOption] at hnil
    | ok v =>
      have hkind : v.kind = .nil := by simpa [hrun, Except.toOption] using hnil
      have hraises : (Block.iteration source .standard (.literal .null)).Raises .empty
          (.notIterable source.source v.kind) :=
        .notIterable hrun (by rw [hkind]; nofun) (by rw [hkind]; nofun)
      exact ⟨source, _, _, hbuild, (errors_apart.1 _ _ _ hbuild).1, rfl,
        hraises.emit_eq_error, (errors_apart.2 _ _ _ hraises.emit_eq_error).1⟩

end JsonTemplate
