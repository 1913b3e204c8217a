import JsonTemplate.Proofs.Evaluation.Names
import JsonTemplate.Template.Basic

/-! Scopes. A block looks up its free names only: names that a binding or an iteration sets are
free outside it no longer, and no pass of an iteration finds what another pass has set. The key of
an entry is set over objects only, so over arrays it is looked up outside. -/

namespace JsonTemplate

/-! ### Free names -/

def Program.identifiers (p : Program) : List String := p.expr.identifiers

def TextTemplate.identifiers (t : TextTemplate) : List String :=
  t.programs.flatMap fun entry => entry.2.identifiers

mutual

def Node.freeNames : Node → List String
  | .static _ => []
  | .block b => b.freeNames

/-- The names that a block looks up in its context. -/
def Block.freeNames : Block → List String
  | .literal _ => []
  | .expression program _ => program.identifiers
  | .interpolation template => template.identifiers
  | .sequence items => Node.freeNamesOfItems items
  | .mapping fields => Node.freeNamesOfFields fields
  | .conditional condition yes no =>
    condition.identifiers ++ (yes.freeNames ++ Block.freeNamesOfBranch no)
  | .iteration source names body =>
    source.identifiers ++ body.freeNames.filter (· ∉ [names.index, names.item])
  | .binding name value body => value.identifiers ++ body.freeNames.filter (· ≠ name)

def Block.freeNamesOfBranch : Option Block → List String
  | none => []
  | some b => b.freeNames

def Node.freeNamesOfItems : List Node → List String
  | [] => []
  | n :: rest => n.freeNames ++ Node.freeNamesOfItems rest

def Node.freeNamesOfFields : List (String × Node) → List String
  | [] => []
  | (_, n) :: rest => n.freeNames ++ Node.freeNamesOfFields rest

end

namespace Context

/-- The contexts give each of the names the same value, or both give it none. -/
def AgreeOn (names : List String) (c c' : Context) : Prop :=
  ∀ name ∈ names, c.get? name = c'.get? name

theorem agreeOn_append {names more : List String} {c c' : Context} :
    AgreeOn (names ++ more) c c' ↔ AgreeOn names c c' ∧ AgreeOn more c c' :=
  List.forall_mem_append

/-! ### Passes of an iteration -/

/-- Entering a pass sets the names, to values that do not depend on the context before, and no
other name. -/
structure Sets {α : Type} (enter : Context → Nat → α → Context) (names : List String) :
    Prop where
  inside : ∀ {name}, name ∈ names → ∀ c c' index member,
    (enter c index member).get? name = (enter c' index member).get? name
  outside : ∀ {name}, name ∉ names → ∀ c index member,
    (enter c index member).get? name = c.get? name

theorem sets_bindItem (names : LoopNames) :
    Sets (·.bindItem names) [names.index, names.item] := by
  constructor
  · intro name hname c c' index item
    simp only [bindItem, get?_bind]
    by_cases hitem : name = names.item
    · simp only [if_pos hitem]
    · have hindex : name = names.index := by simpa [hitem] using hname
      simp only [if_neg hitem, if_pos hindex]
  · intro name hname c index item
    simp only [List.mem_cons, List.not_mem_nil, or_false, not_or] at hname
    simp only [bindItem, get?_bind, if_neg hname.1, if_neg hname.2]

theorem sets_bindEntry (names : LoopNames) :
    Sets (·.bindEntry names) [names.index, names.item, names.key] := by
  constructor
  · intro name hname c c' index entry
    simp only [bindEntry, get?_bind]
    by_cases hindex : name = names.index
    · simp only [if_pos hindex]
    by_cases hitem : name = names.item
    · simp only [if_neg hindex, if_pos hitem]
    · have hkey : name = names.key := by simpa [hindex, hitem] using hname
      simp only [if_neg hindex, if_neg hitem, if_pos hkey]
  · intro name hname c index entry
    simp only [List.mem_cons, List.not_mem_nil, or_false, not_or] at hname
    simp only [bindEntry, get?_bind, if_neg hname.1, if_neg hname.2.1, if_neg hname.2.2]

section Passes
variable {α : Type} {enter : Context → Nat → α → Context} {body : Context → TemplateResult Value}
  {names free : List String}

/-- Contexts that agree outside the names of a pass agree inside the pass. -/
theorem Sets.agree (henter : Sets enter names) {c c' : Context}
    (h : ∀ name ∈ free, name ∉ names → c.get? name = c'.get? name) (index : Nat) (member : α) :
    AgreeOn free (enter c index member) (enter c' index member) := by
  intro name hfree
  by_cases hname : name ∈ names
  · exact henter.inside hname c c' index member
  · rw [henter.outside hname, henter.outside hname]
    exact h name hfree hname

/-- Passes do not find what the passes before them have set: each could as well start from a
context of its own. The induction is on the passes that are left, and `scope` is what those before
have made of `c`. -/
theorem passes_eq_mapM (henter : Sets enter names)
    (hbody : ∀ {c c'}, AgreeOn free c c' → body c = body c') {c scope : Context}
    (hscope : ∀ name ∈ free, name ∉ names → scope.get? name = c.get? name)
    (members : List (α × Nat)) :
    passes enter body scope members =
      members.mapM fun (member, index) => body (enter c index member) := by
  induction members generalizing scope with
  | nil => rfl
  | cons first rest ih =>
    obtain ⟨member, index⟩ := first
    have hfirst : body (enter scope index member) = body (enter c index member) :=
      hbody (henter.agree hscope index member)
    have hrest : passes enter body (enter scope index member) rest = _ :=
      ih fun name hfree hname => by
        rw [henter.outside hname]
        exact hscope name hfree hname
    rw [passes, List.mapM_cons, hfirst, hrest]

theorem passes_congr (henter : Sets enter names)
    (hbody : ∀ {c c'}, AgreeOn free c c' → body c = body c') {c c' : Context}
    (h : ∀ name ∈ free, name ∉ names → c.get? name = c'.get? name) (members : List (α × Nat)) :
    passes enter body c members = passes enter body c' members := by
  rw [passes_eq_mapM henter hbody h members,
    passes_eq_mapM henter hbody (fun _ _ _ => rfl) members]

end Passes

end Context

open Context (AgreeOn agreeOn_append passes passes_congr sets_bindItem sets_bindEntry)

/-! ### What a block depends on -/

section
variable {c c' : Context}

theorem Program.emit_congr {p : Program} (h : AgreeOn p.identifiers c c') :
    p.emit c = p.emit c' := by
  rw [emit, emit, run_congr h]

theorem TextTemplate.emitPrograms_congr {programs : Fields Program}
    (h : AgreeOn (programs.flatMap fun entry => entry.2.identifiers) c c') :
    emitPrograms c programs = emitPrograms c' programs := by
  induction programs with
  | nil => rfl
  | cons entry rest ih =>
    obtain ⟨hentry, hrest⟩ := agreeOn_append.1 h
    rw [emitPrograms, emitPrograms, Program.emit_congr hentry, ih hrest]

/-- Over arrays and over objects alike, the body sees the same in all passes. -/
theorem Block.emit_iteration_congr {source : Program} {names : LoopNames} {body : Block}
    (hbody : ∀ {c c'}, AgreeOn body.freeNames c c' → body.emit c = body.emit c')
    (h : AgreeOn (Block.iteration source names body).freeNames c c') :
    (Block.iteration source names body).emit c = (Block.iteration source names body).emit c' := by
  rw [freeNames, agreeOn_append] at h
  obtain ⟨hsource, hfree⟩ := h
  have hitem : ∀ name ∈ body.freeNames, name ∉ [names.index, names.item] →
      c.get? name = c'.get? name :=
    fun name hname hset => hfree name (List.mem_filter.2 ⟨hname, by simpa using hset⟩)
  have hentry : ∀ name ∈ body.freeNames, name ∉ [names.index, names.item, names.key] →
      c.get? name = c'.get? name :=
    fun name hname hset => hitem name hname fun hin =>
      hset (List.mem_append_left [names.key] hin)
  rw [emit, emit, Program.emit_congr hsource]
  congr 1
  funext collection
  cases collection with
  | array items => simp only [passes_congr (sets_bindItem names) hbody hitem]
  | object fields => simp only [passes_congr (sets_bindEntry names) hbody hentry]
  | _ => rfl

mutual

theorem Node.emit_congr :
    ∀ (n : Node) {c c' : Context}, AgreeOn n.freeNames c c' → n.emit c = n.emit c'
  | .static _, _, _, _ => by simp only [Node.emit]
  | .block b, _, _, h => by
    simp only [Node.emit]
    exact Block.emit_congr b h

/-- Two contexts that agree on the free names of a block give it the same value or the same
error. -/
theorem Block.emit_congr :
    ∀ (b : Block) {c c' : Context}, AgreeOn b.freeNames c c' → b.emit c = b.emit c'
  | .literal _, _, _, _ => by simp only [Block.emit]
  | .expression _ _, _, _, h => by
    simp only [Block.emit, Program.emit_congr h]
  | .interpolation _, _, _, h => by
    simp only [Block.emit, TextTemplate.emit, TextTemplate.emitPrograms_congr h]
  | .sequence items, _, _, h => by
    simp only [Block.emit, Node.emitItems_congr items h]
  | .mapping fields, _, _, h => by
    simp only [Block.emit, Node.emitFields_congr fields h]
  | .conditional _ yes no, _, _, h => by
    obtain ⟨hcondition, hbranches⟩ := agreeOn_append.1 h
    obtain ⟨hyes, hno⟩ := agreeOn_append.1 hbranches
    simp only [Block.emit, Program.emit_congr hcondition, Block.emit_congr yes hyes,
      Block.emitBranch_congr no hno]
  | .iteration _ _ body, _, _, h =>
    Block.emit_iteration_congr (fun hbody => Block.emit_congr body hbody) h
  | .binding name _ body, _, _, h => by
    obtain ⟨hvalue, hfree⟩ := agreeOn_append.1 h
    simp only [Block.emit, Program.emit_congr hvalue]
    congr 1
    funext v
    apply Block.emit_congr body
    intro other hother
    rw [Context.get?_bind, Context.get?_bind]
    split
    · rfl
    · next hne => exact hfree other (List.mem_filter.2 ⟨hother, by simpa using hne⟩)

theorem Block.emitBranch_congr : ∀ (no : Option Block) {c c' : Context},
    AgreeOn (Block.freeNamesOfBranch no) c c' → Block.emitBranch c no = Block.emitBranch c' no
  | none, _, _, _ => by simp only [Block.emitBranch]
  | some b, _, _, h => by
    simp only [Block.emitBranch]
    exact Block.emit_congr b h

theorem Node.emitItems_congr : ∀ (items : List Node) {c c' : Context},
    AgreeOn (Node.freeNamesOfItems items) c c' → Node.emitItems c items = Node.emitItems c' items
  | [], _, _, _ => by simp only [Node.emitItems]
  | n :: rest, _, _, h => by
    obtain ⟨hn, hrest⟩ := agreeOn_append.1 h
    simp only [Node.emitItems, Node.emit_congr n hn, Node.emitItems_congr rest hrest]

theorem Node.emitFields_congr : ∀ (fields : List (String × Node)) {c c' : Context},
    AgreeOn (Node.freeNamesOfFields fields) c c' →
      Node.emitFields c fields = Node.emitFields c' fields
  | [], _, _, _ => by simp only [Node.emitFields]
  | (_, n) :: rest, _, _, h => by
    obtain ⟨hn, hrest⟩ := agreeOn_append.1 h
    simp only [Node.emitFields, Node.emit_congr n hn, Node.emitFields_congr rest hrest]

end

end

/-- A block gives the same value or the same error in all contexts that give its free names the
same values. -/
theorem Block.emit_eq_of_freeNames {b : Block} {c c' : Context}
    (h : ∀ name ∈ b.freeNames, c.get? name = c'.get? name) : b.emit c = b.emit c' :=
  emit_congr b h

/-- The contexts differ in the names of a loop, which are not free outside it. -/
theorem Block.emit_eq_of_freeNames_loop :
    ∃ source sum, Program.compile .empty "xs" = .ok source ∧
      Program.compile .empty "item + n" = .ok sum ∧
      (Block.iteration source .standard (.expression sum false)).emit
          ⟨[("item", .int 1), ("n", .int 2), ("xs", .array [.int 3])]⟩ =
        (Block.iteration source .standard (.expression sum false)).emit
          ⟨[("index", .null), ("n", .int 2), ("xs", .array [.int 3])]⟩ := by
  have hcompiles {text : String} {names : List String}
      (h : (Program.compile .empty text).toOption.map Program.identifiers = some names) :
      ∃ p, Program.compile .empty text = .ok p ∧ p.identifiers = names := by
    cases hp : Program.compile .empty text with
    | ok p => exact ⟨p, rfl, by simpa [hp, Except.toOption] using h⟩
    | error report => simp [hp, Except.toOption] at h
  have hxs : (Program.compile .empty "xs").toOption.map Program.identifiers = some ["xs"] := by
    decide +kernel
  have hsum : (Program.compile .empty "item + n").toOption.map Program.identifiers =
      some ["item", "n"] := by
    decide +kernel
  obtain ⟨source, hsource, hxs⟩ := hcompiles hxs
  obtain ⟨sum, hcompiled, hsum⟩ := hcompiles hsum
  refine ⟨source, sum, hsource, hcompiled, emit_eq_of_freeNames fun name hname => ?_⟩
  simp only [freeNames, hxs, hsum] at hname
  have hname : name = "xs" ∨ name = "n" := by simpa [LoopNames.standard] using hname
  rcases hname with rfl | rfl <;> rfl

/-! ### Bindings that do not depend on each other -/

section
variable {x y name : String} {a b p : Program} {c : Context} {v w : Value}

/-- A name that a program does not look up may be bound to anything. -/
theorem Program.emit_bind (h : name ∉ p.identifiers) (v : Value) :
    p.emit (c.bind name v) = p.emit c := by
  refine emit_congr fun other hother => ?_
  rw [Context.get?_bind, if_neg (ne_of_mem_of_not_mem hother h)]

theorem Program.emit_of_run (h : p.run c.vars = .ok v) : p.emit c = .ok v := by
  rw [emit, h]

theorem Block.emit_binding (h : p.emit c = .ok v) (body : Block) :
    (Block.binding name p body).emit c = body.emit (c.bind name v) := by
  rw [emit, h]
  rfl

/-- The order in which two names are bound is no part of the context. -/
theorem Context.get?_bind_comm (hne : x ≠ y) (c : Context) (v w : Value) (other : String) :
    ((c.bind x v).bind y w).get? other = ((c.bind y w).bind x v).get? other := by
  simp only [get?_bind]
  split
  · next hy => rw [if_neg (hy ▸ hne.symm)]
  · rfl

/-- Two bindings that do not look up each other's names can be exchanged, around any block. -/
theorem Block.emit_binding_comm (hne : x ≠ y) (ha : y ∉ a.identifiers) (hb : x ∉ b.identifiers)
    (hv : a.run c.vars = .ok v) (hw : b.run c.vars = .ok w) (body : Block) :
    (Block.binding x a (.binding y b body)).emit c =
      (Block.binding y b (.binding x a body)).emit c := by
  have hv := Program.emit_of_run hv
  have hw := Program.emit_of_run hw
  have hwInside : b.emit (c.bind x v) = .ok w := (Program.emit_bind hb v).trans hw
  have hvInside : a.emit (c.bind y w) = .ok v := (Program.emit_bind ha w).trans hv
  calc (Block.binding x a (.binding y b body)).emit c
      = body.emit ((c.bind x v).bind y w) := by
        rw [emit_binding hv, emit_binding hwInside]
    _ = body.emit ((c.bind y w).bind x v) :=
        emit_congr body fun other _ => Context.get?_bind_comm hne c v w other
    _ = (Block.binding y b (.binding x a body)).emit c := by
        rw [emit_binding hw, emit_binding hvInside]

end

/-- A sum and a product of the same variable, under names of their own. -/
theorem Block.emit_binding_comm_sum :
    ∃ sum product both, Program.compile .empty "n + 1" = .ok sum ∧
      Program.compile .empty "n * 2" = .ok product ∧ Program.compile .empty "[x, y]" = .ok both ∧
      (Block.binding "x" sum (.binding "y" product (.expression both false))).emit
          ⟨[("n", .int 3)]⟩ =
        (Block.binding "y" product (.binding "x" sum (.expression both false))).emit
          ⟨[("n", .int 3)]⟩ := by
  have hcompiles (text : String)
      (h : (Program.compile .empty text).toOption.map (fun p =>
        (p.identifiers, (p.run [("n", .int 3)]).toBool)) = some (["n"], true)) :
      ∃ p v, Program.compile .empty text = .ok p ∧ p.identifiers = ["n"] ∧
        p.run [("n", .int 3)] = .ok v := by
    cases hp : Program.compile .empty text with
    | error report => simp [hp, Except.toOption] at h
    | ok p =>
      simp only [hp, Except.toOption, Option.map_some, Option.some.injEq, Prod.mk.injEq] at h
      cases hrun : p.run [("n", .int 3)] with
      | error e => simp [hrun, Except.toBool] at h
      | ok v => exact ⟨p, v, rfl, h.1, hrun⟩
  have hboth : (Program.compile .empty "[x, y]").toBool := by decide +kernel
  obtain ⟨sum, v, hsum, hsumNames, hv⟩ := hcompiles "n + 1" (by decide +kernel)
  obtain ⟨product, w, hproduct, hproductNames, hw⟩ := hcompiles "n * 2" (by decide +kernel)
  cases hcompiled : Program.compile .empty "[x, y]" with
  | error report => simp [hcompiled, Except.toBool] at hboth
  | ok both =>
    exact ⟨sum, product, both, hsum, hproduct, rfl,
      emit_binding_comm (by decide) (by rw [hsumNames]; decide) (by rw [hproductNames]; decide)
        hv hw _⟩

end JsonTemplate
