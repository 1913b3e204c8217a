import JsonTemplate.Expr.Program

/-! The names that expressions look up. The value of an expression depends on the values of these
names only. -/

namespace JsonTemplate

/-- Each of the names has the same entry in both, or an entry in neither. -/
def Fields.AgreeOn {α : Type} (names : List String) (a b : Fields α) : Prop :=
  ∀ name ∈ names, a.get? name = b.get? name

theorem Fields.agreeOn_append {α : Type} {names more : List String} {a b : Fields α} :
    AgreeOn (names ++ more) a b ↔ AgreeOn names a b ∧ AgreeOn more a b :=
  List.forall_mem_append

namespace Expr

/-- The name that a node looks up, not counting the nodes inside it. -/
def lookedUp? : Expr → Option String
  | .identifier _ name => some name
  | _ => none

/-- The names that the nodes look up. -/
def namesIn (nodes : List Expr) : List String := nodes.filterMap lookedUp?

/-- The names of all identifiers inside an expression. -/
def identifiers (e : Expr) : List String := namesIn e.subterms

section
variable {a b : Fields Value}

theorem agreeOn_namesIn_append {nodes more : List Expr} :
    Fields.AgreeOn (namesIn (nodes ++ more)) a b ↔
      Fields.AgreeOn (namesIn nodes) a b ∧ Fields.AgreeOn (namesIn more) a b := by
  rw [namesIn, List.filterMap_append, Fields.agreeOn_append]
  rfl

variable (o : Options)

theorem get?_scope_congr {name : String} (h : a.get? name = b.get? name) :
    Scope.get? ⟨a, o.globals⟩ name = Scope.get? ⟨b, o.globals⟩ name := by
  rw [Scope.get?, Scope.get?, h]

mutual

/-- Two contexts that agree on the identifiers of an expression give it the same value. -/
theorem eval_congr :
    ∀ e : Expr, Fields.AgreeOn (namesIn e.subterms) a b → e.eval o a = e.eval o b
  | .int .. | .float .. | .string .. | .bool .. | .nil _ => fun _ => by
    simp only [eval]
  | .identifier _ name => fun h => by
    simp only [eval, get?_scope_congr o (h name List.mem_cons_self)]
  | .array _ items => fun h => by
    simp only [eval, evalItems_congr items h]
  | .map _ entries => fun h => by
    simp only [eval, evalEntries_congr entries h]
  | .member _ object _ => fun h => by
    simp only [eval, eval_congr object h]
  | .index _ object place => fun h => by
    obtain ⟨hobject, hplace⟩ := agreeOn_namesIn_append.1 h
    simp only [eval, eval_congr object hobject, eval_congr place hplace]
  | .call _ _ arguments => fun h => by
    simp only [eval, evalItems_congr arguments h]
  | .unary _ _ operand => fun h => by
    simp only [eval, eval_congr operand h]
  | .binary _ _ left right => fun h => by
    obtain ⟨hleft, hright⟩ := agreeOn_namesIn_append.1 h
    simp only [eval, eval_congr left hleft, eval_congr right hright]
  | .lazy _ _ left right => fun h => by
    obtain ⟨hleft, hright⟩ := agreeOn_namesIn_append.1 h
    simp only [eval, eval_congr left hleft, eval_congr right hright]
  | .conditional _ condition yes no => fun h => by
    obtain ⟨hbranches, hno⟩ := agreeOn_namesIn_append.1 h
    obtain ⟨hcondition, hyes⟩ := agreeOn_namesIn_append.1 hbranches
    simp only [eval, eval_congr condition hcondition, eval_congr yes hyes, eval_congr no hno]
  | .paren _ inner => fun h => by
    simp only [eval, eval_congr inner h]

theorem evalItems_congr : ∀ items : List Expr,
    Fields.AgreeOn (namesIn (subtermsOfItems items)) a b → evalItems o a items = evalItems o b items
  | [] => fun _ => rfl
  | e :: rest => fun h => by
    obtain ⟨he, hrest⟩ := agreeOn_namesIn_append.1 h
    simp only [evalItems, eval_congr e he, evalItems_congr rest hrest]

theorem evalEntries_congr : ∀ entries : List (String × Expr),
    Fields.AgreeOn (namesIn (subtermsOfEntries entries)) a b →
      evalEntries o a entries = evalEntries o b entries
  | [] => fun _ => rfl
  | (name, e) :: rest => fun h => by
    obtain ⟨he, hrest⟩ := agreeOn_namesIn_append.1 h
    simp only [evalEntries, eval_congr e he, evalEntries_congr rest hrest]

end

end

end Expr

/-- A program gives the same in two contexts that agree on its identifiers. -/
theorem Program.run_congr {p : Program} {a b : Fields Value}
    (h : Fields.AgreeOn p.expr.identifiers a b) : p.run a = p.run b :=
  Expr.eval_congr p.options p.expr h

end JsonTemplate
