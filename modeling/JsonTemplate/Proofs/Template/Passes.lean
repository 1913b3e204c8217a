import JsonTemplate.Proofs.Fields
import JsonTemplate.Proofs.Template.Failures
import JsonTemplate.Proofs.Template.Scoping

/-! The passes of an iteration, each on its own. One scope serves them all, and still every pass
gives what it gives in the context of the iteration with its own names bound in it. So an iteration
is a row of trials that do not know of each other, and iterating over an object differs from
iterating over its values by the key only. -/

namespace JsonTemplate

/-! ### Trials -/

section Trials
variable {α β : Type} {n : Nat}

/-- What trials that are made in turn come to: the values of all of them, collected, or else the
error of the first one that fails. -/
structure InTurn (trial : Fin n → TemplateResult α) (collect : List α → β)
    (r : TemplateResult β) : Prop where
  isOk : (∃ b, r = .ok b) ↔ ∀ i, ∃ a, trial i = .ok a
  value : ∀ values, (∀ i, trial i = .ok (values i)) → r = .ok (collect (List.ofFn values))
  error : ∀ e, r = .error e ↔ ∃ i, trial i = .error e ∧ ∀ j < i, ∃ a, trial j = .ok a

theorem mapM_ofFn_eq_ok {trial : Fin n → TemplateResult α} {values : Fin n → α}
    (h : ∀ i, trial i = .ok (values i)) :
    (List.ofFn trial).mapM id = .ok (List.ofFn values) := by
  induction n with
  | zero => rfl
  | succ n ih =>
    rw [List.ofFn_succ, List.ofFn_succ, List.mapM_cons]
    exact bind_eq_ok.2 ⟨_, h 0, bind_eq_ok.2 ⟨_, ih fun i => h i.succ, rfl⟩⟩

theorem mapM_ofFn_eq_error {trial : Fin n → TemplateResult α} {e : TemplateError} :
    (List.ofFn trial).mapM id = .error e ↔
      ∃ i, trial i = .error e ∧ ∀ j < i, ∃ a, trial j = .ok a := by
  induction n with
  | zero =>
    constructor
    · intro h
      cases h
    · rintro ⟨i, -⟩
      exact i.elim0
  | succ n ih =>
    rw [List.ofFn_succ, List.mapM_cons]
    constructor
    · intro h
      rcases bind_eq_error.1 h with hfirst | ⟨a, ha, h⟩
      · exact ⟨0, hfirst, fun j hj => absurd hj (Fin.not_lt_zero j)⟩
      · rcases bind_eq_error.1 h with hrest | ⟨_, -, h⟩
        · obtain ⟨i, hi, hbefore⟩ := ih.1 hrest
          refine ⟨i.succ, hi, fun j hj => ?_⟩
          cases j using Fin.cases with
          | zero => exact ⟨a, ha⟩
          | succ j => exact hbefore j (Fin.succ_lt_succ_iff.1 hj)
        · cases h
    · rintro ⟨i, hi, hbefore⟩
      cases i using Fin.cases with
      | zero => exact bind_eq_error.2 (.inl hi)
      | succ i =>
        obtain ⟨a, ha⟩ := hbefore 0 (Fin.succ_pos i)
        have hrest := ih.2 ⟨i, hi, fun j hj => hbefore j.succ (Fin.succ_lt_succ_iff.2 hj)⟩
        exact bind_eq_error.2 (.inr ⟨a, ha, bind_eq_error.2 (.inl hrest)⟩)

/-- A trial that fails ends the row, so in a row with a result they all succeed. The induction is on
the position: those before have succeeded. -/
theorem exists_of_mapM_ofFn {trial : Fin n → TemplateResult α} {values : List α}
    (h : (List.ofFn trial).mapM id = .ok values) (i : Fin n) : ∃ a, trial i = .ok a := by
  obtain ⟨k, hk⟩ := i
  induction k using Nat.strongRecOn with
  | ind k ih =>
    cases hi : trial ⟨k, hk⟩ with
    | ok a => exact ⟨a, rfl⟩
    | error e =>
      cases h.symm.trans (mapM_ofFn_eq_error.2 ⟨⟨k, hk⟩, hi, fun j hj => ih j hj j.isLt⟩)

theorem inTurn_mapM (trial : Fin n → TemplateResult α) (collect : List α → β) :
    InTurn trial collect (collect <$> (List.ofFn trial).mapM id) where
  isOk := by
    constructor
    · rintro ⟨b, hb⟩
      obtain ⟨values, hvalues, -⟩ := map_eq_ok.1 hb
      exact exists_of_mapM_ofFn hvalues
    · intro h
      choose values hvalues using h
      exact ⟨_, map_eq_ok.2 ⟨_, mapM_ofFn_eq_ok hvalues, rfl⟩⟩
  value values h := map_eq_ok.2 ⟨_, mapM_ofFn_eq_ok h, rfl⟩
  error e := by
    rw [← mapM_ofFn_eq_error]
    cases (List.ofFn trial).mapM id with
    | ok values => exact ⟨nofun, nofun⟩
    | error e' => exact ⟨fun h => by cases h; rfl, fun h => by cases h; rfl⟩

/-- Trials on the members of a list, each with its position. -/
theorem mapM_zipIdx (f : α × Nat → TemplateResult β) (members : List α) :
    members.zipIdx.mapM f =
      (List.ofFn fun i : Fin members.length => f (members[i], (i : Nat))).mapM id := by
  have hmembers : members.zipIdx =
      List.ofFn fun i : Fin members.length => (members[i], (i : Nat)) := by
    apply List.ext_getElem <;> simp
  calc
    members.zipIdx.mapM f = (members.zipIdx.map f).mapM id := by
      rw [List.mapM_map, Function.id_comp]
    _ = _ := by
      rw [hmembers, List.map_ofFn]
      rfl

end Trials

/-! ### Fresh scopes -/

namespace Block

open Context (passes_eq_mapM sets_bindItem sets_bindEntry)

variable {source : Program} {names : LoopNames} {body : Block} {c : Context}

theorem emit_array {items : List Value} (h : source.run c.vars = .ok (.array items)) :
    (iteration source names body).emit c =
      (fun results => .array (results.filter fun v => !v.isNull)) <$>
        items.zipIdx.mapM fun (item, index) => body.emit (c.bindItem names index item) := by
  rw [emit, Program.emit_eq_ok.2 h]
  change (Context.passes _ _ _ _ >>= _) = _
  rw [passes_eq_mapM (sets_bindItem names) (Block.emit_congr body) fun _ _ _ => rfl]
  rfl

theorem emit_object {fields : Fields Value} (h : source.run c.vars = .ok (.object fields)) :
    (iteration source names body).emit c = .array <$>
      fields.zipIdx.mapM fun (entry, index) => body.emit (c.bindEntry names index entry) := by
  rw [emit, Program.emit_eq_ok.2 h]
  change (Context.passes _ _ _ _ >>= _) = _
  rw [passes_eq_mapM (sets_bindEntry names) (Block.emit_congr body) fun _ _ _ => rfl]
  rfl

/-- Each pass gives what the body gives in the context of the iteration with the names of the pass
bound in it, whatever the names are. The iteration has a result if all passes have one, and
otherwise the error of the first pass that fails. -/
theorem emit_passes_inTurn (source : Program) (names : LoopNames) (body : Block) (c : Context) :
    (∀ items, source.run c.vars = .ok (.array items) →
      InTurn (fun i : Fin items.length =>
          body.emit ((c.bind names.index (.int i)).bind names.item items[i]))
        (fun results => .array (results.filter fun v => !v.isNull))
        ((iteration source names body).emit c)) ∧
    ∀ fields : Fields Value, source.run c.vars = .ok (.object fields) →
      InTurn (fun i : Fin fields.length =>
          body.emit (((c.bind names.key (.string fields[i].1)).bind names.item fields[i].2).bind
            names.index (.int i)))
        .array ((iteration source names body).emit c) ∧
      (fields.Ordered → ∀ i j : Fin fields.length, i < j → fields[i].1 < fields[j].1) := by
  constructor
  · intro items hsource
    rw [emit_array hsource, mapM_zipIdx]
    exact inTurn_mapM _ _
  · intro fields hsource
    constructor
    · rw [emit_object hsource, mapM_zipIdx]
      exact inTurn_mapM _ _
    · intro hordered i j hij
      exact List.pairwise_iff_getElem.1 hordered i j i.isLt j.isLt hij

/-- One name stands for all three, and a pass does not see it as the pass before has left it. -/
theorem emit_passes_inTurn_same_name :
    (iteration ⟨"x", .identifier ⟨⟨1, 1⟩, ⟨1, 1⟩⟩ "x", .empty⟩ ⟨"x", "x", "x"⟩
        (.expression ⟨"x", .identifier ⟨⟨1, 1⟩, ⟨1, 1⟩⟩ "x", .empty⟩ false)).emit
          ⟨[("x", .array [.int 1, .null, .int 2])]⟩ =
      .ok (.array [.int 1, .int 2]) := by
  have hall := (emit_passes_inTurn ⟨"x", .identifier ⟨⟨1, 1⟩, ⟨1, 1⟩⟩ "x", .empty⟩
    ⟨"x", "x", "x"⟩ (.expression ⟨"x", .identifier ⟨⟨1, 1⟩, ⟨1, 1⟩⟩ "x", .empty⟩ false)
    ⟨[("x", .array [.int 1, .null, .int 2])]⟩).1 _ rfl
  refine hall.value (fun i : Fin 3 => [.int 1, .null, .int 2][i]) fun i => ?_
  match i with
  | 0 | 1 | 2 => rfl

end Block

/-! ### Entries and values -/

namespace Context

/-- The contexts that passes run the body in. The scope is handed on from pass to pass. -/
def scopes {α : Type} (enter : Context → Nat → α → Context) :
    Context → List (α × Nat) → List Context
  | _, [] => []
  | c, (member, index) :: rest =>
    enter c index member :: scopes enter (enter c index member) rest

theorem passes_eq_mapM_scopes {α : Type} (enter : Context → Nat → α → Context)
    (body : Context → TemplateResult Value) (c : Context) (members : List (α × Nat)) :
    passes enter body c members = (scopes enter c members).mapM body := by
  induction members generalizing c with
  | nil => rfl
  | cons first rest ih =>
    rw [passes, scopes, List.mapM_cons, ih]

theorem length_scopes {α : Type} (enter : Context → Nat → α → Context) (c : Context)
    (members : List (α × Nat)) : (scopes enter c members).length = members.length := by
  induction members generalizing c with
  | nil => rfl
  | cons first rest ih => rw [scopes, List.length_cons, List.length_cons, ih]

/-- A pass has its own names bound in the scope that it is handed. -/
theorem exists_scope {α : Type} {enter : Context → Nat → α → Context} {c scope : Context}
    {members : List (α × Nat)} {k : Nat} (h : (scopes enter c members)[k]? = some scope) :
    ∃ before member index, members[k]? = some (member, index) ∧
      scope = enter before index member := by
  induction members generalizing c k with
  | nil => cases h
  | cons first rest ih =>
    obtain ⟨member, index⟩ := first
    cases k with
    | zero =>
      cases h
      exact ⟨c, member, index, rfl, rfl⟩
    | succ k => exact ih h

/-- Where the key is not looked up, a pass over an entry is a pass over its value. -/
theorem agreeOn_bindEntry_bindItem {names : LoopNames} {free : List String}
    (hitem : names.index ≠ names.item) (hkey : names.key ∉ free) (c : Context) (index : Nat)
    (entry : String × Value) :
    AgreeOn free (c.bindEntry names index entry) (c.bindItem names index entry.2) := by
  intro name hname
  have hne : name ≠ names.key := fun h => hkey (h ▸ hname)
  simp only [bindEntry, bindItem, get?_bind, if_neg hne]
  by_cases hindex : name = names.index
  · rw [if_pos hindex, if_pos hindex, if_neg (hindex ▸ hitem)]
  · rw [if_neg hindex, if_neg hindex]

end Context

namespace Block

variable {source list : Program} {names : LoopNames} {body : Block} {c : Context}
  {fields : Fields Value}

/-- The passes over the entries of an object give what the passes over its values give. -/
theorem mapM_values_eq_mapM_entries (hitem : names.index ≠ names.item)
    (hkey : names.key ∉ body.freeNames) (c : Context) (fields : Fields Value) :
    (fields.values.zipIdx.mapM fun (item, index) => body.emit (c.bindItem names index item)) =
      fields.zipIdx.mapM fun (entry, index) => body.emit (c.bindEntry names index entry) := by
  rw [Fields.values, List.zipIdx_map, List.mapM_map]
  congr 1
  funext ⟨entry, index⟩
  exact (Block.emit_congr body
    (Context.agreeOn_bindEntry_bindItem hitem hkey c index entry)).symm

/-- In the pass of an entry its names stand for its key, its value and its position. -/
theorem exists_entry_of_scope (hordered : fields.Ordered)
    (hnames : [names.index, names.key, names.item].Nodup) {k : Nat} {scope : Context}
    (h : (Context.scopes (·.bindEntry names) c fields.zipIdx)[k]? = some scope) :
    ∃ key value, fields.names[k]? = some key ∧ fields.values[k]? = some value ∧
      (Value.object fields).index (.string key) = .ok value ∧
      scope.get? names.key = some (.string key) ∧ scope.get? names.item = some value ∧
      scope.get? names.index = some (.int k) := by
  obtain ⟨before, ⟨key, value⟩, index, hmember, rfl⟩ := Context.exists_scope h
  rw [List.getElem?_zipIdx, Option.map_eq_some_iff] at hmember
  obtain ⟨entry, hentry, heq⟩ := hmember
  obtain ⟨rfl, rfl⟩ := Prod.mk.inj heq
  have hget : fields.get? key = some value :=
    Fields.get?_of_mem hordered (List.mem_of_getElem? hentry)
  have hindexKey : names.key ≠ names.index := by grind
  have hitemKey : names.key ≠ names.item := by grind
  have hitemIndex : names.item ≠ names.index := by grind
  refine ⟨key, value, ?_, ?_, ?_, ?_, ?_, ?_⟩
  · rw [Fields.names, List.getElem?_map, hentry, Option.map_some]
  · rw [Fields.values, List.getElem?_map, hentry, Option.map_some]
  · rw [Value.index, hget, Option.getD_some]
  · rw [Context.bindEntry, Context.get?_bind, Context.get?_bind, Context.get?_bind,
      if_neg hindexKey, if_neg hitemKey, if_pos rfl]
  · rw [Context.bindEntry, Context.get?_bind, Context.get?_bind, if_neg hitemIndex, if_pos rfl]
  · rw [Context.bindEntry, Context.get?_bind, if_pos rfl, Nat.zero_add]

/-- An iteration over an object goes through its keys in ascending order, and gives what an
iteration over its values gives, but for the nulls that only the latter leaves out. -/
theorem emit_entries_values (hordered : fields.Ordered)
    (hnames : [names.index, names.key, names.item].Nodup) (hkey : names.key ∉ body.freeNames)
    (hsource : source.run c.vars = .ok (.object fields))
    (hlist : list.run c.vars = Builtin.values.call [.object fields]) :
    ((∃ e, (iteration source names body).emit c = .error e ∧
        (iteration list names body).emit c = .error e) ∨
      ∃ results, (iteration source names body).emit c = .ok (.array results) ∧
        (iteration list names body).emit c =
          .ok (.array (results.filter fun v => !v.isNull))) ∧
    ∃ (keys : List String) (values : List Value),
      Builtin.keys.call [.object fields] = .ok (.array (keys.map .string)) ∧
      Builtin.values.call [.object fields] = .ok (.array values) ∧
      keys.Pairwise (· < ·) ∧
      let scopes := Context.scopes (·.bindEntry names) c fields.zipIdx
      (iteration source names body).emit c =
        .array <$> scopes.mapM (fun scope => body.emit scope) ∧
      scopes.length = keys.length ∧ scopes.length = values.length ∧
      ∀ (k : Nat) (scope : Context), scopes[k]? = some scope →
        ∃ key value, keys[k]? = some key ∧ values[k]? = some value ∧
          (Value.object fields).index (.string key) = .ok value ∧
          scope.get? names.key = some (.string key) ∧ scope.get? names.item = some value ∧
          scope.get? names.index = some (.int k) := by
  constructor
  · have hitem : names.index ≠ names.item := by grind
    have hvalues : list.run c.vars = .ok (.array fields.values) := hlist
    rw [emit_array hvalues, emit_object hsource,
      mapM_values_eq_mapM_entries hitem hkey]
    cases fields.zipIdx.mapM fun (entry, index) => body.emit (c.bindEntry names index entry) with
    | ok results => exact .inr ⟨results, rfl, rfl⟩
    | error e => exact .inl ⟨e, rfl, rfl⟩
  · refine ⟨fields.names, fields.values, rfl, rfl, List.pairwise_map.2 hordered, ?_, ?_, ?_,
      fun k scope => exists_entry_of_scope hordered hnames⟩
    · rw [← Context.passes_eq_mapM_scopes, emit, Program.emit_eq_ok.2 hsource]
      rfl
    · rw [Context.length_scopes, List.length_zipIdx, Fields.names, List.length_map]
    · rw [Context.length_scopes, List.length_zipIdx, Fields.values, List.length_map]

/-- The value of the last entry is null. -/
theorem emit_entries_values_null :
    ∃ results,
      (iteration ⟨"o", .identifier ⟨⟨1, 1⟩, ⟨1, 1⟩⟩ "o", .empty⟩ .standard
          (.expression ⟨"item", .identifier ⟨⟨1, 1⟩, ⟨1, 4⟩⟩ "item", .empty⟩ false)).emit
            ⟨[("o", .object [("a", .int 1), ("b", .null)])]⟩ = .ok (.array results) ∧
      (iteration ⟨"values(o)", .call ⟨⟨1, 1⟩, ⟨1, 9⟩⟩ ⟨"values", ⟨⟨1, 1⟩, ⟨1, 6⟩⟩⟩
            [.identifier ⟨⟨1, 8⟩, ⟨1, 8⟩⟩ "o"], .empty⟩ .standard
          (.expression ⟨"item", .identifier ⟨⟨1, 1⟩, ⟨1, 4⟩⟩ "item", .empty⟩ false)).emit
            ⟨[("o", .object [("a", .int 1), ("b", .null)])]⟩ =
        .ok (.array (results.filter fun v => !v.isNull)) := by
  have hordered : Fields.Ordered [("a", Value.int 1), ("b", .null)] := by
    unfold Fields.Ordered
    decide +kernel
  rcases (@emit_entries_values ⟨"o", .identifier ⟨⟨1, 1⟩, ⟨1, 1⟩⟩ "o", .empty⟩
    ⟨"values(o)", .call ⟨⟨1, 1⟩, ⟨1, 9⟩⟩ ⟨"values", ⟨⟨1, 1⟩, ⟨1, 6⟩⟩⟩
      [.identifier ⟨⟨1, 8⟩, ⟨1, 8⟩⟩ "o"], .empty⟩
    .standard (.expression ⟨"item", .identifier ⟨⟨1, 1⟩, ⟨1, 4⟩⟩ "item", .empty⟩ false)
    ⟨[("o", .object [("a", .int 1), ("b", .null)])]⟩ _ hordered (by decide +kernel)
    (by decide +kernel) rfl rfl).1 with ⟨e, he, -⟩ | hresults
  · cases he
  · exact hresults

end Block

end JsonTemplate
