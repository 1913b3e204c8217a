import JsonTemplate.Proofs.Integers
import JsonTemplate.Proofs.Template.Failures
import JsonTemplate.Proofs.Template.Spellings

/-! Conditions that are no texts. A boolean or an integer is written out, and its text is the
condition. A text that is a constant decides at once, and the text of any other integer is compiled
and run, with the integer as its value. So a condition has the truth of the value itself, as long as
its digits are a token. -/

namespace JsonTemplate

variable {o : Options}

namespace Block

/-! ### Constants among the texts of integers -/

theorem lower_intText (n : Int) :
    String.ofList ((Decimal.intText n).toList.map Char.toLower) = Decimal.intText n := by
  have hlower : ∀ c ∈ (Decimal.intText n).toList, c.toLower = id c := by
    intro c hc
    rcases Decimal.mem_intText hc with rfl | hdigit
    · rfl
    · exact Decimal.toLower_of_isDigit hdigit
  rw [List.map_congr_left hlower, List.map_id, String.ofList_toList]

/-- One and zero are the only integers whose text is a constant. -/
theorem constantTruth?_intText (n : Int) :
    constantTruth? (Decimal.intText n) =
      if n = 1 then some true else if n = 0 then some false else none := by
  have hone : Decimal.intText 1 = "1" := by decide +kernel
  have hzero : Decimal.intText 0 = "0" := by decide +kernel
  have hchars {word : String} (h : Decimal.intText n = word) :
      word.toList.all fun c => c == '-' || c.isDigit := by
    rw [← h, List.all_eq_true]
    exact fun c hc => by simpa using Decimal.mem_intText hc
  unfold constantTruth?
  rw [lower_intText]
  by_cases h1 : n = 1
  · rw [h1, hone]
    rfl
  by_cases h0 : n = 0
  · rw [h0, hzero]
    rfl
  rw [if_neg h1, if_neg h0]
  split
  · next h => exact absurd (hchars h) (by decide)
  · next h => exact absurd (Decimal.intText_injective (h.trans hone.symm)) h1
  · next h => exact absurd (hchars h) (by decide)
  · next h => exact absurd (Decimal.intText_injective (h.trans hzero.symm)) h0
  · next h => exact absurd (hchars h) (by decide)
  · next h => exact absurd (hchars h) (by decide)
  · rfl

theorem not_isBlankText_intText (n : Int) : ¬Form.isBlankText (Decimal.intText n) := by
  rw [Form.isBlankText_iff, Decimal.trim_intText]
  exact Decimal.intText_ne_empty n

/-! ### Conditions with a truth of their own -/

/-- A condition that is a constant of a truth, or a program whose value always has it, leaves the
branch of this truth. -/
theorem exists_ofCondition_truth {text : String} {truth : Bool} (yes no : Block)
    (hblank : ¬Form.isBlankText text)
    (h : constantTruth? (Text.trim text) = some truth ∨
      constantTruth? (Text.trim text) = none ∧ ∃ p, Program.compile o (Text.trim text) = .ok p ∧
        ∀ context, ∃ v, p.run context = .ok v ∧ v.truthy = truth) :
    ∃ b, ofCondition o text yes (some no) = .ok b ∧
      ∀ c, b.emit c = if truth then yes.emit c else no.emit c := by
  rcases h with hconstant | ⟨hnone, p, hp, hrun⟩
  · cases truth with
    | true => exact ⟨yes, ofCondition_eq_ok.2 ⟨hblank, .inl ⟨hconstant, rfl⟩⟩, fun _ => rfl⟩
    | false => exact ⟨no, ofCondition_eq_ok.2 ⟨hblank, .inr (.inl ⟨hconstant, rfl⟩)⟩, fun _ => rfl⟩
  · refine ⟨.conditional p yes (some no),
      ofCondition_eq_ok.2 ⟨hblank, .inr (.inr ⟨hnone, p, hp, rfl⟩)⟩, fun c => ?_⟩
    obtain ⟨v, hv, htruth⟩ := hrun c.vars
    rw [emit, Program.emit_eq_ok.2 hv, ← htruth]
    change (if v.truthy then _ else Block.emitBranch c (some no)) = _
    rw [emitBranch]

end Block

/-! ### Values as conditions -/

/-- The value is a boolean, or an integer whose digits are a token. -/
inductive Value.Spellable : Value → Prop where
  | bool (b : Bool) : Spellable (.bool b)
  | int {n : Int} : -9223372036854775808 < n → n < 9223372036854775808 → Spellable (.int n)

theorem Block.exists_ofCondition_value (o : Options) {v : Value} (h : v.Spellable)
    (yes no : Block) :
    ∃ text b, Form.scalarText? v = some text ∧ ofCondition o text yes (some no) = .ok b ∧
      ∀ c, b.emit c = if v.truthy then yes.emit c else no.emit c := by
  suffices hcondition : ∃ text, Form.scalarText? v = some text ∧ ¬Form.isBlankText text ∧
      (constantTruth? (Text.trim text) = some v.truthy ∨
        constantTruth? (Text.trim text) = none ∧ ∃ p, Program.compile o (Text.trim text) = .ok p ∧
          ∀ context, ∃ w, p.run context = .ok w ∧ w.truthy = v.truthy) by
    obtain ⟨text, htext, hblank, htruth⟩ := hcondition
    obtain ⟨b, hb, hemit⟩ := exists_ofCondition_truth yes no hblank htruth
    exact ⟨text, b, htext, hb, hemit⟩
  cases h with
  | bool truth =>
    refine ⟨_, rfl, ?_⟩
    cases truth with
    | true => exact ⟨by decide +kernel, .inl (by decide +kernel)⟩
    | false => exact ⟨by decide +kernel, .inl (by decide +kernel)⟩
  | @int n hlow hhigh =>
    refine ⟨Decimal.intText n, rfl, not_isBlankText_intText n, ?_⟩
    rw [Decimal.trim_intText, constantTruth?_intText]
    split_ifs with hone hzero
    · exact .inl (hone ▸ by decide +kernel)
    · exact .inl (hzero ▸ by decide +kernel)
    · obtain ⟨p, hp, hrun⟩ := Program.exists_compile_intText o hlow hhigh
      exact .inr ⟨rfl, p, hp, fun context => ⟨_, hrun context, rfl⟩⟩

/-- An integer whose digits are too many for a token is no condition. -/
theorem Block.ofCondition_tooLarge (o : Options) {n : Int}
    (hn : n ≤ -9223372036854775808 ∨ 9223372036854775808 ≤ n) (yes : Block) (no : Option Block) :
    ∃ report, report.first?.map Diagnostic.code = some Code.invalidNumber ∧
      ofCondition o (Decimal.intText n) yes no = .error (.compile (Decimal.intText n) report) := by
  obtain ⟨report, hreport, hcode⟩ := Program.compile_intText_error o hn
  have hcompile : o.compile (Decimal.intText n) = .error (.compile (Decimal.intText n) report) := by
    rw [Options.compile, hreport]
  have hne := Decimal.intText_ne_empty n
  refine ⟨report, hcode, ?_⟩
  unfold ofCondition
  rw [Decimal.trim_intText]
  simp only [if_neg hne, constantTruth?_intText, hcompile]
  rw [if_neg (by omega), if_neg (by omega)]
  rfl

/-! ### Documents -/

namespace Template

variable {b : Fields Value} {e : Value} {yes no : Template}

/-- A conditional with both branches beside the condition. -/
theorem build_conditional {v : Value} {text : String} (hb : b.Lacks ["$if", "$else"])
    (hyes : build o (.object b) = .ok yes) (hno : build o e = .ok no)
    (htext : Form.scalarText? v = some text) :
    build o (.object ((b.insert "$if" v).insert "$else" e)) =
      Template.mk <$> Block.ofCondition o text yes.root (some no.root) := by
  obtain ⟨yesNode, hyesNode, hyes⟩ := bind_eq_ok.1 hyes
  obtain ⟨noNode, hnoNode, hno⟩ := bind_eq_ok.1 hno
  cases hyes
  cases hno
  have hform : Form.HasForm ((b.insert "$if" v).insert "$else" e) (.conditional text b (some e)) :=
    Form.hasForm_shortConditional (some e) htext hb
  have hbranches : Option.mapM (Node.build o) (some e) = .ok (some noNode) := by
    change some <$> Node.build o e = _
    rw [hnoNode]
    rfl
  have hnode : Node.build o (.object ((b.insert "$if" v).insert "$else" e)) =
      Node.block <$> Block.ofCondition o text yesNode.toBlock (some noNode.toBlock) := by
    rw [Node.build_conditional hform, hyesNode, hbranches]
    rfl
  rw [build, hnode]
  cases Block.ofCondition o text yesNode.toBlock (some noNode.toBlock) <;> rfl

theorem build_int (o : Options) (n : Int) : build o (.int n) = .ok ⟨.literal (.int n)⟩ := by
  rw [build, Value.int, Node.build_number]
  rfl

/-- An object of one integer, under a name that is no control key. -/
theorem build_entry (o : Options) {name : String} (n : Int)
    (hname : name ∉ ["$if", "$iterate", "$with"]) :
    build o (.object [(name, .int n)]) = .ok ⟨.literal (.object [(name, .int n)])⟩ := by
  have hlacks : Fields.Lacks [(name, Value.int n)] ["$if", "$iterate", "$with"] :=
    Fields.lacks_singleton hname
  have hform : Form.HasForm [(name, Value.int n)] .plain :=
    .plain (hlacks _ (by decide)) (hlacks _ (by decide)) (hlacks _ (by decide))
  rw [build, Node.build_plain hform, Node.buildFields, Node.buildFields, Value.int,
    Node.build_number]
  rfl

/-- A conditional with a boolean or an integer gives the branch that the value is true or false for.
An integer whose digits are too many for a token is refused, by a report that starts with them. -/
theorem process_conditional_value (o : Options) (hb : b.Lacks ["$if", "$else"])
    (hyes : build o (.object b) = .ok yes) (hno : build o e = .ok no) :
    (∀ v : Value, v.Spellable →
      ∃ t, build o (.object ((b.insert "$if" v).insert "$else" e)) = .ok t ∧
        ∀ c, t.process c = if v.truthy then yes.process c else no.process c) ∧
    ∀ n : Int, n ≤ -9223372036854775808 ∨ 9223372036854775808 ≤ n →
      ∃ report, report.first?.map Diagnostic.code = some Code.invalidNumber ∧
        build o (.object ((b.insert "$if" (.int n)).insert "$else" e)) =
          .error (.compile (Decimal.intText n) report) := by
  constructor
  · intro v hv
    obtain ⟨text, block, htext, hblock, hemit⟩ :=
      Block.exists_ofCondition_value o hv yes.root no.root
    refine ⟨⟨block⟩, ?_, hemit⟩
    rw [build_conditional hb hyes hno htext, hblock]
    rfl
  · intro n hn
    obtain ⟨report, hcode, hblock⟩ := Block.ofCondition_tooLarge o hn yes.root (some no.root)
    have htext : Form.scalarText? (.int n) = some (Decimal.intText n) := rfl
    refine ⟨report, hcode, ?_⟩
    rw [build_conditional hb hyes hno htext, hblock]
    rfl

/-- A negative integer is true. -/
theorem process_conditional_value_negative :
    ∃ t, build .empty (.object [("$else", .int 2), ("$if", .int (-7)), ("a", .int 1)]) = .ok t ∧
      t.process .empty = .ok (.object [("a", .int 1)]) := by
  have hb : Fields.Lacks [("a", Value.int 1)] ["$if", "$else"] :=
    Fields.lacks_singleton (by decide)
  obtain ⟨t, ht, hprocess⟩ := (process_conditional_value .empty hb
    (build_entry .empty 1 (by decide)) (build_int .empty 2)).1 _
      (.int (n := -7) (by decide) (by decide))
  refine ⟨t, ht, (hprocess .empty).trans ?_⟩
  rw [if_pos (by decide +kernel), process, Block.emit]

/-- The branches can be built, and the conditional cannot, although a document can hold the
integer. -/
theorem integer_refused_as_condition :
    Fields.Lacks [("a", Value.int 1)] ["$if", "$else"] ∧
      (∃ yes, build .empty (.object [("a", .int 1)]) = .ok yes) ∧
      (∃ no, build .empty (.int 2) = .ok no) ∧
      ¬∃ t, build .empty (.object
        ((Fields.insert "$if" (.int 9223372036854775808) [("a", .int 1)]).insert "$else"
          (.int 2))) = .ok t := by
  have hb : Fields.Lacks [("a", Value.int 1)] ["$if", "$else"] :=
    Fields.lacks_singleton (by decide)
  have hyes := build_entry .empty 1 (show "a" ∉ ["$if", "$iterate", "$with"] by decide)
  have htext : Form.scalarText? (.int 9223372036854775808) =
      some (Decimal.intText 9223372036854775808) := rfl
  refine ⟨hb, ⟨_, hyes⟩, ⟨_, build_int .empty 2⟩, ?_⟩
  rintro ⟨t, ht⟩
  obtain ⟨report, -, hblock⟩ := Block.ofCondition_tooLarge .empty (n := 9223372036854775808)
    (.inr (by decide)) (.literal (.object [("a", .int 1)])) (some (.literal (.int 2)))
  rw [build_conditional hb hyes (build_int .empty 2) htext, hblock] at ht
  cases ht

end Template

end JsonTemplate
