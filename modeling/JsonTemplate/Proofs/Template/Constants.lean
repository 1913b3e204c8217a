import JsonTemplate.Proofs.Template.Conditions
import JsonTemplate.Proofs.Template.Delimiters

/-! Constant conditions. A condition that is spelled as a constant leaves its branch without being
compiled. Compiled, the spellings in lower case are literals, whose value is the same whatever the
names stand for and has the truth of the constant. So a conditional of a constant gives what it
would give if the condition were run each time. In upper or mixed case the words are no literals,
and count as their spellings in lower case. -/

namespace JsonTemplate

open Token (Kind)
open Grammar (Phrase Literal)

/-! ### Literals -/

namespace Program

variable {text word : String} {kind : Kind} {k : Keyword} {e : Expr}

/-- A literal is a program of its value. -/
theorem exists_compile_literal (o : Options) (hspells : Lexer.Spells text.toList [kind])
    (h : Literal kind e) :
    ∃ p, compile o text = .ok p ∧ ∀ context, p.run context = e.eval o context := by
  obtain ⟨p, hp, hrun⟩ := exists_compile_of_sentence (o := o) hspells
    (Phrase.sentence (.tighter .access (.literal h))) (by simp [nestingLimit])
    fun _ => by cases h <;> rfl
  rw [String.ofList_toList] at hp
  exact ⟨p, hp, hrun⟩

/-- A keyword that is a literal is a program, in all of its spellings. -/
theorem exists_compile_keyword (o : Options) (hword : (word, k) ∈ Keyword.spellings)
    (h : Literal (.keyword k) e) :
    ∃ p, compile o word = .ok p ∧ ∀ context, p.run context = e.eval o context := by
  obtain ⟨hname, hkind⟩ : Lexer.IsName word.toList ∧ Kind.ofWord word = .keyword k := by
    simp only [Keyword.spellings, List.mem_cons, Prod.mk.injEq, List.not_mem_nil, or_false]
      at hword
    rcases hword with ⟨rfl, rfl⟩ | ⟨rfl, rfl⟩ | ⟨rfl, rfl⟩ | ⟨rfl, rfl⟩ | ⟨rfl, rfl⟩ |
      ⟨rfl, rfl⟩ | ⟨rfl, rfl⟩ | ⟨rfl, rfl⟩ <;>
      exact ⟨⟨_, _, rfl, by decide, List.all_eq_true.1 (by decide)⟩, rfl⟩
  exact exists_compile_literal o (hkind ▸ Lexer.spells_word hname) h

end Program

namespace Block

/-- The spellings of constants in lower case, each with its truth. -/
def constants : List (String × Bool) :=
  [("true", true), ("1", true), ("false", false), ("0", false), ("nil", false), ("null", false)]

variable {text word : String} {truth : Bool} {p : Program}

theorem constantTruth?_eq_some : constantTruth? text = some truth ↔
    (String.ofList (text.toList.map Char.toLower), truth) ∈ constants := by
  unfold constantTruth?
  generalize String.ofList (text.toList.map Char.toLower) = word
  split <;> simp_all [constants, eq_comm]

/-- The program of a constant has a value of its truth in every context. -/
theorem exists_compile_constant (o : Options) (h : (word, truth) ∈ constants) :
    ∃ p, Program.compile o word = .ok p ∧
      ∀ context, ∃ v, p.run context = .ok v ∧ v.truthy = truth := by
  suffices hvalue : ∃ p v, Program.compile o word = .ok p ∧
      (∀ context, p.run context = .ok v) ∧ v.truthy = truth by
    obtain ⟨p, v, hp, hrun, htruth⟩ := hvalue
    exact ⟨p, hp, fun context => ⟨v, hrun context, htruth⟩⟩
  have hkeyword {k : Keyword} {e : Expr} {v : Value} (hword : (word, k) ∈ Keyword.spellings)
      (hliteral : Grammar.Literal (.keyword k) e) (hv : ∀ context, e.eval o context = .ok v)
      (htruth : v.truthy = truth) : ∃ p v, Program.compile o word = .ok p ∧
        (∀ context, p.run context = .ok v) ∧ v.truthy = truth := by
    obtain ⟨p, hp, hrun⟩ := Program.exists_compile_keyword o hword hliteral
    exact ⟨p, v, hp, fun context => (hrun context).trans (hv context), htruth⟩
  have hinteger {n : Int} (hlow : -9223372036854775808 < n) (hhigh : n < 9223372036854775808)
      (hword : Decimal.intText n = word) (htruth : (Value.int n).truthy = truth) :
      ∃ p v, Program.compile o word = .ok p ∧
        (∀ context, p.run context = .ok v) ∧ v.truthy = truth := by
    obtain ⟨p, hp, hrun⟩ := Program.exists_compile_intText o hlow hhigh
    exact ⟨p, .int n, hword ▸ hp, hrun, htruth⟩
  simp only [constants, List.mem_cons, Prod.mk.injEq, List.not_mem_nil, or_false] at h
  rcases h with ⟨rfl, rfl⟩ | ⟨rfl, rfl⟩ | ⟨rfl, rfl⟩ | ⟨rfl, rfl⟩ | ⟨rfl, rfl⟩ | ⟨rfl, rfl⟩
  · exact hkeyword (by decide) (.true default) (fun _ => rfl) rfl
  · exact hinteger (n := 1) (by decide) (by decide) (by decide +kernel) (by decide +kernel)
  · exact hkeyword (by decide) (.false default) (fun _ => rfl) rfl
  · exact hinteger (n := 0) (by decide) (by decide) (by decide +kernel) (by decide +kernel)
  · exact hkeyword (by decide) (.nil default) (fun _ => rfl) rfl
  · exact hkeyword (by decide) (.nil default) (fun _ => rfl) rfl

/-- A condition that always has the same truth leaves the branch of this truth. -/
theorem emit_conditional_of_truth (hrun : ∀ context, ∃ v, p.run context = .ok v ∧ v.truthy = truth)
    (yes : Block) (no : Option Block) (c : Context) :
    (conditional p yes no).emit c = (if truth then yes else no.getD (.literal .null)).emit c := by
  obtain ⟨v, hv, rfl⟩ := hrun c.vars
  rw [emit, Program.emit_eq_ok.2 hv]
  change (if v.truthy then yes.emit c else emitBranch c no) = _
  cases v.truthy with
  | true => rfl
  | false => cases no <;> simp [emitBranch, emit]

theorem ofCondition_constant {o : Options} (h : constantTruth? (Text.trim text) = some truth)
    (yes : Block) (no : Option Block) :
    ofCondition o text yes no = .ok (if truth then yes else no.getD (.literal .null)) := by
  have hblank : ¬Form.isBlankText text := by
    rw [Form.isBlankText_iff]
    intro hempty
    rw [hempty] at h
    cases h
  cases truth with
  | true => exact ofCondition_eq_ok.2 ⟨hblank, .inl ⟨h, rfl⟩⟩
  | false => exact ofCondition_eq_ok.2 ⟨hblank, .inr (.inl ⟨h, rfl⟩)⟩

/-- A constant leaves the branch that its program would choose. -/
theorem exists_ofCondition_constant (o : Options) {text : String} (yes : Block) (no : Option Block)
    (h : (word, truth) ∈ constants)
    (htext : (Text.trim text).toList.map Char.toLower = word.toList) :
    ∃ b p, ofCondition o text yes no = .ok b ∧ Program.compile o word = .ok p ∧
      ∀ c, b.emit c = (conditional p yes no).emit c := by
  have htruth : constantTruth? (Text.trim text) = some truth := by
    rw [constantTruth?_eq_some, htext, String.ofList_toList]
    exact h
  obtain ⟨p, hp, hrun⟩ := exists_compile_constant o h
  exact ⟨_, p, ofCondition_constant htruth yes no, hp, fun c =>
    (emit_conditional_of_truth hrun yes no c).symm⟩

/-- Nothing is changed by writing the letters of a text without capitals in lower case. -/
theorem map_toLower_trim {text : String} (h : ∀ c ∈ text.toList, ¬c.isUpper) :
    (Text.trim text).toList.map Char.toLower = (Text.trim text).toList := by
  obtain ⟨before, after, hsplit, -, -⟩ := Text.exists_trimChars text.toList
  have hsame : ∀ c ∈ (Text.trim text).toList, c.toLower = id c := by
    intro c hc
    rw [Text.trim, String.toList_ofList] at hc
    have hmem : c ∈ text.toList := by
      rw [hsplit]
      exact List.mem_append_right before (List.mem_append_left after hc)
    exact dif_neg (mt decide_eq_true (h c hmem))
  rw [List.map_congr_left hsame, List.map_id]

/-- A condition without capitals is as good as its program, run each time, whether it is a constant
or not. A word for a constant in upper or mixed case is as good as the program of the word in lower
case. -/
theorem ofCondition_eq_conditional (o : Options) (yes : Block) (no : Option Block) :
    (∀ (text : String) (p : Program), (∀ c ∈ text.toList, ¬c.isUpper) →
      Program.compile o (Text.trim text) = .ok p →
      ∃ b, ofCondition o text yes no = .ok b ∧
        ∀ c, b.emit c = (conditional p yes no).emit c) ∧
    ∀ text word : String, word ∈ ["true", "false", "nil", "null"] →
      (Text.trim text).toList.map Char.toLower = word.toList →
      ∃ b p, ofCondition o text yes no = .ok b ∧ Program.compile o word = .ok p ∧
        ∀ c, b.emit c = (conditional p yes no).emit c := by
  constructor
  · intro text p hlower hp
    cases htruth : constantTruth? (Text.trim text) with
    | none =>
      have hblank : ¬Form.isBlankText text := by
        rw [Form.isBlankText_iff, ← String.toList_eq_nil_iff]
        rw [← String.ofList_toList (s := Text.trim text)] at hp
        exact Program.ne_nil_of_compile hp
      exact ⟨_, ofCondition_eq_ok.2 ⟨hblank, .inr (.inr ⟨htruth, p, hp, rfl⟩)⟩, fun _ => rfl⟩
    | some truth =>
      have hsame := map_toLower_trim hlower
      rw [constantTruth?_eq_some, hsame, String.ofList_toList] at htruth
      obtain ⟨b, q, hb, hq, hemit⟩ := exists_ofCondition_constant o yes no htruth hsame
      cases hq.symm.trans hp
      exact ⟨b, hb, hemit⟩
  · intro text word hword
    have hconstant : ∃ truth, (word, truth) ∈ constants := by
      simp only [List.mem_cons, List.not_mem_nil, or_false] at hword
      rcases hword with rfl | rfl | rfl | rfl
      · exact ⟨true, by decide⟩
      · exact ⟨false, by decide⟩
      · exact ⟨false, by decide⟩
      · exact ⟨false, by decide⟩
    obtain ⟨truth, h⟩ := hconstant
    exact exists_ofCondition_constant o yes no h

/-- A constant is not the global value of its name. -/
theorem ofCondition_eq_conditional_nil :
    (∃ p b, Program.compile (Options.empty.withGlobal "nil" (.bool true)) "nil" = .ok p ∧
      ofCondition (Options.empty.withGlobal "nil" (.bool true)) " nil " (.literal (.int 1)) none =
        .ok b ∧ ∀ c, b.emit c = (conditional p (.literal (.int 1)) none).emit c) ∧
    ∃ b p, ofCondition .empty "NULL" (.literal (.int 1)) (some (.literal (.int 2))) = .ok b ∧
      Program.compile .empty "null" = .ok p ∧
      ∀ c, b.emit c =
        (conditional p (.literal (.int 1)) (some (.literal (.int 2)))).emit c := by
  have htrim : Text.trim " nil " = "nil" := by decide +kernel
  have hlower : (Text.trim "NULL").toList.map Char.toLower = "null".toList := by decide +kernel
  obtain ⟨p, hp, -⟩ := exists_compile_constant (Options.empty.withGlobal "nil" (.bool true))
    (show ("nil", false) ∈ constants by decide)
  obtain ⟨b, hb, hemit⟩ := (ofCondition_eq_conditional (Options.empty.withGlobal "nil" (.bool true))
    (.literal (.int 1)) none).1 " nil " p (by simp) (htrim ▸ hp)
  exact ⟨⟨p, b, hp, hb, hemit⟩,
    (ofCondition_eq_conditional .empty (.literal (.int 1)) (some (.literal (.int 2)))).2 "NULL"
      "null" (by decide) hlower⟩

end Block

end JsonTemplate
