import JsonTemplate.Proofs.Lexing.Lexemes
import JsonTemplate.Proofs.Template.Building
import JsonTemplate.Proofs.Text.Runs

/-! The documents that templates can be built from: every expression in them compiles, and every
object with a control key has a form of that control, also in branches that are never taken. -/

namespace JsonTemplate

open Form (HasForm isBlankText)

/-- A text such as `name := expression`, with blanks around the name and the expression. -/
inductive BindingText : List Char → List Char → List Char → Prop where
  | mk {before name between rest : List Char} : (∀ c ∈ before, Text.isBlank c) → name ≠ [] →
    (∀ c ∈ name, Block.isNameChar c) → (∀ c ∈ between, Text.isBlank c) →
    BindingText (before ++ name ++ between ++ ':' :: '=' :: rest) name (Text.trimChars rest)

/-- The words for conditions that are true or false in every context. -/
def constantWords : List String := ["true", "1", "false", "0", "nil", "null"]

/-- The word in upper or lower case letters. -/
def Spells (text word : String) : Prop := text.toList.map Char.toLower = word.toList

inductive WellFormed (o : Options) : Value → Prop where
  | null : WellFormed o .null
  | bool (b : Bool) : WellFormed o (.bool b)
  | number (n : Number) : WellFormed o (.number n)
  | string {s : String} : (∀ m ∈ markersOf s, Compiles o (String.ofList m.source)) →
    WellFormed o (.string s)
  | array {items : List Value} : (∀ v ∈ items, WellFormed o v) → WellFormed o (.array items)
  | plain {fields : Fields Value} : HasForm fields .plain →
    (∀ entry ∈ fields, WellFormed o entry.2) → WellFormed o (.object fields)
  | conditional {fields yes : Fields Value} {text : String} {no : Option Value} :
    HasForm fields (.conditional text yes no) → ¬isBlankText text →
    (∃ word ∈ constantWords, Spells (Text.trim text) word) ∨ Compiles o (Text.trim text) →
    WellFormed o (.object yes) → (∀ v, no = some v → WellFormed o v) →
    WellFormed o (.object fields)
  | iteration {fields : Fields Value} {source : String} {names : LoopNames} {body : Value} :
    HasForm fields (.iteration source names body) → ¬isBlankText source →
    Compiles o (Text.trim source) → WellFormed o body → WellFormed o (.object fields)
  | binding {fields : Fields Value} {text : String} {name source : List Char} {body : Value} :
    HasForm fields (.binding text body) → BindingText text.toList name source → source ≠ [] →
    Compiles o (String.ofList source) → WellFormed o body → WellFormed o (.object fields)

/-! ### Texts of conditions and bindings -/

theorem isSome_constantTruth? {text : String} :
    (Block.constantTruth? text).isSome ↔ ∃ word ∈ constantWords, Spells text word := by
  have hspells (word : String) :
      Spells text word ↔ String.ofList (text.toList.map Char.toLower) = word := by
    rw [Spells, ← String.ofList_toList (s := word), String.ofList_inj, String.toList_ofList]
  simp only [hspells, constantWords, Block.constantTruth?]
  split <;> simp_all

theorem not_isBlank_of_isNameChar {c : Char} (h : Block.isNameChar c) : ¬Text.isBlank c :=
  Lexer.not_isBlank_of_isWordChar h

theorem splitBinding?_eq_some {text name source : List Char} :
    Block.splitBinding? text = some (name, source) ↔ BindingText text name source := by
  constructor
  · intro h
    unfold Block.splitBinding? at h
    simp only at h
    split at h
    · next first more rest hname hrest =>
      cases h
      generalize hs : text.dropWhile Text.isBlank = s at *
      have hne : s.takeWhile Block.isNameChar ≠ [] := by
        rw [hname]
        nofun
      have hbetween := List.takeWhile_append_dropWhile
        (p := Text.isBlank) (l := s.dropWhile Block.isNameChar)
      rw [hrest] at hbetween
      have happend : BindingText (text.takeWhile Text.isBlank ++ s.takeWhile Block.isNameChar ++
          (s.dropWhile Block.isNameChar).takeWhile Text.isBlank ++ ':' :: '=' :: rest) _ _ :=
        .mk mem_takeWhile hne mem_takeWhile mem_takeWhile
      rw [List.append_assoc, List.append_assoc, hbetween, List.takeWhile_append_dropWhile, ← hs,
        List.takeWhile_append_dropWhile, hs] at happend
      exact happend
    · cases h
  · intro h
    cases h with
    | @mk before name between rest hbefore hne hname hbetween =>
      obtain ⟨first, more, rfl⟩ := List.exists_cons_of_ne_nil hne
      have hcolon : ∀ c, (between ++ ':' :: '=' :: rest).head? = some c →
          ¬Block.isNameChar c := by
        intro c hc hnamed
        cases between with
        | nil =>
          cases hc
          exact absurd hnamed (by decide)
        | cons b between =>
          cases hc
          exact not_isBlank_of_isNameChar hnamed (hbetween _ List.mem_cons_self)
      have hfirst : ∀ c, (first :: more ++ (between ++ ':' :: '=' :: rest)).head? = some c →
          ¬Text.isBlank c := by
        rintro c ⟨⟩
        exact not_isBlank_of_isNameChar (hname _ List.mem_cons_self)
      have hend : ∀ c, (':' :: '=' :: rest).head? = some c → ¬Text.isBlank c := by
        rintro c ⟨⟩
        decide
      unfold Block.splitBinding?
      rw [List.append_assoc, List.append_assoc, dropWhile_append_stop hbefore hfirst]
      simp only
      rw [takeWhile_append_stop hname hcolon, dropWhile_append_stop hname hcolon,
        dropWhile_append_stop hbetween hend]
      rfl

/-! ### Building -/

theorem exists_build_of_wellFormed {o : Options} {v : Value} (h : WellFormed o v) :
    ∃ n, Node.build o v = .ok n := by
  simp only [Node.build_eq_ok]
  induction h with
  | null => exact ⟨_, .null⟩
  | bool b => exact ⟨_, .bool b⟩
  | number n => exact ⟨_, .number n⟩
  | string hmarkers =>
    obtain ⟨n, hn⟩ := Node.exists_ofText.2 hmarkers
    exact ⟨n, .string hn⟩
  | array _ ih =>
    simp only [← Node.build_eq_ok] at ih
    obtain ⟨nodes, hnodes⟩ := Node.exists_buildItems.2 ih
    exact ⟨_, .array hnodes⟩
  | plain hform _ ih =>
    simp only [← Node.build_eq_ok] at ih
    obtain ⟨nodes, hnodes⟩ := Node.exists_buildFields.2 ih
    exact ⟨_, .plain hform hnodes⟩
  | @conditional fields yes text no hform hblank hcondition _ _ ihyes ihno =>
    obtain ⟨yesNode, hyes⟩ := ihyes
    obtain ⟨noNode, hno⟩ : ∃ noNode, no.mapM (Node.build o) = .ok noNode := by
      cases no with
      | none => exact ⟨none, rfl⟩
      | some v =>
        obtain ⟨n, hn⟩ := ihno v rfl
        exact ⟨some n, map_eq_ok.2 ⟨n, Node.build_eq_ok.2 hn, rfl⟩⟩
    rw [← isSome_constantTruth?] at hcondition
    obtain ⟨b, hb⟩ : ∃ b, Block.ofCondition o text yesNode.toBlock (noNode.map Node.toBlock) =
        .ok b := Block.exists_ofCondition.2 ⟨hblank, hcondition⟩
    exact ⟨_, .conditional hform (Node.build_eq_ok.2 hyes) hno hb⟩
  | @iteration fields source names body hform hblank hcompiles _ ih =>
    obtain ⟨bodyNode, hbody⟩ := ih
    obtain ⟨b, hb⟩ : ∃ b, Block.ofIteration o source names bodyNode.toBlock = .ok b :=
      Block.exists_ofIteration.2 ⟨hblank, hcompiles⟩
    exact ⟨_, .iteration hform (Node.build_eq_ok.2 hbody) hb⟩
  | @binding fields text name source body hform htext hne hcompiles _ ih =>
    obtain ⟨bodyNode, hbody⟩ := ih
    obtain ⟨b, hb⟩ : ∃ b, Block.ofBinding o text bodyNode.toBlock = .ok b :=
      Block.exists_ofBinding.2 ⟨name, source, splitBinding?_eq_some.2 htext, hne, hcompiles⟩
    exact ⟨_, .binding hform (Node.build_eq_ok.2 hbody) hb⟩

theorem wellFormed_of_build {o : Options} {v : Value} {n : Node} (h : Node.build o v = .ok n) :
    WellFormed o v := by
  induction hsize : v.size using Nat.strongRecOn generalizing v n with
  | ind size ih =>
    subst hsize
    cases Node.build_eq_ok.1 h with
    | null => exact .null
    | bool b => exact .bool b
    | number n => exact .number n
    | string htext => exact .string (Node.exists_ofText.1 ⟨n, htext⟩)
    | array hnodes =>
      refine .array fun v hv => ?_
      obtain ⟨m, hm⟩ := Node.exists_buildItems.1 ⟨_, hnodes⟩ v hv
      exact ih _ (Value.size_lt_of_mem_items hv) hm rfl
    | plain hform hnodes =>
      refine .plain hform fun entry hentry => ?_
      obtain ⟨m, hm⟩ := Node.exists_buildFields.1 ⟨_, hnodes⟩ entry hentry
      exact ih _ (Value.size_lt_of_mem_fields hentry) hm rfl
    | conditional hform hyes hno hb =>
      obtain ⟨hblank, hcondition⟩ := Block.exists_ofCondition.1 ⟨_, hb⟩
      rw [isSome_constantTruth?] at hcondition
      refine .conditional hform hblank hcondition ?_ ?_
      · exact ih _ (Value.size_lt_of_hasForm hform List.mem_cons_self) hyes rfl
      · rintro v rfl
        obtain ⟨m, hm, -⟩ := map_eq_ok.1 hno
        have hlt : v.size < _ :=
          Value.size_lt_of_hasForm hform (List.mem_cons_of_mem _ List.mem_cons_self)
        exact ih _ hlt hm rfl
    | iteration hform hbody hb =>
      obtain ⟨hblank, hcompiles⟩ := Block.exists_ofIteration.1 ⟨_, hb⟩
      have hlt := Value.size_lt_of_hasForm hform List.mem_cons_self
      exact .iteration hform hblank hcompiles (ih _ hlt hbody rfl)
    | binding hform hbody hb =>
      obtain ⟨name, source, hsplit, hne, hcompiles⟩ := Block.exists_ofBinding.1 ⟨_, hb⟩
      have hlt := Value.size_lt_of_hasForm hform List.mem_cons_self
      exact .binding hform (splitBinding?_eq_some.1 hsplit) hne hcompiles (ih _ hlt hbody rfl)

/-- A document is built into a template exactly if it is well formed. -/
theorem build_ok_iff_wellFormed (o : Options) (v : Value) :
    (∃ n, Node.build o v = .ok n) ↔ WellFormed o v :=
  ⟨fun ⟨_, h⟩ => wellFormed_of_build h, exists_build_of_wellFormed⟩

end JsonTemplate
