import JsonTemplate.Proofs.Diagnostics
import JsonTemplate.Proofs.Evaluation.Names
import JsonTemplate.Proofs.FieldNames

/-! Variables. The names that expressions look up are words without a meaning of their own, and
each such word is an expression on its own, with the value that the name has in the context. -/

namespace JsonTemplate

open Token (Kind)
open Grammar (Sentence)

/-- The name is a word, and no keyword. -/
def IsVariable (name : String) : Prop :=
  Lexer.IsName name.toList ∧ Keyword.ofText? name = none

/-! ### Names are tokens -/

namespace Lexer

variable {text rest : List Char} {kinds : List Kind} {name : String}

theorem Lexeme.isVariable (h : Lexeme text (.identifier name) rest) : IsVariable name := by
  generalize hkind : Kind.identifier name = kind at h
  cases h with
  | string | symbol => cases hkind
  | number _ _ _ hnumber =>
    rcases numberKind?_cases hnumber with ⟨_, rfl⟩ | ⟨_, rfl⟩ <;> cases hkind
  | @word first more _ hfirst hmore =>
    unfold Kind.ofWord at hkind
    split at hkind
    · cases hkind
    · next hkeyword =>
      cases hkind
      exact ⟨⟨first, more, String.toList_ofList, hfirst, hmore⟩, hkeyword⟩

theorem Spells.isVariable (h : Spells text kinds) (hname : .identifier name ∈ kinds) :
    IsVariable name := by
  induction h with
  | done => cases hname
  | token _ hlexeme _ ih =>
    rcases List.mem_cons.1 hname with rfl | hname
    · exact hlexeme.isVariable
    · exact ih hname

end Lexer

namespace Grammar

variable {ts : List Token}

/-- If the node looks up a name, the name is one of the tokens. -/
def Tells (ts : List Token) (e : Expr) : Prop :=
  ∀ name, e.lookedUp? = some name → .identifier name ∈ ts.map Token.kind

/-- What is to be shown of trees that may look up names. -/
def Telling : (n : Nonterminal) → List Token → n.Tree → Prop
  | .expr _, ts, e => Tells ts e
  | .items, _, _ | .entry, _, _ | .entries, _, _ => True

theorem Spelled.telling {n : Nonterminal} {tree : n.Tree} (h : Spelled n ts tree) :
    Telling n ts tree := by
  induction h with
  | identifier span name =>
    rintro _ ⟨⟩
    exact List.mem_cons_self
  | tighter _ _ ih => exact ih
  | literal h => cases h <;> nofun
  | chained _ hop => cases hop <;> nofun
  | noItems | lastItem | moreItems | entry | noEntries | lastEntry | moreEntries => trivial
  | _ => nofun

theorem Spelled.identifier_mem {e : Expr} {r : Rank} (h : Spelled (.expr r) ts e) {name : String}
    (hname : name ∈ e.identifiers) : .identifier name ∈ ts.map Token.kind := by
  obtain ⟨node, hnode, hlooked⟩ := List.mem_filterMap.1 hname
  obtain ⟨q, us, hus, hspelled⟩ := h.exists_infix _ hnode
  have htelling : Tells us node := hspelled.telling
  exact (hus.map Token.kind).subset (htelling name hlooked)

end Grammar

/-! ### Variables are expressions -/

namespace Program

variable {o : Options} {source name : String} {p : Program}

/-- A program looks up variables only. -/
theorem isVariable_of_mem_identifiers (hp : compile o source = .ok p)
    (hname : name ∈ p.expr.identifiers) : IsVariable name := by
  obtain ⟨-, -, hlexer, -, hexpr, -⟩ := compile_eq_ok_iff.1 hp
  have hfaults : (Lexer.lex source).2 = [] := Report.ofFaults_eq_empty.1 hlexer
  obtain ⟨r, ts, hts, -, hspelled⟩ := Parsing.exists_spelled hfaults hexpr
  obtain ⟨kinds, hspells, hkinds⟩ := (Lexer.laid_of_lex hfaults).exists_spells
  have hmem := List.map_subset Token.kind hts (hspelled.identifier_mem hname)
  rw [hkinds, List.mem_append] at hmem
  rcases hmem with hmem | hmem
  · exact hspells.isVariable hmem
  · cases List.mem_singleton.1 hmem

/-- A variable is a program that gives its value. -/
theorem exists_compile_variable (o : Options) (h : IsVariable name) :
    ∃ p, compile o name = .ok p ∧
      ∀ context, p.run context = .ok ((Scope.get? ⟨context, o.globals⟩ name).getD .null) := by
  have hkind : Kind.ofWord name = .identifier name := by rw [Kind.ofWord, h.2]
  have hspells : Lexer.Spells name.toList [.identifier name] := hkind ▸ Lexer.spells_word h.1
  have hsentence : Sentence [.identifier name] (.identifier default name) :=
    Grammar.Phrase.sentence (.tighter .access (.identifier default name))
  obtain ⟨p, hp, hrun⟩ :=
    exists_compile_of_sentence (o := o) hspells hsentence (by simp [nestingLimit]) fun _ => rfl
  rw [String.ofList_toList] at hp
  exact ⟨p, hp, hrun⟩

end Program

end JsonTemplate
