import JsonTemplate.Proofs.Grammar.Invariants

/-! Parsers go forward: consumed tokens do not come back, and the level of nesting at the end is
not lower than at the start. -/

namespace JsonTemplate

namespace ParserState

variable {s t u : ParserState}

/-- The first state leads to the second one: no token comes back, and no level below the first
one is reached or above the limit. -/
structure Leads (s t : ParserState) : Prop where
  length : t.rest.length ≤ s.rest.length
  depth : s.depth ≤ t.depth
  limit : s.depth ≤ nestingLimit → t.depth ≤ nestingLimit

theorem Leads.refl (s : ParserState) : s.Leads s := ⟨Nat.le_refl _, Nat.le_refl _, id⟩

theorem Leads.trans (h : s.Leads t) (h' : t.Leads u) : s.Leads u :=
  ⟨Nat.le_trans h'.length h.length, Nat.le_trans h.depth h'.depth, h'.limit ∘ h.limit⟩

theorem length_rest_next (s : ParserState) : s.next.rest.length = s.rest.length - 1 := by
  obtain ⟨_ | ⟨token, rest⟩, last, previous, depth, faults⟩ := s <;> rfl

theorem leads_next (s : ParserState) : s.Leads s.next := by
  refine ⟨?_, Nat.le_of_eq s.depth_next.symm, fun h => s.depth_next.symm ▸ h⟩
  rw [length_rest_next]
  exact Nat.sub_le _ _

theorem leads_report (s : ParserState) (fault : Fault) : s.Leads (s.report fault) :=
  ⟨Nat.le_refl _, Nat.le_refl _, id⟩

/-- Behind the last token there is no next one. -/
theorem next_eq_self (h : s.rest = []) : s.next = s := by
  rw [next, h]

end ParserState

namespace Parser

open ParserState (Leads leads_next leads_report)

/-- Wherever a parser comes to, its start leads there. -/
def Proceeds {α : Type} (p : Parser α) : Prop := ∀ s : ParserState, s.Leads (p s).2

theorem Proceeds.leads {α : Type} {p : Parser α} (h : Proceeds p) {s t : ParserState}
    {found : Option α} (hrun : p s = (found, t)) : s.Leads t := by
  have hleads := h s
  rwa [hrun] at hleads

theorem closed_proceeds : Closed Proceeds where
  pure _ s := .refl s
  bind {_ _ p _} hp hf s := by
    rw [bind_apply]
    split
    · next a t hrun => exact (hp.leads hrun).trans (hf a t)
    · next t hrun => exact hp.leads hrun
  kind s := .refl s
  following s := .refl s
  here s := .refl s
  previous s := .refl s
  advance s := leads_next s
  fail _ s := leads_report s _
  eat symbol s := by
    unfold eat
    split
    · exact leads_next s
    · exact .refl s
  expect symbol s := by
    unfold expect
    split
    · exact leads_next s
    · exact leads_report s _
  enter s := by
    unfold enter
    split
    · next hlt => exact ⟨Nat.le_refl _, Nat.le_succ _, fun _ => hlt⟩
    · exact leads_report s _
  restoring hp s := ⟨(hp s).length, Nat.le_refl _, id⟩
  nested {_ p} hp s := by
    by_cases hd : s.depth < nestingLimit
    · rw [nested_of_lt p hd]
      have hleads := hp { s with depth := s.depth + 1 }
      exact ⟨hleads.length, Nat.le_sub_one_of_lt hleads.depth,
        fun _ => Nat.le_trans (Nat.sub_le _ 1) (hleads.limit hd)⟩
    · rw [nested_of_not_lt p hd]
      exact leads_report s _
  chosen hf s := hf s s

end Parser

end JsonTemplate
