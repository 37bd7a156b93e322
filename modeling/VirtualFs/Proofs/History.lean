import Mathlib.Data.List.Infix
import Mathlib.Data.List.Induction

namespace VirtualFs

variable {μ ω : Type}

/-- In the course of a history, of which `after` tells what each part of it leads to, a move was made
    at a moment of which something is true. -/
def Made (after : List μ → ω) (moves : List μ) (move : μ) (P : ω → Prop) : Prop :=
  ∃ earlier, earlier ++ [move] <+: moves ∧ P (after earlier)

/-- At some moment in the course of a history something was true. -/
def Seen (after : List μ → ω) (moves : List μ) (P : ω → Prop) : Prop :=
  ∃ earlier, earlier <+: moves ∧ P (after earlier)

variable {after : List μ → ω} {moves moves' : List μ} {move last : μ} {P : ω → Prop}

/-- What is past stays past. -/
theorem Made.mono (hmade : Made after moves move P) (hmoves : moves <+: moves') :
    Made after moves' move P := by
  obtain ⟨earlier, hearlier, hP⟩ := hmade
  exact ⟨earlier, hearlier.trans hmoves, hP⟩

theorem Seen.mono (hseen : Seen after moves P) (hmoves : moves <+: moves') :
    Seen after moves' P := by
  obtain ⟨earlier, hearlier, hP⟩ := hseen
  exact ⟨earlier, hearlier.trans hmoves, hP⟩

theorem seen_now (hP : P (after moves)) : Seen after moves P :=
  ⟨moves, List.prefix_refl _, hP⟩

theorem not_made_nil : ¬ Made after [] move P := by
  rintro ⟨earlier, hearlier, -⟩
  simp at hearlier

theorem made_append_singleton_iff :
    Made after (moves ++ [last]) move P ↔
      Made after moves move P ∨ move = last ∧ P (after moves) := by
  constructor
  · rintro ⟨earlier, hearlier, hP⟩
    rcases List.prefix_concat_iff.1 hearlier with hlast | hearlier
    · obtain ⟨rfl, hmove⟩ := List.append_inj' hlast rfl
      exact .inr ⟨by simpa using hmove, hP⟩
    · exact .inl ⟨earlier, hearlier, hP⟩
  · rintro (hmade | ⟨rfl, hP⟩)
    · exact hmade.mono (List.prefix_append _ _)
    · exact ⟨moves, List.prefix_refl _, hP⟩

theorem made_last (hP : P (after moves)) : Made after (moves ++ [move]) move P :=
  made_append_singleton_iff.2 (.inr ⟨rfl, hP⟩)

end VirtualFs
