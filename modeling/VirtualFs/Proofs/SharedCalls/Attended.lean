import VirtualFs.Proofs.SharedCalls.Run

namespace VirtualFs

open SharedCalls

variable {σ κ ω ν : Type}

namespace SharedCalls

/-- Somebody waits for a call, or it has come to its end. -/
def Call.Attended (call : Call κ ω ν) : Prop :=
  (∃ outcome, call.stage = .settled outcome) ∨ 0 < call.holders

/-- No unfinished work is left to itself. -/
def Attended (shared : SharedCalls κ ω ν) : Prop :=
  ∀ ⦃number : Nat⦄ ⦃call⦄, shared.calls[number]? = some call → call.Attended

theorem attended_empty : ({} : SharedCalls κ ω ν).Attended := by
  intro number call hcall
  simp at hcall

variable {shared : SharedCalls κ ω ν} {number : Nat}

/-- A change to one call, all others being attended. -/
theorem attended_onCall {change : Call κ ω ν → Call κ ω ν}
    (hothers : ∀ ⦃other call⦄, other ≠ number → shared.calls[other]? = some call → call.Attended)
    (hchange : ∀ {call}, shared.calls[number]? = some call → (change call).Attended) :
    (shared.onCall number change).Attended := by
  intro other call hcall
  simp only [onCall, List.getElem?_modify, Option.map_eq_map, Option.map_eq_some_iff] at hcall
  obtain ⟨old, hold, rfl⟩ := hcall
  by_cases hnumber : number = other
  · subst other
    simpa using hchange hold
  · rw [if_neg hnumber]
    exact hothers (Ne.symm hnumber) hold

theorem attended_settle {outcome : Outcome ν}
    (hothers : ∀ ⦃other call⦄, other ≠ number → shared.calls[other]? = some call → call.Attended) :
    (shared.settle number outcome).Attended :=
  attended_onCall hothers (fun _ => .inl ⟨outcome, rfl⟩)

section Moves

variable (conduct : Conduct σ κ ω ν) (s : σ)

theorem Attended.attach [BEq κ] (hattended : shared.Attended) (key : κ) (work : ω) :
    (shared.attach conduct key work s).2.1.Attended := by
  rw [SharedCalls.attach]
  split
  case h_1 => exact attended_onCall (fun _ _ _ => @hattended _ _) (fun _ => .inr (Nat.succ_pos _))
  case h_2 =>
    intro other call hcall
    simp only [SharedCalls.begin, List.getElem?_append] at hcall
    split at hcall
    · exact hattended hcall
    · obtain rfl := List.mem_singleton.1 (List.mem_of_getElem? hcall)
      exact .inr Nat.one_pos

theorem Attended.poll (hattended : shared.Attended) (number : Nat) :
    (shared.poll conduct number s).2.1.Attended := by
  rw [SharedCalls.poll]
  cases hcall : shared.calls[number]? with
  | none => exact hattended
  | some call =>
    cases hstage : call.stage with
    | settled outcome => simpa [hstage] using hattended
    | cancelled work =>
      simpa [hstage] using attended_settle (fun _ _ _ => @hattended _ _)
    | running work =>
      simp only [Option.map_some, hstage]
      split
      · refine attended_onCall (fun _ _ _ => @hattended _ _) fun hother => .inr ?_
        obtain ⟨outcome, hsettled⟩ | hheld := hattended hother
        · rw [hcall] at hother
          obtain rfl := Option.some.inj hother
          rw [hstage] at hsettled
          cases hsettled
        · exact hheld
      · exact attended_settle (fun _ _ _ => @hattended _ _)

/-- The last holder gives up what is unfinished. -/
theorem Attended.release (hattended : shared.Attended) (number : Nat) :
    (shared.release conduct number s).1.Attended := by
  rcases release_cases conduct s shared number with
    ⟨hrelease, hlast⟩ | ⟨call, work, -, -, -, hrelease⟩
  · rw [hrelease]
    refine attended_onCall (fun _ _ _ => @hattended _ _) fun {old} hcall => ?_
    rcases Nat.lt_or_ge 1 old.holders with hmany | hfew
    · exact .inr (Nat.sub_pos_of_lt hmany)
    · have hsettled := hlast hcall hfew
      exact .inl hsettled
  · rw [hrelease]
    refine attended_settle fun other call hother hcall => @hattended other call ?_
    simpa [onCall, Ne.symm hother] using hcall

theorem Attended.leave (hattended : shared.Attended) (ticket : Ticket) :
    (shared.leave conduct ticket s).1.Attended := by
  have hreleased := hattended.release conduct s ticket.call
  rw [SharedCalls.leave]
  cases ticket.role with
  | joiner => exact hreleased
  | starter =>
    refine attended_onCall (fun _ _ _ => @hreleased _ _) fun {old} hcall => ?_
    obtain ⟨outcome, hsettled⟩ | hheld := hreleased hcall
    · exact .inl ⟨outcome, by simp [hsettled, Stage.cancel]⟩
    · exact .inr hheld

end Moves

end SharedCalls

namespace Session

variable (conduct : Conduct σ κ ω ν) {session : Session σ κ ω ν}

theorem attended_consult (hattended : session.shared.Attended) (index : Nat) (ticket : Ticket) :
    (session.consult conduct index ticket).shared.Attended := by
  have hpolled := hattended.poll conduct session.surroundings ticket.call
  rw [consult]
  split
  case h_1 hnone => rwa [hnone] at hpolled
  case h_2 hsome =>
    rw [hsome] at hpolled
    exact hpolled.leave conduct _ ticket

/-- A call for which nobody waits has come to its end. -/
theorem exists_settled (hattended : session.shared.Attended)
    (hsound : session.shared.Sound session.tickets) {number : Nat} {key : κ} {stage : Stage ω ν}
    (hview : session.shared.view number = some (key, stage))
    (hnobody : ∀ {index : Nat} {role}, session.callers[index]? ≠ some (.holding ⟨number, role⟩)) :
    ∃ outcome, stage = .settled outcome := by
  obtain ⟨call, hcall, -, rfl⟩ := view_eq_some_iff.1 hview
  have hnone : ∀ role, session.tickets.count ⟨number, role⟩ = 0 := by
    refine fun role => Multiset.count_eq_zero_of_notMem fun hmem => ?_
    obtain ⟨caller, hcaller, hheld⟩ := mem_heldBy.1 hmem
    obtain ⟨index, hindex⟩ := List.mem_iff_getElem?.1 hcaller
    cases caller with
    | holding ticket =>
      obtain rfl := Option.some.inj hheld
      exact hnobody hindex
    | fresh key work => cases hheld
    | returned ticket outcome => cases hheld
    | dropped ticket => cases hheld
  refine (hattended hcall).resolve_right fun hheld => ?_
  rw [(hsound.call hcall).holders, hnone, hnone] at hheld
  exact Nat.lt_irrefl _ hheld

variable [BEq κ]

theorem attended_make (hattended : session.shared.Attended) (move : Move σ κ ω) :
    (session.make conduct move).shared.Attended := by
  cases move with
  | start key work => exact hattended
  | change change => exact hattended
  | turn index =>
    rw [make, turn]
    split
    · exact attended_consult conduct (hattended.attach conduct _ _ _) index _
    · exact attended_consult conduct hattended index _
    · exact hattended
  | drop index =>
    rw [make, drop]
    split
    · exact hattended
    · exact hattended.leave conduct _ _
    · exact hattended

end Session

end VirtualFs
