import Mathlib.Logic.Relation
import VirtualFs.Proofs.SharedCalls.Step

namespace VirtualFs

open SharedCalls

variable {σ κ ω ν : Type}

namespace SharedCalls

/-- What can happen to one call, and to the surroundings with it: its work is carried forward, or to
    its end, the call is cancelled, or its unfinished work is given up. -/
inductive Stage.Step (conduct : Conduct σ κ ω ν) : Stage ω ν → σ → Stage ω ν → σ → Prop
  | carried {work rest s s'} (resume : conduct.resume work s = (.waiting rest, s')) :
      Step conduct (running work) s (running rest) s'
  | finished {work value s s'} (resume : conduct.resume work s = (.ready value, s')) :
      Step conduct (running work) s (settled (.value value)) s'
  | cancelled {work s} : Step conduct (running work) s (cancelled work) s
  | abandoned {work s} : Step conduct (running work) s (settled .aborted) (conduct.discard work s)
  | givenUp {work s} : Step conduct (cancelled work) s (settled .aborted) (conduct.discard work s)

/-- What one of its holders can do about a call: nothing that can be seen, or one step. -/
inductive Step (conduct : Conduct σ κ ω ν) (number : Nat) (before : SharedCalls κ ω ν) (s : σ)
    (after : SharedCalls κ ω ν) : σ → Prop
  | unseen (same : after.view = before.view) : Step conduct number before s after s
  | seen {key stage stage' s'} (view : before.view number = some (key, stage))
      (step : stage.Step conduct s stage' s')
      (update : ∀ other, after.view other =
        if other = number then some (key, stage') else before.view other) :
      Step conduct number before s after s'

variable (conduct : Conduct σ κ ω ν) (s : σ)

theorem step_poll (shared : SharedCalls κ ω ν) (number : Nat) :
    shared.Step conduct number s (shared.poll conduct number s).2.1
      (shared.poll conduct number s).2.2 := by
  have hlook := look_poll conduct s shared number
  generalize shared.poll conduct number s = polled at hlook ⊢
  cases hlook with
  | absent => exact .unseen rfl
  | settled => exact .unseen rfl
  | givenUp hview => exact .seen hview .givenUp (view_settle_of_view hview _)
  | carried hview hresume => exact .seen hview (.carried hresume) (view_resume_of_view hview _)
  | finished hview hresume => exact .seen hview (.finished hresume) (view_settle_of_view hview _)

theorem Sound.step_leave {shared : SharedCalls κ ω ν} {held : Multiset Ticket} {ticket : Ticket}
    (hsound : shared.Sound (ticket ::ₘ held)) :
    shared.Step conduct ticket.call s (shared.leave conduct ticket s).1
      (shared.leave conduct ticket s).2 := by
  rcases hsound.leave_cases conduct s with
    ⟨hsame, hs, -⟩ | ⟨key, work, stage, ⟨-, hview⟩ | hview, hupdate, ⟨rfl, hs⟩ | ⟨rfl, hs⟩⟩
  · rw [hs]
    exact .unseen hsame
  · rw [hs]
    exact .seen hview .cancelled hupdate
  · rw [hs]
    exact .seen hview .abandoned hupdate
  · -- The call was cancelled before and stays so.
    rw [hs]
    refine .unseen (funext fun other => ?_)
    rw [hupdate]
    split
    case isTrue hnumber => rw [hnumber, hview]
    case isFalse => rfl
  · rw [hs]
    exact .seen hview .givenUp hupdate

end SharedCalls

namespace Session

/-- The small steps that a turn of a caller, or taking it away, is made of. A caller does something
    about its call, it takes part in one that is running, it begins one, or it goes before it took
    part in any. -/
inductive Step [BEq κ] (conduct : Conduct σ κ ω ν) (session : Session σ κ ω ν) :
    Session σ κ ω ν → Prop
  | acting {index ticket caller shared s}
      (held : session.callers[index]? = some (.holding ticket))
      (kept : caller.ticket? = some ticket)
      (step : session.shared.Step conduct ticket.call session.surroundings shared s) :
      Step conduct session ⟨shared, s, session.callers.set index caller⟩
  | joining {index key own number shared}
      (fresh : session.callers[index]? = some (.fresh key own))
      (same : shared.view = session.shared.view) :
      Step conduct session ⟨shared, conduct.joined key session.surroundings,
        session.callers.set index (.holding ⟨number, .joiner⟩)⟩
  | beginning {index key own}
      (fresh : session.callers[index]? = some (.fresh key own)) :
      Step conduct session ⟨session.shared.begin key own, session.surroundings,
        session.callers.set index (.holding ⟨session.shared.calls.length, .starter⟩)⟩
  | withdrawing {index key own}
      (fresh : session.callers[index]? = some (.fresh key own)) :
      Step conduct session { session with callers := session.callers.set index (.dropped none) }

/-- Any number of small steps. -/
def Steps [BEq κ] (conduct : Conduct σ κ ω ν) : Session σ κ ω ν → Session σ κ ω ν → Prop :=
  Relation.ReflTransGen (Step conduct)

variable [BEq κ] (conduct : Conduct σ κ ω ν) {session : Session σ κ ω ν} {index : Nat}

theorem step_consult {ticket : Ticket}
    (hcaller : session.callers[index]? = some (.holding ticket)) :
    session.Step conduct (session.consult conduct index ticket) := by
  have hpoll := step_poll conduct session.surroundings session.shared ticket.call
  rw [consult]
  split
  case h_1 hnone =>
    rw [hnone] at hpoll
    exact .acting hcaller rfl hpoll
  case h_2 outcome shared s hsome =>
    rw [hsome] at hpoll
    obtain ⟨key, hview⟩ := view_of_poll hsome
    obtain ⟨hleft, hs⟩ := leave_of_settled conduct s ticket hview
    have hstep : session.shared.Step conduct ticket.call session.surroundings
        (shared.leave conduct ticket s).1 (shared.leave conduct ticket s).2 := by
      rw [hs]
      cases hpoll with
      | unseen same => exact .unseen (hleft.trans same)
      | seen view step update => exact .seen view step fun other => hleft ▸ update other
    exact .acting hcaller rfl hstep

theorem step_drop {ticket : Ticket} (hsound : session.shared.Sound session.tickets)
    (hcaller : session.callers[index]? = some (.holding ticket)) :
    session.Step conduct (session.drop conduct index) := by
  obtain ⟨others, htickets⟩ := exists_tickets_eq_cons hcaller
  rw [htickets] at hsound
  rw [drop_of_holding hcaller]
  exact .acting hcaller rfl (hsound.step_leave conduct session.surroundings)

theorem steps_drop (hsound : session.shared.Sound session.tickets) (index : Nat) :
    session.Steps conduct (session.drop conduct index) := by
  cases hcaller : session.callers[index]? with
  | none =>
    simp only [drop, hcaller]
    exact .refl
  | some caller =>
    cases caller with
    | returned ticket outcome =>
      simp only [drop, hcaller]
      exact .refl
    | dropped ticket =>
      simp only [drop, hcaller]
      exact .refl
    | fresh key own =>
      simp only [drop, hcaller]
      exact .single (.withdrawing hcaller)
    | holding ticket => exact .single (step_drop conduct hsound hcaller)

variable [LawfulBEq κ]

theorem steps_turn (hsound : session.shared.Sound session.tickets) (index : Nat) :
    session.Steps conduct (session.turn conduct index) := by
  cases hcaller : session.callers[index]? with
  | none =>
    simp only [turn, hcaller]
    exact .refl
  | some caller =>
    cases caller with
    | returned ticket outcome =>
      simp only [turn, hcaller]
      exact .refl
    | dropped ticket =>
      simp only [turn, hcaller]
      exact .refl
    | holding ticket =>
      rw [turn_of_holding hcaller]
      exact .single (step_consult conduct hcaller)
    | fresh key own =>
      have hindex := (List.getElem?_eq_some_iff.1 hcaller).1
      rw [turn_of_fresh hcaller]
      refine .tail (.single ?_) (step_consult conduct (by simp [hindex]))
      rcases hsound.attach_cases conduct session.surroundings key own with
        ⟨number, other, -, hattach⟩ | ⟨-, hattach⟩
      · rw [hattach]
        exact .joining hcaller (view_hold _ _)
      · rw [hattach]
        exact .beginning hcaller

end Session

end VirtualFs
