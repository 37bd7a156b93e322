import Mathlib.Data.List.Induction
import VirtualFs.Proofs.SharedCalls.Held
import VirtualFs.Proofs.SharedCalls.Sound
import VirtualFs.SharedCalls.Session

namespace VirtualFs

variable {σ κ ω ν : Type}

open SharedCalls

namespace Caller

/-- The ticket that a caller holds while it waits. -/
def held? : Caller κ ω ν → Option Ticket
  | holding ticket => some ticket
  | _ => none

@[simp] theorem held?_fresh (key : κ) (work : ω) : (fresh key work : Caller κ ω ν).held? = none :=
  rfl

@[simp] theorem held?_holding (ticket : Ticket) :
    (holding ticket : Caller κ ω ν).held? = some ticket := rfl

@[simp] theorem held?_returned (ticket : Ticket) (outcome : Outcome ν) :
    (returned ticket outcome : Caller κ ω ν).held? = none := rfl

@[simp] theorem held?_dropped (ticket : Option Ticket) :
    (dropped ticket : Caller κ ω ν).held? = none := rfl

/-- The ticket that a caller holds or held at its end. -/
def ticket? : Caller κ ω ν → Option Ticket
  | fresh _ _ => none
  | holding ticket => some ticket
  | returned ticket _ => some ticket
  | dropped ticket => ticket

/-- A caller is finished when it has returned or was taken away. -/
def IsFinished : Caller κ ω ν → Prop
  | returned _ _ => True
  | dropped _ => True
  | _ => False

end Caller

namespace Session

/-- What can happen next. Works become ready, or anything else changes outside the callers, between
    their turns. -/
inductive Move (σ κ ω : Type) where
  | start (key : κ) (work : ω)
  | turn (index : Nat)
  | drop (index : Nat)
  | change (change : σ → σ)

section Moves

variable [BEq κ] (conduct : Conduct σ κ ω ν)

def make (session : Session σ κ ω ν) : Move σ κ ω → Session σ κ ω ν
  | .start key work => session.start key work
  | .turn index => session.turn conduct index
  | .drop index => session.drop conduct index
  | .change change => session.onSurroundings change

/-- The session after some moves, of which the first comes first. -/
def run (session : Session σ κ ω ν) (moves : List (Move σ κ ω)) : Session σ κ ω ν :=
  moves.foldl (make conduct) session

theorem run_append_singleton (session : Session σ κ ω ν) (moves : List (Move σ κ ω))
    (move : Move σ κ ω) :
    session.run conduct (moves ++ [move]) = (session.run conduct moves).make conduct move := by
  simp [run]

end Moves

/-- The tickets of the callers that wait. -/
def tickets (session : Session σ κ ω ν) : Multiset Ticket :=
  heldBy Caller.held? session.callers

variable {conduct : Conduct σ κ ω ν} {session : Session σ κ ω ν} {index : Nat}

theorem exists_tickets_eq_cons {ticket : Ticket}
    (hcaller : session.callers[index]? = some (.holding ticket)) :
    ∃ others, session.tickets = ticket ::ₘ others := by
  obtain ⟨others, hbefore, -⟩ := exists_heldBy_others Caller.held? hcaller
  exact ⟨others, by simpa [tickets] using hbefore⟩

theorem drop_of_holding {ticket : Ticket}
    (hcaller : session.callers[index]? = some (.holding ticket)) :
    session.drop conduct index =
      let left := session.shared.leave conduct ticket session.surroundings
      ⟨left.1, left.2, session.callers.set index (.dropped (some ticket))⟩ := by
  rw [drop, hcaller]

/-- After a caller got its answer or was taken away, its ticket is not held any more. -/
private theorem sound_set_finished {surroundings : σ} {shared : SharedCalls κ ω ν}
    {caller caller' : Caller κ ω ν} {ticket : Ticket}
    (hcaller : session.callers[index]? = some caller) (hheld : caller.held? = some ticket)
    (hfinished : caller'.held? = none)
    (hsound : ∀ {others}, session.tickets = ticket ::ₘ others → shared.Sound others) :
    shared.Sound (tickets ⟨shared, surroundings, session.callers.set index caller'⟩) := by
  obtain ⟨others, hbefore, hafter⟩ := exists_heldBy_others Caller.held? hcaller
  rw [tickets, hafter, hfinished]
  simpa using hsound (by simpa [tickets, hheld] using hbefore)

theorem sound_consult {ticket : Ticket} (hsound : session.shared.Sound session.tickets)
    (hcaller : session.callers[index]? = some (.holding ticket)) :
    (session.consult conduct index ticket).shared.Sound
      (session.consult conduct index ticket).tickets := by
  have hpoll := hsound.poll conduct session.surroundings ticket.call
  obtain ⟨others, hbefore, hafter⟩ := exists_heldBy_others Caller.held? hcaller
  have hsame : heldBy Caller.held? (session.callers.set index (.holding ticket)) =
      session.tickets := by
    rw [tickets, hafter, hbefore]
  rw [consult]
  split
  case h_1 hnone =>
    rw [hnone] at hpoll
    rw [tickets, hsame]
    exact hpoll
  case h_2 outcome shared surroundings hsome =>
    rw [hsome] at hpoll
    refine sound_set_finished hcaller rfl rfl fun {others} hothers => ?_
    rw [hothers] at hpoll
    exact hpoll.leave conduct surroundings

variable [BEq κ]

/-- A caller's first turn is the one in which it takes part in a call. -/
theorem turn_of_fresh {key : κ} {work : ω}
    (hcaller : session.callers[index]? = some (.fresh key work)) :
    session.turn conduct index =
      let entered := session.shared.attach conduct key work session.surroundings
      consult conduct index entered.1
        ⟨entered.2.1, entered.2.2, session.callers.set index (.holding entered.1)⟩ := by
  rw [turn, hcaller]

theorem turn_of_holding {ticket : Ticket}
    (hcaller : session.callers[index]? = some (.holding ticket)) :
    session.turn conduct index = session.consult conduct index ticket := by
  rw [turn, hcaller]

variable [LawfulBEq κ]

variable (conduct) in
/-- A caller that takes part in a call holds the ticket that it was given. -/
theorem sound_entered (hsound : session.shared.Sound session.tickets) {key : κ} {work : ω}
    (hcaller : session.callers[index]? = some (.fresh key work)) :
    let entered := session.shared.attach conduct key work session.surroundings
    entered.2.1.Sound (tickets
      ⟨entered.2.1, entered.2.2, session.callers.set index (.holding entered.1)⟩) := by
  have hattach := hsound.attach conduct session.surroundings key work
  obtain ⟨others, hbefore, hafter⟩ := exists_heldBy_others Caller.held? hcaller
  rw [tickets, hbefore] at hattach
  simp only [tickets, hafter]
  simpa using hattach

variable (conduct) in
theorem sound_make (hsound : session.shared.Sound session.tickets) (move : Move σ κ ω) :
    (session.make conduct move).shared.Sound (session.make conduct move).tickets := by
  cases move with
  | start key work =>
    have hnone : heldBy Caller.held? [(.fresh key work : Caller κ ω ν)] = 0 := rfl
    simpa [make, start, tickets, heldBy_append, hnone] using hsound
  | change change => exact hsound
  | turn index =>
    rw [make]
    cases hcaller : session.callers[index]? with
    | none => simpa [turn, hcaller] using hsound
    | some caller =>
      cases caller with
      | fresh key work =>
        rw [turn_of_fresh hcaller]
        have hindex := (List.getElem?_eq_some_iff.1 hcaller).1
        exact sound_consult (sound_entered conduct hsound hcaller) (by simp [hindex])
      | holding ticket =>
        rw [turn_of_holding hcaller]
        exact sound_consult hsound hcaller
      | returned ticket outcome => simpa [turn, hcaller] using hsound
      | dropped ticket => simpa [turn, hcaller] using hsound
  | drop index =>
    rw [make]
    cases hcaller : session.callers[index]? with
    | none => simpa [drop, hcaller] using hsound
    | some caller =>
      cases caller with
      | fresh key work =>
        obtain ⟨others, hbefore, hafter⟩ := exists_heldBy_others Caller.held? hcaller
        rw [tickets, hbefore] at hsound
        simpa [drop, hcaller, tickets, hafter] using hsound
      | holding ticket =>
        rw [drop_of_holding hcaller]
        refine sound_set_finished hcaller rfl rfl fun {others} hothers => ?_
        rw [hothers] at hsound
        exact hsound.leave conduct session.surroundings
      | returned ticket outcome => simpa [drop, hcaller] using hsound
      | dropped ticket => simpa [drop, hcaller] using hsound

/-- Calls, map and tickets fit together at every moment of a session. -/
theorem sound_run (conduct : Conduct σ κ ω ν) (surroundings : σ) (moves : List (Move σ κ ω)) :
    (run conduct { surroundings } moves).shared.Sound
      (run conduct { surroundings } moves).tickets := by
  induction moves using List.reverseRecOn with
  | nil => exact sound_empty
  | append_singleton moves move ih =>
    rw [run_append_singleton]
    exact sound_make conduct ih move

end Session

end VirtualFs
