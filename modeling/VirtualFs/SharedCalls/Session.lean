import VirtualFs.SharedCalls

namespace VirtualFs

/-- A caller: not yet begun, holding a ticket, answered, or taken away. One at its end is remembered
    with the ticket that it held, if it got as far as that. -/
inductive Caller (κ ω ν : Type) where
  | fresh (key : κ) (work : ω)
  | holding (ticket : SharedCalls.Ticket)
  | returned (ticket : SharedCalls.Ticket) (outcome : Outcome ν)
  | dropped (ticket : Option SharedCalls.Ticket)

/-- Callers that take turns at shared calls, in the order in which they were started. -/
structure Session (σ κ ω ν : Type) where
  shared : SharedCalls κ ω ν := {}
  surroundings : σ
  callers : List (Caller κ ω ν) := []

namespace Session

variable {σ κ ω ν : Type}

/-- A caller takes part in a call with its first turn, not with its start. -/
def start (key : κ) (work : ω) (session : Session σ κ ω ν) : Session σ κ ω ν :=
  { session with callers := session.callers ++ [.fresh key work] }

/-- Look at a call for a caller. With the answer the caller lets go of its ticket. -/
def consult (conduct : Conduct σ κ ω ν) (index : Nat) (ticket : SharedCalls.Ticket)
    (session : Session σ κ ω ν) : Session σ κ ω ν :=
  match session.shared.poll conduct ticket.call session.surroundings with
  | (none, shared, surroundings) =>
    ⟨shared, surroundings, session.callers.set index (.holding ticket)⟩
  | (some outcome, shared, surroundings) =>
    match shared.leave conduct ticket surroundings with
    | (shared, surroundings) =>
      ⟨shared, surroundings, session.callers.set index (.returned ticket outcome)⟩

/-- Give a caller its turn. -/
def turn [BEq κ] (conduct : Conduct σ κ ω ν) (index : Nat) (session : Session σ κ ω ν) :
    Session σ κ ω ν :=
  match session.callers[index]? with
  | some (.fresh key work) =>
    match session.shared.attach conduct key work session.surroundings with
    | (ticket, shared, surroundings) =>
      consult conduct index ticket
        ⟨shared, surroundings, session.callers.set index (.holding ticket)⟩
  | some (.holding ticket) => consult conduct index ticket session
  | _ => session

/-- Take a caller away, whether or not it has begun. -/
def drop (conduct : Conduct σ κ ω ν) (index : Nat) (session : Session σ κ ω ν) :
    Session σ κ ω ν :=
  match session.callers[index]? with
  | some (.fresh _ _) => { session with callers := session.callers.set index (.dropped none) }
  | some (.holding ticket) =>
    match session.shared.leave conduct ticket session.surroundings with
    | (shared, surroundings) =>
      ⟨shared, surroundings, session.callers.set index (.dropped (some ticket))⟩
  | _ => session

/-- Something happens outside the callers, such as work becoming ready. -/
def onSurroundings (change : σ → σ) (session : Session σ κ ω ν) : Session σ κ ω ν :=
  { session with surroundings := change session.surroundings }

/-- Give every caller a turn, first come first served. -/
def settle [BEq κ] (conduct : Conduct σ κ ω ν) (session : Session σ κ ω ν) : Session σ κ ω ν :=
  (List.range session.callers.length).foldl
    (fun session index => session.turn conduct index) session

end Session

end VirtualFs
