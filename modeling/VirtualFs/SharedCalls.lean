namespace VirtualFs

/-- What becomes of a shared call: its value, or word that the caller who began it went away. -/
inductive Outcome (ν : Type) where
  | value (value : ν)
  | aborted
deriving DecidableEq

/-- The answer to one attempt to go on with some work. -/
inductive Poll (ω ν : Type) where
  | waiting (work : ω)
  | ready (value : ν)

/-- How work is carried out in its surroundings `σ`: going on with it, giving it up before its end,
    and taking notice that another caller has joined. -/
structure Conduct (σ κ ω ν : Type) where
  resume : ω → σ → Poll ω ν × σ
  discard : ω → σ → σ
  joined : κ → σ → σ

namespace SharedCalls

/-- Where a shared call stands. A cancelled call still holds its work: nobody goes on with it, and
    the next holder to look at it gives it up. -/
inductive Stage (ω ν : Type) where
  | running (work : ω)
  | cancelled (work : ω)
  | settled (outcome : Outcome ν)

namespace Stage

variable {ω ν : Type}

/-- A call that is cancelled loses the prospect of a value, but not one that it has. -/
def cancel : Stage ω ν → Stage ω ν
  | running work => cancelled work
  | stage => stage

end Stage

/-- A call and the number of callers that wait for it. -/
structure Call (κ ω ν : Type) where
  key : κ
  stage : Stage ω ν
  holders : Nat

namespace Call

variable {κ ω ν : Type}

/-- A call with one more caller waiting for it. -/
def hold (call : Call κ ω ν) : Call κ ω ν :=
  { call with holders := call.holders + 1 }

/-- A call with one caller less waiting for it. -/
def release (call : Call κ ω ν) : Call κ ω ν :=
  { call with holders := call.holders - 1 }

end Call

/-- A call belongs to the caller that began it. The others only listen. -/
inductive Role where
  | starter
  | joiner
deriving DecidableEq

/-- What a caller holds while it waits: the number of its call and its part in it. -/
structure Ticket where
  call : Nat
  role : Role
deriving DecidableEq

end SharedCalls

/-- Calls in flight, one for each key. Whoever asks under a key that is in flight shares the call
    instead of beginning another. Calls are numbered in the order in which they begin. -/
structure SharedCalls (κ ω ν : Type) where
  calls : List (SharedCalls.Call κ ω ν) := []
  /-- The keys in flight and the numbers of their calls. -/
  entries : List (κ × Nat) := []

namespace SharedCalls

variable {σ κ ω ν : Type}

/-- The number of keys in flight. -/
def inFlight (shared : SharedCalls κ ω ν) : Nat :=
  shared.entries.length

def onCall (shared : SharedCalls κ ω ν) (number : Nat) (change : Call κ ω ν → Call κ ω ν) :
    SharedCalls κ ω ν :=
  { shared with calls := shared.calls.modify number change }

/-- Take a call off the map. Its number tells it from a newer call under the same key, whose entry
    stays. -/
def forget (shared : SharedCalls κ ω ν) (number : Nat) : SharedCalls κ ω ν :=
  { shared with entries := shared.entries.filter (fun entry => entry.2 ≠ number) }

/-- A call comes to its end and takes itself off the map. -/
def settle (shared : SharedCalls κ ω ν) (number : Nat) (outcome : Outcome ν) :
    SharedCalls κ ω ν :=
  (shared.onCall number (fun call => { call with stage := .settled outcome })).forget number

/-- Begin a call. Whatever the key stood for before, it now stands for the new call. -/
def begin [BEq κ] (shared : SharedCalls κ ω ν) (key : κ) (work : ω) : SharedCalls κ ω ν where
  calls := shared.calls ++ [⟨key, .running work, 1⟩]
  entries := (key, shared.calls.length) :: shared.entries.filter (fun entry => entry.1 != key)

/-- The call in flight under a key. An entry counts as long as somebody waits for its call. -/
def joinable? [BEq κ] (shared : SharedCalls κ ω ν) (key : κ) : Option Nat :=
  (shared.entries.lookup key).filter
    (fun number => shared.calls[number]?.any (fun call => 0 < call.holders))

/-- Join the call in flight under a key, or begin one. -/
def attach [BEq κ] (conduct : Conduct σ κ ω ν) (key : κ) (work : ω) (shared : SharedCalls κ ω ν)
    (s : σ) : Ticket × SharedCalls κ ω ν × σ :=
  match shared.joinable? key with
  | some number => (⟨number, .joiner⟩, shared.onCall number Call.hold, conduct.joined key s)
  | none => (⟨shared.calls.length, .starter⟩, shared.begin key work, s)

/-- Look at a call on behalf of one of its holders. Any holder may carry the work forward; a call
    that was cancelled is given up by the first one that looks. -/
def poll (conduct : Conduct σ κ ω ν) (number : Nat) (shared : SharedCalls κ ω ν) (s : σ) :
    Option (Outcome ν) × SharedCalls κ ω ν × σ :=
  match shared.calls[number]?.map Call.stage with
  | none => (none, shared, s)
  | some (.settled outcome) => (some outcome, shared, s)
  | some (.cancelled work) =>
    (some .aborted, shared.settle number .aborted, conduct.discard work s)
  | some (.running work) =>
    match conduct.resume work s with
    | (.waiting work, s) =>
      (none, shared.onCall number (fun call => { call with stage := .running work }), s)
    | (.ready value, s) => (some (.value value), shared.settle number (.value value), s)

/-- One holder of a call less. When the last one goes, unfinished work is given up at once. -/
def release (conduct : Conduct σ κ ω ν) (number : Nat) (shared : SharedCalls κ ω ν) (s : σ) :
    SharedCalls κ ω ν × σ :=
  let shared := shared.onCall number Call.release
  match shared.calls[number]? with
  | some ⟨_, .running work, 0⟩ => (shared.settle number .aborted, conduct.discard work s)
  | some ⟨_, .cancelled work, 0⟩ => (shared.settle number .aborted, conduct.discard work s)
  | _ => (shared, s)

/-- Cancel a call for those who still wait for it. A settled call keeps its outcome. -/
def cancel (shared : SharedCalls κ ω ν) (number : Nat) : SharedCalls κ ω ν :=
  (shared.onCall number (fun call => { call with stage := call.stage.cancel })).forget number

/-- Let go of a ticket, with the answer in hand or without it. A starter cancels its call when it
    goes, which changes nothing for anyone once the call is settled. -/
def leave (conduct : Conduct σ κ ω ν) (ticket : Ticket) (shared : SharedCalls κ ω ν) (s : σ) :
    SharedCalls κ ω ν × σ :=
  match shared.release conduct ticket.call s with
  | (shared, s) =>
    match ticket.role with
    | .starter => (shared.cancel ticket.call, s)
    | .joiner => (shared, s)

end SharedCalls

end VirtualFs
