import VirtualFs.Backend

namespace VirtualFs

variable {σ τ ω ν : Type}

/-- One thing is true of what is left to do or another of the value that is ready. -/
def Poll.Tells (left : ω → Prop) (value : ν → Prop) : Poll ω ν → Prop
  | waiting work => left work
  | ready result => value result

/-- What can be counted on at a backend whose states show something in `τ`, as long as requests are
    put to certain uses only: what it may offer there, how a request that takes effect there may be
    answered, and what the effect may leave behind. There is always a use for listings. -/
structure Behaviour (τ : Type) where
  Uses : Request → τ → Prop
  lists : ∀ dir t, Uses (.list dir false) t
  offers : τ → Offer → Prop
  permits : (request : Request) → τ → request.Answer → τ → Prop

/-- A request has its effect at one moment and is owed its answer from then on. -/
inductive Behaviour.Moves (behaviour : Behaviour τ) (request : Request) :
    Option request.Answer → τ → Option request.Answer → τ → Prop
  | waits (owed : Option request.Answer) (t : τ) : Moves behaviour request owed t owed t
  | acts {t t' : τ} {answer : request.Answer}
      (permitted : behaviour.permits request t answer t') :
      Moves behaviour request none t (some answer) t'

/-- What a turn given to a request does to the backend and to what the request is owed. -/
def Backend.Brings (backend : Backend σ) (behaviour : Behaviour τ) (shows : σ → τ → Prop)
    (Owes : ∀ {request}, backend.Flight request → Option request.Answer → Prop) {request : Request}
    (before : Option request.Answer) (t : τ)
    (turn : Turn σ (backend.Flight request) request.Answer) : Prop :=
  ∃ after t', behaviour.Moves request before t after t' ∧ shows turn.state t' ∧
    turn.poll.Tells (fun flight => Owes flight after) (fun answer => after = some answer)

/-- A backend behaves in a certain way. Requests may take their time before their effect as well as
    after it, and one that is abandoned has no effect any more. -/
structure Realization (backend : Backend σ) (behaviour : Behaviour τ) where
  shows : σ → τ → Prop
  /-- Whether a request in flight has had its effect and, if so, the answer that it is owed. -/
  Owes : ∀ {request}, backend.Flight request → Option request.Answer → Prop
  offer : ∀ {s t}, shows s t → behaviour.offers t (backend.offer s)
  issue : ∀ {s t request}, behaviour.Uses request t → shows s t →
    backend.Brings behaviour shows Owes none t (backend.issue request s)
  resume : ∀ {s t request} {flight : backend.Flight request} {owed}, behaviour.Uses request t →
    Owes flight owed → shows s t →
    backend.Brings behaviour shows Owes owed t (backend.resume request flight s)
  abandon : ∀ {s t request} (flight : backend.Flight request), behaviour.Uses request t →
    shows s t → shows (backend.abandon request flight s) t

end VirtualFs
