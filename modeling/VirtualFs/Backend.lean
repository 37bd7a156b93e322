import VirtualFs.Procedure

namespace VirtualFs

/-- The outcome of one moment of a backend's time given to a request: its answer or what is left to
    do, how far an upload came in between, and the backend's state afterwards. -/
structure Turn (σ φ α : Type) where
  poll : Poll φ α
  progress : List Progress := []
  state : σ

/-- A backend with states in `σ`. A request is issued once and gets its answer then or on a later
    turn. In between it is a flight, which can be abandoned. -/
structure Backend (σ : Type) where
  Flight : Request → Type
  offer : σ → Offer
  now : σ → UInt64
  issue : (request : Request) → σ → Turn σ (Flight request) request.Answer
  resume : (request : Request) → Flight request → σ → Turn σ (Flight request) request.Answer
  abandon : (request : Request) → Flight request → σ → σ

/-- A backend and the log that is kept beside it. -/
structure Surroundings (σ : Type) where
  state : σ
  log : List LogEvent := []

namespace Surroundings

variable {σ φ α : Type}

def note (s : Surroundings σ) (event : LogEvent) : Surroundings σ :=
  { s with log := s.log ++ [event] }

/-- Take over what a turn did. -/
def after (s : Surroundings σ) (request : Request) (turn : Turn σ φ α) : Surroundings σ :=
  ⟨turn.state, s.log ++ turn.progress.flatMap request.progressEvents⟩

end Surroundings

/-- The work behind a shared listing: one request, before it is issued or in flight. -/
inductive ListingWork {σ : Type} (backend : Backend σ) where
  | planned (plan : ListingPlan)
  | asked (plan : ListingPlan) (flight : backend.Flight plan.request)

namespace ListingWork

variable {σ : Type} {backend : Backend σ}

/-- What a turn given to the request means for the listing. -/
def afterTurn (plan : ListingPlan) (s : Surroundings σ)
    (turn : Turn σ (backend.Flight plan.request) plan.request.Answer) :
    Poll (ListingWork backend) Listing × Surroundings σ :=
  match turn.poll with
  | .waiting flight => (.waiting (.asked plan flight), s.after plan.request turn)
  | .ready answer => (.ready (plan.finish answer), s.after plan.request turn)

def resume : ListingWork backend → Surroundings σ →
    Poll (ListingWork backend) Listing × Surroundings σ
  | planned plan, s =>
    let s := s.note (.listing plan.dir)
    afterTurn plan s (backend.issue plan.request s.state)
  | asked plan flight, s => afterTurn plan s (backend.resume plan.request flight s.state)

def discard : ListingWork backend → Surroundings σ → Surroundings σ
  | planned _, s => s
  | asked plan flight, s => { s with state := backend.abandon plan.request flight s.state }

/-- How shared listings are carried out. Joining one leaves a line in the log. -/
def conduct (backend : Backend σ) :
    Conduct (Surroundings σ) (Nat × Path) (ListingWork backend) Listing where
  resume := resume
  discard := discard
  joined := fun key s => s.note (.joining key.2.text)

end ListingWork

end VirtualFs
