import VirtualFs.Backend

namespace VirtualFs

/-- What all callers share: the backend with its log, and the listings in flight. -/
structure Scene {σ : Type} (backend : Backend σ) where
  surroundings : Surroundings σ
  listings : SharedCalls (Nat × Path) (ListingWork backend) Listing := {}

/-- Where a task stands: about to go on, waiting for an answer of its own, waiting for a listing
    that it shares, or at its end. -/
inductive Stage {σ : Type} (backend : Backend σ) (α : Type) where
  | ready (procedure : Procedure α)
  | asking (request : Request) (flight : backend.Flight request)
      (next : request.Answer → Procedure α)
  | sharing (ticket : SharedCalls.Ticket) (next : Outcome Listing → Procedure α)
  | returned (result : α)
  | dropped

namespace Stage

variable {σ : Type} {backend : Backend σ} {α : Type}

def isFinished : Stage backend α → Bool
  | returned _ => true
  | dropped => true
  | _ => false

/-- Carry a procedure on until it returns or has to wait. -/
def advance : Procedure α → Scene backend → Stage backend α × Scene backend
  | .done result, scene => (returned result, scene)
  | .log event next, scene =>
    advance next { scene with surroundings := scene.surroundings.note event }
  | .offer next, scene => advance (next (backend.offer scene.surroundings.state)) scene
  | .now next, scene => advance (next (backend.now scene.surroundings.state)) scene
  | .ask request next, scene =>
    let turn := backend.issue request scene.surroundings.state
    let scene := { scene with surroundings := scene.surroundings.after request turn }
    match turn.poll with
    | .waiting flight => (asking request flight next, scene)
    | .ready answer => advance (next answer) scene
  | .share plan next, scene =>
    let conduct := ListingWork.conduct backend
    match scene.listings.attach conduct plan.key (.planned plan) scene.surroundings with
    | (ticket, listings, surroundings) =>
      match listings.poll conduct ticket.call surroundings with
      | (none, listings, surroundings) => (sharing ticket next, ⟨surroundings, listings⟩)
      | (some outcome, listings, surroundings) =>
        match listings.leave conduct ticket surroundings with
        | (listings, surroundings) => advance (next outcome) ⟨surroundings, listings⟩

/-- Give a task its turn. -/
def turn : Stage backend α → Scene backend → Stage backend α × Scene backend
  | ready procedure, scene => advance procedure scene
  | asking request flight next, scene =>
    let turn := backend.resume request flight scene.surroundings.state
    let scene := { scene with surroundings := scene.surroundings.after request turn }
    match turn.poll with
    | .waiting flight => (asking request flight next, scene)
    | .ready answer => advance (next answer) scene
  | sharing ticket next, scene =>
    let conduct := ListingWork.conduct backend
    match scene.listings.poll conduct ticket.call scene.surroundings with
    | (none, listings, surroundings) => (sharing ticket next, ⟨surroundings, listings⟩)
    | (some outcome, listings, surroundings) =>
      match listings.leave conduct ticket surroundings with
      | (listings, surroundings) => advance (next outcome) ⟨surroundings, listings⟩
  | returned result, scene => (returned result, scene)
  | dropped, scene => (dropped, scene)

/-- Take a task away. A request of its own is abandoned, a shared listing is left to the others. -/
def drop : Stage backend α → Scene backend → Stage backend α × Scene backend
  | ready _, scene => (dropped, scene)
  | asking request flight _, scene =>
    let state := backend.abandon request flight scene.surroundings.state
    (dropped, { scene with surroundings := { scene.surroundings with state } })
  | sharing ticket _, scene =>
    match scene.listings.leave (ListingWork.conduct backend) ticket scene.surroundings with
    | (listings, surroundings) => (dropped, ⟨surroundings, listings⟩)
  | returned result, scene => (returned result, scene)
  | dropped, scene => (dropped, scene)

end Stage

/-- Tasks that take turns over one backend, in the order in which they were started. -/
structure World {σ : Type} (backend : Backend σ) (α : Type) where
  scene : Scene backend
  tasks : List (Stage backend α) := []

namespace World

variable {σ : Type} {backend : Backend σ} {α : Type}

/-- A task begins with its first turn, not with its start. -/
def start (world : World backend α) (procedure : Procedure α) : World backend α :=
  { world with tasks := world.tasks ++ [.ready procedure] }

/-- Let one task make a move. -/
def move (act : Stage backend α → Scene backend → Stage backend α × Scene backend)
    (index : Nat) (world : World backend α) : World backend α :=
  match world.tasks[index]? with
  | none => world
  | some stage =>
    match act stage world.scene with
    | (stage, scene) => ⟨scene, world.tasks.set index stage⟩

/-- Something happens outside the tasks. -/
def onSurroundings (change : Surroundings σ → Surroundings σ) (world : World backend α) :
    World backend α :=
  { world with scene := { world.scene with surroundings := change world.scene.surroundings } }

def turn (index : Nat) (world : World backend α) : World backend α :=
  move Stage.turn index world

def drop (index : Nat) (world : World backend α) : World backend α :=
  move Stage.drop index world

/-- Give every task a turn, first come first served. Nothing that a task does lets an earlier one go
    on, so after this none can until the backend changes. -/
def settle (world : World backend α) : World backend α :=
  (List.range world.tasks.length).foldl (fun world index => world.turn index) world

end World

end VirtualFs
