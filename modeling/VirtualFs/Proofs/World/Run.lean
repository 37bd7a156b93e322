import VirtualFs.Call
import VirtualFs.Proofs.History
import VirtualFs.Proofs.SharedCalls.Held
import VirtualFs.Proofs.SharedCalls.View
import VirtualFs.World

namespace VirtualFs

open SharedCalls

variable {σ α : Type} {backend : Backend σ}

namespace Stage

/-- The ticket that a task holds while it shares a listing. -/
def held? : Stage backend α → Option Ticket
  | sharing ticket _ => some ticket
  | _ => none

@[simp] theorem held?_ready (procedure : Procedure α) :
    (ready procedure : Stage backend α).held? = none := rfl

@[simp] theorem held?_asking (request : Request) (flight : backend.Flight request)
    (next : request.Answer → Procedure α) :
    (asking request flight next : Stage backend α).held? = none := rfl

@[simp] theorem held?_sharing (ticket : Ticket) (next : Outcome Listing → Procedure α) :
    (sharing ticket next : Stage backend α).held? = some ticket := rfl

@[simp] theorem held?_returned (result : α) :
    (returned result : Stage backend α).held? = none := rfl

@[simp] theorem held?_dropped : (dropped : Stage backend α).held? = none := rfl

end Stage

namespace World

/-- What can happen next. Answers become ready, or anything else changes outside the tasks, between
    their turns. -/
inductive Move (σ : Type) where
  | turn (index : Nat)
  | drop (index : Nat)
  | change (change : Surroundings σ → Surroundings σ)

/-- Some procedures, none of which has begun yet. -/
def gather (surroundings : Surroundings σ) (procedures : List (Procedure α)) :
    World backend α :=
  ⟨⟨surroundings, {}⟩, procedures.map .ready⟩

/-- Some calls over one mount, none of which has begun yet. -/
def gatherCalls (surroundings : Surroundings σ) (mount : Mount) (calls : List Call) :
    World backend (Except Failure Answer) :=
  gather surroundings (calls.map (fun call => (call.operation mount).run))

def make (world : World backend α) : Move σ → World backend α
  | .turn index => world.turn index
  | .drop index => world.drop index
  | .change change => world.onSurroundings change

/-- The world after some moves, of which the first comes first. -/
def run (world : World backend α) (moves : List (Move σ)) : World backend α :=
  moves.foldl make world

theorem run_append_singleton (world : World backend α) (moves : List (Move σ)) (move : Move σ) :
    world.run (moves ++ [move]) = (world.run moves).make move := by
  simp [run]

/-- What a task has returned. -/
def result? (world : World backend α) (index : Nat) : Option α :=
  match world.tasks[index]? with
  | some (.returned result) => some result
  | _ => none

theorem result?_eq_some_iff {world : World backend α} {index : Nat} {result : α} :
    world.result? index = some result ↔ world.tasks[index]? = some (.returned result) := by
  rw [result?]
  constructor
  · intro hresult
    split at hresult
    case h_1 result' hstage => rw [hstage, Option.some.inj hresult]
    case h_2 => cases hresult
  · intro hstage
    rw [hstage]

/-- The entries that a call has come to. -/
def listed? : Except Failure Answer → Option (List Entry)
  | .ok (.entries entries) => some entries
  | _ => none

theorem listed?_eq_some_iff {result : Except Failure Answer} {entries : List Entry} :
    listed? result = some entries ↔ result = .ok (.entries entries) := by
  cases result with
  | error failure => simp [listed?]
  | ok answer => cases answer <;> simp [listed?]

/-- The one entry that a call has come to. -/
def found? : Except Failure Answer → Option Entry
  | .ok (.entry entry) => some entry
  | _ => none

theorem found?_eq_some_iff {result : Except Failure Answer} {entry : Entry} :
    found? result = some entry ↔ result = .ok (.entry entry) := by
  cases result with
  | error failure => simp [found?]
  | ok answer => cases answer <;> simp [found?]

/-- The tickets of the tasks that share a listing. -/
def tickets (world : World backend α) : Multiset Ticket :=
  heldBy Stage.held? world.tasks

section History

variable (world : World backend α) (moves : List (Move σ))

/-- A task has joined a listing that another one began. -/
def Joined (index number : Nat) : Prop :=
  Seen world.run moves (fun world => ∃ next,
    world.tasks[index]? = some (.sharing ⟨number, .joiner⟩ next))

/-- The task that began a listing was taken away before the listing came to its end. -/
def Forsaken (number : Nat) : Prop :=
  ∃ index, Made world.run moves (.drop index) (fun world =>
    (∃ next, world.tasks[index]? = some (.sharing ⟨number, .starter⟩ next)) ∧
      ∃ key work, world.scene.listings.view number = some (key, .running work))

/-- A task has joined a listing of which the starter was taken away before the end. -/
def Spoilt (index : Nat) : Prop :=
  ∃ number, world.Joined moves index number ∧ world.Forsaken moves number

end History

variable {world : World backend α} {moves moves' : List (Move σ)} {index number : Nat}

theorem Forsaken.mono (hforsaken : world.Forsaken moves number) (hmoves : moves <+: moves') :
    world.Forsaken moves' number := by
  obtain ⟨index, hmade⟩ := hforsaken
  exact ⟨index, hmade.mono hmoves⟩

theorem Spoilt.mono (hspoilt : world.Spoilt moves index) (hmoves : moves <+: moves') :
    world.Spoilt moves' index := by
  obtain ⟨number, hjoined, hforsaken⟩ := hspoilt
  exact ⟨number, Seen.mono hjoined hmoves, hforsaken.mono hmoves⟩

/-- Where nobody is taken away nothing is spoilt. -/
theorem Spoilt.exists_drop (hspoilt : world.Spoilt moves index) : ∃ other, .drop other ∈ moves := by
  obtain ⟨number, -, other, earlier, hearlier, -⟩ := hspoilt
  exact ⟨other, hearlier.subset (by simp)⟩

/-- A move is a move of one task, or of none. -/
theorem make_cases (world : World backend α) (move : Move σ) :
    (∃ change, move = .change change ∧ world.make move = world.onSurroundings change) ∨
    world.make move = world ∨
    ∃ index stage, world.tasks[index]? = some stage ∧
      ((move = .turn index ∧ world.make move =
          ⟨(stage.turn world.scene).2, world.tasks.set index (stage.turn world.scene).1⟩) ∨
        (move = .drop index ∧ world.make move =
          ⟨(stage.drop world.scene).2, world.tasks.set index (stage.drop world.scene).1⟩)) := by
  cases move with
  | change change => exact .inl ⟨change, rfl, rfl⟩
  | turn index =>
    cases hstage : world.tasks[index]? with
    | none => exact .inr (.inl (by simp [make, World.turn, World.move, hstage]))
    | some stage =>
      have hmake : world.make (.turn index) =
          ⟨(stage.turn world.scene).2, world.tasks.set index (stage.turn world.scene).1⟩ := by
        simp [make, World.turn, World.move, hstage]
      exact .inr (.inr ⟨index, stage, hstage, .inl ⟨rfl, hmake⟩⟩)
  | drop index =>
    cases hstage : world.tasks[index]? with
    | none => exact .inr (.inl (by simp [make, World.drop, World.move, hstage]))
    | some stage =>
      have hmake : world.make (.drop index) =
          ⟨(stage.drop world.scene).2, world.tasks.set index (stage.drop world.scene).1⟩ := by
        simp [make, World.drop, World.move, hstage]
      exact .inr (.inr ⟨index, stage, hstage, .inr ⟨rfl, hmake⟩⟩)

end World

end VirtualFs
