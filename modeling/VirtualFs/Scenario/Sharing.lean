import VirtualFs.SharedCalls.Session
import VirtualFs.LogEvent

namespace VirtualFs.Scenario

/-- Work that waits for a release of its name and then yields a value. -/
structure GatedWork where
  name : String
  value : String
  begun : Bool := false

/-- What is released, and what became known so far. -/
structure Yard where
  released : List String := []
  journal : List String := []
  log : List LogEvent := []

namespace GatedWork

def resume (work : GatedWork) (yard : Yard) : Poll GatedWork String × Yard :=
  let yard :=
    if work.begun then yard else { yard with journal := yard.journal ++ ["begin " ++ work.name] }
  if yard.released.contains work.name then
    (.ready work.value, { yard with journal := yard.journal ++ ["finish " ++ work.name] })
  else (.waiting { work with begun := true }, yard)

/-- Only work that has begun leaves a trace when it is given up. -/
def discard (work : GatedWork) (yard : Yard) : Yard :=
  if work.begun then { yard with journal := yard.journal ++ ["abort " ++ work.name] } else yard

def conduct : Conduct Yard String GatedWork String where
  resume := resume
  discard := discard
  joined := fun key yard => { yard with log := yard.log ++ [.joining key] }

end GatedWork

/-- One step of a rehearsal of shared calls. -/
inductive SharingStep where
  | start (name key value : String)
  | release (name : String)
  | drop (name : String)

/-- What a step brought about. -/
structure SharingRow where
  done : List (String × Outcome String)
  work : List String
  inFlight : Nat
  log : List LogEvent

/-- A rehearsal of shared calls: its callers by name, in the order of their start. -/
structure SharingRehearsal where
  session : Session Yard String GatedWork String := { surroundings := {} }
  names : List String := []

namespace SharingRehearsal

def isUnfinished : Caller String GatedWork String → Bool
  | .fresh _ _ => true
  | .holding _ => true
  | _ => false

/-- The first unfinished caller of a name. -/
def find? (rehearsal : SharingRehearsal) (name : String) : Option Nat :=
  (rehearsal.names.zip rehearsal.session.callers).findIdx?
    (fun (other, caller) => other = name && isUnfinished caller)

def apply (rehearsal : SharingRehearsal) : SharingStep → SharingRehearsal
  | .start name key value =>
    { session := rehearsal.session.start key { name, value }, names := rehearsal.names ++ [name] }
  | .release name =>
    let session := rehearsal.session
    let yard := session.surroundings
    { rehearsal with
      session := { session with surroundings := { yard with released := name :: yard.released } } }
  | .drop name =>
    match rehearsal.find? name with
    | some index => { rehearsal with session := rehearsal.session.drop GatedWork.conduct index }
    | none => rehearsal

/-- The callers that returned between two moments, in the order of their start. -/
def returnedBetween (names : List String) (before after : List (Caller String GatedWork String)) :
    List (String × Outcome String) :=
  ((names.zip after).zipIdx.filterMap (fun ((name, caller), index) =>
    match caller, before[index]? with
    | .returned _ _, some (.returned _ _) => none
    | .returned _ outcome, _ => some (name, outcome)
    | _, _ => none))

/-- Take a step, let everyone go on as far as possible, and tell what happened. -/
def step (rehearsal : SharingRehearsal) (action : SharingStep) : SharingRow × SharingRehearsal :=
  let started := rehearsal.apply action
  let session := started.session.settle GatedWork.conduct
  let yard := session.surroundings
  ({ done := returnedBetween started.names rehearsal.session.callers session.callers,
     work := yard.journal,
     inFlight := session.shared.inFlight,
     log := yard.log },
   { started with
     session := { session with surroundings := { yard with journal := [], log := [] } } })

def run (steps : List SharingStep) : List SharingRow :=
  (steps.foldl (fun (rows, rehearsal) action =>
    let (row, rehearsal) := step rehearsal action
    (rows ++ [row], rehearsal)) (([], {}) : List SharingRow × SharingRehearsal)).1

end SharingRehearsal

end VirtualFs.Scenario
