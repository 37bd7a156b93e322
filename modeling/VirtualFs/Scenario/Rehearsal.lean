import VirtualFs.Call
import VirtualFs.Scenario.Script
import VirtualFs.World

namespace VirtualFs.Scenario

/-- How a build is to go about it: over a backend that is there, or one that is opened first. -/
inductive BuildPlan where
  | existing (config : Except Failure Config) (opener : Option Opener)
  | opening (config : Except Failure Config) (settings : String)

/-- What happens in one step. -/
inductive Action where
  | call (call : Call)
  | build (plan : BuildPlan)
  /-- A call that nobody knows. -/
  | unknown
  | seed (node : Node)
  /-- The store changes what it offers. -/
  | change (change : Store → Store)
  | rule (rule : Rule)
  | clearRules
  | resetVisits
  | release (gate : String)
  | drop (label : String)
  | dump
  | detect

/-- A step. One that does not settle leaves the tasks where they are. -/
structure Step where
  label : String
  settles : Bool
  action : Action

/-- What a task comes to. A call that nobody knows has no answer. -/
abbrev Result : Type :=
  Except Failure (Option Answer)

/-- What a step brought about. -/
structure Row where
  /-- The tasks that returned, if the step settled. -/
  done : Option (List (String × Result))
  calls : List String
  log : List LogEvent
  /-- A call came before there was a mount. -/
  unmounted : Bool := false
  dropped : Option Bool := none
  nodes : Option (List Node) := none
  /-- The capabilities on offer, if there is a mount to ask. -/
  capabilities : Option (Option (List Capability)) := none

abbrev Tasks : Type :=
  World Script.backend Result

/-- A rehearsal of the filesystem over a scripted store. -/
structure Rehearsal where
  world : Tasks
  /-- The labels of the tasks, in the order of their start. -/
  labels : List String := []
  /-- The mount that calls go to. -/
  mount : Option Mount := none

namespace Rehearsal

def ofScript (script : Script) : Rehearsal :=
  ⟨⟨⟨⟨script, []⟩, {}⟩, []⟩, [], none⟩

def script (rehearsal : Rehearsal) : Script :=
  rehearsal.world.scene.surroundings.state

def onScript (rehearsal : Rehearsal) (change : Script → Script) : Rehearsal :=
  { rehearsal with
    world := rehearsal.world.onSurroundings (fun s => { s with state := change s.state }) }

def onStore (rehearsal : Rehearsal) (change : Store → Store) : Rehearsal :=
  rehearsal.onScript (fun script => { script with store := change script.store })

def start (rehearsal : Rehearsal) (label : String) (operation : Operation (Option Answer)) :
    Rehearsal :=
  { rehearsal with
    world := rehearsal.world.start operation.run, labels := rehearsal.labels ++ [label] }

/-- Every build makes a mount of its own, whose listings are shared with no other. -/
def buildOperation (rehearsal : Rehearsal) : BuildPlan → Operation (Option Answer)
  | .existing config opener => do
    let config ← Operation.require config
    let mount ← Mount.build rehearsal.labels.length config opener
    pure (some (.mounted mount))
  | .opening config settings => do
    let config ← Operation.require config
    let mount ← Mount.buildFrom rehearsal.labels.length config settings
    pure (some (.mounted mount))

/-- The first unfinished task of a label. -/
def find? (rehearsal : Rehearsal) (label : String) : Option Nat :=
  (rehearsal.labels.zip rehearsal.world.tasks).findIdx?
    (fun (other, stage) => other = label && !stage.isFinished)

/-- A row in which nothing is known yet but what the step itself shows. -/
def emptyRow : Row :=
  ⟨none, [], [], false, none, none, none⟩

def startCall (rehearsal : Rehearsal) (label : String)
    (operation : Mount → Operation (Option Answer)) : Row × Rehearsal :=
  match rehearsal.mount with
  | some mount => (emptyRow, rehearsal.start label (operation mount))
  | none => ({ emptyRow with unmounted := true }, rehearsal)

def apply (rehearsal : Rehearsal) (label : String) : Action → Row × Rehearsal
  | .call call => rehearsal.startCall label (fun mount => some <$> call.operation mount)
  | .unknown => rehearsal.startCall label (fun _ => pure none)
  | .build plan => (emptyRow, rehearsal.start label (rehearsal.buildOperation plan))
  | .seed node =>
    (emptyRow, rehearsal.onStore (fun store => { store with nodes := store.nodes ++ [node] }))
  | .change change => (emptyRow, rehearsal.onStore change)
  | .rule rule =>
    (emptyRow, rehearsal.onScript (fun script => { script with rules := script.rules ++ [rule] }))
  | .clearRules => (emptyRow, rehearsal.onScript (fun script => { script with rules := [] }))
  | .resetVisits => (emptyRow, rehearsal.onScript (fun script => { script with visits := [] }))
  | .release gate =>
    (emptyRow, rehearsal.onScript (fun script =>
      { script with openGates := gate :: script.openGates }))
  | .drop label =>
    match rehearsal.find? label with
    | some index =>
      ({ emptyRow with dropped := some true },
        { rehearsal with world := rehearsal.world.drop index })
    | none => ({ emptyRow with dropped := some false }, rehearsal)
  | .dump => ({ emptyRow with nodes := some rehearsal.script.store.nodes }, rehearsal)
  | .detect =>
    ({ emptyRow with
        capabilities :=
          some (rehearsal.mount.map (fun _ => rehearsal.script.store.offer.capabilities)) },
      rehearsal)

/-- The tasks that returned between two moments, in the order of their start. -/
def returnedBetween (labels : List String) (before after : Tasks) : List (String × Result) :=
  (labels.zip after.tasks).zipIdx.filterMap (fun ((label, stage), index) =>
    match stage, before.tasks[index]? with
    | .returned _, some (.returned _) => none
    | .returned result, _ => some (label, result)
    | _, _ => none)

/-- The mount that the last of some builds made, or else the old one. -/
def latestMount (old : Option Mount) (done : List (String × Result)) : Option Mount :=
  done.foldl (fun mount result =>
    match result.2 with
    | .ok (some (.mounted new)) => some new
    | _ => mount) old

/-- Start a new page in journal and log. -/
def turnPage (rehearsal : Rehearsal) : Rehearsal :=
  { rehearsal with
    world := rehearsal.world.onSurroundings (fun s => ⟨{ s.state with journal := [] }, []⟩) }

/-- Take a step, let everyone go on as far as possible, and tell what happened. -/
def step (rehearsal : Rehearsal) (step : Step) : Row × Rehearsal :=
  let (row, applied) := rehearsal.apply step.label step.action
  let settled := if step.settles then { applied with world := applied.world.settle } else applied
  let done := returnedBetween settled.labels rehearsal.world settled.world
  let row : Row :=
    { row with
      done := if step.settles then some done else none
      calls := settled.script.journal
      log := settled.world.scene.surroundings.log }
  (row, { settled.turnPage with mount := latestMount settled.mount done })

def run (script : Script) (steps : List Step) : List Row :=
  (steps.foldl (fun (rows, rehearsal) next =>
    let (row, rehearsal) := step rehearsal next
    (rows ++ [row], rehearsal)) ([], ofScript script)).1

end Rehearsal

end VirtualFs.Scenario
