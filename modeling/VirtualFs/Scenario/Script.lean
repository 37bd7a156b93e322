import VirtualFs.Scenario.Store

namespace VirtualFs.Scenario

/-- How a request shows up in the journal: the method called and the key it is called with. -/
structure Visit where
  method : String
  key : String
deriving DecidableEq

/-- A moment in the course of a request, before or after its effect. -/
inductive Moment where
  | before
  | after
deriving DecidableEq

/-- Something that happens to requests at a moment: they wait for a gate, or fail, or first the one
    and then the other. An `nth` of zero stands for every request, a key `*` for every key. -/
structure Rule where
  method : String
  key : String
  nth : Nat
  moment : Moment
  gate : Option String
  failure : Option Failure

namespace Rule

def applies (rule : Rule) (moment : Moment) (visit : Visit) (count : Nat) : Bool :=
  rule.moment = moment && rule.method = visit.method &&
    (rule.key = visit.key || rule.key = "*") && (rule.nth = 0 || rule.nth = count)

end Rule

/-- A store whose requests can be held up and made to fail. -/
structure Script where
  store : Store := {}
  /-- The time that the clock shows. It stands still during a scenario. -/
  clock : UInt64 := 1
  rules : List Rule := []
  visits : List Visit := []
  openGates : List String := []
  journal : List String := []

namespace Script

def write (script : Script) (line : String) : Script :=
  { script with journal := script.journal ++ [line] }

/-- A visit with its line in the journal. A request without one is no business of the rules. -/
def visit? : Request → Option Visit
  | .list dir _ => some ⟨"list", keyOf dir⟩
  | .link file => some ⟨"link", keyOf file⟩
  | .remove object => some ⟨"remove", keyOf object⟩
  | .makeDir parent name => some ⟨"mkdir", childKey (keyOf parent) name⟩
  | .makeDirReporting parent name => some ⟨"mkdir_result", childKey (keyOf parent) name⟩
  | .put .plain dir upload _ => some ⟨"put", childKey (keyOf dir) upload.object.name⟩
  | .put .reporting dir upload _ => some ⟨"put_result", childKey (keyOf dir) upload.object.name⟩
  | .get path => some ⟨"get", path.text⟩
  | .getRoot => some ⟨"get_root", "/"⟩
  | _ => none

def flag (value : Bool) : String :=
  if value then "true" else "false"

/-- Bytes as pairs of hexadecimal digits. -/
def hex (bytes : List UInt8) : String :=
  String.ofList (bytes.flatMap (fun byte =>
    [Nat.digitChar (byte.toNat / 16), Nat.digitChar (byte.toNat % 16)]))

/-- What the journal says of an upload besides its key: whether its times are the present, and
    whether it leaves its place to the store. -/
def uploadNote (script : Script) (upload : Upload) : String :=
  let object := upload.object
  let stamped := object.modified = object.created ∧ object.modified = script.clock
  let blank := object.id = "" ∧ object.path = "" ∧ object.isFolder = false
  " size=" ++ toString object.size ++ " data=" ++ hex upload.content ++
    " stamped=" ++ flag stamped ++ " blank=" ++ flag blank ++ " same=true"

def lineNote (script : Script) : Request → String
  | .list _ refresh => if refresh then " refresh" else ""
  | .put _ _ upload _ => script.uploadNote upload
  | _ => ""

/-- What is left to do for a request: rules still to be obeyed, and before its effect the number of
    visits that it makes complete, or after its effect the answer. -/
inductive Flight (request : Request) where
  | before (visit : Visit) (count : Nat) (rules : List Rule)
  | after (rules : List Rule) (answer : request.Answer)

/-- Obey rules in their order until a gate is closed or one of them fails the request. -/
def obey (gates : List String) : List Rule → Poll (List Rule) (Option Failure)
  | [] => .ready none
  | rule :: rules =>
    if rule.gate.all gates.contains then
      match rule.failure with
      | some failure => .ready (some failure)
      | none => obey gates rules
    else .waiting (rule :: rules)

/-- An upload that comes to a good end says so. -/
def closingProgress : (request : Request) → request.Answer → List Progress
  | .put .., .ok _ => [.finished]
  | _, _ => []

def openingProgress : Request → List Progress
  | .put .. => [.started]
  | _ => []

abbrev RequestTurn (request : Request) : Type :=
  Turn Script (Flight request) request.Answer

def answerWith (request : Request) (answer : request.Answer) (script : Script) :
    RequestTurn request :=
  ⟨.ready answer, closingProgress request answer, script⟩

/-- The last part of a request, its effect having taken place. -/
def conclude (request : Request) (rules : List Rule) (answer : request.Answer) (script : Script) :
    RequestTurn request :=
  match obey script.openGates rules with
  | .waiting rules => ⟨.waiting (.after rules answer), [], script⟩
  | .ready (some failure) => answerWith request (.error failure) script
  | .ready none => answerWith request (script.store.tell request answer) script

/-- A request up to its effect and, if nothing holds it up, to its end. The rules for the time after
    the effect are those that stand then. -/
def proceed (request : Request) (visit : Visit) (count : Nat) (rules : List Rule)
    (script : Script) : RequestTurn request :=
  match obey script.openGates rules with
  | .waiting rules => ⟨.waiting (.before visit count rules), [], script⟩
  | .ready (some failure) => answerWith request (.error failure) script
  | .ready none =>
    match script.store.effect request with
    | (answer, store) =>
      conclude request (script.rules.filter (·.applies .after visit count)) answer
        { script with store }

/-- A line for a request that no rule touches, if it is to be seen at all. -/
def asideLine? : Request → Option String
  | .openLink _ _ url _ => some ("open " ++ url)
  | .readRange (.remote _) range =>
    some ("range_read " ++ toString range.start ++ " " ++ range.length.elim "none" toString)
  | _ => none

def issue (request : Request) (script : Script) : RequestTurn request :=
  match visit? request with
  | none =>
    let script := (asideLine? request).elim script script.write
    match script.store.effect request with
    | (answer, store) => ⟨.ready answer, [], { script with store }⟩
  | some visit =>
    let script := script.write (visit.method ++ " " ++ visit.key ++ script.lineNote request)
    let script := { script with visits := visit :: script.visits }
    let count := script.visits.count visit
    let turn := proceed request visit count
      (script.rules.filter (·.applies .before visit count)) script
    { turn with progress := openingProgress request ++ turn.progress }

def resume (request : Request) (flight : Flight request) (script : Script) : RequestTurn request :=
  match flight with
  | .before visit count rules => proceed request visit count rules script
  | .after rules answer => conclude request rules answer script

def abandon (request : Request) (_ : Flight request) (script : Script) : Script :=
  match visit? request with
  | some visit => script.write (visit.method ++ " " ++ visit.key ++ " aborted")
  | none => script

/-- A scripted store as a backend. -/
def backend : Backend Script where
  Flight := Flight
  offer := fun script => script.store.offer
  now := fun script => script.clock
  issue := issue
  resume := resume
  abandon := abandon

end Script

end VirtualFs.Scenario
