import VirtualFs.Proofs.SharedCalls.Run

namespace VirtualFs

variable {σ τ κ ω χ ν : Type}

def Poll.map (f : ω → χ) : Poll ω ν → Poll χ ν
  | waiting work => waiting (f work)
  | ready value => ready value

/-- Two ways to carry out work do the same, of which one keeps more than the other in the work and
    in the surroundings. -/
structure Conduct.Refines (fine : Conduct σ κ ω ν) (coarse : Conduct τ κ χ ν) (f : ω → χ)
    (g : σ → τ) : Prop where
  resume : ∀ work s, coarse.resume (f work) (g s) =
    ((fine.resume work s).1.map f, g (fine.resume work s).2)
  discard : ∀ work s, coarse.discard (f work) (g s) = g (fine.discard work s)
  joined : ∀ key s, coarse.joined key (g s) = g (fine.joined key s)

namespace SharedCalls

variable (f : ω → χ)

def Stage.map : Stage ω ν → Stage χ ν
  | running work => running (f work)
  | cancelled work => cancelled (f work)
  | settled outcome => settled outcome

def Call.map (call : Call κ ω ν) : Call κ χ ν :=
  ⟨call.key, call.stage.map f, call.holders⟩

/-- Calls with the same entries and holders, of which the work is seen in another form. -/
def map (shared : SharedCalls κ ω ν) : SharedCalls κ χ ν :=
  ⟨shared.calls.map (Call.map f), shared.entries⟩

@[simp] theorem getElem?_calls_map (shared : SharedCalls κ ω ν) (number : Nat) :
    (shared.map f).calls[number]? = shared.calls[number]?.map (Call.map f) := by
  simp [map]

@[simp] theorem length_calls_map (shared : SharedCalls κ ω ν) :
    (shared.map f).calls.length = shared.calls.length := by
  simp [map]

theorem map_onCall (change : Call κ ω ν → Call κ ω ν) (change' : Call κ χ ν → Call κ χ ν)
    (hchange : ∀ call, (change call).map f = change' (call.map f)) (shared : SharedCalls κ ω ν)
    (number : Nat) :
    (shared.onCall number change).map f = (shared.map f).onCall number change' := by
  have hcalls : (shared.calls.modify number change).map (Call.map f) =
      (shared.calls.map (Call.map f)).modify number change' := by
    refine List.ext_getElem? fun other => ?_
    simp only [List.getElem?_map, List.getElem?_modify, Option.map_eq_map, Option.map_map]
    refine congrArg (Option.map · shared.calls[other]?) (funext fun call => ?_)
    simp only [Function.comp_apply]
    split
    · exact hchange call
    · rfl
  simp only [map, onCall, hcalls]

theorem map_hold (shared : SharedCalls κ ω ν) (number : Nat) :
    (shared.onCall number Call.hold).map f = (shared.map f).onCall number Call.hold :=
  map_onCall f Call.hold Call.hold (fun _ => rfl) shared number

theorem map_unhold (shared : SharedCalls κ ω ν) (number : Nat) :
    (shared.onCall number Call.release).map f = (shared.map f).onCall number Call.release :=
  map_onCall f Call.release Call.release (fun _ => rfl) shared number

/-- A change of stage is the same change to the stage as it is seen. -/
theorem map_onStage (change : Stage ω ν → Stage ω ν) (change' : Stage χ ν → Stage χ ν)
    (hchange : ∀ stage, (change stage).map f = change' (stage.map f)) (shared : SharedCalls κ ω ν)
    (number : Nat) :
    (shared.onCall number (fun call => { call with stage := change call.stage })).map f =
      (shared.map f).onCall number (fun call => { call with stage := change' call.stage }) := by
  apply map_onCall
  exact fun call => congrArg (Call.mk call.key · call.holders) (hchange call.stage)

theorem map_continue (shared : SharedCalls κ ω ν) (number : Nat) (work : ω) :
    (shared.onCall number (fun call => { call with stage := .running work })).map f =
      (shared.map f).onCall number (fun call => { call with stage := .running (f work) }) :=
  map_onStage f (fun _ => .running work) (fun _ => .running (f work)) (fun _ => rfl) shared number

theorem map_settle (shared : SharedCalls κ ω ν) (number : Nat) (outcome : Outcome ν) :
    (shared.settle number outcome).map f = (shared.map f).settle number outcome :=
  congrArg (forget · number) (map_onStage f (fun _ => .settled outcome) (fun _ => .settled outcome)
    (fun _ => rfl) shared number)

theorem map_cancel (shared : SharedCalls κ ω ν) (number : Nat) :
    (shared.cancel number).map f = (shared.map f).cancel number :=
  congrArg (forget · number) (map_onStage f Stage.cancel Stage.cancel
    (fun stage => by cases stage <;> rfl) shared number)

theorem map_begin [BEq κ] (shared : SharedCalls κ ω ν) (key : κ) (work : ω) :
    (shared.begin key work).map f = (shared.map f).begin key (f work) := by
  simp [map, SharedCalls.begin, Call.map, Stage.map]

theorem joinable?_map [BEq κ] (shared : SharedCalls κ ω ν) (key : κ) :
    (shared.map f).joinable? key = shared.joinable? key := by
  simp only [joinable?, getElem?_calls_map, Option.any_map]
  rfl

section Moves

variable {f} {g : σ → τ} {fine : Conduct σ κ ω ν} {coarse : Conduct τ κ χ ν}

theorem attach_map [BEq κ] (hrefines : fine.Refines coarse f g) (shared : SharedCalls κ ω ν)
    (key : κ) (work : ω) (s : σ) :
    (shared.map f).attach coarse key (f work) (g s) =
      let entered := shared.attach fine key work s
      (entered.1, entered.2.1.map f, g entered.2.2) := by
  rw [attach, attach, joinable?_map]
  cases shared.joinable? key with
  | some number => simp [map_hold, hrefines.joined]
  | none => simp [map_begin]

theorem poll_map (hrefines : fine.Refines coarse f g) (shared : SharedCalls κ ω ν) (number : Nat)
    (s : σ) :
    (shared.map f).poll coarse number (g s) =
      let polled := shared.poll fine number s
      (polled.1, polled.2.1.map f, g polled.2.2) := by
  rw [poll, poll, getElem?_calls_map]
  cases shared.calls[number]? with
  | none => rfl
  | some call =>
    obtain ⟨key, stage, holders⟩ := call
    cases stage with
    | settled outcome => rfl
    | cancelled work => simp [Call.map, Stage.map, map_settle, hrefines.discard]
    | running work =>
      simp only [Option.map_some, Call.map, Stage.map, hrefines.resume]
      cases fine.resume work s with
      | mk result s' =>
        cases result with
        | waiting rest => simp [Poll.map, map_continue]
        | ready value => simp [Poll.map, map_settle]

theorem release_map (hrefines : fine.Refines coarse f g) (shared : SharedCalls κ ω ν)
    (number : Nat) (s : σ) :
    (shared.map f).release coarse number (g s) =
      let left := shared.release fine number s
      (left.1.map f, g left.2) := by
  simp only [release, ← map_unhold, getElem?_calls_map]
  cases (shared.onCall number Call.release).calls[number]? with
  | none => rfl
  | some call =>
    obtain ⟨key, stage, holders⟩ := call
    cases holders with
    | succ more => cases stage <;> rfl
    | zero =>
      cases stage with
      | settled outcome => rfl
      | cancelled work => simp [Call.map, Stage.map, map_settle, hrefines.discard]
      | running work => simp [Call.map, Stage.map, map_settle, hrefines.discard]

theorem leave_map (hrefines : fine.Refines coarse f g) (shared : SharedCalls κ ω ν)
    (ticket : Ticket) (s : σ) :
    (shared.map f).leave coarse ticket (g s) =
      let left := shared.leave fine ticket s
      (left.1.map f, g left.2) := by
  rw [leave, leave, release_map hrefines]
  cases ticket.role with
  | starter => simp [map_cancel]
  | joiner => rfl

end Moves

end SharedCalls

def Caller.map (f : ω → χ) : Caller κ ω ν → Caller κ χ ν
  | fresh key work => fresh key (f work)
  | holding ticket => holding ticket
  | returned ticket outcome => returned ticket outcome
  | dropped ticket => dropped ticket

namespace Session

variable {f : ω → χ} {g : σ → τ} {fine : Conduct σ κ ω ν} {coarse : Conduct τ κ χ ν}

/-- A session of which the works and the surroundings are seen in another form. -/
def map (f : ω → χ) (g : σ → τ) (session : Session σ κ ω ν) : Session τ κ χ ν :=
  ⟨session.shared.map f, g session.surroundings, session.callers.map (Caller.map f)⟩

theorem consult_map (hrefines : fine.Refines coarse f g) (session : Session σ κ ω ν) (index : Nat)
    (ticket : SharedCalls.Ticket) :
    (session.map f g).consult coarse index ticket =
      (session.consult fine index ticket).map f g := by
  simp only [consult, map, SharedCalls.poll_map hrefines]
  cases session.shared.poll fine ticket.call session.surroundings with
  | mk answer rest =>
    cases answer with
    | none => simp [List.map_set, Caller.map]
    | some outcome => simp [SharedCalls.leave_map hrefines, List.map_set, Caller.map]

theorem turn_map [BEq κ] (hrefines : fine.Refines coarse f g) (session : Session σ κ ω ν)
    (index : Nat) : (session.map f g).turn coarse index = (session.turn fine index).map f g := by
  have hcaller : (session.map f g).callers[index]? =
      session.callers[index]?.map (Caller.map f) := by
    simp [map]
  rw [turn, turn, hcaller]
  cases session.callers[index]? with
  | none => rfl
  | some caller =>
    cases caller with
    | returned ticket outcome => rfl
    | dropped ticket => rfl
    | holding ticket => exact consult_map hrefines session index ticket
    | fresh key work =>
      have hattach := SharedCalls.attach_map hrefines session.shared key work session.surroundings
      have hset : ∀ ticket, (session.map f g).callers.set index (.holding ticket) =
          (session.callers.set index (.holding ticket)).map (Caller.map f) := by
        simp [map, List.map_set, Caller.map]
      simp only [Option.map_some, Caller.map, hset]
      rw [show (session.map f g).shared = session.shared.map f from rfl,
        show (session.map f g).surroundings = g session.surroundings from rfl, hattach]
      exact consult_map hrefines
        ⟨_, _, session.callers.set index (.holding _)⟩ index _

theorem drop_map (hrefines : fine.Refines coarse f g) (session : Session σ κ ω ν) (index : Nat) :
    (session.map f g).drop coarse index = (session.drop fine index).map f g := by
  have hcaller : (session.map f g).callers[index]? =
      session.callers[index]?.map (Caller.map f) := by
    simp [map]
  rw [drop, drop, hcaller]
  cases session.callers[index]? with
  | none => rfl
  | some caller =>
    cases caller with
    | returned ticket outcome => rfl
    | dropped ticket => rfl
    | fresh key work => simp [map, List.map_set, Caller.map]
    | holding ticket =>
      simp [map, List.map_set, Caller.map, SharedCalls.leave_map hrefines]

end Session

end VirtualFs
