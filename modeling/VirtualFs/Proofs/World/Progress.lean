import VirtualFs.Proofs.World.Fair
import VirtualFs.Proofs.World.Task

namespace VirtualFs

open SharedCalls

variable {σ α : Type} {backend : Backend σ}

namespace ListingWork

/-- The request of a listing under the key is on its way to the backend. -/
def IsAsked (key : Nat × Path) (work : ListingWork backend) : Prop :=
  ∃ plan flight, work = .asked plan flight ∧ plan.key = key

/-- Work that is gone on with either comes to its end or waits for its request. -/
theorem isAsked_of_waiting {work rest : ListingWork backend} {s : Surroundings σ}
    (hresume : (work.resume s).1 = .waiting rest) : rest.IsAsked work.plan.key := by
  cases work with
  | planned plan =>
    simp only [resume, afterTurn] at hresume
    split at hresume
    · cases hresume
      exact ⟨plan, _, rfl, rfl⟩
    · cases hresume
  | asked plan flight =>
    simp only [resume, afterTurn] at hresume
    split at hresume
    · cases hresume
      exact ⟨plan, _, rfl, rfl⟩
    · cases hresume

/-- Work that waits for its request waits because the backend does not answer it. -/
theorem poll_of_waiting {plan : ListingPlan} {flight : backend.Flight plan.request}
    {rest : ListingWork backend} {s : Surroundings σ}
    (hresume : ((asked plan flight).resume s).1 = .waiting rest) :
    ∃ flight', (backend.resume plan.request flight s.state).poll = .waiting flight' := by
  simp only [resume, afterTurn] at hresume
  split at hresume
  case h_1 flight' hpoll => exact ⟨flight', hpoll⟩
  case h_2 => cases hresume

/-- A shared listing that is unfinished is one request of the backend, and nothing besides. -/
def OneRequest (key : Nat × Path) : SharedCalls.Stage (ListingWork backend) Listing → Prop
  | .running work => work.IsAsked key
  | .cancelled work => work.IsAsked key
  | .settled _ => True

end ListingWork

namespace Stage

/-- A task waits for a request of its own or for that of a shared listing. -/
def Awaits (listings : SharedCalls (Nat × Path) (ListingWork backend) Listing) :
    Stage backend α → Prop
  | asking _ _ _ => True
  | sharing ticket _ => ∃ key work, listings.view ticket.call = some (key, .running work)
  | _ => False

theorem held?_eq_some_iff {stage : Stage backend α} {ticket : Ticket} :
    stage.held? = some ticket ↔ ∃ next, stage = sharing ticket next := by
  cases stage <;> simp [held?]

/-- What becomes of a task when it goes on as far as it gets: it is at its end or waits for the
    backend. -/
structure Proceeds (others : Multiset Ticket)
    (listings : SharedCalls (Nat × Path) (ListingWork backend) Listing)
    (reached : Stage backend α × Scene backend) : Prop where
  later : listings.Later reached.2.listings
  sound : reached.2.listings.Sound ((reached.1.held?.toList : Multiset Ticket) + others)
  requests : reached.2.listings.Every (fun _ => ListingWork.OneRequest)
  awaits : reached.1.isFinished = true ∨ reached.1.Awaits reached.2.listings

variable {others : Multiset Ticket} {scene : Scene backend}
  {listings listings' : SharedCalls (Nat × Path) (ListingWork backend) Listing}
  {reached : Stage backend α × Scene backend}

theorem Proceeds.trans (hproceeds : Proceeds others listings' reached)
    (hlater : listings.Later listings') : Proceeds others listings reached where
  later := hlater.trans hproceeds.later
  sound := hproceeds.sound
  requests := hproceeds.requests
  awaits := hproceeds.awaits

theorem proceeds_of_same {stage : Stage backend α} {surroundings : Surroundings σ}
    (hsound : listings.Sound others) (hrequests : listings.Every (fun _ => ListingWork.OneRequest))
    (hheld : stage.held? = none) (hawaits : stage.isFinished = true ∨ stage.Awaits listings) :
    Proceeds others listings (stage, ⟨surroundings, listings⟩) where
  later := .refl _
  sound := by simpa [hheld] using hsound
  requests := hrequests
  awaits := hawaits

/-- A listing that is running and that the others did not begin before is the one for which the task
    waits. -/
theorem Proceeds.held?_eq_of_running {stage : Stage backend α}
    (hproceeds : Proceeds others listings reached)
    (hsound : listings.Sound ((stage.held?.toList : Multiset Ticket) + others)) {number : Nat}
    {key : Nat × Path} {work : ListingWork backend}
    (hown : stage.held? = some ⟨number, .starter⟩ ∨ listings.calls.length ≤ number)
    (hrunning : reached.2.listings.view number = some (key, .running work)) :
    reached.1.held? = some ⟨number, .starter⟩ := by
  have hothers : ⟨number, .starter⟩ ∉ others := by
    intro hother
    have hissued := hsound.issued (Multiset.mem_add.2 (.inr hother))
    rcases hown with hheld | hnew
    · -- The starter's ticket of a call is there once only.
      have hsingle := (hsound.call (List.getElem?_eq_getElem hissued)).single
      rw [hheld] at hsingle
      simp at hsingle
      exact hsingle hother
    · exact (hnew.trans_lt hissued).ne rfl
  obtain ⟨call, hcall, -, hstage⟩ := view_eq_some_iff.1 hrunning
  have hstarter := (hproceeds.sound.call hcall).running (by simp [hstage])
  rw [Multiset.count_add, Multiset.count_eq_zero_of_notMem hothers] at hstarter
  have hmem : (⟨number, .starter⟩ : Ticket) ∈ (reached.1.held?.toList : Multiset Ticket) :=
    Multiset.count_pos.1 (by omega)
  simpa using hmem

/-- Looking at a listing in the name of a task that shares it. It may be one that the task has just
    begun, whose request is still to be issued. -/
theorem proceeds_poll (surroundings : Surroundings σ) {ticket : Ticket}
    {next : Outcome Listing → Procedure α} {key : Nat × Path}
    {stage : SharedCalls.Stage (ListingWork backend) Listing}
    (hsound : listings.Sound (ticket ::ₘ others))
    (hview : listings.view ticket.call = some (key, stage))
    (hkey : ∀ {work}, stage = .running work → work.plan.key = key)
    (hrequests : ∀ {number key stage}, number ≠ ticket.call →
      listings.view number = some (key, stage) → ListingWork.OneRequest key stage)
    (hnext : ∀ outcome (scene : Scene backend), scene.listings.Sound others →
      scene.listings.Every (fun _ => ListingWork.OneRequest) →
      Proceeds others scene.listings (advance (next outcome) scene)) :
    Proceeds others listings (turn (sharing ticket next) ⟨surroundings, listings⟩) := by
  have hpolled := hsound.poll (ListingWork.conduct backend) surroundings ticket.call
  have hlater := later_poll (ListingWork.conduct backend) surroundings listings ticket.call
  have hcases := poll_cases (ListingWork.conduct backend) surroundings hview
  rw [turn]
  dsimp only
  generalize listings.poll (ListingWork.conduct backend) ticket.call surroundings = polled
    at hpolled hlater hcases
  obtain ⟨answer, listings', surroundings'⟩ := polled
  -- Only the listing of the ticket can have changed.
  have hrequests' : ∀ {stage'}, ListingWork.OneRequest key stage' →
      (∀ other, listings'.view other =
        if other = ticket.call then some (key, stage') else listings.view other) →
      listings'.Every (fun _ => ListingWork.OneRequest) := by
    intro stage' hstage' hupdate number key' stage'' hview'
    rw [hupdate] at hview'
    split at hview'
    case isTrue =>
      cases hview'
      exact hstage'
    case isFalse hnumber => exact hrequests hnumber hview'
  rcases hcases with ⟨outcome, hanswer, hupdate⟩ | ⟨work, rest, rfl, hresume, hanswer, hupdate⟩
  · obtain rfl : answer = some outcome := hanswer
    have hsettled : listings'.view ticket.call = some (key, .settled outcome) := by simp [hupdate]
    have hleft := leave_of_settled (ListingWork.conduct backend) surroundings' ticket hsettled
    have hfree := hpolled.leave (ListingWork.conduct backend) surroundings'
    have hstage : ListingWork.OneRequest key
        (.settled outcome : SharedCalls.Stage (ListingWork backend) Listing) := trivial
    dsimp only
    generalize listings'.leave (ListingWork.conduct backend) ticket surroundings' = left
      at hleft hfree
    have hgone : left.1.Every (fun _ => ListingWork.OneRequest) :=
      every_of_view_eq (hrequests' hstage hupdate) hleft.1
    exact (hnext outcome ⟨left.2, left.1⟩ hfree hgone).trans
      (hlater.trans (later_of_view_eq hleft.1))
  · obtain rfl : answer = none := hanswer
    have hrest : ListingWork.OneRequest key (.running rest) := by
      have hasked := ListingWork.isAsked_of_waiting hresume
      rwa [hkey rfl] at hasked
    exact ⟨hlater, hpolled, hrequests' hrest hupdate, .inr ⟨key, rest, by simp [hupdate]⟩⟩

/-- Whatever a procedure does, the task that carries it on does not come to a stop on account of other
    tasks. -/
theorem proceeds_advance {procedure : Procedure α} (hsound : scene.listings.Sound others)
    (hrequests : scene.listings.Every (fun _ => ListingWork.OneRequest)) :
    Proceeds others scene.listings (advance procedure scene) := by
  induction procedure generalizing scene with
  | done result => exact proceeds_of_same hsound hrequests rfl (.inl rfl)
  | log event next ih => exact @ih ⟨scene.surroundings.note event, scene.listings⟩ hsound hrequests
  | offer next ih => exact ih _ hsound hrequests
  | now next ih => exact ih _ hsound hrequests
  | ask request next ih =>
    rw [advance]
    split
    case h_1 => exact proceeds_of_same hsound hrequests rfl (.inr trivial)
    case h_2 answer _ =>
      exact @ih answer ⟨scene.surroundings.after request _, scene.listings⟩ hsound hrequests
  | share plan next ih =>
    have hentered := hsound.attach (ListingWork.conduct backend) scene.surroundings plan.key
      (.planned plan)
    have hlater := later_attach (ListingWork.conduct backend) scene.surroundings scene.listings
      plan.key (.planned plan)
    rw [advance_share_eq_turn]
    refine Proceeds.trans ?_ hlater
    rcases hsound.attach_cases (ListingWork.conduct backend) scene.surroundings plan.key
      (.planned plan) with ⟨number, work, hview, hattach⟩ | ⟨-, hattach⟩
    · rw [hattach] at hentered ⊢
      have hwork : work.IsAsked plan.key := hrequests hview
      refine proceeds_poll _ hentered (by simpa using hview) ?_ ?_ fun outcome _ => ih outcome
      · rintro _ ⟨⟩
        obtain ⟨_, flight, rfl, hkey⟩ := hwork
        exact hkey
      · exact fun _ hother => hrequests (by simpa using hother)
    · rw [hattach] at hentered ⊢
      have hbegun := view_begin scene.listings plan.key (.planned plan : ListingWork backend)
      refine proceeds_poll _ hentered ((hbegun _).trans (if_pos rfl)) ?_ ?_
        fun outcome _ => ih outcome
      · rintro _ ⟨⟩
        rfl
      · intro other key stage hother hview
        rw [hbegun, if_neg hother] at hview
        exact hrequests hview

theorem proceeds_turn {stage : Stage backend α}
    (hsound : scene.listings.Sound ((stage.held?.toList : Multiset Ticket) + others))
    (hrequests : scene.listings.Every (fun _ => ListingWork.OneRequest)) :
    Proceeds others scene.listings (stage.turn scene) := by
  cases stage with
  | ready procedure => exact proceeds_advance (by simpa using hsound) hrequests
  | asking request flight next =>
    rw [turn]
    split
    case h_1 => exact proceeds_of_same (by simpa using hsound) hrequests rfl (.inr trivial)
    case h_2 answer _ =>
      exact @proceeds_advance _ _ _ _ ⟨scene.surroundings.after request _, scene.listings⟩ _
        (by simpa using hsound) hrequests
  | returned result => exact proceeds_of_same (by simpa using hsound) hrequests rfl (.inl rfl)
  | dropped => exact proceeds_of_same (by simpa using hsound) hrequests rfl (.inl rfl)
  | sharing ticket next =>
    have hheld : scene.listings.Sound (ticket ::ₘ others) := by simpa using hsound
    cases hview : scene.listings.view ticket.call with
    | none =>
      have hissued := hheld.issued (Multiset.mem_cons_self ticket others)
      rw [view_eq_none_iff] at hview
      omega
    | some seen =>
      obtain ⟨key, stage⟩ := seen
      refine proceeds_poll _ hheld hview ?_ (fun _ hother => hrequests hother)
        fun _ _ => proceeds_advance
      rintro work rfl
      obtain ⟨plan, flight, rfl, hkey⟩ := hrequests hview
      exact hkey

theorem proceeds_drop {stage : Stage backend α}
    (hsound : scene.listings.Sound ((stage.held?.toList : Multiset Ticket) + others))
    (hrequests : scene.listings.Every (fun _ => ListingWork.OneRequest)) :
    Proceeds others scene.listings (stage.drop scene) := by
  cases stage with
  | ready procedure => exact proceeds_of_same (by simpa using hsound) hrequests rfl (.inl rfl)
  | asking request flight next =>
    exact proceeds_of_same (by simpa using hsound) hrequests rfl (.inl rfl)
  | returned result => exact proceeds_of_same (by simpa using hsound) hrequests rfl (.inl rfl)
  | dropped => exact proceeds_of_same (by simpa using hsound) hrequests rfl (.inl rfl)
  | sharing ticket next =>
    have hheld : scene.listings.Sound (ticket ::ₘ others) := by simpa using hsound
    refine ⟨hheld.later_leave (ListingWork.conduct backend) scene.surroundings, ?_, ?_, .inl rfl⟩
    · simpa [drop] using hheld.leave (ListingWork.conduct backend) scene.surroundings
    rcases hheld.leave_cases (ListingWork.conduct backend) scene.surroundings with
      ⟨hview, -⟩ | ⟨key, work, stage, hbefore, hafter, hstage⟩
    · exact every_of_view_eq hrequests hview
    · refine every_of_view_update hrequests hafter ?_
      have hwork : work.IsAsked key := by
        rcases hbefore with ⟨-, hview⟩ | hview
        · exact hrequests hview
        · exact hrequests hview
      rcases hstage with ⟨rfl, -⟩ | ⟨rfl, -⟩
      · exact hwork
      · trivial

/-- A task that shares a listing is held up by the backend only: by the one request that the listing
    waits for. -/
theorem HeldUp.exists_waiting {ticket : Ticket} {next : Outcome Listing → Procedure α}
    (hheld : (sharing ticket next : Stage backend α).HeldUp scene) {key : Nat × Path}
    {stage : SharedCalls.Stage (ListingWork backend) Listing}
    (hview : scene.listings.view ticket.call = some (key, stage))
    (hrequest : ListingWork.OneRequest key stage) :
    ∃ plan flight rest, stage = .running (.asked plan flight) ∧ plan.key = key ∧
      (backend.resume plan.request flight scene.surroundings.state).poll = .waiting rest := by
  rcases poll_cases (ListingWork.conduct backend) scene.surroundings hview with
    ⟨outcome, hanswer, -⟩ | ⟨work, rest, rfl, hresume, -⟩
  · rw [HeldUp, hanswer] at hheld
    cases hheld
  · obtain ⟨plan, flight, rfl, hkey⟩ := hrequest
    obtain ⟨flight', hpoll⟩ := ListingWork.poll_of_waiting hresume
    exact ⟨plan, flight, flight', rfl, hkey, hpoll⟩

/-- With its turn a task resumes with a procedure: it has only been started, or what it waits for is
    there. -/
inductive Resumes (scene : Scene backend) : Stage backend α → Procedure α → Prop
  | ready (procedure : Procedure α) : Resumes scene (ready procedure) procedure
  | asking {request : Request} {flight : backend.Flight request} {answer : request.Answer}
      (next : request.Answer → Procedure α)
      (answered : (backend.resume request flight scene.surroundings.state).poll = .ready answer) :
      Resumes scene (asking request flight next) (next answer)
  | sharing {ticket : Ticket} {outcome : Outcome Listing} (next : Outcome Listing → Procedure α)
      (settled : (scene.listings.poll (ListingWork.conduct backend) ticket.call
        scene.surroundings).1 = some outcome) :
      Resumes scene (sharing ticket next) (next outcome)

/-- A task that is not held up resumes with its turn, and gets as far as it can. -/
theorem exists_resumes_of_not_heldUp {stage : Stage backend α} (hopen : stage.isFinished = false)
    (hfree : ¬ stage.HeldUp scene) :
    ∃ rest scene', stage.Resumes scene rest ∧ stage.turn scene = advance rest scene' := by
  cases stage with
  | ready procedure => exact ⟨procedure, scene, .ready procedure, rfl⟩
  | asking request flight next =>
    rw [turn]
    cases hpoll : (backend.resume request flight scene.surroundings.state).poll with
    | waiting rest => exact (hfree ⟨rest, hpoll⟩).elim
    | ready answer => exact ⟨_, _, .asking next hpoll, rfl⟩
  | sharing ticket next =>
    rw [turn]
    dsimp only
    split
    case h_1 hpoll => exact (hfree (congrArg Prod.fst hpoll)).elim
    case h_2 outcome listings surroundings hpoll =>
      exact ⟨_, _, .sharing next (congrArg Prod.fst hpoll), rfl⟩
  | returned => cases hopen
  | dropped => cases hopen

end Stage

namespace World

/-- What can happen to a world to which new tasks come. -/
inductive Event (σ α : Type) where
  | start (procedure : Procedure α)
  | move (move : Move σ)

def occur (world : World backend α) : Event σ α → World backend α
  | .start procedure => world.start procedure
  | .move move => world.make move

/-- The world after some events, of which the first comes first. -/
def play (world : World backend α) (events : List (Event σ α)) : World backend α :=
  events.foldl occur world

theorem play_append_singleton (world : World backend α) (events : List (Event σ α))
    (event : Event σ α) : world.play (events ++ [event]) = (world.play events).occur event := by
  simp [play]

/-- A task began a listing with one of its turns. -/
def Began (world : World backend α) (events : List (Event σ α)) (index number : Nat) : Prop :=
  Made world.play events (.move (.turn index)) (fun world =>
    world.scene.listings.calls.length ≤ number ∧
      number < (world.turn index).scene.listings.calls.length)

/-- The backend owes an answer, to a task or to a shared listing. -/
def Pending (world : World backend α) : Prop :=
  (∃ stage ∈ world.tasks, ∃ request flight next, stage = .asking request flight next) ∨
    ∃ number key plan flight,
      world.scene.listings.view number = some (key, .running (.asked plan flight))

/-- There is a task under a number, and it is not at its end. -/
def Unfinished (world : World backend α) (index : Nat) : Prop :=
  ∃ stage, world.tasks[index]? = some stage ∧ stage.isFinished = false

/-- The task under a number has returned or was taken away. -/
def Finished (world : World backend α) (index : Nat) : Prop :=
  ∃ stage, world.tasks[index]? = some stage ∧ stage.isFinished = true

/-- Nothing stands between the tasks and the backend. Every unfinished listing is one request, and of
    the listings that a task began it waits for the one that is unfinished. -/
structure Flows (began : Nat → Nat → Prop) (world : World backend α) : Prop where
  sound : world.scene.listings.Sound world.tickets
  requests : world.scene.listings.Every (fun _ => ListingWork.OneRequest)
  numbered : ∀ {index number}, began index number → number < world.scene.listings.calls.length
  own : ∀ {index number key work}, began index number →
    world.scene.listings.view number = some (key, .running work) →
    ∃ stage, world.tasks[index]? = some stage ∧ stage.held? = some ⟨number, .starter⟩

variable {world : World backend α} {began began' : Nat → Nat → Prop} {index : Nat}

theorem flows_gather (surroundings : Surroundings σ) (procedures : List (Procedure α)) :
    (gather surroundings procedures : World backend α).Flows (fun _ _ => False) where
  sound := by
    have hnone : (gather surroundings procedures : World backend α).tickets = 0 := by
      simp [tickets, gather, heldBy, List.filterMap_map, Function.comp_def]
    rw [hnone]
    exact sound_empty
  requests := every_empty _
  numbered := False.elim
  own := False.elim

theorem Flows.mono (hflows : world.Flows began)
    (hbegan : ∀ {index number}, began' index number → began index number) :
    world.Flows began' where
  sound := hflows.sound
  requests := hflows.requests
  numbered h := hflows.numbered (hbegan h)
  own h := hflows.own (hbegan h)

/-- Where one task proceeds, and it is remembered which listings it begins on the way, all goes on
    flowing. -/
theorem Flows.set (hflows : world.Flows began) {stage : Stage backend α}
    {reached : Stage backend α × Scene backend} (hstage : world.tasks[index]? = some stage)
    (hproceeds : ∀ {others},
      world.scene.listings.Sound ((stage.held?.toList : Multiset Ticket) + others) →
      Stage.Proceeds others world.scene.listings reached) :
    (⟨reached.2, world.tasks.set index reached.1⟩ : World backend α).Flows
      (fun other number => began other number ∨ other = index ∧
        world.scene.listings.calls.length ≤ number ∧
        number < reached.2.listings.calls.length) := by
  obtain ⟨others, hbefore, hafter⟩ := exists_heldBy_others Stage.held? hstage
  have hsound := hflows.sound
  rw [tickets, hbefore] at hsound
  replace hproceeds := hproceeds hsound
  have hindex := (List.getElem?_eq_some_iff.1 hstage).1
  constructor
  case sound =>
    rw [tickets, hafter]
    exact hproceeds.sound
  case requests => exact hproceeds.requests
  case numbered =>
    rintro other number (hbegan | ⟨-, -, hnumber⟩)
    · exact (hflows.numbered hbegan).trans_le hproceeds.later.length_le
    · exact hnumber
  case own =>
    intro other number key work hbegan hrunning
    have hown : stage.held? = some ⟨number, .starter⟩ ∨
          world.scene.listings.calls.length ≤ number →
        ∃ stage', (world.tasks.set index reached.1)[index]? = some stage' ∧
          stage'.held? = some ⟨number, .starter⟩ := fun hmine =>
      ⟨reached.1, by simp [hindex], hproceeds.held?_eq_of_running hsound hmine hrunning⟩
    rcases hbegan with hbegan | ⟨rfl, hnew, -⟩
    · -- A listing that is running now was running before, and so it had its starter.
      cases hview : world.scene.listings.view number with
      | none =>
        have hnumber := hflows.numbered hbegan
        rw [view_eq_none_iff] at hview
        omega
      | some seen =>
        obtain ⟨key', before⟩ := seen
        obtain ⟨_, hview', hlater⟩ := hproceeds.later hview
        rw [hrunning] at hview'
        cases hview'
        obtain ⟨work', rfl⟩ := (hlater.isRunning trivial).exists_work
        obtain ⟨stage', hstage', hheld⟩ := hflows.own hbegan hview
        by_cases hother : other = index
        · subst other
          rw [hstage] at hstage'
          cases hstage'
          exact hown (.inl hheld)
        · exact ⟨stage', by rw [List.getElem?_set_ne (Ne.symm hother), hstage'], hheld⟩
    · exact hown (.inr hnew)

/-- Whatever happens, the world goes on flowing, if it is remembered which listings a turn begins. -/
theorem Flows.occur (hflows : world.Flows began) (event : Event σ α) :
    (world.occur event).Flows (fun index number => began index number ∨
      .move (.turn index) = event ∧ world.scene.listings.calls.length ≤ number ∧
        number < (world.turn index).scene.listings.calls.length) := by
  cases event with
  | start procedure =>
    have hnone : heldBy Stage.held? [(.ready procedure : Stage backend α)] = 0 := rfl
    refine ⟨?_, hflows.requests, ?_, ?_⟩
    · simpa [World.occur, World.start, tickets, heldBy_append, hnone] using hflows.sound
    · rintro index number (hbegan | ⟨⟨⟩, -⟩)
      exact hflows.numbered hbegan
    · rintro index number key work (hbegan | ⟨⟨⟩, -⟩) hrunning
      obtain ⟨stage, hstage, hheld⟩ := hflows.own hbegan hrunning
      have hindex := (List.getElem?_eq_some_iff.1 hstage).1
      refine ⟨stage, ?_, hheld⟩
      rw [World.occur, World.start, List.getElem?_append_left hindex, hstage]
  | move move =>
    rcases make_cases world move with
      ⟨change, rfl, hmake⟩ | hmake | ⟨index, stage, hstage, ⟨rfl, hmake⟩ | ⟨rfl, hmake⟩⟩
    · rw [World.occur, hmake]
      exact Flows.mono ⟨hflows.sound, hflows.requests, hflows.numbered, hflows.own⟩ (by simp)
    · rw [World.occur, hmake]
      refine hflows.mono ?_
      rintro index number (hbegan | ⟨⟨⟩, hnew, hnumber⟩)
      · exact hbegan
      · rw [show world.turn index = world from hmake] at hnumber
        omega
    · rw [World.occur, hmake]
      refine (hflows.set hstage fun hsound => Stage.proceeds_turn hsound hflows.requests).mono ?_
      rintro other number (hbegan | ⟨⟨⟩, hnew, hnumber⟩)
      · exact .inl hbegan
      · rw [show world.turn index = _ from hmake] at hnumber
        exact .inr ⟨rfl, hnew, hnumber⟩
    · rw [World.occur, hmake]
      refine (hflows.set hstage fun hsound => Stage.proceeds_drop hsound hflows.requests).mono ?_
      rintro other number (hbegan | ⟨⟨⟩, -⟩)
      exact .inl hbegan

theorem flows_play (surroundings : Surroundings σ) (events : List (Event σ α)) :
    let start : World backend α := gather surroundings []
    (start.play events).Flows (start.Began events) := by
  intro start
  induction events using List.reverseRecOn with
  | nil =>
    refine (flows_gather surroundings []).mono fun hbegan => ?_
    exact not_made_nil hbegan
  | append_singleton events event ih =>
    rw [play_append_singleton]
    exact (ih.occur event).mono made_append_singleton_iff.1

theorem turn_of_stage {stage : Stage backend α} (hstage : world.tasks[index]? = some stage) :
    world.turn index =
      ⟨(stage.turn world.scene).2, world.tasks.set index (stage.turn world.scene).1⟩ := by
  simp [turn, World.move, hstage]

theorem Finished.turn (hfinished : world.Finished index) (other : Nat) :
    (world.turn other).Finished index := by
  obtain ⟨stage, hstage, hend⟩ := hfinished
  by_cases hother : other = index
  · subst other
    have hnext : (world.turn index).tasks[index]? = some (stage.turn world.scene).1 :=
      getElem?_make_turn hstage
    refine ⟨_, hnext, ?_⟩
    cases stage with
    | returned result => rfl
    | dropped => rfl
    | ready procedure => cases hend
    | asking request flight next => cases hend
    | sharing ticket next => cases hend
  · have hsame : (world.make (.turn other)).tasks[index]? = world.tasks[index]? := by
      refine getElem?_make ?_ ?_
      · simpa using hother
      · simp
    exact ⟨stage, hsame.trans hstage, hend⟩

theorem Unfinished.of_turn {other : Nat} (hunfinished : (world.turn other).Unfinished index) :
    world.Unfinished index := by
  obtain ⟨stage, hstage, hopen⟩ := hunfinished
  have hindex : index < world.tasks.length := by
    rw [← length_make world (.turn other)]
    exact (List.getElem?_eq_some_iff.1 hstage).1
  have hbefore := List.getElem?_eq_getElem hindex
  refine ⟨_, hbefore, ?_⟩
  by_contra hend
  obtain ⟨stage', hstage', hend'⟩ := Finished.turn ⟨_, hbefore, by simpa using hend⟩ other
  rw [hstage] at hstage'
  cases hstage'
  rw [hopen] at hend'
  cases hend'

/-- A turn is nothing to a task that has nothing to do. -/
theorem turn_of_not_unfinished (hfinished : ¬ world.Unfinished index) : world.turn index = world := by
  cases hstage : world.tasks[index]? with
  | none => simp [World.turn, World.move, hstage]
  | some stage =>
    have hset : world.tasks.set index stage = world.tasks := by
      obtain ⟨hindex, rfl⟩ := List.getElem?_eq_some_iff.1 hstage
      exact List.set_getElem_self hindex
    rw [turn_of_stage hstage]
    cases stage with
    | returned result => simp [Stage.turn, hset]
    | dropped => simp [Stage.turn, hset]
    | ready procedure => exact (hfinished ⟨_, hstage, rfl⟩).elim
    | asking request flight next => exact (hfinished ⟨_, hstage, rfl⟩).elim
    | sharing ticket next => exact (hfinished ⟨_, hstage, rfl⟩).elim

/-- With its turn a task comes to its end or leaves the backend with something to answer. -/
theorem Flows.turn (hflows : world.Flows began) (hunfinished : world.Unfinished index) :
    (world.turn index).Finished index ∨ (world.turn index).Pending := by
  obtain ⟨stage, hstage, -⟩ := hunfinished
  have hafter := (hflows.occur (.move (.turn index))).requests
  have hnext : (world.turn index).tasks[index]? = some (stage.turn world.scene).1 :=
    getElem?_make_turn hstage
  obtain ⟨others, hbefore, -⟩ := exists_heldBy_others Stage.held? hstage
  have hsound := hflows.sound
  rw [tickets, hbefore] at hsound
  rcases (Stage.proceeds_turn hsound hflows.requests).awaits with hend | hawaits
  · exact .inl ⟨_, hnext, hend⟩
  · refine .inr ?_
    have hlistings : (world.turn index).scene.listings = (stage.turn world.scene).2.listings := by
      rw [turn_of_stage hstage]
    rw [← hlistings] at hawaits
    generalize (stage.turn world.scene).1 = reached at hnext hawaits
    cases reached with
    | asking request flight next =>
      exact .inl ⟨_, List.mem_of_getElem? hnext, request, flight, next, rfl⟩
    | sharing ticket next =>
      obtain ⟨key, work, hrunning⟩ := hawaits
      obtain ⟨plan, flight, rfl, -⟩ := hafter hrunning
      exact .inr ⟨ticket.call, key, plan, flight, hrunning⟩
    | ready procedure => exact hawaits.elim
    | returned result => exact hawaits.elim
    | dropped => exact hawaits.elim

/-- Turns either bring a task to its end, or they leave the backend with something to answer, or they
    were given to tasks only that have nothing to do. -/
theorem Flows.turns (hflows : world.Flows began) (order : List Nat) :
    (∃ index, world.Unfinished index ∧ (world.run (order.map .turn)).Finished index) ∨
      (world.run (order.map .turn)).Pending ∨
      world.run (order.map .turn) = world ∧ ∀ index ∈ order, ¬ world.Unfinished index := by
  suffices hall : (∃ began', (world.run (order.map .turn)).Flows began') ∧
      (∀ index, (world.run (order.map .turn)).Unfinished index → world.Unfinished index) ∧
      ((∃ index, world.Unfinished index ∧ (world.run (order.map .turn)).Finished index) ∨
      (world.run (order.map .turn)).Pending ∨
      world.run (order.map .turn) = world ∧ ∀ index ∈ order, ¬ world.Unfinished index) from hall.2.2
  induction order using List.reverseRecOn with
  | nil => exact ⟨⟨began, hflows⟩, fun _ h => h, .inr (.inr ⟨rfl, by simp⟩)⟩
  | append_singleton order index ih =>
    obtain ⟨⟨began', hflows'⟩, hback, hturns⟩ := ih
    rw [List.map_append, List.map_singleton, run_append_singleton]
    generalize world.run (order.map .turn) = world' at hflows' hback hturns
    refine ⟨⟨_, hflows'.occur (.move (.turn index))⟩, fun _ h => hback _ h.of_turn, ?_⟩
    by_cases hindex : world'.Unfinished index
    · rcases hflows'.turn hindex with hfinished | hpending
      · exact .inl ⟨index, hback index hindex, hfinished⟩
      · exact .inr (.inl hpending)
    · rw [show world'.make (.turn index) = world' from turn_of_not_unfinished hindex]
      rcases hturns with hfinished | hpending | ⟨rfl, hnone⟩
      · exact .inl hfinished
      · exact .inr (.inl hpending)
      · refine .inr (.inr ⟨rfl, fun other hother => ?_⟩)
        rcases List.mem_append.1 hother with hother | hother
        · exact hnone other hother
        · rwa [List.mem_singleton.1 hother]

/-- Tasks that come and go at any time, whatever their procedures, never block one another. A task
    that shares a listing shares one that exists, and an unfinished one is a single request of the
    backend: if a turn does not take the task further, the backend has not answered that request.
    A task that began a listing holds on to it until the listing is finished, and it waits for no
    other meanwhile. So if the backend owes no answer, then whatever turns the unfinished tasks are
    given, one of them comes to its end, or a request is on its way afterwards that was not before.
    A task that is not held up by the backend resumes with its turn. -/
theorem unblocked_run (surroundings : Surroundings σ) (events : List (Event σ α)) :
    let start : World backend α := gather surroundings []
    let world := start.play events
    (∀ {index : Nat} {ticket next}, world.tasks[index]? = some (.sharing ticket next) →
      ∃ key stage, world.scene.listings.view ticket.call = some (key, stage) ∧
        (∀ {work}, stage = .running work ∨ stage = .cancelled work →
          ∃ plan flight, work = .asked plan flight ∧ plan.key = key) ∧
        ((Stage.sharing ticket next : Stage backend α).HeldUp world.scene →
          ∃ plan flight rest, stage = .running (.asked plan flight) ∧
            (backend.resume plan.request flight world.scene.surroundings.state).poll =
              .waiting rest)) ∧
    (∀ {index number key work}, start.Began events index number →
      world.scene.listings.view number = some (key, .running work) →
      ∃ next, world.tasks[index]? = some (.sharing ⟨number, .starter⟩ next)) ∧
    (¬ world.Pending → ∀ {order : List Nat}, (∃ index ∈ order, world.Unfinished index) →
      (∃ index, world.Unfinished index ∧ (world.run (order.map .turn)).Finished index) ∨
        (world.run (order.map .turn)).Pending) ∧
    (∀ {index stage}, world.tasks[index]? = some stage → stage.isFinished = false →
      ¬ stage.HeldUp world.scene → ∃ rest scene, stage.Resumes world.scene rest ∧
        (world.turn index).tasks[index]? = some (Stage.advance rest scene).1) := by
  intro start world
  have hflows : world.Flows (start.Began events) := flows_play surroundings events
  refine ⟨?_, ?_, ?_, ?_⟩
  · intro index ticket next hstage
    have hheld : ticket ∈ world.tickets :=
      mem_heldBy.2 ⟨_, List.mem_of_getElem? hstage, rfl⟩
    cases hview : world.scene.listings.view ticket.call with
    | none =>
      have hissued := hflows.sound.issued hheld
      rw [view_eq_none_iff] at hview
      omega
    | some seen =>
      obtain ⟨key, stage⟩ := seen
      have hrequest := hflows.requests hview
      refine ⟨key, stage, rfl, ?_, ?_⟩
      · rintro work (rfl | rfl)
        · exact hrequest
        · exact hrequest
      · intro hheldUp
        obtain ⟨plan, flight, rest, hstage, -, hpoll⟩ := hheldUp.exists_waiting hview hrequest
        exact ⟨plan, flight, rest, hstage, hpoll⟩
  · intro index number key work hbegan hrunning
    obtain ⟨stage, hstage, hheld⟩ := hflows.own hbegan hrunning
    obtain ⟨next, rfl⟩ := Stage.held?_eq_some_iff.1 hheld
    exact ⟨next, hstage⟩
  · rintro - order ⟨index, hindex, hunfinished⟩
    rcases hflows.turns order with hfinished | hpending | ⟨-, hnone⟩
    · exact .inl hfinished
    · exact .inr hpending
    · exact (hnone index hindex hunfinished).elim
  · intro index stage hstage hopen hfree
    obtain ⟨rest, scene, hresumes, hturn⟩ := Stage.exists_resumes_of_not_heldUp hopen hfree
    have hnext : (world.turn index).tasks[index]? = some (stage.turn world.scene).1 :=
      getElem?_make_turn hstage
    exact ⟨rest, scene, hresumes, by rw [hnext, hturn]⟩

end World

end VirtualFs
