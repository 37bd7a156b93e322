import VirtualFs.Proofs.SharedCalls.Step

namespace VirtualFs

open SharedCalls

variable {σ τ κ ω ν : Type}

/-- The essence of the surroundings is all that work can see of them. Giving other work up does not
    belong to it. -/
structure Conduct.Sees (conduct : Conduct σ κ ω ν) (essence : σ → τ) : Prop where
  resume : ∀ work {s s'}, essence s = essence s' →
    (conduct.resume work s).1 = (conduct.resume work s').1 ∧
      essence (conduct.resume work s).2 = essence (conduct.resume work s').2
  discard : ∀ {work s}, essence (conduct.discard work s) = essence s
  joined : ∀ {key s s'}, essence s = essence s' →
    essence (conduct.joined key s) = essence (conduct.joined key s')

namespace SharedCalls

namespace Stage

/-- What a holder has to expect. Work that is cancelled is as good as given up. -/
def outlook : Stage ω ν → Stage ω ν
  | cancelled _ => settled .aborted
  | stage => stage

@[simp] theorem outlook_running (work : ω) :
    (running work : Stage ω ν).outlook = running work := rfl

@[simp] theorem outlook_cancelled (work : ω) :
    (cancelled work : Stage ω ν).outlook = settled .aborted := rfl

@[simp] theorem outlook_settled (outcome : Outcome ν) :
    (settled outcome : Stage ω ν).outlook = settled outcome := rfl

theorem outlook_eq_running_iff {stage : Stage ω ν} {work : ω} :
    stage.outlook = running work ↔ stage = running work := by
  cases stage <;> simp

theorem outlook_eq_value_iff {stage : Stage ω ν} {value : ν} :
    stage.outlook = settled (.value value) ↔ stage = settled (.value value) := by
  cases stage <;> simp

end Stage

/-- What the holders of a call have to expect. -/
def outlook (shared : SharedCalls κ ω ν) (number : Nat) : Option (κ × Stage ω ν) :=
  (shared.view number).map (Prod.map id Stage.outlook)

theorem outlook_of_view_eq {before after : SharedCalls κ ω ν} (hview : after.view = before.view) :
    after.outlook = before.outlook := by
  funext number
  rw [outlook, outlook, hview]

theorem outlook_of_view_update {before after : SharedCalls κ ω ν} {number : Nat} {key : κ}
    {stage : Stage ω ν} (hafter : ∀ other, after.view other =
      if other = number then some (key, stage) else before.view other) :
    after.outlook = Function.update before.outlook number (some (key, stage.outlook)) := by
  funext other
  by_cases hother : other = number
  · simp [outlook, hafter, hother]
  · simp [outlook, hafter, hother]

section Look

variable {shared : SharedCalls κ ω ν} {number : Nat} {key : κ}

theorem outlook_eq_none_iff : shared.outlook number = none ↔ shared.view number = none := by
  simp [outlook]

theorem outlook_eq_running_iff {work : ω} :
    shared.outlook number = some (key, .running work) ↔
      shared.view number = some (key, .running work) := by
  simp [outlook, Prod.map, Stage.outlook_eq_running_iff]

theorem outlook_eq_value_iff {value : ν} :
    shared.outlook number = some (key, .settled (.value value)) ↔
      shared.view number = some (key, .settled (.value value)) := by
  simp [outlook, Prod.map, Stage.outlook_eq_value_iff]

/-- Looking at a call that nobody gets a value from is seen by nobody else. -/
private theorem poll_of_aborted {conduct : Conduct σ κ ω ν} {essence : σ → τ}
    (hsees : conduct.Sees essence) {s : σ}
    (houtlook : shared.outlook number = some (key, .settled .aborted)) :
    (shared.poll conduct number s).1 = some .aborted ∧
      (shared.poll conduct number s).2.1.outlook = shared.outlook ∧
      essence (shared.poll conduct number s).2.2 = essence s := by
  have hlook := look_poll conduct s shared number
  generalize shared.poll conduct number s = polled at hlook ⊢
  cases hlook with
  | absent hview => simp [outlook, hview] at houtlook
  | carried hview => simp [outlook, hview] at houtlook
  | finished hview => simp [outlook, hview] at houtlook
  | @settled key' outcome hview =>
    obtain ⟨rfl, rfl⟩ : key' = key ∧ outcome = .aborted := by
      simpa [outlook, hview] using houtlook
    exact ⟨rfl, rfl, rfl⟩
  | @givenUp key' work hview =>
    obtain rfl : key' = key := by simpa [outlook, hview] using houtlook
    refine ⟨rfl, ?_, hsees.discard⟩
    rw [outlook_of_view_update (view_settle_of_view hview _), Stage.outlook_settled, ← houtlook,
      Function.update_eq_self]

end Look

section TwoRuns

variable {conduct : Conduct σ κ ω ν} {essence : σ → τ} {first second : SharedCalls κ ω ν} {s s' : σ}

/-- What comes of looking at a call depends on the outlook and on the essence only. -/
theorem poll_congr (hsees : conduct.Sees essence) (houtlook : first.outlook = second.outlook)
    (hessence : essence s = essence s') (number : Nat) :
    (first.poll conduct number s).1 = (second.poll conduct number s').1 ∧
      (first.poll conduct number s).2.1.outlook = (second.poll conduct number s').2.1.outlook ∧
      essence (first.poll conduct number s).2.2 = essence (second.poll conduct number s').2.2 := by
  cases hfirst : first.outlook number with
  | none =>
    have hnone : ∀ {shared : SharedCalls κ ω ν}, shared.outlook number = none → ∀ s,
        shared.poll conduct number s = (none, shared, s) := by
      intro shared hshared s
      have hcall : shared.calls[number]? = none := by
        simpa [view] using outlook_eq_none_iff.1 hshared
      simp [poll, hcall]
    rw [hnone hfirst, hnone (houtlook ▸ hfirst)]
    exact ⟨rfl, houtlook, hessence⟩
  | some seen =>
    obtain ⟨key, stage⟩ := seen
    have hsecond := houtlook ▸ hfirst
    cases stage with
    | cancelled work =>
      obtain ⟨⟨_, stage⟩, -, hstage⟩ := Option.map_eq_some_iff.1 hfirst
      cases stage <;> cases hstage
    | running work =>
      obtain ⟨hresult, hrest⟩ := hsees.resume work hessence
      rw [outlook_eq_running_iff] at hfirst hsecond
      cases hresume : conduct.resume work s with
      | mk result t =>
        cases hresume' : conduct.resume work s' with
        | mk result' t' =>
          rw [hresume, hresume'] at hresult hrest
          obtain rfl : result = result' := hresult
          cases result with
          | waiting rest =>
            rw [poll_of_waiting hfirst hresume, poll_of_waiting hsecond hresume']
            refine ⟨rfl, ?_, hrest⟩
            rw [outlook_of_view_update (view_resume_of_view hfirst rest),
              outlook_of_view_update (view_resume_of_view hsecond rest), houtlook]
          | ready value =>
            rw [poll_of_ready hfirst hresume, poll_of_ready hsecond hresume']
            refine ⟨rfl, ?_, hrest⟩
            rw [outlook_of_view_update (view_settle_of_view hfirst _),
              outlook_of_view_update (view_settle_of_view hsecond _), houtlook]
    | settled outcome =>
      cases outcome with
      | value value =>
        rw [outlook_eq_value_iff] at hfirst hsecond
        rw [poll_of_settled hfirst, poll_of_settled hsecond]
        exact ⟨rfl, houtlook, hessence⟩
      | aborted =>
        obtain ⟨hanswer, hafter, hrest⟩ := poll_of_aborted hsees (s := s) hfirst
        obtain ⟨hanswer', hafter', hrest'⟩ := poll_of_aborted hsees (s := s') hsecond
        refine ⟨?_, ?_, ?_⟩
        · rw [hanswer, hanswer']
        · rw [hafter, houtlook, hafter']
        · rw [hrest, hessence, hrest']

variable {held held' : Multiset Ticket}

/-- Only a starter spoils the outlook of others when it leaves, and only of a call that is
    running. -/
theorem Sound.outlook_leave {shared : SharedCalls κ ω ν} {ticket : Ticket}
    (hsound : shared.Sound (ticket ::ₘ held)) (conduct : Conduct σ κ ω ν) (s : σ) :
    (shared.leave conduct ticket s).1.outlook =
      if ticket.role = .starter then
        Function.update shared.outlook ticket.call
          ((shared.outlook ticket.call).map (Prod.map id (fun stage => stage.cancel.outlook)))
      else shared.outlook := by
  rcases hsound.leave_cases conduct s with
    ⟨hview, hsame, hrunning⟩ | ⟨key, work, stage, hbefore, hafter, hstage⟩
  · rw [outlook_of_view_eq hview]
    split
    case isFalse => rfl
    case isTrue hstarter =>
      have hsettled : (shared.outlook ticket.call).map
          (Prod.map id (fun stage => stage.cancel.outlook)) = shared.outlook ticket.call := by
        cases hcall : shared.view ticket.call with
        | none => simp [outlook, hcall]
        | some seen =>
          obtain ⟨key, stage⟩ := seen
          cases stage with
          | running work =>
            rw [hrunning hcall] at hstarter
            cases hstarter
          | cancelled work => simp [outlook, hcall, Stage.cancel]
          | settled outcome => simp [outlook, hcall, Stage.cancel]
      rw [hsettled, Function.update_eq_self]
  · have haborted : stage.outlook = .settled .aborted := by
      rcases hstage with ⟨rfl, -⟩ | ⟨rfl, -⟩ <;> rfl
    rw [outlook_of_view_update hafter, haborted]
    rcases hbefore with ⟨hstarter, hcall⟩ | hcall
    · simp [hstarter, outlook, hcall, Stage.cancel]
    · have hsame : shared.outlook ticket.call = some (key, .settled .aborted) := by
        simp [outlook, hcall]
      split
      · simp [hsame, Stage.cancel]
      · rw [← hsame, Function.update_eq_self]

/-- A joiner goes without being noticed. -/
theorem Sound.outlook_leave_joiner {shared : SharedCalls κ ω ν} {number : Nat}
    (hsound : shared.Sound (⟨number, .joiner⟩ ::ₘ held)) (conduct : Conduct σ κ ω ν) (s : σ) :
    (shared.leave conduct ⟨number, .joiner⟩ s).1.outlook = shared.outlook := by
  simpa using hsound.outlook_leave conduct s

theorem Sound.essence_leave {shared : SharedCalls κ ω ν} {ticket : Ticket}
    (hsound : shared.Sound (ticket ::ₘ held)) (hsees : conduct.Sees essence) (s : σ) :
    essence (shared.leave conduct ticket s).2 = essence s := by
  rcases hsound.leave_cases conduct s with
    ⟨-, hsame, -⟩ | ⟨key, work, stage, -, -, ⟨-, hrest⟩ | ⟨-, hrest⟩⟩
  · rw [hsame]
  · rw [hrest]
  · rw [hrest, hsees.discard]

theorem Sound.leave_congr {ticket : Ticket} (hfirst : first.Sound (ticket ::ₘ held))
    (hsecond : second.Sound (ticket ::ₘ held')) (hsees : conduct.Sees essence)
    (houtlook : first.outlook = second.outlook) (hessence : essence s = essence s') :
    (first.leave conduct ticket s).1.outlook = (second.leave conduct ticket s').1.outlook ∧
      essence (first.leave conduct ticket s).2 = essence (second.leave conduct ticket s').2 := by
  refine ⟨?_, ?_⟩
  · rw [hfirst.outlook_leave, hsecond.outlook_leave, houtlook]
  · rw [hfirst.essence_leave hsees, hsecond.essence_leave hsees, hessence]

/-- Which call a caller takes part in depends on the outlook only. -/
theorem Sound.attach_congr [BEq κ] [LawfulBEq κ] (hfirst : first.Sound held)
    (hsecond : second.Sound held') (hsees : conduct.Sees essence)
    (houtlook : first.outlook = second.outlook) (hessence : essence s = essence s') (key : κ)
    (work : ω) :
    (first.attach conduct key work s).1 = (second.attach conduct key work s').1 ∧
      (first.attach conduct key work s).2.1.outlook =
        (second.attach conduct key work s').2.1.outlook ∧
      essence (first.attach conduct key work s).2.2 =
        essence (second.attach conduct key work s').2.2 := by
  have hjoinable : first.joinable? key = second.joinable? key := by
    refine Option.ext fun number => ?_
    rw [hfirst.joinable?_eq_some_iff, hsecond.joinable?_eq_some_iff, hfirst.mem_entries_iff,
      hsecond.mem_entries_iff]
    simp only [← outlook_eq_running_iff, houtlook]
  have hlength : first.calls.length = second.calls.length := by
    refine eq_of_forall_ge_iff fun number => ?_
    rw [← view_eq_none_iff, ← view_eq_none_iff, ← outlook_eq_none_iff, houtlook,
      outlook_eq_none_iff]
  rw [SharedCalls.attach, SharedCalls.attach, hjoinable]
  split
  · refine ⟨rfl, ?_, hsees.joined hessence⟩
    rw [outlook_of_view_eq (view_hold _ _), outlook_of_view_eq (view_hold _ _), houtlook]
  · refine ⟨by rw [hlength], ?_, hessence⟩
    rw [outlook_of_view_update (view_begin first key work),
      outlook_of_view_update (view_begin second key work), houtlook, hlength]

end TwoRuns

end SharedCalls

namespace Session

variable {conduct : Conduct σ κ ω ν} {essence : σ → τ} {index : Nat} {ticket : Ticket}
  {present absent : Session σ κ ω ν}

/-- Two sessions that differ in one caller only, which waits in the one and is gone in the other. -/
structure Lacks (essence : σ → τ) (index : Nat) (ticket : Ticket)
    (present absent : Session σ κ ω ν) : Prop where
  waits : present.callers[index]? = some (.holding ticket)
  callers : absent.callers = present.callers.set index (.dropped (some ticket))
  outlook : absent.shared.outlook = present.shared.outlook
  essence : essence absent.surroundings = essence present.surroundings

theorem Lacks.getElem? (hlacks : Lacks essence index ticket present absent) {other : Nat}
    (hother : other ≠ index) : absent.callers[other]? = present.callers[other]? := by
  rw [hlacks.callers, List.getElem?_set_ne (Ne.symm hother)]

/-- What is done to another caller does not concern the one that is lacking. -/
theorem Lacks.set (hlacks : Lacks essence index ticket present absent) {other : Nat}
    (hother : other ≠ index) (caller : Caller κ ω ν) {shared shared' : SharedCalls κ ω ν} {s s' : σ}
    (houtlook : shared'.outlook = shared.outlook) (hessence : essence s' = essence s) :
    Lacks essence index ticket ⟨shared, s, present.callers.set other caller⟩
      ⟨shared', s', absent.callers.set other caller⟩ where
  waits := by simpa [List.getElem?_set_ne hother] using hlacks.waits
  callers := by simpa [hlacks.callers] using List.set_comm _ _ (Ne.symm hother)
  outlook := houtlook
  essence := hessence

theorem Lacks.consult (hlacks : Lacks essence index ticket present absent)
    (hpresent : present.shared.Sound present.tickets)
    (habsent : absent.shared.Sound absent.tickets) (hsees : conduct.Sees essence) {other : Nat}
    {ticket' : Ticket} (hother : other ≠ index)
    (hcaller : present.callers[other]? = some (.holding ticket')) :
    Lacks essence index ticket (present.consult conduct other ticket')
      (absent.consult conduct other ticket') := by
  have hcaller' : absent.callers[other]? = some (.holding ticket') := by
    rw [hlacks.getElem? hother, hcaller]
  obtain ⟨hanswer, houtlook, hessence⟩ :=
    poll_congr hsees hlacks.outlook hlacks.essence ticket'.call
  have hpolled := hpresent.poll conduct present.surroundings ticket'.call
  have hpolled' := habsent.poll conduct absent.surroundings ticket'.call
  rw [Session.consult, Session.consult]
  generalize present.shared.poll conduct ticket'.call present.surroundings = polled
    at hanswer houtlook hessence hpolled ⊢
  generalize absent.shared.poll conduct ticket'.call absent.surroundings = polled'
    at hanswer houtlook hessence hpolled' ⊢
  obtain ⟨answer, shared, s⟩ := polled
  obtain ⟨answer', shared', s'⟩ := polled'
  obtain rfl : answer' = answer := hanswer
  cases answer' with
  | none => exact hlacks.set hother _ houtlook hessence
  | some outcome =>
    obtain ⟨others, htickets⟩ := exists_tickets_eq_cons hcaller
    obtain ⟨others', htickets'⟩ := exists_tickets_eq_cons hcaller'
    rw [htickets] at hpolled
    rw [htickets'] at hpolled'
    obtain ⟨houtlook, hessence⟩ := hpolled'.leave_congr hpolled hsees houtlook hessence
    exact hlacks.set hother _ houtlook hessence

variable [BEq κ] [LawfulBEq κ]

/-- Others go on in the same way, whether or not a caller is lacking. -/
theorem Lacks.make (hlacks : Lacks essence index ticket present absent)
    (hpresent : present.shared.Sound present.tickets)
    (habsent : absent.shared.Sound absent.tickets) (hsees : conduct.Sees essence)
    {move : Move σ κ ω} (hturn : move ≠ .turn index) (hdrop : move ≠ .drop index)
    (hchange : ∀ {change}, move = .change change →
      ∀ {s s'}, essence s = essence s' → essence (change s) = essence (change s')) :
    Lacks essence index ticket (present.make conduct move) (absent.make conduct move) := by
  cases move with
  | change change =>
    exact ⟨hlacks.waits, hlacks.callers, hlacks.outlook, hchange rfl hlacks.essence⟩
  | start key work =>
    have hindex := (List.getElem?_eq_some_iff.1 hlacks.waits).1
    refine ⟨?_, ?_, hlacks.outlook, hlacks.essence⟩
    · simpa [Session.make, start, List.getElem?_append_left hindex] using hlacks.waits
    · simp [Session.make, start, hlacks.callers, hindex]
  | turn other =>
    have hother : other ≠ index := fun h => hturn (h ▸ rfl)
    have hsame := hlacks.getElem? hother
    rw [Session.make, Session.make]
    cases hcaller : present.callers[other]? with
    | none => simpa [turn, hcaller, hsame] using hlacks
    | some caller =>
      cases caller with
      | returned ticket outcome => simpa [turn, hcaller, hsame] using hlacks
      | dropped ticket => simpa [turn, hcaller, hsame] using hlacks
      | holding ticket' =>
        rw [turn_of_holding hcaller, turn_of_holding (hsame.trans hcaller)]
        exact hlacks.consult hpresent habsent hsees hother hcaller
      | fresh key work =>
        have hcaller' := hsame.trans hcaller
        have hentered := sound_entered conduct hpresent hcaller
        have hentered' := sound_entered conduct habsent hcaller'
        obtain ⟨hticket, houtlook, hessence⟩ :=
          habsent.attach_congr hpresent hsees hlacks.outlook hlacks.essence key work
        rw [turn_of_fresh hcaller, turn_of_fresh hcaller']
        dsimp only at hentered hentered' ⊢
        rw [hticket] at hentered' ⊢
        refine (hlacks.set hother _ houtlook hessence).consult hentered hentered' hsees hother ?_
        simp [(List.getElem?_eq_some_iff.1 hcaller).1]
  | drop other =>
    have hother : other ≠ index := fun h => hdrop (h ▸ rfl)
    have hsame := hlacks.getElem? hother
    rw [Session.make, Session.make]
    cases hcaller : present.callers[other]? with
    | none => simpa [drop, hcaller, hsame] using hlacks
    | some caller =>
      cases caller with
      | returned ticket outcome => simpa [drop, hcaller, hsame] using hlacks
      | dropped ticket => simpa [drop, hcaller, hsame] using hlacks
      | fresh key work =>
        simpa [drop, hcaller, hsame] using hlacks.set hother _ hlacks.outlook hlacks.essence
      | holding ticket' =>
        have hcaller' := hsame.trans hcaller
        obtain ⟨others, htickets⟩ := exists_tickets_eq_cons hcaller
        obtain ⟨others', htickets'⟩ := exists_tickets_eq_cons hcaller'
        rw [htickets] at hpresent
        rw [htickets'] at habsent
        obtain ⟨houtlook, hessence⟩ :=
          habsent.leave_congr hpresent hsees hlacks.outlook hlacks.essence
        rw [drop_of_holding hcaller, drop_of_holding hcaller']
        exact hlacks.set hother _ houtlook hessence

/-- Whatever happens after a joiner was taken away happens to the others just as if it were waiting
    still, but without a turn. -/
theorem callers_run_drop_joiner {session : Session σ κ ω ν} {number : Nat}
    (hsound : session.shared.Sound session.tickets)
    (hcaller : session.callers[index]? = some (.holding ⟨number, .joiner⟩))
    (hsees : conduct.Sees essence) {moves : List (Move σ κ ω)}
    (hmoves : .turn index ∉ moves ∧ .drop index ∉ moves)
    (hchanges : ∀ {change}, .change change ∈ moves →
      ∀ {s s'}, essence s = essence s' → essence (change s) = essence (change s')) :
    ((session.drop conduct index).run conduct moves).callers =
      (session.run conduct moves).callers.set index (.dropped (some ⟨number, .joiner⟩)) := by
  suffices hall : (session.run conduct moves).shared.Sound (session.run conduct moves).tickets ∧
      ((session.drop conduct index).run conduct moves).shared.Sound
        ((session.drop conduct index).run conduct moves).tickets ∧
      Lacks essence index ⟨number, .joiner⟩ (session.run conduct moves)
        ((session.drop conduct index).run conduct moves) from hall.2.2.callers
  induction moves using List.reverseRecOn with
  | nil =>
    refine ⟨hsound, sound_make conduct hsound (.drop index), ?_⟩
    obtain ⟨others, htickets⟩ := exists_tickets_eq_cons hcaller
    rw [htickets] at hsound
    rw [run, List.foldl_nil, drop_of_holding hcaller]
    exact ⟨hcaller, rfl, hsound.outlook_leave_joiner conduct session.surroundings,
      hsound.essence_leave hsees session.surroundings⟩
  | append_singleton moves move ih =>
    simp only [List.mem_append, List.mem_singleton, not_or] at hmoves hchanges
    obtain ⟨hpresent, habsent, hlacks⟩ := ih ⟨hmoves.1.1, hmoves.2.1⟩ (fun h => hchanges (.inl h))
    rw [run_append_singleton, run_append_singleton]
    exact ⟨sound_make conduct hpresent move, sound_make conduct habsent move,
      hlacks.make hpresent habsent hsees (Ne.symm hmoves.1.2) (Ne.symm hmoves.2.2)
        (fun h => hchanges (.inr h.symm))⟩

end Session

end VirtualFs
