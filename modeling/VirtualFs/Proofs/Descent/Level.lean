import VirtualFs.Proofs.Descent.Plans
import VirtualFs.Proofs.Isolation.Watched
import VirtualFs.Proofs.World.Task

namespace VirtualFs

open SharedCalls

variable {σ α : Type}

/-- An account of a steady backend takes nothing from it. -/
theorem Backend.Steady.watched {backend : Backend σ} {holds : σ → Prop}
    {awaits : ∀ {request}, backend.Flight request → Prop} {offered : Offer}
    {reply : (request : Request) → request.Answer}
    (hsteady : backend.Steady holds awaits offered reply) :
    backend.watched.Steady (fun account => holds account.state) awaits offered reply where
  offer := hsteady.offer
  issue := hsteady.issue
  resume := hsteady.resume
  abandon := hsteady.abandon

/-- The requests of an account, the first one first. -/
def Watched.requests (account : Watched σ) : List Request :=
  account.issued.map Prod.fst

/-- The listings that callers of a steady backend go through, one level after the other. -/
structure Descent (backend : Backend σ) where
  holds : σ → Prop
  awaits : ∀ {request}, backend.Flight request → Prop
  offered : Offer
  reply : (request : Request) → request.Answer
  steady : backend.Steady holds awaits offered reply
  plans : List ListingPlan

namespace Descent

variable {backend : Backend σ} (descent : Descent backend)

/-- What the listing of a plan comes to. -/
def listingOf (plan : ListingPlan) : Listing :=
  plan.finish (descent.reply plan.request)

/-- The requests behind the first listings. -/
def requests (count : Nat) : List Request :=
  (descent.plans.take count).map ListingPlan.request

/-- The work for a plan, and the requests that are still to be issued for it. -/
inductive Outstanding (plan : ListingPlan) : ListingWork backend.watched → List Request → Prop
  | planned : Outstanding plan (.planned plan) [plan.request]
  | asked (flight : backend.Flight plan.request) (awaits : descent.awaits flight) :
      Outstanding plan (.asked plan flight) []

/-- So many listings have come to their end, in the order of the plans. -/
structure Tidy (scene : Scene backend.watched) (held : Multiset Ticket) (done : Nat) : Prop where
  holds : descent.holds scene.surroundings.state.state
  sound : scene.listings.Sound held
  settled : ∀ number < done, ∃ plan, descent.plans[number]? = some plan ∧
    scene.listings.view number = some (plan.key, .settled (.value (descent.listingOf plan)))

/-- No other listing has begun. -/
structure Idle (scene : Scene backend.watched) (held : Multiset Ticket) (done : Nat) : Prop
    extends descent.Tidy scene held done where
  length : scene.listings.calls.length = done
  requests : scene.surroundings.state.requests = descent.requests done

/-- The listing of the next plan is going on, and no other. -/
structure Busy (scene : Scene backend.watched) (held : Multiset Ticket) (done : Nat) : Prop
    extends descent.Tidy scene held done where
  length : scene.listings.calls.length = done + 1
  running : ∃ plan work owed, descent.plans[done]? = some plan ∧
    scene.listings.view done = some (plan.key, .running work) ∧
    descent.Outstanding plan work owed ∧
    scene.surroundings.state.requests ++ owed = descent.requests (done + 1)

/-- So many listings have come to their end, and the next one has begun or is to begin. -/
def Level (scene : Scene backend.watched) (held : Multiset Ticket) (done : Nat) : Prop :=
  descent.Idle scene held done ∨ descent.Busy scene held done

/-- A caller that waits for a listing goes through those that come after it. -/
def Onward (number : Nat) (next : Outcome Listing → Procedure α) : Prop :=
  ∃ plan result, descent.plans[number]? = some plan ∧
    (next (.value (descent.listingOf plan))).Shares descent.offered descent.reply
      (descent.plans.drop (number + 1)) result

/-- Where a turn leaves a caller: it waits for the listing that is going on, which is none of the
    first ones, or it is through with all of them. -/
inductive Reached (first : Nat) (others : Multiset Ticket) :
    Stage backend.watched α × Scene backend.watched → Prop
  | waits {done : Nat} {role : Role} {next : Outcome Listing → Procedure α}
      {scene : Scene backend.watched} (later : first ≤ done)
      (busy : descent.Busy scene (⟨done, role⟩ ::ₘ others) done)
      (onward : descent.Onward done next) : Reached first others (.sharing ⟨done, role⟩ next, scene)
  | ends {result : α} {scene : Scene backend.watched}
      (idle : descent.Idle scene others descent.plans.length) :
      Reached first others (.returned result, scene)

variable {descent} {scene scene' : Scene backend.watched} {held others : Multiset Ticket}
  {done : Nat}

theorem requests_succ {plan : ListingPlan} (hplan : descent.plans[done]? = some plan) :
    descent.requests (done + 1) = descent.requests done ++ [plan.request] := by
  rw [requests, List.take_add_one, hplan, List.map_append]
  rfl

private theorem afterTurn_spec {plan : ListingPlan} {s : Surroundings (Watched σ)}
    {turn : Turn (Watched σ) (backend.watched.Flight plan.request) plan.request.Answer}
    (htells : turn.poll.Tells descent.awaits (fun answer => answer = descent.reply plan.request)) :
    (ListingWork.afterTurn plan s turn).2.state = turn.state ∧
      (ListingWork.afterTurn plan s turn).1.Tells
        (fun rest => descent.Outstanding plan rest [])
        (fun listing => listing = descent.listingOf plan) := by
  rw [ListingWork.afterTurn]
  cases hpoll : turn.poll with
  | waiting flight =>
    rw [hpoll] at htells
    exact ⟨rfl, @Outstanding.asked _ _ descent plan flight htells⟩
  | ready answer =>
    rw [hpoll] at htells
    exact ⟨rfl, congrArg plan.finish htells⟩

/-- Work that is carried forward issues what is still to be issued, and comes to what the backend
    always answers. -/
theorem Outstanding.resume {plan : ListingPlan} {work : ListingWork backend.watched}
    {owed : List Request} {s : Surroundings (Watched σ)}
    (hwork : descent.Outstanding plan work owed) (hholds : descent.holds s.state.state) :
    descent.holds (work.resume s).2.state.state ∧
      (work.resume s).2.state.requests = s.state.requests ++ owed ∧
      (work.resume s).1.Tells (fun rest => descent.Outstanding plan rest [])
        (fun listing => listing = descent.listingOf plan) := by
  have hlists : plan.request.Reads := trivial
  cases hwork with
  | planned =>
    obtain ⟨hstill, htells⟩ := descent.steady.watched.issue hlists hholds
    obtain ⟨hstate, hpoll⟩ := afterTurn_spec (s := s.note (.listing plan.dir)) htells
    refine ⟨hstate ▸ hstill, ?_, hpoll⟩
    refine (congrArg Watched.requests hstate).trans ?_
    exact List.map_append
  | asked flight hawaits =>
    obtain ⟨hstill, htells⟩ := descent.steady.watched.resume hlists hawaits hholds
    obtain ⟨hstate, hpoll⟩ := afterTurn_spec (s := s) htells
    refine ⟨hstate ▸ hstill, ?_, hpoll⟩
    exact (congrArg Watched.requests hstate).trans (List.append_nil _).symm

/-- What is known of the listings depends on what is seen of them and of the backend only. -/
theorem Tidy.of_view_eq (htidy : descent.Tidy scene held done)
    (hsound : scene'.listings.Sound others)
    (hview : scene'.listings.view = scene.listings.view)
    (hstate : scene'.surroundings.state = scene.surroundings.state) :
    descent.Tidy scene' others done where
  holds := hstate ▸ htidy.holds
  sound := hsound
  settled := hview ▸ htidy.settled

private theorem length_eq_of_view_eq {κ ω ν : Type} {shared shared' : SharedCalls κ ω ν}
    (hview : shared'.view = shared.view) : shared'.calls.length = shared.calls.length :=
  Nat.le_antisymm (later_of_view_eq hview.symm).length_le (later_of_view_eq hview).length_le

theorem Idle.of_view_eq (hidle : descent.Idle scene held done)
    (hsound : scene'.listings.Sound others)
    (hview : scene'.listings.view = scene.listings.view)
    (hstate : scene'.surroundings.state = scene.surroundings.state) :
    descent.Idle scene' others done where
  toTidy := hidle.toTidy.of_view_eq hsound hview hstate
  length := (length_eq_of_view_eq hview).trans hidle.length
  requests := hstate ▸ hidle.requests

theorem Busy.of_view_eq (hbusy : descent.Busy scene held done)
    (hsound : scene'.listings.Sound others)
    (hview : scene'.listings.view = scene.listings.view)
    (hstate : scene'.surroundings.state = scene.surroundings.state) :
    descent.Busy scene' others done where
  toTidy := hbusy.toTidy.of_view_eq hsound hview hstate
  length := (length_eq_of_view_eq hview).trans hbusy.length
  running := hstate ▸ hview ▸ hbusy.running

theorem Level.tidy (hlevel : descent.Level scene held done) : descent.Tidy scene held done :=
  hlevel.elim Idle.toTidy Busy.toTidy

theorem Level.of_view_eq (hlevel : descent.Level scene held done)
    (hsound : scene'.listings.Sound others)
    (hview : scene'.listings.view = scene.listings.view)
    (hstate : scene'.surroundings.state = scene.surroundings.state) :
    descent.Level scene' others done :=
  hlevel.imp (·.of_view_eq hsound hview hstate) (·.of_view_eq hsound hview hstate)

theorem Level.length_le (hlevel : descent.Level scene held done) :
    scene.listings.calls.length ≤ done + 1 := by
  rcases hlevel with hidle | hbusy
  · rw [hidle.length]
    omega
  · rw [hbusy.length]

/-- Where no plan is left, all listings have come to their end. -/
theorem Level.idle_of_length_le (hlevel : descent.Level scene held done)
    (hdone : descent.plans.length ≤ done) : descent.Idle scene held descent.plans.length := by
  have hidle : descent.Idle scene held done := by
    refine hlevel.resolve_right fun hbusy => ?_
    obtain ⟨_, _, _, hplan, -⟩ := hbusy.running
    have hlt := (List.getElem?_eq_some_iff.1 hplan).1
    omega
  obtain hall | ⟨last, rfl⟩ : done = 0 ∨ ∃ last, done = last + 1 := by
    cases done with
    | zero => exact .inl rfl
    | succ last => exact .inr ⟨last, rfl⟩
  · have hnone : descent.plans.length = done := by omega
    rwa [hnone]
  · obtain ⟨_, hplan, -⟩ := hidle.settled last (Nat.lt_succ_self last)
    have hlt := (List.getElem?_eq_some_iff.1 hplan).1
    have hall : descent.plans.length = last + 1 := by omega
    rwa [hall]

/-- A listing that is not going on begins, and one that is going on is joined. Either way it is the
    listing of the next plan. -/
theorem busy_attach (hlevel : descent.Level scene others done)
    {plan : ListingPlan} (hplan : descent.plans[done]? = some plan) :
    let entered := scene.listings.attach (ListingWork.conduct backend.watched) plan.key
      (.planned plan) scene.surroundings
    entered.1.call = done ∧
      descent.Busy ⟨entered.2.2, entered.2.1⟩ (entered.1 ::ₘ others) done := by
  intro entered
  have htidy := hlevel.tidy
  have hentered := htidy.sound.attach (ListingWork.conduct backend.watched) scene.surroundings
    plan.key (.planned plan)
  have hnumber : ∀ {number key work}, scene.listings.view number = some (key, .running work) →
      number = done ∧ descent.Busy scene others done := by
    intro number key work hview
    have hbegun : number < scene.listings.calls.length := by
      by_contra hnot
      rw [view_eq_none_iff.2 (Nat.le_of_not_lt hnot)] at hview
      cases hview
    have hnot : ¬ number < done := by
      intro hlt
      obtain ⟨_, _, hsettled⟩ := htidy.settled number hlt
      rw [hview] at hsettled
      cases hsettled
    rcases hlevel with hidle | hbusy
    · have hlength := hidle.length
      omega
    · have hlength := hbusy.length
      exact ⟨by omega, hbusy⟩
  rcases htidy.sound.attach_cases (ListingWork.conduct backend.watched) scene.surroundings plan.key
    (.planned plan) with ⟨number, work, hview, hattach⟩ | ⟨hnone, hattach⟩
  · obtain ⟨rfl, hbusy⟩ := hnumber hview
    refine ⟨congrArg (·.1.call) hattach, hbusy.of_view_eq hentered ?_ ?_⟩
    · exact (congrArg (·.2.1.view) hattach).trans (view_hold _ _)
    · exact congrArg (·.2.2.state) hattach
  · have hidle : descent.Idle scene others done := by
      refine hlevel.resolve_right fun hbusy => ?_
      obtain ⟨plan', work, -, hplan', hview, -⟩ := hbusy.running
      obtain rfl := Option.some.inj (hplan.symm.trans hplan')
      exact htidy.sound.joinable?_eq_none_iff.1 hnone done (htidy.sound.mem_entries_iff.2 ⟨_, hview⟩)
    have hlength := hidle.length
    have hview : entered.2.1.view = (scene.listings.begin plan.key (.planned plan)).view :=
      congrArg (·.2.1.view) hattach
    have hstate : entered.2.2.state = scene.surroundings.state := congrArg (·.2.2.state) hattach
    refine ⟨(congrArg (·.1.call) hattach).trans hlength,
      ⟨⟨?_, hentered, fun number hlt => ?_⟩, ?_, ?_⟩⟩
    · exact hstate ▸ htidy.holds
    · obtain ⟨plan', hplan', hsettled⟩ := htidy.settled number hlt
      refine ⟨plan', hplan', ?_⟩
      dsimp only
      rw [hview, view_begin, if_neg (by omega), hsettled]
    · dsimp only
      rw [length_eq_of_view_eq hview]
      simp [SharedCalls.begin, hlength]
    · refine ⟨plan, .planned plan, [plan.request], hplan, ?_, .planned, ?_⟩
      · dsimp only
        rw [hview, view_begin, if_pos hlength.symm]
      · dsimp only
        rw [hstate, hidle.requests, requests_succ hplan]

/-- Whoever looks at the listing that is going on finds it still going on, or at its end. -/
theorem busy_poll (hbusy : descent.Busy scene held done) :
    let polled := scene.listings.poll (ListingWork.conduct backend.watched) done scene.surroundings
    (polled.1 = none ∧ descent.Busy ⟨polled.2.2, polled.2.1⟩ held done) ∨
      ∃ plan, descent.plans[done]? = some plan ∧
        polled.1 = some (.value (descent.listingOf plan)) ∧
        descent.Idle ⟨polled.2.2, polled.2.1⟩ held (done + 1) := by
  intro polled
  have hsound := hbusy.sound.poll (ListingWork.conduct backend.watched) scene.surroundings done
  obtain ⟨plan, work, owed, hplan, hview, hwork, hrequests⟩ := hbusy.running
  obtain ⟨hholds, hissued, htells⟩ := hwork.resume hbusy.holds
  have hlength := hbusy.length
  cases hresume : work.resume scene.surroundings with
  | mk result s =>
    rw [hresume] at hholds hissued htells
    cases result with
    | waiting rest =>
      have hpoll : polled = (none, _, s) := poll_of_waiting hview hresume
      rw [hpoll]
      refine .inl ⟨rfl, ⟨hholds, ?_, fun number hlt => ?_⟩, ?_, ?_⟩
      · rwa [← hpoll]
      · obtain ⟨plan', hplan', hsettled⟩ := hbusy.settled number hlt
        refine ⟨plan', hplan', ?_⟩
        dsimp only
        rw [view_resume_of_view hview, if_neg (by omega), hsettled]
      · simpa [SharedCalls.onCall] using hlength
      · refine ⟨plan, rest, [], hplan, ?_, htells, ?_⟩
        · dsimp only
          rw [view_resume_of_view hview, if_pos rfl]
        · rw [List.append_nil, hissued, hrequests]
    | ready listing =>
      obtain rfl : listing = descent.listingOf plan := htells
      have hpoll : polled = (some (.value (descent.listingOf plan)), _, s) :=
        poll_of_ready hview hresume
      rw [hpoll]
      refine .inr ⟨plan, hplan, rfl, ⟨hholds, ?_, fun number hlt => ?_⟩, ?_, ?_⟩
      · rwa [← hpoll]
      · dsimp only
        rw [view_settle_of_view hview]
        by_cases hnumber : number = done
        · subst number
          exact ⟨plan, hplan, if_pos rfl⟩
        · obtain ⟨plan', hplan', hsettled⟩ := hbusy.settled number (by omega)
          exact ⟨plan', hplan', by rw [if_neg hnumber, hsettled]⟩
      · simpa [SharedCalls.settle, SharedCalls.forget, SharedCalls.onCall] using hlength
      · exact hissued.trans hrequests

theorem Reached.mono {first first' : Nat} {reached : Stage backend.watched α × Scene backend.watched}
    (hreached : descent.Reached first others reached) (hle : first' ≤ first) :
    descent.Reached first' others reached := by
  cases hreached with
  | waits later busy onward => exact .waits (hle.trans later) busy onward
  | ends idle => exact .ends idle

/-- A caller that looks at the listing that is going on waits for it or, at its end, goes on. -/
theorem reached_turn_of_busy {role : Role} {next : Outcome Listing → Procedure α}
    (hbusy : descent.Busy scene (⟨done, role⟩ ::ₘ others) done) (honward : descent.Onward done next)
    (hnext : ∀ {plan} {scene' : Scene backend.watched}, descent.plans[done]? = some plan →
      descent.Idle scene' others (done + 1) →
      descent.Reached (done + 1) others
        (Stage.advance (next (.value (descent.listingOf plan))) scene')) :
    descent.Reached done others (Stage.turn (.sharing ⟨done, role⟩ next) scene) := by
  rw [Stage.turn]
  dsimp only
  rcases busy_poll hbusy with ⟨hnone, hstill⟩ | ⟨plan, hplan, hvalue, hidle⟩
  · generalize scene.listings.poll (ListingWork.conduct backend.watched) done scene.surroundings =
      polled at hnone hstill
    obtain ⟨answer, listings, surroundings⟩ := polled
    obtain rfl : answer = none := hnone
    exact .waits le_rfl hstill honward
  · generalize scene.listings.poll (ListingWork.conduct backend.watched) done scene.surroundings =
      polled at hvalue hidle
    obtain ⟨answer, listings, surroundings⟩ := polled
    obtain rfl : answer = some (.value (descent.listingOf plan)) := hvalue
    obtain ⟨_, _, hsettled⟩ := hidle.settled done (Nat.lt_succ_self done)
    have hleft := leave_of_settled (ListingWork.conduct backend.watched) surroundings ⟨done, role⟩
      hsettled
    have hsound := hidle.sound.leave (ListingWork.conduct backend.watched) surroundings
    have hidle' : descent.Idle
        ⟨(listings.leave (ListingWork.conduct backend.watched) ⟨done, role⟩ surroundings).2,
          (listings.leave (ListingWork.conduct backend.watched) ⟨done, role⟩ surroundings).1⟩
        others (done + 1) :=
      hidle.of_view_eq hsound hleft.1 (congrArg Surroundings.state hleft.2)
    exact (hnext hplan hidle').mono (Nat.le_succ done)

/-- A caller that is to take part in the next listing does so, and goes on for as long as listings
    come to their end at once. -/
theorem reached_advance {procedure : Procedure α} {result : α}
    (hshares : procedure.Shares descent.offered descent.reply (descent.plans.drop done) result)
    (hlevel : descent.Level scene others done) :
    descent.Reached done others (Stage.advance procedure scene) := by
  induction procedure generalizing scene done with
  | done result' =>
    generalize hplans : descent.plans.drop done = plans at hshares
    cases hshares
    exact .ends (hlevel.idle_of_length_le (List.drop_eq_nil_iff.1 hplans))
  | log event next ih =>
    cases hshares with
    | log later => exact ih later (hlevel.of_view_eq hlevel.tidy.sound rfl rfl)
  | offer next ih =>
    cases hshares with
    | offer later =>
      have hoffer := descent.steady.watched.offer hlevel.tidy.holds
      rw [Stage.advance, hoffer]
      exact ih _ later hlevel
  | now next ih => cases hshares
  | ask request next ih => cases hshares
  | share plan next ih =>
    generalize hplans : descent.plans.drop done = plans at hshares
    cases hshares with
    | @share _ _ rest _ later =>
      have hplan : descent.plans[done]? = some plan := by
        rw [← List.head?_drop, hplans]
        rfl
      have hrest : descent.plans.drop (done + 1) = rest := by
        rw [← List.tail_drop, hplans]
        rfl
      rw [← hrest] at later
      obtain ⟨hcall, hbusy⟩ := busy_attach hlevel hplan
      rw [Stage.advance_share_eq_turn]
      dsimp only
      generalize scene.listings.attach (ListingWork.conduct backend.watched) plan.key
        (.planned plan) scene.surroundings = entered at hcall hbusy
      obtain ⟨⟨number, role⟩, listings, surroundings⟩ := entered
      obtain rfl : number = done := hcall
      refine reached_turn_of_busy hbusy ⟨plan, result, hplan, later⟩ fun hplan' hidle => ?_
      obtain rfl := Option.some.inj (hplan.symm.trans hplan')
      exact ih _ later (.inl hidle)

/-- The number of the first listing that a caller has not taken part in yet. -/
inductive Next (descent : Descent backend) : Stage backend.watched α → Nat → Prop
  | ready {procedure : Procedure α} {result : α}
      (shares : procedure.Shares descent.offered descent.reply descent.plans result) :
      Next descent (.ready procedure) 0
  | sharing {ticket : Ticket} {next : Outcome Listing → Procedure α}
      (onward : descent.Onward ticket.call next) :
      Next descent (.sharing ticket next) (ticket.call + 1)

theorem Next.le {stage : Stage backend.watched α} {number : Nat} (hnext : descent.Next stage number)
    (hlevel : descent.Level scene ((stage.held?.toList : Multiset Ticket) + others) done) :
    number ≤ done + 1 := by
  cases hnext with
  | ready => exact Nat.zero_le _
  | @sharing ticket =>
    have hbegun : ticket.call < scene.listings.calls.length := hlevel.tidy.sound.issued (by simp)
    have hlength := hlevel.length_le
    omega

/-- A caller that has taken part in all listings that have come to their end takes part in what comes
    next. -/
theorem reached_turn {stage : Stage backend.watched α} {number : Nat}
    (hnext : descent.Next stage number)
    (hlevel : descent.Level scene ((stage.held?.toList : Multiset Ticket) + others) done)
    (hdone : done ≤ number) : descent.Reached done others (stage.turn scene) := by
  cases hnext with
  | @ready procedure result shares =>
    obtain rfl : done = 0 := Nat.le_zero.1 hdone
    have hfree : descent.Level scene others 0 := by simpa using hlevel
    rw [Stage.turn]
    exact reached_advance shares hfree
  | @sharing ticket next onward =>
    obtain ⟨number, role⟩ := ticket
    obtain ⟨plan, result, hplan, hshares⟩ := onward
    have hheld : descent.Level scene (⟨number, role⟩ ::ₘ others) done := by simpa using hlevel
    have hbegun : number < scene.listings.calls.length :=
      hheld.tidy.sound.issued (Multiset.mem_cons_self _ _)
    have hlength := hheld.length_le
    dsimp only at hdone hplan hshares
    rcases Nat.lt_or_ge number done with hlt | hge
    · obtain rfl : done = number + 1 := by omega
      obtain ⟨plan', hplan', hsettled⟩ := hheld.tidy.settled number hlt
      obtain rfl := Option.some.inj (hplan.symm.trans hplan')
      have hleft := leave_of_settled (ListingWork.conduct backend.watched) scene.surroundings
        ⟨number, role⟩ hsettled
      have hsound := hheld.tidy.sound.leave (ListingWork.conduct backend.watched) scene.surroundings
      rw [Stage.turn]
      dsimp only
      rw [poll_of_settled hsettled]
      refine reached_advance hshares (hheld.of_view_eq hsound hleft.1 ?_)
      exact congrArg Surroundings.state hleft.2
    · obtain rfl : number = done := by omega
      have hbusy : descent.Busy scene (⟨number, role⟩ ::ₘ others) number := by
        refine hheld.resolve_left fun hidle => ?_
        have hall := hidle.length
        omega
      refine reached_turn_of_busy hbusy ⟨plan, result, hplan, hshares⟩ fun hplan' hidle => ?_
      obtain rfl := Option.some.inj (hplan.symm.trans hplan')
      exact reached_advance hshares (.inl hidle)

end Descent

end VirtualFs
