import VirtualFs.Proofs.Accord
import VirtualFs.Proofs.SharedCalls.Sound
import VirtualFs.World

namespace VirtualFs

open SharedCalls

variable {σ τ : Type} {backend : Backend σ} {behaviour : Behaviour τ}

namespace ListingWork

/-- The plan that some work carries out. -/
def plan : ListingWork backend → ListingPlan
  | planned plan => plan
  | asked plan _ => plan

/-- What is known of work that is under way: its listing may be shared as long as the request has had
    no effect, and afterwards the answer that the request is owed is one to a shared listing. -/
def Underway (accord : Accord behaviour) (realization : Realization backend behaviour) :
    ListingWork backend → τ → Prop
  | planned plan, t => accord.Shareable plan t
  | asked plan flight, t => ∃ owed, realization.Owes flight owed ∧
    (owed = none → accord.Shareable plan t) ∧
    ∀ {answer}, owed = some answer → accord.Answered plan answer t

variable {accord : Accord behaviour} {pact : Pact behaviour} {number : Nat}
  {realization : Realization backend behaviour} {t t' : τ}

theorem Underway.mono {work : ListingWork backend} (hwork : work.Underway accord realization t)
    (hleads : accord.Leads t t') : work.Underway accord realization t' := by
  cases work with
  | planned plan => exact accord.shareable_mono hwork hleads
  | asked plan flight =>
    obtain ⟨owed, howes, hnone, hsome⟩ := hwork
    exact ⟨owed, howes, fun h => accord.shareable_mono (hnone h) hleads,
      fun h => (hsome h).mono hleads⟩

/-- What a request of shared work is owed after it moved. -/
private theorem moves_owed {plan : ListingPlan} {before after : Option plan.request.Answer}
    (hmoves : behaviour.Moves plan.request before t after t')
    (hnone : before = none → (pact.ledger number).Shareable plan t)
    (hsome : ∀ {answer}, before = some answer → (pact.ledger number).Answered plan answer t) :
    pact.Leads t t' ∧ (after = none → (pact.ledger number).Shareable plan t') ∧
      ∀ {answer}, after = some answer → (pact.ledger number).Answered plan answer t' := by
  cases hmoves with
  | waits => exact ⟨pact.refl t, hnone, hsome⟩
  | acts hpermitted =>
    refine ⟨pact.listed hpermitted, (fun h => by cases h), ?_⟩
    rintro answer ⟨⟩
    exact ⟨t, t', hnone rfl, hpermitted, Accord.since_refl _ plan t'⟩

private theorem afterTurn_spec {plan : ListingPlan} {before : Option plan.request.Answer}
    {s : Surroundings σ} {turn : Turn σ (backend.Flight plan.request) plan.request.Answer}
    (hbrings : backend.Brings behaviour realization.shows realization.Owes before t turn)
    (hnone : before = none → (pact.ledger number).Shareable plan t)
    (hsome : ∀ {answer}, before = some answer → (pact.ledger number).Answered plan answer t) :
    ∃ t', pact.Leads t t' ∧ realization.shows (afterTurn plan s turn).2.state t' ∧
      (∀ {rest}, (afterTurn plan s turn).1 = .waiting rest →
        rest.plan = plan ∧ rest.Underway (pact.ledger number) realization t') ∧
      ∀ {listing}, (afterTurn plan s turn).1 = .ready listing →
        (pact.ledger number).Known plan.key listing t' := by
  obtain ⟨after, t', hmoves, hshows, hpoll⟩ := hbrings
  obtain ⟨hleads, hnone, hsome⟩ := moves_owed hmoves hnone hsome
  refine ⟨t', hleads, ?_⟩
  cases hturn : turn.poll with
  | waiting flight =>
    rw [hturn] at hpoll
    simp only [afterTurn, hturn]
    refine ⟨hshows, ?_, fun h => by cases h⟩
    rintro rest ⟨⟩
    exact ⟨rfl, after, hpoll, hnone, hsome⟩
  | ready answer =>
    rw [hturn] at hpoll
    dsimp only at hpoll
    subst after
    simp only [afterTurn, hturn]
    refine ⟨hshows, (fun h => by cases h), ?_⟩
    rintro listing ⟨⟩
    exact ⟨plan, answer, rfl, hsome rfl, rfl⟩

/-- Carrying shared work forward keeps to the pact, and its listing may become known. -/
theorem resume_spec {work : ListingWork backend} {s : Surroundings σ}
    (hwork : work.Underway (pact.ledger number) realization t)
    (hshows : realization.shows s.state t) :
    ∃ t', pact.Leads t t' ∧ realization.shows (work.resume s).2.state t' ∧
      (∀ {rest}, (work.resume s).1 = .waiting rest →
        rest.plan = work.plan ∧ rest.Underway (pact.ledger number) realization t') ∧
      ∀ {listing}, (work.resume s).1 = .ready listing →
        (pact.ledger number).Known work.plan.key listing t' := by
  cases work with
  | planned plan =>
    have hbrings := realization.issue (behaviour.lists plan.object _) hshows
    exact afterTurn_spec hbrings (fun _ => hwork) (fun h => by cases h)
  | asked plan flight =>
    obtain ⟨owed, howes, hnone, hsome⟩ := hwork
    exact afterTurn_spec (realization.resume (behaviour.lists _ _) howes hshows) hnone hsome

end ListingWork

namespace Scene

/-- What is known of a shared listing, given the listings whose starters were taken away. -/
def Accounts (pact : Pact behaviour) (realization : Realization backend behaviour)
    (forsaken : Nat → Prop) (t : τ) (number : Nat) (key : Nat × Path) :
    SharedCalls.Stage (ListingWork backend) Listing → Prop
  | .running work => work.plan.key = key ∧ work.Underway (pact.ledger number) realization t ∧
    pact.Open key number
  | .cancelled _ => forsaken number
  | .settled (.value listing) => (pact.ledger number).Known key listing t
  | .settled .aborted => forsaken number

/-- What is known of a scene while tasks hold some tickets and the backend shows `t`. -/
structure Sound (pact : Pact behaviour) (realization : Realization backend behaviour)
    (forsaken : Nat → Prop) (scene : Scene backend) (held : Multiset Ticket) (t : τ) : Prop where
  shows : realization.shows scene.surroundings.state t
  reached : pact.Reached t
  listings : scene.listings.Sound held
  calls : scene.listings.Every (Accounts pact realization forsaken t)
  opens : ∀ {key number}, scene.listings.calls.length ≤ number → pact.Open key number

variable {accord : Accord behaviour} {pact : Pact behaviour}
  {realization : Realization backend behaviour} {forsaken forsaken' : Nat → Prop}
  {scene : Scene backend} {held : Multiset Ticket} {t t' : τ}

theorem Accounts.mono {number : Nat} {key : Nat × Path}
    {stage : SharedCalls.Stage (ListingWork backend) Listing}
    (haccounts : Accounts pact realization forsaken t number key stage)
    (hforsaken : ∀ {number}, forsaken number → forsaken' number) (hleads : pact.Leads t t') :
    Accounts pact realization forsaken' t' number key stage := by
  cases stage with
  | running work => exact ⟨haccounts.1, haccounts.2.1.mono (pact.heeds hleads), haccounts.2.2⟩
  | cancelled work => exact hforsaken haccounts
  | settled outcome =>
    cases outcome with
    | value listing => exact Accord.Known.mono haccounts (pact.heeds hleads)
    | aborted => exact hforsaken haccounts

theorem Sound.mono (hscene : scene.Sound pact realization forsaken held t)
    (hforsaken : ∀ {number}, forsaken number → forsaken' number) :
    scene.Sound pact realization forsaken' held t :=
  { hscene with calls := fun _ _ _ h => (hscene.calls h).mono hforsaken (pact.refl t) }

/-- What is agreed on may change if what is known of the listings so far will do. -/
theorem Sound.adopt {pact' : Pact behaviour} (hscene : scene.Sound pact realization forsaken held t)
    (hreached : pact'.Reached t)
    (hcalls : ∀ {number key stage}, scene.listings.view number = some (key, stage) →
      Accounts pact realization forsaken t number key stage →
      Accounts pact' realization forsaken t number key stage)
    (hopens : ∀ {key number}, scene.listings.calls.length ≤ number → pact'.Open key number) :
    scene.Sound pact' realization forsaken held t where
  shows := hscene.shows
  reached := hreached
  listings := hscene.listings
  calls _ _ _ hview := hcalls hview (hscene.calls hview)
  opens := hopens

theorem accounts_of_isAborted {number : Nat} {key : Nat × Path}
    {stage : SharedCalls.Stage (ListingWork backend) Listing} (haborted : stage.IsAborted)
    (hforsaken : forsaken number) : Accounts pact realization forsaken t number key stage := by
  cases stage with
  | running work => exact haborted.elim
  | cancelled work => exact hforsaken
  | settled outcome =>
    obtain rfl := (Stage.isAborted_settled outcome).1 haborted
    exact hforsaken

/-- Whoever begins a listing that may be shared, or joins one, leaves the scene sound. -/
theorem Sound.attach (hscene : scene.Sound pact realization forsaken held t) {plan : ListingPlan}
    (hplan : (pact.ledger scene.listings.calls.length).Shareable plan t) :
    let entered := scene.listings.attach (ListingWork.conduct backend) plan.key (.planned plan)
      scene.surroundings
    Sound pact realization forsaken ⟨entered.2.2, entered.2.1⟩ (entered.1 ::ₘ held) t ∧
      pact.Open plan.key entered.1.call ∧
      ∃ work, entered.2.1.view entered.1.call = some (plan.key, .running work) := by
  intro entered
  have hlistings := hscene.listings.attach (ListingWork.conduct backend) scene.surroundings
    plan.key (.planned plan)
  have hopen : pact.Open plan.key scene.listings.calls.length := hscene.opens (Nat.le_refl _)
  have hbegin : Accounts pact realization forsaken t scene.listings.calls.length plan.key
      (.running (.planned plan)) := ⟨rfl, hplan, hopen⟩
  have hcalls := Every.attach (ListingWork.conduct backend) scene.surroundings hscene.calls
    (fun _ => hbegin)
  have hlonger := (later_attach (ListingWork.conduct backend) scene.surroundings scene.listings
    plan.key (.planned plan)).length_le
  have hopens : ∀ {key number}, entered.2.1.calls.length ≤ number → pact.Open key number :=
    fun h => hscene.opens (hlonger.trans h)
  rcases hscene.listings.attach_cases (ListingWork.conduct backend) scene.surroundings plan.key
    (.planned plan) with ⟨number, work, hview, hattach⟩ | ⟨-, hattach⟩
  · refine ⟨⟨?_, hscene.reached, hlistings, hcalls, hopens⟩, ?_, work, ?_⟩
    · simp only [entered, hattach]
      exact hscene.shows
    · simpa only [entered, hattach] using (hscene.calls hview).2.2
    · simpa only [entered, hattach, view_hold] using hview
  · refine ⟨⟨?_, hscene.reached, hlistings, hcalls, hopens⟩, ?_, .planned plan, ?_⟩
    · simpa only [entered, hattach] using hscene.shows
    · simpa only [entered, hattach] using hopen
    · simp only [entered, hattach, view_begin, if_pos]

/-- Whoever looks at a listing leaves the scene sound. -/
theorem Sound.poll (hscene : scene.Sound pact realization forsaken held t) (number : Nat) :
    let polled := scene.listings.poll (ListingWork.conduct backend) number scene.surroundings
    ∃ t', pact.Leads t t' ∧
      Sound pact realization forsaken ⟨polled.2.2, polled.2.1⟩ held t' := by
  intro polled
  have hlistings := hscene.listings.poll (ListingWork.conduct backend) scene.surroundings number
  have hlonger := (later_poll (ListingWork.conduct backend) scene.surroundings scene.listings
    number).length_le
  have hopens : ∀ {key other}, polled.2.1.calls.length ≤ other → pact.Open key other :=
    fun h => hscene.opens (hlonger.trans h)
  cases hview : scene.listings.view number with
  | none =>
    have hcall : scene.listings.calls[number]? = none := by simpa [view] using hview
    refine ⟨t, pact.refl t, ?_⟩
    simpa [polled, SharedCalls.poll, hcall] using hscene
  | some seen =>
    obtain ⟨key, stage⟩ := seen
    have honly : ∀ {key' stage'}, scene.listings.view number = some (key', stage') →
        key' = key ∧ stage' = stage := by
      intro key' stage' hview'
      rw [hview] at hview'
      cases hview'
      exact ⟨rfl, rfl⟩
    cases stage with
    | settled outcome =>
      refine ⟨t, pact.refl t, ?_⟩
      simpa [polled, poll_of_settled hview] using hscene
    | cancelled work =>
      refine ⟨t, pact.refl t, ?_, hscene.reached, hlistings, ?_, hopens⟩
      · simp only [polled, poll_of_cancelled hview]
        cases work with
        | planned plan => exact hscene.shows
        | asked plan flight => exact realization.abandon flight (behaviour.lists _ _) hscene.shows
      · refine Every.poll hscene.calls (fun hrunning => ?_) (fun hrunning => ?_) ?_
        · cases (honly hrunning).2
        · cases (honly hrunning).2
        · intro key' work' hcancelled
          have hforsaken : forsaken number := hscene.calls hcancelled
          exact hforsaken
    | running work =>
      obtain ⟨rfl, hwork, hopen⟩ := hscene.calls hview
      obtain ⟨t', hleads, hshows, hwaiting, hready⟩ := ListingWork.resume_spec hwork hscene.shows
      have hcalls : scene.listings.Every (Accounts pact realization forsaken t') :=
        fun _ _ _ h => (hscene.calls h).mono id hleads
      refine ⟨t', hleads, ?_, pact.reached_mono hscene.reached hleads, hlistings, ?_, hopens⟩
      · rw [show polled.2.2 = (work.resume scene.surroundings).2 from poll_of_running hview]
        exact hshows
      · refine Every.poll hcalls (fun hrunning hresume => ?_) (fun hrunning hresume => ?_)
          (fun hcancelled => ?_)
        · obtain ⟨rfl, hwork⟩ := honly hrunning
          cases hwork
          obtain ⟨hplan, hrest⟩ := hwaiting hresume
          exact ⟨by rw [hplan], hrest, hopen⟩
        · obtain ⟨rfl, hwork⟩ := honly hrunning
          cases hwork
          exact hready hresume
        · cases (honly hcancelled).2

/-- Only joiners get word that a listing was aborted, when its starter was taken away. -/
theorem Sound.forsaken_of_poll {ticket : Ticket}
    (hscene : scene.Sound pact realization forsaken (ticket ::ₘ held) t)
    (haborted : (scene.listings.poll (ListingWork.conduct backend) ticket.call
      scene.surroundings).1 = some .aborted) :
    forsaken ticket.call ∧ ticket.role = .joiner := by
  obtain ⟨t', -, hpolled⟩ := hscene.poll ticket.call
  cases hpoll : scene.listings.poll (ListingWork.conduct backend) ticket.call
      scene.surroundings with
  | mk answer rest =>
    rw [hpoll] at hpolled haborted
    obtain rfl : answer = some .aborted := haborted
    obtain ⟨key, hsettled⟩ := view_of_poll hpoll
    refine ⟨hpolled.calls hsettled, ?_⟩
    -- A starter that still waits would have kept its call from being aborted.
    obtain ⟨call, hcall, -, hstage⟩ := view_eq_some_iff.1 hsettled
    have hlost := (hpolled.listings.call hcall).aborted (by simp [hstage])
    obtain ⟨number, role⟩ := ticket
    cases role with
    | joiner => rfl
    | starter => simp at hlost

/-- A task leaves the scene sound when it goes, if it is remembered which listings were left by
    their starters. -/
theorem Sound.leave {ticket : Ticket}
    (hscene : scene.Sound pact realization forsaken (ticket ::ₘ held) t)
    (hforsaken : ∀ {number}, forsaken number → forsaken' number)
    (hstarter : ∀ {key work}, ticket.role = .starter →
      scene.listings.view ticket.call = some (key, .running work) → forsaken' ticket.call) :
    let left := scene.listings.leave (ListingWork.conduct backend) ticket scene.surroundings
    Sound pact realization forsaken' ⟨left.2, left.1⟩ held t := by
  intro left
  have hcalls : scene.listings.Every (Accounts pact realization forsaken' t) :=
    fun _ _ _ h => (hscene.calls h).mono hforsaken (pact.refl t)
  have hlonger := (hscene.listings.later_leave (ListingWork.conduct backend)
    scene.surroundings).length_le
  refine ⟨?_, hscene.reached,
    hscene.listings.leave (ListingWork.conduct backend) scene.surroundings,
    hscene.listings.every_leave _ _ hcalls
      (fun hrole hview haborted => accounts_of_isAborted haborted (hstarter hrole hview))
      (fun hview => show forsaken' ticket.call from hcalls hview),
    fun h => hscene.opens (hlonger.trans h)⟩
  rcases hscene.listings.leave_cases (ListingWork.conduct backend) scene.surroundings with
    ⟨-, hsame, -⟩ | ⟨key, work, stage, -, -, ⟨-, hsame⟩ | ⟨-, hdiscard⟩⟩
  · simpa only [left, hsame] using hscene.shows
  · simpa only [left, hsame] using hscene.shows
  · simp only [left, hdiscard]
    cases work with
    | planned plan => exact hscene.shows
    | asked plan flight => exact realization.abandon flight (behaviour.lists _ _) hscene.shows

end Scene

end VirtualFs
