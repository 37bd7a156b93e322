import VirtualFs.Proofs.World.Run
import VirtualFs.Proofs.World.Scene

namespace VirtualFs

open SharedCalls

variable {σ τ α : Type} {backend : Backend σ} {behaviour : Behaviour τ}

namespace Stage

/-- What is known of a task, wherever it stands: however it goes on, it keeps to the accord and its
    result satisfies `post`. -/
def Sound (accord : Accord behaviour) (realization : Realization backend behaviour)
    (post : Bool → τ → α → Prop) (cut : Bool)
    (listings : SharedCalls (Nat × Path) (ListingWork backend) Listing) (t : τ) :
    Stage backend α → Prop
  | ready procedure => procedure.Safe accord post cut t
  | asking request flight next => (∀ {t'}, accord.Leads t t' → behaviour.Uses request t') ∧
    ∃ owed, realization.Owes flight owed ∧
    (owed = none → (Procedure.ask request next).Safe accord post cut t) ∧
    ∀ {answer}, owed = some answer → (next answer).Safe accord post cut t
  | sharing ticket next => ∃ key, (∃ stage, listings.view ticket.call = some (key, stage)) ∧
    accord.Accepts key ticket.call ∧
    (∀ {t' listing}, accord.Leads t t' → accord.Known key listing t' →
      (next (.value listing)).Safe accord post cut t') ∧
    (accord.Drops → ∀ {t'}, accord.Leads t t' → (next .aborted).Safe accord post true t')
  | returned result => ∀ {t'}, accord.Leads t t' → post cut t' result
  | dropped => True

variable {accord : Accord behaviour} {pact : Pact behaviour}
  {realization : Realization backend behaviour}
  {post : Bool → τ → α → Prop} {cut : Bool} {forsaken forsaken' : Nat → Prop}
  {scene : Scene backend} {held others : Multiset Ticket} {t t' : τ}
  {listings listings' : SharedCalls (Nat × Path) (ListingWork backend) Listing}

/-- What the others do does not hurt a task. -/
theorem Sound.mono {stage : Stage backend α}
    (hsound : stage.Sound accord realization post cut listings t) (hleads : accord.Leads t t')
    (hlater : listings.Later listings') :
    stage.Sound accord realization post cut listings' t' := by
  cases stage with
  | ready procedure => exact Procedure.Safe.mono hsound hleads
  | asking request flight next =>
    obtain ⟨huses, owed, howes, hnone, hsome⟩ := hsound
    exact ⟨fun h => huses (accord.trans hleads h), owed, howes,
      fun h _ h' => hnone h (accord.trans hleads h'), fun h => (hsome h).mono hleads⟩
  | sharing ticket next =>
    obtain ⟨key, ⟨stage, hview⟩, haccepts, hvalue, haborted⟩ := hsound
    obtain ⟨stage', hview', -⟩ := hlater hview
    exact ⟨key, ⟨stage', hview'⟩, haccepts, fun h => hvalue (accord.trans hleads h),
      fun hdrops _ h => haborted hdrops (accord.trans hleads h)⟩
  | returned result => exact fun h => hsound (accord.trans hleads h)
  | dropped => trivial

theorem Sound.weaken {post' : Bool → τ → α → Prop} {stage : Stage backend α}
    (hsound : stage.Sound accord realization post cut listings t)
    (hpost : ∀ {cut t result}, post cut t result → post' cut t result) :
    stage.Sound accord realization post' cut listings t := by
  cases stage with
  | ready procedure => exact Procedure.Safe.weaken hsound hpost
  | asking request flight next =>
    obtain ⟨huses, owed, howes, hnone, hsome⟩ := hsound
    refine ⟨huses, owed, howes, fun h {_} hleads => ?_, fun h => (hsome h).weaken hpost⟩
    have hasks : (Procedure.ask request next).Safe accord post cut t := hnone h
    exact hasks.weaken hpost hleads
  | sharing ticket next =>
    obtain ⟨key, hview, haccepts, hvalue, haborted⟩ := hsound
    exact ⟨key, hview, haccepts, fun h hknown => (hvalue h hknown).weaken hpost,
      fun hdrops _ h => (haborted hdrops h).weaken hpost⟩
  | returned result => exact fun h => hpost (hsound h)
  | dropped => trivial

/-- What a turn comes to: a task that is sound in a sound scene, while the backend may have moved on
    and nothing shared was forgotten. The tickets of the other tasks are untouched. -/
structure Reaches (pact : Pact behaviour) (accord : Accord behaviour)
    (realization : Realization backend behaviour) (post : Bool → τ → α → Prop) (cut : Bool)
    (forsaken : Nat → Prop) (others : Multiset Ticket)
    (listings : SharedCalls (Nat × Path) (ListingWork backend) Listing) (t : τ)
    (reached : Stage backend α × Scene backend) (t' : τ) : Prop where
  leads : pact.Leads t t'
  later : listings.Later reached.2.listings
  scene : reached.2.Sound pact realization forsaken
    ((reached.1.held?.toList : Multiset Ticket) + others) t'
  stage : reached.1.Sound accord realization post cut reached.2.listings t'

theorem Reaches.trans {reached : Stage backend α × Scene backend} {t'' : τ}
    (hreaches : Reaches pact accord realization post cut forsaken others listings' t' reached t'')
    (hleads : pact.Leads t t') (hlater : listings.Later listings') :
    Reaches pact accord realization post cut forsaken others listings t reached t'' where
  leads := pact.trans hleads hreaches.leads
  later := hlater.trans hreaches.later
  scene := hreaches.scene
  stage := hreaches.stage

/-- Looking at a listing in the name of a task that shares it. The flag is raised if the listing turns
    out to be aborted. -/
theorem reaches_poll {ticket : Ticket} {next : Outcome Listing → Procedure α} {cut' : Bool}
    (hjoins : accord.Joins pact)
    (hscene : scene.Sound pact realization forsaken (ticket ::ₘ others) t)
    (hstage : (sharing ticket next : Stage backend α).Sound accord realization post cut
      scene.listings t)
    (haborted : (scene.listings.poll (ListingWork.conduct backend) ticket.call
      scene.surroundings).1 = some .aborted → cut' = true ∧ accord.Drops)
    (hkept : (scene.listings.poll (ListingWork.conduct backend) ticket.call
      scene.surroundings).1 ≠ some .aborted → cut' = cut)
    (hnext : ∀ {outcome} {scene' : Scene backend} {t'}, (next outcome).Safe accord post cut' t' →
      scene'.Sound pact realization forsaken others t' →
      ∃ t'', Reaches pact accord realization post cut' forsaken others scene'.listings t'
        (advance (next outcome) scene') t'') :
    ∃ t', Reaches pact accord realization post cut' forsaken others scene.listings t
      (turn (sharing ticket next) scene) t' := by
  obtain ⟨t', hleads, hpolled⟩ := hscene.poll ticket.call
  have hlater := later_poll (ListingWork.conduct backend) scene.surroundings
    scene.listings ticket.call
  rw [turn]
  dsimp only at hpolled ⊢
  cases hpoll : scene.listings.poll (ListingWork.conduct backend) ticket.call
      scene.surroundings with
  | mk answer rest =>
    obtain ⟨listings', surroundings'⟩ := rest
    rw [hpoll] at hpolled hlater haborted hkept
    cases answer with
    | none =>
      obtain rfl := hkept (fun h => by cases h)
      refine ⟨t', hleads, hlater, ?_, hstage.mono (hjoins.leads hleads) hlater⟩
      simpa using hpolled
    | some outcome =>
      obtain ⟨key, ⟨stage, hview⟩, haccepts, hvalue, hcut⟩ := hstage
      obtain ⟨stage', hview', -⟩ := hlater hview
      obtain ⟨key', hsettled⟩ := view_of_poll hpoll
      have hsame := hview'
      rw [hsettled] at hsame
      cases hsame
      have hunnoticed :=
        leave_of_settled (ListingWork.conduct backend) surroundings' ticket hsettled
      have hended : ∀ {key work}, listings'.view ticket.call ≠ some (key, .running work) := by
        intro key work hrunning
        rw [hsettled] at hrunning
        cases hrunning
      have hleft : Scene.Sound pact realization forsaken _ others t' :=
        hpolled.leave id (fun _ hrunning => (hended hrunning).elim)
      have haccounts := hpolled.calls hsettled
      have hsafe : (next outcome).Safe accord post cut' t' := by
        cases outcome with
        | value listing =>
          obtain rfl := hkept (fun h => by cases h)
          exact hvalue (hjoins.leads hleads) (hjoins.knows haccepts haccounts)
        | aborted =>
          obtain ⟨rfl, hdrops⟩ := haborted rfl
          exact hcut hdrops (hjoins.leads hleads)
      obtain ⟨t'', hreaches⟩ := hnext hsafe hleft
      exact ⟨t'', hreaches.trans hleads (hlater.trans (later_of_view_eq hunnoticed.1))⟩

/-- What a turn given to a task's own request comes to. -/
theorem reaches_brings {request : Request} {before : Option request.Answer}
    {next : request.Answer → Procedure α}
    {turn : Turn σ (backend.Flight request) request.Answer}
    (hjoins : accord.Joins pact) (hscene : scene.Sound pact realization forsaken others t)
    (huses : ∀ {t'}, accord.Leads t t' → behaviour.Uses request t')
    (hbrings : backend.Brings behaviour realization.shows realization.Owes before t turn)
    (hnone : before = none → (Procedure.ask request next).Safe accord post cut t)
    (hsome : ∀ {answer}, before = some answer → (next answer).Safe accord post cut t)
    (hnext : ∀ {answer} {scene' : Scene backend} {t'}, (next answer).Safe accord post cut t' →
      scene'.Sound pact realization forsaken others t' →
      ∃ t'', Reaches pact accord realization post cut forsaken others scene'.listings t'
        (advance (next answer) scene') t'') :
    ∃ t', Reaches pact accord realization post cut forsaken others scene.listings t
      (let scene := { scene with surroundings := scene.surroundings.after request turn }
      match turn.poll with
      | .waiting flight => (asking request flight next, scene)
      | .ready answer => advance (next answer) scene) t' := by
  obtain ⟨after, t', hmoves, hshows, hpoll⟩ := hbrings
  have howed : pact.Leads t t' ∧
      (after = none → (Procedure.ask request next).Safe accord post cut t') ∧
      ∀ {answer}, after = some answer → (next answer).Safe accord post cut t' := by
    cases hmoves with
    | waits => exact ⟨pact.refl t, hnone, hsome⟩
    | acts hpermitted =>
      obtain ⟨hdoes, hsafe⟩ := (hnone rfl (accord.refl t)).2 hpermitted
      refine ⟨hjoins.does hdoes, (fun h => by cases h), ?_⟩
      rintro answer ⟨⟩
      exact hsafe
  obtain ⟨hleads, hnone, hsome⟩ := howed
  have hscene' : Scene.Sound pact realization forsaken
      { scene with surroundings := scene.surroundings.after request turn } others t' :=
    ⟨hshows, pact.reached_mono hscene.reached hleads, hscene.listings,
      fun _ _ _ h => (hscene.calls h).mono id hleads, hscene.opens⟩
  cases hturn : turn.poll with
  | waiting flight =>
    rw [hturn] at hpoll
    have huses' : ∀ {t''}, accord.Leads t' t'' → behaviour.Uses request t'' :=
      fun h => huses (accord.trans (hjoins.leads hleads) h)
    refine ⟨t', hleads, .refl _, ?_, huses', after, hpoll, hnone, hsome⟩
    simpa using hscene'
  | ready answer =>
    rw [hturn] at hpoll
    dsimp only at hpoll
    obtain ⟨t'', hreaches⟩ := hnext (hsome hpoll) hscene'
    exact ⟨t'', hreaches.trans hleads (.refl _)⟩

/-- To take part in a listing is to attach to it and then to look at it. -/
theorem advance_share_eq_turn (plan : ListingPlan) (next : Outcome Listing → Procedure α)
    (scene : Scene backend) :
    advance (.share plan next) scene =
      let entered := scene.listings.attach (ListingWork.conduct backend) plan.key (.planned plan)
        scene.surroundings
      turn (.sharing entered.1 next) ⟨entered.2.2, entered.2.1⟩ := by
  rw [advance]
  rfl

/-- Carrying a procedure on keeps to the pact. -/
theorem reaches_advance {procedure : Procedure α} (hjoins : accord.Joins pact)
    (hsafe : procedure.Safe accord post cut t)
    (hscene : scene.Sound pact realization forsaken others t) :
    ∃ t', Reaches pact accord realization post cut forsaken others scene.listings t
      (advance procedure scene) t' := by
  induction procedure generalizing scene t with
  | done result =>
    refine ⟨t, pact.refl t, .refl _, ?_, hsafe⟩
    simpa [advance] using hscene
  | log event next ih =>
    have hnoted : Scene.Sound pact realization forsaken
        { scene with surroundings := scene.surroundings.note event } others t :=
      ⟨hscene.shows, hscene.reached, hscene.listings, hscene.calls, hscene.opens⟩
    exact ih hsafe hnoted
  | offer next ih =>
    exact ih _ (hsafe (accord.refl t) (realization.offer hscene.shows)) hscene
  | now next ih => exact ih _ (hsafe _) hscene
  | ask request next ih =>
    have huses : ∀ {t'}, accord.Leads t t' → behaviour.Uses request t' := fun h => (hsafe h).1
    have hbrings := realization.issue (huses (accord.refl t)) hscene.shows
    rw [advance]
    refine reaches_brings hjoins hscene huses hbrings (fun _ => hsafe) ?_ ?_
    · intro answer howed
      cases howed
    · intro answer scene' t' hsafe' hscene'
      exact ih answer hsafe' hscene'
  | share plan next ih =>
    obtain ⟨hshareable, hvalue, haborted⟩ := hsafe
    obtain ⟨hentered, hopen, work, hview⟩ :=
      hscene.attach (hjoins.begins hscene.reached hshareable)
    have hlater := later_attach (ListingWork.conduct backend)
      scene.surroundings scene.listings plan.key (.planned plan)
    suffices hturn : ∃ t', Reaches pact accord realization post cut forsaken others
        (scene.listings.attach (ListingWork.conduct backend) plan.key (.planned plan)
          scene.surroundings).2.1 t (advance (.share plan next) scene) t' by
      obtain ⟨t', hreaches⟩ := hturn
      exact ⟨t', hreaches.trans (pact.refl t) hlater⟩
    rw [advance_share_eq_turn]
    refine reaches_poll hjoins hentered
      ⟨plan.key, ⟨_, hview⟩, hjoins.accepts hopen, hvalue, haborted⟩ (fun hanswer => ?_)
      (fun _ => rfl) (fun hsafe hscene' => ih _ hsafe hscene')
    exact (poll_ne_aborted hview hanswer).elim

/-- A turn keeps to the pact. Only a task that joined a listing whose starter was taken away gets
    word of it. -/
theorem reaches_turn {stage : Stage backend α} (hjoins : accord.Joins pact)
    (hstage : stage.Sound accord realization post cut scene.listings t)
    (hscene : scene.Sound pact realization forsaken
      ((stage.held?.toList : Multiset Ticket) + others) t)
    (hforsaken : ∀ {number}, forsaken number → pact.Drops) :
    ∃ t' cut', Reaches pact accord realization post cut' forsaken others scene.listings t
        (stage.turn scene) t' ∧
      (cut' = cut ∨ ∃ number next, stage = .sharing ⟨number, .joiner⟩ next ∧ forsaken number) := by
  cases stage with
  | ready procedure =>
    have hfree : scene.Sound pact realization forsaken others t := by simpa using hscene
    obtain ⟨t', hreaches⟩ := reaches_advance hjoins hstage hfree
    exact ⟨t', cut, hreaches, .inl rfl⟩
  | asking request flight next =>
    have hfree : scene.Sound pact realization forsaken others t := by simpa using hscene
    obtain ⟨huses, owed, howes, hnone, hsome⟩ := hstage
    have hbrings := realization.resume (huses (accord.refl t)) howes hscene.shows
    obtain ⟨t', hreaches⟩ :=
      reaches_brings hjoins hfree huses hbrings hnone hsome (reaches_advance hjoins)
    exact ⟨t', cut, hreaches, .inl rfl⟩
  | returned result =>
    exact ⟨t, cut, ⟨pact.refl t, .refl _, hscene, hstage⟩, .inl rfl⟩
  | dropped => exact ⟨t, cut, ⟨pact.refl t, .refl _, hscene, hstage⟩, .inl rfl⟩
  | sharing ticket next =>
    have hheld : scene.Sound pact realization forsaken (ticket ::ₘ others) t := by
      simpa using hscene
    by_cases hcut : (scene.listings.poll (ListingWork.conduct backend) ticket.call
        scene.surroundings).1 = some .aborted
    case pos =>
      obtain ⟨hlost, hjoiner⟩ := hheld.forsaken_of_poll hcut
      have hreached : ∃ t', Reaches pact accord realization post true forsaken others scene.listings t
          (turn (sharing ticket next) scene) t' :=
        reaches_poll hjoins hheld hstage (fun _ => ⟨rfl, hjoins.drops (hforsaken hlost)⟩)
          (fun h => (h hcut).elim) (reaches_advance hjoins)
      obtain ⟨t', hreaches⟩ := hreached
      refine ⟨t', true, hreaches, .inr ⟨ticket.call, next, ?_, hlost⟩⟩
      rw [← hjoiner]
    case neg =>
      have hreached : ∃ t', Reaches pact accord realization post cut forsaken others scene.listings t
          (turn (sharing ticket next) scene) t' :=
        reaches_poll hjoins hheld hstage (fun h => (hcut h).elim) (fun _ => rfl)
          (reaches_advance hjoins)
      obtain ⟨t', hreaches⟩ := hreached
      exact ⟨t', cut, hreaches, .inl rfl⟩

/-- A task that is taken away keeps to the pact too, if it is remembered which listings were left by
    their starters. -/
theorem reaches_drop {stage : Stage backend α}
    (hstage : stage.Sound accord realization post cut scene.listings t)
    (hscene : scene.Sound pact realization forsaken
      ((stage.held?.toList : Multiset Ticket) + others) t)
    (hforsaken : ∀ {number}, forsaken number → forsaken' number)
    (hstarter : ∀ {number next key work}, stage = .sharing ⟨number, .starter⟩ next →
      scene.listings.view number = some (key, .running work) → forsaken' number) :
    Reaches pact accord realization post cut forsaken' others scene.listings t (stage.drop scene)
      t := by
  have hsame : scene.Sound pact realization forsaken'
      ((stage.held?.toList : Multiset Ticket) + others) t := hscene.mono hforsaken
  cases stage with
  | ready procedure =>
    refine ⟨pact.refl t, .refl _, ?_, trivial⟩
    simpa [drop] using hsame
  | asking request flight next =>
    have huses := hstage.1 (accord.refl t)
    refine ⟨pact.refl t, .refl _, ⟨realization.abandon flight huses hsame.shows, hsame.reached, ?_,
      hsame.calls, hsame.opens⟩, trivial⟩
    simpa [drop] using hsame.listings
  | returned result => exact ⟨pact.refl t, .refl _, hsame, hstage⟩
  | dropped => exact ⟨pact.refl t, .refl _, hsame, hstage⟩
  | sharing ticket next =>
    have hheld : scene.Sound pact realization forsaken (ticket ::ₘ others) t := by
      simpa using hscene
    have hleft : Scene.Sound pact realization forsaken' _ others t :=
      hheld.leave hforsaken (fun hrole hview => hstarter (by rw [← hrole]) hview)
    refine ⟨pact.refl t, hheld.listings.later_leave _ _, ?_, trivial⟩
    simpa [drop] using hleft

end Stage

end VirtualFs
