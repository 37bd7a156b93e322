import VirtualFs.Proofs.World.Task

namespace VirtualFs.World

open SharedCalls

variable {σ τ α : Type} {backend : Backend σ} {behaviour : Behaviour τ}

/-- What is known of a world whose tasks go by the accords `terms` and are to end as `posts` says,
    given the listings whose starters were taken away and the tasks that have joined one of these. -/
structure Sound (pact : Pact behaviour) (terms : Nat → Accord behaviour)
    (realization : Realization backend behaviour) (posts : Nat → Bool → τ → α → Prop)
    (forsaken spoilt : Nat → Prop) (world : World backend α) (t : τ) : Prop where
  scene : world.scene.Sound pact realization forsaken world.tickets t
  tasks : ∀ {index stage}, world.tasks[index]? = some stage →
    ∃ cut, (cut = true → spoilt index) ∧
      stage.Sound (terms index) realization (posts index) cut world.scene.listings t

/-- A move that is allowed: nothing outside the tasks changes what the backend shows, and tasks are
    taken away only if that was agreed. -/
def Move.Allowed (drift : Drift behaviour) (realization : Realization backend behaviour) :
    Move σ → Prop
  | .turn _ => True
  | .drop _ => drift.Drops
  | .change effect => ∀ {s t}, realization.shows s.state t → realization.shows (effect s).state t

/-- A move that takes no task away, and outside the tasks changes nothing that the backend shows. -/
def Move.Calm (realization : Realization backend behaviour) : Move σ → Prop
  | .turn _ => True
  | .drop _ => False
  | .change effect => ∀ {s t}, realization.shows s.state t → realization.shows (effect s).state t

variable {drift : Drift behaviour} {pact : Pact behaviour} {terms : Nat → Accord behaviour}
  {realization : Realization backend behaviour} {posts : Nat → Bool → τ → α → Prop}
  {forsaken forsaken' spoilt spoilt' : Nat → Prop} {world : World backend α} {t : τ}

@[simp] theorem Move.calm_turn (index : Nat) : (Move.turn index).Calm realization := trivial

theorem Move.Calm.allowed {move : Move σ} (hcalm : move.Calm realization) :
    move.Allowed drift realization := by
  cases move with
  | turn index => trivial
  | drop index => exact hcalm.elim
  | change change => exact hcalm

/-- Procedures that are safe from the start make a sound world. -/
theorem sound_gather {surroundings : Surroundings σ} {procedures : List (Procedure α)}
    (hshows : realization.shows surroundings.state t) (hreached : pact.Reached t)
    (hopens : ∀ {key number}, pact.Open key number)
    (hsafe : ∀ {index : Nat} {procedure}, procedures[index]? = some procedure →
      procedure.Safe (terms index) (posts index) false t) :
    (gather surroundings procedures : World backend α).Sound pact terms realization posts forsaken
      spoilt t := by
  have hnone : (gather surroundings procedures : World backend α).tickets = 0 := by
    simp [gather, tickets, heldBy, List.filterMap_map, Function.comp_def]
  refine ⟨⟨hshows, hreached, hnone ▸ sound_empty, every_empty _, fun _ => hopens⟩,
    fun {index stage} hstage => ?_⟩
  obtain ⟨procedure, hprocedure, rfl⟩ : ∃ procedure, procedures[index]? = some procedure ∧
      Stage.ready procedure = stage := by
    simpa [gather] using hstage
  exact ⟨false, (fun h => by cases h), hsafe hprocedure⟩

theorem Sound.mono (hworld : world.Sound pact terms realization posts forsaken spoilt t)
    (hforsaken : ∀ {number}, forsaken number → forsaken' number)
    (hspoilt : ∀ {index}, spoilt index → spoilt' index) :
    world.Sound pact terms realization posts forsaken' spoilt' t := by
  refine ⟨hworld.scene.mono hforsaken, fun hstage => ?_⟩
  obtain ⟨cut, hcut, hsound⟩ := hworld.tasks hstage
  exact ⟨cut, fun h => hspoilt (hcut h), hsound⟩

/-- One more task may come at any time, if its procedure is safe by then. -/
theorem Sound.start {procedure : Procedure α}
    (hworld : world.Sound pact terms realization posts forsaken spoilt t)
    (hsafe : procedure.Safe (terms world.tasks.length) (posts world.tasks.length) false t) :
    (world.start procedure).Sound pact terms realization posts forsaken spoilt t := by
  have htickets : (world.start procedure).tickets = world.tickets := by
    simp [World.start, tickets, heldBy, List.filterMap_cons]
  refine ⟨htickets ▸ hworld.scene, fun {index stage} hstage => ?_⟩
  rw [World.start, List.getElem?_append] at hstage
  split at hstage
  case isTrue => exact hworld.tasks hstage
  case isFalse hindex =>
    rw [List.getElem?_singleton] at hstage
    split at hstage
    case isTrue hzero =>
      obtain rfl := Option.some.inj hstage
      have hlast : index = world.tasks.length := by omega
      exact ⟨false, (fun h => by cases h), hlast ▸ hsafe⟩
    case isFalse => cases hstage

/-- One task moves and the others are as sound as before. -/
private theorem Sound.set {index : Nat} {stage : Stage backend α} {cut : Bool}
    {reached : Stage backend α × Scene backend} {others : Multiset Ticket} {t' : τ}
    (hworld : world.Sound pact terms realization posts forsaken spoilt t)
    (hjoins : ∀ index, (terms index).Joins pact) (hstage : world.tasks[index]? = some stage)
    (hothers : ∀ stage', heldBy Stage.held? (world.tasks.set index stage') =
      (stage'.held?.toList : Multiset Ticket) + others)
    (hreaches : Stage.Reaches pact (terms index) realization (posts index) cut forsaken' others
      world.scene.listings t reached t')
    (hcut : cut = true → spoilt' index)
    (hspoilt : ∀ {index}, spoilt index → spoilt' index) :
    Sound pact terms realization posts forsaken' spoilt'
      ⟨reached.2, world.tasks.set index reached.1⟩ t' := by
  refine ⟨?_, fun {other stage'} hother => ?_⟩
  · rw [tickets, hothers]
    exact hreaches.scene
  · by_cases hindex : index = other
    · subst other
      rw [List.getElem?_set_self (List.getElem?_eq_some_iff.1 hstage).1] at hother
      obtain rfl := Option.some.inj hother
      exact ⟨cut, hcut, hreaches.stage⟩
    · rw [List.getElem?_set_ne hindex] at hother
      obtain ⟨cut', hcut', hstage'⟩ := hworld.tasks hother
      exact ⟨cut', fun h => hspoilt (hcut' h),
        hstage'.mono ((hjoins other).leads hreaches.leads) hreaches.later⟩

/-- A move that is allowed leaves the world sound, if it is remembered which listings were
    left by their starters and which tasks had joined them. -/
theorem Sound.make {move : Move σ}
    (hworld : world.Sound pact terms realization posts forsaken spoilt t)
    (hjoins : ∀ index, (terms index).Joins pact) (hmove : move.Allowed pact.toDrift realization)
    (hdrops : ∀ {number}, forsaken number → pact.Drops)
    (hforsaken : ∀ {number}, forsaken number → forsaken' number)
    (hspoilt : ∀ {index}, spoilt index → spoilt' index)
    (hstarter : ∀ {index number next key work}, move = .drop index →
      world.tasks[index]? = some (.sharing ⟨number, .starter⟩ next) →
      world.scene.listings.view number = some (key, .running work) → forsaken' number)
    (hjoiner : ∀ {index number next}, world.tasks[index]? = some (.sharing ⟨number, .joiner⟩ next) →
      forsaken number → spoilt' index) :
    ∃ t', pact.Leads t t' ∧
      (world.make move).Sound pact terms realization posts forsaken' spoilt' t' ∧
      world.scene.listings.Later (world.make move).scene.listings := by
  have hsame : ∀ {world' : World backend α}, world'.tasks = world.tasks →
      world'.scene.listings = world.scene.listings →
      realization.shows world'.scene.surroundings.state t →
      world'.Sound pact terms realization posts forsaken' spoilt' t := by
    intro world' htasks hlistings hshows
    refine ⟨⟨hshows, hworld.scene.reached, ?_, ?_, ?_⟩, fun {index stage} hstage => ?_⟩
    · rw [hlistings, tickets, htasks]
      exact hworld.scene.listings
    · rw [hlistings]
      exact fun _ _ _ h => (hworld.scene.calls h).mono hforsaken (pact.refl t)
    · rw [hlistings]
      exact hworld.scene.opens
    · rw [htasks] at hstage
      obtain ⟨cut, hcut, hsound⟩ := hworld.tasks hstage
      exact ⟨cut, fun h => hspoilt (hcut h), hlistings ▸ hsound⟩
  rcases make_cases world move with
    ⟨change, rfl, hmake⟩ | hmake | ⟨index, stage, hstage, ⟨rfl, hmake⟩ | ⟨rfl, hmake⟩⟩
  · rw [hmake]
    exact ⟨t, pact.refl t, hsame rfl rfl (hmove hworld.scene.shows), .refl _⟩
  · rw [hmake]
    exact ⟨t, pact.refl t, hsame rfl rfl hworld.scene.shows, .refl _⟩
  · obtain ⟨others, hbefore, hothers⟩ := exists_heldBy_others Stage.held? hstage
    obtain ⟨cut, hcut, hsound⟩ := hworld.tasks hstage
    have hscene := hworld.scene
    rw [tickets, hbefore] at hscene
    obtain ⟨t', cut', hreaches, hlost⟩ := Stage.reaches_turn (hjoins index) hsound hscene hdrops
    have hcut' : cut' = true → spoilt' index := by
      rcases hlost with rfl | ⟨number, next, rfl, hlost⟩
      · exact fun h => hspoilt (hcut h)
      · exact fun _ => hjoiner hstage hlost
    rw [hmake]
    have hreaches' : Stage.Reaches pact (terms index) realization (posts index) cut' forsaken'
        others world.scene.listings t (stage.turn world.scene) t' :=
      ⟨hreaches.leads, hreaches.later, hreaches.scene.mono hforsaken, hreaches.stage⟩
    exact ⟨t', hreaches.leads, hworld.set hjoins hstage hothers hreaches' hcut' hspoilt,
      hreaches.later⟩
  · obtain ⟨others, hbefore, hothers⟩ := exists_heldBy_others Stage.held? hstage
    obtain ⟨cut, hcut, hsound⟩ := hworld.tasks hstage
    have hscene := hworld.scene
    rw [tickets, hbefore] at hscene
    have hreaches := Stage.reaches_drop hsound hscene hforsaken (by
      rintro number next key work rfl hview
      exact hstarter rfl hstage hview)
    rw [hmake]
    exact ⟨t, pact.refl t,
      hworld.set hjoins hstage hothers hreaches (fun h => hspoilt (hcut h)) hspoilt, hreaches.later⟩

theorem Forsaken.drops {start : World backend α} {moves : List (Move σ)} {number : Nat}
    (hforsaken : start.Forsaken moves number)
    (hmoves : ∀ move ∈ moves, move.Allowed drift realization) : drift.Drops := by
  obtain ⟨index, earlier, hearlier, -⟩ := hforsaken
  exact hmoves (.drop index) (hearlier.subset (by simp))

/-- In the course of every history that is allowed the world stays sound. -/
theorem sound_run {start : World backend α} {moves : List (Move σ)} {t₀ : τ}
    (hstart : ∀ {forsaken spoilt}, start.Sound pact terms realization posts forsaken spoilt t₀)
    (hjoins : ∀ index, (terms index).Joins pact)
    (hmoves : ∀ move ∈ moves, move.Allowed pact.toDrift realization) :
    ∃ t, pact.Leads t₀ t ∧ (start.run moves).Sound pact terms realization posts
      (start.Forsaken moves) (start.Spoilt moves) t ∧
      start.scene.listings.Later (start.run moves).scene.listings := by
  induction moves using List.reverseRecOn with
  | nil => exact ⟨t₀, pact.refl t₀, hstart, .refl _⟩
  | append_singleton moves move ih =>
    simp only [List.mem_append, List.mem_singleton] at hmoves
    obtain ⟨t, hleads, hworld, hlater⟩ := ih (fun move h => hmoves move (.inl h))
    have hbefore : moves <+: moves ++ [move] := List.prefix_append _ _
    rw [run_append_singleton]
    obtain ⟨t', hleads', hworld', hlater'⟩ := hworld.make hjoins (hmoves move (.inr rfl))
      (fun h => h.drops (fun move h => hmoves move (.inl h))) (fun h => h.mono hbefore)
      (fun h => h.mono hbefore)
      (fun {index _ next _ _} hmove hstage hview =>
        ⟨index, hmove ▸ made_last ⟨⟨next, hstage⟩, _, _, hview⟩⟩)
      (fun {_ number next} hstage hforsaken =>
        ⟨number, (seen_now ⟨next, hstage⟩).mono hbefore, hforsaken.mono hbefore⟩)
    exact ⟨t', pact.trans hleads hleads', hworld', hlater.trans hlater'⟩

/-- Where nobody is taken away there is nothing to remember of the past. -/
theorem sound_run_of_calm {start : World backend α} {moves : List (Move σ)} {t₀ : τ}
    (hstart : ∀ {forsaken spoilt}, start.Sound pact terms realization posts forsaken spoilt t₀)
    (hjoins : ∀ index, (terms index).Joins pact)
    (hmoves : ∀ move ∈ moves, move.Calm realization) :
    ∃ t, pact.Leads t₀ t ∧
      (∀ {forsaken spoilt},
        (start.run moves).Sound pact terms realization posts forsaken spoilt t) ∧
      start.scene.listings.Later (start.run moves).scene.listings := by
  obtain ⟨t, hleads, hworld, hlater⟩ :=
    sound_run hstart hjoins fun move hmove => (hmoves move hmove).allowed
  have hstay : ∀ {index}, .drop index ∉ moves := fun {index} hdrop => hmoves (.drop index) hdrop
  refine ⟨t, hleads, hworld.mono ?_ ?_, hlater⟩
  · rintro number ⟨index, earlier, hearlier, -⟩
    exact (hstay (hearlier.subset (List.mem_append_right _ (List.mem_singleton.2 rfl)))).elim
  · intro index hspoilt
    obtain ⟨other, hdrop⟩ := hspoilt.exists_drop
    exact (hstay hdrop).elim

/-- What is agreed on may change while all tasks pause. -/
theorem Sound.adopt {pact' : Pact behaviour} {terms' : Nat → Accord behaviour}
    {posts' : Nat → Bool → τ → α → Prop}
    (hworld : world.Sound pact terms realization posts forsaken spoilt t)
    (hscene : world.scene.Sound pact' realization forsaken world.tickets t)
    (htasks : ∀ {index cut} {stage : Stage backend α}, world.tasks[index]? = some stage →
      stage.Sound (terms index) realization (posts index) cut world.scene.listings t →
      stage.Sound (terms' index) realization (posts' index) cut world.scene.listings t) :
    world.Sound pact' terms' realization posts' forsaken spoilt t := by
  refine ⟨hscene, fun {index stage} hstage => ?_⟩
  obtain ⟨cut, hcut, hsound⟩ := hworld.tasks hstage
  exact ⟨cut, hcut, htasks hstage hsound⟩

/-- What a task returns satisfies what its procedure was to achieve. Word of an aborted listing
    comes only to a task that had joined one whose starter was taken away before the end. -/
theorem Sound.returned {index : Nat} {result : α}
    (hworld : world.Sound pact terms realization posts forsaken spoilt t)
    (hreturned : world.result? index = some result) :
    ∃ cut, (cut = true → spoilt index) ∧ posts index cut t result := by
  obtain ⟨cut, hcut, hpost⟩ := hworld.tasks (result?_eq_some_iff.1 hreturned)
  exact ⟨cut, hcut, hpost ((terms index).refl t)⟩

end VirtualFs.World
