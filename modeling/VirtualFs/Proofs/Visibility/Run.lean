import VirtualFs.Proofs.Attentive.Store
import VirtualFs.Proofs.Gate
import VirtualFs.Proofs.Visibility.Phases
import VirtualFs.Proofs.World.Fair

namespace VirtualFs

open VirtualFs.Tree VirtualFs.Course

namespace World

variable {σ : Type} {backend : Backend σ} {homing : Homing}

/-- Some calls are about to begin: the backend shows a tree whose objects are at home, and all names
    that come up are shown as they are. -/
structure Prepared (homing : Homing) (realization : Realization backend (attentive homing.home))
    (calls : List Call) (s : σ) (start : Tree) : Prop where
  shows : realization.shows s start
  homed : start.Homed homing.home
  plain : ∀ {dir name x}, start.item (dir ++ [name]) = some x →
    homing.mount.mapping.apply name = name
  named : ∀ call ∈ calls, ∀ name ∈ (call.path homing.mount).place,
    homing.mount.mapping.apply name = name

/-- No call that threatens a place goes on, since all of them have returned. -/
def Spared (homing : Homing) (here : Place) (calls : List Call)
    (world : World backend (Except Failure Answer)) : Prop :=
  ∀ {index call}, calls[index]? = some call → call.Threatens homing.mount here →
    (world.result? index).isSome

/-- Any result of any task will do. -/
def AnyResults (_ : Nat) (_ : Bool) (_ : Tree) (_ : Except Failure Answer) : Prop := True

/-- The accord of each of some calls: those that threaten a place do as they like, the others spare
    it. -/
def accordOf (homing : Homing) (here : Place) (calls : List Call) (index : Nat) :
    Accord (attentive homing.home) :=
  if calls[index]?.any (fun call => decide (call.Threatens homing.mount here)) then
    passing.accordAnyListing homing
  else (sparing here).accordAnyListing homing

/-- One task has an accord of its own, and all others spare a place. -/
def ownOrSparing (homing : Homing) (here : Place) (own : Nat)
    (accord : Accord (attentive homing.home)) (index : Nat) : Accord (attentive homing.home) :=
  if index = own then accord else (sparing here).accordAnyListing homing

/-- Something is asked of the result of one task only. -/
def AskedOf (own : Nat) (post : Tree → Except Failure Answer → Prop) (index : Nat) (_ : Bool)
    (t : Tree) (result : Except Failure Answer) : Prop :=
  index = own → post t result

variable {realization : Realization backend (attentive homing.home)} {calls : List Call}
  {surroundings : Surroundings σ} {world : World backend (Except Failure Answer)}
  {start t : Tree} {here : Place} {content : List UInt8} {own : Nat}
  {accord : Accord (attentive homing.home)} {pact : Pact (attentive homing.home)}
  {post : Tree → Except Failure Answer → Prop} {late : Nat → Prop}
  {forsaken spoilt : Nat → Prop}

theorem sound_gatherCalls (hprepared : Prepared homing realization calls surroundings.state start) :
    (gatherCalls surroundings homing.mount calls : World backend _).Sound
      (passing.pact homing (fun _ => False) (fun _ => False)) (accordOf homing here calls)
      realization AnyResults forsaken spoilt start := by
  have hreached : homing.Reached start := ⟨hprepared.homed, hprepared.plain⟩
  refine sound_gather hprepared.shows ⟨hreached, trivial⟩ False.elim
    fun {index procedure} hprocedure => ?_
  obtain ⟨call, hcall, rfl⟩ : ∃ call, calls[index]? = some call ∧
      (call.operation homing.mount).run = procedure := by
    simpa using hprocedure
  have hplain := hprepared.named call (List.mem_of_getElem? hcall)
  rw [accordOf, hcall]
  by_cases hthreatens : call.Threatens homing.mount here
  · simp only [Option.any_some, hthreatens, decide_true, if_true]
    exact (safe_passing hreached hplain).run
  · simp only [Option.any_some, hthreatens, decide_false, Bool.false_eq_true, if_false]
    exact (safe_sparing hreached hplain hthreatens).run

theorem joins_accordOf (index : Nat) :
    (accordOf homing here calls index).Joins
      (passing.pact homing (fun _ => False) (fun _ => False)) := by
  rw [accordOf]
  split
  · exact joins_accordAnyListing id id id
  · exact joins_accordAnyListing (fun _ => trivial) (fun _ => trivial) (fun _ => trivial)

theorem joins_ownOrSparing {course : Course} {matters : Path → Prop}
    (hspares : ∀ {t t'}, Spares here t t' → course.Leads t t')
    (haccord : accord.Joins (course.pact homing matters late)) (index : Nat) :
    (ownOrSparing homing here own accord index).Joins (course.pact homing matters late) := by
  rw [ownOrSparing]
  split
  · exact haccord
  · exact joins_accordAnyListing (fun _ => trivial) hspares (fun _ => trivial)

/-- One more task comes to those that spare a place, and something is asked of its result. -/
theorem Sound.start_ownOrSparing {procedure : Procedure (Except Failure Answer)}
    (hworld : world.Sound pact (fun _ => (sparing here).accordAnyListing homing) realization
      AnyResults forsaken spoilt t)
    (hsafe : procedure.Safe accord (fun _ t result => post t result) false t) :
    (world.start procedure).Sound pact (ownOrSparing homing here world.tasks.length accord)
      realization (AskedOf world.tasks.length post) forsaken spoilt t := by
  have hadopted : world.Sound pact (ownOrSparing homing here world.tasks.length accord) realization
      (AskedOf world.tasks.length post) forsaken spoilt t := by
    refine hworld.adopt hworld.scene fun {index cut stage} hstage hsound => ?_
    have hlt := (List.getElem?_eq_some_iff.1 hstage).1
    rw [ownOrSparing, if_neg (Nat.ne_of_lt hlt)]
    exact hsound.weaken fun _ howned => (Nat.ne_of_lt hlt howned).elim
  refine hadopted.start ?_
  rw [ownOrSparing, if_pos rfl]
  exact hsafe.weaken fun hpost _ => hpost

/-- Calm moves lead from one world to another. -/
def Becomes (realization : Realization backend (attentive homing.home))
    (world world' : World backend (Except Failure Answer)) : Prop :=
  ∃ moves, (∀ move ∈ moves, Move.Calm realization move) ∧ world.run moves = world'

/-- Each listing in flight of a directory that a place lies in was still to be answered at an earlier
    moment. -/
def NoneStale (realization : Realization backend (attentive homing.home)) (here : Place)
    (earlier world : World backend (Except Failure Answer)) : Prop :=
  ∀ {key number}, (key, number) ∈ world.scene.listings.entries → key.2.place <+: here →
    key.2.place ≠ here → earlier.scene.Upcoming realization number

variable {world' written later last : World backend (Except Failure Answer)}
  {terms : Nat → Accord (attentive homing.home)}
  {posts : Nat → Bool → Tree → Except Failure Answer → Prop} {name : String} {sought : Sought}

theorem Becomes.length (hbecomes : Becomes realization world world') :
    world'.tasks.length = world.tasks.length := by
  obtain ⟨moves, -, rfl⟩ := hbecomes
  exact length_run world moves

theorem Sound.becomes
    (hworld : world.Sound pact terms realization posts (fun _ => False) (fun _ => False) t)
    (hjoins : ∀ index, (terms index).Joins pact) (hbecomes : Becomes realization world world') :
    ∃ t', world'.Sound pact terms realization posts (fun _ => False) (fun _ => False) t' ∧
      world.scene.listings.Later world'.scene.listings := by
  obtain ⟨moves, hcalm, rfl⟩ := hbecomes
  obtain ⟨t', -, hworld', hlater⟩ :=
    sound_run_of_calm (hworld.mono False.elim False.elim) hjoins hcalm
  exact ⟨t', hworld', hlater⟩

/-- By the time that nobody threatens a place all can agree to keep what will be stored there. -/
theorem Sound.spared
    (hworld : world.Sound (passing.pact homing (fun _ => False) (fun _ => False))
      (accordOf homing here calls) realization AnyResults forsaken spoilt t)
    (hspared : Spared homing here calls world) (content : List UInt8) :
    world.Sound ((storing here content).pact homing (fun _ => False) (fun _ => False))
      (fun _ => (sparing here).accordAnyListing homing) realization AnyResults forsaken spoilt
      t := by
  refine hworld.adopt (Course.adopt hworld.scene trivial False.elim)
    fun {index cut stage} hstage hsound => ?_
  rw [accordOf] at hsound
  split at hsound
  case isTrue hthreatens =>
    obtain ⟨call, hcall, hthreatens⟩ := (Option.any_eq_true _ _).1 hthreatens
    obtain ⟨result, hreturned⟩ :=
      Option.isSome_iff_exists.1 (hspared hcall (of_decide_eq_true hthreatens))
    obtain rfl := Option.some.inj (hstage.symm.trans (result?_eq_some_iff.1 hreturned))
    exact fun _ => trivial
  case isFalse => exact hsound

/-- What has been written is there when the write returns. -/
theorem holdsFile_of_written
    (hprepared : Prepared homing realization calls surroundings.state start)
    (hplain : homing.Plain (homing.mount.pathOf name).place)
    (hbefore : (gatherCalls surroundings homing.mount calls).Becomes realization world)
    (hspared : Spared homing (homing.mount.pathOf name).place calls world)
    (hduring : (world.start ((Call.write name content).operation homing.mount).run).Becomes
      realization written)
    (hdone : written.result? calls.length = some (.ok .done)) :
    ∃ t, written.Sound
        ((storing (homing.mount.pathOf name).place content).pact homing (fun _ => False)
          (fun _ => False))
        (ownOrSparing homing (homing.mount.pathOf name).place calls.length
          ((storing (homing.mount.pathOf name).place content).accordAnyListing homing)) realization
        (AskedOf calls.length fun t result => result = .ok .done →
          t.HoldsFile (homing.mount.pathOf name).place content)
        (fun _ => False) (fun _ => False) t ∧
      t.HoldsFile (homing.mount.pathOf name).place content := by
  obtain ⟨t₁, hworld, -⟩ := (sound_gatherCalls hprepared).becomes joins_accordOf hbefore
  have hlength : world.tasks.length = calls.length := by
    rw [hbefore.length]
    simp [gatherCalls, gather]
  have hstarted := (hworld.spared hspared content).start_ownOrSparing
    (safe_storing content hworld.scene.reached.1 hplain).run
  rw [hlength] at hstarted
  obtain ⟨t, hwritten, -⟩ := hstarted.becomes
    (joins_ownOrSparing Spares.holdsFile (joins_accordAnyListing id id id)) hduring
  obtain ⟨cut, -, hpost⟩ := hwritten.returned hdone
  exact ⟨t, hwritten, hpost rfl rfl⟩

/-- From now on the file is where it is, and listings that the backend has yet to answer will show
    it. -/
theorem Sound.seek {course : Course}
    (hworld : written.Sound (course.pact homing (fun _ => False) (fun _ => False))
      (ownOrSparing homing sought.here own accord) realization posts forsaken spoilt t)
    {result : Except Failure Answer} (hreturned : written.result? own = some result)
    (hitem : t.item sought.here = some sought.item) :
    written.Sound
      (sought.course.pact homing (fun _ => False) (written.scene.Upcoming realization))
      (fun _ => (sparing sought.here).accordAnyListing homing) realization AnyResults forsaken
      spoilt t := by
  refine hworld.adopt (Course.adopt hworld.scene (.inl hitem) id)
    fun {index cut stage} hstage hsound => ?_
  rw [ownOrSparing] at hsound
  split at hsound
  case isTrue howned =>
    obtain rfl := howned
    obtain rfl := Option.some.inj (hstage.symm.trans (result?_eq_some_iff.1 hreturned))
    exact fun _ => trivial
  case isFalse => exact hsound.weaken fun _ => trivial

/-- A call that looks for the file comes to what it is to come to, if no listing in flight is too old
    to show it. -/
theorem Sound.achieves {call : Call} {result : Except Failure Answer}
    (hworld : written.Sound
      (sought.course.pact homing (fun _ => False) (written.scene.Upcoming realization))
      (fun _ => (sparing sought.here).accordAnyListing homing) realization AnyResults (fun _ => False)
      (fun _ => False) t)
    (hsince : written.Becomes realization later)
    (hlistings : NoneStale realization sought.here written later)
    (hseeks : call.Seeks) (hremoving : sought.removing ↔ call.Removes)
    (hsize : sought.item.content.length < 2 ^ 64)
    (hplain : homing.Plain (call.path homing.mount).place)
    (hhere : (call.path homing.mount).place = sought.here) (hne : sought.here ≠ [])
    (hlast : (later.start (call.operation homing.mount).run).Becomes realization last)
    (hreturned : last.result? later.tasks.length = some result) :
    ∃ t, realization.shows last.scene.surroundings.state t ∧
      call.Achieves sought.here sought.item t result := by
  obtain ⟨t₁, hworld₁, hlater⟩ := hworld.becomes (fun _ =>
    joins_accordAnyListing (fun _ => trivial) Sought.kept_of_spares (fun _ => trivial)) hsince
  have hminding : later.Sound
      (sought.course.pact homing sought.Above (written.scene.Upcoming realization))
      (fun _ => (sparing sought.here).accordAnyListing homing) realization AnyResults (fun _ => False)
      (fun _ => False) t₁ :=
    hworld₁.adopt (mind hworld₁.scene (fun hentry habove => hlistings hentry habove.1 habove.2)
      fun hlength => .inl (hlater.length_le.trans hlength)) fun _ => id
  have hstanding : sought.Standing homing t₁ :=
    ⟨hminding.scene.reached.1, fun _ => hminding.scene.reached.2⟩
  have hsafe : (call.operation homing.mount).Safe
      (sought.accord homing (written.scene.Upcoming realization))
      (fun _ t result => call.Achieves sought.here sought.item t result) false t₁ :=
    Sought.safe_call hseeks hremoving hsize hplain hhere hne hstanding
  have hstarted := hminding.start_ownOrSparing hsafe.run
  obtain ⟨t₂, hworld₂, -⟩ := hstarted.becomes (joins_ownOrSparing Sought.kept_of_spares
    (joins id id id fun habove => ⟨habove, fun _ => .rfl⟩)) hlast
  obtain ⟨cut, -, hpost⟩ := hworld₂.returned hreturned
  exact ⟨t₂, hworld₂.scene.shows, hpost rfl⟩

section Gate

open Scenario

/-- A mount over a store that is shown as it is. -/
def plainHoming : Homing := ⟨plainMount, Store.home⟩

def isListing : Request → Bool
  | .list _ _ => true
  | _ => false

/-- A careful store with a gate at which the answers to listings may have to wait. -/
def gating : Realization (Store.careful.behindGate isListing) (attentive plainHoming.home) :=
  Store.careful_obeys.realization

def setGate (isOpen : Bool) : Move (Gated Store) :=
  .change fun s => { s with state := { s.state with isOpen } }

@[simp] theorem calm_setGate (isOpen : Bool) : (setGate isOpen).Calm gating := fun hshows => hshows

theorem prepared_bare (calls : List Call) (isOpen : Bool) :
    Prepared plainHoming gating calls ⟨(bare []).store, isOpen⟩ bareTree where
  shows := Mount.holds_bare
  homed := Mount.holds_bare.shows.homed
  plain _ := rfl
  named _ _ _ _ := rfl

theorem result?_eq_done {σ : Type} {backend : Backend σ} {index : Nat}
    {world : World backend (Except Failure Answer)}
    (hdone : (world.result? index).any (fun
      | .ok .done => true
      | _ => false) = true) : world.result? index = some (.ok .done) := by
  obtain ⟨result, hresult, hdone⟩ := (Option.any_eq_true _ _).1 hdone
  match result, hdone with
  | .ok .done, _ => exact hresult

/-- Nothing could be removed, and a lookup has yet to begin. -/
def cleared : World (Store.careful.behindGate isListing) (Except Failure Answer) :=
  (gatherCalls ⟨⟨(bare []).store, true⟩, []⟩ plainMount [.stat "d/q", .delete "d"]).run [.turn 1]

/-- A file has been written. -/
def filled : World (Store.careful.behindGate isListing) (Except Failure Answer) :=
  (cleared.start ((Call.write "d/p" [1, 2]).operation plainMount).run).run [.turn 2]

/-- The lookup has begun a listing of the root since. -/
def sharing : World (Store.careful.behindGate isListing) (Except Failure Answer) :=
  filled.run [setGate false, .turn 0]

/-- A caller who wants to read the file has joined the listing. -/
def joining : World (Store.careful.behindGate isListing) (Except Failure Answer) :=
  (sharing.start ((Call.read "d/p" 1 5).operation plainMount).run).run
    [.turn 3, setGate true, .turn 3]

/-- A lookup has begun a listing of the root, and the answer waits at the gate. -/
def looking : World (Store.careful.behindGate isListing) (Except Failure Answer) :=
  (gatherCalls ⟨⟨(bare []).store, false⟩, []⟩ plainMount [.stat "q"]).run [.turn 0]

/-- A file has been written. -/
def unlisted : World (Store.careful.behindGate isListing) (Except Failure Answer) :=
  (looking.start ((Call.write "p" [7]).operation plainMount).run).run [.turn 1]

/-- A call that joined the listing has got its answer. -/
def misled (call : Call) : World (Store.careful.behindGate isListing) (Except Failure Answer) :=
  (unlisted.start (call.operation plainMount).run).run [.turn 2, setGate true, .turn 2]

theorem holdsFile_misled {call : Call} {t : Tree}
    (hcall : (misled call).scene.surroundings.state.state.nodes.any (fun node =>
      decide (node.key = (plainMount.pathOf "p").text ∧ node.content = [7] ∧
        node.object.isFolder = false)) = true)
    (hshows : gating.shows (misled call).scene.surroundings.state t) :
    t.HoldsFile (plainMount.pathOf "p").place [7] :=
  Store.Holds.holdsFile hshows _ hcall

end Gate

end World

end VirtualFs
