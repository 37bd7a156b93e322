import VirtualFs.Proofs.Habit
import VirtualFs.Proofs.Operation
import VirtualFs.Proofs.World.Safety

namespace VirtualFs

variable {σ α : Type}

/-- The way of a backend of which nothing is known: it may answer anything at any time. -/
def Behaviour.anything : Behaviour Unit where
  Uses _ _ := True
  lists _ _ := trivial
  offers _ _ := True
  permits _ _ _ _ := True

theorem Backend.brings_anything (backend : Backend σ) {request : Request}
    (turn : Turn σ (backend.Flight request) request.Answer) :
    backend.Brings .anything (fun _ _ => True) (fun _ owed => owed = none) none () turn := by
  cases hpoll : turn.poll with
  | waiting flight =>
    refine ⟨none, (), .waits none (), trivial, ?_⟩
    rw [hpoll]
    rfl
  | ready answer =>
    refine ⟨some answer, (), .acts trivial, trivial, ?_⟩
    rw [hpoll]
    rfl

/-- Every backend behaves in that way. A request in flight is owed nothing until it is answered. -/
def Realization.anything (backend : Backend σ) : Realization backend .anything where
  shows _ _ := True
  Owes _ owed := owed = none
  offer _ := trivial
  issue _ _ := backend.brings_anything _
  resume := by
    intro s t request flight owed _ howes _
    subst howes
    exact backend.brings_anything _
  abandon _ _ _ := trivial

namespace Habit

/-- Callers with common habits share the listings that they take part in, whatever else happens. -/
def accord (habit : Habit) : Accord .anything where
  Leads _ _ := True
  refl _ := trivial
  trans _ _ := trivial
  listed _ := trivial
  Drops := True
  Does _ _ := True
  does _ := trivial
  Shareable plan _ := habit.Shares plan
  shareable_mono hshares _ := hshares
  Accepts _ _ := True
  Since _ _ _ := True
  since_refl _ _ := trivial
  since_trans _ _ := trivial

end Habit

/-- A procedure that keeps to a habit keeps to the accord of those who have it. -/
theorem Procedure.KeepsTo.safe {habit : Habit} {procedure : Procedure α} {cut : Bool}
    (hkeeps : procedure.KeepsTo habit) :
    procedure.Safe habit.accord (fun _ _ _ => True) cut () := by
  induction procedure generalizing cut with
  | done result => exact fun _ => trivial
  | log event next ih => exact ih hkeeps.2
  | offer next ih => exact fun _ _ => ih _ (hkeeps _)
  | now next ih => exact fun time => ih time (hkeeps time)
  | ask request next ih => exact fun _ => ⟨trivial, fun _ => ⟨trivial, ih _ (hkeeps _)⟩⟩
  | share plan next ih =>
    exact ⟨hkeeps.1, fun _ _ => ih _ (hkeeps.2 _), fun _ _ _ => ih _ (hkeeps.2 _)⟩

theorem Operation.KeepsTo.safe {habit : Habit} {operation : Operation α} {cut : Bool}
    (hkeeps : operation.KeepsTo habit) :
    operation.Safe habit.accord (fun _ _ _ => True) cut () :=
  ⟨Procedure.KeepsTo.safe hkeeps⟩

/-- Entries that go by the shown forms of the backend's own names. -/
def ShownBy (mapping : NameMapping) (entries : List Entry) : Prop :=
  ∀ entry ∈ entries, entry.name = mapping.apply entry.object.name

/-- The same of the entries that an answer lists. -/
def Answer.ShownBy (mapping : NameMapping) : Answer → Prop
  | .entries listed => VirtualFs.ShownBy mapping listed
  | .lines shown =>
    ∃ listed : List Entry, shown = listed.map Entry.display ∧ VirtualFs.ShownBy mapping listed
  | _ => True

theorem ListingPlan.shownBy_of_finish {plan : ListingPlan} {answer : plan.request.Answer}
    {entries : List Entry} (hfinish : plan.finish answer = .ok entries) :
    ShownBy plan.mapping entries := by
  obtain ⟨objects, -, rfl⟩ := plan.exists_ok_of_finish hfinish
  intro entry hentry
  obtain ⟨object, -, rfl⟩ := List.mem_map.1 hentry
  rfl

namespace Mount

variable {mount : Mount} {cut : Bool}

/-- A listing may have been made by another caller, but that one goes by the same mapping. -/
theorem safe_list_shown (dir : Path) :
    (mount.list dir).Safe mount.habit.accord
      (fun _ _ result => ∀ entries, result = .ok entries → ShownBy mount.mapping entries) cut () := by
  refine Operation.Safe.bind ((keepsTo_lookup dir).safe.weaken ?_)
  rintro cut t result -
  cases result with
  | error failure =>
    intro entries hentries
    cases hentries
  | ok entry =>
    dsimp only
    split
    case isFalse =>
      refine Operation.safe_fail fun _ entries hentries => ?_
      cases hentries
    case isTrue =>
      refine Operation.safe_share ⟨rfl, rfl⟩ ?_ ?_
      · rintro _ _ - ⟨plan, answer, -, ⟨_, _, ⟨-, hmapping⟩, -, -⟩, rfl⟩ _ - entries hentries
        rw [← hmapping]
        exact ListingPlan.shownBy_of_finish hentries
      · intro _ _ _ _ _ entries hentries
        cases hentries

theorem safe_call_shown (call : Call) :
    (call.operation mount).Safe mount.habit.accord
      (fun _ _ result => ∀ answer, result = .ok answer → answer.ShownBy mount.mapping) cut () := by
  -- Of a call that lists nothing it is enough that it keeps to the habit.
  have hany : ∀ {α : Type} {operation : Operation α}, operation.KeepsTo mount.habit →
      operation.Safe mount.habit.accord
        (fun _ _ result => ∀ value, result = .ok value → True) cut () :=
    fun hkeeps => hkeeps.safe.weaken fun _ _ _ => trivial
  cases call with
  | stat name => exact (hany (keepsTo_lookup _)).map_ok fun _ _ => trivial
  | readDir name => exact (safe_list_shown _).map_ok fun _ hlisted => hlisted
  | names name => exact (safe_list_shown _).map_ok fun entries hlisted => ⟨entries, rfl, hlisted⟩
  | delete name => exact (hany (keepsTo_delete name)).map_ok fun _ _ => trivial
  | read name offset length =>
    exact (hany (keepsTo_read name offset length)).map_ok fun _ _ => trivial
  | write name content => exact (hany (keepsTo_write name content)).map_ok fun _ _ => trivial
  | writeFrom name source => exact (hany (keepsTo_writeFrom name source)).map_ok fun _ _ => trivial

end Mount

namespace World

variable {backend : Backend σ}

/-- Whatever the backend does, whoever else calls and whoever is taken away, a listing shows every
    object under the name that the mapping of the mount makes of the backend's own. -/
theorem shownBy_run {surroundings : Surroundings σ} {mount : Mount} {calls : List Call}
    {moves : List (Move σ)} {index : Nat} {answer : Answer}
    (hreturned : ((gatherCalls surroundings mount calls : World backend _).run moves).result? index =
      some (.ok answer)) :
    answer.ShownBy mount.mapping := by
  let posts : Nat → Bool → Unit → Except Failure Answer → Prop :=
    fun _ _ _ result => ∀ answer, result = .ok answer → answer.ShownBy mount.mapping
  have hstart : ∀ {forsaken spoilt}, (gatherCalls surroundings mount calls : World backend _).Sound
      mount.habit.accord.pact (fun _ => mount.habit.accord) (.anything backend) posts forsaken
      spoilt () := by
    refine sound_gather trivial trivial trivial fun {index procedure} hprocedure => ?_
    obtain ⟨call, -, rfl⟩ : ∃ call, calls[index]? = some call ∧
        (call.operation mount).run = procedure := by
      simpa using hprocedure
    exact (Mount.safe_call_shown call).run
  have hallowed : ∀ move ∈ moves,
      move.Allowed mount.habit.accord.toDrift (.anything backend) := by
    intro move _
    cases move with
    | turn index => trivial
    | drop index => trivial
    | change effect => exact fun _ => trivial
  obtain ⟨t, -, hsound, -⟩ := sound_run hstart (fun _ => Accord.joins trivial) hallowed
  obtain ⟨cut, -, hpost⟩ := hsound.returned hreturned
  exact hpost answer rfl

end World

end VirtualFs
