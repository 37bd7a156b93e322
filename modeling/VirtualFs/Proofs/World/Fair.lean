import VirtualFs.Proofs.World.Run

namespace VirtualFs

variable {σ α : Type} {backend : Backend σ}

namespace Stage

/-- A turn would leave a task where it stands, because the request that it waits for has no answer
    yet, its own or that of a listing that it shares. -/
def HeldUp (scene : Scene backend) : Stage backend α → Prop
  | asking request flight _ =>
    ∃ rest, (backend.resume request flight scene.surroundings.state).poll = .waiting rest
  | sharing ticket _ =>
    (scene.listings.poll (ListingWork.conduct backend) ticket.call scene.surroundings).1 = none
  | _ => False

/-- A task goes on with some procedure of a family, as far as it gets. -/
def GoesOn {β : Type} (next : β → Procedure α) (stage : Stage backend α) : Prop :=
  ∃ answer scene, stage = (advance (next answer) scene).1

variable {scene : Scene backend}

/-- With its turn a task goes on unless it is held up, and then it still waits for the same. -/
theorem turn_asking (request : Request) (flight : backend.Flight request)
    (next : request.Answer → Procedure α) (scene : Scene backend) :
    (asking request flight next : Stage backend α).HeldUp scene ∧
      (∃ rest, (turn (asking request flight next) scene).1 = asking request rest next) ∨
    GoesOn next (turn (asking request flight next) scene).1 := by
  rw [turn]
  cases hpoll : (backend.resume request flight scene.surroundings.state).poll with
  | waiting rest => exact .inl ⟨⟨rest, hpoll⟩, rest, rfl⟩
  | ready answer => exact .inr ⟨answer, _, rfl⟩

theorem turn_sharing (ticket : SharedCalls.Ticket) (next : Outcome Listing → Procedure α)
    (scene : Scene backend) :
    (sharing ticket next : Stage backend α).HeldUp scene ∧
      (turn (sharing ticket next) scene).1 = sharing ticket next ∨
    GoesOn next (turn (sharing ticket next) scene).1 := by
  rw [turn]
  dsimp only
  split
  case h_1 hpoll => exact .inl ⟨congrArg Prod.fst hpoll, rfl⟩
  case h_2 outcome listings surroundings hpoll => exact .inr ⟨outcome, _, rfl⟩

theorem advance_ask (request : Request) (next : request.Answer → Procedure α)
    (scene : Scene backend) :
    (∃ flight, (advance (.ask request next) scene).1 = asking request flight next) ∨
      GoesOn next (advance (.ask request next) scene).1 := by
  rw [advance]
  split
  case h_1 flight _ => exact .inl ⟨flight, rfl⟩
  case h_2 answer _ => exact .inr ⟨answer, _, rfl⟩

theorem advance_share (plan : ListingPlan) (next : Outcome Listing → Procedure α)
    (scene : Scene backend) :
    (∃ ticket, (advance (.share plan next) scene).1 = sharing ticket next) ∨
      GoesOn next (advance (.share plan next) scene).1 := by
  rw [advance]
  dsimp only
  split
  case h_1 => exact .inl ⟨_, rfl⟩
  case h_2 outcome _ _ _ => exact .inr ⟨outcome, _, rfl⟩

end Stage

namespace World

/-- The world after so many moves of an endless course of them. -/
def after (world : World backend α) (course : Nat → Move σ) : Nat → World backend α
  | 0 => world
  | n + 1 => (world.after course n).make (course n)

theorem after_eq_run (world : World backend α) (course : Nat → Move σ) (n : Nat) :
    world.after course n = world.run ((List.range n).map course) := by
  induction n with
  | zero => rfl
  | succ n ih =>
    rw [after, ih, List.range_succ, List.map_append, List.map_singleton, run_append_singleton]

/-- A course of moves that takes no task away and is fair to all: again and again a task gets a turn
    at which it is not held up. -/
structure Fair (world : World backend α) (course : Nat → Move σ) : Prop where
  stay : ∀ n index, course n ≠ .drop index
  turns : ∀ index < world.tasks.length, ∀ n, ∃ m ≥ n, course m = .turn index ∧
    ∀ {stage}, (world.after course m).tasks[index]? = some stage →
      ¬ stage.HeldUp (world.after course m).scene

variable {world : World backend α} {course : Nat → Move σ} {index : Nat}

/-- The tasks of others do not move with a turn, nor with anything that happens outside. -/
theorem getElem?_make {move : Move σ} (hturn : move ≠ .turn index) (hdrop : move ≠ .drop index) :
    (world.make move).tasks[index]? = world.tasks[index]? := by
  rcases make_cases world move with
    ⟨change, -, hmake⟩ | hmake | ⟨other, stage, -, ⟨rfl, hmake⟩ | ⟨rfl, hmake⟩⟩
  · rw [hmake]
    rfl
  · rw [hmake]
  · have hother : other ≠ index := by
      intro h
      apply hturn
      rw [h]
    rw [hmake, List.getElem?_set_ne hother]
  · have hother : other ≠ index := by
      intro h
      apply hdrop
      rw [h]
    rw [hmake, List.getElem?_set_ne hother]

theorem getElem?_make_turn {stage : Stage backend α}
    (hstage : world.tasks[index]? = some stage) :
    (world.make (.turn index)).tasks[index]? = some (stage.turn world.scene).1 := by
  obtain ⟨hindex, rfl⟩ := List.getElem?_eq_some_iff.1 hstage
  simp [make, turn, move, hindex]

theorem length_make (world : World backend α) (move : Move σ) :
    (world.make move).tasks.length = world.tasks.length := by
  rcases make_cases world move with
    ⟨change, -, hmake⟩ | hmake | ⟨other, stage, -, ⟨-, hmake⟩ | ⟨-, hmake⟩⟩ <;>
    simp [hmake, onSurroundings]

theorem length_run (world : World backend α) (moves : List (Move σ)) :
    (world.run moves).tasks.length = world.tasks.length := by
  induction moves using List.reverseRecOn with
  | nil => rfl
  | append_singleton moves move ih => rw [run_append_singleton, length_make, ih]

theorem length_after (world : World backend α) (course : Nat → Move σ) (n : Nat) :
    (world.after course n).tasks.length = world.tasks.length := by
  rw [after_eq_run, length_run]

/-- A task that stays in some set of stages as long as it is held up leaves it some time, in the way
    in which a free turn makes it leave. -/
theorem Fair.eventually (hfair : world.Fair course) (waits goes : Stage backend α → Prop)
    (hwaits : ∀ {stage} scene, waits stage → stage.HeldUp scene ∧ waits (stage.turn scene).1 ∨
      goes (stage.turn scene).1) {n : Nat} {stage : Stage backend α}
    (hstage : (world.after course n).tasks[index]? = some stage) (hnow : waits stage) :
    ∃ m stage', (world.after course m).tasks[index]? = some stage' ∧ goes stage' := by
  have hindex := (List.getElem?_eq_some_iff.1 hstage).1
  rw [length_after] at hindex
  obtain ⟨m, hm, hturn, hfree⟩ := hfair.turns index hindex n
  -- By induction on the distance to the free turn; the task may have gone on earlier.
  induction hdistance : m - n generalizing n stage with
  | zero =>
    obtain rfl : m = n := by omega
    have hnext := getElem?_make_turn hstage
    rw [← hturn] at hnext
    rcases hwaits (world.after course m).scene hnow with ⟨hheld, -⟩ | hgoes
    · exact (hfree hstage hheld).elim
    · exact ⟨m + 1, _, hnext, hgoes⟩
  | succ distance ih =>
    by_cases hown : course n = .turn index
    · have hnext := getElem?_make_turn hstage
      rw [← hown] at hnext
      rcases hwaits (world.after course n).scene hnow with ⟨-, hstill⟩ | hgoes
      · exact ih (n := n + 1) hnext hstill (by omega) (by omega)
      · exact ⟨n + 1, _, hnext, hgoes⟩
    · have hnext : (world.after course (n + 1)).tasks[index]? = some stage :=
        (getElem?_make hown (hfair.stay n index)).trans hstage
      exact ih hnext hnow (by omega) (by omega)

/-- A procedure that is carried on comes to its end. -/
theorem Fair.returns_advance (hfair : world.Fair course) {procedure : Procedure α} {n : Nat}
    {scene : Scene backend} (hstage : (world.after course n).tasks[index]? =
      some (Stage.advance procedure scene).1) :
    ∃ m result, (world.after course m).result? index = some result := by
  induction procedure generalizing n scene with
  | done result => exact ⟨n, result, result?_eq_some_iff.2 hstage⟩
  | log event next ih => exact ih hstage
  | offer next ih => exact ih _ hstage
  | now next ih => exact ih _ hstage
  | ask request next ih =>
    rcases Stage.advance_ask request next scene with ⟨flight, hwaits⟩ | ⟨answer, scene', hgoes⟩
    · obtain ⟨m, _, hstage', answer, scene', rfl⟩ := hfair.eventually
        (fun stage => ∃ flight, stage = .asking request flight next) (Stage.GoesOn next)
        (by rintro _ scene ⟨flight, rfl⟩; exact Stage.turn_asking request flight next scene)
        (hwaits ▸ hstage) ⟨flight, rfl⟩
      exact ih answer hstage'
    · exact ih answer (hgoes ▸ hstage)
  | share plan next ih =>
    rcases Stage.advance_share plan next scene with ⟨ticket, hwaits⟩ | ⟨outcome, scene', hgoes⟩
    · obtain ⟨m, _, hstage', outcome, scene', rfl⟩ := hfair.eventually
        (fun stage => stage = .sharing ticket next) (Stage.GoesOn next)
        (by rintro _ scene rfl; exact Stage.turn_sharing ticket next scene)
        (hwaits ▸ hstage) rfl
      exact ih outcome hstage'
    · exact ih outcome (hgoes ▸ hstage)

/-- What was returned stays so. -/
theorem result?_make {move : Move σ} {result : α} (hreturned : world.result? index = some result) :
    (world.make move).result? index = some result := by
  rw [result?_eq_some_iff] at hreturned ⊢
  rcases make_cases world move with
    ⟨change, -, hmake⟩ | hmake | ⟨other, stage, hstage, ⟨-, hmake⟩ | ⟨-, hmake⟩⟩
  · rw [hmake]
    exact hreturned
  · rw [hmake, hreturned]
  all_goals
    rw [hmake]
    by_cases hother : other = index
    · subst other
      have hindex := (List.getElem?_eq_some_iff.1 hstage).1
      rw [hstage] at hreturned
      cases hreturned
      simp [Stage.turn, Stage.drop, hindex]
    · rw [List.getElem?_set_ne hother, hreturned]

theorem result?_after {n m : Nat} (hle : n ≤ m) {result : α}
    (hreturned : (world.after course n).result? index = some result) :
    (world.after course m).result? index = some result := by
  induction hle with
  | refl => exact hreturned
  | step _ ih => exact result?_make ih

/-- A task that is about to go on returns some time. -/
theorem Fair.exists_result (hfair : world.Fair course) {procedure : Procedure α}
    (hready : world.tasks[index]? = some (.ready procedure)) :
    ∃ n result, (world.after course n).result? index = some result := by
  have hnow : (world.after course 0).tasks[index]? = some (.ready procedure) := hready
  obtain ⟨n, _, hstage, _, scene, rfl⟩ := hfair.eventually
    (fun stage => stage = .ready procedure) (Stage.GoesOn fun _ : Unit => procedure)
    (by rintro _ scene rfl; exact .inr ⟨(), scene, rfl⟩) hnow rfl
  exact hfair.returns_advance hstage

/-- When turns are given out fairly and nobody is taken away, every task returns. -/
theorem Fair.exists_returned {surroundings : Surroundings σ} {procedures : List (Procedure α)}
    (hfair : (gather surroundings procedures : World backend α).Fair course) :
    ∃ n, ∀ index < procedures.length, ∃ result,
      ((gather surroundings procedures : World backend α).after course n).result? index =
        some result := by
  have heach : ∀ index < procedures.length, ∃ n result,
      ((gather surroundings procedures : World backend α).after course n).result? index =
        some result := by
    intro index hindex
    have hready : (gather surroundings procedures : World backend α).tasks[index]? =
        some (.ready procedures[index]) := by
      simp [gather, hindex]
    exact hfair.exists_result hready
  -- What has returned stays returned, so there is a moment late enough for all.
  have hall : ∀ count ≤ procedures.length, ∃ n, ∀ index < count, ∃ result,
      ((gather surroundings procedures : World backend α).after course n).result? index =
        some result := by
    intro count
    induction count with
    | zero => exact fun _ => ⟨0, fun _ h => (Nat.not_lt_zero _ h).elim⟩
    | succ count ih =>
      intro hcount
      obtain ⟨n, hn⟩ := ih (by omega)
      obtain ⟨m, result, hm⟩ := heach count (by omega)
      refine ⟨max n m, fun index hindex => ?_⟩
      rcases Nat.lt_succ_iff_lt_or_eq.1 hindex with hlt | rfl
      · obtain ⟨result', hresult'⟩ := hn index hlt
        exact ⟨result', result?_after (le_max_left n m) hresult'⟩
      · exact ⟨result, result?_after (le_max_right n m) hm⟩
  exact hall _ le_rfl

end World

end VirtualFs
