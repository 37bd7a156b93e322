import VirtualFs.Proofs.Acts
import VirtualFs.Proofs.World.Fair

namespace VirtualFs

variable {σ α : Type} {backend : Backend σ}

namespace Stage

/-- Some acts have led from the procedure of a task to where it stands. -/
def Along (procedure : Procedure α) : Stage backend α → Prop
  | ready rest => ∃ past, procedure.Goes past rest
  | asking request _ next => ∃ past, procedure.Goes past (.ask request next)
  | sharing _ next => ∃ past plan, procedure.Goes past (.share plan next)
  | returned result => ∃ past, procedure.Goes past (.done result)
  | dropped => True

variable {procedure rest : Procedure α} {stage : Stage backend α} {scene : Scene backend}
  {past : List Act}

/-- A task that goes on stays on the way of its procedure. -/
theorem along_advance (hgoes : procedure.Goes past rest) :
    (advance rest scene).1.Along procedure := by
  induction rest generalizing past scene with
  | done result => exact ⟨past, hgoes⟩
  | log event next ih => exact ih (hgoes.trans (.log (.rest _)))
  | offer next ih => exact ih _ (hgoes.trans (.offer _ (.rest _)))
  | now next ih => exact ih _ (hgoes.trans (.now _ (.rest _)))
  | ask request next ih =>
    rcases advance_ask request next scene with ⟨flight, hstage⟩ | ⟨answer, scene', hstage⟩
    · rw [hstage]
      exact ⟨past, hgoes⟩
    · rw [hstage]
      exact ih answer (hgoes.trans (.ask answer (.rest _)))
  | share plan next ih =>
    rcases advance_share plan next scene with ⟨ticket, hstage⟩ | ⟨outcome, scene', hstage⟩
    · rw [hstage]
      exact ⟨past, plan, hgoes⟩
    · rw [hstage]
      exact ih outcome (hgoes.trans (.share outcome (.rest _)))

theorem along_turn (halong : stage.Along procedure) : (stage.turn scene).1.Along procedure := by
  cases stage with
  | ready rest =>
    obtain ⟨past, hgoes⟩ := halong
    exact along_advance hgoes
  | asking request flight next =>
    obtain ⟨past, hgoes⟩ := halong
    rcases turn_asking request flight next scene with
      ⟨-, flight', hstage⟩ | ⟨answer, scene', hstage⟩
    · rw [hstage]
      exact ⟨past, hgoes⟩
    · rw [hstage]
      exact along_advance (hgoes.trans (.ask answer (.rest _)))
  | sharing ticket next =>
    obtain ⟨past, plan, hgoes⟩ := halong
    rcases turn_sharing ticket next scene with ⟨-, hstage⟩ | ⟨outcome, scene', hstage⟩
    · rw [hstage]
      exact ⟨past, plan, hgoes⟩
    · rw [hstage]
      exact along_advance (hgoes.trans (.share outcome (.rest _)))
  | returned result => exact halong
  | dropped => trivial

theorem along_drop (halong : stage.Along procedure) : (stage.drop scene).1.Along procedure := by
  cases stage with
  | returned result => exact halong
  | _ => trivial

end Stage

namespace World

variable {world : World backend α} {procedures : List (Procedure α)}

/-- Every task is on the way of the procedure that it was started with. -/
def Along (world : World backend α) (procedures : List (Procedure α)) : Prop :=
  ∀ ⦃index : Nat⦄ ⦃procedure : Procedure α⦄ ⦃stage : Stage backend α⦄,
    procedures[index]? = some procedure → world.tasks[index]? = some stage → stage.Along procedure

theorem along_gather (surroundings : Surroundings σ) (procedures : List (Procedure α)) :
    (gather surroundings procedures : World backend α).Along procedures := by
  intro index procedure stage hprocedure hstage
  rw [gather, List.getElem?_map, hprocedure] at hstage
  obtain rfl := Option.some.inj hstage
  exact ⟨[], .rest procedure⟩

theorem Along.set (halong : world.Along procedures) {index : Nat} {stage : Stage backend α}
    {scene : Scene backend}
    (hstage : ∀ {procedure}, procedures[index]? = some procedure → stage.Along procedure) :
    (⟨scene, world.tasks.set index stage⟩ : World backend α).Along procedures := by
  intro other procedure stage' hprocedure hstage'
  rcases eq_or_ne index other with rfl | hne
  · rw [List.getElem?_set_self'] at hstage'
    obtain ⟨_, -, rfl⟩ := Option.map_eq_some_iff.1 hstage'
    exact hstage hprocedure
  · rw [List.getElem?_set_ne hne] at hstage'
    exact halong hprocedure hstage'

/-- No move leads a task off the way of its procedure. -/
theorem Along.make (halong : world.Along procedures) (move : Move σ) :
    (world.make move).Along procedures := by
  rcases make_cases world move with
    ⟨change, -, hmake⟩ | hmake | ⟨index, stage, hstage, ⟨-, hmake⟩ | ⟨-, hmake⟩⟩
  · rw [hmake]
    exact halong
  · rw [hmake]
    exact halong
  · rw [hmake]
    exact halong.set fun hprocedure => Stage.along_turn (halong hprocedure hstage)
  · rw [hmake]
    exact halong.set fun hprocedure => Stage.along_drop (halong hprocedure hstage)

/-- However tasks take turns and whatever happens between their turns, each is on the way of its own
    procedure. What holds on all ways of a procedure holds of it among others. -/
theorem Along.run (halong : world.Along procedures) (moves : List (Move σ)) :
    (world.run moves).Along procedures := by
  induction moves using List.reverseRecOn with
  | nil => exact halong
  | append_singleton moves move ih =>
    rw [run_append_singleton]
    exact ih.make move

end World

end VirtualFs
