import VirtualFs.Proofs.Acts
import VirtualFs.Proofs.Habit

namespace VirtualFs

variable {α β : Type}

/-- What is left of a procedure goes on as callers do as a rule, if all of it did. -/
theorem Procedure.Goes.keepsTo {habit : Habit} {procedure rest : Procedure α}
    {past : List Act} (hgoes : procedure.Goes past rest)
    (hkeeps : procedure.KeepsTo habit) : rest.KeepsTo habit := by
  induction hgoes with
  | rest => exact hkeeps
  | log _ ih => exact ih hkeeps.2
  | offer answer _ ih => exact ih (hkeeps answer)
  | now time _ ih => exact ih (hkeeps time)
  | ask answer _ ih => exact ih (hkeeps answer)
  | share outcome _ ih => exact ih (hkeeps.2 outcome)

namespace Operation

/-- An operation can come to log something, whatever it is answered. -/
def Logs (operation : Operation α) (event : LogEvent) : Prop :=
  ∃ past next, operation.run.Goes past (.log event next)

variable {event : LogEvent}

theorem Logs.notes {habit : Habit} {operation : Operation α} (hlogs : operation.Logs event)
    (hkeeps : operation.KeepsTo habit) : habit.Notes event := by
  obtain ⟨past, next, hgoes⟩ := hlogs
  exact (hgoes.keepsTo hkeeps).1

theorem logs_log_bind {logged : LogEvent} {f : Unit → Operation β} :
    (log logged >>= f).Logs event ↔ event = logged ∨ (f ()).Logs event := by
  constructor
  · rintro ⟨past, next, hgoes⟩
    cases hgoes with
    | rest => exact .inl rfl
    | log later => exact .inr ⟨_, next, later⟩
  · rintro (rfl | ⟨past, next, hgoes⟩)
    · exact ⟨[], _, .rest _⟩
    · exact ⟨_, next, .log hgoes⟩

end Operation

namespace Mount

open Operation

/-- What is shown of the settings of a backend is what is left of them after redaction. -/
theorem logs_initializing_buildFrom {number : Nat} {config : Config} {settings shown : String}
    {value : Json.Value} (hvalue : Json.Value.ofText? settings = some value) :
    (buildFrom number config settings).Logs (.initializing shown) ↔
      shown = ({} : Redaction).render value := by
  let rest : Operation Mount := do
    let credentials ← require (Json.decoded (Credentials.ofValue? value))
    during "failed to init storage" (ask (.connect credentials))
    build number config none
  have hunfold : buildFrom number config settings =
      log (.initializing (({} : Redaction).render value)) >>= fun _ => rest := by
    rw [buildFrom, hvalue]
    rfl
  let mount : Mount := ⟨number, .root, "", config.mapping, none⟩
  have hkeeps : rest.KeepsTo mount.habit := by
    have hbuild : (build mount.number config none).KeepsTo mount.habit := keepsTo_build rfl none
    refine (keepsTo_require _).bind fun credentials => ?_
    exact ((keepsTo_ask _).during _).bind fun _ => hbuild
  rw [hunfold, logs_log_bind]
  constructor
  · rintro (hshown | hlater)
    · exact LogEvent.initializing.inj hshown
    · exact (hlater.notes hkeeps trivial).elim
  · rintro rfl
    exact .inl rfl

end Mount

end VirtualFs
