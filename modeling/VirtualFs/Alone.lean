import VirtualFs.Procedure

namespace VirtualFs

/-- A backend that answers every request at once. -/
structure Service (σ : Type) where
  offer : σ → Offer
  now : σ → UInt64
  answer : (request : Request) → σ → request.Answer × σ

namespace Procedure

variable {σ α β : Type}

/-- Run a procedure to its end with nobody else about. There is no listing to join, so each one is
    the caller's own. -/
def alone (service : Service σ) : Procedure α → σ → α × σ
  | done result, state => (result, state)
  | log _ next, state => next.alone service state
  | offer next, state => (next (service.offer state)).alone service state
  | now next, state => (next (service.now state)).alone service state
  | ask request next, state =>
    match service.answer request state with
    | (answer, state) => (next answer).alone service state
  | share plan next, state =>
    match service.answer plan.request state with
    | (answer, state) => (next (.value (plan.finish answer))).alone service state

/-- Two procedures in a row run one after the other. -/
theorem alone_bind (service : Service σ) (procedure : Procedure α) (f : α → Procedure β)
    (state : σ) :
    (procedure.bind f).alone service state =
      (f (procedure.alone service state).1).alone service (procedure.alone service state).2 := by
  induction procedure generalizing state with
  | done => rfl
  | log event next ih => exact ih state
  | offer next ih => exact ih _ state
  | now next ih => exact ih _ state
  | ask request next ih => exact ih _ _
  | share plan next ih => exact ih _ _

end Procedure

namespace Operation

variable {σ α β : Type}

/-- What an operation comes to with nobody else about, and the state that it leaves behind. -/
def alone (service : Service σ) (operation : Operation α) (state : σ) : Except Failure α × σ :=
  operation.run.alone service state

variable (service : Service σ) (state : σ)

@[simp] theorem alone_pure (result : α) :
    alone service (pure result : Operation α) state = (.ok result, state) := rfl

@[simp] theorem alone_fail (failure : Failure) :
    alone service (fail failure : Operation α) state = (.error failure, state) := rfl

@[simp] theorem alone_require (result : Except Failure α) :
    alone service (require result) state = (result, state) := rfl

@[simp] theorem alone_offer : alone service offer state = (.ok (service.offer state), state) := rfl

@[simp] theorem alone_now : alone service now state = (.ok (service.now state), state) := rfl

@[simp] theorem alone_log (event : LogEvent) :
    alone service (log event) state = (.ok (), state) := rfl

@[simp] theorem alone_ask (request : Request) :
    alone service (ask request) state = service.answer request state := rfl

/-- With nobody else about, a listing is a request of the caller's own. -/
@[simp] theorem alone_share (plan : ListingPlan) :
    alone service (share plan) state =
      (plan.finish (service.answer plan.request state).1,
        (service.answer plan.request state).2) := rfl

/-- A success is not changed by what is said of a failure. -/
theorem mapError_ok {ε ε' : Type} (f : ε → ε') (value : α) :
    (Except.ok value).mapError f = .ok value := rfl

@[simp] theorem alone_during (attempt : String) (operation : Operation α) :
    alone service (during attempt operation) state =
      ((alone service operation state).1.mapError (·.during attempt),
        (alone service operation state).2) := by
  show (Procedure.bind _ _).alone service state = _
  rw [Procedure.alone_bind]
  rfl

@[simp] theorem alone_attempt (operation : Operation α) :
    alone service (attempt operation) state =
      (.ok (alone service operation state).1, (alone service operation state).2) := by
  show (Procedure.bind _ _).alone service state = _
  rw [Procedure.alone_bind]
  rfl

/-- The second of two operations runs only if the first succeeds. -/
theorem alone_bind (operation : Operation α) (f : α → Operation β) :
    alone service (operation >>= f) state =
      match alone service operation state with
      | (.ok result, state) => alone service (f result) state
      | (.error failure, state) => (.error failure, state) := by
  show (Procedure.bind operation.run (ExceptT.bindCont f)).alone service state =
    match operation.run.alone service state with
    | (.ok result, state) => alone service (f result) state
    | (.error failure, state) => (.error failure, state)
  rw [Procedure.alone_bind]
  generalize operation.run.alone service state = outcome
  obtain ⟨result, state⟩ := outcome
  cases result <;> rfl

variable {service state}

theorem alone_bind_of_ok {operation : Operation α} {f : α → Operation β} {result : α} {state' : σ}
    (hok : alone service operation state = (.ok result, state')) :
    alone service (operation >>= f) state = alone service (f result) state' := by
  rw [alone_bind, hok]

theorem alone_bind_of_error {operation : Operation α} {f : α → Operation β} {failure : Failure}
    {state' : σ} (herror : alone service operation state = (.error failure, state')) :
    alone service (operation >>= f) state = (.error failure, state') := by
  rw [alone_bind, herror]

theorem alone_during_of_ok {operation : Operation α} {result : α} {state' : σ} (attempt : String)
    (hok : alone service operation state = (.ok result, state')) :
    alone service (during attempt operation) state = (.ok result, state') := by
  rw [alone_during, hok]
  rfl

theorem alone_map (f : α → β) (operation : Operation α) :
    alone service (f <$> operation) state =
      ((alone service operation state).1.map f, (alone service operation state).2) := by
  rw [← bind_pure_comp, alone_bind]
  generalize alone service operation state = outcome
  obtain ⟨result, state⟩ := outcome
  cases result <;> rfl

end Operation

end VirtualFs
