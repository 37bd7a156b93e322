import VirtualFs.Proofs.Returns

namespace VirtualFs

variable {σ α β : Type}

namespace Procedure

/-- The exchanges of a procedure that runs to its end with nobody else about. -/
def exchanges (service : Service σ) : Procedure α → σ → List Exchange
  | done _, _ => []
  | log _ next, state => next.exchanges service state
  | offer next, state => (next (service.offer state)).exchanges service state
  | now next, state => (next (service.now state)).exchanges service state
  | ask request next, state =>
    match service.answer request state with
    | (answer, state) => ⟨request, answer⟩ :: (next answer).exchanges service state
  | share plan next, state =>
    match service.answer plan.request state with
    | (answer, state) => (next (.value (plan.finish answer))).exchanges service state

theorem exchangesOf_acts (service : Service σ) (procedure : Procedure α) (state : σ) :
    exchangesOf (procedure.acts service state) = procedure.exchanges service state := by
  induction procedure generalizing state with
  | done => rfl
  | log event next ih => exact ih state
  | offer next ih => exact ih _ state
  | now next ih => exact ih _ state
  | ask request next ih => exact congrArg (List.cons _) (ih _ _)
  | share plan next ih => exact ih _ _

/-- Of two procedures in a row, the second begins with the state that the first leaves behind. -/
theorem exchanges_bind (service : Service σ) (procedure : Procedure α) (f : α → Procedure β)
    (state : σ) :
    (procedure.bind f).exchanges service state =
      procedure.exchanges service state ++ (f (procedure.alone service state).1).exchanges service
        (procedure.alone service state).2 := by
  induction procedure generalizing state with
  | done => rfl
  | log event next ih => exact ih state
  | offer next ih => exact ih _ state
  | now next ih => exact ih _ state
  | ask request next ih => exact congrArg (List.cons _) (ih _ _)
  | share plan next ih => exact ih _ _

end Procedure

namespace Operation

variable {operation : Operation α} {past first second : List Exchange}
  {result : Except Failure α} {f : α → Operation β}

/-- The exchanges of an operation that runs with nobody else about. -/
def exchanges (service : Service σ) (operation : Operation α) (state : σ) : List Exchange :=
  operation.run.exchanges service state

/-- With nobody else about an operation comes to a result and a state by way of some exchanges. -/
structure Gives (service : Service σ) (operation : Operation α) (state : σ) (past : List Exchange)
    (result : Except Failure α) (state' : σ) : Prop where
  alone : operation.alone service state = (result, state')
  exchanges : operation.exchanges service state = past

section Gives

variable {service : Service σ} {state state' state'' : σ}

theorem gives_of_alone (halone : operation.alone service state = (result, state')) :
    operation.Gives service state (operation.exchanges service state) result state' :=
  ⟨halone, rfl⟩

theorem Gives.exists_returns (hgives : operation.Gives service state past result state') :
    ∃ acts, operation.Returns acts result ∧ exchangesOf acts = past := by
  refine ⟨operation.run.acts service state, ?_, ?_⟩
  · have hgoes := Procedure.goes_acts service operation.run state
    have halone : operation.run.alone service state = (result, state') := hgives.alone
    rwa [halone] at hgoes
  · exact (Procedure.exchangesOf_acts service operation.run state).trans hgives.exchanges

/-- The second of two operations goes on with what the first came to. -/
theorem Gives.bind {value : α} {result : Except Failure β}
    (hfirst : operation.Gives service state first (.ok value) state')
    (hsecond : (f value).Gives service state' second result state'') :
    (operation >>= f).Gives service state (first ++ second) result state'' := by
  refine ⟨(alone_bind_of_ok hfirst.alone).trans hsecond.alone, ?_⟩
  have hsplit := Procedure.exchanges_bind service operation.run (ExceptT.bindCont f) state
  have halone : operation.run.alone service state = (.ok value, state') := hfirst.alone
  rw [halone] at hsplit
  refine hsplit.trans (congr (congrArg _ hfirst.exchanges) hsecond.exchanges)

theorem Gives.during (what : String)
    (hgives : operation.Gives service state past result state') :
    (Operation.during what operation).Gives service state past (result.mapError (·.during what))
      state' := by
  refine ⟨by rw [alone_during, hgives.alone], ?_⟩
  have hsplit := Procedure.exchanges_bind service operation.run
    (fun result => .done (result.mapError (·.during what))) state
  exact (hsplit.trans (List.append_nil _)).trans hgives.exchanges

theorem gives_offer : offer.Gives service state [] (.ok (service.offer state)) state := ⟨rfl, rfl⟩

theorem gives_now : now.Gives service state [] (.ok (service.now state)) state := ⟨rfl, rfl⟩

theorem gives_require (known : Except Failure α) :
    (require known).Gives service state [] known state := ⟨rfl, rfl⟩

theorem gives_fail (failure : Failure) :
    (fail failure : Operation α).Gives service state [] (.error failure) state := ⟨rfl, rfl⟩

theorem gives_log (event : LogEvent) : (log event).Gives service state [] (.ok ()) state :=
  ⟨rfl, rfl⟩

theorem gives_ask {request : Request} {answer : request.Answer}
    (hanswer : service.answer request state = (answer, state')) :
    (ask request).Gives service state [⟨request, answer⟩] answer state' := by
  refine ⟨hanswer, ?_⟩
  show ([⟨request, (service.answer request state).1⟩] : List Exchange) = _
  rw [hanswer]

theorem Gives.attempt (hgives : operation.Gives service state past result state') :
    (Operation.attempt operation).Gives service state past (.ok result) state' := by
  refine ⟨by rw [alone_attempt, hgives.alone], ?_⟩
  have hsplit := Procedure.exchanges_bind service operation.run
    (fun result => .done (.ok result : Except Failure _)) state
  exact (hsplit.trans (List.append_nil _)).trans hgives.exchanges

theorem Gives.attempt_bind {g : Except Failure α → Operation β} {result' : Except Failure β}
    (hfirst : operation.Gives service state first result state')
    (hsecond : (g result).Gives service state' second result' state'') :
    (Operation.attempt operation >>= g).Gives service state (first ++ second) result' state'' :=
  hfirst.attempt.bind hsecond

end Gives

end Operation

end VirtualFs
