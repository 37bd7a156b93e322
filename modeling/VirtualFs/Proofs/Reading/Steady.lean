import VirtualFs.Alone
import VirtualFs.Lookup
import VirtualFs.Proofs.Operation

namespace VirtualFs

variable {σ α β : Type}

/-- A request that only looks. -/
def Request.Reads : Request → Prop
  | list _ _ => True
  | link _ => True
  | get _ => True
  | getRoot => True
  | openLink _ _ _ _ => True
  | readRange _ _ => True
  | _ => False

/-- A backend does not change what it offers and what it answers to requests that only look, neither
    with them nor in between. It is free in when it answers. The states in which this holds are not
    left, and `awaits` holds of the requests in flight that can come about. -/
structure Backend.Steady (backend : Backend σ) (holds : σ → Prop)
    (awaits : ∀ {request}, backend.Flight request → Prop) (offered : Offer)
    (reply : (request : Request) → request.Answer) : Prop where
  offer : ∀ {s}, holds s → backend.offer s = offered
  issue : ∀ {s request}, request.Reads → holds s →
    holds (backend.issue request s).state ∧
      (backend.issue request s).poll.Tells awaits (fun answer => answer = reply request)
  resume : ∀ {s request} {flight : backend.Flight request}, request.Reads → awaits flight →
    holds s → holds (backend.resume request flight s).state ∧
      (backend.resume request flight s).poll.Tells awaits (fun answer => answer = reply request)
  abandon : ∀ {s request} (flight : backend.Flight request), request.Reads → holds s →
    holds (backend.abandon request flight s)

namespace Steady

variable (offered : Offer) (reply : (request : Request) → request.Answer)

/-- Nothing is to be known of a steady backend but its answers, which are always the same. -/
def behaviour : Behaviour Unit where
  Uses request _ := request.Reads
  lists _ _ := trivial
  offers _ offer := offer = offered
  permits request _ answer _ := answer = reply request

/-- The answers of a steady backend without the delays. -/
def service : Service Unit where
  offer _ := offered
  now _ := 0
  answer request _ := (reply request, ())

section Realization

variable {offered reply} {backend : Backend σ} {holds : σ → Prop}
  {awaits : ∀ {request}, backend.Flight request → Prop}

/-- It is as good as any moment for a request to have its effect when it is answered. -/
private theorem brings {request : Request}
    {turn : Turn σ (backend.Flight request) request.Answer} (hholds : holds turn.state)
    (hpoll : turn.poll.Tells awaits (fun answer => answer = reply request)) :
    backend.Brings (behaviour offered reply) (fun s _ => holds s)
      (fun flight owed => awaits flight ∧ owed = none) none () turn := by
  cases hturn : turn.poll with
  | waiting flight =>
    rw [hturn] at hpoll
    refine ⟨none, (), .waits none (), hholds, ?_⟩
    rw [hturn]
    exact ⟨hpoll, rfl⟩
  | ready answer =>
    rw [hturn] at hpoll
    refine ⟨some answer, (), .acts hpoll, hholds, ?_⟩
    rw [hturn]
    rfl

def realization (hsteady : backend.Steady holds awaits offered reply) :
    Realization backend (behaviour offered reply) where
  shows s _ := holds s
  Owes flight owed := awaits flight ∧ owed = none
  offer := hsteady.offer
  issue := fun hreads hholds =>
    brings (hsteady.issue hreads hholds).1 (hsteady.issue hreads hholds).2
  resume := by
    rintro s t request flight owed hreads ⟨hawaits, rfl⟩ hholds
    exact brings (hsteady.resume hreads hawaits hholds).1 (hsteady.resume hreads hawaits hholds).2
  abandon := fun flight hreads hholds => hsteady.abandon flight hreads hholds

end Realization

variable (mount : Mount)

/-- The listing that a caller of the mount would make by itself. -/
def Planned (plan : ListingPlan) : Prop :=
  plan.mount = mount.number ∧ plan.mapping = mount.mapping ∧
    ∃ name, ((mount.lookup plan.dir).alone (service offered reply) ()).1 = .ok ⟨name, plan.object⟩

/-- Callers of a mount that only look may share what each would have listed by itself. -/
def accord : Accord (behaviour offered reply) where
  Leads _ _ := True
  refl _ := trivial
  trans _ _ := trivial
  listed _ := trivial
  Drops := True
  Does _ _ := True
  does := id
  Shareable plan _ := Planned offered reply mount plan
  shareable_mono hplan _ := hplan
  Accepts _ _ := True
  Since _ _ _ := True
  since_refl _ _ := trivial
  since_trans _ _ := trivial

/-- The result that an operation has alone, or word that a listing was aborted. -/
def Plain (solo : Except Failure α) : Bool → Unit → Except Failure α → Prop
  | false, _, result => result = solo
  | true, _, result => ∃ failure, result = .error failure ∧ failure.cause = .cancelled

/-- In the company of others an operation comes to what it comes to alone, unless it gets word that a
    listing was aborted. -/
def Faithful (operation : Operation α) : Prop :=
  operation.Safe (accord offered reply mount)
    (Plain (operation.alone (service offered reply) ()).1) false ()

variable {offered reply mount}

/-- Under a key there is one plan only. -/
theorem Planned.unique {plan plan' : ListingPlan} (hplan : Planned offered reply mount plan)
    (hplan' : Planned offered reply mount plan') (hkey : plan'.key = plan.key) : plan' = plan := by
  obtain ⟨hmount, hmapping, name, hobject⟩ := hplan
  obtain ⟨hmount', hmapping', name', hobject'⟩ := hplan'
  obtain ⟨number, dir, object, mapping⟩ := plan
  obtain ⟨number', dir', object', mapping'⟩ := plan'
  obtain ⟨rfl, rfl⟩ : number' = number ∧ dir' = dir := by simpa [ListingPlan.key] using hkey
  dsimp only at hobject hobject' hmapping hmapping'
  obtain ⟨-, rfl⟩ : name = name' ∧ object = object' := by simpa [hobject] using hobject'
  rw [hmapping, hmapping']

theorem faithful_require (result : Except Failure α) :
    Faithful offered reply mount (Operation.require result) :=
  Operation.safe_require fun _ => rfl

theorem faithful_pure (result : α) : Faithful offered reply mount (pure result) :=
  Operation.safe_pure fun _ => rfl

theorem faithful_fail (failure : Failure) :
    Faithful offered reply mount (Operation.fail failure : Operation α) :=
  Operation.safe_fail fun _ => rfl

theorem faithful_log (event : LogEvent) : Faithful offered reply mount (Operation.log event) :=
  Operation.safe_log fun _ => rfl

theorem faithful_offer : Faithful offered reply mount Operation.offer := by
  refine Operation.safe_offer ?_
  rintro _ _ - rfl _ -
  rfl

theorem faithful_ask {request : Request} (hreads : request.Reads) :
    Faithful offered reply mount (Operation.ask request) := by
  refine Operation.safe_ask request fun _ => ⟨hreads, ?_⟩
  rintro _ _ rfl
  exact ⟨trivial, fun _ => rfl⟩

/-- A request has no listing to lose, so that its failure can be handled. -/
theorem faithful_attempt_ask {request : Request} (hreads : request.Reads) :
    Faithful offered reply mount (Operation.attempt (Operation.ask request)) := by
  refine Operation.Safe.attempt (Operation.safe_ask request fun _ => ⟨hreads, ?_⟩)
  rintro _ _ rfl
  exact ⟨trivial, fun _ => rfl⟩

/-- A listing that is shared is the listing that the caller would have made. -/
theorem faithful_share {plan : ListingPlan} (hplan : Planned offered reply mount plan) :
    Faithful offered reply mount (Operation.share plan) := by
  refine Operation.safe_share hplan ?_ ?_
  · rintro _ _ - ⟨plan', answer, hkey, ⟨_, _, hplan', hanswer, -⟩, rfl⟩ _ -
    obtain rfl := hplan.unique hplan' hkey
    obtain rfl : answer = reply plan'.request := hanswer
    rfl
  · exact fun _ _ _ _ _ => ⟨_, rfl, rfl⟩

theorem Faithful.bind {operation : Operation α} {f : α → Operation β}
    (hoperation : Faithful offered reply mount operation)
    (hf : ∀ {result}, (operation.alone (service offered reply) ()).1 = .ok result →
      Faithful offered reply mount (f result)) :
    Faithful offered reply mount (operation >>= f) := by
  refine Operation.Safe.bind (hoperation.weaken fun {cut t result} hresult => ?_)
  cases cut with
  | true =>
    obtain ⟨failure, rfl, hcause⟩ := hresult
    exact ⟨failure, rfl, hcause⟩
  | false =>
    have hsolo := Operation.alone_bind (service offered reply) () operation f
    cases halone : operation.alone (service offered reply) () with
    | mk solo t' =>
      rw [halone] at hsolo
      obtain rfl : result = solo := by rw [hresult, halone]
      cases result with
      | error failure =>
        show Except.error failure = _
        rw [hsolo]
      | ok result =>
        show Operation.Safe _ _ _ _ _
        rw [hsolo]
        exact hf (by rw [halone])

theorem Faithful.map {operation : Operation α} {f : α → β}
    (hoperation : Faithful offered reply mount operation) :
    Faithful offered reply mount (f <$> operation) := by
  rw [← bind_pure_comp]
  exact hoperation.bind (fun _ => faithful_pure _)

theorem Faithful.during {operation : Operation α} {attempt : String}
    (hoperation : Faithful offered reply mount operation) :
    Faithful offered reply mount (Operation.during attempt operation) := by
  refine Operation.Safe.during (hoperation.weaken fun {cut t result} hresult => ?_)
  cases cut with
  | true =>
    obtain ⟨failure, rfl, hcause⟩ := hresult
    exact ⟨failure.during attempt, rfl, hcause⟩
  | false =>
    show _ = _
    rw [Operation.alone_during, hresult]

end Steady

end VirtualFs
