import VirtualFs.Proofs.Acts

namespace VirtualFs

namespace Operation

variable {α β : Type}

/-- An operation comes to a result by some acts. -/
def Returns (operation : Operation α) (past : List Act) (result : Except Failure α) : Prop :=
  operation.run.Goes past (.done result)

/-- Some acts have brought an operation to asking something. -/
def Issues (operation : Operation α) (past : List Act) (request : Request) : Prop :=
  ∃ next, operation.run.Goes past (.ask request next)

variable {operation : Operation α} {past first second : List Act} {request : Request}
  {result : Except Failure α}

theorem Returns.issued {exchange : Exchange}
    (hreturns : operation.Returns (first ++ .asked exchange :: second) result) :
    operation.Issues first exchange.request :=
  hreturns.asked

/-- Each request is issued after the acts before it. -/
theorem Returns.issues_take (hreturns : operation.Returns past result) {n : Nat}
    {exchange : Exchange} (hact : past[n]? = some (.asked exchange)) :
    operation.Issues (past.take n) exchange.request := by
  obtain ⟨hlength, hact⟩ := List.getElem?_eq_some_iff.1 hact
  have hsplit : past.take n ++ .asked exchange :: past.drop (n + 1) = past := by
    rw [← hact, List.getElem_cons_drop, List.take_append_drop]
  rw [← hsplit] at hreturns
  exact hreturns.issued

/-- An operation that never asked for a change left none behind. -/
theorem Returns.quiet (hreturns : operation.Returns past result)
    (hharmless : ∀ {first request}, first <+: past → operation.Issues first request →
      ¬ request.Changes) : Quiet (exchangesOf past) := by
  intro exchange hmem
  obtain ⟨first, second, rfl⟩ := List.append_of_mem (mem_exchangesOf.1 hmem)
  exact hharmless (List.prefix_append _ _) hreturns.issued

/-! What each kind of step asks and what it comes to. -/

@[simp] theorem returns_require {known : Except Failure α} :
    (require known).Returns past result ↔ past = [] ∧ result = known := by
  constructor
  · rintro ⟨⟩
    exact ⟨rfl, rfl⟩
  · rintro ⟨rfl, rfl⟩
    exact .rest _

@[simp] theorem not_issues_require {known : Except Failure α} :
    ¬ (require known).Issues past request := by
  rintro ⟨next, ⟨⟩⟩

@[simp] theorem returns_pure {value : α} :
    (pure value : Operation α).Returns past result ↔ past = [] ∧ result = .ok value :=
  returns_require

@[simp] theorem not_issues_pure {value : α} : ¬ (pure value : Operation α).Issues past request :=
  not_issues_require

@[simp] theorem returns_fail {failure : Failure} :
    (fail failure : Operation α).Returns past result ↔ past = [] ∧ result = .error failure :=
  returns_require

@[simp] theorem not_issues_fail {failure : Failure} :
    ¬ (fail failure : Operation α).Issues past request :=
  not_issues_require

@[simp] theorem returns_ask {asked : Request} {answer : asked.Answer} :
    (ask asked).Returns past answer ↔ past = [.asked ⟨asked, answer⟩] := by
  constructor
  · intro hreturns
    cases hreturns with
    | ask answer later =>
      cases later
      rfl
  · rintro rfl
    exact .ask answer (.rest _)

@[simp] theorem issues_ask {asked : Request} :
    (ask asked).Issues past request ↔ past = [] ∧ request = asked := by
  constructor
  · rintro ⟨next, hgoes⟩
    cases hgoes with
    | rest => exact ⟨rfl, rfl⟩
    | ask answer later => cases later
  · rintro ⟨rfl, rfl⟩
    exact ⟨_, .rest _⟩

@[simp] theorem not_issues_share {plan : ListingPlan} : ¬ (share plan).Issues past request := by
  rintro ⟨next, hgoes⟩
  cases hgoes with
  | share outcome later => cases outcome <;> cases later

/-- An operation whose result is only looked at from outside. -/
theorem returns_after {f : Except Failure α → Except Failure β} {result : Except Failure β} :
    Returns (ExceptT.mk (operation.run.bind (fun plain => .done (f plain)))) past result ↔
      ∃ plain, operation.Returns past plain ∧ result = f plain := by
  refine Procedure.goes_bind_done.trans ⟨?_, ?_⟩
  · rintro ⟨first, plain, second, rfl, hreturns, ⟨⟩⟩
    exact ⟨plain, by rwa [List.append_nil], rfl⟩
  · rintro ⟨plain, hreturns, rfl⟩
    exact ⟨past, plain, [], (List.append_nil past).symm, hreturns, .rest _⟩

theorem issues_after {f : Except Failure α → Except Failure β} :
    Issues (ExceptT.mk (operation.run.bind (fun plain => .done (f plain)))) past request ↔
      operation.Issues past request := by
  refine Procedure.goes_bind_ask.trans (or_iff_left ?_)
  rintro ⟨first, plain, second, -, -, next, ⟨⟩⟩

@[simp] theorem returns_attempt {result : Except Failure (Except Failure α)} :
    (attempt operation).Returns past result ↔
      ∃ plain, operation.Returns past plain ∧ result = .ok plain :=
  returns_after

@[simp] theorem issues_attempt :
    (attempt operation).Issues past request ↔ operation.Issues past request :=
  issues_after

@[simp] theorem returns_during {what : String} :
    (during what operation).Returns past result ↔
      ∃ plain, operation.Returns past plain ∧ result = plain.mapError (·.during what) :=
  returns_after

theorem Returns.during (hreturns : operation.Returns past result) (what : String) :
    (Operation.during what operation).Returns past (result.mapError (·.during what)) :=
  returns_during.2 ⟨result, hreturns, rfl⟩

@[simp] theorem issues_during {what : String} :
    (during what operation).Issues past request ↔ operation.Issues past request :=
  issues_after

/-- What succeeds for a reason has succeeded by itself. -/
theorem returns_during_ok {what : String} {value : α} :
    (during what operation).Returns past (.ok value) ↔ operation.Returns past (.ok value) := by
  rw [returns_during]
  constructor
  · rintro ⟨plain, hreturns, hok⟩
    cases plain with
    | ok plain =>
      cases hok
      exact hreturns
    | error => cases hok
  · exact fun hreturns => ⟨_, hreturns, rfl⟩

variable {f : α → Operation β}

theorem returns_bind {result : Except Failure β} :
    (operation >>= f).Returns past result ↔
      (∃ failure, operation.Returns past (.error failure) ∧ result = .error failure) ∨
        ∃ first value second, past = first ++ second ∧ operation.Returns first (.ok value) ∧
          (f value).Returns second result := by
  refine (Procedure.goes_bind_done (f := ExceptT.bindCont f)).trans ⟨?_, ?_⟩
  · rintro ⟨first, outcome, second, rfl, hfirst, hsecond⟩
    cases outcome with
    | ok value => exact .inr ⟨first, value, second, rfl, hfirst, hsecond⟩
    | error failure =>
      cases hsecond
      exact .inl ⟨failure, by rwa [List.append_nil], rfl⟩
  · rintro (⟨failure, hfails, rfl⟩ | ⟨first, value, second, rfl, hfirst, hsecond⟩)
    · exact ⟨past, _, [], (List.append_nil past).symm, hfails, .rest _⟩
    · exact ⟨first, _, second, rfl, hfirst, hsecond⟩

/-- A failure is the end, whatever was to follow. -/
theorem Returns.bind_error {failure : Failure}
    (hreturns : operation.Returns past (.error failure)) (f : α → Operation β) :
    (operation >>= f).Returns past (.error failure) :=
  returns_bind.2 (.inl ⟨failure, hreturns, rfl⟩)

/-- What succeeds in two parts has succeeded in both. -/
theorem returns_bind_ok {value : β} :
    (operation >>= f).Returns past (.ok value) ↔
      ∃ first middle second, past = first ++ second ∧ operation.Returns first (.ok middle) ∧
        (f middle).Returns second (.ok value) := by
  refine returns_bind.trans (or_iff_right ?_)
  rintro ⟨failure, -, ⟨⟩⟩

theorem issues_bind :
    (operation >>= f).Issues past request ↔ operation.Issues past request ∨
      ∃ first value second, past = first ++ second ∧ operation.Returns first (.ok value) ∧
        (f value).Issues second request := by
  refine (Procedure.goes_bind_ask (f := ExceptT.bindCont f)).trans (or_congr_right ⟨?_, ?_⟩)
  · rintro ⟨first, outcome, second, rfl, hfirst, next, hsecond⟩
    cases outcome with
    | ok value => exact ⟨first, value, second, rfl, hfirst, next, hsecond⟩
    | error failure => cases hsecond
  · rintro ⟨first, value, second, rfl, hfirst, next, hsecond⟩
    exact ⟨first, _, second, rfl, hfirst, next, hsecond⟩

/-! A step that is no request comes first among the acts, and what follows does the rest. -/

theorem returns_log_bind {event : LogEvent} {f : Unit → Operation β} {result : Except Failure β} :
    (log event >>= f).Returns past result ↔
      ∃ rest, past = .noted event :: rest ∧ (f ()).Returns rest result := by
  constructor
  · intro hreturns
    cases hreturns with
    | log later => exact ⟨_, rfl, later⟩
  · rintro ⟨rest, rfl, hreturns⟩
    exact .log hreturns

theorem issues_log_bind {event : LogEvent} {f : Unit → Operation β} :
    (log event >>= f).Issues past request ↔
      ∃ rest, past = .noted event :: rest ∧ (f ()).Issues rest request := by
  constructor
  · rintro ⟨next, hgoes⟩
    cases hgoes with
    | log later => exact ⟨_, rfl, next, later⟩
  · rintro ⟨rest, rfl, next, hgoes⟩
    exact ⟨next, .log hgoes⟩

theorem returns_offer_bind {f : Offer → Operation β} {result : Except Failure β} :
    (offer >>= f).Returns past result ↔
      ∃ answer rest, past = .looked answer :: rest ∧ (f answer).Returns rest result := by
  constructor
  · intro hreturns
    cases hreturns with
    | offer answer later => exact ⟨answer, _, rfl, later⟩
  · rintro ⟨answer, rest, rfl, hreturns⟩
    exact .offer answer hreturns

theorem issues_offer_bind {f : Offer → Operation β} :
    (offer >>= f).Issues past request ↔
      ∃ answer rest, past = .looked answer :: rest ∧ (f answer).Issues rest request := by
  constructor
  · rintro ⟨next, hgoes⟩
    cases hgoes with
    | offer answer later => exact ⟨answer, _, rfl, next, later⟩
  · rintro ⟨answer, rest, rfl, next, hgoes⟩
    exact ⟨next, .offer answer hgoes⟩

theorem returns_now_bind {f : UInt64 → Operation β} {result : Except Failure β} :
    (now >>= f).Returns past result ↔
      ∃ time rest, past = .timed time :: rest ∧ (f time).Returns rest result := by
  constructor
  · intro hreturns
    cases hreturns with
    | now time later => exact ⟨time, _, rfl, later⟩
  · rintro ⟨time, rest, rfl, hreturns⟩
    exact .now time hreturns

theorem issues_now_bind {f : UInt64 → Operation β} :
    (now >>= f).Issues past request ↔
      ∃ time rest, past = .timed time :: rest ∧ (f time).Issues rest request := by
  constructor
  · rintro ⟨next, hgoes⟩
    cases hgoes with
    | now time later => exact ⟨time, _, rfl, next, later⟩
  · rintro ⟨time, rest, rfl, next, hgoes⟩
    exact ⟨next, .now time hgoes⟩

/-- What is known leaves all acts to what follows, if anything follows. -/
theorem returns_require_bind {known : Except Failure α} {result : Except Failure β} :
    (require known >>= f).Returns past result ↔
      (∃ failure, known = .error failure ∧ past = [] ∧ result = .error failure) ∨
        ∃ middle, known = .ok middle ∧ (f middle).Returns past result := by
  cases known with
  | ok middle =>
    refine ⟨fun hreturns => .inr ⟨middle, rfl, hreturns⟩, ?_⟩
    rintro (⟨failure, ⟨⟩, -⟩ | ⟨_, ⟨⟩, hreturns⟩)
    exact hreturns
  | error failure =>
    have hreturns : (require (.error failure) >>= f).Returns past result ↔
        past = [] ∧ result = .error failure := returns_fail
    refine hreturns.trans ⟨fun h => .inl ⟨failure, rfl, h⟩, ?_⟩
    rintro (⟨_, ⟨⟩, h⟩ | ⟨_, ⟨⟩, -⟩)
    exact h

theorem issues_require_bind {known : Except Failure α} :
    (require known >>= f).Issues past request ↔
      ∃ middle, known = .ok middle ∧ (f middle).Issues past request := by
  cases known with
  | ok middle =>
    refine ⟨fun hissues => ⟨middle, rfl, hissues⟩, ?_⟩
    rintro ⟨_, ⟨⟩, hissues⟩
    exact hissues
  | error failure =>
    have hissues : ¬ (require (.error failure) >>= f).Issues past request := not_issues_fail
    refine iff_of_false hissues ?_
    rintro ⟨_, ⟨⟩, -⟩

/-! The same for whatever is left after some more acts. -/

section Goes

variable {rest : Procedure (Except Failure β)}

theorem goes_of_offer_bind {f : Offer → Operation β} {answer : Offer}
    (hgoes : (offer >>= f).run.Goes (.looked answer :: past) rest) :
    (f answer).run.Goes past rest := by
  cases hgoes with
  | offer answer later => exact later

theorem goes_of_log_bind {event noted : LogEvent} {f : Unit → Operation β}
    (hgoes : (log event >>= f).run.Goes (.noted noted :: past) rest) :
    (f ()).run.Goes past rest := by
  cases hgoes with
  | log later => exact later

theorem goes_of_now_bind {f : UInt64 → Operation β} {time : UInt64}
    (hgoes : (now >>= f).run.Goes (.timed time :: past) rest) : (f time).run.Goes past rest := by
  cases hgoes with
  | now time later => exact later

theorem goes_of_require_bind {known : Except Failure α} {act : Act}
    (hgoes : (require known >>= f).run.Goes (act :: past) rest) :
    ∃ middle, known = .ok middle ∧ (f middle).run.Goes (act :: past) rest := by
  cases known with
  | ok middle => exact ⟨middle, rfl, hgoes⟩
  | error failure => cases hgoes

end Goes

/-- What an attempt came to decides how to go on. -/
theorem returns_attempt_bind {f : Except Failure α → Operation β} {result : Except Failure β} :
    (attempt operation >>= f).Returns past result ↔
      ∃ first plain second, past = first ++ second ∧ operation.Returns first plain ∧
        (f plain).Returns second result := by
  rw [returns_bind]
  simp only [returns_attempt, Except.ok.injEq, exists_eq_right', reduceCtorEq, and_false,
    exists_false, false_and, false_or]

theorem Returns.attempt_bind {f : Except Failure α → Operation β} {plain : Except Failure α}
    {result : Except Failure β} {first second : List Act} (hfirst : operation.Returns first plain)
    (hsecond : (f plain).Returns second result) :
    (attempt operation >>= f).Returns (first ++ second) result :=
  returns_attempt_bind.2 ⟨first, plain, second, rfl, hfirst, hsecond⟩

/-- What an attempt came to may be all that is needed. -/
theorem Returns.attempt_bind_nil {f : Except Failure α → Operation β} {plain : Except Failure α}
    {result : Except Failure β} (hfirst : operation.Returns past plain)
    (hrest : (f plain).Returns [] result) : (attempt operation >>= f).Returns past result := by
  simpa using hfirst.attempt_bind hrest

theorem issues_attempt_bind {f : Except Failure α → Operation β} :
    (attempt operation >>= f).Issues past request ↔ operation.Issues past request ∨
      ∃ first result second, past = first ++ second ∧ operation.Returns first result ∧
        (f result).Issues second request := by
  rw [issues_bind]
  simp only [issues_attempt, returns_attempt, Except.ok.injEq, exists_eq_right']

end Operation

end VirtualFs
