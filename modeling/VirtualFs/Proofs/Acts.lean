import VirtualFs.Alone

namespace VirtualFs

variable {α β : Type}

/-- A request that changes what a backend holds if it takes effect. -/
def Request.Changes : Request → Prop
  | remove _ => True
  | makeDir _ _ => True
  | makeDirReporting _ _ => True
  | put _ _ _ _ => True
  | _ => False

instance : DecidablePred Request.Changes
  | .remove _ | .makeDir _ _ | .makeDirReporting _ _ | .put _ _ _ _ => .isTrue trivial
  | .list _ _ | .link _ | .get _ | .getRoot | .openLink _ _ _ _ | .readRange _ _ | .drain _
  | .connect _ => .isFalse id

/-- A request of a caller's own and the answer to it. -/
structure Exchange where
  request : Request
  answer : request.Answer

/-- Nothing was asked for that could change a backend. -/
def Quiet (past : List Exchange) : Prop :=
  ∀ exchange ∈ past, ¬ exchange.request.Changes

theorem quiet_nil : Quiet [] := List.forall_mem_nil _

@[simp] theorem quiet_append {first second : List Exchange} :
    Quiet (first ++ second) ↔ Quiet first ∧ Quiet second :=
  List.forall_mem_append

/-- One step of a caller and what it learnt by it. -/
inductive Act where
  | noted (event : LogEvent)
  | looked (offer : Offer)
  | timed (time : UInt64)
  | asked (exchange : Exchange)
  | shared (plan : ListingPlan) (outcome : Outcome Listing)

namespace Act

def exchange? : Act → Option Exchange
  | asked exchange => some exchange
  | _ => none

/-- Whoever looked found these capabilities on offer. -/
def Shows (capabilities : List Capability) : Act → Prop
  | looked offer => offer.capabilities = capabilities
  | _ => True

instance (capabilities : List Capability) : DecidablePred (Shows capabilities)
  | looked offer => inferInstanceAs (Decidable (offer.capabilities = capabilities))
  | noted _ | timed _ | asked _ | shared _ _ => .isTrue trivial

end Act

/-- The requests of a caller's own among its acts. -/
def exchangesOf (past : List Act) : List Exchange :=
  past.filterMap Act.exchange?

@[simp] theorem exchangesOf_append (first second : List Act) :
    exchangesOf (first ++ second) = exchangesOf first ++ exchangesOf second :=
  List.filterMap_append

namespace Act

theorem exchange?_eq_some {act : Act} {exchange : Exchange} :
    act.exchange? = some exchange ↔ act = asked exchange := by
  cases act <;> simp [exchange?]

/-- An act about which something is known as an exchange is one. -/
theorem exists_asked_of_any {act? : Option Act} {known : Exchange → Bool}
    (hknown : (act?.bind exchange?).any known = true) :
    ∃ exchange, act? = some (asked exchange) ∧ known exchange = true := by
  obtain ⟨exchange, hexchange, hholds⟩ := (Option.any_eq_true _ _).1 hknown
  obtain ⟨act, rfl, hact⟩ := Option.bind_eq_some_iff.1 hexchange
  exact ⟨exchange, congrArg some (exchange?_eq_some.1 hact), hholds⟩

end Act

theorem mem_exchangesOf {past : List Act} {exchange : Exchange} :
    exchange ∈ exchangesOf past ↔ .asked exchange ∈ past := by
  simp only [exchangesOf, List.mem_filterMap, Act.exchange?_eq_some, exists_eq_right]

/-- The backend offers the same capabilities whenever the caller looks. -/
def Steady (capabilities : List Capability) (past : List Act) : Prop :=
  ∀ act ∈ past, act.Shows capabilities

instance (capabilities : List Capability) (past : List Act) :
    Decidable (Steady capabilities past) :=
  inferInstanceAs (Decidable (∀ act ∈ past, act.Shows capabilities))

theorem steady_cons {capabilities : List Capability} {act : Act} {past : List Act} :
    Steady capabilities (act :: past) ↔ act.Shows capabilities ∧ Steady capabilities past :=
  List.forall_mem_cons

theorem steady_append {capabilities : List Capability} {first second : List Act} :
    Steady capabilities (first ++ second) ↔
      Steady capabilities first ∧ Steady capabilities second :=
  List.forall_mem_append

theorem Steady.of_prefix {capabilities : List Capability} {first past : List Act}
    (hsteady : Steady capabilities past) (hfirst : first <+: past) : Steady capabilities first :=
  fun act hmem => hsteady act (hfirst.subset hmem)

namespace Procedure

/-- What is left of a procedure after some acts. No answer is ruled out, whatever was said before,
    so all runs among others are covered. Nothing that the caller learnt is left out, so the acts
    determine what is left. -/
inductive Goes : Procedure α → List Act → Procedure α → Prop
  | rest (procedure : Procedure α) : Goes procedure [] procedure
  | log {event : LogEvent} {next rest : Procedure α} {past : List Act}
      (later : Goes next past rest) : Goes (.log event next) (.noted event :: past) rest
  | offer {next : Offer → Procedure α} {rest : Procedure α} {past : List Act} (answer : Offer)
      (later : Goes (next answer) past rest) : Goes (.offer next) (.looked answer :: past) rest
  | now {next : UInt64 → Procedure α} {rest : Procedure α} {past : List Act} (time : UInt64)
      (later : Goes (next time) past rest) : Goes (.now next) (.timed time :: past) rest
  | ask {request : Request} {next : request.Answer → Procedure α} {rest : Procedure α}
      {past : List Act} (answer : request.Answer) (later : Goes (next answer) past rest) :
      Goes (.ask request next) (.asked ⟨request, answer⟩ :: past) rest
  | share {plan : ListingPlan} {next : Outcome Listing → Procedure α} {rest : Procedure α}
      {past : List Act} (outcome : Outcome Listing) (later : Goes (next outcome) past rest) :
      Goes (.share plan next) (.shared plan outcome :: past) rest

variable {procedure rest : Procedure α} {past first second : List Act}

theorem Goes.trans {middle : Procedure α} (hgoes : procedure.Goes first middle)
    (hlater : middle.Goes second rest) : procedure.Goes (first ++ second) rest := by
  induction hgoes with
  | rest => exact hlater
  | log _ ih => exact .log (ih hlater)
  | offer answer _ ih => exact .offer answer (ih hlater)
  | now time _ ih => exact .now time (ih hlater)
  | ask answer _ ih => exact .ask answer (ih hlater)
  | share outcome _ ih => exact .share outcome (ih hlater)

/-- Whoever has come through some acts has come through the first of them. -/
theorem Goes.split (hgoes : procedure.Goes (first ++ second) rest) :
    ∃ middle, procedure.Goes first middle ∧ middle.Goes second rest := by
  induction first generalizing procedure with
  | nil => exact ⟨procedure, .rest _, hgoes⟩
  | cons act first ih =>
    cases hgoes with
    | log later =>
      obtain ⟨middle, h, hlater⟩ := ih later
      exact ⟨middle, .log h, hlater⟩
    | offer answer later =>
      obtain ⟨middle, h, hlater⟩ := ih later
      exact ⟨middle, .offer answer h, hlater⟩
    | now time later =>
      obtain ⟨middle, h, hlater⟩ := ih later
      exact ⟨middle, .now time h, hlater⟩
    | ask answer later =>
      obtain ⟨middle, h, hlater⟩ := ih later
      exact ⟨middle, .ask answer h, hlater⟩
    | share outcome later =>
      obtain ⟨middle, h, hlater⟩ := ih later
      exact ⟨middle, .share outcome h, hlater⟩

/-- A procedure that has an exchange behind it was about to ask. -/
theorem Goes.asked {exchange : Exchange}
    (hgoes : procedure.Goes (first ++ .asked exchange :: second) rest) :
    ∃ next, procedure.Goes first (.ask exchange.request next) := by
  obtain ⟨middle, hfirst, hlater⟩ := hgoes.split
  cases hlater with
  | ask answer later => exact ⟨_, hfirst⟩

/-- The acts of a procedure leave nothing open. -/
theorem Goes.unique {left : Procedure α} (hgoes : procedure.Goes past rest)
    (hgoes' : procedure.Goes past left) : left = rest := by
  induction hgoes with
  | rest =>
    cases hgoes'
    rfl
  | log _ ih =>
    cases hgoes' with
    | log later => exact ih later
  | offer _ _ ih =>
    cases hgoes' with
    | offer _ later => exact ih later
  | now _ _ ih =>
    cases hgoes' with
    | now _ later => exact ih later
  | ask _ _ ih =>
    cases hgoes' with
    | ask _ later => exact ih later
  | share _ _ ih =>
    cases hgoes' with
    | share _ later => exact ih later

/-- A procedure that has come to its end does not go on. -/
theorem Goes.ended {result : α} (hgoes : procedure.Goes (first ++ second) rest)
    (hdone : procedure.Goes first (.done result)) : second = [] ∧ rest = .done result := by
  obtain ⟨middle, hfirst, hlater⟩ := hgoes.split
  obtain rfl := hdone.unique hfirst
  cases hlater
  exact ⟨rfl, rfl⟩

theorem Goes.bind (hgoes : procedure.Goes past rest) (f : α → Procedure β) :
    (procedure.bind f).Goes past (rest.bind f) := by
  induction hgoes with
  | rest => exact .rest _
  | log _ ih => exact .log ih
  | offer answer _ ih => exact .offer answer ih
  | now time _ ih => exact .now time ih
  | ask answer _ ih => exact .ask answer ih
  | share outcome _ ih => exact .share outcome ih

/-- Of two procedures in a row, either the first has something left to do or the second is under
    way. -/
theorem Goes.of_bind {f : α → Procedure β} {rest : Procedure β}
    (hgoes : (procedure.bind f).Goes past rest) :
    (∃ left, procedure.Goes past left ∧ rest = left.bind f) ∨
      ∃ first result second, past = first ++ second ∧ procedure.Goes first (.done result) ∧
        (f result).Goes second rest := by
  induction procedure generalizing past with
  | done result => exact .inr ⟨[], result, past, rfl, .rest _, hgoes⟩
  | log event next ih =>
    cases hgoes with
    | rest => exact .inl ⟨_, .rest _, rfl⟩
    | log later =>
      rcases ih later with ⟨left, h, rfl⟩ | ⟨first, result, second, rfl, h, hlater⟩
      · exact .inl ⟨left, .log h, rfl⟩
      · exact .inr ⟨.noted event :: first, result, second, rfl, .log h, hlater⟩
  | offer next ih =>
    cases hgoes with
    | rest => exact .inl ⟨_, .rest _, rfl⟩
    | offer answer later =>
      rcases ih answer later with ⟨left, h, rfl⟩ | ⟨first, result, second, rfl, h, hlater⟩
      · exact .inl ⟨left, .offer answer h, rfl⟩
      · exact .inr ⟨.looked answer :: first, result, second, rfl, .offer answer h, hlater⟩
  | now next ih =>
    cases hgoes with
    | rest => exact .inl ⟨_, .rest _, rfl⟩
    | now time later =>
      rcases ih time later with ⟨left, h, rfl⟩ | ⟨first, result, second, rfl, h, hlater⟩
      · exact .inl ⟨left, .now time h, rfl⟩
      · exact .inr ⟨.timed time :: first, result, second, rfl, .now time h, hlater⟩
  | ask request next ih =>
    cases hgoes with
    | rest => exact .inl ⟨_, .rest _, rfl⟩
    | ask answer later =>
      rcases ih answer later with ⟨left, h, rfl⟩ | ⟨first, result, second, rfl, h, hlater⟩
      · exact .inl ⟨left, .ask answer h, rfl⟩
      · exact .inr ⟨.asked ⟨request, answer⟩ :: first, result, second, rfl, .ask answer h, hlater⟩
  | share plan next ih =>
    cases hgoes with
    | rest => exact .inl ⟨_, .rest _, rfl⟩
    | share outcome later =>
      rcases ih outcome later with ⟨left, h, rfl⟩ | ⟨first, result, second, rfl, h, hlater⟩
      · exact .inl ⟨left, .share outcome h, rfl⟩
      · exact .inr ⟨.shared plan outcome :: first, result, second, rfl, .share outcome h, hlater⟩

/-- Two procedures in a row come to what the second comes to after the first. -/
theorem goes_bind_done {f : α → Procedure β} {result : β} :
    (procedure.bind f).Goes past (.done result) ↔
      ∃ first value second, past = first ++ second ∧ procedure.Goes first (.done value) ∧
        (f value).Goes second (.done result) := by
  constructor
  · intro hgoes
    rcases hgoes.of_bind with ⟨left, h, hrest⟩ | hsecond
    · cases left with
      | done value => exact ⟨past, value, [], (List.append_nil past).symm, h, hrest ▸ .rest _⟩
      | _ => cases hrest
    · exact hsecond
  · rintro ⟨first, value, second, rfl, hfirst, hsecond⟩
    exact (hfirst.bind f).trans hsecond

/-- Of two procedures in a row, either the first asks or the second does after it. -/
theorem goes_bind_ask {f : α → Procedure β} {request : Request} :
    (∃ next, (procedure.bind f).Goes past (.ask request next)) ↔
      (∃ next, procedure.Goes past (.ask request next)) ∨
        ∃ first value second, past = first ++ second ∧ procedure.Goes first (.done value) ∧
          ∃ next, (f value).Goes second (.ask request next) := by
  constructor
  · rintro ⟨next, hgoes⟩
    rcases hgoes.of_bind with ⟨left, h, hrest⟩ | ⟨first, value, second, hpast, h, hlater⟩
    · cases left with
      | done value =>
        exact .inr ⟨past, value, [], (List.append_nil past).symm, h, next, hrest ▸ .rest _⟩
      | ask asked next' =>
        obtain ⟨rfl, -⟩ := Procedure.ask.inj hrest
        exact .inl ⟨next', h⟩
      | _ => cases hrest
    · exact .inr ⟨first, value, second, hpast, h, next, hlater⟩
  · rintro (⟨next, hfirst⟩ | ⟨first, value, second, rfl, hfirst, next, hsecond⟩)
    · exact ⟨_, hfirst.bind f⟩
    · exact ⟨next, (hfirst.bind f).trans hsecond⟩

variable {σ : Type}

/-- The acts of a procedure that runs to its end with nobody else about. -/
def acts (service : Service σ) : Procedure α → σ → List Act
  | done _, _ => []
  | log event next, state => .noted event :: next.acts service state
  | offer next, state =>
    .looked (service.offer state) :: (next (service.offer state)).acts service state
  | now next, state => .timed (service.now state) :: (next (service.now state)).acts service state
  | ask request next, state =>
    match service.answer request state with
    | (answer, state) => .asked ⟨request, answer⟩ :: (next answer).acts service state
  | share plan next, state =>
    match service.answer plan.request state with
    | (answer, state) =>
      .shared plan (.value (plan.finish answer)) ::
        (next (.value (plan.finish answer))).acts service state

theorem goes_acts (service : Service σ) (procedure : Procedure α) (state : σ) :
    procedure.Goes (procedure.acts service state) (.done (procedure.alone service state).1) := by
  induction procedure generalizing state with
  | done => exact .rest _
  | log event next ih => exact .log (ih state)
  | offer next ih => exact .offer _ (ih _ state)
  | now next ih => exact .now _ (ih _ state)
  | ask request next ih => exact .ask _ (ih _ _)
  | share plan next ih => exact .share _ (ih _ _)

end Procedure

end VirtualFs
