import VirtualFs.Proofs.Behaviour

namespace VirtualFs

variable {τ α β : Type}

namespace ListingPlan

variable {plan : ListingPlan} {number : Nat} {dir : Path}

theorem dir_of_key (hkey : plan.key = (number, dir)) : plan.dir = dir :=
  (Prod.ext_iff.1 hkey).2

/-- Entries come from an answer that lists the objects they stand for. -/
theorem exists_ok_of_finish {answer : plan.request.Answer} {entries : List Entry}
    (hfinish : plan.finish answer = .ok entries) :
    ∃ objects, answer = .ok objects ∧ entries = objects.map (Entry.ofObject · plan.mapping) := by
  cases answer with
  | error failure => cases hfinish
  | ok objects => exact ⟨objects, rfl, (Except.ok.inj hfinish).symm⟩

end ListingPlan

/-- What may become of what a backend shows while tasks are at work and listings go on, and whether
    tasks may be taken away. -/
structure Drift (behaviour : Behaviour τ) where
  Leads : τ → τ → Prop
  refl : ∀ t, Leads t t
  trans : ∀ {t t' t''}, Leads t t' → Leads t' t'' → Leads t t''
  listed : ∀ {plan : ListingPlan} {t answer t'}, behaviour.permits plan.request t answer t' →
    Leads t t'
  Drops : Prop

/-- What a task goes by among others: what it has to put up with, what it may bring about itself, which
    listings it may begin for others to share, in which, by key and number, it takes part, and what it
    goes on to know of the time since a listing was answered. -/
structure Accord (behaviour : Behaviour τ) extends Drift behaviour where
  Does : τ → τ → Prop
  does : ∀ {t t'}, Does t t' → Leads t t'
  Shareable : ListingPlan → τ → Prop
  shareable_mono : ∀ {plan t t'}, Shareable plan t → Leads t t' → Shareable plan t'
  Accepts : Nat × Path → Nat → Prop
  Since : ListingPlan → τ → τ → Prop
  since_refl : ∀ plan t, Since plan t t
  since_trans : ∀ {plan t t' t''}, Since plan t t' → Leads t' t'' → Since plan t t''

variable {behaviour : Behaviour τ}

namespace Accord

variable (accord : Accord behaviour)

/-- An answer to the request of a shared listing, from some earlier moment. -/
def Answered (plan : ListingPlan) (answer : plan.request.Answer) (t : τ) : Prop :=
  ∃ before after, accord.Shareable plan before ∧
    behaviour.permits plan.request before answer after ∧ accord.Since plan after t

/-- A listing that those who share it under a key may come to know. -/
def Known (key : Nat × Path) (listing : Listing) (t : τ) : Prop :=
  ∃ (plan : ListingPlan) (answer : plan.request.Answer), plan.key = key ∧
    accord.Answered plan answer t ∧ listing = plan.finish answer

variable {accord} {t t' : τ}

theorem Answered.mono {plan : ListingPlan} {answer : plan.request.Answer}
    (hanswered : accord.Answered plan answer t) (hleads : accord.Leads t t') :
    accord.Answered plan answer t' := by
  obtain ⟨before, after, hshareable, hpermitted, hafter⟩ := hanswered
  exact ⟨before, after, hshareable, hpermitted, accord.since_trans hafter hleads⟩

theorem Known.mono {key : Nat × Path} {listing : Listing} (hknown : accord.Known key listing t)
    (hleads : accord.Leads t t') : accord.Known key listing t' := by
  obtain ⟨plan, answer, hkey, hanswered, hlisting⟩ := hknown
  exact ⟨plan, answer, hkey, hanswered.mono hleads, hlisting⟩

/-- Entries that have come to be known are those of a listing of the directory that was answered. -/
theorem Known.exists_answered {number : Nat} {dir : Path} {entries : List Entry}
    (hknown : accord.Known (number, dir) (.ok entries) t) :
    ∃ (plan : ListingPlan) (objects : List Object), plan.dir = dir ∧
      accord.Answered plan (.ok objects) t ∧
      entries = objects.map (Entry.ofObject · plan.mapping) := by
  obtain ⟨plan, answer, hkey, hanswered, hlisting⟩ := hknown
  obtain ⟨objects, rfl, hentries⟩ := plan.exists_ok_of_finish hlisting.symm
  exact ⟨plan, objects, plan.dir_of_key hkey, hanswered, hentries⟩

end Accord

/-- What the tasks of a world have agreed on together: what they make of what the backend shows, what
    is true of it at all times, under which accord each listing stands, by its number, and for which
    keys a listing of that number may go on. -/
structure Pact (behaviour : Behaviour τ) extends Drift behaviour where
  Reached : τ → Prop
  reached_mono : ∀ {t t'}, Reached t → Leads t t' → Reached t'
  ledger : Nat → Accord behaviour
  heeds : ∀ {number t t'}, Leads t t' → (ledger number).Leads t t'
  Open : Nat × Path → Nat → Prop

/-- Tasks that all go by one accord have agreed on it. -/
def Accord.pact (accord : Accord behaviour) : Pact behaviour where
  toDrift := accord.toDrift
  Reached _ := True
  reached_mono _ _ := trivial
  ledger _ := accord
  heeds := id
  Open _ _ := True

/-- A task that goes by an accord can take part in a pact. -/
structure Accord.Joins (accord : Accord behaviour) (pact : Pact behaviour) : Prop where
  leads : ∀ {t t'}, pact.Leads t t' → accord.Leads t t'
  does : ∀ {t t'}, accord.Does t t' → pact.Leads t t'
  begins : ∀ {number plan t}, pact.Reached t → accord.Shareable plan t →
    (pact.ledger number).Shareable plan t
  accepts : ∀ {key number}, pact.Open key number → accord.Accepts key number
  knows : ∀ {key number listing t}, accord.Accepts key number →
    (pact.ledger number).Known key listing t → accord.Known key listing t
  drops : pact.Drops → accord.Drops

theorem Accord.joins {accord : Accord behaviour}
    (haccepts : ∀ {key number}, accord.Accepts key number) : accord.Joins accord.pact where
  leads := id
  does := accord.does
  begins _ := id
  accepts _ := haccepts
  knows _ := id
  drops := id

namespace Procedure

/-- However the others keep to the accord and whatever is answered, a procedure keeps to the accord
    as well and its result satisfies `post`. The flag tells whether the procedure got word of an
    aborted listing, `post` is told the flag and what the backend shows at the end. -/
def Safe (accord : Accord behaviour) (post : Bool → τ → α → Prop) :
    Procedure α → Bool → τ → Prop
  | .done result, cut, t => ∀ {t'}, accord.Leads t t' → post cut t' result
  | .log _ next, cut, t => Safe accord post next cut t
  | .offer next, cut, t => ∀ {t' offer}, accord.Leads t t' → behaviour.offers t' offer →
    Safe accord post (next offer) cut t'
  | .now next, cut, t => ∀ time, Safe accord post (next time) cut t
  | .ask request next, cut, t => ∀ {t'}, accord.Leads t t' → behaviour.Uses request t' ∧
    ∀ {answer t''}, behaviour.permits request t' answer t'' →
      accord.Does t' t'' ∧ Safe accord post (next answer) cut t''
  | .share plan next, cut, t => accord.Shareable plan t ∧
    (∀ {t' listing}, accord.Leads t t' → accord.Known plan.key listing t' →
      Safe accord post (next (.value listing)) cut t') ∧
    (accord.Drops → ∀ {t'}, accord.Leads t t' → Safe accord post (next .aborted) true t')

variable {accord : Accord behaviour} {post post' : Bool → τ → α → Prop} {procedure : Procedure α}
  {cut : Bool} {t t' : τ}

/-- What a procedure may count on it may count on later too. -/
theorem Safe.mono (hsafe : procedure.Safe accord post cut t) (hleads : accord.Leads t t') :
    procedure.Safe accord post cut t' := by
  induction procedure with
  | done result => exact fun h => hsafe (accord.trans hleads h)
  | log event next ih => exact ih hsafe
  | offer next ih => exact fun h => hsafe (accord.trans hleads h)
  | now next ih => exact fun time => ih time (hsafe time)
  | ask request next ih => exact fun h => hsafe (accord.trans hleads h)
  | share plan next ih =>
    obtain ⟨hshareable, hvalue, haborted⟩ := hsafe
    exact ⟨accord.shareable_mono hshareable hleads, fun h => hvalue (accord.trans hleads h),
      fun hdrops _ h => haborted hdrops (accord.trans hleads h)⟩

/-- A result is as good later as it is at the end. -/
theorem Safe.stable (hsafe : procedure.Safe accord post cut t) :
    procedure.Safe accord
      (fun cut t result => ∀ {t'}, accord.Leads t t' → post cut t' result) cut t := by
  induction procedure generalizing cut t with
  | done result => exact fun h _ h' => hsafe (accord.trans h h')
  | log event next ih => exact ih hsafe
  | offer next ih => exact fun h hoffer => ih _ (hsafe h hoffer)
  | now next ih => exact fun time => ih time (hsafe time)
  | ask request next ih =>
    refine fun h => ⟨(hsafe h).1, fun hpermitted => ?_⟩
    obtain ⟨hdoes, hnext⟩ := (hsafe h).2 hpermitted
    exact ⟨hdoes, ih _ hnext⟩
  | share plan next ih =>
    obtain ⟨hshareable, hvalue, haborted⟩ := hsafe
    exact ⟨hshareable, fun h hknown => ih _ (hvalue h hknown),
      fun hdrops _ h => ih _ (haborted hdrops h)⟩

/-- What the backend shows at the end has come of what it showed before. -/
theorem Safe.since (hsafe : procedure.Safe accord post cut t') (hleads : accord.Leads t t') :
    procedure.Safe accord (fun cut t' result => accord.Leads t t' ∧ post cut t' result) cut t' := by
  induction procedure generalizing cut t' with
  | done result => exact fun h => ⟨accord.trans hleads h, hsafe h⟩
  | log event next ih => exact ih hsafe hleads
  | offer next ih => exact fun h hoffer => ih _ (hsafe h hoffer) (accord.trans hleads h)
  | now next ih => exact fun time => ih time (hsafe time) hleads
  | ask request next ih =>
    refine fun h => ⟨(hsafe h).1, fun hpermitted => ?_⟩
    obtain ⟨hdoes, hnext⟩ := (hsafe h).2 hpermitted
    exact ⟨hdoes, ih _ hnext (accord.trans (accord.trans hleads h) (accord.does hdoes))⟩
  | share plan next ih =>
    obtain ⟨hshareable, hvalue, haborted⟩ := hsafe
    exact ⟨hshareable, fun h hknown => ih _ (hvalue h hknown) (accord.trans hleads h),
      fun hdrops _ h => ih _ (haborted hdrops h) (accord.trans hleads h)⟩

theorem Safe.weaken (hsafe : procedure.Safe accord post cut t)
    (hpost : ∀ {cut t result}, post cut t result → post' cut t result) :
    procedure.Safe accord post' cut t := by
  induction procedure generalizing cut t with
  | done result => exact fun h => hpost (hsafe h)
  | log event next ih => exact ih hsafe
  | offer next ih => exact fun h hoffer => ih _ (hsafe h hoffer)
  | now next ih => exact fun time => ih time (hsafe time)
  | ask request next ih =>
    refine fun h => ⟨(hsafe h).1, fun hpermitted => ?_⟩
    obtain ⟨hdoes, hnext⟩ := (hsafe h).2 hpermitted
    exact ⟨hdoes, ih _ hnext⟩
  | share plan next ih =>
    obtain ⟨hshareable, hvalue, haborted⟩ := hsafe
    exact ⟨hshareable, fun h hknown => ih _ (hvalue h hknown),
      fun hdrops _ h => ih _ (haborted hdrops h)⟩

theorem Safe.and (hsafe : procedure.Safe accord post cut t)
    (hsafe' : procedure.Safe accord post' cut t) :
    procedure.Safe accord (fun cut t result => post cut t result ∧ post' cut t result) cut t := by
  induction procedure generalizing cut t with
  | done result => exact fun h => ⟨hsafe h, hsafe' h⟩
  | log event next ih => exact ih hsafe hsafe'
  | offer next ih => exact fun h hoffer => ih _ (hsafe h hoffer) (hsafe' h hoffer)
  | now next ih => exact fun time => ih time (hsafe time) (hsafe' time)
  | ask request next ih =>
    refine fun h => ⟨(hsafe h).1, fun hpermitted => ?_⟩
    obtain ⟨hdoes, hnext⟩ := (hsafe h).2 hpermitted
    exact ⟨hdoes, ih _ hnext ((hsafe' h).2 hpermitted).2⟩
  | share plan next ih =>
    obtain ⟨hshareable, hvalue, haborted⟩ := hsafe
    obtain ⟨-, hvalue', haborted'⟩ := hsafe'
    exact ⟨hshareable, fun h hknown => ih _ (hvalue h hknown) (hvalue' h hknown),
      fun hdrops _ h => ih _ (haborted hdrops h) (haborted' hdrops h)⟩

/-- One procedure after another. -/
theorem Safe.bind {f : α → Procedure β} {post : Bool → τ → β → Prop}
    (hsafe : procedure.Safe accord (fun cut t result => (f result).Safe accord post cut t) cut t) :
    (procedure.bind f).Safe accord post cut t := by
  induction procedure generalizing cut t with
  | done result => exact hsafe (accord.refl t)
  | log event next ih => exact ih hsafe
  | offer next ih => exact fun h hoffer => ih _ (hsafe h hoffer)
  | now next ih => exact fun time => ih time (hsafe time)
  | ask request next ih =>
    refine fun h => ⟨(hsafe h).1, fun hpermitted => ?_⟩
    obtain ⟨hdoes, hnext⟩ := (hsafe h).2 hpermitted
    exact ⟨hdoes, ih _ hnext⟩
  | share plan next ih =>
    obtain ⟨hshareable, hvalue, haborted⟩ := hsafe
    exact ⟨hshareable, fun h hknown => ih _ (hvalue h hknown),
      fun hdrops _ h => ih _ (haborted hdrops h)⟩

end Procedure

end VirtualFs
