import VirtualFs.Lookup
import VirtualFs.Proofs.Accord

namespace VirtualFs

namespace Operation

variable {τ α β : Type} {behaviour : Behaviour τ}

/-- An operation is safe as the procedure that it is, with its failures among the results. -/
structure Safe (accord : Accord behaviour) (post : Bool → τ → Except Failure α → Prop)
    (operation : Operation α) (cut : Bool) (t : τ) : Prop where
  run : operation.run.Safe accord post cut t

variable {accord : Accord behaviour} {post post' : Bool → τ → Except Failure α → Prop}
  {operation : Operation α} {cut : Bool} {t t' : τ}

theorem Safe.weaken (hsafe : operation.Safe accord post cut t)
    (hpost : ∀ {cut t result}, post cut t result → post' cut t result) :
    operation.Safe accord post' cut t :=
  ⟨hsafe.run.weaken hpost⟩

theorem Safe.mono (hsafe : operation.Safe accord post cut t) (hleads : accord.Leads t t') :
    operation.Safe accord post cut t' :=
  ⟨hsafe.run.mono hleads⟩

theorem Safe.since (hsafe : operation.Safe accord post cut t) :
    operation.Safe accord (fun cut t' result => accord.Leads t t' ∧ post cut t' result) cut t :=
  ⟨hsafe.run.since (accord.refl t)⟩

theorem Safe.and (hsafe : operation.Safe accord post cut t)
    (hsafe' : operation.Safe accord post' cut t) :
    operation.Safe accord (fun cut t result => post cut t result ∧ post' cut t result) cut t :=
  ⟨hsafe.run.and hsafe'.run⟩

theorem safe_require {result : Except Failure α}
    (hpost : ∀ {t'}, accord.Leads t t' → post cut t' result) :
    (require result).Safe accord post cut t :=
  ⟨hpost⟩

theorem safe_pure {result : α} (hpost : ∀ {t'}, accord.Leads t t' → post cut t' (.ok result)) :
    (pure result : Operation α).Safe accord post cut t :=
  ⟨hpost⟩

theorem safe_fail {failure : Failure}
    (hpost : ∀ {t'}, accord.Leads t t' → post cut t' (.error failure)) :
    (fail failure).Safe accord post cut t :=
  ⟨hpost⟩

theorem safe_offer {post : Bool → τ → Except Failure Offer → Prop}
    (hpost : ∀ {t' offer}, accord.Leads t t' → behaviour.offers t' offer →
      ∀ {t''}, accord.Leads t' t'' → post cut t'' (.ok offer)) :
    offer.Safe accord post cut t :=
  ⟨hpost⟩

theorem safe_now {post : Bool → τ → Except Failure UInt64 → Prop}
    (hpost : ∀ time {t'}, accord.Leads t t' → post cut t' (.ok time)) :
    now.Safe accord post cut t :=
  ⟨hpost⟩

theorem safe_log {event : LogEvent} {post : Bool → τ → Except Failure Unit → Prop}
    (hpost : ∀ {t'}, accord.Leads t t' → post cut t' (.ok ())) :
    (log event).Safe accord post cut t :=
  ⟨hpost⟩

theorem safe_ask (request : Request) {post : Bool → τ → request.Answer → Prop}
    (hpost : ∀ {before}, accord.Leads t before → behaviour.Uses request before ∧
      ∀ {answer after}, behaviour.permits request before answer after →
        accord.Does before after ∧ ∀ {t'}, accord.Leads after t' → post cut t' answer) :
    (ask request).Safe accord post cut t :=
  ⟨hpost⟩

theorem safe_share {plan : ListingPlan} {post : Bool → τ → Listing → Prop}
    (hshareable : accord.Shareable plan t)
    (hknown : ∀ {t' listing}, accord.Leads t t' → accord.Known plan.key listing t' →
      ∀ {t''}, accord.Leads t' t'' → post cut t'' listing)
    (haborted : accord.Drops → ∀ {t'}, accord.Leads t t' → ∀ {t''}, accord.Leads t' t'' →
      post true t''
        (.error (Failure.during (Cause.cancelled : Failure) (ListingPlan.attempt plan.dir)))) :
    (share plan).Safe accord post cut t :=
  ⟨hshareable, hknown, haborted⟩

/-- One operation after another. A failure of the first is that of the whole. -/
theorem Safe.bind {f : α → Operation β} {post : Bool → τ → Except Failure β → Prop}
    (hsafe : operation.Safe accord (fun cut t result =>
      match result with
      | .ok result => (f result).Safe accord post cut t
      | .error failure => post cut t (.error failure)) cut t) :
    (operation >>= f).Safe accord post cut t := by
  refine ⟨Procedure.Safe.bind (hsafe.run.stable.weaken fun {cut t result} h => ?_)⟩
  cases result with
  | ok result => exact (h (accord.refl t)).run
  | error failure => exact h

theorem Safe.map {f : α → β} {post : Bool → τ → Except Failure β → Prop}
    (hsafe : operation.Safe accord (fun cut t result => post cut t (result.map f)) cut t) :
    (f <$> operation).Safe accord post cut t := by
  rw [← bind_pure_comp]
  refine Safe.bind ⟨hsafe.run.stable.weaken fun {cut t result} h => ?_⟩
  cases result with
  | ok result => exact safe_pure h
  | error failure => exact h (accord.refl t)

/-- What is made of a success is as good as the success. -/
theorem Safe.map_ok {f : α → β} {P : α → Prop} {Q : β → Prop}
    (hsafe : operation.Safe accord (fun _ _ result => ∀ value, result = .ok value → P value) cut t)
    (hf : ∀ value, P value → Q (f value)) :
    (f <$> operation).Safe accord (fun _ _ result => ∀ value, result = .ok value → Q value)
      cut t := by
  refine Safe.map (hsafe.weaken fun {cut t result} hresult value hvalue => ?_)
  cases result with
  | error failure => cases hvalue
  | ok first =>
    cases hvalue
    exact hf first (hresult first rfl)

theorem Safe.during {attempt : String}
    (hsafe : operation.Safe accord
      (fun cut t result => post cut t (result.mapError (·.during attempt))) cut t) :
    (during attempt operation).Safe accord post cut t :=
  ⟨Procedure.Safe.bind (hsafe.run.stable.weaken id)⟩

theorem Safe.attempt {post : Bool → τ → Except Failure (Except Failure α) → Prop}
    (hsafe : operation.Safe accord (fun cut t result => post cut t (.ok result)) cut t) :
    (attempt operation).Safe accord post cut t :=
  ⟨Procedure.Safe.bind (hsafe.run.stable.weaken id)⟩

end Operation

/-- A backend without direct access is asked the long way. -/
theorem Mount.safe_direct {τ : Type} {behaviour : Behaviour τ} {accord : Accord behaviour}
    {mount : Mount} {path : Path} {longWay : Operation Entry}
    {post : Bool → τ → Except Failure Entry → Prop} {cut : Bool} {t : τ}
    (hindirect : ∀ {t offer}, behaviour.offers t offer → offer.get = false)
    (hlongWay : longWay.Safe accord post cut t) :
    (mount.direct path longWay).Safe accord post cut t := by
  refine Operation.Safe.bind (Operation.safe_offer ?_)
  intro t₁ offer hleads₁ hoffer t₂ hleads₂
  dsimp only
  rw [hindirect hoffer]
  exact hlongWay.mono (accord.trans hleads₁ hleads₂)

end VirtualFs
