import VirtualFs.Build
import VirtualFs.Proofs.Guide.Directories
import VirtualFs.Proofs.Path

namespace VirtualFs

/-- To check settings does not change the mount that they describe. -/
theorem Mount.ofConfig_of_checked {config checked : Config} (hchecked : config.checked = .ok checked)
    (number : Nat) (opener : Option Opener) :
    ofConfig number checked opener = ofConfig number config opener := by
  rw [Config.eq_of_checked hchecked, ofConfig, ofConfig, Path.ofString_clean]

namespace Guide

variable {τ : Type} {behaviour : Behaviour τ} {guide : Guide behaviour} {Sure : Path → τ → Prop}
  {t : τ} {cut : Bool} {path : Path}

/-- An operation that succeeds has made sure of a path. -/
def MakesSure {α : Type} (Sure : Path → τ → Prop) (path : Path) (_ : Bool) (t : τ)
    (result : Except Failure α) : Prop :=
  ∀ value, result = .ok value → Sure path t

/-- To make a directory and all above it makes sure of it. -/
theorem safe_makeDirs_sure (hassures : guide.Assures Sure) (hway : guide.Way path)
    (hreached : guide.Reached t) :
    (guide.mount.makeDirs path).Safe guide.accord (MakesSure Sure path) cut t :=
  (safe_makeDirs_secures hassures path hway hreached).weaken fun hresult entry hentry =>
    (hresult entry hentry).2

/-- A build that succeeds comes to the mount of its settings, and to all that the making of its base
    comes to. -/
theorem safe_build (guide : Guide behaviour) {Holds : τ → Prop} {number : Nat} {config : Config}
    {opener : Option Opener}
    (hmount : guide.mount = .ofConfig number config opener)
    (hmono : ∀ {t t'}, Holds t → guide.accord.Leads t t' → Holds t')
    (hmakes : ∀ {cut t}, guide.Reached t →
      (guide.mount.makeDirs guide.mount.base).Safe guide.accord
        (fun _ t result => ∀ entry, result = .ok entry → Holds t) cut t)
    (hreached : guide.Reached t) :
    (Mount.build number config opener).Safe guide.accord
      (fun _ t result => ∀ mount, result = .ok mount → mount = guide.mount ∧ Holds t) cut t := by
  rw [Mount.build]
  refine Operation.Safe.bind (Operation.safe_require fun {t₁} hleads₁ => ?_)
  cases hchecked : config.checked with
  | error => exact fun _ h => by cases h
  | ok checked =>
    dsimp only
    rw [Mount.ofConfig_of_checked hchecked, ← hmount]
    refine Operation.Safe.bind (Operation.safe_offer ?_)
    rintro t₂ offer hleads₂ - t₃ hleads₃
    refine Operation.Safe.bind (Operation.safe_log fun {t₄} hleads₄ => ?_)
    have hleads : guide.accord.Leads t t₄ := guide.accord.trans hleads₁
      (guide.accord.trans hleads₂ (guide.accord.trans hleads₃ hleads₄))
    refine Operation.Safe.bind (Operation.Safe.during ?_)
    refine (hmakes (guide.reached_mono hreached hleads)).weaken ?_
    intro cut t₅ result hresult
    cases result with
    | error failure => exact fun _ h => by cases h
    | ok entry =>
      refine Operation.Safe.bind (Operation.safe_log fun {t₆} hleads₆ => ?_)
      refine Operation.safe_pure fun {t₇} hleads₇ => ?_
      rintro _ ⟨⟩
      exact ⟨rfl, hmono (hresult entry rfl) (guide.accord.trans hleads₆ hleads₇)⟩

end Guide

end VirtualFs
