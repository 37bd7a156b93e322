import VirtualFs.Proofs.Guide.Lookup

namespace VirtualFs

variable {τ : Type} {behaviour : Behaviour τ} {accord : Accord behaviour} {t : τ} {cut : Bool}

/-- A root that is always found in the way that an offer prefers is described without fail. -/
theorem Mount.safe_describeRoot {mount : Mount} (Root : Object → τ → Prop)
    (hmono : ∀ {object t t'}, Root object t → accord.Leads t t' → Root object t')
    (hoffers : ∀ {t' offer}, accord.Leads t t' → behaviour.offers t' offer →
      ∃ source, offer.rootSource = .ok source ∧
        match source with
        | .asked => True
        | .id id => ∀ name modified, Root { id, name, modified, isFolder := true } t'
        | .path path => ∀ name modified, Root { path, name, modified, isFolder := true } t')
    (hasked : ∀ {t'}, accord.Leads t t' → accord.Grants .getRoot t' (fun answer t'' =>
      ∃ object : Object, answer = .ok object ∧ object.isFolder = true ∧ Root object t'')) :
    mount.describeRoot.Safe accord
      (fun _ t result => ∃ entry, result = .ok entry ∧ entry.isDir = true ∧ Root entry.object t)
      cut t := by
  refine Operation.Safe.bind (Operation.safe_offer ?_)
  intro t₁ offer hleads₁ hoffer t₂ hleads₂
  obtain ⟨source, hsource, hroot⟩ := hoffers hleads₁ hoffer
  dsimp only
  rw [hsource]
  refine Operation.Safe.bind (Operation.safe_require fun {t₃} hleads₃ => ?_)
  refine Operation.Safe.bind (Operation.safe_log fun {t₄} hleads₄ => ?_)
  have hleads := accord.trans hleads₂ (accord.trans hleads₃ hleads₄)
  cases source with
  | asked =>
    refine Operation.Safe.bind (Operation.Safe.during (Operation.safe_ask .getRoot ?_))
    intro t₅ hleads₅
    obtain ⟨huses, hdoes⟩ := hasked (accord.trans hleads₁ (accord.trans hleads hleads₅))
    refine ⟨huses, fun {answer t₆} hpermits => ?_⟩
    obtain ⟨hdone, object, rfl, hfolder, hfound⟩ := hdoes hpermits
    refine ⟨hdone, fun {t₇} hleads₇ => ?_⟩
    refine Operation.safe_pure fun {t₈} hleads₈ => ⟨_, rfl, hfolder, ?_⟩
    exact hmono hfound (accord.trans hleads₇ hleads₈)
  | id id =>
    refine Operation.safe_pure fun hleads₅ => ⟨_, rfl, rfl, ?_⟩
    exact hmono (hroot _ _) (accord.trans hleads hleads₅)
  | path path =>
    refine Operation.safe_pure fun hleads₅ => ⟨_, rfl, rfl, ?_⟩
    exact hmono (hroot _ _) (accord.trans hleads hleads₅)

end VirtualFs
