import VirtualFs.Proofs.Operation

namespace VirtualFs

variable {τ : Type} {behaviour : Behaviour τ}

/-- A request that is put to nobody but those who hand over or receive bytes. -/
def Request.Transfers : Request → Prop
  | openLink _ _ _ _ => True
  | readRange _ _ => True
  | drain _ => True
  | _ => False

/-- A request may be put, whatever comes of it keeps to the accord, and its answer is as `post`
    says. -/
structure Accord.Grants (accord : Accord behaviour) (request : Request) (t : τ)
    (post : request.Answer → τ → Prop) : Prop where
  uses : behaviour.Uses request t
  does : ∀ {answer t'}, behaviour.permits request t answer t' → accord.Does t t' ∧ post answer t'

/-- What callers of a mount go by: the paths that they may look for, what is known of an object that
    was found for a path, and that whatever they ask of such an object keeps to their accord. -/
structure Guide (behaviour : Behaviour τ) where
  mount : Mount
  accord : Accord behaviour
  /-- What is true of all that the backend may come to show. -/
  Reached : τ → Prop
  reached_mono : ∀ {t t'}, Reached t → accord.Leads t t' → Reached t'
  Way : Path → Prop
  way_dir : ∀ {dir name}, Way (dir.child name) → Way dir
  Found : Path → Object → τ → Prop
  found_mono : ∀ {path object t t'}, Way path → Found path object t → accord.Leads t t' →
    Found path object t'
  indirect : ∀ {t offer}, behaviour.offers t offer → offer.get = false
  offersRoot : ∀ {t offer source}, Reached t → behaviour.offers t offer →
    offer.rootSource = .ok source →
    match source with
    | .asked => True
    | .id id => ∀ name modified, Found .root { id, name, modified, isFolder := true } t
    | .path path => ∀ name modified, Found .root { path, name, modified, isFolder := true } t
  root : ∀ {t}, Reached t → accord.Grants .getRoot t
    (fun answer t' => ∀ {object}, answer = .ok object → Found .root object t')
  shareable : ∀ {dir object t}, Way dir → Reached t → Found dir object t →
    accord.Shareable ⟨mount.number, dir, object, mount.mapping⟩ t
  known : ∀ {dir name entries entry t}, Way (dir.child name) → Reached t →
    accord.Known (mount.number, dir) (.ok entries) t → Mount.pick name entries = .ok entry →
    Found (dir.child name) entry.object t
  listing : ∀ {dir name parent t}, Way (dir.child name) → Reached t → Found dir parent t →
    accord.Grants (.list parent true) t (fun answer t' => ∀ {objects entry},
      answer = .ok objects →
      Mount.pick name (objects.map (Entry.ofObject · mount.mapping)) = .ok entry →
      Found (dir.child name) entry.object t')
  makeDir : ∀ {dir name parent t}, Way (dir.child name) → Reached t → Found dir parent t →
    accord.Grants (.makeDir parent name.text) t (fun _ _ => True)
  makeDirReporting : ∀ {dir name parent t}, Way (dir.child name) → Reached t →
    Found dir parent t → accord.Grants (.makeDirReporting parent name.text) t
      (fun answer t' => ∀ {made}, answer = .ok (some made) → Found (dir.child name) made t')
  transfer : ∀ request {t}, request.Transfers → accord.Grants request t (fun _ _ => True)

namespace Guide

variable {guide : Guide behaviour} {t t' : τ} {cut : Bool} {path dir : Path} {name : Segment}

/-- A lookup of a path comes to an object that is found for it, if it comes to any. -/
def LooksUp (guide : Guide behaviour) (path : Path) (_ : Bool) (t : τ)
    (result : Except Failure Entry) : Prop :=
  ∀ entry, result = .ok entry → guide.Found path entry.object t

theorem looksUp_error {failure : Failure} : guide.LooksUp path cut t (.error failure) :=
  fun _ h => by cases h

theorem looksUp_ok {entry : Entry} (hfound : guide.Found path entry.object t) :
    guide.LooksUp path cut t (.ok entry) := by
  rintro _ ⟨⟩
  exact hfound

/-- An object that is picked from a listing of a directory is found for its path. -/
def Offers (guide : Guide behaviour) (dir : Path) (_ : Bool) (t : τ) (listing : Listing) : Prop :=
  ∀ entries name entry, listing = .ok entries → guide.Way (dir.child name) →
    Mount.pick name entries = .ok entry → guide.Found (dir.child name) entry.object t

theorem offers_error {failure : Failure} : guide.Offers dir cut t (.error failure) := by
  intro entries name entry hentries
  cases hentries

theorem safe_describeRoot (hway : guide.Way .root) (hreached : guide.Reached t) :
    guide.mount.describeRoot.Safe guide.accord (guide.LooksUp .root) cut t := by
  refine Operation.Safe.bind (Operation.safe_offer ?_)
  intro t₁ offer hleads₁ hoffer t₂ hleads₂
  dsimp only
  refine Operation.Safe.bind (Operation.safe_require fun {t₃} hleads₃ => ?_)
  have hreached₁ := guide.reached_mono hreached hleads₁
  have hleads := guide.accord.trans hleads₂ hleads₃
  cases hsource : offer.rootSource with
  | error failure => exact looksUp_error
  | ok source =>
    have hroot := guide.offersRoot hreached₁ hoffer hsource
    refine Operation.Safe.bind (Operation.safe_log fun {t₄} hleads₄ => ?_)
    replace hleads := guide.accord.trans hleads hleads₄
    cases source with
    | asked =>
      refine Operation.Safe.bind (Operation.Safe.during (Operation.safe_ask .getRoot ?_))
      intro t₅ hleads₅
      obtain ⟨huses, hdoes⟩ := guide.root (guide.reached_mono (guide.reached_mono hreached₁ hleads)
        hleads₅)
      refine ⟨huses, fun {answer t₆} hpermits => ?_⟩
      obtain ⟨hdone, hanswer⟩ := hdoes hpermits
      refine ⟨hdone, fun {t₇} hleads₇ => ?_⟩
      cases answer with
      | error failure => exact looksUp_error
      | ok object =>
        refine Operation.safe_pure fun hleads₈ => looksUp_ok ?_
        exact guide.found_mono hway (hanswer rfl) (guide.accord.trans hleads₇ hleads₈)
    | id id =>
      refine Operation.safe_pure fun hleads₅ => looksUp_ok ?_
      exact guide.found_mono hway (hroot _ _) (guide.accord.trans hleads hleads₅)
    | path path =>
      refine Operation.safe_pure fun hleads₅ => looksUp_ok ?_
      exact guide.found_mono hway (hroot _ _) (guide.accord.trans hleads hleads₅)

/-- A listing that is shared may be from before the caller came. What is picked from it is found for
    its path all the same. -/
theorem safe_share (hway : guide.Way dir) (hreached : guide.Reached t) {object : Object}
    (hfound : guide.Found dir object t) :
    (Operation.share ⟨guide.mount.number, dir, object, guide.mount.mapping⟩).Safe guide.accord
      (guide.Offers dir) cut t := by
  refine Operation.safe_share (guide.shareable hway hreached hfound) ?_ ?_
  · intro t₁ listing hleads₁ hknown t₂ hleads₂ entries name entry hentries hchild hpick
    subst hentries
    have hreached₁ := guide.reached_mono hreached hleads₁
    exact guide.found_mono hchild (guide.known hchild hreached₁ hknown hpick) hleads₂
  · exact fun _ _ _ _ _ => offers_error

theorem safe_listFound {find : Operation Entry} (hway : guide.Way dir) (hreached : guide.Reached t)
    (hfind : find.Safe guide.accord (guide.LooksUp dir) cut t) :
    (guide.mount.listFound dir find).Safe guide.accord (guide.Offers dir) cut t := by
  refine Operation.Safe.bind (hfind.since.weaken ?_)
  rintro cut t₁ result ⟨hleads, hresult⟩
  cases result with
  | error failure => exact offers_error
  | ok entry =>
    dsimp only
    cases entry.isDir with
    | true => exact safe_share hway (guide.reached_mono hreached hleads) (hresult _ rfl)
    | false => exact Operation.safe_fail fun _ => offers_error

/-- Looking up a path comes to an object that is found for it, if it comes to any. By induction on the
    path, as the object is picked from a listing of its directory. -/
theorem safe_lookup (path : Path) (hway : guide.Way path) (hreached : guide.Reached t) :
    (guide.mount.lookup path).Safe guide.accord (guide.LooksUp path) cut t := by
  induction path with
  | root =>
    rw [Mount.lookup]
    exact Mount.safe_direct guide.indirect (safe_describeRoot hway hreached)
  | child dir name ih =>
    have hdir := guide.way_dir hway
    rw [Mount.lookup]
    refine Mount.safe_direct guide.indirect (Operation.Safe.bind (Operation.Safe.during ?_))
    refine (safe_listFound hdir hreached (ih hdir)).weaken ?_
    intro cut t₁ result hresult
    cases result with
    | error failure => exact looksUp_error
    | ok entries =>
      refine Operation.safe_require fun {t₂} hleads₂ => ?_
      intro entry hpick
      exact guide.found_mono hway (hresult _ _ _ rfl hway hpick) hleads₂

end Guide

end VirtualFs
