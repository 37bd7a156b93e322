import VirtualFs.Directories
import VirtualFs.Proofs.Guide.Lookup

namespace VirtualFs.Guide

variable {τ : Type} {behaviour : Behaviour τ} {guide : Guide behaviour} {Sure : Path → τ → Prop}
  {t : τ} {cut : Bool} {path dir : Path} {name : Segment} {parent : Entry}

/-- Something that is true of a path as soon as there is a directory. It is true of the root and where
    an object that calls itself a directory has been found, it comes true where the backend says that
    it has made one, and it stays true. -/
structure Assures (guide : Guide behaviour) (Sure : Path → τ → Prop) : Prop where
  mono : ∀ {path t t'}, Sure path t → guide.accord.Leads t t' → Sure path t'
  root : ∀ t, Sure .root t
  folder : ∀ {path object t}, guide.Found path object t → object.isFolder = true → Sure path t
  made : ∀ {dir name parent t t'}, guide.Way (dir.child name) → guide.Found dir parent t →
    behaviour.permits (.makeDir parent name.text) t (.ok ()) t' → Sure (dir.child name) t'
  reported : ∀ {dir name parent made? t t'}, guide.Way (dir.child name) →
    guide.Found dir parent t →
    behaviour.permits (.makeDirReporting parent name.text) t (.ok made?) t' →
    Sure (dir.child name) t'

theorem assures_trivial : guide.Assures (fun _ _ => True) :=
  ⟨fun _ _ => trivial, fun _ => trivial, fun _ _ => trivial, fun _ _ _ => trivial,
    fun _ _ _ => trivial⟩

/-- An operation that succeeds comes to an object that is found for a path, and has made sure of the
    path. -/
def Secures (guide : Guide behaviour) (Sure : Path → τ → Prop) (path : Path) (_ : Bool) (t : τ)
    (result : Except Failure Entry) : Prop :=
  ∀ entry, result = .ok entry → guide.Found path entry.object t ∧ Sure path t

theorem secures_error {failure : Failure} : guide.Secures Sure path cut t (.error failure) :=
  fun _ h => by cases h

theorem secures_ok {entry : Entry} (hfound : guide.Found path entry.object t) (hsure : Sure path t) :
    guide.Secures Sure path cut t (.ok entry) := by
  rintro _ ⟨⟩
  exact ⟨hfound, hsure⟩

theorem Secures.looksUp {result : Except Failure Entry}
    (hsecures : guide.Secures Sure path cut t result) : guide.LooksUp path cut t result :=
  fun entry hresult => (hsecures entry hresult).1

/-- A listing of the caller's own is as good as a shared one. -/
theorem safe_listAfresh (hway : guide.Way (dir.child name)) (hreached : guide.Reached t)
    (hparent : guide.Found dir parent.object t) :
    (guide.mount.listAfresh parent dir name).Safe guide.accord (guide.LooksUp (dir.child name))
      cut t := by
  refine Operation.Safe.bind (Operation.Safe.during (Operation.safe_ask (.list _ true) ?_))
  intro before hleads
  obtain ⟨huses, hdoes⟩ := guide.listing hway (guide.reached_mono hreached hleads)
    (guide.found_mono (guide.way_dir hway) hparent hleads)
  refine ⟨huses, fun {answer after} hpermits => ?_⟩
  obtain ⟨hdone, hanswer⟩ := hdoes hpermits
  refine ⟨hdone, fun {t₁} hleads₁ => ?_⟩
  cases answer with
  | error failure => exact looksUp_error
  | ok objects =>
    refine Operation.safe_require fun {t₂} hleads₂ => ?_
    intro entry hpick
    exact guide.found_mono hway (hanswer rfl hpick) (guide.accord.trans hleads₁ hleads₂)

/-- To ask for a directory makes sure of it, in either form, if the backend does not refuse. An object
    that is reported is found for it. -/
theorem safe_create (hassures : guide.Assures Sure) (hway : guide.Way (dir.child name))
    (hreached : guide.Reached t) (hparent : guide.Found dir parent.object t) (form : Form) :
    (Mount.create parent name form).Safe guide.accord
      (fun _ t result => ∀ {made?}, result = .ok made? → Sure (dir.child name) t ∧
        ∀ {made}, made? = some made → guide.Found (dir.child name) made t) cut t := by
  have hfound : ∀ {before}, guide.accord.Leads t before → guide.Found dir parent.object before :=
    fun hleads => guide.found_mono (guide.way_dir hway) hparent hleads
  cases form with
  | reporting =>
    refine Operation.safe_ask (.makeDirReporting _ _) fun {before} hleads => ?_
    obtain ⟨huses, hdoes⟩ :=
      guide.makeDirReporting hway (guide.reached_mono hreached hleads) (hfound hleads)
    refine ⟨huses, fun {answer after} hpermits => ?_⟩
    obtain ⟨hdone, hmade⟩ := hdoes hpermits
    refine ⟨hdone, fun {t₁} hlater made? hanswer => ?_⟩
    subst hanswer
    have hsure := hassures.reported hway (hfound hleads) hpermits
    refine ⟨hassures.mono hsure hlater, fun {made} hreported => ?_⟩
    exact guide.found_mono hway (hmade (congrArg Except.ok hreported)) hlater
  | plain =>
    refine Operation.Safe.bind (Operation.safe_ask (.makeDir _ _) fun {before} hleads => ?_)
    obtain ⟨huses, hdoes⟩ := guide.makeDir hway (guide.reached_mono hreached hleads) (hfound hleads)
    refine ⟨huses, fun {answer after} hpermits => ⟨(hdoes hpermits).1, fun {t₁} hlater => ?_⟩⟩
    cases answer with
    | error failure => exact fun h => by cases h
    | ok =>
      have hsure := hassures.made hway (hfound hleads) hpermits
      refine Operation.safe_pure fun hlater' => ?_
      rintro _ ⟨⟩
      exact ⟨hassures.mono hsure (guide.accord.trans hlater hlater'), nofun⟩

/-- To make a directory below its parent makes sure of it. Where the backend refuses, the listing has
    to show a directory. -/
theorem safe_createIn (hassures : guide.Assures Sure) (hway : guide.Way (dir.child name))
    (hreached : guide.Reached t) (hparent : guide.Found dir parent.object t) :
    (guide.mount.createIn parent dir name).Safe guide.accord (guide.Secures Sure (dir.child name))
      cut t := by
  have hdir := guide.way_dir hway
  have hready : ∀ {entry : Entry} {cut t}, guide.Found (dir.child name) entry.object t →
      Sure (dir.child name) t →
      (do Operation.log (.directoryReady (dir.child name)); pure entry : Operation Entry).Safe
        guide.accord (guide.Secures Sure (dir.child name)) cut t := by
    intro entry cut t hentry hsure
    refine Operation.Safe.bind (Operation.safe_log fun hleads => ?_)
    refine Operation.safe_pure fun hleads' => ?_
    have hlater := guide.accord.trans hleads hleads'
    exact secures_ok (guide.found_mono hway hentry hlater) (hassures.mono hsure hlater)
  refine Operation.Safe.bind (Operation.safe_offer ?_)
  rintro t₁ offer hleads₁ - t₂ hleads₂
  dsimp only
  refine Operation.Safe.bind (Operation.safe_require fun {t₃} hleads₃ => ?_)
  cases offer.makeDirForm with
  | error failure => exact secures_error
  | ok form =>
    have hleads : guide.accord.Leads t t₃ :=
      guide.accord.trans hleads₁ (guide.accord.trans hleads₂ hleads₃)
    have hreached₃ := guide.reached_mono hreached hleads
    have hparent₃ := guide.found_mono hdir hparent hleads
    refine Operation.Safe.bind (Operation.Safe.attempt ?_)
    refine (safe_create hassures hway hreached₃ hparent₃ form).since.weaken ?_
    rintro cut t₄ result ⟨hleads₄, hmade⟩
    have hlist : (guide.mount.listAfresh parent dir name).Safe guide.accord
        (guide.LooksUp (dir.child name)) cut t₄ :=
      safe_listAfresh hway (guide.reached_mono hreached₃ hleads₄)
        (guide.found_mono hdir hparent₃ hleads₄)
    cases result with
    | ok made? =>
      obtain ⟨hsure, hreported⟩ := hmade rfl
      cases made? with
      | some made =>
        refine Operation.Safe.bind (Operation.safe_pure fun hleads₅ => ?_)
        exact hready (guide.found_mono hway (hreported rfl) hleads₅) (hassures.mono hsure hleads₅)
      | none =>
        refine Operation.Safe.bind (hlist.since.weaken ?_)
        rintro cut t₅ result ⟨hleads₅, hresult⟩
        cases result with
        | error failure => exact secures_error
        | ok entry => exact hready (hresult _ rfl) (hassures.mono hsure hleads₅)
    | error failure =>
      refine Operation.Safe.bind (Operation.Safe.attempt (hlist.weaken ?_))
      intro cut t₅ result hresult
      cases result with
      | error _ => exact Operation.Safe.bind (Operation.safe_fail fun _ => secures_error)
      | ok entry =>
        dsimp only
        cases hfolder : entry.isDir with
        | false => exact Operation.Safe.bind (Operation.safe_fail fun _ => secures_error)
        | true =>
          have hsure : Sure (dir.child name) t₅ := hassures.folder (hresult _ rfl) hfolder
          refine Operation.Safe.bind (Operation.safe_log fun hleads₆ => ?_)
          refine Operation.Safe.bind (Operation.safe_pure fun hleads₇ => ?_)
          have hlater := guide.accord.trans hleads₆ hleads₇
          exact hready (guide.found_mono hway (hresult _ rfl) hlater) (hassures.mono hsure hlater)

/-- Making a parent if it is not found comes to an object that is found for it, if it comes to any. -/
theorem safe_findOrMake {find make : Operation Entry} (hway : guide.Way path)
    (hreached : guide.Reached t) (hfind : find.Safe guide.accord (guide.LooksUp path) cut t)
    (hmake : ∀ {cut t}, guide.Reached t → make.Safe guide.accord (guide.LooksUp path) cut t) :
    (Mount.findOrMake find make).Safe guide.accord (guide.LooksUp path) cut t := by
  refine Operation.Safe.bind (Operation.Safe.attempt (hfind.since.weaken ?_))
  rintro cut t₁ result ⟨hleads₁, hresult⟩
  cases result with
  | ok entry =>
    refine Operation.safe_pure fun hleads₂ => looksUp_ok ?_
    exact guide.found_mono hway (hresult _ rfl) hleads₂
  | error failure =>
    dsimp only
    cases failure.leadsNowhere with
    | false => exact Operation.safe_fail fun _ => looksUp_error
    | true => exact hmake (guide.reached_mono hreached hleads₁)

/-- Making a directory and all above it makes sure of the directory and comes to an object that is
    found for it, if it comes to any. By induction on the path, since the parent is made first. -/
theorem safe_makeDirs_secures (hassures : guide.Assures Sure) (path : Path) (hway : guide.Way path)
    (hreached : guide.Reached t) :
    (guide.mount.makeDirs path).Safe guide.accord (guide.Secures Sure path) cut t := by
  induction path generalizing cut t with
  | root =>
    rw [Mount.makeDirs]
    refine (safe_lookup .root hway hreached).weaken fun hresult entry hentry => ?_
    exact ⟨hresult entry hentry, hassures.root _⟩
  | child dir name ih =>
    have hdir := guide.way_dir hway
    rw [Mount.makeDirs]
    refine Operation.Safe.bind (Operation.Safe.attempt ?_)
    refine (safe_lookup _ hway hreached).since.weaken ?_
    rintro cut t₁ result ⟨hleads₁, hresult⟩
    have hreached₁ := guide.reached_mono hreached hleads₁
    cases result with
    | ok entry =>
      dsimp only
      cases hfolder : entry.isDir with
      | false => exact Operation.safe_fail fun _ => secures_error
      | true =>
        have hsure : Sure (dir.child name) t₁ := hassures.folder (hresult _ rfl) hfolder
        refine Operation.safe_pure fun hleads₂ => ?_
        exact secures_ok (guide.found_mono hway (hresult _ rfl) hleads₂) (hassures.mono hsure hleads₂)
    | error failure =>
      dsimp only
      cases failure.leadsNowhere with
      | false => exact Operation.safe_fail fun _ => secures_error
      | true =>
        have hparent : (Mount.findOrMake (guide.mount.lookup dir) (guide.mount.makeDirs dir)).Safe
            guide.accord (guide.LooksUp dir) cut t₁ := by
          refine safe_findOrMake hdir hreached₁ (safe_lookup dir hdir hreached₁) fun hreached' => ?_
          exact (ih hdir hreached').weaken Secures.looksUp
        refine Operation.Safe.bind (hparent.since.weaken ?_)
        rintro cut t₂ result ⟨hleads₂, hresult⟩
        cases result with
        | error failure => exact secures_error
        | ok parent =>
          exact safe_createIn hassures hway (guide.reached_mono hreached₁ hleads₂) (hresult _ rfl)

theorem safe_makeDirs (path : Path) (hway : guide.Way path) (hreached : guide.Reached t) :
    (guide.mount.makeDirs path).Safe guide.accord (guide.LooksUp path) cut t :=
  (safe_makeDirs_secures assures_trivial path hway hreached).weaken Secures.looksUp

end VirtualFs.Guide
