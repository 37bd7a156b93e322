import VirtualFs.Directories
import VirtualFs.Proofs.Writing.Lookup

namespace VirtualFs.Writing

open VirtualFs.Tree

variable {writing : Writing} {t t' : Tree} {here dir : Place} {parent : Entry} {name : Segment}
  {cut : Bool}

/-- An operation has come to an entry that stands for the directory at a place. -/
def Provides (here : Place) (_ : Bool) (t : Tree) (result : Except Failure Entry) : Prop :=
  ∃ entry, result = .ok entry ∧ Finds t entry.object here

/-- Whether or not it makes a directory, a request for one finds it there afterwards. What stood
    there before stands above a target and is no file. -/
theorem grows_of_makesDir {object : Object} {answer : Except Failure (Option Object)}
    (hreached : writing.Reached t) (habove : Above writing.targets (dir ++ [name.text]))
    (hfinds : Finds t object dir) (hmakes : t.MakesDir object name.text answer t') :
    Grows writing.targets t t' ∧ t'.HasDir (dir ++ [name.text]) ∧
      ∀ {made}, answer = .ok (some made) → Finds t' made (dir ++ [name.text]) := by
  obtain ⟨htaken, hfree⟩ := hmakes hfinds.1 hfinds.2
  cases hitem : t.item (dir ++ [name.text]) with
  | some x =>
    obtain ⟨⟨failure, rfl⟩, rfl⟩ := htaken (by simp [hitem])
    have hfolder := writing.writable.folder_of_above hreached habove hitem
    exact ⟨Grows.refl _, ⟨x, hitem, hfolder⟩, fun h => by cases h⟩
  | none =>
    obtain ⟨made?, x, rfl, hfolder, hgains, hplace⟩ := hfree hitem
    have hdir := hgains.hasDir hfolder
    refine ⟨hgains.grows (hitem ▸ .made habove hfolder), hdir, ?_⟩
    rintro made ⟨⟩
    exact ⟨hplace rfl, hdir⟩

/-- A listing of the caller's own shows a directory that is there. -/
theorem safe_listAfresh {path : Path} (hreached : writing.Reached t)
    (hfinds : Finds t parent.object path.place) (hdir : t.HasDir (path.child name).place) :
    (writing.mount.listAfresh parent path name).Safe writing.accord
      (Shows (path.child name).place) cut t := by
  refine Operation.Safe.bind (Operation.Safe.during (Operation.safe_ask (.list _ true) ?_))
  refine fun {before} hgrows => ⟨trivial, ?_⟩
  rintro answer _ ⟨rfl, hlists⟩
  obtain ⟨hplace, hparent⟩ := hfinds.mono hgrows
  obtain ⟨objects, rfl, hobjects⟩ := hlists hplace hparent
  obtain ⟨x, hitem, hfolder⟩ := hgrows.hasDir hdir
  refine ⟨Grows.refl _, fun {t₁} hgrows₁ => Operation.safe_require fun {t₂} hgrows₂ => ?_⟩
  rcases hobjects.pick (plain_of_item (hreached.mono hgrows)) name with
    ⟨object, content, hitem', hpick⟩ | ⟨hmissing, -⟩
  · obtain rfl := Option.some.inj (hitem.symm.trans hitem')
    exact ⟨_, hpick, hfolder,
      Finds.mono ⟨Tree.found _ hitem, _, hitem, hfolder⟩ (Grows.trans hgrows₁ hgrows₂)⟩
  · have hsome := hitem
    rw [Path.place, hmissing] at hsome
    cases hsome

/-- Whatever a backend says to the request for a directory, the directory is there afterwards. -/
theorem safe_create {path : Path} (hreached : writing.Reached t)
    (habove : Above writing.targets (path.child name).place)
    (hfinds : Finds t parent.object path.place) (form : Form) :
    (Mount.create parent name form).Safe writing.accord
      (fun _ t result => t.HasDir (path.child name).place ∧
        ∀ {made}, result = .ok (some made) → Finds t made (path.child name).place) cut t := by
  cases form with
  | reporting =>
    refine Operation.safe_ask (.makeDirReporting _ _) fun {before} hgrows => ?_
    have hparent := hfinds.mono hgrows
    refine ⟨⟨name.usable, _, hparent⟩, fun {answer after} hmakes => ?_⟩
    obtain ⟨hgrows', hdir, hmade⟩ :=
      grows_of_makesDir (hreached.mono hgrows) habove hparent hmakes
    exact ⟨hgrows', fun hlater => ⟨Grows.hasDir hlater hdir, fun h => (hmade h).mono hlater⟩⟩
  | plain =>
    refine Operation.Safe.bind (Operation.safe_ask (.makeDir _ _) fun {before} hgrows => ?_)
    have hparent := hfinds.mono hgrows
    refine ⟨⟨name.usable, _, hparent⟩, fun {answer after} hmakes => ?_⟩
    obtain ⟨hgrows', hdir, -⟩ :=
      grows_of_makesDir (hreached.mono hgrows) habove hparent hmakes
    refine ⟨hgrows', fun {t₁} hlater => ?_⟩
    cases answer with
    | ok =>
      refine Operation.safe_pure fun hlater' => ⟨?_, fun h => by cases h⟩
      exact Grows.hasDir (Grows.trans hlater hlater') hdir
    | error failure => exact ⟨Grows.hasDir hlater hdir, fun h => by cases h⟩

/-- Making a directory below its parent comes to that directory, whoever was the first to make it. A
    refusal is not the end, as the directory is in a listing that is made after it. -/
theorem safe_createIn {path : Path} (hreached : writing.Reached t)
    (habove : Above writing.targets (path.child name).place)
    (hfinds : Finds t parent.object path.place) :
    (writing.mount.createIn parent path name).Safe writing.accord
      (Provides (path.child name).place) cut t := by
  have hready : ∀ {entry : Entry} {cut t}, Finds t entry.object (path.child name).place →
      (do Operation.log (.directoryReady (path.child name)); pure entry : Operation Entry).Safe
        writing.accord (Provides (path.child name).place) cut t := by
    intro entry cut t hentry
    refine Operation.Safe.bind (Operation.safe_log fun hgrows => ?_)
    exact Operation.safe_pure fun hgrows' => ⟨entry, rfl, hentry.mono (Grows.trans hgrows hgrows')⟩
  refine Operation.Safe.bind (Operation.safe_offer ?_)
  rintro t₁ offer hgrows₁ ⟨-, -, ⟨form, hform⟩, -⟩ t₂ hgrows₂
  dsimp only
  rw [hform]
  refine Operation.Safe.bind (Operation.safe_require fun {t₃} hgrows₃ => ?_)
  have hgrows : Grows writing.targets t t₃ :=
    Grows.trans hgrows₁ (Grows.trans hgrows₂ hgrows₃)
  refine Operation.Safe.bind (Operation.Safe.attempt ?_)
  refine (safe_create (hreached.mono hgrows) habove (hfinds.mono hgrows) form).since.weaken ?_
  rintro cut t₄ result ⟨hgrows₄, hdir, hmade⟩
  have hlist : (writing.mount.listAfresh parent path name).Safe writing.accord
      (Shows (path.child name).place) cut t₄ :=
    safe_listAfresh ((hreached.mono hgrows).mono hgrows₄) ((hfinds.mono hgrows).mono hgrows₄) hdir
  cases result with
  | ok made? =>
    cases made? with
    | some made =>
      refine Operation.Safe.bind (Operation.safe_pure fun hgrows₅ => ?_)
      exact hready ((hmade rfl).mono hgrows₅)
    | none =>
      refine Operation.Safe.bind (hlist.weaken ?_)
      rintro cut t₅ _ ⟨entry, rfl, -, hentry⟩
      exact hready hentry
  | error failure =>
    refine Operation.Safe.bind (Operation.Safe.attempt (hlist.weaken ?_))
    rintro cut t₅ _ ⟨entry, rfl, hfolder, hentry⟩
    dsimp only
    rw [if_pos hfolder]
    refine Operation.Safe.bind (Operation.safe_log fun hgrows₅ => ?_)
    refine Operation.Safe.bind (Operation.safe_pure fun hgrows₆ => ?_)
    exact hready (hentry.mono (Grows.trans hgrows₅ hgrows₆))

theorem safe_findOrMake {find make : Operation Entry} (hreached : writing.Reached t)
    (hfind : find.Safe writing.accord (LooksUp here) cut t)
    (hmake : ∀ {cut t}, writing.Reached t → make.Safe writing.accord (Provides here) cut t) :
    (Mount.findOrMake find make).Safe writing.accord (Provides here) cut t := by
  refine Operation.Safe.bind (Operation.Safe.attempt (hfind.since.weaken ?_))
  rintro cut t' result ⟨hgrows, hresult⟩
  cases result with
  | ok entry => exact Operation.safe_pure fun hgrows' => ⟨entry, rfl, hresult.2.mono hgrows'⟩
  | error failure =>
    dsimp only
    rw [if_pos (show failure.leadsNowhere = true from hresult)]
    exact hmake (hreached.mono hgrows)

/-- Making a directory above a target and all above it comes to that directory. By induction on the
    path, since the parent is made first if it is missing. -/
theorem safe_makeDirs (path : Path) (habove : Above writing.targets path.place)
    (hreached : writing.Reached t) :
    (writing.mount.makeDirs path).Safe writing.accord (Provides path.place) cut t := by
  induction path generalizing cut t with
  | root =>
    rw [Mount.makeDirs, Mount.lookup]
    refine Mount.safe_direct And.left (safe_describeRoot.weaken ?_)
    rintro cut t' _ ⟨entry, rfl, -, hentry⟩
    exact ⟨entry, rfl, hentry⟩
  | child path name ih =>
    rw [Mount.makeDirs]
    refine Operation.Safe.bind (Operation.Safe.attempt ?_)
    refine (safe_lookup _ habove hreached).since.weaken ?_
    rintro cut t' result ⟨hgrows, hresult⟩
    cases result with
    | ok entry =>
      dsimp only
      rw [if_pos hresult.1]
      exact Operation.safe_pure fun hgrows' => ⟨entry, rfl, hresult.2.mono hgrows'⟩
    | error failure =>
      dsimp only
      rw [if_pos (show failure.leadsNowhere = true from hresult)]
      have hparent : (Mount.findOrMake (writing.mount.lookup path)
          (writing.mount.makeDirs path)).Safe writing.accord (Provides path.place) cut t' :=
        safe_findOrMake (hreached.mono hgrows)
          (safe_lookup path habove.of_child (hreached.mono hgrows))
          (fun hreached' => ih habove.of_child hreached')
      refine Operation.Safe.bind (hparent.since.weaken ?_)
      rintro cut t'' _ ⟨hgrows', entry, rfl, hentry⟩
      exact safe_createIn ((hreached.mono hgrows).mono hgrows') habove hentry

end VirtualFs.Writing
