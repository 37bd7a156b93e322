import VirtualFs.Proofs.Guide.Root
import VirtualFs.Proofs.Writing.Growth

namespace VirtualFs

open VirtualFs.Tree

/-- Looking for a name in a listing finds the child of that name, if there is one. -/
theorem Tree.Lists.pick {t : Tree} {dir : Place} {objects : List Object} {mapping : NameMapping}
    (hlists : t.Lists dir objects)
    (hplain : ∀ {name x}, t.item (dir ++ [name]) = some x → mapping.apply name = name)
    (name : Segment) :
    (∃ object content, t.item (dir ++ [name.text]) = some ⟨object, content⟩ ∧
      Mount.pick name (objects.map (Entry.ofObject · mapping)) = .ok ⟨name.text, object⟩) ∨
    t.item (dir ++ [name.text]) = none ∧
      Mount.pick name (objects.map (Entry.ofObject · mapping)) = .error Cause.notFound := by
  rw [Mount.pick_map]
  cases hfind : objects.find? (fun object => mapping.apply object.name = name.text) with
  | some object =>
    have hshown : mapping.apply object.name = name.text := by simpa using List.find?_some hfind
    obtain ⟨content, hitem⟩ := hlists.mem.1 (List.mem_of_find?_eq_some hfind)
    rw [hplain hitem] at hshown
    rw [hshown] at hitem
    exact .inl ⟨object, content, hitem, rfl⟩
  | none =>
    refine .inr ⟨?_, rfl⟩
    cases hitem : t.item (dir ++ [name.text]) with
    | none => rfl
    | some x =>
      obtain ⟨object, content⟩ := x
      have hname : object.name = name.text := t.named hitem
      have hmem := hlists.mem.2 ⟨content, hname ▸ hitem⟩
      have hother : mapping.apply object.name ≠ name.text := by
        simpa using List.find?_eq_none.1 hfind object hmem
      rw [hname, hplain hitem] at hother
      exact (hother rfl).elim

/-- A mount and some files that are written through it into a tree. Every name that comes up is shown
    as it is. -/
structure Writing where
  mount : Mount
  targets : List Target
  start : Tree
  writable : start.Writable targets
  plain : ∀ {name}, Occurs targets start name → mount.mapping.apply name = name

namespace Writing

variable (writing : Writing)

/-- An object stands for a directory at a place. -/
def Finds (t : Tree) (object : Object) (here : Place) : Prop :=
  t.place object = some here ∧ t.HasDir here

/-- The growth of the tree since the writing began. -/
def Reached (t : Tree) : Prop :=
  Grows writing.targets writing.start t

/-- Writers may share the listings of directories above their targets. -/
def accord : Accord behaviour where
  Leads := Grows writing.targets
  refl := Grows.refl
  trans := Grows.trans
  listed := by
    rintro plan t answer t' ⟨rfl, -⟩
    exact Grows.refl _
  Drops := False
  Does := Grows writing.targets
  does := id
  Shareable plan t := writing.Reached t ∧ plan.mapping = writing.mount.mapping ∧
    Above writing.targets plan.dir.place ∧ Finds t plan.object plan.dir.place
  shareable_mono := by
    rintro plan t t' ⟨hreached, hmapping, habove, hplace, hdir⟩ hgrows
    exact ⟨hreached.trans hgrows, hmapping, habove, hgrows.keeps hplace hdir, hgrows.hasDir hdir⟩
  Accepts _ _ := True
  Since _ := Grows writing.targets
  since_refl _ := Grows.refl
  since_trans := Grows.trans

variable {writing} {t t' : Tree} {here dir : Place} {object : Object} {cut : Bool}

theorem Finds.mono (hfinds : Finds t object here) (hgrows : Grows writing.targets t t') :
    Finds t' object here :=
  ⟨hgrows.keeps hfinds.1 hfinds.2, hgrows.hasDir hfinds.2⟩

theorem Reached.mono (hreached : writing.Reached t) (hgrows : Grows writing.targets t t') :
    writing.Reached t' :=
  Grows.trans hreached hgrows

/-- The names that have come up so far are shown as they are. -/
theorem plain_of_item (hreached : writing.Reached t) {name : String} {x : Item}
    (hitem : t.item (dir ++ [name]) = some x) : writing.mount.mapping.apply name = name :=
  writing.plain (Grows.occurs hreached hitem)

/-- An operation has come to an entry for the directory at a place, and the entry says that it is
    one. -/
def Shows (here : Place) (_ : Bool) (t : Tree) (result : Except Failure Entry) : Prop :=
  ∃ entry, result = .ok entry ∧ entry.isDir = true ∧ Finds t entry.object here

/-- What a lookup of a directory above a target may come to: the directory, or word that it is not
    there, which need not be true any more. -/
def LooksUp (here : Place) (_ : Bool) (t : Tree) : Except Failure Entry → Prop
  | .ok entry => entry.isDir = true ∧ Finds t entry.object here
  | .error failure => failure.leadsNowhere = true

/-- What a listing of a directory above a target may come to: the children of some earlier moment,
    or word that the directory is not there. -/
def ListsOnce (writing : Writing) (dir : Place) (_ : Bool) (t : Tree) : Listing → Prop
  | .ok entries => ∃ before objects, writing.Reached before ∧ Grows writing.targets before t ∧
    before.Lists dir objects ∧
    entries = objects.map (Entry.ofObject · writing.mount.mapping)
  | .error failure => failure.leadsNowhere = true

theorem safe_describeRoot :
    writing.mount.describeRoot.Safe writing.accord (Shows []) cut t := by
  refine Mount.safe_describeRoot (fun object t => Finds t object []) Finds.mono ?_ ?_
  · rintro t' offer - ⟨-, -, -, source, hsource, hroot⟩
    refine ⟨source, hsource, ?_⟩
    cases source with
    | asked => trivial
    | id id => exact fun name modified => ⟨hroot name modified, t'.hasDir_root⟩
    | path path => exact fun name modified => ⟨hroot name modified, t'.hasDir_root⟩
  · refine fun {t'} _ => ⟨trivial, ?_⟩
    rintro answer _ ⟨rfl, object, rfl, hfolder, hplace⟩
    exact ⟨Grows.refl _, object, rfl, hfolder, hplace, Tree.hasDir_root _⟩

/-- A listing that is shared may be from before the caller came. -/
theorem safe_share {path : Path} (habove : Above writing.targets path.place)
    (hreached : writing.Reached t) (hfinds : Finds t object path.place) :
    (Operation.share ⟨writing.mount.number, path, object, writing.mount.mapping⟩).Safe
      writing.accord (writing.ListsOnce path.place) cut t := by
  refine Operation.safe_share ⟨hreached, rfl, habove, hfinds⟩ ?_ (fun hdrops => hdrops.elim)
  intro t' listing _ hknown t'' hgrows'
  obtain ⟨plan, answer, hkey, hanswered, rfl⟩ := hknown
  obtain ⟨before, after, hplan, ⟨hsame, hlists⟩, hgrows⟩ := hanswered
  obtain ⟨hbefore, hmapping, -, hplace, hdir⟩ := hplan
  subst after
  obtain ⟨objects, rfl, hobjects⟩ := hlists hplace hdir
  obtain rfl := plan.dir_of_key hkey
  exact ⟨before, objects, hbefore, Grows.trans hgrows hgrows', hobjects, by rw [hmapping]⟩

theorem safe_listFound {path : Path} {find : Operation Entry}
    (habove : Above writing.targets path.place) (hreached : writing.Reached t)
    (hfind : find.Safe writing.accord (LooksUp path.place) cut t) :
    (writing.mount.listFound path find).Safe writing.accord (writing.ListsOnce path.place)
      cut t := by
  refine Operation.Safe.bind (hfind.since.weaken ?_)
  rintro cut t' result ⟨hgrows, hresult⟩
  cases result with
  | error failure => exact hresult
  | ok entry =>
    dsimp only
    rw [if_pos hresult.1]
    exact safe_share habove (hreached.mono hgrows) hresult.2

/-- Looking for a directory above a target comes to that directory or to word that it is missing. By
    induction on the path, as a listing of the directory above tells of it. -/
theorem safe_lookup (path : Path) (habove : Above writing.targets path.place)
    (hreached : writing.Reached t) :
    (writing.mount.lookup path).Safe writing.accord (LooksUp path.place) cut t := by
  induction path with
  | root =>
    rw [Mount.lookup]
    refine Mount.safe_direct And.left (safe_describeRoot.weaken ?_)
    rintro cut t' _ ⟨entry, rfl, hentry⟩
    exact hentry
  | child dir name ih =>
    rw [Mount.lookup]
    refine Mount.safe_direct And.left (Operation.Safe.bind (Operation.Safe.during ?_))
    refine (safe_listFound habove.of_child hreached (ih habove.of_child)).weaken ?_
    rintro cut t' result hresult
    cases result with
    | error failure => exact hresult
    | ok entries =>
      obtain ⟨before, objects, hbefore, hgrows, hlists, rfl⟩ := hresult
      refine Operation.safe_require fun {t''} hgrows' => ?_
      rcases hlists.pick (plain_of_item hbefore) name with ⟨object, content, hitem, hpick⟩ | ⟨-, hpick⟩
      · have hfolder := writing.writable.folder_of_above hbefore habove hitem
        rw [hpick]
        exact ⟨hfolder, Finds.mono ⟨before.found hitem, _, hitem, hfolder⟩
          (Grows.trans hgrows hgrows')⟩
      · rw [hpick]
        rfl

end Writing

end VirtualFs
