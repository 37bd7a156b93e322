import VirtualFs.Proofs.Guide.Root
import VirtualFs.Proofs.Visibility.Roles

namespace VirtualFs

open VirtualFs.Tree

/-- A file that stands at a place, and whether it is about to be removed by one who looks for it. -/
structure Sought where
  here : Place
  item : Item
  file : item.object.isFolder = false
  removing : Prop

namespace Sought

/-- The file has been removed. A directory may have been made in its place since. -/
def Gone (sought : Sought) (t : Tree) : Prop :=
  sought.removing ∧ ∀ {x}, t.item sought.here = some x → x.object.isFolder = true

/-- The file is where it was unless it has been removed. -/
def Kept (sought : Sought) (t : Tree) : Prop :=
  t.item sought.here = some sought.item ∨ sought.Gone t

/-- A directory that the file lies in. -/
def Above (sought : Sought) (dir : Path) : Prop :=
  dir.place <+: sought.here ∧ dir.place ≠ sought.here

variable {sought : Sought} {t t' : Tree}

theorem Above.of_child {dir : Path} {name : Segment} (habove : sought.Above (dir.child name)) :
    sought.Above dir := by
  refine ⟨(List.prefix_append _ _).trans habove.1, fun hsame => ?_⟩
  have hlength : (dir.place ++ [name.text]).length ≤ sought.here.length := habove.1.length_le
  rw [← hsame, List.length_append, List.length_singleton] at hlength
  omega

theorem gone_of_none (hremoving : sought.removing) (hnone : t.item sought.here = none) :
    sought.Gone t := by
  refine ⟨hremoving, fun {x} hitem => ?_⟩
  rw [hnone] at hitem
  cases hitem

theorem kept_of_spares (hspares : Spares sought.here t t') :
    (sought.Kept t → sought.Kept t') ∧ (sought.Gone t → sought.Gone t') := by
  have hgone : sought.Gone t → sought.Gone t' := by
    rintro ⟨hremoving, hfolder⟩
    refine ⟨hremoving, fun {x} hitem => ?_⟩
    rcases hspares with hsame | ⟨-, y, hitem', hfolder'⟩
    · exact hfolder (hsame ▸ hitem)
    · obtain rfl := Option.some.inj (hitem'.symm.trans hitem)
      exact hfolder'
  refine ⟨fun hkept => ?_, hgone⟩
  rcases hkept with hitem | hgone'
  · rcases hspares with hsame | ⟨hnone, -⟩
    · exact .inl (hsame.trans hitem)
    · rw [hnone] at hitem
      cases hitem
  · exact .inr (hgone hgone')

/-- The course of those among whom the file is looked for. -/
def course (sought : Sought) : Course where
  Leads t t' := (sought.Kept t → sought.Kept t') ∧ (sought.Gone t → sought.Gone t')
  refl _ := ⟨id, id⟩
  trans hfirst hlast := ⟨hlast.1 ∘ hfirst.1, hlast.2 ∘ hfirst.2⟩
  Does t t' := (sought.Kept t → sought.Kept t') ∧ (sought.Gone t → sought.Gone t')
  does := id
  same _ := ⟨id, id⟩
  makes hmakes := kept_of_spares hmakes.spares
  Kept := sought.Kept
  kept_mono hkept hleads := hleads.1 hkept

variable (sought) (homing : Homing) (late : Nat → Prop)

/-- One who looks for the file takes part in a listing of a directory that it lies in only if the
    listing is late enough to show it. -/
def accord : Accord (attentive homing.home) :=
  sought.course.accord homing sought.Above late

def guide : Guide (attentive homing.home) :=
  sought.course.guide homing sought.Above late

/-- The tree is as it may be while the file is looked for. -/
def Standing (t : Tree) : Prop :=
  sought.course.Standing homing sought.Above t

variable {sought homing late} {dir : Path} {name : Segment} {cut : Bool}

theorem Standing.mono (hstanding : sought.Standing homing t)
    (hleads : sought.course.Leading homing t t') : sought.Standing homing t' :=
  Course.Standing.mono hstanding hleads

/-- The root lies above every other place. -/
theorem Standing.kept_of_ne (hstanding : sought.Standing homing t) (hne : sought.here ≠ []) :
    sought.Kept t :=
  have habove : sought.Above .root := ⟨List.nil_prefix, hne.symm⟩
  Course.Standing.kept hstanding habove

theorem Gone.mono (hgone : sought.Gone t) (hstanding : sought.Standing homing t)
    (hleads : sought.course.Leading homing t t') : sought.Gone t' :=
  (hleads hstanding.reached).2.2 hgone

/-- A lookup comes to a directory, unless the file has been removed. -/
def FindsDir (sought : Sought) (_ : Bool) (t : Tree) (result : Except Failure Entry) : Prop :=
  sought.Gone t ∨ ∃ entry, result = .ok entry ∧ entry.isDir = true

/-- A listing shows the children of a directory at a moment when the file was there, unless it has been
    removed. -/
def Lists (sought : Sought) (homing : Homing) (dir : Path) (_ : Bool) (t : Tree)
    (listing : Listing) : Prop :=
  sought.Gone t ∨ ∃ before objects, homing.Reached before ∧
    before.item sought.here = some sought.item ∧ before.Lists dir.place objects ∧
    listing = .ok (objects.map (Entry.ofObject · homing.mount.mapping))

/-- A lookup of a child comes to what stood there at a moment when the file was there, unless it has
    been removed. -/
def Sights (sought : Sought) (dir : Path) (name : Segment) (_ : Bool) (t : Tree)
    (result : Except Failure Entry) : Prop :=
  sought.Gone t ∨ ∃ (before : Tree) (object : Object) (content : List UInt8),
    before.item sought.here = some sought.item ∧ result = .ok ⟨name.text, object⟩ ∧
    before.item (dir.child name).place = some ⟨object, content⟩

theorem safe_describeRoot :
    homing.mount.describeRoot.Safe (sought.accord homing late) sought.FindsDir cut t := by
  have hroot : homing.mount.describeRoot.Safe (sought.accord homing late)
      (fun _ _ result => ∃ entry, result = .ok entry ∧ entry.isDir = true ∧ True) cut t := by
    refine Mount.safe_describeRoot (fun _ _ => True) (fun _ _ => trivial) ?_ ?_
    · rintro t' offer hleads ⟨-, source, hsource, -⟩
      refine ⟨source, hsource, ?_⟩
      cases source with
      | asked => trivial
      | id id => exact fun _ _ => trivial
      | path path => exact fun _ _ => trivial
    · refine fun {t'} hleads => ⟨trivial, fun {answer t''} hpermits => ?_⟩
      obtain ⟨-, ⟨rfl, -⟩, object, hanswer, hfolder, -⟩ := hpermits
      exact ⟨fun hreached => ⟨hreached, id, id⟩, object, hanswer, hfolder, trivial⟩
  refine hroot.weaken ?_
  rintro cut t' result ⟨entry, hresult, hfolder, -⟩
  exact .inr ⟨entry, hresult, hfolder⟩

theorem safe_share (habove : sought.Above dir) (hstanding : sought.Standing homing t)
    {object : Object} (hhome : homing.home object = some dir.place) :
    (Operation.share ⟨homing.mount.number, dir, object, homing.mount.mapping⟩).Safe
      (sought.accord homing late) (sought.Lists homing dir) cut t := by
  refine Operation.safe_share ⟨hstanding.reached, rfl, hhome, hstanding.kept⟩ ?_ False.elim
  intro t₁ listing hleads₁ hknown t₂ hleads₂
  obtain ⟨plan, answer, hkey, hanswered, rfl⟩ := hknown
  obtain ⟨before, after, hplan, ⟨-, ⟨rfl, -⟩, hattends⟩, hsince⟩ := hanswered
  obtain ⟨hreached, hmapping, hhome', hkept⟩ := hplan
  obtain rfl := plan.dir_of_key hkey
  rcases hkept habove with hitem | hgone
  · have hdir := hasDir_above hitem habove.1 habove.2
    obtain ⟨objects, rfl, hlists⟩ := hattends (hreached.homed.found hhome' hdir) hdir
    exact .inr ⟨_, objects, hreached, hitem, hlists, by rw [← hmapping]; rfl⟩
  · have hgone' : sought.Gone t₁ := ((hsince hreached).2 habove).2 hgone
    exact .inl (hgone'.mono (hstanding.mono hleads₁) hleads₂)

/-- Looking for what the file lies in, or for the file itself, comes to what was there. -/
theorem safe_child (hplain : homing.Plain (dir.child name).place) (habove : sought.Above dir)
    (hchild : (dir.child name).place <+: sought.here) (hstanding : sought.Standing homing t)
    (hfind : (homing.mount.lookup dir).Safe (sought.accord homing late) sought.FindsDir cut t) :
    (homing.mount.lookup (dir.child name)).Safe (sought.accord homing late)
      (sought.Sights dir name) cut t := by
  have hguided : ((sought.guide homing late).mount.lookup dir).Safe (sought.guide homing late).accord
      ((sought.guide homing late).LooksUp dir) cut t :=
    Guide.safe_lookup dir hplain.of_child hstanding
  have hlist : (homing.mount.listFound dir (homing.mount.lookup dir)).Safe
      (sought.accord homing late) (sought.Lists homing dir) cut t := by
    refine Operation.Safe.bind ((hguided.and hfind).since.weaken ?_)
    rintro cut t₁ result ⟨hleads₁, hlooks, hgone | ⟨entry, rfl, hfolder⟩⟩
    · cases result with
      | error failure => exact .inl hgone
      | ok entry =>
        dsimp only
        have hstanding₁ := hstanding.mono hleads₁
        cases entry.isDir with
        | true => exact safe_share habove hstanding₁ (hlooks _ rfl)
        | false => exact Operation.safe_fail fun h => .inl (hgone.mono hstanding₁ h)
    · dsimp only
      rw [if_pos hfolder]
      exact safe_share habove (hstanding.mono hleads₁) (hlooks _ rfl)
  rw [Mount.lookup]
  refine Mount.safe_direct And.left (Operation.Safe.bind (Operation.Safe.during
    (hlist.since.weaken ?_)))
  rintro cut t₁ listing ⟨hleads₁, hgone | ⟨before, objects, hreached, hitem, hlists, rfl⟩⟩
  · cases listing with
    | error failure => exact .inl hgone
    | ok entries => exact Operation.safe_require fun h => .inl (hgone.mono (hstanding.mono hleads₁) h)
  · refine Operation.safe_require fun {t₂} _ => ?_
    rcases hlists.pick hreached.plain name with ⟨object, content, hfound, hpick⟩ | ⟨hnone, -⟩
    · exact .inr ⟨before, object, content, hitem, hpick, hfound⟩
    · -- What lies above an item is there.
      by_cases hsame : (dir.child name).place = sought.here
      · rw [← hsame, Path.place, hnone] at hitem
        cases hitem
      · exact (not_hasDir_of_none hnone (hasDir_above hitem hchild hsame)).elim

/-- By induction on the path, as the listing of a directory shows the next. -/
theorem safe_findsDir (path : Path) (hplain : homing.Plain path.place) (habove : sought.Above path)
    (hstanding : sought.Standing homing t) :
    (homing.mount.lookup path).Safe (sought.accord homing late) sought.FindsDir cut t := by
  induction path with
  | root =>
    rw [Mount.lookup]
    exact Mount.safe_direct And.left safe_describeRoot
  | child dir name ih =>
    have hdir := habove.of_child
    refine (safe_child hplain hdir habove.1 hstanding (ih hplain.of_child hdir)).weaken ?_
    rintro cut t' result (hgone | ⟨before, object, content, hitem, hresult, hfound⟩)
    · exact .inl hgone
    · obtain ⟨x, hx, hfolder⟩ := hasDir_above hitem habove.1 habove.2
      obtain rfl := Option.some.inj (hx.symm.trans hfound)
      exact .inr ⟨_, hresult, hfolder⟩

/-- A lookup comes to the file, unless it has been removed. -/
def Sees (sought : Sought) (_ : Bool) (t : Tree) (result : Except Failure Entry) : Prop :=
  sought.Gone t ∨ result = .ok ⟨sought.item.object.name, sought.item.object⟩

theorem safe_lookup (hplain : homing.Plain (dir.child name).place)
    (hhere : (dir.child name).place = sought.here) (hstanding : sought.Standing homing t) :
    (homing.mount.lookup (dir.child name)).Safe (sought.accord homing late)
      sought.Sees cut t := by
  have habove : sought.Above dir := by
    rw [Above, ← hhere]
    exact ⟨List.prefix_append _ _, by simp [Path.place]⟩
  refine (safe_child hplain habove (hhere ▸ List.prefix_rfl) hstanding
    (safe_findsDir dir hplain.of_child habove hstanding)).weaken ?_
  rintro cut t' result (hgone | ⟨before, object, content, hitem, hresult, hfound⟩)
  · exact .inl hgone
  · have hname : object.name = name.text := before.named hfound
    rw [hhere, hitem] at hfound
    refine .inr ?_
    rw [Option.some.inj hfound, hresult, hname]

end Sought

end VirtualFs
