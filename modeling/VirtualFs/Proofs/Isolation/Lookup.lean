import VirtualFs.Proofs.Guide.Lookup
import VirtualFs.Proofs.Isolation.Fence

namespace VirtualFs.Fence

open VirtualFs.Tree VirtualFs.Chronicle

variable {fence : Fence} {c c' : Chronicle fence.mount.base.place} {dir : Path} {name : Segment}

theorem Reached.mono (hreached : fence.Reached c) (hkeeps : Chronicle.Keeps c c') :
    fence.Reached c' :=
  Tree.Keeps.trans hreached hkeeps.tree

/-- What a backend lists for an object that is found for a directory is found for its places there. In
    a directory that the base lies in, the names as they are shown are the names of the tree. -/
theorem stands_of_pick (hreached : fence.Reached c) {parent : Object}
    (hstands : c.Stands dir.place parent) {objects : List Object}
    (hobjects : objects = [] ∨
      ∃ other, c.tree.place parent = some other ∧ c.tree.Lists other objects)
    (hcomparable : Comparable fence.mount.base.place (dir.child name).place) {entry : Entry}
    (hpick : Mount.pick name (objects.map (Entry.ofObject · fence.mount.mapping)) = .ok entry) :
    c.Stands (dir.child name).place entry.object := by
  obtain ⟨other, child, content, hplace, hitem, hshown⟩ := exists_item_of_pick hobjects hpick
  have hfits : Fits fence.mount.base.place (dir.child name).place (other ++ [child]) := by
    rcases hstands.fits hplace with rfl | ⟨hdir, hother⟩
    · by_cases hdir : fence.mount.base.place <+: dir.place
      · exact .inr ⟨hdir.trans (List.prefix_append _ _), hdir.trans (List.prefix_append _ _)⟩
      · have habove := hcomparable.of_child.resolve_right hdir
        have hne : dir.place ≠ fence.mount.base.place := fun h => hdir (h ▸ List.prefix_rfl)
        rw [plain_of_item hreached habove hne hitem] at hshown
        exact .inl (by rw [hshown, Path.place])
    · exact .inr ⟨hdir.trans (List.prefix_append _ _), hother.trans (List.prefix_append _ _)⟩
  exact stands_of_item hfits (c.tree.found hitem) hitem

/-- Whatever comes of asking for a directory on the way to the base or below it, the rest is kept, and
    an object that is reported is found for the place of the directory. -/
theorem keeps_of_mayMake {object : Object} {answer : Except Failure (Option Object)}
    (hcomparable : Comparable fence.mount.base.place (dir.child name).place)
    (hobject : c.Stands dir.place object) (hmakes : c.tree.MayMake object name.text answer c'.tree) :
    Tree.Keeps fence.mount.base.place c.tree c'.tree ∧
      ∀ {made}, answer = .ok (some made) → c'.Stands (dir.child name).place made := by
  obtain ⟨hchange, hreport⟩ := hmakes
  constructor
  · rcases hchange with hsame | ⟨other, hplace, hmade⟩
    · exact hsame ▸ Tree.Keeps.refl _ _
    · have hfits : Fits fence.mount.base.place (dir.child name).place (other ++ [name.text]) :=
        (hobject.fits hplace).child
      rcases hfits with hhere | ⟨-, hother⟩
      · rcases hcomparable with habove | hbelow
        · exact hmade.keeps (hhere ▸ habove)
        · exact hmade.toChanges.keeps (hhere ▸ hbelow)
      · exact hmade.toChanges.keeps hother
  · intro made hanswer
    obtain ⟨other, hplace, ⟨x, hitem, -⟩, hreported⟩ := hreport hanswer
    exact stands_of_item (hobject.fits hplace).child (hreported rfl) hitem

/-- What stands for the root is found for it. -/
theorem stands_root {object : Object} (hplace : c.tree.place object = some []) :
    c.Stands [] object := by
  obtain ⟨top, htop, -⟩ := c.tree.root
  exact stands_of_item (.inl rfl) hplace htop

theorem keeps_of_eq (hsame : c'.tree = c.tree) (hmet : ∀ {object}, c.met object → c'.met object) :
    Chronicle.Keeps c c' :=
  ⟨hsame ▸ Tree.Keeps.refl _ _, hmet⟩

/-- Callers find their way to the base and below it by what stands for the places there. -/
def guide (fence : Fence) : Guide (fenced fence.mount.base.place) where
  mount := fence.mount
  accord := fence.accord
  Reached := fence.Reached
  reached_mono := Reached.mono
  Way path := Comparable fence.mount.base.place path.place
  way_dir := Comparable.of_child
  Found path object c := c.Stands path.place object
  found_mono hway hstands hkeeps := hstands.mono hway hkeeps
  indirect hoffer := hoffer.1
  offersRoot := by
    rintro c offer source - ⟨-, hroot⟩ hsource
    have hshows := hroot hsource
    cases source with
    | asked => trivial
    | id id => exact fun name modified => stands_root (hshows name modified)
    | path path => exact fun name modified => stands_root (hshows name modified)
  root := by
    refine fun _ => ⟨trivial, fun {answer c'} hpermits => ?_⟩
    obtain ⟨⟨hsame, hobject⟩, hmet⟩ := hpermits
    exact ⟨keeps_of_eq hsame hmet, fun hanswer => stands_root (hsame ▸ hobject hanswer)⟩
  shareable hway hreached hstands := ⟨hreached, rfl, hway, hstands⟩
  known := by
    intro dir name entries entry c hway _ hknown hpick
    obtain ⟨plan, objects, rfl, hanswered, rfl⟩ := hknown.exists_answered
    obtain ⟨before, after, ⟨hbefore, hmapping, -, hstands⟩, ⟨⟨hsame, hlists⟩, hmet⟩, hkeeps⟩ :=
      hanswered
    rw [hmapping] at hpick
    have hpicked := stands_of_pick hbefore hstands (hlists rfl) hway hpick
    exact hpicked.mono hway ((keeps_of_eq hsame hmet).trans hkeeps)
  listing := by
    refine fun hway hreached hstands => ⟨trivial, fun {answer c'} hpermits => ?_⟩
    obtain ⟨⟨hsame, hlists⟩, hmet⟩ := hpermits
    have hkeeps := keeps_of_eq hsame hmet
    refine ⟨hkeeps, fun hanswer hpick => ?_⟩
    exact (stands_of_pick hreached hstands (hlists hanswer) hway hpick).mono hway hkeeps
  makeDir := by
    refine fun hway _ hstands => ⟨trivial, fun {answer c'} hpermits => ?_⟩
    obtain ⟨hmakes, hmet⟩ := hpermits
    exact ⟨⟨(keeps_of_mayMake hway hstands hmakes).1, hmet⟩, trivial⟩
  makeDirReporting := by
    refine fun hway _ hstands => ⟨trivial, fun {answer c'} hpermits => ?_⟩
    obtain ⟨hmakes, hmet⟩ := hpermits
    obtain ⟨hkeeps, hmade⟩ := keeps_of_mayMake hway hstands hmakes
    exact ⟨⟨hkeeps, hmet⟩, fun hanswer => hmade hanswer⟩
  transfer := by
    intro request c htransfers
    cases request with
    | openLink opener file url headers =>
      exact ⟨trivial, fun hpermits => ⟨keeps_of_eq hpermits.1 hpermits.2, trivial⟩⟩
    | readRange reader range =>
      exact ⟨trivial, fun hpermits => ⟨keeps_of_eq hpermits.1 hpermits.2, trivial⟩⟩
    | drain source =>
      exact ⟨trivial, fun hpermits => ⟨keeps_of_eq hpermits.1 hpermits.2, trivial⟩⟩
    | _ => exact htransfers.elim

end VirtualFs.Fence
