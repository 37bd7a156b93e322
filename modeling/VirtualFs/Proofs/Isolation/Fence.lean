import VirtualFs.Lookup
import VirtualFs.Proofs.Isolation.Confined
import VirtualFs.Proofs.Operation

namespace VirtualFs

open VirtualFs.Tree

/-- A tree and the objects that have been met at or below a place so far, those that stand there among
    them. -/
structure Chronicle (base : Place) where
  tree : Tree
  met : Object → Prop
  meets : ∀ {object here}, tree.place object = some here → base <+: here → met object

namespace Chronicle

variable {base here other dir : Place}

/-- An object has been met at or below the place, and stands for nothing else by now. -/
structure Knows (c : Chronicle base) (object : Object) : Prop where
  met : c.met object
  ready : c.tree.Ready base
  inside : c.tree.Inside base object

/-- A request that removes, stores or hands out something is put on an object that is at or below the
    place. -/
def Proper (c : Chronicle base) : Request → Prop
  | .remove object => c.Knows object
  | .put _ dir _ _ => c.Knows dir
  | .link file => c.Knows file
  | _ => True

/-- What may become of a chronicle: the tree outside is kept, and nothing that has been met is
    forgotten. -/
structure Keeps (c c' : Chronicle base) : Prop where
  tree : Tree.Keeps base c.tree c'.tree
  met : ∀ {object}, c.met object → c'.met object

/-- The behaviour of a confined backend that is asked for nothing improper. -/
def fenced (base : Place) : Behaviour (Chronicle base) where
  Uses request c := c.Proper request
  lists _ _ := trivial
  offers c offer := confined.offers c.tree offer
  permits request c answer c' := confined.permits request c.tree answer c'.tree ∧
    ∀ {object}, c.met object → c'.met object

/-- An object that is found for a place. At or below the base it may come from anywhere there, above
    the base it stands for that very place. -/
structure Stands (c : Chronicle base) (here : Place) (object : Object) : Prop where
  inside : base <+: here → c.Knows object
  above : ¬ base <+: here → c.tree.place object = some here ∧ c.tree.item here ≠ none

variable {c c' c'' : Chronicle base} {object : Object}

theorem Keeps.refl (c : Chronicle base) : Keeps c c := ⟨Tree.Keeps.refl base c.tree, id⟩

theorem Keeps.trans (hfirst : Keeps c c') (hlast : Keeps c' c'') : Keeps c c'' :=
  ⟨hfirst.tree.trans hlast.tree, fun hmet => hlast.met (hfirst.met hmet)⟩

theorem Knows.mono (hknows : c.Knows object) (hkeeps : Keeps c c') : c'.Knows object :=
  ⟨hkeeps.met hknows.met, hkeeps.tree.ready hknows.ready,
    hkeeps.tree.inside hknows.ready hknows.inside⟩

/-- Two places that lie on one way, as far as the base goes. -/
def Comparable (base here : Place) : Prop :=
  here <+: base ∨ base <+: here

theorem Comparable.of_child {name : String} (hchild : Comparable base (dir ++ [name])) :
    Comparable base dir := by
  rcases hchild with habove | hbelow
  · exact .inl ((List.prefix_append dir [name]).trans habove)
  · rcases List.prefix_concat_iff.1 hbelow with hsame | hbelow
    · exact .inl (hsame ▸ List.prefix_append dir [name])
    · exact .inr hbelow

/-- Where an object may stand that is found for a place. -/
def Fits (base here other : Place) : Prop :=
  other = here ∨ base <+: here ∧ base <+: other

theorem Fits.child {name : String} (hfits : Fits base dir other) :
    Fits base (dir ++ [name]) (other ++ [name]) := by
  rcases hfits with rfl | ⟨hdir, hother⟩
  · exact .inl rfl
  · exact .inr ⟨hdir.trans (List.prefix_append dir [name]),
      hother.trans (List.prefix_append other [name])⟩

/-- An object that stands for an item is found for a place that it fits. -/
theorem stands_of_item (hfits : Fits base here other) {x : Item}
    (hplace : c.tree.place object = some other) (hitem : c.tree.item other = some x) :
    c.Stands here object where
  inside := by
    intro hhere
    have hother : base <+: other := by
      rcases hfits with rfl | ⟨-, hother⟩
      · exact hhere
      · exact hother
    refine ⟨c.meets hplace hother, ready_of_item hitem hother, fun {place} hplace' => ?_⟩
    rw [hplace] at hplace'
    exact Option.some.inj hplace' ▸ hother
  above := by
    intro hhere
    rcases hfits with rfl | ⟨hhere', -⟩
    · exact ⟨hplace, hitem ▸ Option.some_ne_none x⟩
    · exact (hhere hhere').elim

/-- The place of an object fits the place that the object is found for. -/
theorem Stands.fits (hstands : c.Stands here object) (hplace : c.tree.place object = some other) :
    Fits base here other := by
  by_cases hhere : base <+: here
  · exact .inr ⟨hhere, (hstands.inside hhere).inside hplace⟩
  · rw [(hstands.above hhere).1] at hplace
    exact .inl (Option.some.inj hplace).symm

theorem Stands.mono (hcomparable : Comparable base here) (hstands : c.Stands here object)
    (hkeeps : Keeps c c') : c'.Stands here object where
  inside hhere := (hstands.inside hhere).mono hkeeps
  above := by
    intro hhere
    have habove : here <+: base := hcomparable.resolve_right hhere
    have hne : here ≠ base := fun hsame => hhere (hsame ▸ List.prefix_rfl)
    obtain ⟨hplace, hitem⟩ := hstands.above hhere
    refine ⟨hkeeps.tree.above habove hne hitem hplace, ?_⟩
    obtain ⟨x, hx⟩ := Option.ne_none_iff_exists'.1 hitem
    rw [hkeeps.tree.item_of_item hhere hx]
    exact Option.some_ne_none x

end Chronicle

open Chronicle

/-- A mount over a tree. The names in the tree at the start and those on the way to the base are shown
    as they are. -/
structure Fence where
  mount : Mount
  start : Tree
  plain : ∀ {dir name x}, start.item (dir ++ [name]) = some x → mount.mapping.apply name = name
  base : ∀ name ∈ mount.base.place, mount.mapping.apply name = name

namespace Fence

variable (fence : Fence)

/-- The tree has changed since the start as is allowed. -/
def Reached (c : Chronicle fence.mount.base.place) : Prop :=
  Tree.Keeps fence.mount.base.place fence.start c.tree

/-- Callers may share the listings of the base, of what lies below it and of what it lies in. -/
def accord : Accord (fenced fence.mount.base.place) where
  Leads := Chronicle.Keeps
  refl := Chronicle.Keeps.refl
  trans := Chronicle.Keeps.trans
  listed := by
    rintro plan c answer c' ⟨⟨hsame, -⟩, hmet⟩
    exact ⟨hsame ▸ Tree.Keeps.refl _ _, hmet⟩
  Drops := True
  Does := Chronicle.Keeps
  does := id
  Shareable plan c := fence.Reached c ∧ plan.mapping = fence.mount.mapping ∧
    Comparable fence.mount.base.place plan.dir.place ∧ c.Stands plan.dir.place plan.object
  shareable_mono := by
    rintro plan c c' ⟨hreached, hmapping, hcomparable, hstands⟩ hkeeps
    exact ⟨hreached.trans hkeeps.tree, hmapping, hcomparable, hstands.mono hcomparable hkeeps⟩
  Accepts _ _ := True
  Since _ := Chronicle.Keeps
  since_refl _ := Chronicle.Keeps.refl
  since_trans := Chronicle.Keeps.trans

variable {fence} {c : Chronicle fence.mount.base.place} {dir : Place} {name : String} {x : Item}

/-- The names in a directory that the base lies in are shown as they are. -/
theorem plain_of_item (hreached : fence.Reached c) (hdir : dir <+: fence.mount.base.place)
    (hne : dir ≠ fence.mount.base.place) (hitem : c.tree.item (dir ++ [name]) = some x) :
    fence.mount.mapping.apply name = name := by
  have hbase : dir ++ [name] <+: fence.mount.base.place → fence.mount.mapping.apply name = name :=
    fun hbelow => fence.base name (hbelow.subset (by simp))
  by_cases hchild : fence.mount.base.place <+: dir ++ [name]
  · rcases List.prefix_concat_iff.1 hchild with hsame | hbelow
    · exact hbase (hsame ▸ List.prefix_rfl)
    · exact (not_prefix_of_above hdir hne hbelow).elim
  · rcases hreached.item hchild with hsame | ⟨-, hbelow, -⟩
    · exact fence.plain (hsame ▸ hitem)
    · exact hbase hbelow

end Fence

end VirtualFs
