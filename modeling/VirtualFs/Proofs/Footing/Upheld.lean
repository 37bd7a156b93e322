import VirtualFs.Proofs.Isolation.Fence

namespace VirtualFs

open VirtualFs.Chronicle

namespace Tree

/-- A place lies below another one. -/
def Below (base here : Place) : Prop :=
  base <+: here ∧ here ≠ base

/-- An object stands for nothing but what lies below a place. -/
def Beneath (t : Tree) (base : Place) (object : Object) : Prop :=
  ∀ {here}, t.place object = some here → Below base here

/-- What may become of a tree while nobody touches a place itself. Beside what is kept outside, the
    item at the place stays, and so do the objects that stand for it. Once there is an item, no object
    comes to stand for anything but what lies below it. -/
structure Upholds (base : Place) (t t' : Tree) : Prop extends Keeps base t t' where
  self : ∀ {x}, t.item base = some x → t'.item base = some x
  stays : ∀ {x object}, t.item base = some x → t.place object = some base →
    t'.place object = some base
  beneath : ∀ {x object}, t.item base = some x → t.Beneath base object → t'.Beneath base object

/-- An object that is found for a place on the way to a base or below it. Down to the base it stands
    for that very place, and it does not call itself a directory without reason. Further down it may
    come from anywhere below the base. -/
structure Rests (t : Tree) (base here : Place) (object : Object) : Prop where
  above : here <+: base → t.place object = some here ∧ (∃ x, t.item here = some x) ∧
    (object.isFolder = true → t.HasDir here)
  below : Below base here → (∃ x, t.item base = some x) ∧ t.Beneath base object

variable {base here other dir : Place} {name : String} {t t' t'' : Tree} {object : Object}
  {x : Item}

theorem below_concat_iff : Below base (dir ++ [name]) ↔ base <+: dir := by
  constructor
  · rintro ⟨hbase, hne⟩
    exact (List.prefix_concat_iff.1 hbase).resolve_left (fun hsame => hne hsame.symm)
  · intro hdir
    refine ⟨hdir.trans (List.prefix_append dir [name]), fun hsame => ?_⟩
    have hlength := hdir.length_le
    rw [← hsame, List.length_append, List.length_singleton] at hlength
    omega

/-- A step on the way to a base that is not in the base yet goes no further than the base. -/
theorem above_of_comparable (hcomparable : Comparable base (dir ++ [name]))
    (hdir : ¬ base <+: dir) : dir ++ [name] <+: base := by
  rcases hcomparable with habove | hbelow
  · exact habove
  · exact (List.prefix_concat_iff.1 hbelow).resolve_right hdir ▸ List.prefix_rfl

theorem Below.not_above (hbelow : Below base here) : ¬ here <+: base :=
  fun habove => hbelow.2 (habove.eq_of_length (Nat.le_antisymm habove.length_le hbelow.1.length_le))

theorem Below.trans (hbelow : Below base here) (hother : here <+: other) : Below base other :=
  ⟨hbelow.1.trans hother, by
    rintro rfl
    exact hbelow.not_above hother⟩

/-- Where there is an item, there is one at all places above. -/
theorem exists_item_above (hitem : t.item base = some x) (hhere : here <+: base) :
    ∃ y, t.item here = some y := by
  by_cases hsame : here = base
  · exact ⟨x, hsame ▸ hitem⟩
  · obtain ⟨y, hy, -⟩ := hasDir_above hitem hhere hsame
    exact ⟨y, hy⟩

namespace Upholds

theorem refl (base : Place) (t : Tree) : Upholds base t t :=
  ⟨Keeps.refl base t, id, fun _ => id, fun _ => id⟩

theorem trans (hfirst : Upholds base t t') (hlast : Upholds base t' t'') : Upholds base t t'' where
  toKeeps := hfirst.toKeeps.trans hlast.toKeeps
  self hitem := hlast.self (hfirst.self hitem)
  stays hitem hplace := hlast.stays (hfirst.self hitem) (hfirst.stays hitem hplace)
  beneath hitem hbeneath := hlast.beneath (hfirst.self hitem) (hfirst.beneath hitem hbeneath)

variable (hupholds : Upholds base t t')
include hupholds

theorem item_above (hhere : here <+: base) (hitem : t.item here = some x) :
    t'.item here = some x := by
  by_cases hsame : here = base
  · subst hsame
    exact hupholds.self hitem
  · exact hupholds.item_of_item (not_prefix_of_above hhere hsame) hitem

theorem hasDir_above (hhere : here <+: base) (hdir : t.HasDir here) : t'.HasDir here := by
  obtain ⟨x, hitem, hfolder⟩ := hdir
  exact ⟨x, hupholds.item_above hhere hitem, hfolder⟩

theorem place_above (hhere : here <+: base) (hitem : t.item here = some x)
    (hplace : t.place object = some here) : t'.place object = some here := by
  by_cases hsame : here = base
  · subst hsame
    exact hupholds.stays hitem hplace
  · exact hupholds.above hhere hsame (hitem ▸ Option.some_ne_none x) hplace

end Upholds

/-- A change below a place leaves the place itself alone. -/
theorem Changes.upholds (hchanges : t.Changes here t') (hhere : Below base here) :
    Upholds base t t' where
  toKeeps := hchanges.keeps hhere.1
  self hitem := by rwa [hchanges.item hhere.not_above]
  stays := by
    intro x object _ hplace
    rcases hchanges.place object with hsame | ⟨hinside, -⟩
    · rw [hsame, hplace]
    · exact (hhere.not_above (hinside hplace)).elim
  beneath := by
    intro x object _ hbeneath other hplace
    rcases hchanges.place object with hsame | ⟨-, hinside⟩
    · exact hbeneath (hsame ▸ hplace)
    · exact hhere.trans (hinside hplace)

/-- A directory that is missing at a place or above it is made. Nothing stands at the place then. -/
theorem Makes.upholds (hmakes : t.Makes here t') (hhere : here <+: base) : Upholds base t t' := by
  have hmissing : ∀ {x}, t.item base ≠ some x := by
    intro x hitem
    obtain ⟨y, hy⟩ := exists_item_above hitem hhere
    rw [hmakes.free] at hy
    cases hy
  exact ⟨hmakes.keeps hhere, fun hitem => (hmissing hitem).elim, fun hitem => (hmissing hitem).elim,
    fun hitem => (hmissing hitem).elim⟩

namespace Rests

theorem mono (hrests : t.Rests base here object) (hupholds : Upholds base t t') :
    t'.Rests base here object where
  above := by
    intro hhere
    obtain ⟨hplace, ⟨x, hitem⟩, hfolder⟩ := hrests.above hhere
    exact ⟨hupholds.place_above hhere hitem hplace, ⟨x, hupholds.item_above hhere hitem⟩,
      fun hisFolder => hupholds.hasDir_above hhere (hfolder hisFolder)⟩
  below := by
    intro hhere
    obtain ⟨⟨x, hitem⟩, hbeneath⟩ := hrests.below hhere
    exact ⟨⟨x, hupholds.self hitem⟩, hupholds.beneath hitem hbeneath⟩

/-- An object that is found for the base or for a place below it stands there. -/
theorem prefix_of_place (hrests : t.Rests base dir object) (hdir : base <+: dir) :
    (∃ x, t.item base = some x) ∧ ∀ {other}, t.place object = some other → base <+: other := by
  by_cases hsame : dir = base
  · subst hsame
    obtain ⟨hplace, hitem, -⟩ := hrests.above List.prefix_rfl
    refine ⟨hitem, fun {other} hother => ?_⟩
    rw [hplace] at hother
    exact Option.some.inj hother ▸ List.prefix_rfl
  · obtain ⟨hitem, hbeneath⟩ := hrests.below ⟨hdir, hsame⟩
    exact ⟨hitem, fun hother => (hbeneath hother).1⟩

/-- What stands at or above the base is found for its place. -/
theorem of_above (hhere : here <+: base) (hplace : t.place object = some here)
    (hitem : t.item here = some x) (hfolder : object.isFolder = true → t.HasDir here) :
    t.Rests base here object :=
  ⟨fun _ => ⟨hplace, ⟨x, hitem⟩, hfolder⟩, fun hbelow => (hbelow.not_above hhere).elim⟩

/-- What stands below the base is found for any place there. -/
theorem of_below (hhere : Below base here) (hitem : t.item base = some x)
    (hplace : t.place object = some other) (hother : Below base other) :
    t.Rests base here object := by
  refine ⟨fun habove => (hhere.not_above habove).elim, fun _ => ⟨⟨x, hitem⟩, fun hplace' => ?_⟩⟩
  rw [hplace] at hplace'
  exact Option.some.inj hplace' ▸ hother

end Rests

end Tree

end VirtualFs
