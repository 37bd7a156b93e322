import VirtualFs.Proofs.Attentive.Behaviour
import VirtualFs.Proofs.Writing.Lookup

namespace VirtualFs

open VirtualFs.Tree

namespace Tree

/-- A file has come to a place, whatever was there before, and nothing outside has changed. -/
structure Stores (t : Tree) (here : Place) (content : List UInt8) (t' : Tree) : Prop
    extends t.Changes here t' where
  held : t'.HoldsFile here content

/-- Nothing is left at a place, and nothing outside has changed. -/
structure Clears (t : Tree) (here : Place) (t' : Tree) : Prop extends t.Changes here t' where
  gone : t'.item here = none

variable {t t' : Tree} {here : Place} {content : List UInt8}

theorem HoldsFile.not_hasDir (hfile : t.HoldsFile here content) : ¬ t.HasDir here := by
  obtain ⟨file, hitem, hplain⟩ := hfile
  exact not_hasDir_of_file hitem hplain

theorem not_hasDir_of_none (hnone : t.item here = none) : ¬ t.HasDir here := by
  rintro ⟨x, hitem, -⟩
  rw [hnone] at hitem
  cases hitem

end Tree

/-- A mount over a backend that keeps its objects at home. -/
structure Homing where
  mount : Mount
  home : Object → Option Place

namespace Homing

variable (homing : Homing)

/-- The names that lead to a place are shown as they are. -/
def Plain (here : Place) : Prop :=
  ∀ name ∈ here, homing.mount.mapping.apply name = name

/-- A tree has its objects at home and shows its names as they are. -/
structure Reached (t : Tree) : Prop where
  homed : t.Homed homing.home
  plain : ∀ {dir name x}, t.item (dir ++ [name]) = some x → homing.mount.mapping.apply name = name

variable {homing} {t t' : Tree} {here : Place} {dir : Path} {name : Segment} {object : Object}

theorem Plain.of_child (hplain : homing.Plain (dir.child name).place) : homing.Plain dir.place :=
  fun name hname => hplain name (List.mem_append_left _ hname)

theorem Plain.last {name : String} {dir : Place} (hplain : homing.Plain (dir ++ [name])) :
    homing.mount.mapping.apply name = name :=
  hplain name (by simp)

/-- Where there is no directory after a change, nothing new has come up but the place itself. -/
theorem Reached.of_changes (hreached : homing.Reached t) (hhomed : t'.Homed homing.home)
    (hplain : homing.Plain here) (hchanges : t.Changes here t') (hleaf : ¬ t'.HasDir here) :
    homing.Reached t' where
  homed := hhomed
  plain := by
    intro dir name x hitem
    by_cases hbelow : here <+: dir ++ [name]
    · by_cases hsame : here = dir ++ [name]
      · exact (hsame ▸ hplain).last
      · exact (hleaf (hasDir_above hitem hbelow hsame)).elim
    · rw [hchanges.item hbelow] at hitem
      exact hreached.plain hitem

theorem Reached.of_makes (hreached : homing.Reached t) (hhomed : t'.Homed homing.home)
    (hplain : homing.Plain here) (hmakes : t.Makes here t') : homing.Reached t' where
  homed := hhomed
  plain := by
    intro dir name x hitem
    by_cases hsame : dir ++ [name] = here
    · exact (hsame.symm ▸ hplain).last
    · rw [hmakes.rest hsame] at hitem
      exact hreached.plain hitem

section Effects

variable (hreached : homing.Reached t)
include hreached

/-- What comes of asking for a directory under an object of its parent's place. -/
theorem Reached.of_mayMake {answer : Except Failure (Option Object)} (hhomed : t'.Homed homing.home)
    (hplain : homing.Plain (dir.child name).place) (hhome : homing.home object = some dir.place)
    (hmakes : t.MayMake object name.text answer t') :
    homing.Reached t' ∧ (t' = t ∨ t.Makes (dir.child name).place t') ∧
      ∀ {made}, answer = .ok (some made) → homing.home made = some (dir.child name).place := by
  obtain ⟨hchange, hreport⟩ := hmakes
  have hdir : ∀ {other}, t.place object = some other → other = dir.place := by
    intro other hplace
    exact Option.some.inj ((hreached.homed.stands hplace).symm.trans hhome)
  refine ⟨?_, ?_, fun {made} hanswer => ?_⟩
  · rcases hchange with rfl | ⟨other, hplace, hmade⟩
    · exact hreached
    · obtain rfl := hdir hplace
      exact hreached.of_makes hhomed hplain hmade
  · rcases hchange with hsame | ⟨other, hplace, hmade⟩
    · exact .inl hsame
    · obtain rfl := hdir hplace
      exact .inr hmade
  · obtain ⟨other, hplace, -, hreported⟩ := hreport hanswer
    obtain rfl := hdir hplace
    exact hhomed.stands (hreported rfl)

/-- What comes of asking to store a file under an object of its directory's place. -/
theorem Reached.of_put {form : Form} {file : Object} {content : List UInt8} {target : Path}
    {answer : Except Failure Unit} (hplain : homing.Plain (dir.child name).place)
    (hhome : homing.home object = some dir.place) (hname : file.name = name.text)
    (hpermits : (attentive homing.home).permits (.put form object ⟨file, content⟩ target) t answer
      t') :
    homing.Reached t' ∧ (t' = t ∨ t.Stores (dir.child name).place content t') ∧
      (answer = .ok () → t'.HoldsFile (dir.child name).place content) := by
  obtain ⟨hkept, hchange, hheld, hdone⟩ := hpermits
  have hhomed := hkept hreached.homed
  have hdir : ∀ {other}, t.place object = some other →
      other ++ [file.name] = (dir.child name).place := by
    intro other hplace
    obtain rfl := Option.some.inj ((hreached.homed.stands hplace).symm.trans hhome)
    rw [hname, Path.place]
  have hstores : t' = t ∨ t.Stores (dir.child name).place content t' := by
    rcases hchange with hsame | ⟨other, hplace, hchanges⟩
    · exact .inl hsame
    · rcases hheld hplace with hsame | hfile
      · exact .inl hsame
      · exact .inr ⟨hdir hplace ▸ hchanges, hdir hplace ▸ hfile⟩
  refine ⟨?_, hstores, fun hanswer => ?_⟩
  · rcases hstores with rfl | hstores
    · exact hreached
    · exact hreached.of_changes hhomed hplain hstores.toChanges hstores.held.not_hasDir
  · obtain ⟨other, hplace, hfile⟩ := hdone hanswer
    exact hdir hplace ▸ hfile

/-- What comes of asking to remove what an object of a place stands for. -/
theorem Reached.of_remove {answer : Except Failure Unit} (hplain : homing.Plain here)
    (hhome : homing.home object = some here)
    (hpermits : (attentive homing.home).permits (.remove object) t answer t') :
    homing.Reached t' ∧ (t' = t ∨ t.Clears here t') := by
  obtain ⟨hkept, hchange, hgone⟩ := hpermits
  have hclears : t' = t ∨ t.Clears here t' := by
    rcases hchange with hsame | ⟨other, hplace, hchanges⟩
    · exact .inl hsame
    · obtain rfl := Option.some.inj ((hreached.homed.stands hplace).symm.trans hhome)
      exact (hgone hplace).1.imp id fun hnone => ⟨hchanges, hnone⟩
  refine ⟨?_, hclears⟩
  rcases hclears with rfl | hclears
  · exact hreached
  · exact hreached.of_changes (hkept hreached.homed) hplain hclears.toChanges
      (not_hasDir_of_none hclears.gone)

/-- What is picked from a listing is at home where its name leads. -/
theorem Reached.home_of_pick {objects : List Object} {entry : Entry}
    (hhome : homing.home object = some dir.place)
    (hobjects : objects = [] ∨ ∃ other, t.place object = some other ∧ t.Lists other objects)
    (hpick : Mount.pick name (objects.map (Entry.ofObject · homing.mount.mapping)) = .ok entry) :
    homing.home entry.object = some (dir.child name).place := by
  obtain ⟨other, child, content, hplace, hitem, hshown⟩ := exists_item_of_pick hobjects hpick
  obtain rfl := Option.some.inj ((hreached.homed.stands hplace).symm.trans hhome)
  rw [hreached.plain hitem] at hshown
  subst hshown
  exact hreached.homed.stands (t.found hitem)

end Effects

end Homing

end VirtualFs
