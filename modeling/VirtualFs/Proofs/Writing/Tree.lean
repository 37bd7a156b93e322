import Mathlib.Data.List.Induction
import Mathlib.Data.List.Infix
import VirtualFs.Proofs.Behaviour
import VirtualFs.Proofs.Path

namespace VirtualFs

/-- What stands at a place: an object and, if it is a file, its content. -/
structure Item where
  object : Object
  content : List UInt8

/-- What a backend holds, by place, and which place it takes an object for. Every item has its name
    and stands in a directory. -/
structure Tree where
  item : Place → Option Item
  place : Object → Option Place
  root : ∃ top, item [] = some top ∧ top.object.isFolder = true
  parent : ∀ {dir name x}, item (dir ++ [name]) = some x →
    ∃ above, item dir = some above ∧ above.object.isFolder = true
  named : ∀ {dir name x}, item (dir ++ [name]) = some x → x.object.name = name
  found : ∀ {here x}, item here = some x → place x.object = some here

namespace Tree

/-- There is a directory at a place. -/
def HasDir (t : Tree) (here : Place) : Prop :=
  ∃ x, t.item here = some x ∧ x.object.isFolder = true

/-- An object stands for a directory. -/
def IsDir (t : Tree) (object : Object) : Prop :=
  ∃ dir, t.place object = some dir ∧ t.HasDir dir

/-- Some objects are the children of a directory, each of them once. -/
structure Lists (t : Tree) (dir : Place) (objects : List Object) : Prop where
  distinct : (objects.map Object.name).Nodup
  mem : ∀ {object}, object ∈ objects ↔
    ∃ content, t.item (dir ++ [object.name]) = some ⟨object, content⟩

/-- One item is new at its place and the rest is as before. An object of a directory keeps its
    meaning. -/
structure Gains (t : Tree) (here : Place) (x : Item) (t' : Tree) : Prop where
  item : ∀ other, t'.item other = if other = here then some x else t.item other
  keeps : ∀ {object dir}, t.place object = some dir → t.HasDir dir → t'.place object = some dir

/-- What comes of asking for a directory in a directory. A name that is taken is refused, and an
    object that is reported stands for the new directory. -/
def MakesDir (t : Tree) (parent : Object) (name : String) (answer : Except Failure (Option Object))
    (t' : Tree) : Prop :=
  ∀ {dir}, t.place parent = some dir → t.HasDir dir →
    (t.item (dir ++ [name]) ≠ none → (∃ failure, answer = .error failure) ∧ t' = t) ∧
    (t.item (dir ++ [name]) = none → ∃ made? x, answer = .ok made? ∧ x.object.isFolder = true ∧
      t.Gains (dir ++ [name]) x t' ∧
      ∀ {made}, made? = some made → t'.place made = some (dir ++ [name]))

/-- The root can be found in the way that an offer prefers. -/
def ShowsRoot (t : Tree) (offer : Offer) : Prop :=
  ∃ source, offer.rootSource = .ok source ∧
    match source with
    | .asked => True
    | .id id => ∀ name modified, t.place { id, name, modified, isFolder := true } = some []
    | .path path => ∀ name modified, t.place { path, name, modified, isFolder := true } = some []

/-- How a backend behaves that holds a tree, stores files and makes directories, and finds no object
    by its path. Listings tell the children of the moment, a file takes the place of a file, and
    nothing fails without a reason. It is not asked to put a file in the place of a directory, or
    anything under a name that no path can have. -/
def behaviour : Behaviour Tree where
  Uses
    | .list _ _, _ => True
    | .makeDir parent name, t => Usable name ∧ t.IsDir parent
    | .makeDirReporting parent name, t => Usable name ∧ t.IsDir parent
    | .put _ parent upload _, t => Usable upload.object.name ∧ upload.object.isFolder = false ∧
      ∃ dir, t.place parent = some dir ∧ t.HasDir dir ∧ ¬ t.HasDir (dir ++ [upload.object.name])
    | .getRoot, _ => True
    | _, _ => False
  lists _ _ := trivial
  offers t offer := offer.get = false ∧ (∃ form, offer.putForm = .ok form) ∧
    (∃ form, offer.makeDirForm = .ok form) ∧ t.ShowsRoot offer
  permits
    | .list object _, t, answer, t' => t' = t ∧ ∀ {dir}, t.place object = some dir → t.HasDir dir →
      ∃ objects, answer = .ok objects ∧ t.Lists dir objects
    | .makeDir parent name, t, answer, t' => t.MakesDir parent name (answer.map (fun _ => none)) t'
    | .makeDirReporting parent name, t, answer, t' => t.MakesDir parent name answer t'
    | .put _ object upload _, t, answer, t' => ∀ {dir}, t.place object = some dir → t.HasDir dir →
      ¬ t.HasDir (dir ++ [upload.object.name]) → answer = .ok () ∧ ∃ file : Object,
        file.isFolder = false ∧ t.Gains (dir ++ [upload.object.name]) ⟨file, upload.content⟩ t'
    | .getRoot, t, answer, t' => t' = t ∧ ∃ object, answer = .ok object ∧
      object.isFolder = true ∧ t.place object = some []
    | _, _, _, _ => True

variable {t t' : Tree} {dir here : Place} {x : Item}

theorem hasDir_root (t : Tree) : t.HasDir [] := t.root

theorem not_hasDir_of_file (hitem : t.item here = some x) (hfile : x.object.isFolder = false) :
    ¬ t.HasDir here := by
  rintro ⟨y, hitem', hfolder⟩
  obtain rfl := Option.some.inj (hitem.symm.trans hitem')
  rw [hfile] at hfolder
  cases hfolder

/-- All above an item are directories. -/
theorem hasDir_above (hitem : t.item here = some x) (hbelow : dir <+: here) (hne : dir ≠ here) :
    t.HasDir dir := by
  induction here using List.reverseRecOn generalizing x with
  | nil => exact (hne (List.prefix_nil.1 hbelow)).elim
  | append_singleton here name ih =>
    obtain ⟨above, habove, hfolder⟩ := t.parent hitem
    rcases List.prefix_concat_iff.1 hbelow with hsame | hbelow
    · exact (hne hsame).elim
    · by_cases hdir : dir = here
      · exact hdir ▸ ⟨above, habove, hfolder⟩
      · exact ih habove hbelow hdir

end Tree

end VirtualFs
