import VirtualFs.Proofs.Alone
import VirtualFs.Proofs.Isolation.Confined

namespace VirtualFs

/-- A link leads to some content: the content itself, or a reader that serves its ranges. -/
def Link.Serves (content : List UInt8) : Link → Prop
  | .data bytes => bytes = content
  | .reader source => ∀ range, source.read range = (Reader.memory content).read range
  | .url _ _ => False

namespace Tree

/-- An object stands for nothing but its home, and it does stand for it while a directory is there. So
    a directory that is removed and made again is found by the objects of old. -/
structure Homed (home : Object → Option Place) (t : Tree) : Prop where
  stands : ∀ {object here}, t.place object = some here → home object = some here
  found : ∀ {object here}, home object = some here → t.HasDir here → t.place object = some here

/-- There is a file with some content at a place. -/
def HoldsFile (t : Tree) (here : Place) (content : List UInt8) : Prop :=
  ∃ file : Object, t.item here = some ⟨file, content⟩ ∧ file.isFolder = false

/-- What a backend has to answer, and to do, that says nothing untrue. -/
def Attends (t : Tree) : (request : Request) → request.Answer → Tree → Prop
  | .list object _, answer, _ => ∀ {dir}, t.place object = some dir → t.HasDir dir →
    ∃ objects, answer = .ok objects ∧ t.Lists dir objects
  | .link file, answer, _ => ∀ {here x}, t.place file = some here → t.item here = some x →
    x.object.isFolder = false → ∃ link, answer = .ok link ∧ link.Serves x.content
  | .readRange reader range, answer, _ => answer = reader.read range
  | .remove object, answer, t' => ∀ {here}, t.place object = some here →
    (t' = t ∨ t'.item here = none) ∧ (answer = .ok () → t'.item here = none)
  | .put _ parent upload _, answer, t' =>
    (∀ {dir}, t.place parent = some dir →
      t' = t ∨ t'.HoldsFile (dir ++ [upload.object.name]) upload.content) ∧
    (answer = .ok () → ∃ dir, t.place parent = some dir ∧
      t'.HoldsFile (dir ++ [upload.object.name]) upload.content)
  | .getRoot, answer, _ => ∃ object, answer = .ok object ∧ object.isFolder = true ∧
    t.place object = some []
  | _, _, _ => True

/-- How a confined backend behaves that keeps its objects at home and says nothing untrue. It lists a
    directory that is there and links a file that is there. A removal or a store takes place as a whole
    or not at all, and if it is reported it has taken place. -/
def attentive (home : Object → Option Place) : Behaviour Tree where
  Uses _ _ := True
  lists _ _ := trivial
  offers t offer := offer.get = false ∧ t.ShowsRoot offer
  permits request t answer t' := (t.Homed home → t'.Homed home) ∧
    confined.permits request t answer t' ∧ t.Attends request answer t'

variable {home : Object → Option Place} {t : Tree} {here : Place}

/-- An attentive backend is confined. -/
theorem attentive_extends : (attentive home).Extends confined where
  uses := id
  offers := by
    rintro t offer ⟨hget, source, hsource, hroot⟩
    refine ⟨hget, fun {source'} hsource' => ?_⟩
    rw [hsource] at hsource'
    obtain rfl := Except.ok.inj hsource'
    exact hroot
  permits _ hpermits := hpermits.2.1

end Tree

end VirtualFs
