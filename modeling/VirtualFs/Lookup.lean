import VirtualFs.Config
import VirtualFs.Procedure

namespace VirtualFs

/-- A namespace that is ready for use. The number tells mounts apart that share a backend. -/
structure Mount where
  number : Nat
  base : Path
  rootName : String
  mapping : NameMapping
  opener : Option Opener

namespace Mount

open Operation

/-- The path that a caller's name means. It never leaves the base directory. -/
def pathOf (mount : Mount) (name : String) : Path :=
  Path.join mount.base.text name

/-- The name under which an object found at a path is shown. -/
def shownName (mount : Mount) : Path → String
  | .root => mount.rootName
  | .child _ name => name.text

/-- Ask a backend that finds objects by path, and fall back to the long way if it has no answer.
    Its failure says nothing about the path. -/
def direct (mount : Mount) (path : Path) (longWay : Operation Entry) : Operation Entry := do
  let offer ← offer
  if offer.get then
    match ← attempt (ask (.get path)) with
    | .ok object => pure ⟨mount.shownName path, object⟩
    | .error failure =>
      log (.directGetFailed path failure)
      longWay
  else longWay

/-- Describe the backend's root in the way that the backend offers. -/
def describeRoot (mount : Mount) : Operation Entry := do
  let offer ← offer
  let source ← require offer.rootSource
  log (.resolvingRoot source.capability)
  match source with
  | .asked =>
    let object ← during "failed get root obj" (ask .getRoot)
    pure ⟨mount.rootName, object⟩
  | .id id =>
    pure ⟨mount.rootName,
      { id, name := mount.rootName, modified := offer.modified, isFolder := true }⟩
  | .path path =>
    pure ⟨mount.rootName,
      { path, name := mount.rootName, modified := offer.modified, isFolder := true }⟩

/-- The entries of a directory that some operation finds. -/
def listFound (mount : Mount) (dir : Path) (find : Operation Entry) : Operation (List Entry) := do
  let entry ← find
  if entry.isDir then share ⟨mount.number, dir, entry.object, mount.mapping⟩
  else fail (Failure.during (Cause.notADirectory : Failure) dir.text)

/-- The first entry shown under a name. -/
def pick (name : Segment) (entries : List Entry) : Except Failure Entry :=
  match entries.find? (fun entry => entry.name = name.text) with
  | some entry => .ok entry
  | none => .error Cause.notFound

/-- The first entry shown under a name is that of the first object whose name is shown so. -/
theorem pick_map (mapping : NameMapping) (name : Segment) (objects : List Object) :
    pick name (objects.map (Entry.ofObject · mapping)) =
      match objects.find? (fun object => mapping.apply object.name = name.text) with
      | some object => .ok ⟨name.text, object⟩
      | none => .error Cause.notFound := by
  have hshown : objects.find? ((fun entry : Entry => decide (entry.name = name.text)) ∘
      (Entry.ofObject · mapping)) =
      objects.find? (fun object => mapping.apply object.name = name.text) := rfl
  rw [pick, List.find?_map, hshown]
  cases hfind : objects.find? (fun object => mapping.apply object.name = name.text) with
  | none => rfl
  | some object =>
    have hname : mapping.apply object.name = name.text := by simpa using List.find?_some hfind
    simp [Entry.ofObject, hname]

/-- Find the object at a path: the root by itself, anything else in a listing of its directory. -/
def lookup (mount : Mount) : Path → Operation Entry
  | .root => mount.direct .root mount.describeRoot
  | .child dir name =>
    mount.direct (.child dir name) do
      let entries ← during "failed get parent list" (mount.listFound dir (mount.lookup dir))
      require (pick name entries)

/-- The entries of the directory at a path. -/
def list (mount : Mount) (dir : Path) : Operation (List Entry) :=
  mount.listFound dir (mount.lookup dir)

/-- Look for a name with a listing of one's own. A shared listing may have begun before the caller's
    last change to the backend. -/
def listAfresh (mount : Mount) (parent : Entry) (dir : Path) (name : Segment) :
    Operation Entry := do
  let objects : List Object ←
    during (ListingPlan.attempt dir) (ask (.list parent.object true))
  require (pick name (objects.map (Entry.ofObject · mount.mapping)))

end Mount

end VirtualFs
