import VirtualFs.Lookup

namespace VirtualFs.Mount

open Operation

/-- Find a directory's parent, making it with `make` if it does not exist. -/
def findOrMake (find make : Operation Entry) : Operation Entry := do
  match ← attempt find with
  | .ok entry => pure entry
  | .error failure => if failure.leadsNowhere then make else fail failure

/-- Ask the backend for a new directory. Only the reporting form says which object it made. -/
def create (parent : Entry) (name : Segment) : Form → Operation (Option Object)
  | .reporting => ask (.makeDirReporting parent.object name.text)
  | .plain => do
    ask (.makeDir parent.object name.text)
    pure none

/-- Make a directory below its parent. If the backend refuses, another caller may have been faster,
    so the refusal only counts if the directory is still not there. -/
def createIn (mount : Mount) (parent : Entry) (dir : Path) (name : Segment) : Operation Entry := do
  let offer ← offer
  let form ← require offer.makeDirForm
  let entry ← match ← attempt (create parent name form) with
    | .ok (some object) => pure ⟨name.text, object⟩
    | .ok none => mount.listAfresh parent dir name
    | .error failure =>
      match ← attempt (mount.listAfresh parent dir name) with
      | .ok entry =>
        if entry.isDir then
          log (.createReconciled (.child dir name) failure)
          pure entry
        else fail failure
      | .error _ => fail failure
  log (.directoryReady (.child dir name))
  pure entry

/-- Make sure that a directory and all above it exist, outermost first. -/
def makeDirs (mount : Mount) : Path → Operation Entry
  | .root => mount.lookup .root
  | .child dir name => do
    match ← attempt (mount.lookup (.child dir name)) with
    | .ok entry =>
      if entry.isDir then pure entry
      else fail (Failure.during (Cause.notADirectory : Failure) (Path.child dir name).text)
    | .error failure =>
      if failure.leadsNowhere then
        let parent ← findOrMake (mount.lookup dir) (mount.makeDirs dir)
        mount.createIn parent dir name
      else fail failure

end VirtualFs.Mount
