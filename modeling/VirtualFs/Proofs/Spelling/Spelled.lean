import VirtualFs.Call
import VirtualFs.Proofs.Spelling.Parted

namespace VirtualFs

open Operation

variable {α β : Type}

/-- Go on with a name as one step of a path. Nothing is found under a name that is none. -/
def withStep (name : String) (next : Segment → Operation α) : Operation α :=
  if h : Usable name then next ⟨name, h⟩ else fail (Cause.notFound : Failure)

theorem withStep_text (name : Segment) (next : Segment → Operation α) :
    withStep name.text next = next name := by
  rw [withStep, dif_pos name.usable]

/-- Where a result is already known, only what is done with that one counts. -/
theorem require_bind_congr {known : Except Failure α} {f g : α → Operation β}
    (hsame : ∀ value, known = .ok value → f value = g value) :
    (require known >>= f) = require known >>= g := by
  cases known with
  | error failure => rfl
  | ok value => exact hsame value rfl

namespace Mount

variable (mount : Mount)

/-- Look a spelling up: that of the root by itself, any other in a listing of what is in front of
    its last separator. -/
def lookupBy (list : String → Operation (List Entry)) (path : String) : Operation Entry :=
  mount.direct (Path.ofString path) <|
    if path = "/" then mount.describeRoot
    else do
      let entries ← during "failed get parent list" (list (Path.split path).1)
      withStep (Path.split path).2 (fun name => require (pick name entries))

def listBy (lookup : String → Operation Entry) (dir : String) : Operation (List Entry) :=
  mount.listFound (Path.ofString dir) (lookup dir)

/-- Make sure that a directory exists, and before it what is in front of the last separator. -/
def makeDirsBy (lookup makeDirs : String → Operation Entry) (dir : String) : Operation Entry :=
  if dir = "/" then lookup dir
  else do
    match ← attempt (lookup dir) with
    | .ok entry =>
      if entry.isDir then pure entry
      else fail (Failure.during (Cause.notADirectory : Failure) dir)
    | .error failure =>
      if failure.leadsNowhere then
        let parent ← findOrMake (lookup (Path.split dir).1) (makeDirs (Path.split dir).1)
        withStep (Path.split dir).2 (mount.createIn parent (Path.ofString (Path.split dir).1))
      else fail failure

theorem lookupBy_congr {list list' : String → Operation (List Entry)} {path : String}
    (hlist : path ≠ "/" → list (Path.split path).1 = list' (Path.split path).1) :
    mount.lookupBy list path = mount.lookupBy list' path := by
  rw [lookupBy, lookupBy]
  split
  case isTrue => rfl
  case isFalse hpath => rw [hlist hpath]

theorem listBy_congr {lookup lookup' : String → Operation Entry} {dir : String}
    (hlookup : lookup dir = lookup' dir) : mount.listBy lookup dir = mount.listBy lookup' dir := by
  rw [listBy, listBy, hlookup]

theorem makeDirsBy_congr {lookup lookup' makeDirs makeDirs' : String → Operation Entry}
    {dir : String} (hlookup : lookup dir = lookup' dir)
    (hparent : dir ≠ "/" → lookup (Path.split dir).1 = lookup' (Path.split dir).1)
    (hmakeDirs : dir ≠ "/" → makeDirs (Path.split dir).1 = makeDirs' (Path.split dir).1) :
    mount.makeDirsBy lookup makeDirs dir = mount.makeDirsBy lookup' makeDirs' dir := by
  rw [makeDirsBy, makeDirsBy, hlookup]
  split
  case isTrue => rfl
  case isFalse hdir => rw [hparent hdir, hmakeDirs hdir]

/-- On canonical spellings, what looks up spellings is what looks up paths. -/
theorem lookupBy_text (path : Path) :
    mount.lookupBy (fun dir => mount.list (Path.ofString dir)) path.text = mount.lookup path := by
  rw [lookupBy, Path.ofString_text]
  cases path with
  | root => rw [if_pos (show Path.root.text = "/" from rfl), lookup]
  | child dir name =>
    rw [if_neg (Path.text_child_ne_root dir name), Path.split_text_child]
    simp only [withStep_text, Path.ofString_text]
    rfl

theorem makeDirsBy_text (path : Path) :
    mount.makeDirsBy (fun dir => mount.lookup (Path.ofString dir))
      (fun dir => mount.makeDirs (Path.ofString dir)) path.text = mount.makeDirs path := by
  rw [makeDirsBy, Path.ofString_text]
  cases path with
  | root => rw [if_pos (show Path.root.text = "/" from rfl), makeDirs]
  | child dir name =>
    rw [if_neg (Path.text_child_ne_root dir name), Path.split_text_child]
    simp only [withStep_text, Path.ofString_text]
    rfl

/-- The spelling that a caller's name stands for. -/
def spell (name : String) : String :=
  (Path.join mount.base.text name).text

/-- Remove what a spelling leads to, if it is looked up in some way. -/
def deleteBy (lookup : String → Operation Entry) (path : String) : Operation Unit := do
  match ← attempt (lookup path) with
  | .ok entry =>
    let offer ← offer
    require offer.requireRemove
    during ("failed to remove [" ++ path ++ "]") (ask (.remove entry.object))
  | .error failure =>
    if failure.leadsNowhere then log (.deleteOfMissing (Path.ofString path))
    else fail (failure.during "failed to get object")

/-- Read from what a spelling leads to, if it is looked up in some way. -/
def readBy (lookup : String → Operation Entry) (path : String) (offset length : UInt64) :
    Operation Stream := do
  let file ← during ("failed to get file [" ++ path ++ "]") (lookup path)
  if file.isDir then fail (Failure.during (Cause.notAFile : Failure) path)
  else
    let link ← during ("failed to link [" ++ path ++ "]") (ask (.link file.object))
    let readable ← during ("failed get [" ++ path ++ "] stream")
      (Readable.ofLink file mount.opener link)
    readable.read ⟨offset, some length⟩

/-- Store a file under a spelling, if the directory in front of its last separator is made in some
    way. -/
def writeBy (makeDirs : String → Operation Entry) (path : String) (content : List UInt8) :
    Operation Unit :=
  if path = mount.base.text then fail (Failure.during (Cause.notAFile : Failure) path)
  else do
    let offer ← offer
    let form ← require offer.putForm
    let time ← now
    let size := UInt64.ofNat content.length
    let object : Object := { name := (Path.split path).2, size, modified := time, created := time }
    let parent ← during ("failed to make dir [" ++ (Path.split path).1 ++ "]")
      (makeDirs (Path.split path).1)
    during ("failed to put [" ++ path ++ "]")
      (ask (.put form parent.object ⟨object, content⟩ (Path.ofString path)))

/-- Build a mount, if its base directory is made in some way. -/
def buildBy (makeDirs : Mount → String → Operation Entry) (number : Nat) (config : Config)
    (opener : Option Opener) : Operation Mount := do
  let config ← require config.checked
  let mount := ofConfig number config opener
  let offer ← offer
  log (.preparing mount.base offer.capabilities)
  let _ ← during ("failed to make dir [" ++ config.baseDir ++ "]") (makeDirs mount config.baseDir)
  log (.ready mount.base)
  pure mount

/-- Open a backend, then build a mount over it in some way. -/
def openBy (build : Operation Mount) (settings : String) : Operation Mount := do
  let value ← require (Json.decoded (Json.Value.ofText? settings))
  log (.initializing (({} : Redaction).render value))
  let credentials ← require (Json.decoded (Credentials.ofValue? value))
  during "failed to init storage" (ask (.connect credentials))
  build

variable {mount}

theorem deleteBy_congr {lookup lookup' : String → Operation Entry} {path : String}
    (hlookup : lookup path = lookup' path) : deleteBy lookup path = deleteBy lookup' path := by
  rw [deleteBy, deleteBy, hlookup]

theorem readBy_congr {lookup lookup' : String → Operation Entry} {path : String}
    (hlookup : lookup path = lookup' path) (offset length : UInt64) :
    mount.readBy lookup path offset length = mount.readBy lookup' path offset length := by
  rw [readBy, readBy, hlookup]

theorem writeBy_congr {makeDirs makeDirs' : String → Operation Entry} {path : String}
    (hmakeDirs : makeDirs (Path.split path).1 = makeDirs' (Path.split path).1)
    (content : List UInt8) :
    mount.writeBy makeDirs path content = mount.writeBy makeDirs' path content := by
  rw [writeBy, writeBy, hmakeDirs]

theorem buildBy_congr {makeDirs makeDirs' : Mount → String → Operation Entry} {config : Config}
    (hmakeDirs : ∀ mount config', config.checked = .ok config' →
      makeDirs mount config'.baseDir = makeDirs' mount config'.baseDir)
    (number : Nat) (opener : Option Opener) :
    buildBy makeDirs number config opener = buildBy makeDirs' number config opener := by
  refine require_bind_congr fun config' hchecked => ?_
  dsimp only
  rw [hmakeDirs _ config' hchecked]

/-- On the spellings of callers' names, the operations on spellings are those on paths. -/
theorem deleteBy_text (name : String) :
    deleteBy (fun path => mount.lookup (Path.ofString path)) (mount.spell name) =
      mount.delete name := by
  rw [deleteBy, spell, Path.ofString_text]
  rfl

theorem readBy_text (name : String) (offset length : UInt64) :
    mount.readBy (fun path => mount.lookup (Path.ofString path)) (mount.spell name) offset length =
      mount.read name offset length := by
  rw [readBy, spell, Path.ofString_text]
  rfl

theorem writeBy_text (name : String) (content : List UInt8) :
    mount.writeBy (fun dir => mount.makeDirs (Path.ofString dir)) (mount.spell name) content =
      mount.write name content := by
  have hspell : mount.spell name = (mount.pathOf name).text := rfl
  rw [writeBy, write, hspell]
  cases hpath : mount.pathOf name with
  | root =>
    have hbase : Path.root = mount.base := (Path.join_eq_root_iff.1 hpath).1.symm
    rw [if_pos (congrArg Path.text hbase)]
  | child dir base =>
    dsimp only
    by_cases hbase : dir.child base = mount.base
    · rw [if_pos hbase, if_pos (congrArg Path.text hbase)]
    · rw [if_neg hbase, if_neg (Path.text_injective.ne hbase), Path.split_text_child,
        Path.ofString_text, Path.ofString_text]

theorem buildBy_text (number : Nat) (config : Config) (opener : Option Opener) :
    buildBy (fun mount dir => mount.makeDirs (Path.ofString dir)) number config opener =
      build number config opener := by
  refine require_bind_congr fun config' hchecked => ?_
  have hbase : (ofConfig number config' opener).base.text = config'.baseDir := by
    rw [Config.eq_of_checked hchecked]
    exact Path.clean_eq_self_iff.2 (Path.canonical_text _)
  dsimp only
  rw [hbase]
  rfl

end Mount

end VirtualFs
