import VirtualFs.Proofs.Guide.Assured
import VirtualFs.Proofs.Making.Write
import VirtualFs.Proofs.World.Along

namespace VirtualFs

/-- The object in which something is to be made or stored. -/
def Request.directory? : Request → Option Object
  | makeDir parent _ => some parent
  | makeDirReporting parent _ => some parent
  | put _ dir _ _ => some dir
  | _ => none

theorem Request.changes_of_directory? {request : Request} {object : Object}
    (hdirectory : request.directory? = some object) : request.Changes := by
  cases request with
  | makeDir => trivial
  | makeDirReporting => trivial
  | put => trivial
  | _ => cases hdirectory

@[simp] theorem Request.directory?_creating (parent : Object) (name : String) (form : Form) :
    (creating parent name form).directory? = some parent := by
  cases form <;> rfl

/-- An operation that has these acts behind it has failed for a cause, and does nothing more. -/
def Operation.StopsFor {α : Type} (operation : Operation α) (past : List Act) (cause : Cause) :
    Prop :=
  ∀ {more rest}, operation.run.Goes (past ++ more) rest →
    more = [] ∧ ∃ failure : Failure, rest = .done (.error failure) ∧ failure.cause = cause

theorem Operation.Returns.stopsFor {α : Type} {operation : Operation α} {past : List Act}
    {failure : Failure} (hreturns : operation.Returns past (.error failure)) :
    operation.StopsFor past failure.cause := by
  intro more rest hgoes
  obtain ⟨hmore, hrest⟩ := hgoes.ended hreturns
  exact ⟨hmore, failure, hrest, rfl⟩

namespace Mount

open Operation

/-- The last acts have led to an entry that is taken for a directory without a look at what it is:
    the root, a parent that turned up after its child was not found, an object that a backend
    reported, or what a listing shows under a name after a backend said that the directory is made.
    Another look at what the backend offers may follow. -/
inductive OnTrust (mount : Mount) : List Act → Entry → Prop
  | root {past : List Act} {entry : Entry} (lookup : (mount.lookup .root).Returns past (.ok entry)) :
      OnTrust mount past entry
  | above {path : Path} {name : Segment} {first second : List Act} {entry : Entry}
      (misses : mount.Misses (path.child name) first)
      (lookup : (mount.lookup path).Returns second (.ok entry)) :
      OnTrust mount (first ++ second) entry
  | reported {parent object : Object} {dir : Path} {name : Segment} {form : Form}
      {create : Exchange} (creates : Creates parent name.text form create (.ok (some object))) :
      OnTrust mount [.asked create, .noted (.directoryReady (dir.child name))] ⟨name.text, object⟩
  | listed {parent : Object} {dir : Path} {name : Segment} {form : Form}
      {create recheck : Exchange} {entry : Entry}
      (creates : Creates parent name.text form create (.ok none))
      (relists : mount.Relists parent name recheck entry) :
      OnTrust mount [.asked create, .asked recheck, .noted (.directoryReady (dir.child name))] entry
  | after (first : List Act) {second : List Act} {entry : Entry}
      (trusted : OnTrust mount second entry) : OnTrust mount (first ++ second) entry
  | looked {past : List Act} {entry : Entry} {offer : Offer} (trusted : OnTrust mount past entry) :
      OnTrust mount (past ++ [.looked offer]) entry

/-- An object in which something is made or stored is a directory by its own word, or the last acts
    have led to it and it is taken for one on trust. -/
def TakenForDir (mount : Mount) (past : List Act) (object : Object) : Prop :=
  ∃ entry : Entry, entry.object = object ∧ (entry.isDir = true ∨ mount.OnTrust past entry)

/-- A lookup has come upon a file, at the path itself or above it. -/
def MeetsFile : Except Failure Entry → Prop
  | .ok entry => entry.isDir = false
  | .error failure => failure.cause = .notADirectory

instance : DecidablePred MeetsFile
  | .ok entry => inferInstanceAs (Decidable (entry.isDir = false))
  | .error failure => inferInstanceAs (Decidable (failure.cause = .notADirectory))

/-- The acts on the way to a directory have come upon a file, and the cause for which they end. The
    file was met when the directory was looked up, or above it when its parent was, which is found
    on trust. Where neither was found, the same may happen on the way to the parent. Last, a file may
    be what the backend shows after it has refused the directory, and then the refusal counts. -/
inductive ComesUponFile (mount : Mount) : Path → List Act → Cause → Prop
  | here {dir : Path} {name : Segment} {past : List Act} {found : Except Failure Entry}
      (lookup : (mount.lookup (dir.child name)).Returns past found) (meets : MeetsFile found) :
      ComesUponFile mount (dir.child name) past .notADirectory
  | parent {dir : Path} {name : Segment} {first second : List Act} {failure : Failure}
      (misses : mount.Misses (dir.child name) first)
      (lookup : (mount.lookup dir).Returns second (.error failure))
      (cause : failure.cause = .notADirectory) :
      ComesUponFile mount (dir.child name) (first ++ second) .notADirectory
  | above {dir : Path} {name : Segment} {first second third : List Act} {cause : Cause}
      (misses : mount.Misses (dir.child name) first) (missesDir : mount.Misses dir second)
      (comes : ComesUponFile mount dir third cause) :
      ComesUponFile mount (dir.child name) (first ++ (second ++ third)) cause
  | refused {dir : Path} {name : Segment} {first second : List Act} {parent entry : Entry}
      {offer : Offer} {form : Form} {create recheck : Exchange} {failure : Failure}
      (misses : mount.Misses (dir.child name) first)
      (climb : (findOrMake (mount.lookup dir) (mount.makeDirs dir)).Returns second (.ok parent))
      (offered : offer.makeDirForm = .ok form)
      (creates : Creates parent.object name.text form create (.error failure))
      (relists : mount.Relists parent.object name recheck entry) (isFile : entry.isDir = false) :
      ComesUponFile mount (dir.child name)
        (first ++ (second ++ [.looked offer, .asked create, .asked recheck])) failure.cause

variable {mount : Mount} {path dir : Path} {name : Segment} {parent entry : Entry}
  {past : List Act} {request : Request} {object : Object} {found : Except Failure Entry}
  {cause : Cause}

/-- A directory that was climbed to is one by its own word, or it was taken on trust. -/
theorem Climbed.isDir_or_onTrust (hclimbed : mount.Climbed path past entry) :
    entry.isDir = true ∨ mount.OnTrust past entry := by
  induction hclimbed with
  | root lookup => exact .inr (.root lookup)
  | found lookup isDir => exact .inl isDir
  | above misses lookup => exact .inr (.above misses lookup)
  | after _ _ _ ih => exact ih.imp_right (.after _)
  | made climbed makes _ =>
    cases makes with
    | @reported offer _ _ _ _ creates =>
      exact .inr (.after _ (.after [.looked offer] (.reported creates)))
    | @listed offer _ _ _ _ _ creates relists =>
      exact .inr (.after _ (.after [.looked offer] (.listed creates relists)))
    | reconciled _ creates relists isDir => exact .inl isDir

theorem TakenForDir.after (first : List Act) {second : List Act}
    (htaken : mount.TakenForDir second object) : mount.TakenForDir (first ++ second) object := by
  obtain ⟨entry, hentry, hdir⟩ := htaken
  exact ⟨entry, hentry, hdir.imp_right (.after first)⟩

/-- On the way to a path, each directory is made in one that was climbed to. -/
theorem takenForDir_of_makeDirs_issues (hissues : (mount.makeDirs path).Issues past request)
    (hdirectory : request.directory? = some object) : mount.TakenForDir past object := by
  obtain ⟨above, name, climb, parent, offer, form, rfl, -, hclimbed, -, rfl⟩ :=
    climbed_of_makeDirs_issues hissues (Request.changes_of_directory? hdirectory)
  rw [Request.directory?_creating] at hdirectory
  exact ⟨parent, Option.some.inj hdirectory, hclimbed.isDir_or_onTrust.imp_right .looked⟩

/-- The content of a write is stored in the directory that was climbed to. -/
theorem takenForDir_of_write_issues {target : String} {content : List UInt8}
    (hissues : (mount.write target content).Issues past request)
    (hdirectory : request.directory? = some object) : mount.TakenForDir past object := by
  obtain ⟨dir, base, offer, form, time, climb, -, -, rfl, hmake | ⟨parent, hmade, rfl⟩⟩ :=
    issues_write hissues
  · exact (takenForDir_of_makeDirs_issues hmake hdirectory).after [_, _]
  · have htaken : mount.TakenForDir climb object :=
      ⟨parent, Option.some.inj hdirectory, (climbed_of_makeDirs hmade).isDir_or_onTrust⟩
    exact htaken.after [_, _]

/-- A mount asks for what it takes to make its base directory. -/
theorem issues_build {number : Nat} {config : Config} {opener : Option Opener}
    (hissues : (build number config opener).Issues past request) :
    ∃ first climb, past = first ++ climb ∧ ((ofConfig number config opener).makeDirs
      (ofConfig number config opener).base).Issues climb request := by
  rw [build, issues_require_bind] at hissues
  obtain ⟨checked, hchecked, hissues⟩ := hissues
  rw [ofConfig_of_checked hchecked] at hissues
  dsimp only at hissues
  rw [issues_offer_bind] at hissues
  obtain ⟨offer, rest, rfl, hissues⟩ := hissues
  rw [issues_log_bind] at hissues
  obtain ⟨rest, rfl, hissues⟩ := hissues
  rw [issues_bind, issues_during] at hissues
  rcases hissues with hmake | ⟨_, _, _, -, -, hready⟩
  · exact ⟨[_, _], rest, rfl, hmake⟩
  · obtain ⟨rest, -, hready⟩ := issues_log_bind.1 hready
    exact (not_issues_pure hready).elim

/-- Where a file is met, no directory is made. -/
theorem makeDirs_fails_of_meetsFile (hlookup : (mount.lookup (dir.child name)).Returns past found)
    (hmeets : MeetsFile found) :
    ∃ failure : Failure, (mount.makeDirs (dir.child name)).Returns past (.error failure) ∧
      failure.cause = .notADirectory := by
  cases found with
  | ok entry =>
    have hfile : entry.isDir = false := hmeets
    refine ⟨Failure.during (Cause.notADirectory : Failure) (dir.child name).text, ?_, rfl⟩
    rw [makeDirs]
    refine hlookup.attempt_bind_nil ?_
    dsimp only
    rw [hfile]
    exact returns_fail.2 ⟨rfl, rfl⟩
  | error failure =>
    have hcause : failure.cause = .notADirectory := hmeets
    refine ⟨failure, ?_, hcause⟩
    rw [makeDirs]
    refine hlookup.attempt_bind_nil ?_
    dsimp only
    rw [if_neg (by simp [Failure.leadsNowhere, hcause])]
    exact returns_fail.2 ⟨rfl, rfl⟩

/-- What fails after a directory was not found fails the making of the directory. -/
theorem makeDirs_fails_of_misses {first second : List Act} {failure : Failure}
    (hmisses : mount.Misses (dir.child name) first)
    (hfails : (findOrMake (mount.lookup dir) (mount.makeDirs dir) >>=
      (mount.createIn · dir name)).Returns second (.error failure)) :
    (mount.makeDirs (dir.child name)).Returns (first ++ second) (.error failure) := by
  obtain ⟨missed, hlookup, hnowhere⟩ := hmisses
  rw [makeDirs]
  refine hlookup.attempt_bind ?_
  dsimp only
  rwa [if_pos hnowhere]

/-- A directory that the backend refuses is not made in the place of a file. -/
theorem createIn_fails_of_refused {offer : Offer} {form : Form} {create recheck : Exchange}
    {failure : Failure} (hoffered : offer.makeDirForm = .ok form)
    (hcreates : Creates parent.object name.text form create (.error failure))
    (hrelists : mount.Relists parent.object name recheck entry) (hfile : entry.isDir = false) :
    (mount.createIn parent dir name).Returns [.looked offer, .asked create, .asked recheck]
      (.error failure) := by
  have hresolve : (mount.resolve parent dir name (.error failure)).Returns [.asked recheck]
      (.error failure) := by
    rw [resolve]
    refine (returns_listAfresh.2 ⟨recheck, rfl, hrelists⟩).attempt_bind_nil ?_
    dsimp only
    rw [hfile]
    exact returns_fail.2 ⟨rfl, rfl⟩
  rw [createIn_eq, returns_offer_bind]
  refine ⟨offer, _, rfl, returns_require_bind.2 (.inr ⟨form, hoffered, ?_⟩)⟩
  exact (returns_create.2 ⟨create, rfl, hcreates⟩).attempt_bind (hresolve.bind_error _)

/-- Acts that have come upon a file are the end of making a directory. By induction on the way. -/
theorem makeDirs_fails_of_comesUponFile (hcomes : mount.ComesUponFile path past cause) :
    ∃ failure : Failure, (mount.makeDirs path).Returns past (.error failure) ∧
      failure.cause = cause := by
  induction hcomes with
  | here lookup meets => exact makeDirs_fails_of_meetsFile lookup meets
  | @parent dir name first second failure misses lookup cause =>
    refine ⟨failure, makeDirs_fails_of_misses misses (Returns.bind_error ?_ _), cause⟩
    rw [findOrMake]
    refine lookup.attempt_bind_nil ?_
    dsimp only
    rw [if_neg (by simp [Failure.leadsNowhere, cause])]
    exact returns_fail.2 ⟨rfl, rfl⟩
  | @above dir name first second third cause misses missesDir _ ih =>
    obtain ⟨failure, hfails, hcause⟩ := ih
    obtain ⟨missed, hlookup, hnowhere⟩ := missesDir
    refine ⟨failure, makeDirs_fails_of_misses misses (Returns.bind_error ?_ _), hcause⟩
    rw [findOrMake]
    refine hlookup.attempt_bind ?_
    dsimp only
    rwa [if_pos hnowhere]
  | @refused dir name first second parent entry offer form create recheck failure misses climb
      offered creates relists isFile =>
    refine ⟨failure, makeDirs_fails_of_misses misses ?_, rfl⟩
    exact returns_bind.2 (.inr ⟨second, parent, _, rfl, climb,
      createIn_fails_of_refused offered creates relists isFile⟩)

/-- A write stops where the directory above its target cannot be made. -/
theorem write_stopsFor {target : String} {content : List UInt8} {base : Segment} {offer : Offer}
    {time : UInt64} {failure : Failure} (hpath : mount.pathOf target = dir.child base)
    (hfails : (mount.makeDirs dir).Returns past (.error failure)) :
    (mount.write target content).StopsFor (.looked offer :: .timed time :: past)
      failure.cause := by
  intro more rest hgoes
  rw [write, hpath] at hgoes
  dsimp only at hgoes
  split at hgoes
  · cases hgoes
  · obtain ⟨form, -, hgoes⟩ := goes_of_require_bind (goes_of_offer_bind hgoes)
    exact ((hfails.during _).bind_error _).stopsFor (goes_of_now_bind hgoes)

/-- A build stops where the base directory cannot be made. -/
theorem build_stopsFor {number : Nat} {config : Config} {opener : Option Opener} {offer : Offer}
    {event : LogEvent} {failure : Failure}
    (hfails : ((ofConfig number config opener).makeDirs (ofConfig number config opener).base).Returns
      past (.error failure)) :
    (build number config opener).StopsFor (.looked offer :: .noted event :: past)
      failure.cause := by
  intro more rest hgoes
  obtain ⟨checked, hchecked, hgoes⟩ := goes_of_require_bind hgoes
  rw [ofConfig_of_checked hchecked] at hgoes
  exact ((hfails.during _).bind_error _).stopsFor
    (goes_of_log_bind (goes_of_offer_bind hgoes))

/-- Whatever a backend answers, things are made and stored only in objects that are directories by
    their own word, or that were taken on trust. Where the way to a directory that is needed comes
    upon a file, nothing more is done. -/
theorem made_in_directory (mount : Mount) (number : Nat) (config : Config)
    (opener : Option Opener) :
    (∀ {target content past request object},
      (mount.write target content).Issues past request → request.directory? = some object →
        mount.TakenForDir past object) ∧
    (∀ {past request object},
      (build number config opener).Issues past request → request.directory? = some object →
        (ofConfig number config opener).TakenForDir past object) ∧
    (∀ {path past entry}, (mount.makeDirs path).Returns past (.ok entry) →
      entry.isDir = true ∨ mount.OnTrust past entry) ∧
    (∀ {path past cause}, mount.ComesUponFile path past cause →
      (mount.makeDirs path).StopsFor past cause) ∧
    (∀ {target content dir base offer time past cause}, mount.pathOf target = .child dir base →
      mount.ComesUponFile dir past cause →
        (mount.write target content).StopsFor (.looked offer :: .timed time :: past) cause) ∧
    ∀ {offer event past cause},
      (ofConfig number config opener).ComesUponFile (.ofString config.baseDir) past cause →
        (build number config opener).StopsFor (.looked offer :: .noted event :: past) cause := by
  refine ⟨takenForDir_of_write_issues, ?_,
    fun hreturns => (climbed_of_makeDirs hreturns).isDir_or_onTrust, ?_, ?_, ?_⟩
  · intro past request object hissues hdirectory
    obtain ⟨first, climb, rfl, hmake⟩ := issues_build hissues
    exact (takenForDir_of_makeDirs_issues hmake hdirectory).after first
  · intro path past cause hcomes
    obtain ⟨failure, hfails, rfl⟩ := makeDirs_fails_of_comesUponFile hcomes
    exact hfails.stopsFor
  · intro target content dir base offer time past cause hpath hcomes
    obtain ⟨failure, hfails, rfl⟩ := makeDirs_fails_of_comesUponFile hcomes
    exact write_stopsFor hpath hfails
  · intro offer event past cause hcomes
    obtain ⟨failure, hfails, rfl⟩ := makeDirs_fails_of_comesUponFile hcomes
    exact build_stopsFor hfails

section Runs

open Scenario

variable {σ α : Type}

/-- A run asks for something in a directory after some of its acts. -/
theorem exists_issues_of_acts (operation : Operation α) (service : Service σ) (state : σ)
    (known : Request → Bool) (n : Nat)
    (hasks : ((operation.run.acts service state)[n]?.bind Act.exchange?).any
      (fun exchange => exchange.request.directory?.isSome && known exchange.request) = true) :
    ∃ past request object, operation.Issues past request ∧ known request = true ∧
      request.directory? = some object := by
  obtain ⟨exchange, hact, hholds⟩ := Act.exists_asked_of_any hasks
  obtain ⟨hdirectory, hknown⟩ := Bool.and_eq_true_iff.1 hholds
  obtain ⟨object, hobject⟩ := Option.isSome_iff_exists.1 hdirectory
  have hgoes := Procedure.goes_acts service operation.run state
  exact ⟨_, exchange.request, object, Returns.issues_take hgoes hact, hknown, hobject⟩

/-- A run of a lookup that meets a file. -/
theorem comesUponFile_of_acts (service : Service σ) (state : σ) (hroot : path ≠ .root)
    (hmeets : MeetsFile ((mount.lookup path).run.alone service state).1) :
    mount.ComesUponFile path ((mount.lookup path).run.acts service state) .notADirectory := by
  cases path with
  | root => exact (hroot rfl).elim
  | child dir name => exact .here (Procedure.goes_acts service _ state) hmeets

/-- A store with a file at the top. -/
def fileAtTop : Store where
  nodes :=
    [⟨{ id := "/", path := "/", isFolder := true }, none, [], .data []⟩,
      ⟨{ id := "/f", path := "/f", name := "f" }, some "/", [7], .data [7]⟩]

/-- In a store that holds nothing a directory is made for a file, and then the file is stored in it.
    The same directory is made for a mount. Below a file nothing is made or stored. -/
theorem made_in_directory_runs :
    (∃ past request object, (plainMount.write "d/f" [7]).Issues past request ∧
      request.newDir?.isSome = true ∧ request.directory? = some object ∧
      plainMount.TakenForDir past object) ∧
    (∃ past request object, (plainMount.write "d/f" [7]).Issues past request ∧
      request.newDir?.isNone = true ∧ request.directory? = some object ∧
      plainMount.TakenForDir past object) ∧
    (∃ past request object, (build 0 { baseDir := "/d" } none).Issues past request ∧
      request.newDir?.isSome = true ∧ request.directory? = some object ∧
      (ofConfig 0 { baseDir := "/d" } none).TakenForDir past object) ∧
    (∃ past entry, (plainMount.makeDirs (.ofString "/d")).Returns past (.ok entry) ∧
      (entry.isDir = true ∨ plainMount.OnTrust past entry)) ∧
    (∃ past rest, (plainMount.makeDirs (.ofString "/f/g")).run.Goes past rest ∧
      (plainMount.makeDirs (.ofString "/f/g")).StopsFor past .notADirectory) ∧
    (∃ past rest, (plainMount.write "f/g/h" [7]).run.Goes past rest ∧
      (plainMount.write "f/g/h" [7]).StopsFor past .notADirectory) ∧
    ∃ past rest, (build 0 { baseDir := "/f/g" } none).run.Goes past rest ∧
      (build 0 { baseDir := "/f/g" } none).StopsFor past .notADirectory := by
  have hmakes := made_in_directory plainMount 0 { baseDir := "/d" } none
  have hmeets := made_in_directory plainMount 0 { baseDir := "/f/g" } none
  have hcomes : plainMount.ComesUponFile (.ofString "/f/g") _ .notADirectory :=
    comesUponFile_of_acts Store.service fileAtTop (by decide +kernel) (by decide +kernel)
  refine ⟨?_, ?_, ?_, ?_, ?_, ?_, ?_⟩
  · obtain ⟨past, request, object, hissues, hmade, hobject⟩ :=
      exists_issues_of_acts (plainMount.write "d/f" [7]) Store.service (World.bare []).store
        (fun request => request.newDir?.isSome) 11 (by decide +kernel)
    exact ⟨past, request, object, hissues, hmade, hobject, hmakes.1 hissues hobject⟩
  · obtain ⟨past, request, object, hissues, hstored, hobject⟩ :=
      exists_issues_of_acts (plainMount.write "d/f" [7]) Store.service (World.bare []).store
        (fun request => request.newDir?.isNone) 14 (by decide +kernel)
    exact ⟨past, request, object, hissues, hstored, hobject, hmakes.1 hissues hobject⟩
  · obtain ⟨past, request, object, hissues, hmade, hobject⟩ :=
      exists_issues_of_acts (build 0 { baseDir := "/d" } none) Store.service (World.bare []).store
        (fun request => request.newDir?.isSome) 11 (by decide +kernel)
    exact ⟨past, request, object, hissues, hmade, hobject, hmakes.2.1 hissues hobject⟩
  · let makeDirs := plainMount.makeDirs (.ofString "/d")
    have hgoes := makeDirs.run.goes_acts Store.service (World.bare []).store
    have hmade : (makeDirs.run.alone Store.service (World.bare []).store).1.isOk := by
      decide +kernel
    generalize (makeDirs.run.alone Store.service (World.bare []).store).1 = result at hgoes hmade
    cases result with
    | error failure => cases hmade
    | ok entry => exact ⟨_, entry, hgoes, hmakes.2.2.1 hgoes⟩
  · obtain ⟨failure, hfails, -⟩ := makeDirs_fails_of_comesUponFile hcomes
    exact ⟨_, _, hfails, hmeets.2.2.2.1 hcomes⟩
  · have htarget : plainMount.pathOf "f/g/h" = .child (.ofString "/f/g") ⟨"h", by decide⟩ := by
      decide +kernel
    have hacts : (plainMount.write "f/g/h" [7]).run.acts Store.service fileAtTop =
        .looked fileAtTop.offer :: .timed 0 ::
          (plainMount.lookup (.ofString "/f/g")).run.acts Store.service fileAtTop := by rfl
    have hgoes := (plainMount.write "f/g/h" [7]).run.goes_acts Store.service fileAtTop
    rw [hacts] at hgoes
    exact ⟨_, _, hgoes, hmeets.2.2.2.2.1 htarget hcomes⟩
  · let mount := ofConfig 0 { baseDir := "/f/g" } none
    have hcomes : mount.ComesUponFile (.ofString "/f/g") _ .notADirectory :=
      comesUponFile_of_acts Store.service fileAtTop (by decide +kernel) (by decide +kernel)
    have hacts : (build 0 { baseDir := "/f/g" } none).run.acts Store.service fileAtTop =
        .looked fileAtTop.offer ::
          .noted (.preparing (.ofString "/f/g") fileAtTop.offer.capabilities) ::
          (mount.lookup (.ofString "/f/g")).run.acts Store.service fileAtTop := by rfl
    have hgoes := (build 0 { baseDir := "/f/g" } none).run.goes_acts Store.service fileAtTop
    rw [hacts] at hgoes
    exact ⟨_, _, hgoes, hmeets.2.2.2.2.2 hcomes⟩

end Runs

section Race

open Scenario World

/-- A store with an empty directory. The listing of the directory waits for a gate when it is made,
    and the request for a directory below it waits for good. -/
def housed : Script where
  store :=
    { nodes :=
      [⟨{ id := "/", path := "/", isFolder := true }, none, [], .data []⟩,
        ⟨{ id := "/d", path := "/d", name := "d", isFolder := true }, some "/", [], .data []⟩] }
  rules := [⟨"list", "/d", 1, .after, some "listing", none⟩,
    ⟨"mkdir", "/d/e", 0, .before, some "never", none⟩]

/-- One caller looks for a directory in it, which others replace by a file in the meantime. -/
def raced : List Call := [.write "d/e/f" [7], .delete "d", .write "d" [8]]

def replaced : World Script.backend (Except Failure Answer) :=
  (gatherCalls ⟨housed, []⟩ plainMount raced).run
    [.turn 0, .turn 1, .turn 2,
      .change fun s => { s with state := { s.state with openGates := ["listing"] } }, .turn 0]

/-- A directory may be asked for in a file, if the file took the place of a directory in which
    nothing was found. -/
theorem made_in_file : ∃ object name flight next past,
    replaced.tasks[0]? = some (.asking (.makeDir object name) flight next) ∧
      ((Call.write "d/e/f" [7]).operation plainMount).Issues past (.makeDir object name) ∧
      object.isFolder = false := by
  have hasking : replaced.tasks[0]?.any (fun
      | .asking (.makeDir object _) _ _ => !object.isFolder
      | _ => false) = true := by
    decide +kernel
  obtain ⟨stage, hstage, hfile⟩ := (Option.any_eq_true _ _).1 hasking
  cases stage with
  | asking request flight next =>
    cases request with
    | makeDir object name =>
      have halong : replaced.Along (raced.map fun call => (call.operation plainMount).run) :=
        (along_gather _ _).run _
      obtain ⟨past, hgoes⟩ := halong (List.getElem?_map ..) hstage
      exact ⟨object, name, flight, next, past, hstage, ⟨next, hgoes⟩, by simpa using hfile⟩
    | _ => cases hfile
  | _ => cases hfile

end Race

end Mount

end VirtualFs
