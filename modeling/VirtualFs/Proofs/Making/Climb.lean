import VirtualFs.Directories
import VirtualFs.Proofs.Path
import VirtualFs.Proofs.Recorded

namespace VirtualFs

/-- The request for a new directory in one of its two forms. -/
def Request.creating (parent : Object) (name : String) : Form → Request
  | .reporting => .makeDirReporting parent name
  | .plain => .makeDir parent name

namespace Mount

open Operation

/-- A backend was asked for a new directory and reported what it made, if it made it and says so. -/
inductive Creates (parent : Object) (name : String) :
    Form → Exchange → Except Failure (Option Object) → Prop
  | reporting (answer : Except Failure (Option Object)) :
      Creates parent name .reporting ⟨.makeDirReporting parent name, answer⟩ answer
  | plain (answer : Except Failure Unit) :
      Creates parent name .plain ⟨.makeDir parent name, answer⟩ (answer.map fun _ => none)

/-- A listing of one's own shows an entry under a name. -/
def Relists (mount : Mount) (parent : Object) (name : Segment) (exchange : Exchange)
    (entry : Entry) : Prop :=
  ∃ objects : List Object, exchange = ⟨.list parent true, .ok objects⟩ ∧
    pick name (objects.map (Entry.ofObject · mount.mapping)) = .ok entry

/-- The acts by which one directory is made below its parent, and the entry that they resolve to.
    Where the backend refuses, the recheck has to find a directory. -/
inductive Makes (mount : Mount) (parent : Entry) (dir : Path) (name : Segment) :
    List Act → Entry → Prop
  | reported {offer : Offer} {form : Form} {create : Exchange} {object : Object}
      (offered : offer.makeDirForm = .ok form)
      (creates : Creates parent.object name.text form create (.ok (some object))) :
      Makes mount parent dir name
        [.looked offer, .asked create, .noted (.directoryReady (dir.child name))]
        ⟨name.text, object⟩
  | listed {offer : Offer} {form : Form} {create recheck : Exchange} {entry : Entry}
      (offered : offer.makeDirForm = .ok form)
      (creates : Creates parent.object name.text form create (.ok none))
      (relists : mount.Relists parent.object name recheck entry) :
      Makes mount parent dir name
        [.looked offer, .asked create, .asked recheck, .noted (.directoryReady (dir.child name))]
        entry
  | reconciled {offer : Offer} {form : Form} {create recheck : Exchange} {entry : Entry}
      {failure : Failure} (offered : offer.makeDirForm = .ok form)
      (creates : Creates parent.object name.text form create (.error failure))
      (relists : mount.Relists parent.object name recheck entry) (isDir : entry.isDir = true) :
      Makes mount parent dir name
        [.looked offer, .asked create, .asked recheck,
          .noted (.createReconciled (dir.child name) failure),
          .noted (.directoryReady (dir.child name))]
        entry

/-- The acts by which a path was looked for and found to lead nowhere. -/
def Misses (mount : Mount) (path : Path) (past : List Act) : Prop :=
  ∃ failure : Failure, (mount.lookup path).Returns past (.error failure) ∧
    failure.leadsNowhere = true

/-- The acts that lead to the directory at a path, outermost directory first, and the entry that is
    taken for it. They begin with lookups, of the path and of paths below it, that lead nowhere.
    Below the first directory that was looked up, each one is made in the entry that the one before
    resolved to. -/
inductive Climbed (mount : Mount) : Path → List Act → Entry → Prop
  | root {past : List Act} {entry : Entry} (lookup : (mount.lookup .root).Returns past (.ok entry)) :
      Climbed mount .root past entry
  | found {path : Path} {past : List Act} {entry : Entry}
      (lookup : (mount.lookup path).Returns past (.ok entry)) (isDir : entry.isDir = true) :
      Climbed mount path past entry
  | above {path : Path} {name : Segment} {first second : List Act} {entry : Entry}
      (misses : mount.Misses (path.child name) first)
      (lookup : (mount.lookup path).Returns second (.ok entry)) :
      Climbed mount path (first ++ second) entry
  | after {path below : Path} {first second : List Act} {entry : Entry}
      (misses : mount.Misses below first) (isBelow : path.place <+: below.place)
      (climbed : Climbed mount path second entry) : Climbed mount path (first ++ second) entry
  | made {dir : Path} {name : Segment} {past step : List Act} {parent entry : Entry}
      (climbed : Climbed mount dir past parent) (makes : mount.Makes parent dir name step entry) :
      Climbed mount (dir.child name) (past ++ step) entry

variable {mount : Mount} {path dir : Path} {name : Segment} {parent entry : Entry}
  {past : List Act} {request : Request}

/-- Besides what the long way asks, the backend may be asked for the object at a path. -/
theorem asks_of_direct {longWay : Operation Entry}
    (hissues : (mount.direct path longWay).Issues past request) :
    request = .get path ∨ ∃ second, longWay.Issues second request := by
  rw [direct, issues_offer_bind] at hissues
  obtain ⟨offer, rest, rfl, hissues⟩ := hissues
  split at hissues
  · rw [issues_attempt_bind, issues_ask] at hissues
    rcases hissues with ⟨-, rfl⟩ | ⟨-, answer, second, -, -, hissues⟩
    · exact .inl rfl
    · cases answer with
      | ok object => exact (not_issues_pure hissues).elim
      | error failure =>
        obtain ⟨rest, -, hissues⟩ := issues_log_bind.1 hissues
        exact .inr ⟨rest, hissues⟩
  · exact .inr ⟨rest, hissues⟩

/-- To describe the root is to ask for nothing but the root. -/
theorem asks_of_describeRoot (hissues : mount.describeRoot.Issues past request) :
    request = .getRoot := by
  rw [describeRoot, issues_offer_bind] at hissues
  obtain ⟨offer, rest, rfl, hissues⟩ := hissues
  rw [issues_require_bind] at hissues
  obtain ⟨source, -, hissues⟩ := hissues
  rw [issues_log_bind] at hissues
  obtain ⟨rest, rfl, hissues⟩ := hissues
  cases source with
  | asked =>
    rw [issues_bind, issues_during, issues_ask] at hissues
    rcases hissues with ⟨-, rfl⟩ | ⟨_, object, _, -, -, hissues⟩
    · rfl
    · exact (not_issues_pure hissues).elim
  | id id => exact (not_issues_pure hissues).elim
  | path path => exact (not_issues_pure hissues).elim

/-- On its own account a lookup asks only for objects by their paths and for the root. All else it
    knows from shared listings. -/
theorem asks_of_lookup (hissues : (mount.lookup path).Issues past request) :
    request = .getRoot ∨ ∃ above, request = .get above := by
  induction path generalizing past with
  | root =>
    rcases asks_of_direct hissues with rfl | ⟨second, hissues⟩
    · exact .inr ⟨_, rfl⟩
    · exact .inl (asks_of_describeRoot hissues)
  | child dir name ih =>
    rcases asks_of_direct hissues with rfl | ⟨second, hissues⟩
    · exact .inr ⟨_, rfl⟩
    · rw [issues_bind, issues_during, listFound, issues_bind] at hissues
      rcases hissues with (hdir | ⟨_, entry, third, -, -, hissues⟩) | ⟨_, entries, _, -, -, hpick⟩
      · exact ih hdir
      · split at hissues
        · exact (not_issues_share hissues).elim
        · exact (not_issues_fail hissues).elim
      · exact (not_issues_require hpick).elim

theorem not_changes_of_lookup (hissues : (mount.lookup path).Issues past request) :
    ¬ request.Changes := by
  rcases asks_of_lookup hissues with rfl | ⟨above, rfl⟩
  · exact id
  · exact id

/-- A lookup leaves the backend as it was. -/
theorem quiet_of_lookup {result : Except Failure Entry}
    (hreturns : (mount.lookup path).Returns past result) : Quiet (exchangesOf past) :=
  hreturns.quiet fun _ => not_changes_of_lookup

theorem Misses.quiet (hmisses : mount.Misses path past) : Quiet (exchangesOf past) := by
  obtain ⟨failure, hreturns, -⟩ := hmisses
  exact quiet_of_lookup hreturns

/-- With nobody else about a lookup comes to its result by exchanges that change nothing. -/
theorem exists_gives_lookup_of_alone {σ : Type} {service : Service σ} {s s' : σ}
    {result : Except Failure Entry}
    (halone : (mount.lookup path).alone service s = (result, s')) :
    ∃ past, (mount.lookup path).Gives service s past result s' ∧ Quiet past := by
  obtain ⟨acts, hreturns, hacts⟩ := (gives_of_alone halone).exists_returns
  exact ⟨_, gives_of_alone halone, hacts ▸ quiet_of_lookup hreturns⟩

theorem issues_create {form : Form} (hissues : (create parent name form).Issues past request) :
    past = [] ∧ request = .creating parent.object name.text form := by
  cases form with
  | reporting => exact issues_ask.1 hissues
  | plain =>
    rcases issues_bind.1 hissues with hask | ⟨_, _, _, -, -, hpure⟩
    · exact issues_ask.1 hask
    · exact (not_issues_pure hpure).elim

theorem returns_create {form : Form} {result : Except Failure (Option Object)} :
    (create parent name form).Returns past result ↔
      ∃ exchange, past = [.asked exchange] ∧
        Creates parent.object name.text form exchange result := by
  cases form with
  | reporting =>
    refine returns_ask.trans ⟨?_, ?_⟩
    · rintro rfl
      exact ⟨_, rfl, .reporting result⟩
    · rintro ⟨exchange, rfl, hcreates⟩
      cases hcreates with
      | reporting => rfl
  | plain =>
    refine returns_bind.trans ⟨?_, ?_⟩
    · rintro (⟨failure, hask, rfl⟩ | ⟨first, ⟨⟩, second, rfl, hask, hpure⟩)
      · obtain rfl := returns_ask.1 hask
        exact ⟨_, rfl, .plain (.error failure)⟩
      · obtain rfl := returns_ask.1 hask
        obtain ⟨rfl, rfl⟩ := returns_pure.1 hpure
        exact ⟨_, rfl, .plain (.ok ())⟩
    · rintro ⟨exchange, rfl, hcreates⟩
      cases hcreates with
      | plain answer =>
        cases answer with
        | error failure => exact .inl ⟨failure, returns_ask.2 rfl, rfl⟩
        | ok => exact .inr ⟨[_], (), [], rfl, returns_ask.2 rfl, returns_pure.2 ⟨rfl, rfl⟩⟩

theorem issues_listAfresh (hissues : (mount.listAfresh parent dir name).Issues past request) :
    request = .list parent.object true := by
  rcases issues_bind.1 hissues with hlist | ⟨_, _, _, -, -, hpick⟩
  · exact (issues_ask.1 (issues_during.1 hlist)).2
  · exact (not_issues_require hpick).elim

theorem returns_listAfresh :
    (mount.listAfresh parent dir name).Returns past (.ok entry) ↔
      ∃ exchange, past = [.asked exchange] ∧
        mount.Relists parent.object name exchange entry := by
  rw [listAfresh, returns_bind_ok]
  constructor
  · rintro ⟨first, objects, second, rfl, hlist, hpick⟩
    obtain rfl := returns_ask.1 (returns_during_ok.1 hlist)
    obtain ⟨rfl, hentry⟩ := returns_require.1 hpick
    exact ⟨_, rfl, objects, rfl, hentry.symm⟩
  · rintro ⟨exchange, rfl, objects, rfl, hpick⟩
    exact ⟨[_], objects, [], rfl, returns_during_ok.2 (returns_ask.2 rfl),
      returns_require.2 ⟨rfl, hpick.symm⟩⟩

/-- How the answer to the request for a directory is resolved to an entry. -/
def resolve (mount : Mount) (parent : Entry) (dir : Path) (name : Segment) :
    Except Failure (Option Object) → Operation Entry
  | .ok (some object) => pure ⟨name.text, object⟩
  | .ok none => mount.listAfresh parent dir name
  | .error failure => do
    match ← attempt (mount.listAfresh parent dir name) with
    | .ok entry =>
      if entry.isDir then
        log (.createReconciled (.child dir name) failure)
        pure entry
      else fail failure
    | .error _ => fail failure

theorem createIn_eq (mount : Mount) (parent : Entry) (dir : Path) (name : Segment) :
    mount.createIn parent dir name = (do
      let offer ← offer
      let form ← require offer.makeDirForm
      let result ← attempt (create parent name form)
      let entry ← mount.resolve parent dir name result
      log (.directoryReady (.child dir name))
      pure entry) := by
  rw [createIn]
  refine bind_congr fun offer => bind_congr fun form => bind_congr fun result => ?_
  cases result with
  | ok made? => cases made? <;> rfl
  | error failure =>
    rw [resolve, bind_assoc]
    refine bind_congr fun recheck => ?_
    cases recheck with
    | error => rfl
    | ok entry => cases hdir : entry.isDir <;> simp [hdir]

theorem issues_resolve {result : Except Failure (Option Object)}
    (hissues : (mount.resolve parent dir name result).Issues past request) :
    request = .list parent.object true := by
  cases result with
  | ok made? =>
    cases made? with
    | none => exact issues_listAfresh hissues
    | some object => exact (not_issues_pure hissues).elim
  | error failure =>
    rcases issues_attempt_bind.1 hissues with hrecheck | ⟨_, recheck, _, -, -, hissues⟩
    · exact issues_listAfresh hrecheck
    · cases recheck with
      | error => exact (not_issues_fail hissues).elim
      | ok entry =>
        dsimp only at hissues
        split at hissues
        · obtain ⟨rest, -, hissues⟩ := issues_log_bind.1 hissues
          exact (not_issues_pure hissues).elim
        · exact (not_issues_fail hissues).elim

theorem makes_of_resolve {offer : Offer} {form : Form} {create : Exchange}
    {result : Except Failure (Option Object)} (hoffered : offer.makeDirForm = .ok form)
    (hcreates : Creates parent.object name.text form create result)
    (hreturns : (mount.resolve parent dir name result).Returns past (.ok entry)) :
    mount.Makes parent dir name
      (.looked offer :: .asked create :: (past ++ [.noted (.directoryReady (dir.child name))]))
      entry := by
  cases result with
  | ok made? =>
    cases made? with
    | none =>
      obtain ⟨recheck, rfl, hrelists⟩ := returns_listAfresh.1 hreturns
      exact .listed hoffered hcreates hrelists
    | some object =>
      obtain ⟨rfl, hentry⟩ := returns_pure.1 hreturns
      obtain rfl := Except.ok.inj hentry
      exact .reported hoffered hcreates
  | error failure =>
    rw [resolve, returns_attempt_bind] at hreturns
    obtain ⟨first, recheck, second, rfl, hrecheck, hreturns⟩ := hreturns
    cases recheck with
    | error => obtain ⟨-, ⟨⟩⟩ := returns_fail.1 hreturns
    | ok found =>
      obtain ⟨recheck, rfl, hrelists⟩ := returns_listAfresh.1 hrecheck
      dsimp only at hreturns
      split at hreturns
      next hdir =>
        obtain ⟨rest, rfl, hpure⟩ := returns_log_bind.1 hreturns
        obtain ⟨rfl, hentry⟩ := returns_pure.1 hpure
        obtain rfl := Except.ok.inj hentry
        exact .reconciled hoffered hcreates hrelists hdir
      next => obtain ⟨-, ⟨⟩⟩ := returns_fail.1 hreturns

/-- Making a directory below its parent asks for one change, the directory, and asks for it right
    after the look at what the backend offers. -/
theorem issues_createIn (hissues : (mount.createIn parent dir name).Issues past request)
    (hchanges : request.Changes) :
    ∃ offer form, past = [.looked offer] ∧ offer.makeDirForm = .ok form ∧
      request = .creating parent.object name.text form := by
  rw [createIn_eq, issues_offer_bind] at hissues
  obtain ⟨offer, rest, rfl, hissues⟩ := hissues
  rw [issues_require_bind] at hissues
  obtain ⟨form, hoffered, hissues⟩ := hissues
  rw [issues_attempt_bind] at hissues
  rcases hissues with hcreate | ⟨_, result, _, -, -, hissues⟩
  · obtain ⟨rfl, hrequest⟩ := issues_create hcreate
    exact ⟨offer, form, rfl, hoffered, hrequest⟩
  · rw [issues_bind] at hissues
    rcases hissues with hresolve | ⟨_, entry, _, -, -, hready⟩
    · rw [issues_resolve hresolve] at hchanges
      exact hchanges.elim
    · obtain ⟨rest, -, hready⟩ := issues_log_bind.1 hready
      exact (not_issues_pure hready).elim

theorem makes_of_createIn (hreturns : (mount.createIn parent dir name).Returns past (.ok entry)) :
    mount.Makes parent dir name past entry := by
  rw [createIn_eq, returns_offer_bind] at hreturns
  obtain ⟨offer, rest, rfl, hreturns⟩ := hreturns
  rw [returns_require_bind] at hreturns
  obtain ⟨failure, -, -, ⟨⟩⟩ | ⟨form, hoffered, hreturns⟩ := hreturns
  rw [returns_attempt_bind] at hreturns
  obtain ⟨first, result, second, rfl, hcreate, hreturns⟩ := hreturns
  obtain ⟨create, rfl, hcreates⟩ := returns_create.1 hcreate
  obtain ⟨first, resolved, second, rfl, hresolve, hready⟩ := returns_bind_ok.1 hreturns
  obtain ⟨rest, rfl, hpure⟩ := returns_log_bind.1 hready
  obtain ⟨rfl, hentry⟩ := returns_pure.1 hpure
  obtain rfl := Except.ok.inj hentry
  exact makes_of_resolve hoffered hcreates hresolve

/-- A directory is made if and only if looking for it led nowhere. -/
theorem returns_findOrMake :
    (findOrMake (mount.lookup path) (mount.makeDirs path)).Returns past (.ok entry) ↔
      (mount.lookup path).Returns past (.ok entry) ∨
        ∃ first second, past = first ++ second ∧ mount.Misses path first ∧
          (mount.makeDirs path).Returns second (.ok entry) := by
  rw [findOrMake]
  constructor
  · intro hmakes
    obtain ⟨first, result, second, rfl, hlookup, hreturns⟩ := returns_attempt_bind.1 hmakes
    cases result with
    | ok found =>
      obtain ⟨rfl, hentry⟩ := returns_pure.1 hreturns
      obtain rfl := Except.ok.inj hentry
      exact .inl (by rwa [List.append_nil])
    | error failure =>
      dsimp only at hreturns
      split at hreturns
      next hnowhere => exact .inr ⟨first, second, rfl, ⟨failure, hlookup, hnowhere⟩, hreturns⟩
      next => obtain ⟨-, ⟨⟩⟩ := returns_fail.1 hreturns
  · rintro (hlookup | ⟨first, second, rfl, ⟨failure, hlookup, hnowhere⟩, hmake⟩)
    · exact hlookup.attempt_bind_nil (returns_pure.2 ⟨rfl, rfl⟩)
    · exact hlookup.attempt_bind (by dsimp only; rwa [if_pos hnowhere])

theorem issues_findOrMake :
    (findOrMake (mount.lookup path) (mount.makeDirs path)).Issues past request ↔
      (mount.lookup path).Issues past request ∨
        ∃ first second, past = first ++ second ∧ mount.Misses path first ∧
          (mount.makeDirs path).Issues second request := by
  rw [findOrMake, issues_attempt_bind]
  refine or_congr_right ⟨?_, ?_⟩
  · rintro ⟨first, result, second, rfl, hlookup, hissues⟩
    cases result with
    | ok found => exact (not_issues_pure hissues).elim
    | error failure =>
      dsimp only at hissues
      split at hissues
      next hnowhere => exact ⟨first, second, rfl, ⟨failure, hlookup, hnowhere⟩, hissues⟩
      next => exact (not_issues_fail hissues).elim
  · rintro ⟨first, second, rfl, ⟨failure, hlookup, hnowhere⟩, hmake⟩
    exact ⟨first, _, second, rfl, hlookup, by dsimp only; rwa [if_pos hnowhere]⟩

/-- With nobody else about a directory that is found is taken as it is. -/
theorem gives_makeDirs_of_found {σ : Type} {service : Service σ} {s s' : σ}
    {past : List Exchange} (hlookup : (mount.lookup path).Gives service s past (.ok entry) s')
    (hisDir : entry.isDir = true) : (mount.makeDirs path).Gives service s past (.ok entry) s' := by
  cases path with
  | root => exact hlookup
  | child dir name =>
    rw [← List.append_nil past]
    refine hlookup.attempt_bind ?_
    dsimp only
    rw [if_pos hisDir]
    exact gives_require _

/-- A directory that is found is taken as it is, and a file is refused. Where nothing is found, the
    directory is made below a parent that is found or made itself. -/
theorem returns_makeDirs_child :
    (mount.makeDirs (dir.child name)).Returns past (.ok entry) ↔
      ((mount.lookup (dir.child name)).Returns past (.ok entry) ∧ entry.isDir = true) ∨
        ∃ first second parent third, past = first ++ second ++ third ∧
          mount.Misses (dir.child name) first ∧
          (findOrMake (mount.lookup dir) (mount.makeDirs dir)).Returns second (.ok parent) ∧
          (mount.createIn parent dir name).Returns third (.ok entry) := by
  rw [makeDirs]
  constructor
  · intro hmakes
    obtain ⟨first, result, second, rfl, hlookup, hreturns⟩ := returns_attempt_bind.1 hmakes
    cases result with
    | ok found =>
      dsimp only at hreturns
      split at hreturns
      next hdir =>
        obtain ⟨rfl, hentry⟩ := returns_pure.1 hreturns
        obtain rfl := Except.ok.inj hentry
        exact .inl ⟨by rwa [List.append_nil], hdir⟩
      next => obtain ⟨-, ⟨⟩⟩ := returns_fail.1 hreturns
    | error failure =>
      dsimp only at hreturns
      split at hreturns
      next hnowhere =>
        obtain ⟨second, parent, third, rfl, hparent, hcreate⟩ := returns_bind_ok.1 hreturns
        exact .inr ⟨first, second, parent, third, (List.append_assoc ..).symm,
          ⟨failure, hlookup, hnowhere⟩, hparent, hcreate⟩
      next => obtain ⟨-, ⟨⟩⟩ := returns_fail.1 hreturns
  · rintro (⟨hlookup, hdir⟩ |
      ⟨first, second, parent, third, rfl, ⟨failure, hlookup, hnowhere⟩, hparent, hcreate⟩)
    · refine hlookup.attempt_bind_nil ?_
      dsimp only
      rw [if_pos hdir]
      exact returns_pure.2 ⟨rfl, rfl⟩
    · rw [List.append_assoc]
      refine hlookup.attempt_bind ?_
      dsimp only
      rw [if_pos hnowhere]
      exact returns_bind_ok.2 ⟨second, parent, third, rfl, hparent, hcreate⟩

theorem issues_makeDirs_child :
    (mount.makeDirs (dir.child name)).Issues past request ↔
      (mount.lookup (dir.child name)).Issues past request ∨
        ∃ first second, past = first ++ second ∧ mount.Misses (dir.child name) first ∧
          ((findOrMake (mount.lookup dir) (mount.makeDirs dir)).Issues second request ∨
            ∃ third parent fourth, second = third ++ fourth ∧
              (findOrMake (mount.lookup dir) (mount.makeDirs dir)).Returns third (.ok parent) ∧
              (mount.createIn parent dir name).Issues fourth request) := by
  rw [makeDirs, issues_attempt_bind]
  refine or_congr_right ⟨?_, ?_⟩
  · rintro ⟨first, result, second, rfl, hlookup, hissues⟩
    cases result with
    | ok found =>
      dsimp only at hissues
      split at hissues
      next => exact (not_issues_pure hissues).elim
      next => exact (not_issues_fail hissues).elim
    | error failure =>
      dsimp only at hissues
      split at hissues
      next hnowhere =>
        exact ⟨first, second, rfl, ⟨failure, hlookup, hnowhere⟩, issues_bind.1 hissues⟩
      next => exact (not_issues_fail hissues).elim
  · rintro ⟨first, second, rfl, ⟨failure, hlookup, hnowhere⟩, hissues⟩
    refine ⟨first, _, second, rfl, hlookup, ?_⟩
    dsimp only
    rw [if_pos hnowhere]
    exact issues_bind.2 hissues

/-- The parent of a directory that was not found, whether it was found or made. -/
theorem climbed_of_parent {first second : List Act} (hmisses : mount.Misses (dir.child name) first)
    (hmake : ∀ {past}, (mount.makeDirs dir).Returns past (.ok parent) →
      mount.Climbed dir past parent)
    (hparent : (findOrMake (mount.lookup dir) (mount.makeDirs dir)).Returns second (.ok parent)) :
    mount.Climbed dir (first ++ second) parent := by
  rcases returns_findOrMake.1 hparent with hlookup | ⟨third, fourth, rfl, hmisses', hmade⟩
  · exact .above hmisses hlookup
  · exact .after hmisses (List.prefix_append _ _) (.after hmisses' List.prefix_rfl (hmake hmade))

/-- Whatever a backend answers, the directory that is handed on was climbed to. -/
theorem climbed_of_makeDirs (hreturns : (mount.makeDirs path).Returns past (.ok entry)) :
    mount.Climbed path past entry := by
  induction path generalizing past entry with
  | root => exact .root hreturns
  | child dir name ih =>
    rcases returns_makeDirs_child.1 hreturns with
      ⟨hlookup, hdir⟩ | ⟨first, second, parent, third, rfl, hmisses, hparent, hcreate⟩
    · exact .found hlookup hdir
    · exact .made (climbed_of_parent hmisses ih hparent) (makes_of_createIn hcreate)

/-- Every directory that is asked for on the way to a path is the next one, in the entry that was
    climbed to. Between the climb and the request there is only a look at what the backend
    offers. -/
theorem climbed_of_makeDirs_issues (hissues : (mount.makeDirs path).Issues past request)
    (hchanges : request.Changes) :
    ∃ above name climb parent offer form, past = climb ++ [.looked offer] ∧
      (above.child name).place <+: path.place ∧ mount.Climbed above climb parent ∧
      offer.makeDirForm = .ok form ∧ request = .creating parent.object name.text form := by
  induction path generalizing past with
  | root => exact (not_changes_of_lookup hissues hchanges).elim
  | child dir name ih =>
    rcases issues_makeDirs_child.1 hissues with
      hlookup | ⟨first, second, rfl, hmisses, hparent | hcreate⟩
    · exact (not_changes_of_lookup hlookup hchanges).elim
    · rcases issues_findOrMake.1 hparent with hlookup | ⟨third, fourth, rfl, hmisses', hmake⟩
      · exact (not_changes_of_lookup hlookup hchanges).elim
      · obtain ⟨above, next, climb, parent, offer, form, rfl, hbelow, hclimbed, hrequest⟩ := ih hmake
        have hdir : dir.place <+: (dir.child name).place := List.prefix_append _ _
        have habove : above.place <+: dir.place := (List.prefix_append _ _).trans hbelow
        refine ⟨above, next, first ++ (third ++ climb), parent, offer, form, ?_, hbelow.trans hdir,
          .after hmisses (habove.trans hdir) (.after hmisses' habove hclimbed), hrequest⟩
        simp only [List.append_assoc]
    · obtain ⟨third, parent, fourth, rfl, hparent, hissues⟩ := hcreate
      obtain ⟨offer, form, rfl, hrequest⟩ := issues_createIn hissues hchanges
      exact ⟨dir, name, first ++ third, parent, offer, form, (List.append_assoc ..).symm,
        List.prefix_rfl, climbed_of_parent hmisses climbed_of_makeDirs hparent, hrequest⟩

end Mount

end VirtualFs
