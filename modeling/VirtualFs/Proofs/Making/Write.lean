import VirtualFs.Proofs.Making.Climb
import VirtualFs.Proofs.Recorded
import VirtualFs.Proofs.Writing.Writers
import VirtualFs.Scenario.Reading
import VirtualFs.Transfer

namespace VirtualFs

/-- The directory that a request asks for, if it asks for one: the object of the parent and the name
    in it. -/
def Request.newDir? : Request → Option (Object × String)
  | makeDir parent name => some (parent, name)
  | makeDirReporting parent name => some (parent, name)
  | _ => none

/-- The directories that were asked for, in the order of the requests. -/
def asked (past : List Exchange) : List (Object × String) :=
  past.filterMap (·.request.newDir?)

@[simp] theorem asked_append (first second : List Exchange) :
    asked (first ++ second) = asked first ++ asked second :=
  List.filterMap_append

theorem Request.newDir?_of_not_changes {request : Request} (hquiet : ¬ request.Changes) :
    request.newDir? = none := by
  cases request with
  | makeDir => exact (hquiet trivial).elim
  | makeDirReporting => exact (hquiet trivial).elim
  | _ => rfl

theorem Quiet.asked_eq {past : List Exchange} (hquiet : Quiet past) : asked past = [] :=
  List.filterMap_eq_nil_iff.2 fun exchange hmem =>
    Request.newDir?_of_not_changes (hquiet exchange hmem)

namespace Mount

open Operation

variable {mount : Mount} {path dir above : Path} {name : Segment} {parent entry : Entry}
  {past : List Act} {request : Request}

/-- Wherever a backend refused a directory, a listing was the next thing to be asked for, and it
    showed that the directory is there. -/
def Rechecked (mount : Mount) (past : List Act) : Prop :=
  ∀ ⦃first second : List Act⦄ ⦃create : Exchange⦄ ⦃parent : Object⦄ ⦃name : Segment⦄ ⦃form : Form⦄
    ⦃failure : Failure⦄, past = first ++ .asked create :: second →
    Creates parent name.text form create (.error failure) →
    ∃ recheck third entry, second = .asked recheck :: third ∧
      mount.Relists parent name recheck entry ∧ entry.isDir = true

/-- What a request for a change finds behind it when a directory has been climbed to. All changes so
    far were new directories, each one step below the one before it, and none was refused for
    good. -/
structure Orderly (mount : Mount) (above : Path) (past : List Act) (parent : Entry) : Prop where
  climbed : mount.Climbed above past parent
  onlyDirs : ∀ exchange ∈ exchangesOf past,
    exchange.request.Changes → exchange.request.newDir? ≠ none
  consecutive : ∃ start, above.place = start ++ (asked (exchangesOf past)).map Prod.snd
  rechecked : mount.Rechecked past

section Creates

variable {parent : Object} {name : String} {form : Form} {exchange : Exchange}
  {result : Except Failure (Option Object)}

theorem Creates.newDir? (hcreates : Creates parent name form exchange result) :
    exchange.request.newDir? = some (parent, name) := by
  cases hcreates <;> rfl

theorem Creates.changes (hcreates : Creates parent name form exchange result) :
    exchange.request.Changes := by
  cases hcreates <;> trivial

/-- A request for a directory tells where, under which name and with what result. -/
theorem Creates.unique {parent' : Object} {name' : String} {form' : Form}
    {result' : Except Failure (Option Object)} (hcreates : Creates parent name form exchange result)
    (hcreates' : Creates parent' name' form' exchange result') :
    parent' = parent ∧ name' = name ∧ result' = result := by
  cases hcreates <;> cases hcreates' <;> exact ⟨rfl, rfl, rfl⟩

end Creates

theorem Relists.not_changes {parent : Object} {exchange : Exchange}
    (hrelists : mount.Relists parent name exchange entry) : ¬ exchange.request.Changes := by
  obtain ⟨objects, rfl, -⟩ := hrelists
  exact id

theorem rechecked_of_quiet (hquiet : Quiet (exchangesOf past)) : mount.Rechecked past := by
  rintro first second create parent name form failure rfl hcreates
  have hmem : create ∈ exchangesOf (first ++ .asked create :: second) :=
    mem_exchangesOf.2 (List.mem_append_right _ List.mem_cons_self)
  exact (hquiet create hmem hcreates.changes).elim

theorem Rechecked.append {first second : List Act} (hfirst : mount.Rechecked first)
    (hsecond : mount.Rechecked second) : mount.Rechecked (first ++ second) := by
  intro before after create parent name form failure hsplit hcreates
  rcases List.append_eq_append_iff.1 hsplit with ⟨rest, rfl, hrest⟩ | ⟨rest, rfl, hrest⟩
  · exact hsecond hrest hcreates
  · cases rest with
    | nil =>
      have hsplit : second = [] ++ .asked create :: after := hrest.symm
      exact hsecond hsplit hcreates
    | cons head tail =>
      obtain ⟨rfl, rfl⟩ := List.cons.inj hrest
      obtain ⟨recheck, third, found, rfl, hfound⟩ := hfirst rfl hcreates
      exact ⟨recheck, third ++ second, found, rfl, hfound⟩

namespace Makes

variable {step : List Act}

/-- The request for the directory comes right after a look at what is offered, and the other acts
    change nothing. -/
theorem shape (hmakes : mount.Makes parent dir name step entry) :
    ∃ offer form create rest result, step = .looked offer :: .asked create :: rest ∧
      Quiet (exchangesOf rest) ∧ Creates parent.object name.text form create result ∧
      ∀ {failure}, result = .error failure → ∃ recheck later, rest = .asked recheck :: later ∧
        mount.Relists parent.object name recheck entry ∧ entry.isDir = true := by
  cases hmakes with
  | @reported offer form create object _ creates =>
    exact ⟨offer, form, create, _, _, rfl, quiet_nil, creates, fun h => by cases h⟩
  | @listed offer form create recheck _ _ creates relists =>
    have hquiet : Quiet [recheck] := List.forall_mem_singleton.2 relists.not_changes
    exact ⟨offer, form, create, _, _, rfl, hquiet, creates, fun h => by cases h⟩
  | @reconciled offer form create recheck _ failure _ creates relists isDir =>
    have hquiet : Quiet [recheck] := List.forall_mem_singleton.2 relists.not_changes
    exact ⟨offer, form, create, _, _, rfl, hquiet, creates,
      fun _ => ⟨recheck, _, rfl, relists, isDir⟩⟩

theorem asked_eq (hmakes : mount.Makes parent dir name step entry) :
    asked (exchangesOf step) = [(parent.object, name.text)] := by
  obtain ⟨offer, form, create, rest, result, rfl, hquiet, hcreates, -⟩ := hmakes.shape
  have hexchanges : exchangesOf (.looked offer :: .asked create :: rest) =
      [create] ++ exchangesOf rest := rfl
  rw [hexchanges, asked_append, hquiet.asked_eq, List.append_nil, asked, List.filterMap_cons,
    hcreates.newDir?, List.filterMap_nil]

theorem onlyDirs (hmakes : mount.Makes parent dir name step entry) :
    ∀ exchange ∈ exchangesOf step,
      exchange.request.Changes → exchange.request.newDir? ≠ none := by
  obtain ⟨offer, form, create, rest, result, rfl, hquiet, hcreates, -⟩ := hmakes.shape
  refine List.forall_mem_cons.2 ⟨fun _ => by simp [hcreates.newDir?], ?_⟩
  exact fun exchange hmem hchanges => (hquiet exchange hmem hchanges).elim

theorem rechecked (hmakes : mount.Makes parent dir name step entry) : mount.Rechecked step := by
  intro first second create parent' name' form' failure hsplit hrefused
  obtain ⟨offer, form, create', rest, result, rfl, hquiet, hcreates, hreconciled⟩ := hmakes.shape
  match first with
  | [] => cases hsplit
  | [_] =>
    obtain ⟨-, hlater⟩ := List.cons.inj hsplit
    obtain ⟨hcreate, rfl⟩ := List.cons.inj hlater
    obtain rfl := Act.asked.inj hcreate
    obtain ⟨rfl, hname, hresult⟩ := hcreates.unique hrefused
    obtain rfl := Segment.text_injective hname
    obtain ⟨recheck, later, rfl, hrelists, hdir⟩ := hreconciled hresult.symm
    exact ⟨recheck, later, entry, rfl, hrelists, hdir⟩
  | _ :: _ :: tail =>
    obtain ⟨-, hlater⟩ := List.cons.inj hsplit
    obtain ⟨-, rfl⟩ := List.cons.inj hlater
    have hmem : create ∈ exchangesOf (tail ++ .asked create :: second) :=
      mem_exchangesOf.2 (List.mem_append_right _ List.mem_cons_self)
    exact (hquiet create hmem hrefused.changes).elim

end Makes

theorem Climbed.orderly (hclimbed : mount.Climbed above past parent) :
    mount.Orderly above past parent := by
  have hquiet : ∀ {above past parent}, mount.Climbed above past parent →
      Quiet (exchangesOf past) → mount.Orderly above past parent := by
    intro above past parent hclimbed hquiet
    refine ⟨hclimbed, ?_, ⟨_, by rw [hquiet.asked_eq, List.map_nil, List.append_nil]⟩,
      rechecked_of_quiet hquiet⟩
    exact fun exchange hmem hchanges => (hquiet exchange hmem hchanges).elim
  induction hclimbed with
  | root lookup => exact hquiet (.root lookup) (quiet_of_lookup lookup)
  | found lookup isDir => exact hquiet (.found lookup isDir) (quiet_of_lookup lookup)
  | above misses lookup =>
    refine hquiet (.above misses lookup) ?_
    rw [exchangesOf_append]
    exact quiet_append.2 ⟨misses.quiet, quiet_of_lookup lookup⟩
  | after misses isBelow climbed ih =>
    refine ⟨.after misses isBelow climbed, ?_, ?_,
      (rechecked_of_quiet misses.quiet).append ih.rechecked⟩
    · rw [exchangesOf_append]
      refine List.forall_mem_append.2 ⟨?_, ih.onlyDirs⟩
      exact fun exchange hmem hchanges => (misses.quiet exchange hmem hchanges).elim
    · rw [exchangesOf_append, asked_append, misses.quiet.asked_eq]
      exact ih.consecutive
  | made climbed makes ih =>
    refine ⟨.made climbed makes, ?_, ?_, ih.rechecked.append makes.rechecked⟩
    · rw [exchangesOf_append]
      exact List.forall_mem_append.2 ⟨ih.onlyDirs, makes.onlyDirs⟩
    · obtain ⟨start, hstart⟩ := ih.consecutive
      refine ⟨start, ?_⟩
      rw [Path.place, hstart, exchangesOf_append, asked_append, makes.asked_eq, List.map_append,
        List.append_assoc]
      rfl

/-- A change that a write may ask for, and its acts up to there. It knows how a file is stored here
    and what time it is. Then it asks for a directory on the way to its target, in the one that it
    has climbed to, or, when it has come to the directory above the target, for its content to be
    stored in the object that this has come to. -/
inductive WriteChange (mount : Mount) (dir : Path) (base : Segment) (content : List UInt8) :
    List Act → Request → Prop
  | makesDir {offer current : Offer} {storing form : Form} {time : UInt64} {above : Path}
      {next : Segment} {climb : List Act} {parent : Entry}
      (canStore : offer.putForm = .ok storing) (orderly : mount.Orderly above climb parent)
      (onTheWay : (above.child next).place <+: dir.place)
      (canMake : current.makeDirForm = .ok form) :
      WriteChange mount dir base content
        (.looked offer :: .timed time :: (climb ++ [.looked current]))
        (.creating parent.object next.text form)
  | stores {offer : Offer} {form : Form} {time : UInt64} {climb : List Act} {parent : Entry}
      (canStore : offer.putForm = .ok form) (orderly : mount.Orderly dir climb parent)
      (made : (mount.makeDirs dir).Returns climb (.ok parent)) :
      WriteChange mount dir base content (.looked offer :: .timed time :: climb)
        (.put form parent.object
          ⟨{ name := base.text, size := UInt64.ofNat content.length, modified := time,
             created := time }, content⟩ (dir.child base))

/-- A write asks for what it takes to make the directory above its target and, once that has
    succeeded, that its content be stored there. -/
theorem issues_write {mount : Mount} {name : String} {content : List UInt8} {past : List Act}
    {request : Request} (hissues : (mount.write name content).Issues past request) :
    ∃ dir base offer form time climb, mount.pathOf name = .child dir base ∧
      offer.putForm = .ok form ∧ past = .looked offer :: .timed time :: climb ∧
      ((mount.makeDirs dir).Issues climb request ∨
        ∃ parent, (mount.makeDirs dir).Returns climb (.ok parent) ∧
          request = .put form parent.object
            ⟨{ name := base.text, size := UInt64.ofNat content.length, modified := time,
               created := time }, content⟩ (dir.child base)) := by
  rw [write] at hissues
  dsimp only at hissues
  cases hpath : mount.pathOf name with
  | root =>
    rw [hpath] at hissues
    exact (not_issues_fail hissues).elim
  | child dir base =>
    rw [hpath] at hissues
    dsimp only at hissues
    split at hissues
    · exact (not_issues_fail hissues).elim
    · rw [issues_offer_bind] at hissues
      obtain ⟨offer, rest, rfl, hissues⟩ := hissues
      rw [issues_require_bind] at hissues
      obtain ⟨form, hform, hissues⟩ := hissues
      rw [issues_now_bind] at hissues
      obtain ⟨time, climb, rfl, hissues⟩ := hissues
      refine ⟨dir, base, offer, form, time, climb, rfl, hform, rfl, ?_⟩
      rw [issues_bind, issues_during] at hissues
      rcases hissues with hmake | ⟨first, parent, second, rfl, hmade, hput⟩
      · exact .inl hmake
      · obtain ⟨rfl, hrequest⟩ := issues_ask.1 (issues_during.1 hput)
        rw [List.append_nil]
        exact .inr ⟨parent, returns_during_ok.1 hmade, hrequest⟩

/-- Whatever a backend answers, a write changes it in one way only: it makes the directories that
    are missing above its target, one below the other, and in the last of them it stores the
    content. -/
theorem write_changes {mount : Mount} {name : String} {content : List UInt8} {past : List Act}
    {request : Request} (hissues : (mount.write name content).Issues past request)
    (hchanges : request.Changes) :
    ∃ dir base, mount.pathOf name = .child dir base ∧
      mount.WriteChange dir base content past request := by
  obtain ⟨dir, base, offer, storing, time, climb, hpath, hstoring, rfl, hmake | hstores⟩ :=
    issues_write hissues
  · obtain ⟨above, next, climb, parent, current, form, rfl, honTheWay, hclimbed, hform, rfl⟩ :=
      climbed_of_makeDirs_issues hmake hchanges
    exact ⟨dir, base, hpath, .makesDir hstoring hclimbed.orderly honTheWay hform⟩
  · obtain ⟨parent, hmade, rfl⟩ := hstores
    exact ⟨dir, base, hpath, .stores hstoring (climbed_of_makeDirs hmade).orderly hmade⟩

open Scenario in
/-- A directory is made for a file, and then the file is stored. -/
theorem write_changes_bare : ∃ past request,
    (plainMount.write "d/f" [7]).Issues past request ∧ request.Changes ∧
      (asked (exchangesOf past)).map Prod.snd = ["d"] ∧
      ∃ dir base, plainMount.pathOf "d/f" = .child dir base ∧
        plainMount.WriteChange dir base [7] past request := by
  let all := (plainMount.write "d/f" [7]).run.acts Store.service (World.bare []).store
  have hlast : (all[14]?.bind Act.exchange?).any (fun exchange => exchange.request.Changes) := by
    decide +kernel
  obtain ⟨exchange, hact, hchanges⟩ := Act.exists_asked_of_any hlast
  have hissues : (plainMount.write "d/f" [7]).Issues (all.take 14) exchange.request :=
    Returns.issues_take (Procedure.goes_acts Store.service _ _) hact
  have hchanges' : exchange.request.Changes := by simpa using hchanges
  exact ⟨_, _, hissues, hchanges', by decide +kernel, write_changes hissues hchanges'⟩

end Mount

end VirtualFs
