import VirtualFs.Proofs.Alone
import VirtualFs.Proofs.Path
import VirtualFs.Proofs.Reading.Transparency

namespace VirtualFs

/-- What a backend would offer without direct access by path. -/
def Offer.withoutGet (offer : Offer) : Offer :=
  { offer with get := false }

/-- The way to an object that does without direct access on the last level. -/
def Mount.longWay (mount : Mount) : Path → Operation Entry
  | .root => mount.describeRoot
  | .child dir name => do
    let entries ← Operation.during "failed get parent list" (mount.listFound dir (mount.lookup dir))
    Operation.require (pick name entries)

theorem Mount.lookup_eq_direct (mount : Mount) (path : Path) :
    mount.lookup path = mount.direct path (mount.longWay path) := by
  cases path <;> rfl

/-- A backend that has direct access is asked for the path first. -/
theorem Mount.alone_direct_get {σ : Type} {service : Service σ} {state : σ} {mount : Mount}
    (hget : (service.offer state).get = true) (path : Path) (longWay : Operation Entry) :
    (mount.direct path longWay).alone service state =
      match (service.answer (.get path) state : Except Failure Object × σ) with
      | (.ok object, state) => (.ok ⟨mount.shownName path, object⟩, state)
      | (.error _, state) => longWay.alone service state := by
  rw [direct, Operation.alone_bind, Operation.alone_offer]
  dsimp only
  rw [if_pos hget, Operation.alone_bind, Operation.alone_attempt, Operation.alone_ask]
  generalize (service.answer (.get path) state : Except Failure Object × σ) = answered
  obtain ⟨answer, state⟩ := answered
  cases answer <;> rfl

namespace Steady

variable {α β : Type}

/-- What listings alone lead to at a path. -/
def listed (offered : Offer) (reply : (request : Request) → request.Answer) (mount : Mount)
    (path : Path) : Except Failure Entry :=
  ((mount.lookup path).alone (service offered.withoutGet reply) ()).1

/-- Direct access that is never wrong: what it finds at a path is what listings lead to. It may fail
    for any path, in any way. -/
def Truthful (offered : Offer) (reply : (request : Request) → request.Answer) (mount : Mount) :
    Prop :=
  ∀ {path object}, reply (.get path) = .ok object →
    ∃ name, listed offered reply mount path = .ok ⟨name, object⟩

variable {offered : Offer} {reply : (request : Request) → request.Answer} {mount : Mount}

/-- An operation comes to the same whether or not there is direct access. -/
def Indifferent (offered : Offer) (reply : (request : Request) → request.Answer)
    (operation : Operation α) : Prop :=
  operation.alone (service offered reply) () = operation.alone (service offered.withoutGet reply) ()

theorem indifferent_require (result : Except Failure α) :
    Indifferent offered reply (Operation.require result) := rfl

theorem indifferent_ask (request : Request) :
    Indifferent offered reply (Operation.ask request) := rfl

theorem indifferent_share (plan : ListingPlan) :
    Indifferent offered reply (Operation.share plan) := rfl

theorem Indifferent.bind {operation : Operation α} {f : α → Operation β}
    (hoperation : Indifferent offered reply operation)
    (hf : ∀ result, Indifferent offered reply (f result)) :
    Indifferent offered reply (operation >>= f) := by
  rw [Indifferent, Operation.alone_bind, Operation.alone_bind, hoperation]
  generalize operation.alone (service offered.withoutGet reply) () = outcome
  obtain ⟨result, state⟩ := outcome
  cases result with
  | ok result => exact hf result
  | error failure => rfl

theorem Indifferent.map {operation : Operation α} (f : α → β)
    (hoperation : Indifferent offered reply operation) :
    Indifferent offered reply (f <$> operation) := by
  rw [← bind_pure_comp]
  exact hoperation.bind fun result => indifferent_require (.ok (f result))

theorem Indifferent.during {operation : Operation α} (attempt : String)
    (hoperation : Indifferent offered reply operation) :
    Indifferent offered reply (Operation.during attempt operation) := by
  rw [Indifferent, Operation.alone_during, Operation.alone_during, hoperation]

/-- An operation may look at what is offered as long as it makes no difference to it whether direct
    access is. -/
theorem indifferent_offer_bind {f : Offer → Operation α} (hsame : f offered = f offered.withoutGet)
    (hf : Indifferent offered reply (f offered)) :
    Indifferent offered reply (Operation.offer >>= f) := by
  rw [Indifferent, Operation.alone_bind, Operation.alone_bind]
  exact hf.trans (by rw [hsame]; rfl)

theorem indifferent_describeRoot : Indifferent offered reply mount.describeRoot := by
  refine indifferent_offer_bind rfl ?_
  refine (indifferent_require _).bind fun source => ?_
  refine Indifferent.bind rfl fun _ => ?_
  cases source with
  | asked => exact ((indifferent_ask _).during _).bind fun _ => indifferent_require _
  | id id => exact indifferent_require _
  | path path => exact indifferent_require _

theorem indifferent_listFound {dir : Path} {find : Operation Entry}
    (hfind : Indifferent offered reply find) :
    Indifferent offered reply (mount.listFound dir find) := by
  refine hfind.bind fun entry => ?_
  split
  · exact indifferent_share _
  · exact indifferent_require _

theorem listed_eq_longWay (path : Path) :
    listed offered reply mount path =
      ((mount.longWay path).alone (service offered.withoutGet reply) ()).1 := by
  rw [listed, Mount.lookup_eq_direct, Mount.alone_direct rfl]

theorem name_of_pick {name : Segment} {entries : List Entry} {entry : Entry}
    (hpick : Mount.pick name entries = .ok entry) : entry.name = name.text := by
  rw [Mount.pick] at hpick
  split at hpick
  case h_1 found hfind =>
    obtain rfl := Except.ok.inj hpick
    simpa using List.find?_some hfind
  case h_2 => cases hpick

theorem name_of_describeRoot {σ : Type} {service : Service σ} {state : σ} {entry : Entry}
    (hdescribed : (mount.describeRoot.alone service state).1 = .ok entry) :
    entry.name = mount.rootName := by
  rw [Mount.describeRoot, Operation.alone_bind, Operation.alone_offer] at hdescribed
  dsimp only at hdescribed
  rw [Operation.alone_bind, Operation.alone_require] at hdescribed
  cases hsource : (service.offer state).rootSource with
  | error failure =>
    rw [hsource] at hdescribed
    cases hdescribed
  | ok source =>
    rw [hsource] at hdescribed
    cases source with
    | id id =>
      cases hdescribed
      rfl
    | path path =>
      cases hdescribed
      rfl
    | asked =>
      simp only [Operation.alone_bind, Operation.alone_log, Operation.alone_during] at hdescribed
      split at hdescribed
      · cases hdescribed
        rfl
      · cases hdescribed

/-- What is found the long way is shown as what is found directly would be. -/
theorem name_of_listed {path : Path} {entry : Entry}
    (hlisted : listed offered reply mount path = .ok entry) : entry.name = mount.shownName path := by
  rw [listed_eq_longWay] at hlisted
  cases path with
  | root => exact name_of_describeRoot hlisted
  | child dir name =>
    rw [Mount.longWay, Operation.alone_bind] at hlisted
    split at hlisted
    · exact name_of_pick hlisted
    · cases hlisted

/-- Direct access that is never wrong takes the place of the long way. -/
theorem indifferent_direct (htruthful : Truthful offered reply mount) {path : Path}
    (hlongWay : Indifferent offered reply (mount.longWay path)) :
    Indifferent offered reply (mount.direct path (mount.longWay path)) := by
  have hwithout : ((service offered.withoutGet reply).offer ()).get = false := rfl
  rw [Indifferent, Mount.alone_direct hwithout]
  cases hget : offered.get with
  | false => rw [Mount.alone_direct hget, hlongWay]
  | true =>
    rw [Mount.alone_direct_get hget]
    cases hanswer : (reply (.get path) : Except Failure Object) with
    | ok object =>
      obtain ⟨name, hlisted⟩ := htruthful hanswer
      have hname : name = mount.shownName path := name_of_listed hlisted
      rw [listed_eq_longWay, hname] at hlisted
      have hanswer' : (service offered reply).answer (.get path) () = (.ok object, ()) :=
        Prod.ext hanswer rfl
      rw [hanswer']
      have hfound : (mount.longWay path).alone (service offered.withoutGet reply) () =
          (.ok ⟨mount.shownName path, object⟩, ()) := Prod.ext hlisted rfl
      exact hfound.symm
    | error failure =>
      have hanswer' : (service offered reply).answer (.get path) () = (.error failure, ()) :=
        Prod.ext hanswer rfl
      rw [hanswer']
      exact hlongWay

/-- By induction on the path. Direct access may succeed on some levels and fail on others. -/
theorem indifferent_lookup (htruthful : Truthful offered reply mount) (path : Path) :
    Indifferent offered reply (mount.lookup path) := by
  induction path with
  | root => exact indifferent_direct htruthful indifferent_describeRoot
  | child dir name ih =>
    refine indifferent_direct htruthful ?_
    exact ((indifferent_listFound ih).during _).bind fun _ => indifferent_require _

theorem indifferent_readDir (htruthful : Truthful offered reply mount) (name : String) :
    Indifferent offered reply (mount.readDir name) :=
  indifferent_listFound (indifferent_lookup htruthful _)

theorem indifferent_read (htruthful : Truthful offered reply mount) (name : String)
    (offset length : UInt64) : Indifferent offered reply (mount.read name offset length) := by
  refine ((indifferent_lookup htruthful _).during _).bind fun file => ?_
  split
  case isTrue => exact indifferent_require _
  case isFalse =>
    refine ((indifferent_ask _).during _).bind fun link => ?_
    refine Indifferent.bind (Indifferent.during _ ?_) fun readable => ?_
    · cases link with
      | data content => exact indifferent_require _
      | reader reader => exact indifferent_require _
      | url address headers =>
        cases hopener : mount.opener with
        | some opener => exact (indifferent_ask _).bind fun _ => indifferent_require _
        | none => exact indifferent_require _
    · refine Indifferent.bind rfl fun _ => ?_
      exact (indifferent_ask _).bind fun _ => indifferent_require _

theorem indifferent_of_reads (htruthful : Truthful offered reply mount) {call : Call}
    (hreads : call.Reads) : Indifferent offered reply (call.operation mount) := by
  cases call with
  | stat name => exact (indifferent_lookup htruthful _).map _
  | readDir name => exact (indifferent_readDir htruthful name).map _
  | names name => exact (indifferent_readDir htruthful name).map _
  | read name offset length => exact (indifferent_read htruthful name offset length).map _
  | delete name => exact hreads.elim
  | write name content => exact hreads.elim
  | writeFrom name source => exact hreads.elim

open World

/-- Direct access that is never wrong is a shortcut and nothing else. Every path leads to what
    listings alone lead to, to an entry under the same name or to a failure that tells of the same
    attempts, and so do the calls of any company in which nobody is taken away. -/
theorem getter_is_shortcut (htruthful : Truthful offered reply mount) :
    (∀ path, ((mount.lookup path).alone (service offered reply) ()).1 =
      listed offered reply mount path) ∧
    ∀ {σ : Type} {backend : Backend σ} {holds : σ → Prop}
      {awaits : ∀ {request}, backend.Flight request → Prop},
      backend.Steady holds awaits offered reply →
      ∀ {surroundings : Surroundings σ}, holds surroundings.state →
      ∀ {calls : List Call} {moves : List (Move σ)}, (∀ call ∈ calls, call.Reads) →
      (∀ other, .drop other ∉ moves) →
      (∀ {change}, .change change ∈ moves →
        ∀ {s : Surroundings σ}, holds s.state → holds (change s).state) →
      ∀ {index : Nat} {call : Call} {result : Except Failure Answer}, calls[index]? = some call →
      ((gatherCalls surroundings mount calls : World backend _).run moves).result? index =
        some result →
      result = solo offered.withoutGet reply mount call := by
  refine ⟨fun path => congrArg Prod.fst (indifferent_lookup htruthful path), ?_⟩
  intro σ backend holds awaits hsteady surroundings hholds calls moves hreads hstay hchanges index
    call result hcall hreturned
  have hcalm : ¬ (gatherCalls surroundings mount calls : World backend _).Spoilt moves index := by
    intro hspoilt
    obtain ⟨other, hdrop⟩ := hspoilt.exists_drop
    exact hstay other hdrop
  have hresult : result = solo offered reply mount call :=
    (result_of_returned hsteady hholds hreads hchanges hcall hreturned).resolve_right
      fun hlost => hcalm hlost.2
  have hsame := indifferent_of_reads htruthful (hreads call (List.mem_of_getElem? hcall))
  exact hresult.trans (congrArg Prod.fst hsame)

section Archive

open Scenario

/-- A store with direct access to all but its directory. -/
def archive : Script where
  store :=
    { nodes :=
        [⟨{ id := "/", path := "/", isFolder := true }, none, [], .data []⟩,
          ⟨{ id := "/d", path := "/d", name := "d", isFolder := true }, some "/", [], .data []⟩,
          ⟨{ id := "/d/a", path := "/d/a", name := "a", size := 1 }, some "/d", [7], .data [7]⟩]
      offer := { get := true, getRoot := true } }
  rules := [⟨"get", "/d", 0, .before, none, some (Cause.storage "no index")⟩]

theorem truthful_archive :
    Truthful archive.store.offer (Script.reply archive.store archive.rules) plainMount := by
  intro path object hanswer
  by_cases hdir : path.text = "/d"
  · have hrefused : Script.verdictOn archive.rules .before ⟨"get", path.text⟩ =
        some (Cause.storage "no index") := by
      rw [hdir]
      decide +kernel
    simp only [Script.reply, Script.visit?, hrefused] at hanswer
    cases hanswer
  · have hrules : ∀ moment, archive.rules.filter (·.applies moment ⟨"get", path.text⟩ 0) = [] := by
      intro moment
      simp [archive, Rule.applies, Ne.symm hdir]
    have hverdict : ∀ moment, Script.verdictOn archive.rules moment ⟨"get", path.text⟩ = none := by
      intro moment
      rw [Script.verdictOn, hrules]
      rfl
    simp only [Script.reply, Script.visit?, hverdict] at hanswer
    have hget : archive.store.get path = .ok object := hanswer
    rw [Store.get] at hget
    split at hget
    case h_2 => cases hget
    case h_1 node hnode =>
      obtain rfl := Except.ok.inj hget
      have hpath : path = Path.ofString node.object.path := by
        have hsame : node.object.path = path.text := by simpa using List.find?_some hnode
        rw [hsame, Path.ofString_text]
      have hmem := List.mem_of_find?_eq_some hnode
      simp only [archive, List.mem_cons, List.not_mem_nil, or_false] at hmem
      rcases hmem with rfl | rfl | rfl
      · obtain rfl : path = .root := hpath.trans (by decide +kernel)
        exact ⟨"root", rfl⟩
      · obtain rfl : path = .child .root ⟨"d", by decide⟩ := hpath.trans (by decide +kernel)
        exact (hdir (by decide +kernel)).elim
      · obtain rfl : path = .child (.child .root ⟨"d", by decide⟩) ⟨"a", by decide⟩ :=
          hpath.trans (by decide +kernel)
        exact ⟨"a", rfl⟩

/-- Below the directory that has to be found in a listing, one file is found directly and another is
    missed in both ways. -/
theorem getter_is_shortcut_archive :
    let reply := Script.reply archive.store archive.rules
    let world : World Script.backend _ :=
      (gatherCalls ⟨archive, []⟩ plainMount [.stat "d/a", .stat "d/b"]).run [.turn 0, .turn 1]
    ((plainMount.lookup (plainMount.pathOf "d/a")).alone
        (service archive.store.offer reply) ()).1 =
      listed archive.store.offer reply plainMount (plainMount.pathOf "d/a") ∧
    ∃ result, world.result? 1 = some result ∧
      result = solo archive.store.offer.withoutGet reply plainMount (.stat "d/b") := by
  intro reply world
  have hreturned : (world.result? 1).isSome = true := by decide +kernel
  obtain ⟨result, hresult⟩ := Option.isSome_iff_exists.1 hreturned
  have hreads : ∀ call ∈ [Call.stat "d/a", Call.stat "d/b"], call.Reads := by simp [Call.Reads]
  obtain ⟨hlookup, hrun⟩ := getter_is_shortcut truthful_archive
  refine ⟨hlookup _, result, hresult, ?_⟩
  exact hrun (Script.steady (by simp [archive])) ⟨rfl, rfl⟩ hreads (by simp) (by simp) rfl hresult

end Archive

end Steady

end VirtualFs
