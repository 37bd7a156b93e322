import VirtualFs.Proofs.Reading.Scripted
import VirtualFs.Proofs.World.Safety

namespace VirtualFs

variable {σ : Type}

namespace Steady

variable {offered : Offer} {reply : (request : Request) → request.Answer} {mount : Mount}

section Lookup

theorem faithful_direct {path : Path} {longWay : Operation Entry}
    (hlongWay : Faithful offered reply mount longWay) :
    Faithful offered reply mount (mount.direct path longWay) := by
  refine faithful_offer.bind fun {offer} _ => ?_
  split
  case isFalse => exact hlongWay
  case isTrue =>
    refine (faithful_attempt_ask (by trivial)).bind fun {answer} _ => ?_
    cases answer with
    | ok object => exact faithful_pure _
    | error failure => exact (faithful_log _).bind fun _ => hlongWay

theorem faithful_describeRoot : Faithful offered reply mount mount.describeRoot := by
  refine faithful_offer.bind fun {offer} _ => ?_
  refine (faithful_require _).bind fun {source} _ => ?_
  refine (faithful_log _).bind fun _ => ?_
  cases source with
  | asked => exact (faithful_ask (by trivial)).during.bind fun _ => faithful_pure _
  | id id => exact faithful_pure _
  | path path => exact faithful_pure _

/-- The directory that is listed was found as it is found alone, so its listing may be shared. -/
theorem faithful_listFound {dir : Path} (hlookup : Faithful offered reply mount (mount.lookup dir)) :
    Faithful offered reply mount (mount.listFound dir (mount.lookup dir)) := by
  refine hlookup.bind fun {entry} hentry => ?_
  split
  case isTrue => exact faithful_share ⟨rfl, rfl, entry.name, hentry⟩
  case isFalse => exact faithful_fail _

/-- By induction on the path: each level is a listing of the one above. -/
theorem faithful_lookup (path : Path) : Faithful offered reply mount (mount.lookup path) := by
  induction path with
  | root =>
    rw [Mount.lookup]
    exact faithful_direct faithful_describeRoot
  | child dir name ih =>
    rw [Mount.lookup]
    refine faithful_direct ?_
    exact (faithful_listFound ih).during.bind fun _ => faithful_require _

end Lookup

theorem faithful_readDir (name : String) : Faithful offered reply mount (mount.readDir name) :=
  faithful_listFound (faithful_lookup _)

theorem faithful_read (name : String) (offset length : UInt64) :
    Faithful offered reply mount (mount.read name offset length) := by
  refine (faithful_lookup _).during.bind fun {file} _ => ?_
  split
  case isTrue => exact faithful_fail _
  case isFalse =>
    refine (faithful_ask (by trivial)).during.bind fun {link} _ => ?_
    refine Faithful.bind (Faithful.during ?_) fun {readable} _ => ?_
    · cases link with
      | data content => exact faithful_pure _
      | reader reader => exact faithful_pure _
      | url address headers =>
        cases hopener : mount.opener with
        | some opener => exact (faithful_ask (by trivial)).bind fun _ => faithful_pure _
        | none => exact faithful_fail _
    · refine (faithful_log _).bind fun _ => ?_
      exact (faithful_ask (by trivial)).bind fun _ => faithful_pure _

end Steady

/-- A call that only looks. -/
def Call.Reads : Call → Prop
  | stat _ => True
  | readDir _ => True
  | names _ => True
  | read _ _ _ => True
  | _ => False

open Steady in
theorem Call.Reads.faithful {call : Call} (hreads : call.Reads) {offered : Offer}
    {reply : (request : Request) → request.Answer} {mount : Mount} :
    Faithful offered reply mount (call.operation mount) := by
  cases call with
  | stat name => exact (faithful_lookup _).map
  | readDir name => exact (faithful_readDir name).map
  | names name => exact (faithful_readDir name).map
  | read name offset length => exact (faithful_read name offset length).map
  | delete name => exact hreads.elim
  | write name content => exact hreads.elim
  | writeFrom name source => exact hreads.elim

namespace Steady

open World

variable {backend : Backend σ} {holds : σ → Prop}
  {awaits : ∀ {request}, backend.Flight request → Prop} {offered : Offer}
  {reply : (request : Request) → request.Answer}

variable (offered reply) in
/-- What a call comes to with nobody else about. -/
def solo (mount : Mount) (call : Call) : Except Failure Answer :=
  ((call.operation mount).alone (service offered reply) ()).1

theorem result_of_returned (hsteady : backend.Steady holds awaits offered reply)
    {surroundings : Surroundings σ} (hholds : holds surroundings.state) {mount : Mount}
    {calls : List Call} (hcalls : ∀ call ∈ calls, call.Reads) {moves : List (Move σ)}
    (hchanges : ∀ {change}, .change change ∈ moves →
      ∀ {s : Surroundings σ}, holds s.state → holds (change s).state)
    {index : Nat} {call : Call} {result : Except Failure Answer}
    (hcall : calls[index]? = some call)
    (hreturned : ((gatherCalls surroundings mount calls : World backend _).run moves).result? index =
      some result) :
    result = solo offered reply mount call ∨
      ((∃ failure, result = .error failure ∧ failure.cause = .cancelled) ∧
        (gatherCalls surroundings mount calls : World backend _).Spoilt moves index) := by
  have hstart : ∀ {forsaken spoilt}, (gatherCalls surroundings mount calls : World backend _).Sound
      (accord offered reply mount).pact (fun _ => accord offered reply mount) (realization hsteady)
      (fun index cut t result => ∀ call, calls[index]? = some call →
        Plain (solo offered reply mount call) cut t result) forsaken spoilt () := by
    refine sound_gather hholds trivial trivial fun {index procedure} hprocedure => ?_
    obtain ⟨call, hcall, rfl⟩ : ∃ call, calls[index]? = some call ∧
        (call.operation mount).run = procedure := by
      simpa using hprocedure
    refine Procedure.Safe.weaken (hcalls call (List.mem_of_getElem? hcall)).faithful.run ?_
    intro cut t result hplain other hother
    rw [hcall] at hother
    obtain rfl := Option.some.inj hother
    exact hplain
  have hallowed : ∀ move ∈ moves, move.Allowed (accord offered reply mount).toDrift
      (realization hsteady) := by
    intro move hmove
    cases move with
    | turn index => trivial
    | drop index => trivial
    | change change => exact fun hshows => hchanges hmove hshows
  obtain ⟨t, -, hworld, -⟩ := sound_run hstart (fun _ => Accord.joins trivial) hallowed
  obtain ⟨cut, hspoilt, hplain⟩ := hworld.returned hreturned
  cases cut with
  | false => exact .inl (hplain call hcall)
  | true => exact .inr ⟨hplain call hcall, hspoilt rfl⟩

/-- Whoever looks at a backend that does not change sees what it would see alone. A call that comes
    to anything else has joined a listing whose starter was taken away before the end, and gets word
    of just that. So when nobody is taken away, every call returns what it returns when it is the
    only one. -/
theorem transparent_run (hsteady : backend.Steady holds awaits offered reply)
    {surroundings : Surroundings σ} (hholds : holds surroundings.state) (mount : Mount)
    {calls : List Call} (hcalls : ∀ call ∈ calls, call.Reads) {moves : List (Move σ)}
    (hchanges : ∀ {change}, .change change ∈ moves →
      ∀ {s : Surroundings σ}, holds s.state → holds (change s).state)
    {index : Nat} {call : Call} {result : Except Failure Answer}
    (hcall : calls[index]? = some call)
    (hreturned : ((gatherCalls surroundings mount calls : World backend _).run moves).result? index =
      some result) :
    (result = solo offered reply mount call ∨
      ((∃ failure, result = .error failure ∧ failure.cause = .cancelled) ∧
        (gatherCalls surroundings mount calls : World backend _).Spoilt moves index)) ∧
    ((∀ other, .drop other ∉ moves) → result = solo offered reply mount call) ∧
    ∀ {surroundings' : Surroundings σ} {moves' : List (Move σ)} {result'},
      holds surroundings'.state → (∀ other, .drop other ∉ moves') →
      (∀ {change}, .change change ∈ moves' →
        ∀ {s : Surroundings σ}, holds s.state → holds (change s).state) →
      ((gatherCalls surroundings' mount [call] : World backend _).run moves').result? 0 =
        some result' →
      result' = solo offered reply mount call := by
  have hcalm : ∀ {surroundings : Surroundings σ} {calls : List Call}
      {moves : List (Move σ)} {index : Nat}, (∀ other, .drop other ∉ moves) →
      ¬ (gatherCalls surroundings mount calls : World backend _).Spoilt moves index := by
    intro surroundings calls moves index hstay hspoilt
    obtain ⟨other, hdrop⟩ := hspoilt.exists_drop
    exact hstay other hdrop
  have hresult := result_of_returned hsteady hholds hcalls hchanges hcall hreturned
  refine ⟨hresult, fun hstay => hresult.resolve_right (fun h => hcalm hstay h.2), ?_⟩
  intro surroundings' moves' result' hholds' hstay hchanges' hreturned'
  have hreads : ∀ other ∈ [call], other.Reads := by
    simpa using hcalls call (List.mem_of_getElem? hcall)
  have hresult' := result_of_returned hsteady hholds' hreads hchanges' rfl hreturned'
  exact hresult'.resolve_right (fun h => hcalm hstay h.2)

section Shelf

open Scenario

/-- A store with one file in its root, under some rules. -/
def shelf (rules : List Rule) : Script where
  store :=
    { nodes :=
      [⟨{ id := "/", path := "/", isFolder := true }, none, [], .data []⟩,
        ⟨{ id := "/a", path := "/a", name := "a", size := 1 }, some "/", [7], .data [7]⟩] }
  rules := rules

/-- Two callers share the listing of the root, which waits for a gate. -/
theorem transparent_stat_shared :
    let rules : List Rule := [⟨"list", "/", 0, .before, some "gate", none⟩]
    let start : World Script.backend _ :=
      gatherCalls ⟨shelf rules, []⟩ plainMount [.stat "a", .stat "a"]
    let release : Surroundings Script → Surroundings Script :=
      fun s => { s with state := { s.state with openGates := ["gate"] } }
    ∃ result, (start.run [.turn 0, .turn 1, .change release, .turn 1, .turn 0]).result? 1 =
        some result ∧
      result = solo (shelf rules).store.offer (Script.reply (shelf rules).store rules) plainMount
        (.stat "a") := by
  intro rules start release
  have hreturned : ((start.run [.turn 0, .turn 1, .change release, .turn 1, .turn 0]).result?
      1).isSome = true := by
    decide +kernel
  obtain ⟨result, hresult⟩ := Option.isSome_iff_exists.1 hreturned
  refine ⟨result, hresult, ?_⟩
  have halike : ∀ rule ∈ rules, rule.nth = 0 := by simp [rules]
  have hreads : ∀ call ∈ [Call.stat "a", Call.stat "a"], call.Reads := by simp [Call.Reads]
  have hchanges : ∀ {change}, Move.change change ∈
      [.turn 0, .turn 1, .change release, .turn 1, .turn 0] → ∀ {s : Surroundings Script},
      Script.Stands (shelf rules).store rules s.state →
        Script.Stands (shelf rules).store rules (change s).state := by
    intro change hchange s hstands
    obtain rfl : change = release := by simpa using hchange
    exact hstands
  exact (transparent_run (Script.steady halike) ⟨rfl, rfl⟩ plainMount hreads hchanges rfl
    hresult).2.1 (by simp)

/-- Word of a lost listing may also be the backend's own, which is passed on like any other
    failure. Nobody has joined anything here and nobody is taken away. -/
theorem cancelled_alone :
    let rules : List Rule := [⟨"list", "/", 0, .before, none, some Cause.cancelled⟩]
    let start : World Script.backend _ := gatherCalls ⟨shelf rules, []⟩ plainMount [.stat "a"]
    Script.backend.Steady (Script.Stands (shelf rules).store rules)
        (Script.Awaits (shelf rules).store rules) (shelf rules).store.offer
        (Script.reply (shelf rules).store rules) ∧
      Script.Stands (shelf rules).store rules (shelf rules) ∧
      (∃ failure, (start.run [.turn 0]).result? 0 = some (.error failure) ∧
        failure.cause = .cancelled) ∧
      ¬ start.Spoilt [.turn 0] 0 := by
  intro rules start
  have hcancelled : ((start.run [.turn 0]).result? 0).any (fun
      | .error failure => decide (failure.cause = .cancelled)
      | .ok _ => false) = true := by
    decide +kernel
  refine ⟨Script.steady (by simp [rules]), ⟨rfl, rfl⟩, ?_, ?_⟩
  · obtain ⟨result, hresult, hcause⟩ := (Option.any_eq_true _ _).1 hcancelled
    cases result with
    | ok answer => cases hcause
    | error failure => exact ⟨failure, hresult, by simpa using hcause⟩
  · intro hspoilt
    obtain ⟨other, hdrop⟩ := hspoilt.exists_drop
    simp at hdrop

end Shelf

end Steady

end VirtualFs
