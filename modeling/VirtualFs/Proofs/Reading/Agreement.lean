import VirtualFs.Proofs.Reading.Transparency
import VirtualFs.Proofs.Reading.Walk

namespace VirtualFs

theorem except_map_injective {α β : Type} {f : α → β} (hf : f.Injective) :
    (Except.map f : Except Failure α → Except Failure β).Injective := by
  rintro (failure | a) (failure' | b) hsame
  · cases hsame
    rfl
  · cases hsame
  · cases hsame
  · exact congrArg _ (hf (Except.ok.inj hsame))

namespace Mount

/-- An entry is shown under a name and no entry before it is. -/
def FirstShown (name : Segment) (entries : List Entry) (entry : Entry) : Prop :=
  ∃ before after, entries = before ++ entry :: after ∧ entry.name = name.text ∧
    ∀ other ∈ before, other.name ≠ name.text

/-- What a search for a name comes to agrees with a listing: it finds the first entry that is shown
    under the name, and it fails only for want of one. -/
structure Agrees (name : Segment) (entries : List Entry) (found : Except Failure Entry) : Prop where
  shown : ∀ entry, found = .ok entry ↔ FirstShown name entries entry
  missing : ∀ {failure}, found = .error failure →
    failure.cause = .notFound ∧ ∀ entry ∈ entries, entry.name ≠ name.text

theorem pick_eq_ok_iff {name : Segment} {entries : List Entry} {entry : Entry} :
    pick name entries = .ok entry ↔ FirstShown name entries entry := by
  have hfind : pick name entries = .ok entry ↔
      entries.find? (fun entry => entry.name = name.text) = some entry := by
    rw [pick]
    cases entries.find? (fun entry => entry.name = name.text) <;> simp
  rw [hfind, List.find?_eq_some_iff_append, FirstShown]
  constructor
  · rintro ⟨hname, before, after, hentries, hothers⟩
    exact ⟨before, after, hentries, by simpa using hname, by simpa using hothers⟩
  · rintro ⟨before, after, hentries, hname, hothers⟩
    exact ⟨by simpa using hname, before, after, hentries, by simpa using hothers⟩

theorem agrees_pick (name : Segment) (entries : List Entry) :
    Agrees name entries (pick name entries) where
  shown _ := pick_eq_ok_iff
  missing := by
    intro failure hfailure
    rw [pick] at hfailure
    split at hfailure
    case h_1 => cases hfailure
    case h_2 hnone =>
      cases hfailure
      exact ⟨rfl, by simpa using hnone⟩

/-- A name behind that of a directory leads on from where the directory's leads. -/
theorem pathOf_child (mount : Mount) (dir : String) (name : Segment) :
    mount.pathOf (dir ++ "/" ++ name.text) = (mount.pathOf dir).child name := by
  apply Path.place_injective
  rw [pathOf, pathOf, Path.place, Path.place_join, Path.place_join, Path.ofString_append_segment,
    Path.place, List.append_assoc]

variable {mount : Mount} {offered : Offer} {reply : (request : Request) → request.Answer}

/-- A directory is listed alike at all times. -/
theorem alone_list_eq {σ : Type} {service : Service σ} (hfixed : service.Fixed offered reply)
    (hget : offered.get = false) (dir : Path) (state state' : σ) :
    ((mount.list dir).alone service state).1 = ((mount.list dir).alone service state').1 := by
  rw [list, listFound, Operation.alone_bind, Operation.alone_bind, lookup_eq_walk hfixed hget,
    lookup_eq_walk hfixed hget]
  cases (mount.walk offered reply dir).result with
  | error failure => rfl
  | ok entry =>
    dsimp only
    split
    · have hreads : (Request.list entry.object false).Reads := trivial
      simp only [Operation.alone_share, ListingPlan.request, hfixed.answer hreads]
    · rfl

/-- To look for a name in a directory that can be listed is to pick it from the listing. -/
theorem alone_lookup_of_list {σ : Type} {service : Service σ}
    (hfixed : service.Fixed offered reply) (hget : offered.get = false) {dir : Path}
    {state : σ} {entries : List Entry}
    (hlist : ((mount.list dir).alone service state).1 = .ok entries) (name : Segment)
    (state' : σ) :
    ((mount.lookup (dir.child name)).alone service state').1 = pick name entries := by
  have hlongWay : (service.offer state').get = false := by rw [hfixed.offer, hget]
  rw [alone_list_eq hfixed hget dir state state', list] at hlist
  rw [lookup, alone_direct hlongWay, Operation.alone_bind, Operation.alone_during, hlist]
  rfl

/-- What a name behind that of a listed directory leads to is picked from the listing. -/
theorem alone_stat_of_readDir {σ : Type} {service : Service σ}
    (hfixed : service.Fixed offered reply) (hget : offered.get = false) {dir : String}
    {state : σ} {entries : List Entry}
    (hlist : ((mount.readDir dir).alone service state).1 = .ok entries) (name : Segment)
    (state' : σ) :
    ((mount.stat (dir ++ "/" ++ name.text)).alone service state').1 = pick name entries := by
  rw [stat, pathOf_child]
  exact alone_lookup_of_list hfixed hget hlist name state'

/-- On a backend that does not change and has no direct access, a listing of a directory and a search
    for one of its names agree, whatever the names are mapped to: the first entry shown under a name
    is what the name leads to, and a name under which none is shown leads nowhere. The same is true
    when both are called for in the company of others, unless the search joined a listing whose
    starter was taken away. -/
theorem readDir_agrees_with_stat (hget : offered.get = false) (mount : Mount) (dir : String)
    (name : Segment) :
    (∀ {σ : Type} {service : Service σ}, service.Fixed offered reply →
      ∀ {state state' : σ} {entries : List Entry},
      ((mount.readDir dir).alone service state).1 = .ok entries →
      Agrees name entries
        ((mount.stat (dir ++ "/" ++ name.text)).alone service state').1) ∧
    ∀ {σ : Type} {backend : Backend σ} {holds : σ → Prop}
      {awaits : ∀ {request}, backend.Flight request → Prop},
      backend.Steady holds awaits offered reply →
      ∀ {surroundings : Surroundings σ}, holds surroundings.state →
      ∀ {calls : List Call} {moves : List (World.Move σ)}, (∀ call ∈ calls, call.Reads) →
      (∀ {change}, .change change ∈ moves →
        ∀ {s : Surroundings σ}, holds s.state → holds (change s).state) →
      ∀ {first second : Nat} {entries : List Entry} {found : Except Failure Entry},
      calls[first]? = some (.readDir dir) →
      calls[second]? = some (.stat (dir ++ "/" ++ name.text)) →
      ¬ (World.gatherCalls surroundings mount calls : World backend _).Spoilt moves second →
      ((World.gatherCalls surroundings mount calls : World backend _).run moves).result? first =
        some (.ok (.entries entries)) →
      ((World.gatherCalls surroundings mount calls : World backend _).run moves).result? second =
        some (found.map .entry) →
      Agrees name entries found := by
  refine ⟨fun hfixed _ _ _ hlist => ?_, ?_⟩
  · rw [alone_stat_of_readDir hfixed hget hlist]
    exact agrees_pick name _
  intro σ backend holds awaits hsteady surroundings hholds calls moves hreads hchanges first second
    entries found hfirst hsecond hunspoilt hlisted hfound
  have hsolo := (Steady.result_of_returned hsteady hholds hreads hchanges hfirst
    hlisted).resolve_right (by rintro ⟨⟨_, hfailure, -⟩, -⟩; cases hfailure)
  have hsolo' := (Steady.result_of_returned hsteady hholds hreads hchanges hsecond
    hfound).resolve_right (fun hlost => hunspoilt hlost.2)
  simp only [Steady.solo, Call.operation, Operation.alone_map] at hsolo hsolo'
  have hlist : .ok entries = ((mount.readDir dir).alone (Steady.service offered reply) ()).1 :=
    except_map_injective (fun _ _ => Answer.entries.inj) hsolo
  have hfixed : (Steady.service offered reply).Fixed offered reply :=
    ⟨fun _ => rfl, fun _ _ => rfl⟩
  rw [except_map_injective (fun _ _ => Answer.entry.inj) hsolo',
    alone_stat_of_readDir hfixed hget hlist.symm]
  exact agrees_pick name entries

section Namesakes

open Scenario World

/-- A store with two files whose names are shown alike, under a rule for the listing of its root. -/
def namesakes : Script where
  store :=
    { nodes :=
      [⟨{ id := "/", path := "/", isFolder := true }, none, [], .data []⟩,
        ⟨{ id := "1", name := "a/b", size := 1 }, some "/", [7], .data [7]⟩,
        ⟨{ id := "2", name := "a|b", size := 2 }, some "/", [8, 8], .data [8, 8]⟩] }
  rules := [⟨"list", "/", 0, .before, some "gate", none⟩]

/-- A directory is listed and one of its names is looked for at the same time. Two files are shown
    under the name, and the first of them is found. -/
theorem readDir_agrees_with_stat_namesakes :
    let mount : Mount := { plainMount with mapping := .standard }
    let release : Surroundings Script → Surroundings Script :=
      fun s => { s with state := { s.state with openGates := ["gate"] } }
    let start : World Script.backend _ :=
      gatherCalls ⟨namesakes, []⟩ mount [.readDir "", .stat "/a|b"]
    let world := start.run [.turn 0, .turn 1, .change release, .turn 1, .turn 0]
    let first : Object := { id := "1", name := "a/b", size := 1 }
    let second : Object := { id := "2", name := "a|b", size := 2 }
    world.result? 0 = some (.ok (.entries [⟨"a|b", first⟩, ⟨"a|b", second⟩])) ∧
      world.result? 1 = some (.ok (.entry ⟨"a|b", first⟩)) := by
  intro mount release start world first second
  have hanswers : (world.result? 0).bind listed? = some [⟨"a|b", first⟩, ⟨"a|b", second⟩] ∧
      ((world.result? 1).bind found?).isSome = true := by
    decide +kernel
  obtain ⟨result, hlisted, hentries⟩ := Option.bind_eq_some_iff.1 hanswers.1
  rw [listed?_eq_some_iff.1 hentries] at hlisted
  obtain ⟨entry, hentry⟩ := Option.isSome_iff_exists.1 hanswers.2
  obtain ⟨result', hfound, hentry⟩ := Option.bind_eq_some_iff.1 hentry
  rw [found?_eq_some_iff.1 hentry] at hfound
  have hfound' : world.result? 1 = some ((.ok entry : Except Failure Entry).map .entry) := hfound
  have hreads : ∀ call ∈ [Call.readDir "", Call.stat "/a|b"], call.Reads := by simp [Call.Reads]
  have halike : ∀ rule ∈ namesakes.rules, rule.nth = 0 := by simp [namesakes]
  have hchanges : ∀ {change}, Move.change change ∈
      [.turn 0, .turn 1, .change release, .turn 1, .turn 0] → ∀ {s : Surroundings Script},
      Script.Stands namesakes.store namesakes.rules s.state →
        Script.Stands namesakes.store namesakes.rules (change s).state := by
    intro change hchange s hstands
    obtain rfl : change = release := by simpa using hchange
    exact hstands
  have hunspoilt : ¬ start.Spoilt [.turn 0, .turn 1, .change release, .turn 1, .turn 0] 1 := by
    intro hspoilt
    obtain ⟨other, hdrop⟩ := hspoilt.exists_drop
    simp at hdrop
  have hstands : Script.Stands namesakes.store namesakes.rules
      (⟨namesakes, []⟩ : Surroundings Script).state := ⟨rfl, rfl⟩
  have hget : namesakes.store.offer.get = false := rfl
  have hagrees := (readDir_agrees_with_stat hget mount "" ⟨"a|b", by decide⟩).2
    (Script.steady halike) hstands hreads hchanges rfl rfl hunspoilt hlisted hfound'
  have hshown : (.ok entry : Except Failure Entry) = .ok ⟨"a|b", first⟩ :=
    (hagrees.shown _).2 ⟨[], [⟨"a|b", second⟩], rfl, rfl, by simp⟩
  rw [Except.ok.inj hshown] at hfound
  exact ⟨hlisted, hfound⟩

end Namesakes

end Mount

end VirtualFs
