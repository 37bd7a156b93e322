import VirtualFs.Proofs.Reading.Scripted
import VirtualFs.Proofs.Writing.Stored

namespace VirtualFs.Scenario

open VirtualFs.Tree

/-- Whether an answer tells of the object made depends on the store's manners only. -/
theorem Store.tell_eq {store : Store} {reticent : Bool} (hreticent : store.reticent = reticent)
    (request : Request) (answer : request.Answer) :
    store.tell request answer = ({ reticent } : Store).tell request answer := by
  cases request with
  | makeDirReporting parent name => simp [Store.tell, hreticent]
  | _ => rfl

/-- What a store does with a request is what a tree permits, and changes nothing but its nodes. -/
theorem Store.Shows.effect {store : Store} {t : Tree} {request : Request} (hshows : store.Shows t)
    (huses : Tree.behaviour.Uses request t) :
    ∃ t', Tree.behaviour.permits request t (store.tell request (store.effect request).1) t' ∧
      (store.effect request).2.Shows t' ∧ t'.place = t.place ∧
      ∃ nodes, (store.effect request).2 = { store with nodes } := by
  cases request with
  | list object refresh => exact ⟨t, ⟨rfl, hshows.list⟩, hshows, rfl, store.nodes, rfl⟩
  | getRoot => exact ⟨t, ⟨rfl, hshows.getRoot⟩, hshows, rfl, store.nodes, rfl⟩
  | makeDir parent name =>
    obtain ⟨t', hshows', hsame, -, hmakes⟩ := hshows.makeDir huses.1 huses.2
    have hforgotten : ((store.makeDir parent name).1.map (fun _ => ())).map (fun _ => none) =
        (store.makeDir parent name).1.map (fun _ => (none : Option Object)) := by
      cases (store.makeDir parent name).1 <;> rfl
    exact ⟨t', hforgotten ▸ hmakes, hshows', hsame, store.exists_nodes_makeDir parent name⟩
  | makeDirReporting parent name =>
    obtain ⟨t', hshows', hsame, hmakes, hmakes'⟩ := hshows.makeDir huses.1 huses.2
    have hforgotten : ((store.makeDir parent name).1.map some).map (fun _ => none) =
        (store.makeDir parent name).1.map (fun _ => (none : Option Object)) := by
      cases (store.makeDir parent name).1 <;> rfl
    refine ⟨t', ?_, hshows', hsame, store.exists_nodes_makeDir parent name⟩
    rw [Store.tell]
    cases store.reticent with
    | true => exact hforgotten ▸ hmakes'
    | false => exact hmakes
  | put form parent upload path =>
    obtain ⟨husable, hplain, dir, hplace, hdir, hfree⟩ := huses
    obtain ⟨t', file, hshows', hsame, hfile, -, hgains⟩ :=
      hshows.put husable hplain hplace hdir hfree
    refine ⟨t', fun {here} hhere _ _ => ?_, hshows', hsame, store.exists_nodes_put parent upload⟩
    rw [hplace] at hhere
    obtain rfl := Option.some.inj hhere
    exact ⟨rfl, file, hfile, hgains⟩
  | link | remove | get | openLink | readRange | drain | connect => exact huses.elim

namespace Script

/-- A script carries a tree if its store does and if its rules let no request fail. -/
structure Carries (reticent : Bool) (script : Script) (t : Tree) : Prop where
  store : script.store.Shows t
  offers : Tree.behaviour.offers t script.store.offer
  reticent : script.store.reticent = reticent
  calm : ∀ rule ∈ script.rules, rule.failure = none

/-- The answer that a request in flight is owed. -/
def Owes (reticent : Bool) {request : Request} : Flight request → Option request.Answer → Prop
  | .before _ _ rest, owed => verdict rest = none ∧ owed = none
  | .after rest answer, owed =>
    verdict rest = none ∧ owed = some (({ reticent } : Store).tell request answer)

variable {reticent : Bool} {script : Script} {t t' : Tree} {request : Request}

theorem Carries.verdict_eq_none (hcarries : Carries reticent script t) (applies : Rule → Bool) :
    verdict (script.rules.filter applies) = none := by
  rw [verdict, List.findSome?_eq_none_iff]
  exact fun rule hrule => hcarries.calm rule (List.mem_of_mem_filter hrule)

/-- What a tree shows of its root does not change with its items. -/
theorem offers_of_place {offer : Offer} (hplace : t'.place = t.place)
    (hoffers : Tree.behaviour.offers t offer) : Tree.behaviour.offers t' offer := by
  obtain ⟨hget, hput, hmake, source, hsource, hroot⟩ := hoffers
  refine ⟨hget, hput, hmake, source, hsource, ?_⟩
  rw [hplace]
  exact hroot

private theorem brings_conclude {rest : List Rule} {answer : request.Answer}
    {before : Option request.Answer} (hcarries : Carries reticent script t')
    (hrest : verdict rest = none)
    (hmoves : Tree.behaviour.Moves request before t
      (some (({ reticent } : Store).tell request answer)) t') :
    backend.Brings Tree.behaviour (Carries reticent) (Owes reticent) before t
      (conclude request rest answer script) := by
  refine ⟨_, t', hmoves, ?_⟩
  rw [conclude]
  rcases obey_cases script.openGates rest with hobey | ⟨waiting, hobey, hverdict⟩
  · rw [hobey, hrest]
    exact ⟨hcarries, congrArg some (Store.tell_eq hcarries.reticent request answer).symm⟩
  · rw [hobey]
    exact ⟨hcarries, hverdict.trans hrest, rfl⟩

private theorem brings_proceed {visit : Visit} {count : Nat} {rest : List Rule}
    (huses : Tree.behaviour.Uses request t) (hcarries : Carries reticent script t)
    (hrest : verdict rest = none) :
    backend.Brings Tree.behaviour (Carries reticent) (Owes reticent) none t
      (proceed request visit count rest script) := by
  rw [proceed]
  rcases obey_cases script.openGates rest with hobey | ⟨waiting, hobey, hverdict⟩
  · rw [hobey, hrest]
    obtain ⟨t', hpermits, hshows, hplace, nodes, hnodes⟩ := hcarries.store.effect huses
    dsimp only
    have hcarries' : Carries reticent { script with store := (script.store.effect request).2 }
        t' := by
      rw [hnodes] at hshows ⊢
      exact ⟨hshows, offers_of_place hplace hcarries.offers, hcarries.reticent, hcarries.calm⟩
    refine brings_conclude hcarries' (hcarries.verdict_eq_none _) (.acts ?_)
    rw [← Store.tell_eq hcarries.reticent]
    exact hpermits
  · rw [hobey]
    exact ⟨none, t, .waits none t, hcarries, hverdict.trans hrest, rfl⟩

private theorem brings_issue (huses : Tree.behaviour.Uses request t)
    (hcarries : Carries reticent script t) :
    backend.Brings Tree.behaviour (Carries reticent) (Owes reticent) none t
      (issue request script) := by
  rw [issue]
  cases hvisit : visit? request with
  | none =>
    cases request with
    | list | makeDir | makeDirReporting | getRoot => cases hvisit
    | put form => cases form <;> cases hvisit
    | link | remove | get | openLink | readRange | drain | connect => exact huses.elim
  | some visit =>
    have hseen : ∀ line, Carries reticent
        { script.write line with visits := visit :: script.visits } t := fun line =>
      ⟨hcarries.store, hcarries.offers, hcarries.reticent, hcarries.calm⟩
    exact brings_proceed huses (hseen _) ((hseen _).verdict_eq_none _)

private theorem carries_abandon (hcarries : Carries reticent script t) (flight : Flight request) :
    Carries reticent (abandon request flight script) t := by
  rw [abandon]
  split
  · exact ⟨hcarries.store, hcarries.offers, hcarries.reticent, hcarries.calm⟩
  · exact hcarries

/-- A scripted store behaves as the tree that it carries, whatever its rules hold up. -/
def realization (reticent : Bool) : Realization backend Tree.behaviour where
  shows := Carries reticent
  Owes := Owes reticent
  offer hcarries := hcarries.offers
  issue huses hcarries := brings_issue huses hcarries
  resume := by
    intro script t request flight owed huses howes hcarries
    cases flight with
    | before visit count rest =>
      obtain ⟨hrest, rfl⟩ := howes
      exact brings_proceed huses hcarries hrest
    | after rest answer =>
      obtain ⟨hrest, rfl⟩ := howes
      exact brings_conclude hcarries hrest (.waits _ t)
  abandon flight _ hcarries := carries_abandon hcarries flight

end Script

end VirtualFs.Scenario
