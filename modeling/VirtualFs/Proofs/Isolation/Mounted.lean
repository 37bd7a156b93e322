import VirtualFs.Proofs.Attentive.Store
import VirtualFs.Proofs.Gate
import VirtualFs.Proofs.Isolation.Calls
import VirtualFs.Proofs.Isolation.Watched
import VirtualFs.Proofs.World.Fair
import VirtualFs.Proofs.World.Safety

namespace VirtualFs

open VirtualFs.Tree VirtualFs.Chronicle

variable {σ : Type}

namespace World

/-- A move over a backend is one over the backend of which an account is kept. -/
def Move.watched : Move σ → Move (Watched σ)
  | .turn index => .turn index
  | .drop index => .drop index
  | .change effect => .change (fun s =>
    let after := effect ⟨s.state.state, s.log⟩
    ⟨s.state.pass after.state, after.log⟩)

/-- A move that changes nothing that the backend shows, unless a task makes it. -/
def Move.Still {behaviour : Behaviour Tree} {backend : Backend σ}
    (realization : Realization backend behaviour) : Move σ → Prop
  | .change effect => ∀ {s t}, realization.shows s.state t → realization.shows (effect s).state t
  | _ => True

variable {backend : Backend σ}

/-- A build that has not begun yet, over a backend of which an account is kept. -/
def building (surroundings : Surroundings σ) (number : Nat) (config : Config)
    (opener : Option Opener) : World backend.watched (Except Failure Answer) :=
  gather ⟨.begin surroundings.state, surroundings.log⟩
    [(Answer.mounted <$> Mount.build number config opener : Operation Answer).run]

/-- Some calls over a mount come to a world. -/
def startCalls (mount : Mount) (calls : List Call) (world : World backend (Except Failure Answer)) :
    World backend (Except Failure Answer) :=
  calls.foldl (fun world call => world.start (call.operation mount).run) world

variable {realization : Realization backend confined}

theorem Move.Calm.watched {move : Move σ} (hcalm : move.Calm realization) (base : Place) :
    move.watched.Calm (realization.watched base) := by
  cases move with
  | turn index => trivial
  | drop index => exact hcalm.elim
  | change change =>
    intro s c hagrees
    have hpassed := Agrees.pass hagrees (hcalm (s := ⟨s.state.state, s.log⟩) hagrees.shows)
    rwa [c.next_tree] at hpassed

theorem Move.Still.allowed {move : Move σ} (hstill : move.Still realization) (fence : Fence) :
    move.watched.Allowed fence.accord.toDrift (realization.watched _) := by
  cases move with
  | turn index => trivial
  | drop index => trivial
  | change change =>
    intro s c hagrees
    have hpassed := Agrees.pass hagrees (hstill (s := ⟨s.state.state, s.log⟩) hagrees.shows)
    rwa [c.next_tree] at hpassed

/-- The build is to come to the mount of the fence, and nothing is asked of the calls after it. -/
def Builds (fence : Fence) (index : Nat) (_ : Bool) (c : Chronicle fence.mount.base.place)
    (result : Except Failure Answer) : Prop :=
  index = 0 → ∀ mount, result = .ok (.mounted mount) →
    mount = fence.mount ∧ c.tree.Ready fence.mount.base.place

theorem sound_building (fence : Fence) {surroundings : Surroundings σ} {number : Nat}
    {config : Config} {opener : Option Opener}
    (hshows : realization.shows surroundings.state fence.start)
    (hmount : fence.mount = .ofConfig number config opener) :
    ∃ c : Chronicle fence.mount.base.place, c.tree = fence.start ∧ ∀ {forsaken spoilt},
      (building surroundings number config opener).Sound fence.accord.pact
      (fun _ => fence.accord) (realization.watched _) (Builds fence) forsaken spoilt c := by
  let c : Chronicle fence.mount.base.place :=
    ⟨fence.start, fun object => ∃ here, fence.start.place object = some here ∧
      fence.mount.base.place <+: here, fun hplace hbelow => ⟨_, hplace, hbelow⟩⟩
  have hagrees : Agrees realization fence.mount.base.place (.begin surroundings.state) c := by
    refine ⟨hshows, rfl, ?_, fun issue hissue => by cases hissue⟩
    rintro object ⟨here, hplace, hbelow⟩
    exact ⟨_, List.mem_singleton.2 rfl, _, here, hshows, hplace, hbelow⟩
  refine ⟨c, rfl, sound_gather hagrees trivial trivial fun {index procedure} hprocedure => ?_⟩
  rw [List.getElem?_singleton] at hprocedure
  split at hprocedure
  case isFalse => cases hprocedure
  case isTrue hindex =>
    obtain rfl := Option.some.inj hprocedure
    have hbuild : (Answer.mounted <$> Mount.build number config opener : Operation Answer).Safe
        fence.accord (Builds fence index) false c := by
      have hreached : fence.Reached c := Tree.Keeps.refl _ _
      refine Operation.Safe.map ((Fence.safe_build hreached hmount).weaken ?_)
      intro cut c result hresult _ mount hmounted
      cases result with
      | error failure => cases hmounted
      | ok built =>
        cases hmounted
        exact hresult _ rfl
    exact hbuild.run

theorem Sound.startCalls {fence : Fence} {forsaken spoilt : Nat → Prop}
    {c : Chronicle fence.mount.base.place} {world : World backend.watched (Except Failure Answer)}
    (hworld : world.Sound fence.accord.pact (fun _ => fence.accord) (realization.watched _)
      (Builds fence) forsaken spoilt c)
    (hreached : fence.Reached c) (hlength : 0 < world.tasks.length) (calls : List Call) :
    (world.startCalls fence.mount calls).Sound fence.accord.pact (fun _ => fence.accord)
      (realization.watched _) (Builds fence) forsaken spoilt c := by
  induction calls generalizing world with
  | nil => exact hworld
  | cons call calls ih =>
    have hsafe : ((call.operation fence.mount).run).Safe fence.accord
        (Builds fence world.tasks.length) false c :=
      (Fence.safe_call hreached call).run.weaken fun _ h => by omega
    exact ih (hworld.start hsafe) (by simp [World.start])

/-- The calls of a mount stay at and below its base. Once a build has succeeded, whatever is called by
    whatever names and in whatever order, nothing else in the backend changes, and what is removed,
    stored or handed out is found there. -/
theorem isolated_run {surroundings : Surroundings σ} {start : Tree} {number : Nat} {config : Config}
    {opener : Option Opener} {mount : Mount}
    (hshows : realization.shows surroundings.state start)
    (hplain : ∀ {dir name x}, start.item (dir ++ [name]) = some x →
      config.mapping.apply name = name)
    (hbase : ∀ name ∈ (Path.ofString config.baseDir).place, config.mapping.apply name = name)
    {moves : List (Move σ)} (hcalm : ∀ move ∈ moves, move.Calm realization)
    (hbuilt : ((building surroundings number config opener : World backend.watched _).run
      (moves.map Move.watched)).result? 0 = some (.ok (.mounted mount)))
    (calls : List Call) {moves' : List (Move σ)} (hstill : ∀ move ∈ moves', move.Still realization) :
    let built : World backend.watched _ :=
      (building surroundings number config opener).run (moves.map Move.watched)
    let world := (built.startCalls mount calls).run (moves'.map Move.watched)
    ∃ t t', realization.shows built.scene.surroundings.state.state t ∧
      realization.shows world.scene.surroundings.state.state t' ∧
      (∀ {here}, ¬ mount.base.place <+: here → t'.item here = t.item here) ∧
      ∀ issue ∈ world.scene.surroundings.state.issued,
        WasProper realization mount.base.place issue := by
  intro built world
  let fence : Fence := ⟨.ofConfig number config opener, start, hplain, hbase⟩
  obtain ⟨c₀, hstart, hsound⟩ := sound_building fence hshows rfl
  have hcalm' : ∀ move ∈ moves.map Move.watched,
      move.Calm (realization.watched fence.mount.base.place) := by
    intro move hmove
    obtain ⟨move, hmem, rfl⟩ := List.mem_map.1 hmove
    exact (hcalm move hmem).watched _
  obtain ⟨c, hkeeps, hworld, -⟩ := sound_run_of_calm hsound (fun _ => Accord.joins trivial) hcalm'
  have hreached : fence.Reached c := by
    rw [Fence.Reached, ← hstart]
    exact hkeeps.tree
  have hnobody := @hworld (fun _ => False) (fun _ => False)
  obtain ⟨cut, -, hpost⟩ := hnobody.returned hbuilt
  obtain ⟨rfl, hready⟩ := hpost rfl _ rfl
  have hlength : 0 < built.tasks.length :=
    (List.getElem?_eq_some_iff.1 (result?_eq_some_iff.1 hbuilt)).1
  have hstill' : ∀ move ∈ moves'.map Move.watched,
      move.Allowed fence.accord.toDrift (realization.watched _) := by
    intro move hmove
    obtain ⟨move, hmem, rfl⟩ := List.mem_map.1 hmove
    exact (hstill move hmem).allowed fence
  obtain ⟨c', hkeeps', hworld', -⟩ := sound_run
    (fun {forsaken spoilt} => (@hworld forsaken spoilt).startCalls hreached hlength calls)
    (fun _ => Accord.joins trivial) hstill'
  exact ⟨c.tree, c'.tree, hnobody.scene.shows.shows, hworld'.scene.shows.shows,
    hkeeps'.tree.item_eq hready, hworld'.scene.shows.issued⟩

section Outsider

open Scenario

/-- A careful store that never makes anybody wait is confined. -/
def confining : Realization (Store.careful.behindGate fun _ => false) confined :=
  (Store.careful_obeys.of_extends attentive_extends).realization

theorem holds_of_shows {gated : Gated Store} {t : Tree} (hshows : confining.shows gated t) :
    gated.state.Holds t := hshows

/-- A store with one file right below its root. -/
def stocked : Store :=
  (Store.careful.answer (.put .plain { id := "/" } ⟨{ name := "f" }, [7]⟩ .root) (bare []).store).2

/-- A build over such a store that has had its turn. The file stands beside the base. -/
def built : World (Store.careful.behindGate fun _ => false).watched (Except Failure Answer) :=
  (building ⟨⟨stocked, true⟩, []⟩ 0 { baseDir := "/b/", mapping := .identity } none).run
    ([.turn 0].map Move.watched)

theorem holdsFile_of_shows {t : Tree}
    (hshows : confining.shows built.scene.surroundings.state.state t) : t.HoldsFile ["f"] [7] := by
  have hstocked : built.scene.surroundings.state.state.state.nodes.any (fun node =>
      decide (node.key = (Path.child .root ⟨"f", by decide⟩).text ∧ node.content = [7] ∧
        node.object.isFolder = false)) = true := by
    decide +kernel
  exact (holds_of_shows hshows).holdsFile _ hstocked

/-- The mount that a build has come to. -/
def mounted? : Except Failure Answer → Option Mount
  | .ok (.mounted mount) => some mount
  | _ => none

theorem mounted?_eq_some_iff {result : Except Failure Answer} {mount : Mount} :
    mounted? result = some mount ↔ result = .ok (.mounted mount) := by
  cases result with
  | error failure => simp [mounted?]
  | ok answer => cases answer <;> simp [mounted?]

/-- Two callers name the file beside the base of their mount, one to remove it and one to replace it.
    It stays as it is. -/
theorem isolated_run_outsider :
    ∃ mount, built.result? 0 = some (.ok (.mounted mount)) ∧ mount.base.place = ["b"] ∧
      let world := (built.startCalls mount [.delete "../f", .write "x/../../f" [1]]).run
        ([.turn 2, .turn 1].map Move.watched)
      ∃ t t', confining.shows built.scene.surroundings.state.state t ∧ t.HoldsFile ["f"] [7] ∧
        confining.shows world.scene.surroundings.state.state t' ∧ t'.item ["f"] = t.item ["f"] := by
  obtain ⟨start, -, hstart⟩ := Store.careful_obeys.answer
    (.put .plain { id := "/" } ⟨{ name := "f" }, [7]⟩ .root) trivial Mount.holds_bare
  have hmounted : ((built.result? 0).bind mounted?).any
      (fun mount => decide (mount.base.place = ["b"])) = true := by
    decide +kernel
  obtain ⟨mount, hmount, hbase⟩ := (Option.any_eq_true _ _).1 hmounted
  obtain ⟨result, hresult, hmount⟩ := Option.bind_eq_some_iff.1 hmount
  have hbuilt : built.result? 0 = some (.ok (.mounted mount)) := by
    rw [hresult, mounted?_eq_some_iff.1 hmount]
  have hplace : mount.base.place = ["b"] := by simpa using hbase
  have hshows : confining.shows (⟨⟨stocked, true⟩, []⟩ : Surroundings _).state start := hstart
  have hcalm : ∀ move ∈ [Move.turn 0], move.Calm confining := by simp [Move.Calm]
  have hstill : ∀ move ∈ [Move.turn 2, .turn 1], move.Still confining := by simp [Move.Still]
  obtain ⟨t, t', hshows, hshows', hsame, -⟩ := isolated_run hshows (fun _ => rfl) (fun _ _ => rfl)
    hcalm hbuilt [.delete "../f", .write "x/../../f" [1]] hstill
  refine ⟨mount, hbuilt, hplace, t, t', hshows, holdsFile_of_shows hshows, hshows', hsame ?_⟩
  rw [hplace]
  decide

end Outsider

end World

end VirtualFs
