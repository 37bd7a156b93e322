import VirtualFs.Proofs.World.Fair
import VirtualFs.Proofs.World.Safety
import VirtualFs.Proofs.Writing.Directories
import VirtualFs.Proofs.Writing.Scripted
import VirtualFs.Transfer

namespace VirtualFs

open VirtualFs.Tree

namespace Writing

variable {writing : Writing} {t : Tree} {cut : Bool}

/-- A file that is put into its directory is there afterwards, and the tree has grown by it. -/
theorem grows_of_put {dir : Place} {name : Segment} {file : Object} {content : List UInt8}
    {t' : Tree} (hmem : ⟨dir ++ [name.text], content⟩ ∈ writing.targets)
    (hfree : ¬ t.HasDir (dir ++ [name.text])) (hfile : file.isFolder = false)
    (hgains : t.Gains (dir ++ [name.text]) ⟨file, content⟩ t') :
    Grows writing.targets t t' ∧ HasFile writing.targets t' (dir ++ [name.text]) := by
  have hplain : ∀ {y}, t.item (dir ++ [name.text]) = some y → y.object.isFolder = false := by
    intro y hitem
    by_contra hfolder
    apply hfree
    exact ⟨y, hitem, by simpa using hfolder⟩
  have hitem : t'.item (dir ++ [name.text]) = some ⟨file, content⟩ := by
    rw [hgains.item, if_pos rfl]
  refine ⟨hgains.grows (.written hmem rfl hplain hfile rfl), ?_⟩
  exact ⟨⟨file, content⟩, _, hitem, hfile, hmem, rfl, rfl⟩

/-- Whatever the others do, a write succeeds, and from then on there is a file in its place. -/
theorem safe_write {name : String} {content : List UInt8}
    (hmem : ⟨(writing.mount.pathOf name).place, content⟩ ∈ writing.targets)
    (hbase : writing.mount.pathOf name ≠ writing.mount.base) (hreached : writing.Reached t) :
    (writing.mount.write name content).Safe writing.accord
      (fun _ t result => result = .ok () ∧
        HasFile writing.targets t (writing.mount.pathOf name).place) cut t := by
  rw [Mount.write]
  dsimp only
  generalize writing.mount.pathOf name = path at hmem hbase ⊢
  cases path with
  | root => exact (writing.writable.free _ hmem (hasDir_root _)).elim
  | child dir base =>
    dsimp only
    rw [if_neg hbase]
    refine Operation.Safe.bind (Operation.safe_offer ?_)
    rintro t₁ offer hgrows₁ ⟨-, ⟨form, hform⟩, -⟩ t₂ hgrows₂
    dsimp only
    rw [hform]
    refine Operation.Safe.bind (Operation.safe_require fun {t₃} hgrows₃ => ?_)
    refine Operation.Safe.bind (Operation.safe_now fun time {t₄} hgrows₄ => ?_)
    have hgrows : Grows writing.targets t t₄ :=
      Grows.trans hgrows₁ (Grows.trans hgrows₂ (Grows.trans hgrows₃ hgrows₄))
    refine Operation.Safe.bind (Operation.Safe.during ?_)
    have habove : Above writing.targets dir.place := above_of_mem hmem rfl
    refine (safe_makeDirs dir habove (hreached.mono hgrows)).since.weaken ?_
    rintro cut t₅ _ ⟨hgrows₅, parent, rfl, hparent⟩
    refine Operation.Safe.during (Operation.safe_ask (.put _ _ _ _) fun {before} hgrows₆ => ?_)
    have hreached' := ((hreached.mono hgrows).mono hgrows₅).mono hgrows₆
    obtain ⟨hplace, hdir⟩ := hparent.mono hgrows₆
    have hfree := writing.writable.not_hasDir hreached' hmem
    refine ⟨⟨base.usable, rfl, _, hplace, hdir, hfree⟩, fun {answer after} hput => ?_⟩
    obtain ⟨rfl, file, hfile, hgains⟩ := hput hplace hdir hfree
    obtain ⟨hgrows₇, hhas⟩ := grows_of_put hmem hfree hfile hgains
    exact ⟨hgrows₇, fun hgrows₈ => ⟨rfl, Grows.hasFile hgrows₈ hhas⟩⟩

theorem safe_call {name : String} {content : List UInt8}
    (hmem : ⟨(writing.mount.pathOf name).place, content⟩ ∈ writing.targets)
    (hbase : writing.mount.pathOf name ≠ writing.mount.base) (hreached : writing.Reached t) :
    ((Call.write name content).operation writing.mount).Safe writing.accord
      (fun _ t result => result = .ok .done ∧
        HasFile writing.targets t (writing.mount.pathOf name).place) cut t := by
  refine Operation.Safe.map ((safe_write hmem hbase hreached).weaken ?_)
  rintro cut t _ ⟨rfl, hfile⟩
  exact ⟨rfl, hfile⟩

end Writing

namespace World

variable {σ : Type} {backend : Backend σ}

/-- The files that some writes are to put into a tree. -/
def targets (mount : Mount) (writes : List (String × List UInt8)) : List Target :=
  writes.map (fun write => ⟨(mount.pathOf write.1).place, write.2⟩)

/-- Some writes over one mount, none of which has begun yet. -/
def gatherWrites (surroundings : Surroundings σ) (mount : Mount)
    (writes : List (String × List UInt8)) : World backend (Except Failure Answer) :=
  gatherCalls surroundings mount (writes.map (fun write => .write write.1 write.2))

variable (realization : Realization backend Tree.behaviour) (mount : Mount)
  (writes : List (String × List UInt8)) (start : Tree)

/-- Writes are going well: each that has returned has succeeded, the tree has only grown by what they
    need, and it has got all of it when every write has returned. -/
structure GoesWell (world : World backend (Except Failure Answer)) (t : Tree) : Prop where
  shows : realization.shows world.scene.surroundings.state t
  grows : Grows (targets mount writes) start t
  done : ∀ {index result}, world.result? index = some result → result = .ok .done
  written : (∀ index < writes.length, (world.result? index).isSome) →
    Written (targets mount writes) start t

variable {realization mount writes start} {surroundings : Surroundings σ}

theorem exists_goesWell (hshows : realization.shows surroundings.state start)
    (hwritable : start.Writable (targets mount writes))
    (hplain : ∀ {name}, Occurs (targets mount writes) start name → mount.mapping.apply name = name)
    (hbase : ∀ write ∈ writes, mount.pathOf write.1 ≠ mount.base) {moves : List (Move σ)}
    (hcalm : ∀ move ∈ moves, move.Calm realization) :
    ∃ t, GoesWell realization mount writes start
      ((gatherWrites surroundings mount writes).run moves) t := by
  let writing : Writing := ⟨mount, targets mount writes, start, hwritable, hplain⟩
  have hstart : ∀ {forsaken spoilt},
      (gatherWrites surroundings mount writes : World backend _).Sound writing.accord.pact
        (fun _ => writing.accord) realization (fun index _ t result =>
          result = .ok .done ∧ ∀ write, writes[index]? = some write → HasFile
            (targets mount writes) t (mount.pathOf write.1).place) forsaken spoilt start := by
    refine sound_gather hshows trivial trivial fun {index procedure} hprocedure => ?_
    obtain ⟨name, content, hwrite, rfl⟩ : ∃ name content, writes[index]? = some (name, content) ∧
        ((Call.write name content).operation mount).run = procedure := by
      simpa using hprocedure
    have hmem := List.mem_of_getElem? hwrite
    have htarget : ⟨(mount.pathOf name).place, content⟩ ∈ targets mount writes :=
      List.mem_map.2 ⟨(name, content), hmem, rfl⟩
    have hsafe : ((Call.write name content).operation mount).Safe writing.accord
        (fun _ t result => result = .ok .done ∧
          HasFile (targets mount writes) t (mount.pathOf name).place) false start :=
      Writing.safe_call htarget (hbase (name, content) hmem) (Grows.refl start)
    refine hsafe.run.weaken ?_
    rintro cut t result ⟨rfl, hfile⟩
    refine ⟨rfl, fun write hwrite' => ?_⟩
    rw [hwrite] at hwrite'
    obtain rfl := Option.some.inj hwrite'
    exact hfile
  obtain ⟨t, hgrows, hworld, -⟩ := sound_run hstart (fun _ => Accord.joins trivial)
    fun move hmove => (hcalm move hmove).allowed
  refine ⟨t, hworld.scene.shows, hgrows, ?_, fun hreturned => hwritable.written hgrows ?_⟩
  · intro index result hresult
    obtain ⟨cut, -, hdone, -⟩ := hworld.returned hresult
    exact hdone
  · intro target htarget
    obtain ⟨write, hmem, rfl⟩ := List.mem_map.1 htarget
    obtain ⟨index, hindex, rfl⟩ := List.mem_iff_getElem.1 hmem
    obtain ⟨result, hresult⟩ := Option.isSome_iff_exists.1 (hreturned index hindex)
    obtain ⟨cut, -, -, hfile⟩ := hworld.returned hresult
    exact hfile _ (List.getElem?_eq_getElem hindex)

/-- However many writers race into directories that are missing, each write that returns has succeeded,
    and when the last has returned the tree has got the missing directories and the files and nothing
    else. If turns are given out fairly all of them do return. -/
theorem writers_run (hshows : realization.shows surroundings.state start)
    (hwritable : start.Writable (targets mount writes))
    (hplain : ∀ {name}, Occurs (targets mount writes) start name → mount.mapping.apply name = name)
    (hbase : ∀ write ∈ writes, mount.pathOf write.1 ≠ mount.base) :
    (∀ {moves : List (Move σ)}, (∀ move ∈ moves, move.Calm realization) →
      ∃ t, GoesWell realization mount writes start
        ((gatherWrites surroundings mount writes).run moves) t) ∧
    ∀ {course : Nat → Move σ}, (∀ n, (course n).Calm realization) →
      (gatherWrites surroundings mount writes : World backend _).Fair course →
      ∃ n, ∀ index < writes.length,
        ((gatherWrites surroundings mount writes : World backend _).after course n).result? index =
          some (.ok .done) := by
  refine ⟨exists_goesWell hshows hwritable hplain hbase, fun {course} hcalm hfair => ?_⟩
  obtain ⟨n, hreturned⟩ := hfair.exists_returned
  refine ⟨n, fun index hindex => ?_⟩
  obtain ⟨result, hresult⟩ := hreturned index (by simpa using hindex)
  have hcourse : ∀ move ∈ (List.range n).map course, move.Calm realization := by
    intro move hmove
    obtain ⟨position, -, rfl⟩ := List.mem_map.1 hmove
    exact hcalm position
  obtain ⟨t, hgoes⟩ := exists_goesWell hshows hwritable hplain hbase hcourse
  have hresult' := hresult
  rw [after_eq_run] at hresult'
  obtain rfl := hgoes.done hresult'
  exact hresult

section Bare

open Scenario

/-- A store that holds nothing but its root, under some rules. -/
def bare (rules : List Rule) : Script where
  store := { nodes := [⟨{ id := "/", path := "/", isFolder := true }, none, [], .data []⟩] }
  rules := rules

/-- The tree of such a store. -/
def bareTree : Tree where
  item here := if here = [] then some ⟨{ id := "/", path := "/", isFolder := true }, []⟩ else none
  place object := placeAt (keyOf object)
  root := ⟨_, rfl, rfl⟩
  parent := by
    intro dir name x hitem
    simp at hitem
  named := by
    intro dir name x hitem
    simp at hitem
  found := by
    intro here x hitem
    split at hitem
    case isTrue hroot =>
      obtain rfl := Option.some.inj hitem
      rw [hroot]
      exact placeAt_text .root
    case isFalse => cases hitem

theorem carries_bare {rules : List Rule} (hcalm : ∀ rule ∈ rules, rule.failure = none) :
    Script.Carries false (bare rules) bareTree where
  store := by
    have hroot : Node.StandsAt ⟨{ id := "/", path := "/", isFolder := true }, none, [], .data []⟩
        .root := ⟨rfl, rfl, fun h => by cases h⟩
    refine ⟨by simp [bare], ?_, ?_, fun _ => rfl⟩
    · intro node hnode
      obtain rfl := List.mem_singleton.1 hnode
      exact ⟨.root, hroot, rfl⟩
    · intro here x hitem
      dsimp only [bareTree] at hitem
      split at hitem
      case isTrue hhere =>
        exact ⟨.root, hhere.symm, _, List.mem_singleton.2 rfl, hroot, Option.some.inj hitem⟩
      case isFalse => cases hitem
  offers := by
    refine ⟨rfl, ⟨.plain, rfl⟩, ⟨.plain, rfl⟩, .id "/", rfl, fun name modified => ?_⟩
    have hkey : keyOf { id := "/", name, modified, isFolder := true } = Path.root.text := rfl
    show placeAt (keyOf _) = some Path.root.place
    rw [hkey, placeAt_text]
  reticent := rfl
  calm := hcalm

theorem writable_bareTree {targets : List Target} (hne : ∀ target ∈ targets, target.place ≠ [])
    (hapart : ∀ target ∈ targets, ¬ Above targets target.place) : bareTree.Writable targets where
  free := by
    rintro target htarget ⟨x, hitem, -⟩
    simp [bareTree, hne target htarget] at hitem
  above := by
    intro here x _ hitem
    dsimp only [bareTree] at hitem
    split at hitem
    case isTrue =>
      obtain rfl := Option.some.inj hitem
      rfl
    case isFalse => cases hitem
  apart := hapart

/-- A gate holds up those who are about to make a certain directory. -/
def gated : List Rule := [⟨"mkdir", "/d", 0, .before, some "gate", none⟩]

def release (s : Surroundings Script) : Surroundings Script :=
  { s with state := { s.state with openGates := ["gate"] } }

/-- Two files in one directory that is missing. -/
def siblings : List (String × List UInt8) := [("d/a", [1]), ("d/b", [2])]

/-- Both writers come as far as the gate, which then opens for good. -/
def fairCourse : Nat → Move Script
  | 0 => .turn 0
  | 1 => .turn 1
  | 2 => .change release
  | n + 3 => .turn (n % 2)

theorem targets_siblings :
    targets plainMount siblings = [⟨["d", "a"], [1]⟩, ⟨["d", "b"], [2]⟩] := by
  have ha : (plainMount.pathOf "d/a").place = ["d", "a"] := by decide +kernel
  have hb : (plainMount.pathOf "d/b").place = ["d", "b"] := by decide +kernel
  simp [targets, siblings, ha, hb]

theorem writable_siblings : bareTree.Writable (targets plainMount siblings) := by
  rw [targets_siblings]
  refine writable_bareTree ?_ ?_
  · intro target htarget
    simp only [List.mem_cons, List.not_mem_nil, or_false] at htarget
    rcases htarget with rfl | rfl <;> simp
  · rintro target htarget ⟨other, hother, hbelow, hne⟩
    simp only [List.mem_cons, List.not_mem_nil, or_false] at htarget hother
    have hlength : target.place.length = other.place.length := by
      rcases htarget with rfl | rfl <;> rcases hother with rfl | rfl <;> rfl
    exact hne (hbelow.eq_of_length hlength)

theorem calm_release : (Move.change release).Calm (Script.realization false) :=
  fun hcarries => ⟨hcarries.store, hcarries.offers, hcarries.reticent, hcarries.calm⟩

theorem fair_fairCourse : (gatherWrites ⟨bare gated, []⟩ plainMount siblings :
    World Script.backend _).Fair fairCourse where
  stay := by
    rintro (_ | _ | _ | n) index hdrop <;> cases hdrop
  turns := by
    intro index hindex n
    have hreturned : ((gatherWrites ⟨bare gated, []⟩ plainMount siblings :
        World Script.backend _).after fairCourse 5).result? index |>.isSome := by
      have hboth : ∀ index < 2, ((gatherWrites ⟨bare gated, []⟩ plainMount siblings :
          World Script.backend _).after fairCourse 5).result? index |>.isSome := by
        decide +kernel
      exact hboth index hindex
    obtain ⟨result, hresult⟩ := Option.isSome_iff_exists.1 hreturned
    refine ⟨2 * n + 2 + index + 3, by omega, ?_, fun {stage} hstage => ?_⟩
    · have hparity : (2 * n + 2 + index) % 2 = index := by
        have hlt : index < 2 := hindex
        omega
      exact congrArg Move.turn hparity
    · have hlater := result?_after (m := 2 * n + 2 + index + 3) (by omega) hresult
      rw [result?_eq_some_iff, hstage] at hlater
      obtain rfl := Option.some.inj hlater
      exact id

/-- Two writers look for the same directory before either makes it. The one that is refused finds it
    made by the other. -/
theorem writers_run_refused :
    (∃ t, GoesWell (Script.realization false) plainMount siblings bareTree
        ((gatherWrites ⟨bare gated, []⟩ plainMount siblings).run
          [.turn 0, .turn 1, .change release, .turn 0, .turn 1]) t ∧
      Written (targets plainMount siblings) bareTree t) ∧
    ∃ n, ∀ index < 2, ((gatherWrites ⟨bare gated, []⟩ plainMount siblings :
      World Script.backend _).after fairCourse n).result? index = some (.ok .done) := by
  have hcarries : (Script.realization false).shows (⟨bare gated, []⟩ : Surroundings Script).state
      bareTree :=
    carries_bare (by simp [gated])
  have hrun := writers_run hcarries writable_siblings (fun _ => rfl) (by decide +kernel)
  have hmoves : ∀ move ∈ [.turn 0, .turn 1, .change release, .turn 0, .turn 1],
      Move.Calm (Script.realization false) move := by
    intro move hmove
    simp only [List.mem_cons, List.not_mem_nil, or_false] at hmove
    rcases hmove with rfl | rfl | rfl | rfl | rfl
    all_goals first | exact calm_release | trivial
  refine ⟨?_, hrun.2 ?_ fair_fairCourse⟩
  · obtain ⟨t, hgoes⟩ := hrun.1 hmoves
    exact ⟨t, hgoes, hgoes.written (by decide +kernel)⟩
  · rintro (_ | _ | _ | n)
    all_goals first | exact calm_release | trivial

/-- The base directory of a mount is no place for a file, even if it has been removed. -/
theorem refused_at_base :
    let mount : Mount := { plainMount with base := .child .root ⟨"base", by decide⟩ }
    let writes : List (String × List UInt8) := [("", [7])]
    (Script.realization false).shows (bare []) bareTree ∧
      bareTree.Writable (targets mount writes) ∧
      (∀ {name}, Occurs (targets mount writes) bareTree name → mount.mapping.apply name = name) ∧
      ∃ failure, ((gatherWrites ⟨bare [], []⟩ mount writes : World Script.backend _).run
          [.turn 0]).result? 0 = some (.error failure) ∧ failure.cause = .notAFile := by
  intro mount writes
  have hplace : (mount.pathOf "").place = ["base"] := by decide +kernel
  have hplaces : targets mount writes = [⟨["base"], [7]⟩] := by simp [targets, writes, hplace]
  refine ⟨carries_bare (by simp), ?_, fun _ => rfl, ?_⟩
  · rw [hplaces]
    refine writable_bareTree (by simp) ?_
    rintro target htarget ⟨other, hother, -, hne⟩
    obtain rfl := List.mem_singleton.1 htarget
    obtain rfl := List.mem_singleton.1 hother
    exact hne rfl
  · have hrefused : (((gatherWrites ⟨bare [], []⟩ mount writes : World Script.backend _).run
        [.turn 0]).result? 0).any (fun
          | .error failure => decide (failure.cause = .notAFile)
          | .ok _ => false) = true := by
      decide +kernel
    obtain ⟨result, hresult, hcause⟩ := (Option.any_eq_true _ _).1 hrefused
    cases result with
    | ok answer => cases hcause
    | error failure => exact ⟨failure, hresult, by simpa using hcause⟩

end Bare

end World

end VirtualFs
