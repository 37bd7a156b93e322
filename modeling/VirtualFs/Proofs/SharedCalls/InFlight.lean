import Mathlib.Data.List.Basic
import VirtualFs.Proofs.SharedCalls.Step

namespace VirtualFs

open SharedCalls

variable {σ κ ω ν : Type}

namespace SharedCalls

instance : DecidablePred (@Stage.IsRunning ω ν)
  | .running _ => isTrue trivial
  | .cancelled _ => isFalse id
  | .settled _ => isFalse id

/-- No call has two entries. -/
theorem Sound.nodup_numbers {shared : SharedCalls κ ω ν} {held : Multiset Ticket}
    (hsound : shared.Sound held) : (shared.entries.map Prod.snd).Nodup := by
  refine List.Nodup.map_on ?_ (List.Nodup.of_map _ hsound.keys)
  rintro ⟨key, number⟩ hentry ⟨key', number'⟩ hentry' rfl
  obtain ⟨call, hcall, rfl, -⟩ := hsound.exists_call hentry
  exact congrArg (·, number) (((hsound.call hcall).entry key').1 hentry').1.symm

/-- The map has as many entries as there are running calls. -/
theorem Sound.inFlight_eq_countP {shared : SharedCalls κ ω ν} {held : Multiset Ticket}
    (hsound : shared.Sound held) :
    shared.inFlight = shared.calls.countP (fun call => call.stage.IsRunning) := by
  have hperm : (shared.entries.map Prod.snd).Perm
      (shared.calls.findIdxs (fun call => decide call.stage.IsRunning)) := by
    refine (List.perm_ext_iff_of_nodup hsound.nodup_numbers List.nodup_findIdxs).2 fun number => ?_
    rw [List.mem_findIdxs_iff_exists_getElem_pos]
    constructor
    · intro hnumber
      obtain ⟨⟨key, _⟩, hentry, rfl⟩ := List.mem_map.1 hnumber
      obtain ⟨call, hcall, -, hrunning⟩ := hsound.exists_call hentry
      obtain ⟨hlt, rfl⟩ := List.getElem?_eq_some_iff.1 hcall
      exact ⟨hlt, by simpa using hrunning⟩
    · rintro ⟨hlt, hrunning⟩
      have hcall := hsound.call (List.getElem?_eq_getElem hlt)
      have hrunning' : shared.calls[number].stage.IsRunning := by simpa using hrunning
      have hentry := (hcall.entry _).2 ⟨rfl, hrunning'⟩
      exact List.mem_map.2 ⟨_, hentry, rfl⟩
  have hlength : shared.inFlight = (shared.entries.map Prod.snd).length := by simp [inFlight]
  rw [hlength, hperm.length_eq, List.length_findIdxs]

end SharedCalls

namespace Session

/-- A caller that neither returned nor was taken away is the starter of a call under a key whose work
    is still to be carried to its end. -/
def IsStarter (session : Session σ κ ω ν) (index : Nat) (key : κ) (number : Nat) : Prop :=
  session.callers[index]? = some (.holding ⟨number, .starter⟩) ∧
    ∃ work, session.shared.view number = some (key, .running work)

variable {conduct : Conduct σ κ ω ν} {session : Session σ κ ω ν} {key : κ} {number : Nat}

/-- The map has the calls of those who are starters, under their keys. -/
theorem mem_entries_iff_isStarter (hsound : session.shared.Sound session.tickets) :
    (key, number) ∈ session.shared.entries ↔ ∃ index, session.IsStarter index key number := by
  rw [hsound.mem_entries_iff]
  constructor
  · rintro ⟨work, hview⟩
    obtain ⟨call, hcall, -, hstage⟩ := view_eq_some_iff.1 hview
    have hcount := (hsound.call hcall).running (by simp [hstage])
    obtain ⟨caller, hcaller, hheld⟩ :=
      mem_heldBy.1 (Multiset.one_le_count_iff_mem.1 (le_of_eq hcount.symm))
    obtain ⟨index, hindex⟩ := List.mem_iff_getElem?.1 hcaller
    refine ⟨index, ?_, work, hview⟩
    cases caller with
    | holding ticket => rw [hindex, Option.some.inj hheld]
    | fresh key work => cases hheld
    | returned ticket outcome => cases hheld
    | dropped ticket => cases hheld
  · rintro ⟨index, -, hview⟩
    exact hview

theorem IsStarter.index_eq (hsound : session.shared.Sound session.tickets) {index index' : Nat}
    {key' : κ} (hstarter : session.IsStarter index key number)
    (hstarter' : session.IsStarter index' key' number) : index' = index := by
  obtain ⟨hcaller, work, hview⟩ := hstarter
  obtain ⟨call, hcall, -, -⟩ := view_eq_some_iff.1 hview
  exact index_eq_of_count_le_one (hsound.call hcall).single hcaller rfl hstarter'.1 rfl

/-- Nothing is in flight when nobody waits. -/
theorem entries_eq_nil (hsound : session.shared.Sound session.tickets)
    (hfinished : ∀ caller ∈ session.callers, caller.IsFinished) : session.shared.entries = [] := by
  refine List.eq_nil_iff_forall_not_mem.2 fun ⟨key, number⟩ hentry => ?_
  obtain ⟨index, hcaller, -⟩ := (mem_entries_iff_isStarter hsound).1 hentry
  exact hfinished _ (List.mem_of_getElem? hcaller)

variable [BEq κ] [LawfulBEq κ]

/-- An entry stays until the work of its own call has come to its end or its own starter goes. -/
theorem mem_entries_make (hsound : session.shared.Sound session.tickets) {move : Move σ κ ω}
    (hentry : (key, number) ∈ session.shared.entries) :
    (key, number) ∈ (session.make conduct move).shared.entries ∨
    (∃ value, (session.make conduct move).shared.view number =
      some (key, .settled (.value value))) ∨
    ∃ index, move = .drop index ∧ session.IsStarter index key number := by
  obtain ⟨work, hview⟩ := hsound.mem_entries_iff.1 hentry
  obtain ⟨stage, hview', -⟩ := later_make conduct hsound move hview
  have hevery : (session.make conduct move).shared.Every fun other key' stage =>
      other = number → key' = key →
        stage.IsRunning ∨ (∃ value, stage = .settled (.value value)) ∨
          ∃ index, move = .drop index ∧ session.IsStarter index key number := by
    refine every_make hsound ?before ?begin ?waiting ?ready ?givenUp ?cancel
    case before =>
      rintro other key' stage hother rfl rfl
      rw [hview] at hother
      cases hother
      exact .inl trivial
    case begin => exact fun _ _ _ _ _ => .inl trivial
    case waiting => exact fun _ _ _ _ _ _ => .inl trivial
    case ready => exact fun _ _ _ _ _ _ => .inr (.inl ⟨_, rfl⟩)
    case givenUp =>
      intro other key' work hcancelled hother hkey
      rcases hcancelled hother hkey with hrunning | ⟨value, hvalue⟩ | hdropped
      · exact hrunning.elim
      · cases hvalue
      · exact .inr (.inr hdropped)
    case cancel =>
      rintro index other key' work stage hmove hcaller hother - rfl rfl
      exact .inr (.inr ⟨index, hmove, hcaller, work, hother⟩)
  rcases hevery hview' rfl rfl with hrunning | ⟨value, rfl⟩ | hdropped
  · obtain ⟨work', rfl⟩ := hrunning.exists_work
    exact .inl ((sound_make conduct hsound move).mem_entries_iff.2 ⟨work', hview'⟩)
  · exact .inr (.inl ⟨value, hview'⟩)
  · exact .inr (.inr hdropped)

end Session

namespace Session

variable [DecidableEq κ]

/-- What the map says, at every moment of every session. A key has an entry just when one caller, and
    one only, is the starter of an unfinished call under it, and the entry has the number of that
    call. So there is one unfinished call for a key at most, their number is the number of entries,
    nothing is left when all are finished, and an entry is not lost to the end of any other call. -/
theorem entries_run (conduct : Conduct σ κ ω ν) (surroundings : σ)
    (moves : List (Move σ κ ω)) :
    let session := run conduct { surroundings } moves
    (∀ key, (session.shared.entries.lookup key).isSome ↔
      ∃! index, ∃ number, session.IsStarter index key number) ∧
    (∀ key number, session.shared.entries.lookup key = some number ↔
      ∃ index, session.IsStarter index key number) ∧
    (∀ key number number' work work', session.shared.view number = some (key, .running work) →
      session.shared.view number' = some (key, .running work') → number' = number) ∧
    session.shared.inFlight = session.shared.calls.countP (fun call => call.stage.IsRunning) ∧
    ((∀ caller ∈ session.callers, caller.IsFinished) → session.shared.entries = []) ∧
    ∀ move key number, session.shared.entries.lookup key = some number →
      (session.make conduct move).shared.entries.lookup key = some number ∨
      (∃ value, (session.make conduct move).shared.view number =
        some (key, .settled (.value value))) ∨
      ∃ index, move = .drop index ∧ session.IsStarter index key number := by
  intro session
  have hsound : session.shared.Sound session.tickets := sound_run conduct surroundings moves
  have hlookup : ∀ {key number}, session.shared.entries.lookup key = some number ↔
      ∃ index, session.IsStarter index key number := by
    intro key number
    rw [hsound.lookup_eq_some_iff, mem_entries_iff_isStarter hsound]
  have hsingle : ∀ {key number number'}, session.shared.entries.lookup key = some number →
      session.shared.entries.lookup key = some number' → number' = number :=
    fun h h' => Option.some.inj (h'.symm.trans h)
  refine ⟨fun key => ?_, fun key number => hlookup, ?_, hsound.inFlight_eq_countP,
    entries_eq_nil hsound, fun move key number hentry => ?_⟩
  · rw [Option.isSome_iff_exists]
    constructor
    · rintro ⟨number, hentry⟩
      obtain ⟨index, hstarter⟩ := hlookup.1 hentry
      refine ⟨index, ⟨number, hstarter⟩, fun index' ⟨number', hstarter'⟩ => ?_⟩
      obtain rfl := hsingle hentry (hlookup.2 ⟨index', hstarter'⟩)
      exact hstarter.index_eq hsound hstarter'
    · rintro ⟨index, ⟨number, hstarter⟩, -⟩
      exact ⟨number, hlookup.2 ⟨index, hstarter⟩⟩
  · intro key number number' work work' hview hview'
    exact hsingle (hsound.lookup_eq_some_iff.2 (hsound.mem_entries_iff.2 ⟨work, hview⟩))
      (hsound.lookup_eq_some_iff.2 (hsound.mem_entries_iff.2 ⟨work', hview'⟩))
  · rw [(sound_make conduct hsound move).lookup_eq_some_iff]
    exact mem_entries_make hsound (hsound.lookup_eq_some_iff.1 hentry)

end Session

end VirtualFs
