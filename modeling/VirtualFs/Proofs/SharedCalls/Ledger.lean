import Mathlib.Logic.Function.Basic
import VirtualFs.Proofs.SharedCalls.Attended
import VirtualFs.Proofs.SharedCalls.Refinement
import VirtualFs.Proofs.SharedCalls.SmallStep

namespace VirtualFs

open SharedCalls

variable {σ κ ω ν : Type}

/-- What is done with some work: going on with it, after it was gone on with a number of times, its
    end, and giving it up. -/
inductive Deed where
  | polled (before : Nat)
  | finished
  | discarded
deriving DecidableEq

/-- Work with the caller that passed it and the number of times that it was gone on with. -/
structure Tagged (ω : Type) where
  owner : Nat
  polls : Nat := 0
  work : ω

/-- Surroundings with an account of what was done with the work of each caller. -/
structure Ledger (σ : Type) where
  surroundings : σ
  deeds : Nat → List Deed := fun _ => []

namespace Ledger

/-- The surroundings have changed, and something was done with the work of a caller. -/
def note (ledger : Ledger σ) (owner : Nat) (surroundings : σ) (deeds : List Deed) : Ledger σ :=
  ⟨surroundings, Function.update ledger.deeds owner (ledger.deeds owner ++ deeds)⟩

@[simp] theorem deeds_note_self (ledger : Ledger σ) (owner : Nat) (s : σ) (deeds : List Deed) :
    (ledger.note owner s deeds).deeds owner = ledger.deeds owner ++ deeds := by
  simp [note]

@[simp] theorem deeds_note_of_ne {owner other : Nat} (hother : other ≠ owner) (ledger : Ledger σ)
    (s : σ) (deeds : List Deed) : (ledger.note owner s deeds).deeds other = ledger.deeds other := by
  simp [note, hother]

end Ledger

/-- Carry out work and keep an account of it. -/
def Conduct.accounting (conduct : Conduct σ κ ω ν) : Conduct (Ledger σ) κ (Tagged ω) ν where
  resume tagged ledger :=
    match conduct.resume tagged.work ledger.surroundings with
    | (.waiting work, s) =>
      (.waiting { tagged with polls := tagged.polls + 1, work },
        ledger.note tagged.owner s [.polled tagged.polls])
    | (.ready value, s) =>
      (.ready value, ledger.note tagged.owner s [.polled tagged.polls, .finished])
  discard tagged ledger :=
    ledger.note tagged.owner (conduct.discard tagged.work ledger.surroundings) [.discarded]
  joined key ledger := { ledger with surroundings := conduct.joined key ledger.surroundings }

/-- Keeping an account changes nothing else. -/
theorem Conduct.refines_accounting (conduct : Conduct σ κ ω ν) :
    conduct.accounting.Refines conduct Tagged.work Ledger.surroundings where
  resume tagged ledger := by
    simp only [accounting]
    cases conduct.resume tagged.work ledger.surroundings with
    | mk result s => cases result <;> rfl
  discard _ _ := rfl
  joined _ _ := rfl

/-- How the stage of a call and the account of its work go on together. -/
inductive Advance : Stage (Tagged ω) ν → List Deed → Stage (Tagged ω) ν → List Deed → Prop
  | stay {stage deeds} : Advance stage deeds stage deeds
  | carried {tagged work deeds} :
      Advance (.running tagged) deeds
        (.running { tagged with polls := tagged.polls + 1, work }) (deeds ++ [.polled tagged.polls])
  | finished {tagged value deeds} :
      Advance (.running tagged) deeds
        (.settled (.value value)) (deeds ++ [.polled tagged.polls, .finished])
  | cancelled {tagged deeds} : Advance (.running tagged) deeds (.cancelled tagged) deeds
  | abandoned {tagged deeds} :
      Advance (.running tagged) deeds (.settled .aborted) (deeds ++ [.discarded])
  | givenUp {tagged deeds} :
      Advance (.cancelled tagged) deeds (.settled .aborted) (deeds ++ [.discarded])

/-- What the account says of the work of a caller, whose call stands somewhere. -/
inductive Tells (owner : Nat) : Stage (Tagged ω) ν → List Deed → Prop
  | running {polls work} :
      Tells owner (.running ⟨owner, polls, work⟩) ((List.range polls).map .polled)
  | cancelled {polls work} :
      Tells owner (.cancelled ⟨owner, polls, work⟩) ((List.range polls).map .polled)
  | finished {polls value} :
      Tells owner (.settled (.value value)) ((List.range (polls + 1)).map .polled ++ [.finished])
  | discarded {polls} :
      Tells owner (.settled .aborted) ((List.range polls).map .polled ++ [.discarded])

section Account

variable {conduct : Conduct σ κ ω ν} {owner : Nat} {stage stage' : Stage (Tagged ω) ν}
  {deeds deeds' : List Deed}

theorem Tells.owner_of_running {tagged : Tagged ω}
    (htells : Tells owner (.running tagged : Stage (Tagged ω) ν) deeds) : tagged.owner = owner := by
  cases htells
  rfl

theorem Tells.owner_of_cancelled {tagged : Tagged ω}
    (htells : Tells owner (.cancelled tagged : Stage (Tagged ω) ν) deeds) :
    tagged.owner = owner := by
  cases htells
  rfl

theorem Tells.advance (htells : Tells owner stage deeds)
    (hadvance : Advance stage deeds stage' deeds') : Tells owner stage' deeds' := by
  cases hadvance with
  | stay => exact htells
  | carried =>
    cases htells with
    | @running polls _ =>
      have hmore : (List.range polls).map Deed.polled ++ [.polled polls] =
          (List.range (polls + 1)).map .polled := by
        simp [List.range_succ]
      rw [hmore]
      exact .running
  | finished =>
    cases htells with
    | @running polls _ =>
      have hmore : (List.range polls).map Deed.polled ++ [.polled polls, .finished] =
          (List.range (polls + 1)).map .polled ++ [.finished] := by
        simp [List.range_succ]
      rw [hmore]
      exact .finished
  | cancelled =>
    cases htells with
    | running => exact .cancelled
  | abandoned =>
    cases htells with
    | running => exact .discarded
  | givenUp =>
    cases htells with
    | cancelled => exact .discarded

/-- A step of a call goes to the account of the caller that began it, and to no other. -/
theorem SharedCalls.Stage.Step.advance {s s' : Ledger σ}
    (hstep : stage.Step conduct.accounting s stage' s')
    (htells : Tells owner stage (s.deeds owner)) :
    Advance stage (s.deeds owner) stage' (s'.deeds owner) ∧
      ∀ other, other ≠ owner → s'.deeds other = s.deeds other := by
  cases hstep with
  | cancelled => exact ⟨.cancelled, fun _ _ => rfl⟩
  | @abandoned tagged _ =>
    obtain rfl := htells.owner_of_running
    simp only [Conduct.accounting, Ledger.deeds_note_self]
    exact ⟨.abandoned, fun other hother => Ledger.deeds_note_of_ne hother _ _ _⟩
  | @givenUp tagged _ =>
    obtain rfl := htells.owner_of_cancelled
    simp only [Conduct.accounting, Ledger.deeds_note_self]
    exact ⟨.givenUp, fun other hother => Ledger.deeds_note_of_ne hother _ _ _⟩
  | @carried tagged rest _ _ resume =>
    obtain rfl := htells.owner_of_running
    simp only [Conduct.accounting] at resume
    split at resume
    · cases resume
      rw [Ledger.deeds_note_self]
      exact ⟨.carried, fun other hother => Ledger.deeds_note_of_ne hother _ _ _⟩
    · cases resume
  | @finished tagged value _ _ resume =>
    obtain rfl := htells.owner_of_running
    simp only [Conduct.accounting] at resume
    split at resume
    · cases resume
    · cases resume
      rw [Ledger.deeds_note_self]
      exact ⟨.finished, fun other hother => Ledger.deeds_note_of_ne hother _ _ _⟩

end Account

namespace Session

/-- The ticket that a caller holds, or held at its end. -/
def ticket? (session : Session σ κ ω ν) (index : Nat) : Option Ticket :=
  session.callers[index]?.bind Caller.ticket?

/-- A caller began a call. -/
def Begins (session : Session σ κ ω ν) (index number : Nat) : Prop :=
  session.ticket? index = some ⟨number, .starter⟩

/-- What was done with the work that a caller passed. -/
def deeds (session : Session (Ledger σ) κ ω ν) (index : Nat) : List Deed :=
  session.surroundings.deeds index

section Tickets

variable {session : Session σ κ ω ν} {index number : Nat} {old caller : Caller κ ω ν}
  {shared : SharedCalls κ ω ν} {s : σ}

theorem ticket?_set (hold : session.callers[index]? = some old) (other : Nat) :
    ticket? ⟨shared, s, session.callers.set index caller⟩ other =
      if other = index then caller.ticket? else session.ticket? other := by
  have hindex := (List.getElem?_eq_some_iff.1 hold).1
  by_cases hother : other = index
  · subst other
    simp [ticket?, hindex]
  · simp [ticket?, hother, Ne.symm hother]

theorem ticket?_of_caller (hold : session.callers[index]? = some old) :
    session.ticket? index = old.ticket? := by
  simp only [ticket?, hold, Option.bind_some]

/-- Whoever began a call is known for it to its end. -/
theorem begins_set_of_same (hold : session.callers[index]? = some old)
    (hsame : caller.ticket? = old.ticket?) (other number : Nat) :
    Begins ⟨shared, s, session.callers.set index caller⟩ other number ↔
      session.Begins other number := by
  rw [Begins, Begins, ticket?_set hold]
  split
  case isTrue hother => rw [hother, ticket?_of_caller hold, hsame]
  case isFalse => rfl

/-- A caller that takes part in a call that another began begins none. -/
theorem begins_set_of_joiner (hold : session.callers[index]? = some old)
    (hfresh : old.ticket? = none) (other number' : Nat) :
    Begins ⟨shared, s, session.callers.set index (.holding ⟨number, .joiner⟩)⟩ other number' ↔
      session.Begins other number' := by
  rw [Begins, Begins, ticket?_set hold]
  split
  case isTrue hother =>
    rw [hother, ticket?_of_caller hold, hfresh]
    simp [Caller.ticket?]
  case isFalse => rfl

theorem begins_set_of_starter (hold : session.callers[index]? = some old)
    (hfresh : old.ticket? = none) (other number' : Nat) :
    Begins ⟨shared, s, session.callers.set index (.holding ⟨number, .starter⟩)⟩ other number' ↔
      session.Begins other number' ∨ other = index ∧ number' = number := by
  rw [Begins, Begins, ticket?_set hold]
  split
  case isTrue hother =>
    rw [hother, ticket?_of_caller hold, hfresh]
    simp [Caller.ticket?, eq_comm]
  case isFalse hother => simp [hother]

/-- A new caller has not begun a call. -/
theorem begins_start (key : κ) (work : ω) (index number : Nat) :
    (session.start key work).Begins index number ↔ session.Begins index number := by
  have hticket : (session.start key work).ticket? index = session.ticket? index := by
    simp only [ticket?, start, List.getElem?_append]
    split
    case isTrue => rfl
    case isFalse hindex =>
      rw [List.getElem?_eq_none (Nat.le_of_not_lt hindex), List.getElem?_singleton]
      split <;> rfl
  rw [Begins, Begins, hticket]

end Tickets

/-- The account fits the calls. A caller has not had its work touched unless it began a call, the
    call of each caller that began one is its own, and the account tells how far it has come. -/
structure Kept (session : Session (Ledger σ) κ (Tagged ω) ν) : Prop where
  fresh : ∀ {index : Nat} {key tagged}, session.callers[index]? = some (.fresh key tagged) →
    tagged.owner = index ∧ tagged.polls = 0
  silent : ∀ {index}, (∀ number, ¬ session.Begins index number) → session.deeds index = []
  single : ∀ {number index index'}, session.Begins index number → session.Begins index' number →
    index' = index
  known : ∀ {index number}, session.Begins index number → ∃ key stage,
    session.shared.view number = some (key, stage)
  owned : ∀ {number key stage}, session.shared.view number = some (key, stage) →
    ∃ index, session.Begins index number ∧ Tells index stage (session.deeds index)

variable {session after : Session (Ledger σ) κ (Tagged ω) ν} {index number : Nat} {key : κ}
  {stage : Stage (Tagged ω) ν}

theorem Kept.tells (hkept : session.Kept) (hbegins : session.Begins index number)
    (hview : session.shared.view number = some (key, stage)) :
    Tells index stage (session.deeds index) := by
  obtain ⟨index', hbegins', htells⟩ := hkept.owned hview
  obtain rfl := hkept.single hbegins hbegins'
  exact htells

/-- The account is kept when neither the calls nor what was done is seen to change. -/
theorem Kept.frame (hkept : session.Kept) (hview : after.shared.view = session.shared.view)
    (hdeeds : after.deeds = session.deeds)
    (hbegins : ∀ index number, after.Begins index number ↔ session.Begins index number)
    (hfresh : ∀ {index : Nat} {key tagged}, after.callers[index]? = some (.fresh key tagged) →
      tagged.owner = index ∧ tagged.polls = 0) : after.Kept where
  fresh := hfresh
  silent hnone := by
    rw [hdeeds]
    exact hkept.silent fun number h => hnone number ((hbegins _ _).2 h)
  single h h' := hkept.single ((hbegins _ _).1 h) ((hbegins _ _).1 h')
  known h := by
    rw [hview]
    exact hkept.known ((hbegins _ _).1 h)
  owned h := by
    rw [hview] at h
    obtain ⟨index, h, htells⟩ := hkept.owned h
    rw [← hdeeds] at htells
    exact ⟨index, (hbegins _ _).2 h, htells⟩

/-- Nobody becomes a caller that has not begun. -/
theorem Kept.fresh_set (hkept : session.Kept) {caller : Caller κ (Tagged ω) ν}
    (hcaller : ∀ key tagged, caller ≠ .fresh key tagged) {other : Nat} {tagged : Tagged ω}
    (hfresh : (session.callers.set index caller)[other]? = some (.fresh key tagged)) :
    tagged.owner = other ∧ tagged.polls = 0 := by
  by_cases hother : index = other
  · simp only [List.getElem?_set, hother, if_true] at hfresh
    split at hfresh
    · exact (hcaller key tagged (Option.some.inj hfresh)).elim
    · cases hfresh
  · rw [List.getElem?_set_ne hother] at hfresh
    exact hkept.fresh hfresh

/-- What a step of one call makes of the account. -/
theorem Kept.seen (hkept : session.Kept) {conduct : Conduct σ κ ω ν}
    {shared : SharedCalls κ (Tagged ω) ν} {s : Ledger σ} {caller : Caller κ (Tagged ω) ν}
    {ticket : Ticket} {stage' : Stage (Tagged ω) ν}
    (held : session.callers[index]? = some (.holding ticket)) (kept : caller.ticket? = some ticket)
    (view : session.shared.view number = some (key, stage))
    (step : stage.Step conduct.accounting session.surroundings stage' s)
    (update : ∀ other, shared.view other =
      if other = number then some (key, stage') else session.shared.view other) :
    Kept ⟨shared, s, session.callers.set index caller⟩ := by
  have hbegins : ∀ other number, Begins ⟨shared, s, session.callers.set index caller⟩ other number ↔
      session.Begins other number :=
    begins_set_of_same held kept
  obtain ⟨owner, howner, htells⟩ := hkept.owned view
  obtain ⟨hadvance, hothers⟩ := step.advance htells
  constructor
  case fresh => exact hkept.fresh_set (fun _ _ h => by rw [h] at kept; cases kept)
  case silent =>
    intro other hnone
    have hother : other ≠ owner := by
      rintro rfl
      exact hnone number ((hbegins _ _).2 howner)
    rw [deeds, hothers other hother]
    exact hkept.silent fun number h => hnone number ((hbegins _ _).2 h)
  case single => exact fun h h' => hkept.single ((hbegins _ _).1 h) ((hbegins _ _).1 h')
  case known =>
    intro other number' h
    rw [update]
    split
    · exact ⟨key, stage', rfl⟩
    · exact hkept.known ((hbegins _ _).1 h)
  case owned =>
    intro number' key' stage'' hview
    rw [update] at hview
    split at hview
    case isTrue hnumber =>
      cases hview
      exact ⟨owner, (hbegins _ _).2 (hnumber ▸ howner), htells.advance hadvance⟩
    case isFalse hnumber =>
      obtain ⟨other, hother, htells'⟩ := hkept.owned hview
      have hne : other ≠ owner := by
        rintro rfl
        cases hother.symm.trans howner
        exact hnumber rfl
      refine ⟨other, (hbegins _ _).2 hother, ?_⟩
      rw [deeds, hothers other hne]
      exact htells'

section Step

variable [BEq κ] {conduct : Conduct σ κ ω ν}

/-- A step takes a call and the account of its work further together. -/
theorem Kept.advances (hkept : session.Kept) (hstep : session.Step conduct.accounting after)
    (hbegins : session.Begins index number)
    (hview : session.shared.view number = some (key, stage)) :
    after.Begins index number ∧ ∃ stage', after.shared.view number = some (key, stage') ∧
      Advance stage (session.deeds index) stage' (after.deeds index) := by
  cases hstep with
  | acting held kept step =>
    refine ⟨(begins_set_of_same held kept index number).2 hbegins, ?_⟩
    cases step with
    | unseen same => exact ⟨stage, same ▸ hview, .stay⟩
    | seen view step update =>
      obtain ⟨index', hbegins', htells⟩ := hkept.owned view
      obtain ⟨hadvance, hothers⟩ := step.advance htells
      have hafter := update number
      split at hafter
      case isTrue hnumber =>
        subst hnumber
        obtain rfl := hkept.single hbegins hbegins'
        obtain ⟨rfl, rfl⟩ := Prod.mk.inj (Option.some.inj (hview.symm.trans view))
        exact ⟨_, hafter, hadvance⟩
      case isFalse hnumber =>
        -- The step is that of another call, and no caller began two.
        have hindex : index ≠ index' := by
          rintro rfl
          cases hbegins.symm.trans hbegins'
          exact hnumber rfl
        exact ⟨stage, hafter.trans hview, by rw [deeds, deeds, hothers index hindex]; exact .stay⟩
  | joining fresh same =>
    exact ⟨(begins_set_of_joiner fresh rfl index number).2 hbegins, stage, same ▸ hview, .stay⟩
  | beginning fresh =>
    have hnumber : number ≠ session.shared.calls.length := by
      rintro rfl
      rw [view_eq_none_iff.2 (Nat.le_refl _)] at hview
      cases hview
    refine ⟨(begins_set_of_starter fresh rfl index number).2 (.inl hbegins), stage, ?_, .stay⟩
    rw [view_begin, if_neg hnumber, hview]
  | withdrawing fresh =>
    refine ⟨(begins_set_of_same fresh ?_ index number).2 hbegins, stage, hview, .stay⟩
    rfl

/-- The account of a work that begins is empty. -/
theorem Kept.begun (hkept : session.Kept) {tagged : Tagged ω}
    (fresh : session.callers[index]? = some (.fresh key tagged)) :
    Kept ⟨session.shared.begin key tagged, session.surroundings,
      session.callers.set index (.holding ⟨session.shared.calls.length, .starter⟩)⟩ := by
  have hbegins : ∀ other number, Begins ⟨session.shared.begin key tagged, session.surroundings,
        session.callers.set index (.holding ⟨session.shared.calls.length, .starter⟩)⟩ other number ↔
      session.Begins other number ∨ other = index ∧ number = session.shared.calls.length :=
    begins_set_of_starter fresh rfl
  have hnew : ∀ {other}, ¬ session.Begins other session.shared.calls.length := by
    intro other h
    obtain ⟨key', stage', hview⟩ := hkept.known h
    rw [view_eq_none_iff.2 (Nat.le_refl _)] at hview
    cases hview
  have hfirst : ∀ {number}, ¬ session.Begins index number := by
    intro number h
    rw [Begins, ticket?_of_caller fresh] at h
    cases h
  constructor
  case fresh => exact hkept.fresh_set (fun _ _ h => by cases h)
  case silent =>
    exact fun hnone => hkept.silent fun number h => hnone number ((hbegins _ _).2 (.inl h))
  case single =>
    intro number other other' h h'
    rcases (hbegins _ _).1 h with h | ⟨rfl, rfl⟩
    · rcases (hbegins _ _).1 h' with h' | ⟨-, rfl⟩
      · exact hkept.single h h'
      · exact (hnew h).elim
    · rcases (hbegins _ _).1 h' with h' | ⟨rfl, -⟩
      · exact (hnew h').elim
      · rfl
  case known =>
    intro other number h
    rw [view_begin]
    split
    · exact ⟨key, _, rfl⟩
    · rcases (hbegins _ _).1 h with h | ⟨-, hnumber⟩
      · exact hkept.known h
      · contradiction
  case owned =>
    intro number key' stage' hview
    rw [view_begin] at hview
    split at hview
    case isTrue hnumber =>
      cases hview
      obtain ⟨howner, hpolls⟩ := hkept.fresh fresh
      refine ⟨index, (hbegins _ _).2 (.inr ⟨rfl, hnumber⟩), ?_⟩
      obtain ⟨owner, polls, work⟩ := tagged
      obtain rfl : owner = index := howner
      obtain rfl : polls = 0 := hpolls
      have hnothing : session.deeds owner = [] := hkept.silent fun _ => hfirst
      rw [deeds] at hnothing ⊢
      rw [hnothing]
      exact .running
    case isFalse =>
      obtain ⟨other, h, htells⟩ := hkept.owned hview
      exact ⟨other, (hbegins _ _).2 (.inl h), htells⟩

theorem Kept.step (hkept : session.Kept) (hstep : session.Step conduct.accounting after) :
    after.Kept := by
  cases hstep with
  | acting held kept step =>
    cases step with
    | unseen same =>
      exact hkept.frame same rfl (begins_set_of_same held kept)
        (hkept.fresh_set fun _ _ h => by rw [h] at kept; cases kept)
    | seen view step update => exact hkept.seen held kept view step update
  | joining fresh same =>
    exact hkept.frame same rfl (begins_set_of_joiner fresh rfl)
      (hkept.fresh_set fun _ _ h => by cases h)
  | beginning fresh => exact hkept.begun fresh
  | withdrawing fresh =>
    exact hkept.frame rfl rfl (begins_set_of_same fresh rfl)
      (hkept.fresh_set fun _ _ h => by cases h)

theorem Kept.steps (hkept : session.Kept) (hsteps : session.Steps conduct.accounting after) :
    after.Kept := by
  induction hsteps with
  | refl => exact hkept
  | tail _ hstep ih => exact ih.step hstep

end Step

/-- The move of a session with an account that does what a move of one without does. Each work is
    tagged with the caller that passes it. -/
def tag (session : Session (Ledger σ) κ (Tagged ω) ν) : Move σ κ ω → Move (Ledger σ) κ (Tagged ω)
  | .start key work => .start key { owner := session.callers.length, work }
  | .turn index => .turn index
  | .drop index => .drop index
  | .change change =>
    .change (fun ledger => { ledger with surroundings := change ledger.surroundings })

/-- Make some moves and keep an account of what is done with the work of each caller. -/
def observe [BEq κ] (conduct : Conduct σ κ ω ν) (session : Session (Ledger σ) κ (Tagged ω) ν)
    (moves : List (Move σ κ ω)) : Session (Ledger σ) κ (Tagged ω) ν :=
  moves.foldl (fun session move => session.make conduct.accounting (session.tag move)) session

/-- Keeping an account does not change the course of a session. -/
theorem map_observe [BEq κ] (conduct : Conduct σ κ ω ν)
    (session : Session (Ledger σ) κ (Tagged ω) ν) (moves : List (Move σ κ ω)) :
    (session.observe conduct moves).map Tagged.work Ledger.surroundings =
      (session.map Tagged.work Ledger.surroundings).run conduct moves := by
  induction moves generalizing session with
  | nil => rfl
  | cons move moves ih =>
    have hmove : (session.make conduct.accounting (session.tag move)).map Tagged.work
        Ledger.surroundings = (session.map Tagged.work Ledger.surroundings).make conduct move := by
      cases move with
      | start key work => simp [make, start, tag, map, Caller.map]
      | turn index => exact (turn_map conduct.refines_accounting session index).symm
      | drop index => exact (drop_map conduct.refines_accounting session index).symm
      | change change => rfl
    exact (ih _).trans (congrArg (run conduct · moves) hmove)

theorem Kept.started (hkept : session.Kept) (key : κ) (work : ω) :
    (session.start key { owner := session.callers.length, work }).Kept := by
  refine hkept.frame rfl rfl (begins_start key _) fun {index key' tagged} hfresh => ?_
  simp only [start, List.getElem?_append] at hfresh
  split at hfresh
  case isTrue => exact hkept.fresh hfresh
  case isFalse hindex =>
    rw [List.getElem?_singleton] at hfresh
    split at hfresh
    case isTrue hlast =>
      cases hfresh
      exact ⟨by dsimp only; omega, rfl⟩
    case isFalse => cases hfresh

/-- Calls, tickets and account fit together, and no unfinished work is left to itself. -/
structure Accounted (session : Session (Ledger σ) κ (Tagged ω) ν) : Prop where
  sound : session.shared.Sound session.tickets
  attended : session.shared.Attended
  kept : session.Kept

theorem accounted_start (ledger : Ledger σ) (hledger : ∀ index, ledger.deeds index = []) :
    Accounted ({ surroundings := ledger } : Session (Ledger σ) κ (Tagged ω) ν) where
  sound := sound_empty
  attended := attended_empty
  kept :=
    { fresh := fun h => by simp at h
      silent := fun _ => hledger _
      single := fun h => by simp [Begins, ticket?] at h
      known := fun h => by simp [Begins, ticket?] at h
      owned := fun h => by simp [view] at h }

section Run

variable [BEq κ] [LawfulBEq κ] {conduct : Conduct σ κ ω ν}

theorem Accounted.make (haccounted : session.Accounted) (move : Move σ κ ω) :
    (session.make conduct.accounting (session.tag move)).Accounted where
  sound := sound_make conduct.accounting haccounted.sound _
  attended := attended_make conduct.accounting haccounted.attended _
  kept := by
    cases move with
    | start key work => exact haccounted.kept.started key work
    | turn index => exact haccounted.kept.steps (steps_turn _ haccounted.sound index)
    | drop index => exact haccounted.kept.steps (steps_drop _ haccounted.sound index)
    | change change =>
      exact haccounted.kept.frame rfl rfl (fun _ _ => .rfl) haccounted.kept.fresh

theorem Accounted.observe (haccounted : session.Accounted) (moves : List (Move σ κ ω)) :
    (session.observe conduct moves).Accounted := by
  induction moves generalizing session with
  | nil => exact haccounted
  | cons move moves ih => exact ih (haccounted.make move)

end Run

end Session

end VirtualFs
