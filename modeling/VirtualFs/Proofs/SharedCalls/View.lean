import VirtualFs.SharedCalls

namespace VirtualFs.SharedCalls

variable {σ κ ω ν : Type}

namespace Stage

/-- The work is still to be carried to its end. -/
def IsRunning : Stage ω ν → Prop
  | running _ => True
  | _ => False

/-- Nobody will get a value. -/
def IsAborted : Stage ω ν → Prop
  | cancelled _ => True
  | settled .aborted => True
  | _ => False

@[simp] theorem isRunning_running (work : ω) : (running work : Stage ω ν).IsRunning := trivial

@[simp] theorem not_isRunning_cancelled (work : ω) : ¬ (cancelled work : Stage ω ν).IsRunning := id

@[simp] theorem not_isRunning_settled (outcome : Outcome ν) :
    ¬ (settled outcome : Stage ω ν).IsRunning := id

@[simp] theorem not_isAborted_running (work : ω) : ¬ (running work : Stage ω ν).IsAborted := id

@[simp] theorem isAborted_cancelled (work : ω) : (cancelled work : Stage ω ν).IsAborted := trivial

@[simp] theorem isAborted_settled (outcome : Outcome ν) :
    (settled outcome : Stage ω ν).IsAborted ↔ outcome = .aborted := by
  cases outcome <;> simp [IsAborted]

theorem IsRunning.exists_work {stage : Stage ω ν} (hrunning : stage.IsRunning) :
    ∃ work, stage = running work := by
  cases stage with
  | running work => exact ⟨work, rfl⟩
  | cancelled _ => exact hrunning.elim
  | settled _ => exact hrunning.elim

@[simp] theorem not_isRunning_cancel (stage : Stage ω ν) : ¬ stage.cancel.IsRunning := by
  cases stage <;> simp [cancel]

end Stage

/-- What can be seen of a call by its number, whoever waits for it. -/
def view (shared : SharedCalls κ ω ν) (number : Nat) : Option (κ × Stage ω ν) :=
  shared.calls[number]?.map (fun call => (call.key, call.stage))

theorem view_eq_some_iff {shared : SharedCalls κ ω ν} {number : Nat} {key : κ}
    {stage : Stage ω ν} :
    shared.view number = some (key, stage) ↔
      ∃ call, shared.calls[number]? = some call ∧ call.key = key ∧ call.stage = stage := by
  simp [view]

@[simp] theorem view_forget (shared : SharedCalls κ ω ν) (number : Nat) :
    (shared.forget number).view = shared.view := rfl

/-- Callers come and go without being seen. -/
theorem view_onCall_of_same {shared : SharedCalls κ ω ν} {number : Nat}
    {change : Call κ ω ν → Call κ ω ν}
    (hsame : ∀ {call}, shared.calls[number]? = some call →
      (change call).key = call.key ∧ (change call).stage = call.stage) :
    (shared.onCall number change).view = shared.view := by
  funext other
  by_cases hnumber : number = other
  · subst hnumber
    cases hcall : shared.calls[number]? with
    | none => simp [view, onCall, hcall]
    | some call => simp [view, onCall, hcall, hsame hcall]
  · simp [view, onCall, hnumber]

@[simp] theorem view_hold (shared : SharedCalls κ ω ν) (number : Nat) :
    (shared.onCall number Call.hold).view = shared.view :=
  view_onCall_of_same (fun _ => ⟨rfl, rfl⟩)

@[simp] theorem view_release (shared : SharedCalls κ ω ν) (number : Nat) :
    (shared.onCall number Call.release).view = shared.view :=
  view_onCall_of_same (fun _ => ⟨rfl, rfl⟩)

/-- A change of stage is a change to one call. -/
theorem view_onStage (shared : SharedCalls κ ω ν) (number : Nat)
    (change : Stage ω ν → Stage ω ν) (other : Nat) :
    (shared.onCall number (fun call => { call with stage := change call.stage })).view other =
      if other = number then (shared.view number).map (Prod.map id change)
      else shared.view other := by
  by_cases hnumber : other = number
  · subst hnumber
    simp [view, onCall, Function.comp_def]
  · simp [view, onCall, hnumber, Ne.symm hnumber]

theorem view_settle (shared : SharedCalls κ ω ν) (number : Nat) (outcome : Outcome ν)
    (other : Nat) :
    (shared.settle number outcome).view other =
      if other = number then (shared.view number).map (Prod.map id (fun _ => .settled outcome))
      else shared.view other :=
  view_onStage shared number (fun _ => .settled outcome) other

theorem view_cancel (shared : SharedCalls κ ω ν) (number : Nat) (other : Nat) :
    (shared.cancel number).view other =
      if other = number then (shared.view number).map (Prod.map id Stage.cancel)
      else shared.view other :=
  view_onStage shared number Stage.cancel other

theorem view_begin [BEq κ] (shared : SharedCalls κ ω ν) (key : κ) (work : ω) (other : Nat) :
    (shared.begin key work).view other =
      if other = shared.calls.length then some (key, .running work) else shared.view other := by
  simp only [view, SharedCalls.begin, List.getElem?_append]
  rcases Nat.lt_trichotomy other shared.calls.length with hlt | rfl | hgt
  · simp [hlt, Nat.ne_of_lt hlt]
  · simp
  · simp [Nat.ne_of_gt hgt, Nat.not_lt_of_gt hgt,
      show other - shared.calls.length ≠ 0 by omega]

theorem view_eq_none_iff {shared : SharedCalls κ ω ν} {number : Nat} :
    shared.view number = none ↔ shared.calls.length ≤ number := by
  simp [view]

/-- Something is true of every call, given its number, its key and its stage. -/
def Every (shared : SharedCalls κ ω ν) (P : Nat → κ → Stage ω ν → Prop) : Prop :=
  ∀ ⦃number key stage⦄, shared.view number = some (key, stage) → P number key stage

theorem every_empty (P : Nat → κ → Stage ω ν → Prop) : ({} : SharedCalls κ ω ν).Every P := by
  intro number key stage hview
  simp [view] at hview

theorem every_of_view_eq {P : Nat → κ → Stage ω ν → Prop} {before after : SharedCalls κ ω ν}
    (hbefore : before.Every P) (hview : after.view = before.view) : after.Every P :=
  fun _ _ _ hafter => hbefore (hview ▸ hafter)

theorem every_of_view_update {P : Nat → κ → Stage ω ν → Prop} {before after : SharedCalls κ ω ν}
    {number : Nat} {key : κ} {stage : Stage ω ν} (hbefore : before.Every P)
    (hafter : ∀ other, after.view other =
      if other = number then some (key, stage) else before.view other)
    (hnew : P number key stage) : after.Every P := by
  intro other key' stage' hview
  rw [hafter] at hview
  split at hview
  case isTrue hnumber =>
    cases hview
    exact hnumber ▸ hnew
  case isFalse => exact hbefore hview

/-- What may become of a call in the course of time. A running call may come to anything, one that
    was cancelled can only be given up, and an outcome is for ever. -/
inductive Stage.Later : Stage ω ν → Stage ω ν → Prop
  | same (stage : Stage ω ν) : Later stage stage
  | onward (work : ω) (stage : Stage ω ν) : Later (running work) stage
  | givenUp (work : ω) : Later (cancelled work) (settled .aborted)

namespace Stage

theorem Later.trans {first middle last : Stage ω ν} (hfirst : first.Later middle)
    (hlast : middle.Later last) : first.Later last := by
  cases hfirst with
  | same => exact hlast
  | onward work => exact .onward work last
  | givenUp work =>
    cases hlast with
    | same => exact .givenUp work

theorem Later.eq_of_settled {outcome : Outcome ν} {last : Stage ω ν}
    (hlater : (settled outcome).Later last) : last = settled outcome := by
  cases hlater
  rfl

/-- Work that is under way was under way all the time. -/
theorem Later.isRunning {first last : Stage ω ν} (hlater : first.Later last)
    (hrunning : last.IsRunning) : first.IsRunning := by
  cases hlater with
  | same => exact hrunning
  | onward => trivial
  | givenUp => exact hrunning.elim

theorem Later.isAborted {first last : Stage ω ν} (hlater : first.Later last)
    (haborted : first.IsAborted) : last.IsAborted := by
  cases hlater with
  | same => exact haborted
  | onward => exact haborted.elim
  | givenUp => trivial

end Stage

/-- Calls are never forgotten, only their entries are: each call of before is still there under its
    number and its key. -/
def Later (before after : SharedCalls κ ω ν) : Prop :=
  ∀ ⦃number key stage⦄, before.view number = some (key, stage) →
    ∃ stage', after.view number = some (key, stage') ∧ stage.Later stage'

theorem Later.refl (shared : SharedCalls κ ω ν) : shared.Later shared :=
  fun _ _ stage hview => ⟨stage, hview, .same stage⟩

theorem Later.trans {first middle last : SharedCalls κ ω ν} (hfirst : first.Later middle)
    (hlast : middle.Later last) : first.Later last := by
  intro number key stage hview
  obtain ⟨stage', hview', hstage'⟩ := hfirst hview
  obtain ⟨stage'', hview'', hstage''⟩ := hlast hview'
  exact ⟨stage'', hview'', hstage'.trans hstage''⟩

theorem Later.length_le {before after : SharedCalls κ ω ν} (hlater : before.Later after) :
    before.calls.length ≤ after.calls.length := by
  cases hview : before.view after.calls.length with
  | none => exact view_eq_none_iff.1 hview
  | some call =>
    obtain ⟨stage, hview', -⟩ := hlater hview
    rw [view_eq_none_iff.2 (Nat.le_refl _)] at hview'
    cases hview'

theorem later_of_view_eq {before after : SharedCalls κ ω ν} (hview : after.view = before.view) :
    before.Later after := by
  intro number key stage hbefore
  refine ⟨stage, ?_, .same stage⟩
  rw [hview, hbefore]

/-- A change to the stage of one call that time allows. -/
theorem later_of_view_update {before after : SharedCalls κ ω ν} {number : Nat} {key : κ}
    {stage stage' : Stage ω ν} (hbefore : before.view number = some (key, stage))
    (hafter : ∀ other, after.view other =
      if other = number then some (key, stage') else before.view other)
    (hstage : stage.Later stage') : before.Later after := by
  intro other key' old hold
  by_cases hnumber : other = number
  · subst hnumber
    obtain ⟨rfl, rfl⟩ : key = key' ∧ stage = old := by simpa [hbefore] using hold
    refine ⟨stage', ?_, hstage⟩
    simp [hafter]
  · refine ⟨old, ?_, .same old⟩
    simp [hafter, hnumber, hold]

section Moves

variable (conduct : Conduct σ κ ω ν) (s : σ)

/-- Letting go of a handle either only counts down or, with the last handle of unfinished work,
    gives the work up. -/
theorem release_cases (shared : SharedCalls κ ω ν) (number : Nat) :
    (shared.release conduct number s = (shared.onCall number Call.release, s) ∧
      ∀ {call}, shared.calls[number]? = some call → call.holders ≤ 1 →
        ∃ outcome, call.stage = .settled outcome) ∨
    ∃ call work, shared.calls[number]? = some call ∧ call.holders ≤ 1 ∧
      (call.stage = .running work ∨ call.stage = .cancelled work) ∧
      shared.release conduct number s =
        ((shared.onCall number Call.release).settle number .aborted, conduct.discard work s) := by
  cases hcall : shared.calls[number]? with
  | none =>
    have hrelease : shared.release conduct number s =
        (shared.onCall number Call.release, s) := by
      simp [release, onCall, hcall]
    exact .inl ⟨hrelease, fun h => by cases h⟩
  | some call =>
    obtain ⟨key, stage, holders⟩ := call
    have hreleased : (shared.onCall number Call.release).calls[number]? =
        some ⟨key, stage, holders - 1⟩ := by
      simp [onCall, hcall, Call.release]
    rcases Nat.lt_or_ge 1 holders with hmany | hlast
    · refine .inl ⟨?_, fun hother hlast => ?_⟩
      · obtain ⟨more, hmore⟩ : ∃ more, holders - 1 = more + 1 := ⟨holders - 2, by omega⟩
        rw [hmore] at hreleased
        simp [release, hreleased]
      · cases hother
        dsimp only at hlast
        omega
    · have hnone : holders - 1 = 0 := by omega
      rw [hnone] at hreleased
      cases stage with
      | settled outcome =>
        have hrelease : shared.release conduct number s =
            (shared.onCall number Call.release, s) := by
          simp [release, hreleased]
        refine .inl ⟨hrelease, fun hother _ => ?_⟩
        cases hother
        exact ⟨outcome, rfl⟩
      | running work =>
        refine .inr ⟨_, work, rfl, hlast, .inl rfl, ?_⟩
        simp [release, hreleased]
      | cancelled work =>
        refine .inr ⟨_, work, rfl, hlast, .inr rfl, ?_⟩
        simp [release, hreleased]

variable {conduct s} {shared : SharedCalls κ ω ν} {number : Nat} {key : κ}

theorem poll_of_settled {outcome : Outcome ν}
    (hview : shared.view number = some (key, .settled outcome)) :
    shared.poll conduct number s = (some outcome, shared, s) := by
  obtain ⟨call, hcall, -, hstage⟩ := view_eq_some_iff.1 hview
  simp [poll, hcall, hstage]

theorem poll_of_cancelled {work : ω}
    (hview : shared.view number = some (key, .cancelled work)) :
    shared.poll conduct number s =
      (some .aborted, shared.settle number .aborted, conduct.discard work s) := by
  obtain ⟨call, hcall, -, hstage⟩ := view_eq_some_iff.1 hview
  simp [poll, hcall, hstage]

theorem poll_of_waiting {work rest : ω} {s' : σ}
    (hview : shared.view number = some (key, .running work))
    (hresume : conduct.resume work s = (.waiting rest, s')) :
    shared.poll conduct number s =
      (none, shared.onCall number (fun call => { call with stage := .running rest }), s') := by
  obtain ⟨call, hcall, -, hstage⟩ := view_eq_some_iff.1 hview
  simp [poll, hcall, hstage, hresume]

theorem poll_of_ready {work : ω} {value : ν} {s' : σ}
    (hview : shared.view number = some (key, .running work))
    (hresume : conduct.resume work s = (.ready value, s')) :
    shared.poll conduct number s =
      (some (.value value), shared.settle number (.value value), s') := by
  obtain ⟨call, hcall, -, hstage⟩ := view_eq_some_iff.1 hview
  simp [poll, hcall, hstage, hresume]

theorem view_settle_of_view {stage : Stage ω ν} (hview : shared.view number = some (key, stage))
    (outcome : Outcome ν) (other : Nat) :
    (shared.settle number outcome).view other =
      if other = number then some (key, .settled outcome) else shared.view other := by
  simp [view_settle, hview]

theorem view_resume_of_view {stage : Stage ω ν} (hview : shared.view number = some (key, stage))
    (rest : ω) (other : Nat) :
    (shared.onCall number (fun call => { call with stage := .running rest })).view other =
      if other = number then some (key, .running rest) else shared.view other := by
  simpa [hview] using view_onStage shared number (fun _ => .running rest) other

variable (conduct s) in
theorem later_attach [BEq κ] (shared : SharedCalls κ ω ν) (key : κ) (work : ω) :
    shared.Later (shared.attach conduct key work s).2.1 := by
  rw [attach]
  split
  · exact later_of_view_eq (view_hold _ _)
  · intro number key' stage hview
    have hold : number ≠ shared.calls.length := by
      rintro rfl
      rw [view_eq_none_iff.2 (Nat.le_refl _)] at hview
      cases hview
    refine ⟨stage, ?_, .same stage⟩
    rw [view_begin, if_neg hold, hview]

/-- What a look at a call comes to, by the stage at which the call stands. -/
inductive Look (conduct : Conduct σ κ ω ν) (s : σ) (shared : SharedCalls κ ω ν) (number : Nat) :
    Option (Outcome ν) × SharedCalls κ ω ν × σ → Prop
  | absent (view : shared.view number = none) : Look conduct s shared number (none, shared, s)
  | settled {key : κ} {outcome : Outcome ν}
      (view : shared.view number = some (key, .settled outcome)) :
      Look conduct s shared number (some outcome, shared, s)
  | givenUp {key : κ} {work : ω} (view : shared.view number = some (key, .cancelled work)) :
      Look conduct s shared number
        (some .aborted, shared.settle number .aborted, conduct.discard work s)
  | carried {key : κ} {work rest : ω} {s' : σ}
      (view : shared.view number = some (key, .running work))
      (resume : conduct.resume work s = (.waiting rest, s')) :
      Look conduct s shared number
        (none, shared.onCall number (fun call => { call with stage := .running rest }), s')
  | finished {key : κ} {work : ω} {value : ν} {s' : σ}
      (view : shared.view number = some (key, .running work))
      (resume : conduct.resume work s = (.ready value, s')) :
      Look conduct s shared number (some (.value value), shared.settle number (.value value), s')

variable (conduct s) in
theorem look_poll (shared : SharedCalls κ ω ν) (number : Nat) :
    Look conduct s shared number (shared.poll conduct number s) := by
  cases hview : shared.view number with
  | none =>
    have hcall : shared.calls[number]? = none := by simpa [view] using hview
    have hpoll : shared.poll conduct number s = (none, shared, s) := by simp [poll, hcall]
    exact hpoll ▸ .absent hview
  | some seen =>
    obtain ⟨key, stage⟩ := seen
    cases stage with
    | settled outcome => exact poll_of_settled hview ▸ .settled hview
    | cancelled work => exact poll_of_cancelled hview ▸ .givenUp hview
    | running work =>
      cases hresume : conduct.resume work s with
      | mk result s' =>
        cases result with
        | waiting rest => exact poll_of_waiting hview hresume ▸ .carried hview hresume
        | ready value => exact poll_of_ready hview hresume ▸ .finished hview hresume

variable (conduct s) in
theorem later_poll (shared : SharedCalls κ ω ν) (number : Nat) :
    shared.Later (shared.poll conduct number s).2.1 := by
  have hlook := look_poll conduct s shared number
  generalize shared.poll conduct number s = polled at hlook ⊢
  cases hlook with
  | absent => exact .refl shared
  | settled => exact .refl shared
  | givenUp hview =>
    exact later_of_view_update hview (view_settle_of_view hview _) (.givenUp _)
  | carried hview =>
    exact later_of_view_update hview (view_resume_of_view hview _) (.onward _ _)
  | finished hview =>
    exact later_of_view_update hview (view_settle_of_view hview _) (.onward _ _)

/-- An answer to a poll is the outcome at which the call then stands. -/
theorem view_of_poll {outcome : Outcome ν} {shared' : SharedCalls κ ω ν} {s' : σ}
    (hpoll : shared.poll conduct number s = (some outcome, shared', s')) :
    ∃ key, shared'.view number = some (key, .settled outcome) := by
  have hlook := look_poll conduct s shared number
  rw [hpoll] at hlook
  cases hlook with
  | settled hview => exact ⟨_, hview⟩
  | givenUp hview => exact ⟨_, (view_settle_of_view hview _ _).trans (if_pos rfl)⟩
  | finished hview => exact ⟨_, (view_settle_of_view hview _ _).trans (if_pos rfl)⟩

/-- Looking at a call whose work is running takes the surroundings where the work takes them. -/
theorem poll_of_running {work : ω} (hview : shared.view number = some (key, .running work)) :
    (shared.poll conduct number s).2.2 = (conduct.resume work s).2 := by
  have hlook := look_poll conduct s shared number
  generalize shared.poll conduct number s = polled at hlook ⊢
  cases hlook with
  | absent hview' => cases hview.symm.trans hview'
  | settled hview' => cases hview.symm.trans hview'
  | givenUp hview' => cases hview.symm.trans hview'
  | carried hview' hresume =>
    obtain ⟨-, hwork⟩ := Prod.mk.inj (Option.some.inj (hview.symm.trans hview'))
    cases hwork
    exact (congrArg Prod.snd hresume).symm
  | finished hview' hresume =>
    obtain ⟨-, hwork⟩ := Prod.mk.inj (Option.some.inj (hview.symm.trans hview'))
    cases hwork
    exact (congrArg Prod.snd hresume).symm

/-- A call whose work is running is not aborted by looking at it. -/
theorem poll_ne_aborted {work : ω} (hview : shared.view number = some (key, .running work)) :
    (shared.poll conduct number s).1 ≠ some .aborted := by
  have hlook := look_poll conduct s shared number
  generalize shared.poll conduct number s = polled at hlook ⊢
  cases hlook with
  | absent => nofun
  | settled hview' => cases hview.symm.trans hview'
  | givenUp hview' => cases hview.symm.trans hview'
  | carried => nofun
  | finished => nofun

variable (conduct s) in
/-- Looking at a call brings its outcome, or its work is still under way. -/
theorem poll_cases {shared : SharedCalls κ ω ν} {stage : Stage ω ν}
    (hview : shared.view number = some (key, stage)) :
    (∃ outcome, (shared.poll conduct number s).1 = some outcome ∧
      ∀ other, (shared.poll conduct number s).2.1.view other =
        if other = number then some (key, .settled outcome) else shared.view other) ∨
    ∃ work rest, stage = .running work ∧ (conduct.resume work s).1 = .waiting rest ∧
      (shared.poll conduct number s).1 = none ∧
      ∀ other, (shared.poll conduct number s).2.1.view other =
        if other = number then some (key, .running rest) else shared.view other := by
  have hlook := look_poll conduct s shared number
  generalize shared.poll conduct number s = polled at hlook ⊢
  cases hlook with
  | absent hview' => cases hview.symm.trans hview'
  | settled hview' =>
    obtain ⟨rfl, rfl⟩ := Prod.mk.inj (Option.some.inj (hview.symm.trans hview'))
    refine .inl ⟨_, rfl, fun other => ?_⟩
    split
    case isTrue hnumber => rw [hnumber, hview]
    case isFalse => rfl
  | givenUp hview' =>
    obtain ⟨rfl, rfl⟩ := Prod.mk.inj (Option.some.inj (hview.symm.trans hview'))
    exact .inl ⟨_, rfl, view_settle_of_view hview _⟩
  | carried hview' hresume =>
    obtain ⟨rfl, rfl⟩ := Prod.mk.inj (Option.some.inj (hview.symm.trans hview'))
    exact .inr ⟨_, _, rfl, congrArg Prod.fst hresume, rfl, view_resume_of_view hview _⟩
  | finished hview' hresume =>
    obtain ⟨rfl, rfl⟩ := Prod.mk.inj (Option.some.inj (hview.symm.trans hview'))
    exact .inl ⟨_, rfl, view_settle_of_view hview _⟩

/-- What a poll makes of the calls. Only the call that is looked at changes its stage. -/
theorem Every.poll {shared : SharedCalls κ ω ν} {number : Nat} {P : Nat → κ → Stage ω ν → Prop}
    (hbefore : shared.Every P)
    (hwaiting : ∀ {key work rest}, shared.view number = some (key, .running work) →
      (conduct.resume work s).1 = .waiting rest → P number key (.running rest))
    (hready : ∀ {key work value}, shared.view number = some (key, .running work) →
      (conduct.resume work s).1 = .ready value → P number key (.settled (.value value)))
    (hgivenUp : ∀ {key work}, shared.view number = some (key, .cancelled work) →
      P number key (.settled .aborted)) :
    (shared.poll conduct number s).2.1.Every P := by
  have hlook := look_poll conduct s shared number
  generalize shared.poll conduct number s = polled at hlook ⊢
  cases hlook with
  | absent => exact hbefore
  | settled => exact hbefore
  | givenUp hview =>
    exact every_of_view_update hbefore (view_settle_of_view hview _) (hgivenUp hview)
  | carried hview hresume =>
    exact every_of_view_update hbefore (view_resume_of_view hview _)
      (hwaiting hview (congrArg Prod.fst hresume))
  | finished hview hresume =>
    exact every_of_view_update hbefore (view_settle_of_view hview _)
      (hready hview (congrArg Prod.fst hresume))

variable (conduct s) in
/-- Taking part in a call changes no other call, and it begins one where there is none to join. -/
theorem Every.attach [BEq κ] {shared : SharedCalls κ ω ν} {P : Nat → κ → Stage ω ν → Prop}
    {key : κ} {work : ω} (hbefore : shared.Every P)
    (hbegin : shared.joinable? key = none → P shared.calls.length key (.running work)) :
    (shared.attach conduct key work s).2.1.Every P := by
  rw [SharedCalls.attach]
  split
  case h_1 => exact every_of_view_eq hbefore (view_hold _ _)
  case h_2 hjoinable =>
    exact every_of_view_update hbefore (view_begin shared key work) (hbegin hjoinable)

variable (conduct s) in
/-- Whoever leaves a settled call leaves no trace. -/
theorem leave_of_settled (ticket : Ticket) {outcome : Outcome ν}
    (hview : shared.view ticket.call = some (key, .settled outcome)) :
    (shared.leave conduct ticket s).1.view = shared.view ∧
      (shared.leave conduct ticket s).2 = s := by
  have hrelease : shared.release conduct ticket.call s =
      (shared.onCall ticket.call Call.release, s) := by
    rcases release_cases conduct s shared ticket.call with
      ⟨hrelease, -⟩ | ⟨call, work, hcall, -, hstage, -⟩
    · exact hrelease
    · obtain ⟨other, hother, -, hsettled⟩ := view_eq_some_iff.1 hview
      rw [hcall] at hother
      obtain rfl := Option.some.inj hother
      rcases hstage with hstage | hstage
      · rw [hsettled] at hstage
        cases hstage
      · rw [hsettled] at hstage
        cases hstage
  rw [leave, hrelease]
  cases ticket.role with
  | joiner => exact ⟨view_release _ _, rfl⟩
  | starter =>
    refine ⟨funext fun other => ?_, rfl⟩
    simp only [view_cancel, view_release]
    split
    case isTrue hnumber => simp [hnumber, hview, Stage.cancel]
    case isFalse => rfl

end Moves

end VirtualFs.SharedCalls
