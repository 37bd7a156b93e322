import Mathlib.Logic.Function.Basic
import VirtualFs.Proofs.SharedCalls.Run

namespace VirtualFs

open SharedCalls

variable {σ τ κ ω ν β γ : Type}

section Local

/-- What is done with the surroundings of one key neither depends on those of others nor changes
    them. -/
structure Local (key : κ) (act : (κ → τ) → β × (κ → τ)) : Prop where
  others : ∀ s {other}, other ≠ key → (act s).2 other = s other
  result : ∀ {s t}, s key = t key → (act s).1 = (act t).1
  own : ∀ {s t}, s key = t key → (act s).2 key = (act t).2 key

variable {key : κ}

theorem local_pure (key : κ) (result : β) :
    Local key (fun s : κ → τ => (result, s)) :=
  ⟨fun _ _ _ => rfl, fun _ => rfl, id⟩

theorem Local.bind {act : (κ → τ) → β × (κ → τ)} {next : β → (κ → τ) → γ × (κ → τ)}
    (hact : Local key act) (hnext : ∀ s, Local key (next (act s).1)) :
    Local key (fun s => next (act s).1 (act s).2) where
  others s _ hother := ((hnext s).others _ hother).trans (hact.others s hother)
  result {s t} hsame := by
    rw [hact.result hsame]
    exact (hnext t).result (hact.own hsame)
  own {s t} hsame := by
    rw [hact.result hsame]
    exact (hnext t).own (hact.own hsame)

theorem Local.map {act : (κ → τ) → β × (κ → τ)} (hact : Local key act) (f : β → γ) :
    Local key (fun s => (f (act s).1, (act s).2)) :=
  ⟨hact.others, fun hsame => congrArg f (hact.result hsame), hact.own⟩

end Local

/-- Carry out works under each key in surroundings of their own. -/
def Conduct.apart [DecidableEq κ] (conduct : Conduct τ κ ω ν) : Conduct (κ → τ) κ (κ × ω) ν where
  resume work s :=
    match conduct.resume work.2 (s work.1) with
    | (.waiting rest, t) => (.waiting (work.1, rest), Function.update s work.1 t)
    | (.ready value, t) => (.ready value, Function.update s work.1 t)
  discard work s := Function.update s work.1 (conduct.discard work.2 (s work.1))
  joined key s := Function.update s key (conduct.joined key (s key))

namespace Conduct

variable [DecidableEq κ] (conduct : Conduct τ κ ω ν)

theorem local_resume (work : κ × ω) : Local work.1 (conduct.apart.resume work) where
  others s other hother := by
    simp only [apart]
    split <;> simp [hother]
  result hsame := by
    simp only [apart, hsame]
    split <;> rfl
  own hsame := by
    simp only [apart, hsame]
    split <;> simp

variable {conduct} in
theorem rest_of_waiting {work rest : κ × ω} {s : κ → τ}
    (hresume : (conduct.apart.resume work s).1 = .waiting rest) : rest.1 = work.1 := by
  simp only [apart] at hresume
  split at hresume
  · cases hresume
    rfl
  · cases hresume

theorem local_discard (work : κ × ω) :
    Local work.1 (fun s => ((), conduct.apart.discard work s)) where
  others s other hother := by simp [apart, hother]
  result _ := rfl
  own hsame := by simp [apart, hsame]

theorem local_joined (key : κ) : Local key (fun s => ((), conduct.apart.joined key s)) where
  others s other hother := by simp [apart, hother]
  result _ := rfl
  own hsame := by simp [apart, hsame]

end Conduct

namespace SharedCalls

section Single

variable (conduct : Conduct σ κ ω ν)

/-- What a look at a call brings, and what becomes of the call. -/
def Call.polled (call : Call κ ω ν) (s : σ) : (Option (Outcome ν) × Call κ ω ν) × σ :=
  match call.stage with
  | .settled outcome => ((some outcome, call), s)
  | .cancelled work =>
    ((some .aborted, { call with stage := .settled .aborted }), conduct.discard work s)
  | .running work =>
    match conduct.resume work s with
    | (.waiting rest, s) => ((none, { call with stage := .running rest }), s)
    | (.ready value, s) =>
      ((some (.value value), { call with stage := .settled (.value value) }), s)

/-- What becomes of a call with one holder less. -/
def Call.released (call : Call κ ω ν) (s : σ) : Call κ ω ν × σ :=
  match call.release with
  | ⟨key, .running work, 0⟩ => (⟨key, .settled .aborted, 0⟩, conduct.discard work s)
  | ⟨key, .cancelled work, 0⟩ => (⟨key, .settled .aborted, 0⟩, conduct.discard work s)
  | call => (call, s)

/-- What becomes of a call when one of its holders goes. -/
def Call.left (role : Role) (call : Call κ ω ν) (s : σ) : Call κ ω ν × σ :=
  match role with
  | .starter =>
    ({ (call.released conduct s).1 with stage := (call.released conduct s).1.stage.cancel },
      (call.released conduct s).2)
  | .joiner => call.released conduct s

/-- What a turn of a holder brings, who goes with the answer, and what becomes of the call. -/
def Call.consulted (role : Role) (call : Call κ ω ν) (s : σ) :
    (Option (Outcome ν) × Call κ ω ν) × σ :=
  match call.polled conduct s with
  | ((none, call), s) => ((none, call), s)
  | ((some outcome, call), s) =>
    match call.left conduct role s with
    | (call, s) => ((some outcome, call), s)

variable {shared : SharedCalls κ ω ν} {number : Nat} {call : Call κ ω ν}

theorem modify_eq_set (hcall : shared.calls[number]? = some call)
    (change : Call κ ω ν → Call κ ω ν) :
    shared.calls.modify number change = shared.calls.set number (change call) := by
  obtain ⟨hnumber, rfl⟩ := List.getElem?_eq_some_iff.1 hcall
  refine List.ext_getElem? fun other => ?_
  rw [List.getElem?_modify, List.getElem?_set]
  by_cases hother : number = other
  · subst other
    simp [hnumber]
  · simp [hother]

theorem set_same (hcall : shared.calls[number]? = some call) :
    shared.calls.set number call = shared.calls := by
  obtain ⟨hnumber, rfl⟩ := List.getElem?_eq_some_iff.1 hcall
  exact List.set_getElem_self hnumber

theorem poll_of_call (hcall : shared.calls[number]? = some call) (s : σ) :
    (shared.poll conduct number s).1 = (call.polled conduct s).1.1 ∧
      (shared.poll conduct number s).2.1.calls =
        shared.calls.set number (call.polled conduct s).1.2 ∧
      (shared.poll conduct number s).2.2 = (call.polled conduct s).2 := by
  rw [poll, hcall, Call.polled]
  cases hstage : call.stage with
  | settled outcome => simp [hstage, set_same hcall]
  | cancelled work => simp [hstage, settle, forget, onCall, modify_eq_set hcall]
  | running work =>
    simp only [Option.map_some, hstage]
    cases conduct.resume work s with
    | mk result s' =>
      cases result with
      | waiting rest => simp [onCall, modify_eq_set hcall]
      | ready value => simp [settle, forget, onCall, modify_eq_set hcall]

theorem release_of_call (hcall : shared.calls[number]? = some call) (s : σ) :
    (shared.release conduct number s).1.calls =
        shared.calls.set number (call.released conduct s).1 ∧
      (shared.release conduct number s).2 = (call.released conduct s).2 := by
  have hcalls : (shared.onCall number Call.release).calls =
      shared.calls.set number call.release := modify_eq_set hcall _
  have hreleased : (shared.onCall number Call.release).calls[number]? = some call.release := by
    simp [onCall, hcall]
  have hagain : ∀ change, (shared.onCall number Call.release).calls.modify number change =
      shared.calls.set number (change call.release) := by
    intro change
    rw [modify_eq_set hreleased, hcalls, List.set_set]
  rw [release, Call.released, hreleased]
  generalize call.release = released at hcalls hagain
  obtain ⟨key, stage, holders⟩ := released
  cases holders with
  | succ more => cases stage <;> exact ⟨hcalls, rfl⟩
  | zero =>
    cases stage with
    | running work => exact ⟨hagain _, rfl⟩
    | cancelled work => exact ⟨hagain _, rfl⟩
    | settled outcome => exact ⟨hcalls, rfl⟩

theorem leave_of_call (role : Role) (hcall : shared.calls[number]? = some call) (s : σ) :
    (shared.leave conduct ⟨number, role⟩ s).1.calls =
        shared.calls.set number (call.left conduct role s).1 ∧
      (shared.leave conduct ⟨number, role⟩ s).2 = (call.left conduct role s).2 := by
  obtain ⟨hcalls, hs⟩ := release_of_call conduct hcall s
  cases role with
  | joiner => exact ⟨hcalls, hs⟩
  | starter =>
    refine ⟨?_, hs⟩
    have hnumber := (List.getElem?_eq_some_iff.1 hcall).1
    have hreleased : (shared.release conduct number s).1.calls[number]? =
        some (call.released conduct s).1 := by
      rw [hcalls, List.getElem?_set_self hnumber]
    exact (modify_eq_set hreleased _).trans (by rw [hcalls, List.set_set]; rfl)

end Single

section Own

/-- A call's work is carried out in the surroundings of the call's own key. -/
def Call.Own (call : Call κ (κ × ω) ν) : Prop :=
  ∀ work, call.stage = .running work ∨ call.stage = .cancelled work → work.1 = call.key

theorem own_settled (key : κ) (outcome : Outcome ν) (holders : Nat) :
    (⟨key, .settled outcome, holders⟩ : Call κ (κ × ω) ν).Own := by
  rintro work (hstage | hstage)
  · cases hstage
  · cases hstage

theorem own_running {key : κ} {work : κ × ω} (hwork : work.1 = key) (holders : Nat) :
    (⟨key, .running work, holders⟩ : Call κ (κ × ω) ν).Own := by
  rintro other (hstage | hstage)
  · cases hstage
    exact hwork
  · cases hstage

theorem Call.Own.hold {call : Call κ (κ × ω) ν} (hown : call.Own) : call.hold.Own := hown

theorem Call.Own.cancel {call : Call κ (κ × ω) ν} (hown : call.Own) :
    ({ call with stage := call.stage.cancel } : Call κ (κ × ω) ν).Own := by
  intro work hstage
  obtain ⟨key, stage, holders⟩ := call
  cases stage with
  | running other =>
    rcases hstage with hstage | hstage
    · cases hstage
    · cases hstage
      exact hown _ (.inl rfl)
  | cancelled other => exact hown work hstage
  | settled outcome => exact hown work hstage

/-- What is done to one call concerns the surroundings of its key only, and it stays a call of that
    key. -/
structure Confined (call : Call κ (κ × ω) ν) (after : β → Call κ (κ × ω) ν)
    (act : (κ → τ) → β × (κ → τ)) : Prop where
  isLocal : Local call.key act
  key : ∀ s, (after (act s).1).key = call.key
  own : ∀ s, (after (act s).1).Own

theorem confined_pure {call : Call κ (κ × ω) ν} (hown : call.Own)
    {after : β → Call κ (κ × ω) ν} {result : β} (hafter : after result = call) :
    Confined call after (fun s : κ → τ => (result, s)) where
  isLocal := local_pure _ _
  key _ := by rw [hafter]
  own _ := by rwa [hafter]

theorem Confined.bind {call : Call κ (κ × ω) ν} {after : β → Call κ (κ × ω) ν}
    {after' : γ → Call κ (κ × ω) ν} {act : (κ → τ) → β × (κ → τ)}
    {next : β → (κ → τ) → γ × (κ → τ)} (hact : Confined call after act)
    (hnext : ∀ s, Confined (after (act s).1) after' (next (act s).1)) :
    Confined call after' (fun s => next (act s).1 (act s).2) where
  isLocal := hact.isLocal.bind fun s => hact.key s ▸ (hnext s).isLocal
  key s := ((hnext s).key _).trans (hact.key s)
  own s := (hnext s).own _

variable [DecidableEq κ] (conduct : Conduct τ κ ω ν)

/-- Work that is given up was carried out for its call. -/
theorem confined_discard {call : Call κ (κ × ω) ν} {work : κ × ω} (hwork : work.1 = call.key)
    {after : β → Call κ (κ × ω) ν} {result : β} {outcome : Outcome ν} {holders : Nat}
    (hafter : after result = ⟨call.key, .settled outcome, holders⟩) :
    Confined call after (fun s => (result, conduct.apart.discard work s)) where
  isLocal := hwork ▸ (conduct.local_discard work).map fun _ => result
  key _ := by rw [hafter]
  own _ := by
    rw [hafter]
    exact own_settled _ _ _

theorem confined_polled {call : Call κ (κ × ω) ν} (hown : call.Own) :
    Confined call Prod.snd (call.polled conduct.apart) := by
  obtain ⟨key, stage, holders⟩ := call
  cases stage with
  | settled outcome => exact confined_pure hown rfl
  | cancelled work => exact confined_discard conduct (hown work (.inr rfl)) rfl
  | running work =>
    obtain rfl : work.1 = key := hown work (.inl rfl)
    let next : Poll (κ × ω) ν → Option (Outcome ν) × Call κ (κ × ω) ν
      | .waiting rest => (none, ⟨work.1, .running rest, holders⟩)
      | .ready value => (some (.value value), ⟨work.1, .settled (.value value), holders⟩)
    have hnext : Call.polled conduct.apart ⟨work.1, .running work, holders⟩ = fun s =>
        (next (conduct.apart.resume work s).1, (conduct.apart.resume work s).2) := by
      funext s
      simp only [Call.polled]
      generalize conduct.apart.resume work s = resumed
      obtain ⟨result, s⟩ := resumed
      cases result <;> rfl
    rw [hnext]
    refine ⟨(conduct.local_resume work).map next, fun s => ?_, fun s => ?_⟩
    · cases (conduct.apart.resume work s).1 <;> rfl
    · cases hresume : (conduct.apart.resume work s).1 with
      | ready value => exact own_settled _ _ _
      | waiting rest => exact own_running (Conduct.rest_of_waiting hresume) _

theorem confined_released {call : Call κ (κ × ω) ν} (hown : call.Own) :
    Confined call id (call.released conduct.apart) := by
  obtain ⟨key, stage, holders⟩ := call
  have hkept : Confined (⟨key, stage, holders⟩ : Call κ (κ × ω) ν) id
      (fun s : κ → τ => (⟨key, stage, holders - 1⟩, s)) :=
    ⟨local_pure _ _, fun _ => rfl, fun _ => hown⟩
  cases hmore : holders - 1 with
  | succ more =>
    have hreleased : Call.released conduct.apart ⟨key, stage, holders⟩ =
        fun s => (⟨key, stage, holders - 1⟩, s) := by
      funext s
      cases stage <;> simp [Call.released, Call.release, hmore]
    rwa [hreleased]
  | zero =>
    cases stage with
    | settled outcome =>
      have hreleased : Call.released conduct.apart ⟨key, .settled outcome, holders⟩ =
          fun s => (⟨key, .settled outcome, holders - 1⟩, s) := by
        funext s
        simp [Call.released, Call.release]
      rwa [hreleased]
    | running work =>
      have hreleased : Call.released conduct.apart ⟨key, .running work, holders⟩ =
          fun s => (⟨key, .settled .aborted, 0⟩, conduct.apart.discard work s) := by
        funext s
        simp [Call.released, Call.release, hmore]
      rw [hreleased]
      exact confined_discard conduct (hown work (.inl rfl)) rfl
    | cancelled work =>
      have hreleased : Call.released conduct.apart ⟨key, .cancelled work, holders⟩ =
          fun s => (⟨key, .settled .aborted, 0⟩, conduct.apart.discard work s) := by
        funext s
        simp [Call.released, Call.release, hmore]
      rw [hreleased]
      exact confined_discard conduct (hown work (.inr rfl)) rfl

theorem confined_left {call : Call κ (κ × ω) ν} (hown : call.Own) (role : Role) :
    Confined call id (call.left conduct.apart role) := by
  have hreleased := confined_released conduct hown
  cases role with
  | joiner => exact hreleased
  | starter =>
    exact ⟨hreleased.isLocal.map fun call => { call with stage := call.stage.cancel },
      hreleased.key, fun s => (hreleased.own s).cancel⟩

theorem confined_consulted {call : Call κ (κ × ω) ν} (hown : call.Own) (role : Role) :
    Confined call Prod.snd (call.consulted conduct.apart role) := by
  have hpolled := confined_polled conduct hown
  let next (result : Option (Outcome ν) × Call κ (κ × ω) ν) (s : κ → τ) :
      (Option (Outcome ν) × Call κ (κ × ω) ν) × (κ → τ) :=
    match result.1 with
    | none => (result, s)
    | some outcome =>
      ((some outcome, (result.2.left conduct.apart role s).1),
        (result.2.left conduct.apart role s).2)
  have hnext : call.consulted conduct.apart role = fun s =>
      next (call.polled conduct.apart s).1 (call.polled conduct.apart s).2 := by
    funext s
    simp only [Call.consulted]
    generalize call.polled conduct.apart s = polled
    obtain ⟨⟨answer, call⟩, s⟩ := polled
    cases answer <;> rfl
  rw [hnext]
  refine hpolled.bind fun s => ?_
  have hown' := hpolled.own s
  generalize (call.polled conduct.apart s).1 = result at hown'
  obtain ⟨answer, call'⟩ := result
  cases answer with
  | none => exact confined_pure hown' rfl
  | some outcome =>
    have hleft := confined_left conduct hown' role
    exact ⟨hleft.isLocal.map fun call => (some outcome, call), hleft.key, hleft.own⟩

end Own

end SharedCalls

end VirtualFs
