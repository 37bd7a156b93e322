import VirtualFs.Proofs.SharedCalls.Ledger
import VirtualFs.Scenario.Sharing

namespace VirtualFs

open SharedCalls

variable {σ κ ω ν : Type}

/-- What becomes of work whose starter was taken away: it stays as it was left, or it is given
    up. -/
inductive Lost (left : List Deed) : Stage (Tagged ω) ν → List Deed → Prop
  | waiting {tagged} : Lost left (.cancelled tagged) left
  | discarded : Lost left (.settled .aborted) (left ++ [.discarded])

theorem Lost.advance {left deeds deeds' : List Deed} {stage stage' : Stage (Tagged ω) ν}
    (hlost : Lost left stage deeds) (hadvance : Advance stage deeds stage' deeds') :
    Lost left stage' deeds' := by
  cases hadvance with
  | stay => exact hlost
  | givenUp =>
    cases hlost with
    | waiting => exact .discarded
  | carried => cases hlost
  | finished => cases hlost
  | cancelled => cases hlost
  | abandoned => cases hlost

namespace Session

/-- A caller began a call and was taken away, of whose work something had been done. -/
def HasLost (session : Session (Ledger σ) κ (Tagged ω) ν) (index number : Nat)
    (left : List Deed) : Prop :=
  session.Begins index number ∧ ∃ key stage, session.shared.view number = some (key, stage) ∧
    Lost left stage (session.deeds index)

variable {session after : Session (Ledger σ) κ (Tagged ω) ν} {index number : Nat}
  {left : List Deed} {conduct : Conduct σ κ ω ν}

/-- Work that was lost and whose call has come to its end was given up. -/
theorem HasLost.deeds_of_settled (hlost : session.HasLost index number left)
    (hsettled : ∀ {key stage}, session.shared.view number = some (key, stage) →
      ∃ outcome, stage = .settled outcome) : session.deeds index = left ++ [.discarded] := by
  obtain ⟨-, key, stage, hview, hstage⟩ := hlost
  obtain ⟨outcome, rfl⟩ := hsettled hview
  generalize session.deeds index = deeds at hstage ⊢
  cases hstage
  rfl

theorem HasLost.deeds_cases (hlost : session.HasLost index number left) :
    session.deeds index = left ∨ session.deeds index = left ++ [.discarded] := by
  obtain ⟨-, key, stage, -, hstage⟩ := hlost
  generalize session.deeds index = deeds at hstage ⊢
  cases hstage with
  | waiting => exact .inl rfl
  | discarded => exact .inr rfl

/-- A caller that began a call and waits for it has not lost it: its work goes on, or has come to
    its end. -/
theorem Accounted.holds_starter (haccounted : session.Accounted)
    (hcaller : session.callers[index]? = some (.holding ⟨number, .starter⟩))
    (hunfinished : .finished ∉ session.deeds index) :
    ∃ key tagged, session.shared.view number = some (key, .running tagged) := by
  have hbegins : session.Begins index number := ticket?_of_caller hcaller
  obtain ⟨key, stage, hview⟩ := haccounted.kept.known hbegins
  have htells := haccounted.kept.tells hbegins hview
  -- An aborted call has lost its starter's ticket, which is held here.
  have haborted : ¬ stage.IsAborted := by
    intro haborted
    obtain ⟨call, hcall, -, rfl⟩ := view_eq_some_iff.1 hview
    obtain ⟨others, htickets⟩ := exists_tickets_eq_cons hcaller
    have hcount := (haccounted.sound.call hcall).aborted haborted
    rw [htickets, Multiset.count_cons_self] at hcount
    cases hcount
  generalize session.deeds index = deeds at htells hunfinished
  cases htells with
  | running => exact ⟨key, _, hview⟩
  | cancelled => exact (haborted trivial).elim
  | finished => exact (hunfinished (by simp)).elim
  | discarded => exact (haborted trivial).elim

/-- Work is begun, gone on with from where it was left, and ended in one way at most. -/
theorem Accounted.deeds_eq (haccounted : session.Accounted) (index : Nat) :
    ∃ polls ending, session.deeds index = (List.range polls).map .polled ++ ending ∧
      (ending = [] ∨ ending = [.finished] ∨ ending = [.discarded]) := by
  by_cases hbegins : ∃ number, session.Begins index number
  · obtain ⟨number, hbegins⟩ := hbegins
    obtain ⟨key, stage, hview⟩ := haccounted.kept.known hbegins
    have htells := haccounted.kept.tells hbegins hview
    generalize session.deeds index = deeds at htells ⊢
    cases htells with
    | running => exact ⟨_, [], (List.append_nil _).symm, .inl rfl⟩
    | cancelled => exact ⟨_, [], (List.append_nil _).symm, .inl rfl⟩
    | finished => exact ⟨_, _, rfl, .inr (.inl rfl)⟩
    | discarded => exact ⟨_, _, rfl, .inr (.inr rfl)⟩
  · exact ⟨0, [], haccounted.kept.silent (not_exists.1 hbegins), .inl rfl⟩

/-- Work that something has been done of belongs to a call that its caller began. -/
theorem Accounted.exists_begins {deed : Deed} (haccounted : session.Accounted)
    (hdone : deed ∈ session.deeds index) : ∃ number, session.Begins index number := by
  by_contra hnone
  rw [haccounted.kept.silent (not_exists.1 hnone)] at hdone
  cases hdone

/-- Once nobody waits for a call, the work of the caller that began it has come to its end. -/
theorem Accounted.ended (haccounted : session.Accounted) (hbegins : session.Begins index number)
    (hnobody : ∀ {other : Nat} {role}, session.callers[other]? ≠ some (.holding ⟨number, role⟩)) :
    .finished ∈ session.deeds index ∨ .discarded ∈ session.deeds index := by
  obtain ⟨key, stage, hview⟩ := haccounted.kept.known hbegins
  obtain ⟨outcome, rfl⟩ := exists_settled haccounted.attended haccounted.sound hview hnobody
  have htells := haccounted.kept.tells hbegins hview
  generalize session.deeds index = deeds at htells ⊢
  cases htells with
  | finished => exact .inl (by simp)
  | discarded => exact .inr (by simp)

variable [BEq κ]

theorem HasLost.steps (hlost : session.HasLost index number left) (hkept : session.Kept)
    (hsteps : session.Steps conduct.accounting after) : after.HasLost index number left := by
  induction hsteps with
  | refl => exact hlost
  | tail hbefore hstep ih =>
    obtain ⟨hbegins, key, stage, hview, hstage⟩ := ih
    obtain ⟨hbegins', stage', hview', hadvance⟩ :=
      (hkept.steps hbefore).advances hstep hbegins hview
    exact ⟨hbegins', key, stage', hview', hstage.advance hadvance⟩

/-- A holder that looks at a call that has lost its starter brings it to its end. -/
theorem HasLost.turn (hlost : session.HasLost index number left) (hkept : session.Kept)
    {other : Nat} {role : Role}
    (hcaller : session.callers[other]? = some (.holding ⟨number, role⟩)) :
    (session.turn conduct.accounting other).deeds index = left ++ [.discarded] := by
  have hafter : (session.turn conduct.accounting other).HasLost index number left := by
    rw [turn_of_holding hcaller]
    exact hlost.steps hkept (.single (step_consult _ hcaller))
  refine hafter.deeds_of_settled fun {key stage} hview => ?_
  obtain ⟨-, key', stage', hview', hstage⟩ := hlost
  rw [turn_of_holding hcaller, view_consult] at hview
  generalize session.deeds index = deeds at hstage
  cases hstage with
  | waiting =>
    rw [poll_of_cancelled hview', view_settle_of_view hview', if_pos rfl] at hview
    cases hview
    exact ⟨_, rfl⟩
  | discarded =>
    rw [poll_of_settled hview', hview'] at hview
    cases hview
    exact ⟨_, rfl⟩

theorem HasLost.observe [LawfulBEq κ] (hlost : session.HasLost index number left)
    (haccounted : session.Accounted) (moves : List (Move σ κ ω)) :
    (session.observe conduct moves).HasLost index number left := by
  induction moves generalizing session with
  | nil => exact hlost
  | cons move moves ih =>
    refine ih ?_ (haccounted.make move)
    cases move with
    | start key work => exact ⟨(begins_start key _ _ _).2 hlost.1, hlost.2⟩
    | turn index => exact hlost.steps haccounted.kept (steps_turn _ haccounted.sound index)
    | drop index => exact hlost.steps haccounted.kept (steps_drop _ haccounted.sound index)
    | change change => exact hlost

/-- Whoever is taken away before its work came to its end has lost it. -/
theorem Accounted.drop_starter (haccounted : session.Accounted)
    (hcaller : session.callers[index]? = some (.holding ⟨number, .starter⟩))
    (hunfinished : .finished ∉ session.deeds index) :
    (session.drop conduct.accounting index).HasLost index number (session.deeds index) := by
  have hbegins : session.Begins index number := ticket?_of_caller hcaller
  obtain ⟨key, tagged, hview⟩ := haccounted.holds_starter hcaller hunfinished
  obtain ⟨stage, hview', haborted⟩ : ∃ stage,
      (session.drop conduct.accounting index).shared.view number = some (key, stage) ∧
        stage.IsAborted :=
    isAborted_drop_starter haccounted.sound hcaller hview
  obtain ⟨hbegins', stage', hview'', hadvance⟩ :=
    haccounted.kept.advances (step_drop _ haccounted.sound hcaller) hbegins hview
  obtain ⟨-, rfl⟩ := Prod.mk.inj (Option.some.inj (hview'.symm.trans hview''))
  refine ⟨hbegins', key, stage, hview', ?_⟩
  -- Of the steps that a running call can take, two leave it aborted.
  generalize session.deeds index = deeds at hadvance ⊢
  generalize (session.drop conduct.accounting index).deeds index = deeds' at hadvance ⊢
  cases hadvance with
  | cancelled => exact .waiting
  | abandoned => exact .discarded
  | stay => exact haborted.elim
  | carried => exact haborted.elim
  | finished => exact haborted.elim

end Session

namespace Session

variable [DecidableEq κ]

/-- The life of shared work, in every session and every order of starts, turns, changes and drops,
    as an account tells it that is kept of the work that each caller passed. Work of a caller that
    joined a call is not touched. Other work is gone on with, first as a beginning and then from
    where it was left, and in the end it is finished or discarded, once and not both. When its
    starter is taken away before, nobody goes on with it: it is discarded at once if nobody else
    waits for the call, and else with the next turn of one who waits, or when the last one goes.
    When all are finished, what was begun has come to its end. Keeping the account does not change
    the session. -/
theorem lifecycle_run (conduct : Conduct σ κ ω ν) (surroundings : σ)
    (moves : List (Move σ κ ω)) :
    let session := observe conduct { surroundings := { surroundings } } moves
    session.map Tagged.work Ledger.surroundings = run conduct { surroundings } moves ∧
    (∀ {index number}, session.ticket? index = some ⟨number, .joiner⟩ →
      session.deeds index = []) ∧
    (∀ index, ∃ polls ending, session.deeds index = (List.range polls).map .polled ++ ending ∧
      (ending = [] ∨ ending = [.finished] ∨ ending = [.discarded])) ∧
    (∀ {index : Nat} {number}, session.callers[index]? = some (.holding ⟨number, .starter⟩) →
      .finished ∉ session.deeds index → ∀ later,
        let left := (session.drop conduct.accounting index).observe conduct later
        (left.deeds index = session.deeds index ∨
          left.deeds index = session.deeds index ++ [.discarded]) ∧
        ((∀ (other : Nat) role, left.callers[other]? ≠ some (.holding ⟨number, role⟩)) →
          left.deeds index = session.deeds index ++ [.discarded]) ∧
        ∀ (other : Nat) role, left.callers[other]? = some (.holding ⟨number, role⟩) →
          (left.turn conduct.accounting other).deeds index =
            session.deeds index ++ [.discarded]) ∧
    ((∀ caller ∈ session.callers, caller.IsFinished) → ∀ {index},
      .polled 0 ∈ session.deeds index →
        .finished ∈ session.deeds index ∨ .discarded ∈ session.deeds index) := by
  intro session
  have haccounted : session.Accounted := (accounted_start _ fun _ => rfl).observe moves
  refine ⟨map_observe conduct _ moves, ?joiner, ?shape, ?dropped, ?finished⟩
  case joiner =>
    intro index number hjoiner
    refine haccounted.kept.silent fun number' hbegins => ?_
    cases hjoiner.symm.trans hbegins
  case shape => exact haccounted.deeds_eq
  case dropped =>
    intro index number hcaller hunfinished later left
    have hdropped : (session.drop conduct.accounting index).Accounted :=
      haccounted.make (.drop index)
    have hleft : left.Accounted := hdropped.observe later
    have hlost : left.HasLost index number (session.deeds index) :=
      (haccounted.drop_starter hcaller hunfinished).observe hdropped later
    refine ⟨hlost.deeds_cases, fun hnobody => ?_, fun other role => hlost.turn hleft.kept⟩
    exact hlost.deeds_of_settled fun hview =>
      exists_settled hleft.attended hleft.sound hview (hnobody _ _)
  case finished =>
    intro hfinished index hbegun
    obtain ⟨number, hbegins⟩ := haccounted.exists_begins hbegun
    exact haccounted.ended hbegins fun hholding => hfinished _ (List.mem_of_getElem? hholding)

/-- The joiner gives up the work of a starter that was taken away. -/
example : (observe Scenario.GatedWork.conduct { surroundings := { surroundings := {} } }
    [.start "dir" ⟨"first", "a", false⟩, .start "dir" ⟨"second", "b", false⟩, .turn 0, .turn 1,
      .drop 0, .turn 1]).deeds 0 = [.polled 0, .polled 1, .discarded] := rfl

end Session

end VirtualFs
