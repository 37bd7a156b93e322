import Mathlib.Logic.Relation
import VirtualFs.Proofs.History
import VirtualFs.Proofs.SharedCalls.Outlook
import VirtualFs.Scenario.Sharing

namespace VirtualFs

open SharedCalls

variable {σ τ κ ω ν : Type}

/-- What may be left of some work after it was carried forward for a while. -/
def Conduct.Remains (conduct : Conduct σ κ ω ν) : ω → ω → Prop :=
  Relation.ReflTransGen (fun work rest => ∃ s, (conduct.resume work s).1 = .waiting rest)

namespace Session

section History

variable [BEq κ] (conduct : Conduct σ κ ω ν) (surroundings : σ) (moves : List (Move σ κ ω))

/-- With its first turn a caller was given a ticket. -/
def Attached (index : Nat) (ticket : Ticket) : Prop :=
  Made (run conduct { surroundings }) moves (.turn index) (fun session =>
    session.Attaches index ticket)

/-- A caller began a call with work of its own. -/
def Began (number : Nat) (own : ω) : Prop :=
  ∃ index key, Made (run conduct { surroundings }) moves (.turn index) (fun session =>
    session.callers[index]? = some (.fresh key own) ∧
      session.shared.joinable? key = none ∧ session.shared.calls.length = number)

/-- The work with which a call was begun was carried to its end and yielded a value. -/
def Yielded (number : Nat) (value : ν) : Prop :=
  ∃ own work s index, Began conduct surroundings moves number own ∧ conduct.Remains own work ∧
    Made (run conduct { surroundings }) moves (.turn index)
      (fun session => session.Drives conduct index number work s) ∧
    (conduct.resume work s).1 = .ready value

/-- The starter of a call was taken away before the work came to its end. -/
def Forsaken (number : Nat) : Prop :=
  ∃ index, Made (run conduct { surroundings }) moves (.drop index) (fun session =>
    session.callers[index]? = some (.holding ⟨number, .starter⟩) ∧
      ∃ key work, session.shared.view number = some (key, .running work))

end History

variable [BEq κ] {conduct : Conduct σ κ ω ν} {surroundings : σ} {moves moves' : List (Move σ κ ω)}

theorem Began.mono {number : Nat} {own : ω} (hbegan : Began conduct surroundings moves number own)
    (hmoves : moves <+: moves') : Began conduct surroundings moves' number own := by
  obtain ⟨index, key, hmade⟩ := hbegan
  exact ⟨index, key, hmade.mono hmoves⟩

theorem Forsaken.mono {number : Nat} (hforsaken : Forsaken conduct surroundings moves number)
    (hmoves : moves <+: moves') : Forsaken conduct surroundings moves' number := by
  obtain ⟨index, hmade⟩ := hforsaken
  exact ⟨index, hmade.mono hmoves⟩

/-- What must have happened for a call to stand where it stands. -/
def Accounts (conduct : Conduct σ κ ω ν) (surroundings : σ) (moves : List (Move σ κ ω))
    (number : Nat) : SharedCalls.Stage ω ν → Prop
  | .running work => ∃ own, Began conduct surroundings moves number own ∧ conduct.Remains own work
  | .cancelled _ => Forsaken conduct surroundings moves number
  | .settled (.value value) => Yielded conduct surroundings moves number value
  | .settled .aborted => Forsaken conduct surroundings moves number

theorem Accounts.mono {number : Nat} {stage : SharedCalls.Stage ω ν}
    (haccounts : Accounts conduct surroundings moves number stage) (hmoves : moves <+: moves') :
    Accounts conduct surroundings moves' number stage := by
  cases stage with
  | running work =>
    obtain ⟨own, hbegan, hremains⟩ := haccounts
    exact ⟨own, hbegan.mono hmoves, hremains⟩
  | cancelled work => exact Forsaken.mono haccounts hmoves
  | settled outcome =>
    cases outcome with
    | aborted => exact Forsaken.mono haccounts hmoves
    | value value =>
      obtain ⟨own, work, s, index, hbegan, hremains, hmade, hready⟩ := haccounts
      exact ⟨own, work, s, index, hbegan.mono hmoves, hremains, hmade.mono hmoves, hready⟩

theorem accounts_of_isAborted {number : Nat} {stage : SharedCalls.Stage ω ν}
    (haborted : stage.IsAborted) (hforsaken : Forsaken conduct surroundings moves number) :
    Accounts conduct surroundings moves number stage := by
  cases stage with
  | running work => exact haborted.elim
  | cancelled work => exact hforsaken
  | settled outcome =>
    obtain rfl := Stage.isAborted_settled outcome |>.1 haborted
    exact hforsaken

variable [LawfulBEq κ]

/-- Every call has come to where it stands in the way that its stage tells. -/
theorem every_accounts (conduct : Conduct σ κ ω ν) (surroundings : σ)
    (moves : List (Move σ κ ω)) :
    (run conduct { surroundings } moves).shared.Every
      (fun number _ stage => Accounts conduct surroundings moves number stage) := by
  induction moves using List.reverseRecOn with
  | nil => exact every_empty _
  | append_singleton moves move ih =>
    have hbefore : moves <+: moves ++ [move] := List.prefix_append _ _
    rw [run_append_singleton]
    refine every_make (sound_run conduct surroundings moves)
      (fun number key stage hview => (ih hview).mono hbefore) ?begin ?waiting ?ready ?givenUp ?cancel
    case begin =>
      rintro index key own rfl hcaller hjoinable
      exact ⟨own, ⟨index, key, made_last ⟨hcaller, hjoinable, rfl⟩⟩, .refl⟩
    case waiting =>
      rintro index number key work s rest rfl - hresume ⟨own, hbegan, hremains⟩
      exact ⟨own, hbegan, hremains.tail ⟨s, hresume⟩⟩
    case ready =>
      rintro index number key work s value rfl hdrives hresume ⟨own, hbegan, hremains⟩
      exact ⟨own, work, s, index, hbegan, hremains, made_last hdrives, hresume⟩
    case givenUp => exact fun hforsaken => hforsaken
    case cancel =>
      rintro index number key work stage rfl hcaller hview haborted
      exact accounts_of_isAborted haborted ⟨index, made_last ⟨hcaller, key, work, hview⟩⟩

theorem Forsaken.isAborted {number : Nat} (hforsaken : Forsaken conduct surroundings moves number) :
    ∃ key stage, (run conduct { surroundings } moves).shared.view number = some (key, stage) ∧
      stage.IsAborted := by
  induction moves using List.reverseRecOn with
  | nil =>
    obtain ⟨index, hmade⟩ := hforsaken
    exact (not_made_nil hmade).elim
  | append_singleton moves move ih =>
    have hsound := sound_run conduct surroundings moves
    rw [run_append_singleton]
    obtain ⟨index, hmade⟩ := hforsaken
    rcases made_append_singleton_iff.1 hmade with hearlier | ⟨rfl, hcaller, key, work, hview⟩
    · obtain ⟨key, stage, hview, haborted⟩ := ih ⟨index, hearlier⟩
      obtain ⟨stage', hview', hlater⟩ := later_make _ hsound move hview
      exact ⟨key, stage', hview', hlater.isAborted haborted⟩
    · exact ⟨key, isAborted_drop_starter hsound hcaller hview⟩

/-- A caller holds the ticket that its first turn gave it, up to its end and beyond. -/
theorem attached_of_ticket? {index : Nat} {caller : Caller κ ω ν} {ticket : Ticket}
    (hcaller : (run conduct { surroundings } moves).callers[index]? = some caller)
    (hticket : caller.ticket? = some ticket) :
    Attached conduct surroundings moves index ticket := by
  induction moves using List.reverseRecOn generalizing caller with
  | nil => simp [run] at hcaller
  | append_singleton moves move ih =>
    have hbefore : moves <+: moves ++ [move] := List.prefix_append _ _
    rw [run_append_singleton] at hcaller
    rcases callers_make (sound_run conduct surroundings moves) hcaller with
      hsame | ⟨key, work, -, rfl⟩ | ⟨rfl, ticket', hattached, hend⟩ |
      ⟨-, ⟨-, rfl⟩ | ⟨ticket', hheld, rfl⟩⟩
    · exact (ih hsame hticket).mono hbefore
    · cases hticket
    · obtain rfl : ticket' = ticket := by
        rcases hend with rfl | ⟨outcome, key, rfl, -⟩ <;> exact Option.some.inj hticket
      rcases hattached with hheld | hattaches
      · exact (ih hheld rfl).mono hbefore
      · exact made_last hattaches
    · cases hticket
    · obtain rfl : ticket' = ticket := Option.some.inj hticket
      exact (ih hheld rfl).mono hbefore

/-- Whoever returned did so with the outcome of its call, and a starter with a value. -/
theorem view_of_returned {index : Nat} {ticket : Ticket} {outcome : Outcome ν}
    (hcaller : (run conduct { surroundings } moves).callers[index]? =
      some (.returned ticket outcome)) :
    (∃ key, (run conduct { surroundings } moves).shared.view ticket.call =
      some (key, .settled outcome)) ∧ (ticket.role = .starter → outcome ≠ .aborted) := by
  induction moves using List.reverseRecOn with
  | nil => simp [run] at hcaller
  | append_singleton moves move ih =>
    have hsound := sound_run conduct surroundings moves
    rw [run_append_singleton] at hcaller ⊢
    rcases callers_make hsound hcaller with
      hsame | ⟨key, work, -, hcaller⟩ | ⟨rfl, ticket', -, hend⟩ |
      ⟨-, ⟨-, hcaller⟩ | ⟨ticket', -, hcaller⟩⟩
    · obtain ⟨⟨key, hview⟩, hstarter⟩ := ih hsame
      obtain ⟨stage, hview', hlater⟩ := later_make _ hsound move hview
      rw [hlater.eq_of_settled] at hview'
      exact ⟨⟨key, hview'⟩, hstarter⟩
    · cases hcaller
    · rcases hend with hcaller | ⟨outcome', key, hcaller, hview, hstarter⟩
      · cases hcaller
      · cases hcaller
        exact ⟨⟨key, hview⟩, hstarter⟩
    · cases hcaller
    · cases hcaller

end Session

namespace Session

variable [DecidableEq κ]

/-- What callers receive, in every session. Whoever returned took part in one call from its first
    turn on, when the call was running or its own, and got what the work of that call yielded or word
    that it was aborted. A starter gets a value, a joiner gets one unless the starter was taken away
    before the end, and all callers of one call get the same. Others do not notice when a joiner is
    taken away: neither what they have nor what they are to expect changes, and if the surroundings
    do not either, as far as work can see, then nothing that happens to them later. -/
theorem outcomes_run (conduct : Conduct σ κ ω ν) (surroundings : σ) (moves : List (Move σ κ ω)) :
    let session := run conduct { surroundings } moves
    (∀ {index ticket outcome}, session.callers[index]? = some (.returned ticket outcome) →
      Attached conduct surroundings moves index ticket ∧
      (∀ {value}, outcome = .value value →
        Yielded conduct surroundings moves ticket.call value) ∧
      (ticket.role = .starter → outcome ≠ .aborted) ∧
      (ticket.role = .joiner →
        (outcome = .aborted ↔ Forsaken conduct surroundings moves ticket.call))) ∧
    (∀ {index index' : Nat} {ticket ticket' : Ticket} {outcome outcome' : Outcome ν},
      session.callers[index]? = some (.returned ticket outcome) →
      session.callers[index']? = some (.returned ticket' outcome') →
      ticket'.call = ticket.call → outcome' = outcome) ∧
    ∀ {index number}, session.callers[index]? = some (.holding ⟨number, .joiner⟩) →
      (session.drop conduct index).callers =
        session.callers.set index (.dropped (some ⟨number, .joiner⟩)) ∧
      (session.drop conduct index).shared.outlook = session.shared.outlook ∧
      ∀ {τ : Type} {essence : σ → τ} {later : List (Move σ κ ω)}, conduct.Sees essence →
        .turn index ∉ later ∧ .drop index ∉ later →
        (∀ {change}, .change change ∈ later →
          ∀ {s s'}, essence s = essence s' → essence (change s) = essence (change s')) →
        ((session.drop conduct index).run conduct later).callers =
          (session.run conduct later).callers.set index (.dropped (some ⟨number, .joiner⟩)) := by
  intro session
  have hsound : session.shared.Sound session.tickets := sound_run conduct surroundings moves
  refine ⟨?returned, ?same, ?dropped⟩
  case returned =>
    intro index ticket outcome hcaller
    obtain ⟨⟨key, hview⟩, hstarter⟩ := view_of_returned hcaller
    have haccounts := every_accounts conduct surroundings moves hview
    refine ⟨attached_of_ticket? hcaller rfl, ?_, hstarter, fun _ => ⟨?_, fun hforsaken => ?_⟩⟩
    · rintro value rfl
      exact haccounts
    · rintro rfl
      exact haccounts
    · obtain ⟨key', stage, hview', haborted⟩ := hforsaken.isAborted
      rw [hview] at hview'
      cases hview'
      simpa using haborted
  case same =>
    intro index index' ticket ticket' outcome outcome' hcaller hcaller' hcall
    obtain ⟨⟨key, hview⟩, -⟩ := view_of_returned hcaller
    obtain ⟨⟨key', hview'⟩, -⟩ := view_of_returned hcaller'
    rw [hcall, hview] at hview'
    cases hview'
    rfl
  case dropped =>
    intro index number hcaller
    refine ⟨by rw [drop_of_holding hcaller], ?_,
      fun hsees hlater hchanges => callers_run_drop_joiner hsound hcaller hsees hlater hchanges⟩
    obtain ⟨others, htickets⟩ := exists_tickets_eq_cons hcaller
    rw [htickets] at hsound
    rw [drop_of_holding hcaller]
    exact hsound.outlook_leave_joiner conduct session.surroundings

/-- A joiner whose starter is taken away while their work waits for its release. -/
example : (run Scenario.GatedWork.conduct { surroundings := {} }
    [.start "dir" ⟨"first", "a", false⟩, .start "dir" ⟨"second", "b", false⟩, .turn 0, .turn 1,
      .drop 0, .turn 1]).callers[1]? = some (.returned ⟨0, .joiner⟩ .aborted) := rfl

end Session

end VirtualFs
