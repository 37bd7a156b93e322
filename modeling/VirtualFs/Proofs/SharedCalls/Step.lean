import VirtualFs.Proofs.SharedCalls.Run

namespace VirtualFs.Session

open SharedCalls

variable {σ κ ω ν : Type}

/-- The call whose work a caller carries forward with its next turn, the work, and the surroundings
    that it finds: the call that the caller waits for, the one that it joins, or one that it
    begins. -/
inductive Drives [BEq κ] (conduct : Conduct σ κ ω ν) (session : Session σ κ ω ν) (index : Nat) :
    Nat → ω → σ → Prop
  | waiting {ticket key work}
      (caller : session.callers[index]? = some (.holding ticket))
      (view : session.shared.view ticket.call = some (key, .running work)) :
      Drives conduct session index ticket.call work session.surroundings
  | joining {key own number work}
      (caller : session.callers[index]? = some (.fresh key own))
      (joinable : session.shared.joinable? key = some number)
      (view : session.shared.view number = some (key, .running work)) :
      Drives conduct session index number work (conduct.joined key session.surroundings)
  | beginning {key own}
      (caller : session.callers[index]? = some (.fresh key own))
      (joinable : session.shared.joinable? key = none) :
      Drives conduct session index session.shared.calls.length own session.surroundings

/-- What a caller is given with its first turn: a part in a call that is running under its key, or a
    call of its own under the next number. -/
inductive Attaches [BEq κ] (session : Session σ κ ω ν) (index : Nat) : Ticket → Prop
  | joining {key own number work}
      (caller : session.callers[index]? = some (.fresh key own))
      (view : session.shared.view number = some (key, .running work)) :
      Attaches session index ⟨number, .joiner⟩
  | beginning {key own}
      (caller : session.callers[index]? = some (.fresh key own))
      (joinable : session.shared.joinable? key = none) :
      Attaches session index ⟨session.shared.calls.length, .starter⟩

variable {conduct : Conduct σ κ ω ν} {session : Session σ κ ω ν} {index : Nat}

section Consult

variable {ticket : Ticket}

/-- Once an answer is there, its caller goes without being noticed. -/
theorem view_consult :
    (session.consult conduct index ticket).shared.view =
      (session.shared.poll conduct ticket.call session.surroundings).2.1.view := by
  rw [consult]
  split
  case h_1 hpoll => rw [hpoll]
  case h_2 hpoll =>
    obtain ⟨key, hview⟩ := view_of_poll hpoll
    rw [hpoll]
    exact (leave_of_settled _ _ _ hview).1

theorem callers_consult :
    (session.consult conduct index ticket).callers =
      session.callers.set index
        (match (session.shared.poll conduct ticket.call session.surroundings).1 with
        | none => .holding ticket
        | some outcome => .returned ticket outcome) := by
  rw [consult]
  split
  case h_1 hpoll => rw [hpoll]
  case h_2 hpoll => rw [hpoll]

end Consult

/-- A caller that gets its answer gets the outcome at which its call stands. A starter's call is not
    aborted as long as the starter waits. -/
private theorem consult_answer {ticket : Ticket}
    (hsound : session.shared.Sound session.tickets)
    (hcaller : session.callers[index]? = some (.holding ticket)) {caller : Caller κ ω ν}
    (hafter : (session.consult conduct index ticket).callers[index]? = some caller) :
    caller = .holding ticket ∨ ∃ outcome key, caller = .returned ticket outcome ∧
      (session.consult conduct index ticket).shared.view ticket.call =
        some (key, .settled outcome) ∧
      (ticket.role = .starter → outcome ≠ .aborted) := by
  have hindex := (List.getElem?_eq_some_iff.1 hcaller).1
  have hpolled := hsound.poll conduct session.surroundings ticket.call
  rw [callers_consult, List.getElem?_set_self hindex] at hafter
  rw [view_consult]
  cases hpoll : session.shared.poll conduct ticket.call session.surroundings with
  | mk answer rest =>
    rw [hpoll] at hafter hpolled
    cases answer with
    | none => exact .inl (Option.some.inj hafter).symm
    | some outcome =>
      obtain ⟨key, hview⟩ := view_of_poll hpoll
      refine .inr ⟨outcome, key, (Option.some.inj hafter).symm, hview, ?_⟩
      rintro hstarter rfl
      obtain ⟨call, hcall, -, hstage⟩ := view_eq_some_iff.1 hview
      have hlost := (hpolled.call hcall).aborted (by simp [hstage])
      obtain ⟨others, htickets⟩ := exists_tickets_eq_cons hcaller
      rw [htickets, ← hstarter] at hlost
      simp at hlost

/-- A starter that goes before the end takes the prospect of a value with it. -/
theorem isAborted_drop_starter {session : Session σ κ ω ν} {index number : Nat} {key : κ} {work : ω}
    (hsound : session.shared.Sound session.tickets)
    (hcaller : session.callers[index]? = some (.holding ⟨number, .starter⟩))
    (hview : session.shared.view number = some (key, .running work)) :
    ∃ stage, (session.drop conduct index).shared.view number = some (key, stage) ∧
      stage.IsAborted := by
  obtain ⟨others, htickets⟩ := exists_tickets_eq_cons hcaller
  rw [htickets] at hsound
  rw [drop_of_holding hcaller]
  rcases hsound.leave_cases conduct session.surroundings with
    ⟨-, -, hrunning⟩ | ⟨key', work', stage, hbefore, hafter, hstage⟩
  · cases hrunning hview
  · have hkey : key' = key := by
      rw [hview] at hbefore
      rcases hbefore with ⟨-, hbefore⟩ | hbefore
      · cases hbefore
        rfl
      · cases hbefore
    subst key'
    refine ⟨stage, by simpa using hafter number, ?_⟩
    rcases hstage with ⟨rfl, -⟩ | ⟨rfl, -⟩ <;> trivial

variable [BEq κ]

variable (conduct) in
/-- No move forgets a call. -/
theorem later_make (hsound : session.shared.Sound session.tickets) (move : Move σ κ ω) :
    session.shared.Later (session.make conduct move).shared := by
  cases move with
  | start key work => exact .refl _
  | change change => exact .refl _
  | turn index =>
    rw [make]
    cases hcaller : session.callers[index]? with
    | none => simpa [turn, hcaller] using Later.refl session.shared
    | some caller =>
      cases caller with
      | returned ticket outcome => simpa [turn, hcaller] using Later.refl session.shared
      | dropped ticket => simpa [turn, hcaller] using Later.refl session.shared
      | holding ticket =>
        rw [turn_of_holding hcaller]
        exact (later_poll _ _ _ _).trans (later_of_view_eq view_consult)
      | fresh key own =>
        rw [turn_of_fresh hcaller]
        have hattach := later_attach conduct session.surroundings session.shared key own
        exact hattach.trans ((later_poll _ _ _ _).trans (later_of_view_eq view_consult))
  | drop index =>
    rw [make]
    cases hcaller : session.callers[index]? with
    | none => simpa [drop, hcaller] using Later.refl session.shared
    | some caller =>
      cases caller with
      | fresh key own => simpa [drop, hcaller] using Later.refl session.shared
      | returned ticket outcome => simpa [drop, hcaller] using Later.refl session.shared
      | dropped ticket => simpa [drop, hcaller] using Later.refl session.shared
      | holding ticket =>
        obtain ⟨others, htickets⟩ := exists_tickets_eq_cons hcaller
        rw [htickets] at hsound
        rw [drop_of_holding hcaller]
        exact hsound.later_leave conduct session.surroundings

variable [LawfulBEq κ]

private theorem attaches_of_fresh (hsound : session.shared.Sound session.tickets) {key : κ}
    {own : ω} (hcaller : session.callers[index]? = some (.fresh key own)) :
    session.Attaches index (session.shared.attach conduct key own session.surroundings).1 := by
  rcases hsound.attach_cases conduct session.surroundings key own with
    ⟨number, other, hother, hattach⟩ | ⟨hjoinable, hattach⟩
  · rw [hattach]
    exact .joining hcaller hother
  · rw [hattach]
    exact .beginning hcaller hjoinable

private theorem drives_of_entered (hsound : session.shared.Sound session.tickets) {key : κ}
    {own : ω} (hcaller : session.callers[index]? = some (.fresh key own)) {key' : κ} {work : ω}
    (hview : (session.shared.attach conduct key own session.surroundings).2.1.view
        (session.shared.attach conduct key own session.surroundings).1.call =
      some (key', .running work)) :
    session.Drives conduct index
      (session.shared.attach conduct key own session.surroundings).1.call work
      (session.shared.attach conduct key own session.surroundings).2.2 := by
  rcases hsound.attach_cases conduct session.surroundings key own with
    ⟨number, other, hother, hattach⟩ | ⟨hjoinable, hattach⟩
  · rw [hattach] at hview ⊢
    have hjoinable : session.shared.joinable? key = some number :=
      hsound.joinable?_eq_some_iff.2 (hsound.mem_entries_iff.2 ⟨other, hother⟩)
    obtain rfl : other = work := by
      rw [view_hold, hother] at hview
      cases hview
      rfl
    exact .joining hcaller hjoinable hother
  · rw [hattach] at hview ⊢
    obtain rfl : own = work := by
      rw [view_begin, if_pos rfl] at hview
      cases hview
      rfl
    exact .beginning hcaller hjoinable

/-- What a move makes of the calls. A turn begins a call or carries one forward, a call that was
    cancelled is given up at some time, and none is cancelled but by taking its starter away. -/
theorem every_make {P : Nat → κ → Stage ω ν → Prop} {move : Move σ κ ω}
    (hsound : session.shared.Sound session.tickets)
    (hbefore : session.shared.Every P)
    (hbegin : ∀ {index key own}, move = .turn index →
      session.callers[index]? = some (.fresh key own) →
      session.shared.joinable? key = none →
      P session.shared.calls.length key (.running own))
    (hwaiting : ∀ {index number key work s rest}, move = .turn index →
      session.Drives conduct index number work s →
      (conduct.resume work s).1 = .waiting rest →
      P number key (.running work) → P number key (.running rest))
    (hready : ∀ {index number key work s value}, move = .turn index →
      session.Drives conduct index number work s →
      (conduct.resume work s).1 = .ready value →
      P number key (.running work) → P number key (.settled (.value value)))
    (hgivenUp : ∀ {number key work},
      P number key (.cancelled work) → P number key (.settled .aborted))
    (hcancel : ∀ {index number key work stage}, move = .drop index →
      session.callers[index]? = some (.holding ⟨number, .starter⟩) →
      session.shared.view number = some (key, .running work) →
      stage.IsAborted → P number key stage) :
    (session.make conduct move).shared.Every P := by
  cases move with
  | start key work => exact hbefore
  | change change => exact hbefore
  | turn index =>
    rw [make]
    cases hcaller : session.callers[index]? with
    | none => simpa [turn, hcaller] using hbefore
    | some caller =>
      cases caller with
      | returned ticket outcome => simpa [turn, hcaller] using hbefore
      | dropped ticket => simpa [turn, hcaller] using hbefore
      | holding ticket =>
        rw [turn_of_holding hcaller]
        refine every_of_view_eq (Every.poll hbefore ?_ ?_ ?_) view_consult
        · exact fun hview hresume => hwaiting rfl (.waiting hcaller hview) hresume (hbefore hview)
        · exact fun hview hresume => hready rfl (.waiting hcaller hview) hresume (hbefore hview)
        · exact fun hview => hgivenUp (hbefore hview)
      | fresh key own =>
        have hentered := Every.attach conduct session.surroundings hbefore
          (hbegin rfl hcaller)
        rw [turn_of_fresh hcaller]
        refine every_of_view_eq (Every.poll hentered ?_ ?_ ?_) view_consult
        · exact fun hview hresume =>
            hwaiting rfl (drives_of_entered hsound hcaller hview) hresume (hentered hview)
        · exact fun hview hresume =>
            hready rfl (drives_of_entered hsound hcaller hview) hresume (hentered hview)
        · exact fun hview => hgivenUp (hentered hview)
  | drop index =>
    rw [make]
    cases hcaller : session.callers[index]? with
    | none => simpa [drop, hcaller] using hbefore
    | some caller =>
      cases caller with
      | fresh key own => simpa [drop, hcaller] using hbefore
      | returned ticket outcome => simpa [drop, hcaller] using hbefore
      | dropped ticket => simpa [drop, hcaller] using hbefore
      | holding ticket =>
        obtain ⟨others, htickets⟩ := exists_tickets_eq_cons hcaller
        rw [htickets] at hsound
        rw [drop_of_holding hcaller]
        refine hsound.every_leave conduct session.surroundings hbefore ?_ ?_
        · exact fun hrole hview => hcancel rfl (by rw [hcaller, ← hrole]) hview
        · exact fun hview => hgivenUp (hbefore hview)

/-- What a move makes of a caller. Only its own turn gives it a ticket or an answer, and only taking
    it away ends its part without one. -/
theorem callers_make {move : Move σ κ ω} {caller : Caller κ ω ν}
    (hsound : session.shared.Sound session.tickets)
    (hafter : (session.make conduct move).callers[index]? = some caller) :
    session.callers[index]? = some caller ∨
    (∃ key work, move = .start key work ∧ caller = .fresh key work) ∨
    (move = .turn index ∧ ∃ ticket,
      (session.callers[index]? = some (.holding ticket) ∨ session.Attaches index ticket) ∧
      (caller = .holding ticket ∨ ∃ outcome key, caller = .returned ticket outcome ∧
        (session.make conduct move).shared.view ticket.call = some (key, .settled outcome) ∧
        (ticket.role = .starter → outcome ≠ .aborted))) ∨
    (move = .drop index ∧
      ((∃ key work, session.callers[index]? = some (.fresh key work)) ∧ caller = .dropped none ∨
        ∃ ticket, session.callers[index]? = some (.holding ticket) ∧
          caller = .dropped (some ticket))) := by
  cases move with
  | change change => exact .inl hafter
  | start key work =>
    rw [make, start] at hafter
    by_cases hindex : index < session.callers.length
    · rw [List.getElem?_append_left hindex] at hafter
      exact .inl hafter
    · rw [List.getElem?_append_right (by omega), List.getElem?_singleton] at hafter
      split at hafter
      · exact .inr (.inl ⟨key, work, rfl, (Option.some.inj hafter).symm⟩)
      · cases hafter
  | turn other =>
    rw [make] at hafter ⊢
    cases hother : session.callers[other]? with
    | none => exact .inl (by simpa [turn, hother] using hafter)
    | some old =>
      cases old with
      | returned ticket outcome => exact .inl (by simpa [turn, hother] using hafter)
      | dropped ticket => exact .inl (by simpa [turn, hother] using hafter)
      | holding ticket =>
        rw [turn_of_holding hother] at hafter ⊢
        by_cases hindex : other = index
        · subst other
          exact .inr (.inr (.inl ⟨rfl, ticket, .inl hother, consult_answer hsound hother hafter⟩))
        · rw [callers_consult, List.getElem?_set_ne hindex] at hafter
          exact .inl hafter
      | fresh key own =>
        rw [turn_of_fresh hother] at hafter ⊢
        by_cases hindex : other = index
        · subst other
          refine .inr (.inr (.inl ⟨rfl, _, .inr (attaches_of_fresh hsound hother),
            consult_answer ?_ ?_ hafter⟩))
          · exact sound_entered conduct hsound hother
          · simp [(List.getElem?_eq_some_iff.1 hother).1]
        · simp only [callers_consult, List.getElem?_set_ne hindex] at hafter
          exact .inl hafter
  | drop other =>
    rw [make] at hafter
    by_cases hindex : other = index
    · subst other
      cases hcaller : session.callers[index]? with
      | none => simp [drop, hcaller] at hafter
      | some old =>
        have hlt := (List.getElem?_eq_some_iff.1 hcaller).1
        cases old with
        | returned ticket outcome => exact .inl (by simpa [drop, hcaller] using hafter)
        | dropped ticket => exact .inl (by simpa [drop, hcaller] using hafter)
        | fresh key own =>
          simp only [drop, hcaller, List.getElem?_set_self hlt, Option.some.injEq] at hafter
          exact .inr (.inr (.inr ⟨rfl, .inl ⟨⟨key, own, rfl⟩, hafter.symm⟩⟩))
        | holding ticket =>
          simp only [drop_of_holding hcaller, List.getElem?_set_self hlt,
            Option.some.injEq] at hafter
          exact .inr (.inr (.inr ⟨rfl, .inr ⟨ticket, rfl, hafter.symm⟩⟩))
    · refine .inl ?_
      rw [drop] at hafter
      split at hafter
      · simpa [List.getElem?_set_ne hindex] using hafter
      · simpa [List.getElem?_set_ne hindex] using hafter
      · exact hafter

end VirtualFs.Session
