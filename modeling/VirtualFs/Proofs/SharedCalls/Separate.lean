import VirtualFs.Proofs.SharedCalls.Part

namespace VirtualFs

open SharedCalls

variable {σ τ κ ω ν : Type}

/-- What can happen next where each caller belongs to a key, and so does everything that happens
    outside the callers. -/
inductive KeyMove (τ κ ω : Type) where
  | start (key : κ) (work : ω)
  | turn (index : Nat)
  | drop (index : Nat)
  | change (key : κ) (change : τ → τ)

namespace KeyMove

/-- The keys of the callers that some moves start. -/
def started : List (KeyMove τ κ ω) → List κ
  | [] => []
  | start key _ :: moves => key :: started moves
  | _ :: moves => started moves

theorem started_append (moves more : List (KeyMove τ κ ω)) :
    started (moves ++ more) = started moves ++ started more := by
  induction moves with
  | nil => rfl
  | cons move moves ih => cases move <;> simp [started, ih]

variable [DecidableEq κ]

def move : KeyMove τ κ ω → Session.Move (κ → τ) κ (κ × ω)
  | start key work => .start key (key, work)
  | turn index => .turn index
  | drop index => .drop index
  | change key act => .change (fun s => Function.update s key (act (s key)))

/-- A move where nobody but the callers of one key is there, if it is a move of that key. -/
def within (key : κ) (keys : List κ) : KeyMove τ κ ω → List (KeyMove τ κ ω)
  | start own work => if own = key then [start own work] else []
  | turn index => if keys[index]? = some key then [turn (rank key keys index)] else []
  | drop index => if keys[index]? = some key then [drop (rank key keys index)] else []
  | change own act => if own = key then [change own act] else []

/-- What stays of some moves when all but those of one key are taken out. The callers of the keys
    were there before. -/
def only (key : κ) : List κ → List (KeyMove τ κ ω) → List (KeyMove τ κ ω)
  | _, [] => []
  | keys, move :: moves => move.within key keys ++ only key (keys ++ started [move]) moves

theorem only_append (key : κ) (keys : List κ) (moves more : List (KeyMove τ κ ω)) :
    only key keys (moves ++ more) =
      only key keys moves ++ only key (keys ++ started moves) more := by
  induction moves generalizing keys with
  | nil => simp [only, started]
  | cons move moves ih =>
    have hstarted : started (move :: moves) = started [move] ++ started moves :=
      started_append [move] moves
    rw [List.cons_append, only, only, ih, List.append_assoc, List.append_assoc, hstarted]

end KeyMove

namespace Session

/-- A caller takes part in a call. -/
def enter [BEq κ] (conduct : Conduct σ κ ω ν) (index : Nat) (key : κ) (work : ω)
    (session : Session σ κ ω ν) : Session σ κ ω ν :=
  let entered := session.shared.attach conduct key work session.surroundings
  ⟨entered.2.1, entered.2.2, session.callers.set index (.holding entered.1)⟩

section Turns

variable [DecidableEq κ] {key : κ} {keys : List κ} {whole part : Session (κ → τ) κ (κ × ω) ν}
  {index number : Nat}

variable (conduct : Conduct τ κ ω ν) {ticket ticket' : Ticket}

theorem Part.consult (hpart : Part key keys whole part)
    (hcaller : whole.callers[index]? = some (.holding ticket))
    (hcaller' : part.callers[rank key keys index]? = some (.holding ticket'))
    (hindex : keys[index]? = some key) :
    Part key keys (whole.consult conduct.apart index ticket)
      (part.consult conduct.apart (rank key keys index) ticket') := by
  rw [hpart.getElem?_callers hcaller hindex] at hcaller'
  cases hcaller'
  obtain ⟨call, hcall, hkey⟩ := hpart.keyed.exists_call hcaller rfl
  obtain rfl : key = call.key := Option.some.inj (hindex.symm.trans hkey)
  have hown := hpart.keyed.own (List.mem_of_getElem? hcall)
  have hconfined := confined_consulted conduct hown ticket.role
  obtain ⟨shared, hwhole, hcalls⟩ := consult_of_call conduct.apart index ticket hcall
  obtain ⟨shared', hconsult, hcalls'⟩ := consult_of_call conduct.apart (rank call.key keys index)
    { ticket with call := rank call.key whole.shared.callKeys ticket.call }
    (hpart.getElem?_calls hcall rfl)
  have hresult := hconfined.isLocal.result hpart.surroundings
  rw [hwhole, hconsult]
  dsimp only at hcalls' ⊢
  rw [hresult] at hcalls' ⊢
  rw [← Caller.renumber_answered]
  refine hpart.act hcaller hindex hcall rfl (hconfined.key _) (hconfined.own _)
    (Caller.answered_ne_fresh _ _) ?_ hcalls hcalls' (hconfined.isLocal.own hpart.surroundings)
  intro other hother
  rw [Caller.ticket?_answered] at hother
  cases hother
  rfl

theorem Part.consult_other (hpart : Part key keys whole part)
    (hcaller : whole.callers[index]? = some (.holding ticket)) (hindex : keys[index]? ≠ some key) :
    Part key keys (whole.consult conduct.apart index ticket) part := by
  obtain ⟨call, hcall, hkey⟩ := hpart.keyed.exists_call hcaller rfl
  have hother : call.key ≠ key := fun h => hindex (h ▸ hkey)
  have hconfined := confined_consulted conduct (hpart.keyed.own (List.mem_of_getElem? hcall))
    ticket.role
  obtain ⟨shared, hwhole, hcalls⟩ := consult_of_call conduct.apart index ticket hcall
  rw [hwhole]
  refine hpart.act_other hcaller hkey hcall hother (hconfined.key _) (hconfined.own _)
    (Caller.answered_ne_fresh _ _) ?_ hcalls (hconfined.isLocal.others _ hother.symm)
  intro other hother
  rw [Caller.ticket?_answered] at hother
  cases hother
  rfl

/-- The number by which the map knows a call of the key, in the whole and in the part. -/
theorem Part.mem_entries (hpart : Part key keys whole part)
    (hsound : whole.shared.Sound whole.tickets) (hsound' : part.shared.Sound part.tickets) :
    (key, number) ∈ part.shared.entries ↔ ∃ number', (key, number') ∈ whole.shared.entries ∧
      rank key whole.shared.callKeys number' = number := by
  constructor
  · intro hentry
    obtain ⟨call, hplace, rfl, hrunning⟩ := hsound'.exists_call hentry
    rw [hpart.calls] at hplace
    obtain ⟨number', -, hcall, rfl⟩ := exists_of_getElem?_ofKey hplace
    exact ⟨number', ((hsound.call hcall).entry _).2 ⟨rfl, hrunning⟩, rfl⟩
  · rintro ⟨number', hentry, rfl⟩
    obtain ⟨call, hcall, rfl, hrunning⟩ := hsound.exists_call hentry
    exact ((hsound'.call (hpart.getElem?_calls hcall rfl)).entry _).2 ⟨rfl, hrunning⟩

theorem Part.lookup_entries (hpart : Part key keys whole part)
    (hsound : whole.shared.Sound whole.tickets) (hsound' : part.shared.Sound part.tickets) :
    part.shared.entries.lookup key =
      (whole.shared.entries.lookup key).map (rank key whole.shared.callKeys) := by
  refine Option.ext fun number => ?_
  simp only [Option.map_eq_some_iff, hsound.lookup_eq_some_iff, hsound'.lookup_eq_some_iff,
    hpart.mem_entries hsound hsound']

theorem Part.joinable? (hpart : Part key keys whole part)
    (hsound : whole.shared.Sound whole.tickets) (hsound' : part.shared.Sound part.tickets) :
    part.shared.joinable? key =
      (whole.shared.joinable? key).map (rank key whole.shared.callKeys) := by
  refine Option.ext fun number => ?_
  simp only [Option.map_eq_some_iff, hsound.joinable?_eq_some_iff, hsound'.joinable?_eq_some_iff,
    hpart.mem_entries hsound hsound']

theorem Part.enter (hpart : Part key keys whole part)
    (hsound : whole.shared.Sound whole.tickets) (hsound' : part.shared.Sound part.tickets)
    {work : κ × ω} (hcaller : whole.callers[index]? = some (.fresh key work)) :
    Part key keys (whole.enter conduct.apart index key work)
      (part.enter conduct.apart (rank key keys index) key work) := by
  have hjoinable := hpart.joinable? hsound hsound'
  simp only [Session.enter, attach, hjoinable]
  cases hfound : whole.shared.joinable? key with
  | none => exact hpart.begin hcaller hpart.surroundings
  | some number =>
    obtain ⟨call, hcall, hkey, -⟩ := hsound.exists_call (hsound.joinable?_eq_some_iff.1 hfound)
    have hown := (hpart.keyed.own (List.mem_of_getElem? hcall)).hold
    have hheld : call.hold.key = call.key := rfl
    refine hpart.act hcaller (hpart.keyed.fresh hcaller).1 hcall hkey hheld hown
      (fun _ _ h => by cases h) ?_ (modify_eq_set hcall Call.hold)
      (modify_eq_set (hpart.getElem?_calls hcall hkey) Call.hold)
      ((conduct.local_joined key).own hpart.surroundings)
    intro ticket hticket
    cases hticket
    rfl

theorem Part.enter_other (hpart : Part key keys whole part)
    (hsound : whole.shared.Sound whole.tickets) {own : κ} {work : κ × ω}
    (hcaller : whole.callers[index]? = some (.fresh own work)) (hother : own ≠ key) :
    Part key keys (whole.enter conduct.apart index own work) part := by
  simp only [Session.enter, attach]
  cases hfound : whole.shared.joinable? own with
  | none => exact hpart.begin_other hcaller hother rfl
  | some number =>
    obtain ⟨call, hcall, rfl, -⟩ := hsound.exists_call (hsound.joinable?_eq_some_iff.1 hfound)
    have hown := (hpart.keyed.own (List.mem_of_getElem? hcall)).hold
    have hheld : call.hold.key = call.key := rfl
    refine hpart.act_other hcaller (hpart.keyed.fresh hcaller).1 hcall hother hheld hown
      (fun _ _ h => by cases h) ?_ (modify_eq_set hcall Call.hold)
      ((conduct.local_joined _).others _ hother.symm)
    intro ticket hticket
    cases hticket
    rfl

theorem Part.turn (hpart : Part key keys whole part)
    (hsound : whole.shared.Sound whole.tickets) (hsound' : part.shared.Sound part.tickets)
    (hindex : keys[index]? = some key) :
    Part key keys (whole.turn conduct.apart index)
      (part.turn conduct.apart (rank key keys index)) := by
  obtain ⟨caller, hcaller, hcaller'⟩ := hpart.exists_caller hindex
  cases caller with
  | returned ticket outcome => simpa [Session.turn, hcaller, hcaller', Caller.renumber] using hpart
  | dropped ticket => simpa [Session.turn, hcaller, hcaller', Caller.renumber] using hpart
  | holding ticket =>
    rw [turn_of_holding hcaller, turn_of_holding hcaller']
    exact hpart.consult conduct hcaller hcaller' hindex
  | fresh own work =>
    obtain rfl : own = key := Option.some.inj ((hpart.keyed.fresh hcaller).1.symm.trans hindex)
    rw [turn_of_fresh hcaller, turn_of_fresh hcaller']
    refine (hpart.enter conduct hsound hsound' hcaller).consult conduct ?_ ?_ hindex
    · simp [Session.enter, (List.getElem?_eq_some_iff.1 hcaller).1]
    · simp [Session.enter, (List.getElem?_eq_some_iff.1 hcaller').1]

theorem Part.turn_other (hpart : Part key keys whole part)
    (hsound : whole.shared.Sound whole.tickets) (hindex : keys[index]? ≠ some key) :
    Part key keys (whole.turn conduct.apart index) part := by
  cases hcaller : whole.callers[index]? with
  | none => simpa [Session.turn, hcaller] using hpart
  | some caller =>
    cases caller with
    | returned ticket outcome => simpa [Session.turn, hcaller] using hpart
    | dropped ticket => simpa [Session.turn, hcaller] using hpart
    | holding ticket =>
      rw [turn_of_holding hcaller]
      exact hpart.consult_other conduct hcaller hindex
    | fresh own work =>
      have hother : own ≠ key := by
        rintro rfl
        exact hindex (hpart.keyed.fresh hcaller).1
      rw [turn_of_fresh hcaller]
      refine (hpart.enter_other conduct hsound hcaller hother).consult_other conduct ?_ hindex
      simp [Session.enter, (List.getElem?_eq_some_iff.1 hcaller).1]

theorem Part.drop (hpart : Part key keys whole part) (hindex : keys[index]? = some key) :
    Part key keys (whole.drop conduct.apart index)
      (part.drop conduct.apart (rank key keys index)) := by
  obtain ⟨caller, hcaller, hcaller'⟩ := hpart.exists_caller hindex
  cases caller with
  | returned ticket outcome => simpa [Session.drop, hcaller, hcaller', Caller.renumber] using hpart
  | dropped ticket => simpa [Session.drop, hcaller, hcaller', Caller.renumber] using hpart
  | fresh own work =>
    simpa [Session.drop, hcaller, hcaller', Caller.renumber] using hpart.withdraw hcaller hindex
  | holding ticket =>
    obtain ⟨call, hcall, hkey⟩ := hpart.keyed.exists_call hcaller rfl
    obtain rfl : key = call.key := Option.some.inj (hindex.symm.trans hkey)
    have hconfined := confined_left conduct (hpart.keyed.own (List.mem_of_getElem? hcall))
      ticket.role
    have hresult := hconfined.isLocal.result hpart.surroundings
    obtain ⟨hcalls, hs⟩ := leave_of_call conduct.apart ticket.role hcall
      whole.surroundings
    obtain ⟨hcalls', hs'⟩ := leave_of_call conduct.apart ticket.role
      (hpart.getElem?_calls hcall rfl) part.surroundings
    rw [hresult] at hcalls'
    rw [drop_of_holding hcaller, drop_of_holding hcaller']
    refine hpart.act hcaller hindex hcall rfl (hconfined.key _) (hconfined.own _)
      (fun _ _ h => by cases h) ?_ hcalls hcalls' ?_
    · intro other hother
      cases hother
      rfl
    · rw [hs, hs']
      exact hconfined.isLocal.own hpart.surroundings

theorem Part.drop_other (hpart : Part key keys whole part) (hindex : keys[index]? ≠ some key) :
    Part key keys (whole.drop conduct.apart index) part := by
  cases hcaller : whole.callers[index]? with
  | none => simpa [Session.drop, hcaller] using hpart
  | some caller =>
    cases caller with
    | returned ticket outcome => simpa [Session.drop, hcaller] using hpart
    | dropped ticket => simpa [Session.drop, hcaller] using hpart
    | fresh own work =>
      simpa [Session.drop, hcaller] using hpart.withdraw_other hcaller hindex
    | holding ticket =>
      obtain ⟨call, hcall, hkey⟩ := hpart.keyed.exists_call hcaller rfl
      have hother : call.key ≠ key := fun h => hindex (h ▸ hkey)
      have hconfined := confined_left conduct (hpart.keyed.own (List.mem_of_getElem? hcall))
        ticket.role
      obtain ⟨hcalls, hs⟩ := leave_of_call conduct.apart ticket.role hcall
        whole.surroundings
      rw [drop_of_holding hcaller]
      refine hpart.act_other hcaller hkey hcall hother (hconfined.key _) (hconfined.own _)
        (fun _ _ h => by cases h) ?_ hcalls ?_
      · intro other hother
        cases hother
        rfl
      · rw [hs]
        exact hconfined.isLocal.others _ hother.symm

theorem Part.start (hpart : Part key keys whole part) (work : ω) :
    Part key (keys ++ [key]) (whole.start key (key, work)) (part.start key (key, work)) where
  keyed := hpart.keyed.start key work
  calls := hpart.calls
  callers := by
    simp only [Session.start, ofKey_append_singleton hpart.keyed.length, hpart.callers]
    simp [Caller.renumber]
  surroundings := hpart.surroundings

theorem Part.start_other (hpart : Part key keys whole part) {own : κ} (hother : own ≠ key)
    (work : ω) : Part key (keys ++ [own]) (whole.start own (own, work)) part where
  keyed := hpart.keyed.start own work
  calls := hpart.calls
  callers := by
    simp only [Session.start, ofKey_append_singleton hpart.keyed.length, hpart.callers, hother]
    simp
  surroundings := hpart.surroundings

theorem Part.change (hpart : Part key keys whole part) (act : τ → τ) :
    Part key keys (whole.onSurroundings fun s => Function.update s key (act (s key)))
      (part.onSurroundings fun s => Function.update s key (act (s key))) where
  keyed := hpart.keyed.change _
  calls := hpart.calls
  callers := hpart.callers
  surroundings := by simp [onSurroundings, hpart.surroundings]

theorem Part.change_other (hpart : Part key keys whole part) {own : κ} (hother : own ≠ key)
    (act : τ → τ) :
    Part key keys (whole.onSurroundings fun s => Function.update s own (act (s own))) part where
  keyed := hpart.keyed.change _
  calls := hpart.calls
  callers := hpart.callers
  surroundings := by simp [onSurroundings, hother.symm, hpart.surroundings]

/-- A move of the key takes both sessions further, a move of another key only the whole. -/
theorem Part.make (hpart : Part key keys whole part)
    (hsound : whole.shared.Sound whole.tickets) (hsound' : part.shared.Sound part.tickets)
    (move : KeyMove τ κ ω) :
    Part key (keys ++ KeyMove.started [move]) (whole.make conduct.apart move.move)
      (part.run conduct.apart ((move.within key keys).map KeyMove.move)) := by
  cases move with
  | start own work =>
    rw [KeyMove.within]
    split
    case isTrue hown =>
      subst own
      exact hpart.start work
    case isFalse hown => exact hpart.start_other hown work
  | turn index =>
    have hkeys : keys ++ KeyMove.started [(.turn index : KeyMove τ κ ω)] = keys := List.append_nil _
    rw [hkeys, KeyMove.within]
    split
    case isTrue hindex => exact hpart.turn conduct hsound hsound' hindex
    case isFalse hindex => exact hpart.turn_other conduct hsound hindex
  | drop index =>
    have hkeys : keys ++ KeyMove.started [(.drop index : KeyMove τ κ ω)] = keys := List.append_nil _
    rw [hkeys, KeyMove.within]
    split
    case isTrue hindex => exact hpart.drop conduct hindex
    case isFalse hindex => exact hpart.drop_other conduct hindex
  | change own act =>
    have hkeys : keys ++ KeyMove.started [(.change own act : KeyMove τ κ ω)] = keys :=
      List.append_nil _
    rw [hkeys, KeyMove.within]
    split
    case isTrue hown =>
      subst own
      exact hpart.change act
    case isFalse hown => exact hpart.change_other hown act

end Turns

/-- The session after some moves, of which the first comes first. -/
def play [DecidableEq κ] (conduct : Conduct τ κ ω ν) (surroundings : κ → τ)
    (moves : List (KeyMove τ κ ω)) : Session (κ → τ) κ (κ × ω) ν :=
  run conduct.apart { surroundings } (moves.map KeyMove.move)

variable [DecidableEq κ]

/-- Without the moves of other keys, the session comes to be its own part. -/
theorem part_play (conduct : Conduct τ κ ω ν) (surroundings : κ → τ) (key : κ)
    (moves : List (KeyMove τ κ ω)) :
    Part key (KeyMove.started moves) (play conduct surroundings moves)
      (play conduct surroundings (KeyMove.only key [] moves)) := by
  induction moves using List.reverseRecOn with
  | nil => exact ⟨⟨rfl, by simp [play, run], by simp [play, run], by simp [play, run]⟩, rfl, rfl, rfl⟩
  | append_singleton moves move ih =>
    have hsound := sound_run conduct.apart surroundings (moves.map KeyMove.move)
    have hsound' := sound_run conduct.apart surroundings
      ((KeyMove.only key [] moves).map KeyMove.move)
    have hmake := ih.make conduct hsound hsound' move
    rw [KeyMove.started_append, KeyMove.only_append]
    simpa [play, run, KeyMove.only] using hmake

/-- Keys do not interfere. Take out of a run all that callers of other keys do and all that happens
    outside under other keys. At each moment of what remains the callers of the key stand where they
    stood, those that finished did so with the same outcome, their works have begun, come to their
    end and been given up alike, and the key is in flight or not as it was. The surroundings of the
    key, which may keep an account of what is done with its works, are the same too. -/
theorem keys_apart_run (conduct : Conduct τ κ ω ν) (surroundings : κ → τ) (key : κ)
    (moves more : List (KeyMove τ κ ω)) :
    KeyMove.only key [] moves <+: KeyMove.only key [] (moves ++ more) ∧
      let whole := play conduct surroundings moves
      let part := play conduct surroundings (KeyMove.only key [] moves)
      part.callers = (ofKey key (KeyMove.started moves) whole.callers).map
          (Caller.renumber (rank key whole.shared.callKeys)) ∧
        part.shared.calls = whole.shared.calls.filter (fun call => call.key = key) ∧
        (part.shared.entries.lookup key).isSome = (whole.shared.entries.lookup key).isSome ∧
        part.surroundings key = whole.surroundings key := by
  have hpart := part_play conduct surroundings key moves
  refine ⟨?_, hpart.callers, ?_, ?_, hpart.surroundings⟩
  · rw [KeyMove.only_append]
    exact List.prefix_append _ _
  · rw [hpart.calls, callKeys, ofKey_map_self]
  · rw [hpart.lookup_entries (sound_run conduct.apart surroundings _)
      (sound_run conduct.apart surroundings _), Option.isSome_map]

end Session

end VirtualFs
