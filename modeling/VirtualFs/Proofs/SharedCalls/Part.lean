import VirtualFs.Proofs.SharedCalls.Apart
import VirtualFs.Proofs.SharedCalls.Keyed
import VirtualFs.Proofs.SharedCalls.Ledger

namespace VirtualFs

open SharedCalls

variable {σ τ κ ω ν : Type}

namespace Caller

/-- A caller, where the calls have other numbers. -/
def renumber (number : Nat → Nat) : Caller κ ω ν → Caller κ ω ν
  | fresh key work => fresh key work
  | holding ticket => holding { ticket with call := number ticket.call }
  | returned ticket outcome => returned { ticket with call := number ticket.call } outcome
  | dropped ticket? => dropped (ticket?.map fun ticket => { ticket with call := number ticket.call })

/-- What a holder becomes with an answer or without one. -/
def answered (ticket : Ticket) : Option (Outcome ν) → Caller κ ω ν
  | none => holding ticket
  | some outcome => returned ticket outcome

theorem renumber_answered (number : Nat → Nat) (ticket : Ticket) (answer : Option (Outcome ν)) :
    (answered ticket answer : Caller κ ω ν).renumber number =
      answered { ticket with call := number ticket.call } answer := by
  cases answer <;> rfl

theorem ticket?_answered (ticket : Ticket) (answer : Option (Outcome ν)) :
    (answered ticket answer : Caller κ ω ν).ticket? = some ticket := by
  cases answer <;> rfl

theorem answered_ne_fresh (ticket : Ticket) (answer : Option (Outcome ν)) (key : κ) (work : ω) :
    answered ticket answer ≠ fresh key work := by
  cases answer <;> simp [answered]

theorem renumber_congr {caller : Caller κ ω ν} {number number' : Nat → Nat}
    (hsame : ∀ {ticket}, caller.ticket? = some ticket → number ticket.call = number' ticket.call) :
    caller.renumber number = caller.renumber number' := by
  cases caller with
  | fresh key work => rfl
  | holding ticket => rw [renumber, renumber, hsame rfl]
  | returned ticket outcome => rw [renumber, renumber, hsame rfl]
  | dropped ticket? =>
    cases ticket? with
    | none => rfl
    | some ticket =>
      have hticket : number ticket.call = number' ticket.call := hsame rfl
      simp [renumber, hticket]

end Caller

namespace SharedCalls

variable {shared shared' : SharedCalls κ ω ν} {number : Nat} {call call' : Call κ ω ν}

/-- The keys of the calls, in the order in which they began. -/
def callKeys (shared : SharedCalls κ ω ν) : List κ :=
  shared.calls.map Call.key

theorem getElem?_callKeys (hcall : shared.calls[number]? = some call) :
    shared.callKeys[number]? = some call.key := by
  simp [callKeys, hcall]

theorem length_callKeys (shared : SharedCalls κ ω ν) :
    shared.callKeys.length = shared.calls.length := by
  simp [callKeys]

/-- A call stays under its key. -/
theorem callKeys_set (hcall : shared.calls[number]? = some call)
    (hcalls : shared'.calls = shared.calls.set number call') (hkey : call'.key = call.key) :
    shared'.callKeys = shared.callKeys := by
  rw [callKeys, hcalls, List.map_set, hkey, ← List.map_set, set_same hcall, callKeys]

theorem callKeys_begin [BEq κ] (shared : SharedCalls κ ω ν) (key : κ) (work : ω) :
    (shared.begin key work).callKeys = shared.callKeys ++ [key] := by
  simp [callKeys, begin]

end SharedCalls

namespace Session

theorem consult_of_call (conduct : Conduct σ κ ω ν) (index : Nat) (ticket : Ticket)
    {session : Session σ κ ω ν} {call : Call κ ω ν}
    (hcall : session.shared.calls[ticket.call]? = some call) :
    let consulted := call.consulted conduct ticket.role session.surroundings
    ∃ shared, session.consult conduct index ticket =
        ⟨shared, consulted.2, session.callers.set index (.answered ticket consulted.1.1)⟩ ∧
      shared.calls = session.shared.calls.set ticket.call consulted.1.2 := by
  obtain ⟨hanswer, hcalls, hs⟩ := poll_of_call conduct hcall session.surroundings
  have hnumber := (List.getElem?_eq_some_iff.1 hcall).1
  simp only [consult, Call.consulted]
  generalize session.shared.poll conduct ticket.call session.surroundings = found
    at hanswer hcalls hs ⊢
  generalize call.polled conduct session.surroundings = polled at hanswer hcalls hs ⊢
  obtain ⟨answer, shared, s⟩ := found
  obtain ⟨⟨answer', call'⟩, s'⟩ := polled
  obtain rfl : answer = answer' := hanswer
  obtain rfl : s = s' := hs
  cases answer with
  | none => exact ⟨shared, rfl, hcalls⟩
  | some outcome =>
    dsimp only at hcalls
    have hcall' : shared.calls[ticket.call]? = some call' := by
      rw [hcalls, List.getElem?_set_self hnumber]
    obtain ⟨hleft, hs⟩ := leave_of_call conduct ticket.role hcall' s
    refine ⟨(shared.leave conduct ticket s).1, ?_, ?_⟩
    · exact congrArg (Session.mk _ · _) hs
    · rw [hcalls, List.set_set] at hleft
      exact hleft

/-- Callers of certain keys, in this order, hold tickets for calls of their own keys, whose works are
    carried out in the surroundings of these. -/
structure Keyed (keys : List κ) (session : Session (κ → τ) κ (κ × ω) ν) : Prop where
  length : keys.length = session.callers.length
  fresh : ∀ {index : Nat} {key work}, session.callers[index]? = some (.fresh key work) →
    keys[index]? = some key ∧ work.1 = key
  ticket : ∀ {index : Nat} {caller ticket}, session.callers[index]? = some caller →
    caller.ticket? = some ticket → session.shared.callKeys[ticket.call]? = keys[index]?
  own : ∀ {call}, call ∈ session.shared.calls → call.Own

/-- A caller holds a ticket for a call. -/
theorem Keyed.exists_call {session : Session (κ → τ) κ (κ × ω) ν} {keys : List κ}
    (hkeyed : session.Keyed keys) {index : Nat} {caller : Caller κ (κ × ω) ν} {ticket : Ticket}
    (hcaller : session.callers[index]? = some caller) (hticket : caller.ticket? = some ticket) :
    ∃ call, session.shared.calls[ticket.call]? = some call ∧ keys[index]? = some call.key := by
  have hkeys := hkeyed.ticket hcaller hticket
  have hindex := (List.getElem?_eq_some_iff.1 hcaller).1
  rw [← hkeyed.length] at hindex
  rw [List.getElem?_eq_getElem hindex, callKeys, List.getElem?_map] at hkeys
  obtain ⟨call, hcall, hkey⟩ := Option.map_eq_some_iff.1 hkeys
  exact ⟨call, hcall, by rw [List.getElem?_eq_getElem hindex, hkey]⟩

/-- A caller goes on. Calls may begin meanwhile, but none comes under another key. -/
theorem Keyed.set {session : Session (κ → τ) κ (κ × ω) ν} {keys more : List κ}
    (hkeyed : session.Keyed keys) {index : Nat} {old caller : Caller κ (κ × ω) ν}
    {shared : SharedCalls κ (κ × ω) ν} {s : κ → τ} (hold : session.callers[index]? = some old)
    (hcallKeys : shared.callKeys = session.shared.callKeys ++ more)
    (hown : ∀ {call}, call ∈ shared.calls → call.Own) (hfresh : ∀ key work, caller ≠ .fresh key work)
    (hticket : ∀ {ticket}, caller.ticket? = some ticket →
      shared.callKeys[ticket.call]? = keys[index]?) :
    (⟨shared, s, session.callers.set index caller⟩ : Session (κ → τ) κ (κ × ω) ν).Keyed keys := by
  have hindex := (List.getElem?_eq_some_iff.1 hold).1
  constructor
  case length => simpa using hkeyed.length
  case own => exact hown
  case fresh =>
    intro other key work hother
    rcases eq_or_ne index other with rfl | hne
    · rw [List.getElem?_set_self hindex] at hother
      exact (hfresh key work (Option.some.inj hother)).elim
    · rw [List.getElem?_set_ne hne] at hother
      exact hkeyed.fresh hother
  case ticket =>
    intro other caller' ticket hother hheld
    rcases eq_or_ne index other with rfl | hne
    · rw [List.getElem?_set_self hindex] at hother
      cases hother
      exact hticket hheld
    · rw [List.getElem?_set_ne hne] at hother
      obtain ⟨call, hcall, hkey⟩ := hkeyed.exists_call hother hheld
      have hlt := (List.getElem?_eq_some_iff.1 (getElem?_callKeys hcall)).1
      rw [hcallKeys, List.getElem?_append_left hlt, getElem?_callKeys hcall, hkey]

theorem Keyed.start {session : Session (κ → τ) κ (κ × ω) ν} {keys : List κ}
    (hkeyed : session.Keyed keys) (key : κ) (work : ω) :
    (session.start key (key, work)).Keyed (keys ++ [key]) := by
  have hlength := hkeyed.length
  have hcaller : ∀ {index : Nat} {caller : Caller κ (κ × ω) ν},
      (session.start key (key, work)).callers[index]? = some caller →
      session.callers[index]? = some caller ∧ (keys ++ [key])[index]? = keys[index]? ∨
        caller = .fresh key (key, work) ∧ (keys ++ [key])[index]? = some key := by
    intro index caller hindex
    rw [Session.start] at hindex
    rcases Nat.lt_trichotomy index keys.length with hlt | rfl | hgt
    · rw [List.getElem?_append_left (hlength ▸ hlt)] at hindex
      exact .inl ⟨hindex, List.getElem?_append_left hlt⟩
    · rw [hlength, List.getElem?_concat_length] at hindex
      exact .inr ⟨(Option.some.inj hindex).symm, List.getElem?_concat_length⟩
    · rw [List.getElem?_eq_none (by simp; omega)] at hindex
      cases hindex
  constructor
  case length => simp [Session.start, hlength]
  case own => exact hkeyed.own
  case fresh =>
    intro index own other hfresh
    rcases hcaller hfresh with ⟨hold, hkey⟩ | ⟨hnew, hkey⟩
    · rw [hkey]
      exact hkeyed.fresh hold
    · cases hnew
      exact ⟨hkey, rfl⟩
  case ticket =>
    intro index caller ticket hindex hticket
    rcases hcaller hindex with ⟨hold, hkey⟩ | ⟨rfl, -⟩
    · rw [hkey]
      exact hkeyed.ticket hold hticket
    · cases hticket

theorem Keyed.change {session : Session (κ → τ) κ (κ × ω) ν} {keys : List κ}
    (hkeyed : session.Keyed keys) (act : (κ → τ) → κ → τ) :
    (session.onSurroundings act).Keyed keys :=
  ⟨hkeyed.length, hkeyed.fresh, hkeyed.ticket, hkeyed.own⟩

variable [DecidableEq κ]

/-- One session is the part of another that concerns the callers of one key. The calls of the key are
    the same, and so are the surroundings. -/
structure Part (key : κ) (keys : List κ) (whole part : Session (κ → τ) κ (κ × ω) ν) : Prop where
  keyed : whole.Keyed keys
  calls : part.shared.calls = ofKey key whole.shared.callKeys whole.shared.calls
  callers : part.callers =
    (ofKey key keys whole.callers).map (Caller.renumber (rank key whole.shared.callKeys))
  surroundings : part.surroundings key = whole.surroundings key

variable {key : κ} {keys : List κ} {whole part : Session (κ → τ) κ (κ × ω) ν}
  {index number : Nat} {caller old : Caller κ (κ × ω) ν} {call call' : Call κ (κ × ω) ν}
  {shared shared' : SharedCalls κ (κ × ω) ν} {s s' : κ → τ}

theorem Part.getElem?_calls (hpart : Part key keys whole part)
    (hcall : whole.shared.calls[number]? = some call) (hkey : call.key = key) :
    part.shared.calls[rank key whole.shared.callKeys number]? = some call := by
  have hnumber : whole.shared.callKeys[number]? = some key := by rw [getElem?_callKeys hcall, hkey]
  rw [hpart.calls, getElem?_ofKey hnumber (length_callKeys whole.shared), hcall]

theorem Part.getElem?_callers (hpart : Part key keys whole part)
    (hcaller : whole.callers[index]? = some caller) (hkey : keys[index]? = some key) :
    part.callers[rank key keys index]? =
      some (caller.renumber (rank key whole.shared.callKeys)) := by
  rw [hpart.callers, List.getElem?_map, getElem?_ofKey hkey hpart.keyed.length, hcaller,
    Option.map_some]

/-- A caller of the key is there in the whole and in the part. -/
theorem Part.exists_caller (hpart : Part key keys whole part) (hkey : keys[index]? = some key) :
    ∃ caller, whole.callers[index]? = some caller ∧ part.callers[rank key keys index]? =
      some (caller.renumber (rank key whole.shared.callKeys)) := by
  have hindex : index < whole.callers.length := by
    rw [← hpart.keyed.length]
    exact (List.getElem?_eq_some_iff.1 hkey).1
  have hcaller := List.getElem?_eq_getElem hindex
  exact ⟨_, hcaller, hpart.getElem?_callers hcaller hkey⟩

/-- A caller of the key acts on its call, in the whole and in the part. -/
theorem Part.act (hpart : Part key keys whole part) (hold : whole.callers[index]? = some old)
    (hindex : keys[index]? = some key) (hcall : whole.shared.calls[number]? = some call)
    (hcallKey : call.key = key) (hkey : call'.key = call.key) (hown : call'.Own)
    (hfresh : ∀ own work, caller ≠ .fresh own work)
    (hticket : ∀ {ticket}, caller.ticket? = some ticket → ticket.call = number)
    (hcalls : shared.calls = whole.shared.calls.set number call')
    (hcalls' : shared'.calls = part.shared.calls.set (rank key whole.shared.callKeys number) call')
    (hs : s' key = s key) :
    Part key keys ⟨shared, s, whole.callers.set index caller⟩
      ⟨shared', s', part.callers.set (rank key keys index)
        (caller.renumber (rank key whole.shared.callKeys))⟩ := by
  have hkeys : shared.callKeys = whole.shared.callKeys := callKeys_set hcall hcalls hkey
  have hnumber := getElem?_callKeys hcall
  refine ⟨hpart.keyed.set hold (by rw [hkeys, List.append_nil]) ?_ hfresh ?_, ?_, ?_, hs⟩
  · intro other hother
    rw [hcalls] at hother
    rcases List.mem_or_eq_of_mem_set hother with hother | rfl
    · exact hpart.keyed.own hother
    · exact hown
  · intro ticket hheld
    rw [hkeys, hticket hheld, hnumber, hcallKey, hindex]
  · rw [hcalls', hkeys, hcalls, ofKey_set (by rw [hnumber, hcallKey]), hpart.calls]
  · rw [hkeys, ofKey_set hindex, List.map_set, hpart.callers]

/-- What a caller of another key does to its call is not seen. -/
theorem Part.act_other (hpart : Part key keys whole part)
    (hold : whole.callers[index]? = some old)
    (hindex : keys[index]? = some call.key) (hcall : whole.shared.calls[number]? = some call)
    (hother : call.key ≠ key) (hkey : call'.key = call.key) (hown : call'.Own)
    (hfresh : ∀ own work, caller ≠ .fresh own work)
    (hticket : ∀ {ticket}, caller.ticket? = some ticket → ticket.call = number)
    (hcalls : shared.calls = whole.shared.calls.set number call')
    (hs : s key = whole.surroundings key) :
    Part key keys ⟨shared, s, whole.callers.set index caller⟩ part := by
  have hkeys : shared.callKeys = whole.shared.callKeys := callKeys_set hcall hcalls hkey
  have hnumber := getElem?_callKeys hcall
  refine ⟨hpart.keyed.set hold (by rw [hkeys, List.append_nil]) ?_ hfresh ?_, ?_, ?_, ?_⟩
  · intro other hother
    rw [hcalls] at hother
    rcases List.mem_or_eq_of_mem_set hother with hother | rfl
    · exact hpart.keyed.own hother
    · exact hown
  · intro ticket hheld
    rw [hkeys, hticket hheld, hnumber, hindex]
  · have hne : whole.shared.callKeys[number]? ≠ some key := by
      rw [hnumber]
      simpa using hother
    rw [hkeys, hcalls, ofKey_set_of_ne hne, hpart.calls]
  · have hne : keys[index]? ≠ some key := by
      rw [hindex]
      simpa using hother
    rw [hkeys, ofKey_set_of_ne hne, hpart.callers]
  · exact hpart.surroundings.trans hs.symm

/-- The callers that there are hold no tickets for calls to come. -/
theorem Keyed.map_renumber_append {session : Session (κ → τ) κ (κ × ω) ν}
    (hkeyed : session.Keyed keys) (more : List κ) :
    (ofKey key keys session.callers).map
        (Caller.renumber (rank key (session.shared.callKeys ++ more))) =
      (ofKey key keys session.callers).map (Caller.renumber (rank key session.shared.callKeys)) := by
  refine List.map_congr_left fun caller hcaller => ?_
  obtain ⟨place, hplace⟩ := List.getElem?_of_mem hcaller
  obtain ⟨index, -, hindex, -⟩ := exists_of_getElem?_ofKey hplace
  refine Caller.renumber_congr fun {ticket} hticket => ?_
  obtain ⟨call, hcall, -⟩ := hkeyed.exists_call hindex hticket
  have hnumber := (List.getElem?_eq_some_iff.1 (getElem?_callKeys hcall)).1
  exact rank_append hnumber.le more

/-- A caller begins a call under its key. -/
theorem Keyed.begun {session : Session (κ → τ) κ (κ × ω) ν} (hkeyed : session.Keyed keys)
    {own : κ} {work : κ × ω} (hold : session.callers[index]? = some (.fresh own work)) (s : κ → τ) :
    Keyed keys ⟨session.shared.begin own work, s,
      session.callers.set index (.holding ⟨session.shared.calls.length, .starter⟩)⟩ := by
  obtain ⟨hkey, hwork⟩ := hkeyed.fresh hold
  refine hkeyed.set hold (callKeys_begin _ own work) ?_ (fun _ _ h => by cases h) ?_
  · intro call hcall
    rcases List.mem_append.1 hcall with hcall | hcall
    · exact hkeyed.own hcall
    · obtain rfl := List.mem_singleton.1 hcall
      exact own_running hwork 1
  · intro ticket hticket
    cases hticket
    rw [callKeys_begin, hkey, ← length_callKeys]
    simp

theorem Part.begin (hpart : Part key keys whole part) {work : κ × ω}
    (hold : whole.callers[index]? = some (.fresh key work)) (hs : s' key = s key) :
    Part key keys
      ⟨whole.shared.begin key work, s,
        whole.callers.set index (.holding ⟨whole.shared.calls.length, .starter⟩)⟩
      ⟨part.shared.begin key work, s', part.callers.set (rank key keys index)
        (.holding ⟨part.shared.calls.length, .starter⟩)⟩ := by
  have hlast : rank key (whole.shared.callKeys ++ [key]) whole.shared.calls.length =
      part.shared.calls.length := by
    rw [← length_callKeys, rank_append le_rfl, rank, List.take_length, hpart.calls,
      length_ofKey (length_callKeys _)]
  refine ⟨hpart.keyed.begun hold s, ?_, ?_, hs⟩
  · rw [callKeys_begin, SharedCalls.begin, SharedCalls.begin,
      ofKey_append_singleton (length_callKeys _), if_pos rfl, hpart.calls]
  · rw [callKeys_begin, ofKey_set (hpart.keyed.fresh hold).1, List.map_set,
      hpart.keyed.map_renumber_append, Caller.renumber, hlast, hpart.callers]

theorem Part.begin_other (hpart : Part key keys whole part) {own : κ} {work : κ × ω}
    (hold : whole.callers[index]? = some (.fresh own work)) (hother : own ≠ key)
    (hs : s key = whole.surroundings key) :
    Part key keys
      ⟨whole.shared.begin own work, s,
        whole.callers.set index (.holding ⟨whole.shared.calls.length, .starter⟩)⟩ part := by
  have hne : keys[index]? ≠ some key := by
    rw [(hpart.keyed.fresh hold).1]
    simpa using hother
  refine ⟨hpart.keyed.begun hold s, ?_, ?_, hpart.surroundings.trans hs.symm⟩
  · rw [callKeys_begin, SharedCalls.begin, ofKey_append_singleton (length_callKeys _),
      if_neg hother, List.append_nil, hpart.calls]
  · rw [callKeys_begin, ofKey_set_of_ne hne, hpart.keyed.map_renumber_append, hpart.callers]

/-- A caller that never took part is gone. -/
theorem Part.withdraw (hpart : Part key keys whole part) {own : κ} {work : κ × ω}
    (hold : whole.callers[index]? = some (.fresh own work)) (hindex : keys[index]? = some key) :
    Part key keys { whole with callers := whole.callers.set index (.dropped none) }
      { part with callers := part.callers.set (rank key keys index) (.dropped none) } where
  keyed := hpart.keyed.set hold (List.append_nil _).symm hpart.keyed.own
    (fun _ _ h => by cases h) (fun h => by cases h)
  calls := hpart.calls
  callers := by
    rw [ofKey_set hindex, List.map_set, hpart.callers]
    rfl
  surroundings := hpart.surroundings

theorem Part.withdraw_other (hpart : Part key keys whole part) {own : κ} {work : κ × ω}
    (hold : whole.callers[index]? = some (.fresh own work)) (hindex : keys[index]? ≠ some key) :
    Part key keys { whole with callers := whole.callers.set index (.dropped none) } part where
  keyed := hpart.keyed.set hold (List.append_nil _).symm hpart.keyed.own
    (fun _ _ h => by cases h) (fun h => by cases h)
  calls := hpart.calls
  callers := by rw [ofKey_set_of_ne hindex, hpart.callers]
  surroundings := hpart.surroundings

end Session

end VirtualFs
