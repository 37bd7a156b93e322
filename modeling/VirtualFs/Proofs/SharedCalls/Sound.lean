import Mathlib.Data.Multiset.Count
import VirtualFs.Proofs.SharedCalls.View

namespace VirtualFs.SharedCalls

variable {σ κ ω ν : Type}

/-- What the tickets that are held and the map say of one call: each holder has a ticket and at most
    one of them is the starter's, a running call has its starter, an aborted one has lost it, and
    the map has the call, under its key, as long as it is running. -/
structure Call.Sound (call : Call κ ω ν) (number : Nat) (held : Multiset Ticket)
    (entries : List (κ × Nat)) : Prop where
  holders : call.holders = held.count ⟨number, .starter⟩ + held.count ⟨number, .joiner⟩
  single : held.count ⟨number, .starter⟩ ≤ 1
  running : call.stage.IsRunning → held.count ⟨number, .starter⟩ = 1
  aborted : call.stage.IsAborted → held.count ⟨number, .starter⟩ = 0
  entry : ∀ key, (key, number) ∈ entries ↔ key = call.key ∧ call.stage.IsRunning

/-- Calls, map and tickets fit together. The tickets are those held by callers that neither returned
    nor were taken away. -/
structure Sound (shared : SharedCalls κ ω ν) (held : Multiset Ticket) : Prop where
  call : ∀ {number : Nat} {call : Call κ ω ν}, shared.calls[number]? = some call →
    call.Sound number held shared.entries
  issued : ∀ {ticket}, ticket ∈ held → ticket.call < shared.calls.length
  numbered : ∀ {key number}, (key, number) ∈ shared.entries → number < shared.calls.length
  keys : (shared.entries.map Prod.fst).Nodup

/-- What is known of a call depends on its own tickets and its own entry only. -/
theorem Call.Sound.frame {call : Call κ ω ν} {number : Nat} {held held' : Multiset Ticket}
    {entries entries' : List (κ × Nat)} (hsound : call.Sound number held entries)
    (hheld : ∀ role, held'.count ⟨number, role⟩ = held.count ⟨number, role⟩)
    (hentries : ∀ key, (key, number) ∈ entries' ↔ (key, number) ∈ entries) :
    call.Sound number held' entries' where
  holders := by rw [hsound.holders, hheld, hheld]
  single := (hheld _).trans_le hsound.single
  running hrunning := (hheld _).trans (hsound.running hrunning)
  aborted haborted := (hheld _).trans (hsound.aborted haborted)
  entry key := (hentries key).trans (hsound.entry key)

/-- Soundness survives a change to one call if that call is sound afterwards and neither the tickets
    nor the entries of others are touched. -/
theorem Sound.onCall {shared : SharedCalls κ ω ν} {held held' : Multiset Ticket} {number : Nat}
    {change : Call κ ω ν → Call κ ω ν} {entries : List (κ × Nat)} (hsound : shared.Sound held)
    (hentries : entries.Sublist shared.entries)
    (hcall : ∀ {call}, shared.calls[number]? = some call →
      (change call).Sound number held' entries)
    (hheld : ∀ {other}, other ≠ number →
      ∀ role, held'.count ⟨other, role⟩ = held.count ⟨other, role⟩)
    (hkept : ∀ {key other}, other ≠ number → (key, other) ∈ shared.entries →
      (key, other) ∈ entries)
    (hissued : ∀ {ticket}, ticket ∈ held' → ticket.call < shared.calls.length) :
    Sound { calls := shared.calls.modify number change, entries } held' where
  call := by
    intro other call hother
    simp only [List.getElem?_modify, Option.map_eq_map, Option.map_eq_some_iff] at hother
    obtain ⟨old, hold, rfl⟩ := hother
    by_cases hnumber : number = other
    · subst other
      simpa using hcall hold
    · rw [if_neg hnumber]
      exact (hsound.call hold).frame (hheld (Ne.symm hnumber))
        (fun key => ⟨fun h => hentries.subset h, hkept (Ne.symm hnumber)⟩)
  issued hticket := by simpa using hissued hticket
  numbered hentry := by simpa using hsound.numbered (hentries.subset hentry)
  keys := (hentries.map Prod.fst).nodup hsound.keys

theorem sound_empty : Sound ({} : SharedCalls κ ω ν) 0 where
  call h := by simp at h
  issued h := by simp at h
  numbered h := by simp at h
  keys := by simp

variable {shared : SharedCalls κ ω ν} {held : Multiset Ticket} {number : Nat}

/-- A running call has holders, the starter among them. -/
theorem Sound.holders_pos (hsound : shared.Sound held) {call : Call κ ω ν}
    (hcall : shared.calls[number]? = some call) (hrunning : call.stage.IsRunning) :
    0 < call.holders := by
  have hstarter := (hsound.call hcall).running hrunning
  rw [(hsound.call hcall).holders]
  omega

/-- Under a key that the map has, a call is running that can be joined. -/
theorem Sound.exists_call (hsound : shared.Sound held) {key : κ}
    (hentry : (key, number) ∈ shared.entries) :
    ∃ call, shared.calls[number]? = some call ∧ call.key = key ∧ call.stage.IsRunning := by
  obtain ⟨call, hcall⟩ : ∃ call, shared.calls[number]? = some call :=
    ⟨_, List.getElem?_eq_getElem (hsound.numbered hentry)⟩
  obtain ⟨hkey, hrunning⟩ := ((hsound.call hcall).entry key).1 hentry
  exact ⟨call, hcall, hkey.symm, hrunning⟩

/-- The map has a call exactly as long as the call is running. -/
theorem Sound.mem_entries_iff (hsound : shared.Sound held) {key : κ} :
    (key, number) ∈ shared.entries ↔ ∃ work, shared.view number = some (key, .running work) := by
  simp only [view_eq_some_iff]
  constructor
  · intro hentry
    obtain ⟨call, hcall, hkey, hrunning⟩ := hsound.exists_call hentry
    obtain ⟨work, hstage⟩ := hrunning.exists_work
    exact ⟨work, call, hcall, hkey, hstage⟩
  · rintro ⟨work, call, hcall, rfl, hstage⟩
    have hrunning : call.stage.IsRunning := by simp [hstage]
    exact ((hsound.call hcall).entry _).2 ⟨rfl, hrunning⟩

section Map

variable [BEq κ] [LawfulBEq κ]

theorem Sound.lookup_eq_some_iff (hsound : shared.Sound held) {key : κ} :
    shared.entries.lookup key = some number ↔ (key, number) ∈ shared.entries := by
  constructor
  · intro hlookup
    obtain ⟨before, after, hentries, -⟩ := List.lookup_eq_some_iff.1 hlookup
    simp [hentries]
  · intro hentry
    obtain ⟨before, after, hentries⟩ := List.append_of_mem hentry
    refine List.lookup_eq_some_iff.2 ⟨before, after, hentries, fun other hother => ?_⟩
    have hkeys := hsound.keys
    rw [hentries, List.map_append, List.map_cons, List.nodup_append] at hkeys
    simpa using Ne.symm (hkeys.2.2 _ (List.mem_map_of_mem hother) _ List.mem_cons_self)

/-- An entry is never left behind by callers that are gone, so whatever the map has can be joined. -/
theorem Sound.joinable?_eq_some_iff (hsound : shared.Sound held) {key : κ} :
    shared.joinable? key = some number ↔ (key, number) ∈ shared.entries := by
  rw [joinable?, Option.filter_eq_some_iff, hsound.lookup_eq_some_iff]
  refine ⟨And.left, fun hentry => ⟨hentry, ?_⟩⟩
  obtain ⟨call, hcall, -, hrunning⟩ := hsound.exists_call hentry
  simpa [hcall] using hsound.holders_pos hcall hrunning

theorem Sound.joinable?_eq_none_iff (hsound : shared.Sound held) {key : κ} :
    shared.joinable? key = none ↔ ∀ number, (key, number) ∉ shared.entries := by
  simp only [Option.eq_none_iff_forall_ne_some, ne_eq, hsound.joinable?_eq_some_iff]

end Map

theorem Sound.hold (hsound : shared.Sound held) {call : Call κ ω ν}
    (hcall : shared.calls[number]? = some call) :
    (shared.onCall number Call.hold).Sound (⟨number, .joiner⟩ ::ₘ held) := by
  refine hsound.onCall (List.Sublist.refl _) ?_ ?_ (fun _ h => h) ?_
  · intro call hcall
    have hold := hsound.call hcall
    constructor
    · simp [Call.hold, hold.holders, Nat.add_assoc]
    · simpa [Multiset.count_cons] using hold.single
    · simpa [Multiset.count_cons, Call.hold] using hold.running
    · simpa [Multiset.count_cons, Call.hold] using hold.aborted
    · exact hold.entry
  · intro other hother role
    simp [hother]
  · intro ticket hticket
    rcases Multiset.mem_cons.1 hticket with rfl | hticket
    · exact (List.getElem?_eq_some_iff.1 hcall).1
    · exact hsound.issued hticket

theorem Sound.begin [BEq κ] [LawfulBEq κ] (hsound : shared.Sound held) {key : κ} {work : ω}
    (hfree : ∀ number, (key, number) ∉ shared.entries) :
    (shared.begin key work).Sound (⟨shared.calls.length, .starter⟩ ::ₘ held) := by
  have hfilter : shared.entries.filter (fun entry => entry.1 != key) = shared.entries := by
    refine List.filter_eq_self.2 fun entry hentry => ?_
    have hne : entry.1 ≠ key := fun h => hfree entry.2 (h ▸ hentry)
    simpa using hne
  have hnew : ∀ role, held.count ⟨shared.calls.length, role⟩ = 0 := fun role =>
    Multiset.count_eq_zero_of_notMem fun h => (hsound.issued h).ne rfl
  constructor
  · intro number call hcall
    simp only [SharedCalls.begin] at hcall ⊢
    rw [hfilter]
    rcases lt_or_ge number shared.calls.length with hlt | hge
    · rw [List.getElem?_append_left hlt] at hcall
      refine (hsound.call hcall).frame (fun role => ?_) (fun key => ?_)
      · simp [hlt.ne]
      · simp [hlt.ne]
    · obtain ⟨hnumber, rfl⟩ : number = shared.calls.length ∧ call = ⟨key, .running work, 1⟩ := by
        rw [List.getElem?_append_right hge, List.getElem?_singleton] at hcall
        split at hcall
        · exact ⟨by omega, (Option.some.inj hcall).symm⟩
        · cases hcall
      subst number
      have hunknown : ∀ key, (key, shared.calls.length) ∉ shared.entries := fun key h =>
        (hsound.numbered h).ne rfl
      constructor <;> simp [hnew, hunknown]
  · intro ticket hticket
    rcases Multiset.mem_cons.1 hticket with rfl | hticket
    · simp [SharedCalls.begin]
    · have hissued := hsound.issued hticket
      simp only [SharedCalls.begin, List.length_append, List.length_singleton]
      omega
  · intro key number hentry
    simp only [SharedCalls.begin, hfilter, List.mem_cons, Prod.mk.injEq] at hentry
    rcases hentry with ⟨-, rfl⟩ | hentry
    · simp [SharedCalls.begin]
    · have hnumbered := hsound.numbered hentry
      simp only [SharedCalls.begin, List.length_append, List.length_singleton]
      omega
  · simp only [SharedCalls.begin, hfilter, List.map_cons, List.nodup_cons]
    refine ⟨fun h => ?_, hsound.keys⟩
    obtain ⟨⟨_, number⟩, hentry, rfl⟩ := List.mem_map.1 h
    exact hfree number hentry

/-- The entries that stay when a call takes itself off the map. -/
private theorem mem_forget {key : κ} {other : Nat} :
    (key, other) ∈ (shared.forget number).entries ↔
      (key, other) ∈ shared.entries ∧ other ≠ number := by
  simp [forget]

private theorem onCall_onCall (first second : Call κ ω ν → Call κ ω ν) :
    (shared.onCall number first).onCall number second =
      shared.onCall number (fun call => second (first call)) :=
  congrArg (SharedCalls.mk · _) (List.modify_modify_eq _ _ _ _)

private theorem forget_onCall (change : Call κ ω ν → Call κ ω ν) :
    (shared.forget number).onCall number change = (shared.onCall number change).forget number := rfl

private theorem forget_forget : (shared.forget number).forget number = shared.forget number := by
  simp [forget]

/-- A call that loses its starter's ticket is not running any more, and its entry is gone. -/
private theorem Sound.release_starter {change : Call κ ω ν → Call κ ω ν}
    (hsound : shared.Sound (⟨number, .starter⟩ ::ₘ held))
    (hholders : ∀ call, (change call).holders = call.holders - 1)
    (hstage : ∀ call, ¬ (change call).stage.IsRunning) :
    ((shared.onCall number change).forget number).Sound held := by
  refine hsound.onCall List.filter_sublist ?_ ?_ ?_ ?_
  · intro call hcall
    have hold := hsound.call hcall
    have hsingle := hold.single
    rw [Multiset.count_cons_self] at hsingle
    constructor
    · simp [hholders, hold.holders]
    · omega
    · exact fun hrunning => (hstage call hrunning).elim
    · exact fun _ => by omega
    · exact fun key => ⟨fun h => (mem_forget.1 h).2.elim rfl, fun h => (hstage call h.2).elim⟩
  · intro other hother role
    simp [hother]
  · exact fun hother hentry => mem_forget.2 ⟨hentry, hother⟩
  · exact fun hticket => hsound.issued (Multiset.mem_cons_of_mem hticket)

theorem Sound.settle (hsound : shared.Sound held) {outcome : Outcome ν}
    (hstarter : outcome = .aborted → held.count ⟨number, .starter⟩ = 0) :
    (shared.settle number outcome).Sound held := by
  refine hsound.onCall List.filter_sublist ?_ (fun _ _ => rfl) ?_ hsound.issued
  · intro call hcall
    have hold := hsound.call hcall
    constructor
    · exact hold.holders
    · exact hold.single
    · simp
    · simpa using hstarter
    · intro key
      simp
  · exact fun hother hentry => mem_forget.2 ⟨hentry, hother⟩

/-- Work that goes on without coming to an end changes nothing that tickets or map speak of. -/
theorem Sound.resume (hsound : shared.Sound held) {call : Call κ ω ν}
    (hcall : shared.calls[number]? = some call) (hrunning : call.stage.IsRunning) (work : ω) :
    (shared.onCall number (fun call => { call with stage := .running work })).Sound held := by
  refine hsound.onCall (List.Sublist.refl _) ?_ (fun _ _ => rfl) (fun _ h => h) hsound.issued
  intro other hother
  have hold := hsound.call hcall
  rw [hcall] at hother
  obtain rfl := Option.some.inj hother
  constructor
  · exact hold.holders
  · exact hold.single
  · exact fun _ => hold.running hrunning
  · simp
  · intro key
    simp [hold.entry, hrunning]

theorem Sound.release_joiner (hsound : shared.Sound (⟨number, .joiner⟩ ::ₘ held)) :
    (shared.onCall number Call.release).Sound held := by
  refine hsound.onCall (List.Sublist.refl _) ?_ ?_ (fun _ h => h) ?_
  · intro call hcall
    have hold := hsound.call hcall
    constructor
    · simp [Call.release, hold.holders, ← Nat.add_assoc]
    · simpa using hold.single
    · simpa [Call.release] using hold.running
    · simpa [Call.release] using hold.aborted
    · exact hold.entry
  · intro other hother role
    simp [hother]
  · exact fun hticket => hsound.issued (Multiset.mem_cons_of_mem hticket)

section Moves

variable (conduct : Conduct σ κ ω ν) (s : σ)

/-- Whoever attaches to a call holds a ticket for it. -/
theorem Sound.attach [BEq κ] [LawfulBEq κ] (hsound : shared.Sound held) (key : κ) (work : ω) :
    (shared.attach conduct key work s).2.1.Sound ((shared.attach conduct key work s).1 ::ₘ held) := by
  rw [SharedCalls.attach]
  split
  case h_1 number hjoinable =>
    obtain ⟨call, hcall, -, -⟩ :=
      hsound.exists_call (hsound.joinable?_eq_some_iff.1 hjoinable)
    exact hsound.hold hcall
  case h_2 hjoinable => exact hsound.begin (hsound.joinable?_eq_none_iff.1 hjoinable)

theorem Sound.poll (hsound : shared.Sound held) (number : Nat) :
    (shared.poll conduct number s).2.1.Sound held := by
  rw [SharedCalls.poll]
  cases hcall : shared.calls[number]? with
  | none => exact hsound
  | some call =>
    have hold := hsound.call hcall
    cases hstage : call.stage with
    | settled outcome => simpa [hstage] using hsound
    | cancelled work =>
      have haborted : call.stage.IsAborted := by simp [hstage]
      simpa [hstage] using hsound.settle (fun _ => hold.aborted haborted)
    | running work =>
      have hrunning : call.stage.IsRunning := by simp [hstage]
      simp only [Option.map_some, hstage]
      split
      · exact hsound.resume hcall hrunning _
      · exact hsound.settle (fun h => by cases h)

theorem Sound.leave {ticket : Ticket} (hsound : shared.Sound (ticket ::ₘ held)) :
    (shared.leave conduct ticket s).1.Sound held := by
  obtain ⟨number, role⟩ := ticket
  rw [SharedCalls.leave]
  rcases release_cases conduct s shared number with
    ⟨hrelease, -⟩ | ⟨call, work, hcall, hlast, hstage, hrelease⟩
  · rw [hrelease]
    cases role with
    | starter =>
      simp only [cancel, onCall_onCall]
      exact hsound.release_starter (fun _ => rfl) (fun call => by simp)
    | joiner => exact hsound.release_joiner
  · rw [hrelease]
    cases role with
    | starter =>
      simp only [cancel, SharedCalls.settle, forget_onCall, forget_forget, onCall_onCall]
      exact hsound.release_starter (fun _ => rfl) (fun call => by simp)
    | joiner =>
      -- The starter's handle would be left over if the work were still running.
      have hold := hsound.call hcall
      have hholders := hold.holders
      rw [Multiset.count_cons_self, Multiset.count_cons_of_ne (by simp)] at hholders
      exact hsound.release_joiner.settle (fun _ => by omega)

/-- What leaving comes to: it is not noticed; or the starter goes before others and cancels the
    call; or the last one goes and gives up the work. -/
theorem Sound.leave_cases {ticket : Ticket} (hsound : shared.Sound (ticket ::ₘ held)) :
    ((shared.leave conduct ticket s).1.view = shared.view ∧
      (shared.leave conduct ticket s).2 = s ∧
      ∀ {key work}, shared.view ticket.call = some (key, .running work) →
        ticket.role = .joiner) ∨
    ∃ key work stage, (ticket.role = .starter ∧
        shared.view ticket.call = some (key, .running work) ∨
        shared.view ticket.call = some (key, .cancelled work)) ∧
      (∀ other, (shared.leave conduct ticket s).1.view other =
        if other = ticket.call then some (key, stage) else shared.view other) ∧
      (stage = .cancelled work ∧ (shared.leave conduct ticket s).2 = s ∨
        stage = .settled .aborted ∧
          (shared.leave conduct ticket s).2 = conduct.discard work s) := by
  obtain ⟨number, role⟩ := ticket
  rcases release_cases conduct s shared number with
    ⟨hrelease, -⟩ | ⟨call, work, hcall, hlast, hstage, hrelease⟩
  · cases role with
    | joiner => exact .inl (by simp [SharedCalls.leave, hrelease])
    | starter =>
      have hleave : shared.leave conduct ⟨number, .starter⟩ s =
          ((shared.onCall number Call.release).cancel number, s) := by
        simp [SharedCalls.leave, hrelease]
      rw [hleave]
      cases hview : shared.view number with
      | none =>
        refine .inl ⟨funext fun other => ?_, rfl, by simp⟩
        rw [view_cancel, view_release, hview]
        split
        case isTrue hnumber => simp [hnumber, hview]
        case isFalse => rfl
      | some seen =>
        obtain ⟨key, stage⟩ := seen
        cases stage with
        | settled outcome =>
          have hsettled := leave_of_settled conduct s ⟨number, .starter⟩ hview
          rw [hleave] at hsettled
          exact .inl ⟨hsettled.1, rfl, by simp⟩
        | running work =>
          refine .inr ⟨key, work, .cancelled work, .inl ⟨rfl, rfl⟩, fun other => ?_, .inl ⟨rfl, rfl⟩⟩
          rw [view_cancel, view_release, hview]
          rfl
        | cancelled work =>
          obtain ⟨call, hcall, -, hstage⟩ := view_eq_some_iff.1 hview
          have hgone := (hsound.call hcall).aborted (by simp [hstage])
          simp at hgone
  · have hview := view_eq_some_iff.2 ⟨call, hcall, rfl, rfl⟩
    have hreleased : (shared.onCall number Call.release).view number =
        some (call.key, call.stage) := by
      rw [view_release, hview]
    have hsettled : ∀ other,
        ((shared.onCall number Call.release).settle number .aborted).view other =
          if other = number then some (call.key, .settled .aborted) else shared.view other := by
      intro other
      rw [view_settle_of_view hreleased, view_release]
    cases role with
    | joiner =>
      have hleave : shared.leave conduct ⟨number, .joiner⟩ s =
          ((shared.onCall number Call.release).settle number .aborted, conduct.discard work s) := by
        simp [SharedCalls.leave, hrelease]
      rw [hleave]
      rcases hstage with hstage | hstage
      · have hrunning := (hsound.call hcall).running (by simp [hstage])
        have hholders := (hsound.call hcall).holders
        rw [hrunning, Multiset.count_cons_self] at hholders
        omega
      · rw [hstage] at hview
        exact .inr ⟨call.key, work, _, .inr hview, hsettled, .inr ⟨rfl, rfl⟩⟩
    | starter =>
      have hleave : shared.leave conduct ⟨number, .starter⟩ s =
          (((shared.onCall number Call.release).settle number .aborted).cancel number,
            conduct.discard work s) := by
        simp [SharedCalls.leave, hrelease]
      rw [hleave]
      refine .inr ⟨call.key, work, .settled .aborted, ?_, fun other => ?_, .inr ⟨rfl, rfl⟩⟩
      · rcases hstage with hstage | hstage <;> rw [hstage] at hview
        · exact .inl ⟨rfl, hview⟩
        · exact .inr hview
      · rw [view_cancel, hsettled, hsettled]
        split
        · simp [Stage.cancel]
        · rfl

/-- What leaving makes of the calls: nothing, unless the starter leaves work that is running or the
    last one leaves work that is cancelled. -/
theorem Sound.every_leave {ticket : Ticket} {P : Nat → κ → Stage ω ν → Prop}
    (hsound : shared.Sound (ticket ::ₘ held)) (hbefore : shared.Every P)
    (hcancel : ∀ {key work stage}, ticket.role = .starter →
      shared.view ticket.call = some (key, .running work) → stage.IsAborted →
      P ticket.call key stage)
    (hgivenUp : ∀ {key work}, shared.view ticket.call = some (key, .cancelled work) →
      P ticket.call key (.settled .aborted)) :
    (shared.leave conduct ticket s).1.Every P := by
  rcases hsound.leave_cases conduct s with
    ⟨hview, -⟩ | ⟨key, work, stage, hcall, hview, hstage⟩
  · exact every_of_view_eq hbefore hview
  · refine every_of_view_update hbefore hview ?_
    rcases hcall with ⟨hrole, hcall⟩ | hcall
    · refine hcancel hrole hcall ?_
      rcases hstage with ⟨rfl, -⟩ | ⟨rfl, -⟩ <;> trivial
    · rcases hstage with ⟨rfl, -⟩ | ⟨rfl, -⟩
      · exact hbefore hcall
      · exact hgivenUp hcall

theorem Sound.later_leave {ticket : Ticket} (hsound : shared.Sound (ticket ::ₘ held)) :
    shared.Later (shared.leave conduct ticket s).1 := by
  rcases hsound.leave_cases conduct s with
    ⟨hview, -⟩ | ⟨key, work, stage, hbefore, hafter, hstage⟩
  · exact later_of_view_eq hview
  · rcases hbefore with ⟨-, hbefore⟩ | hbefore
    · exact later_of_view_update hbefore hafter (.onward work stage)
    · refine later_of_view_update hbefore hafter ?_
      rcases hstage with ⟨rfl, -⟩ | ⟨rfl, -⟩
      · exact .same _
      · exact .givenUp work

/-- Whoever attaches joins a running call under the key, or begins one if there is none. -/
theorem Sound.attach_cases [BEq κ] [LawfulBEq κ] (hsound : shared.Sound held) (key : κ)
    (work : ω) :
    (∃ number other, shared.view number = some (key, .running other) ∧
      shared.attach conduct key work s =
        (⟨number, .joiner⟩, shared.onCall number Call.hold, conduct.joined key s)) ∨
    shared.joinable? key = none ∧ shared.attach conduct key work s =
      (⟨shared.calls.length, .starter⟩, shared.begin key work, s) := by
  rw [SharedCalls.attach]
  cases hjoinable : shared.joinable? key with
  | none => exact .inr ⟨rfl, rfl⟩
  | some number =>
    obtain ⟨other, hview⟩ :=
      hsound.mem_entries_iff.1 (hsound.joinable?_eq_some_iff.1 hjoinable)
    exact .inl ⟨number, other, hview, rfl⟩

end Moves

end VirtualFs.SharedCalls
