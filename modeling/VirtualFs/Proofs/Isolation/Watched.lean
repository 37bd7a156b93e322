import VirtualFs.Proofs.Isolation.Fence

namespace VirtualFs

open VirtualFs.Tree VirtualFs.Chronicle

variable {σ : Type}

/-- A backend's state with an account of the past: the states it has been in, the present one last,
    and the requests that were issued, each with the states up to then. -/
structure Watched (σ : Type) where
  state : σ
  seen : List σ
  issued : List (Request × List σ) := []

namespace Watched

/-- The account begins. -/
def begin (state : σ) : Watched σ := ⟨state, [state], []⟩

def pass (watched : Watched σ) (state : σ) : Watched σ :=
  { watched with state, seen := watched.seen ++ [state] }

end Watched

/-- A backend of which an account is kept. It does what it does without one. -/
def Backend.watched (backend : Backend σ) : Backend (Watched σ) where
  Flight := backend.Flight
  offer watched := backend.offer watched.state
  now watched := backend.now watched.state
  issue request watched :=
    let turn := backend.issue request watched.state
    let issued := watched.issued ++ [(request, watched.seen)]
    ⟨turn.poll, turn.progress, { watched.pass turn.state with issued }⟩
  resume request flight watched :=
    let turn := backend.resume request flight watched.state
    ⟨turn.poll, turn.progress, watched.pass turn.state⟩
  abandon request flight watched := watched.pass (backend.abandon request flight watched.state)

/-- The object that is removed, stored into or handed out. -/
def Request.subject? : Request → Option Object
  | .remove object => some object
  | .put _ dir _ _ => some dir
  | .link file => some file
  | _ => none

section Watched

variable {backend : Backend σ} (realization : Realization backend confined) (base : Place)

/-- In one of some states an object stands for something at or below a place. -/
def Stood (states : List σ) (object : Object) : Prop :=
  ∃ s ∈ states, ∃ t here, realization.shows s t ∧ t.place object = some here ∧ base <+: here

/-- A request was put on an object that had stood for something at or below a place, and when it was
    issued the object stood there still or for nothing at all. -/
def WasProper (issue : Request × List σ) : Prop :=
  ∀ {object}, issue.1.subject? = some object → Stood realization base issue.2 object ∧
    ∃ s t, issue.2.getLast? = some s ∧ realization.shows s t ∧ t.Inside base object

/-- An account that agrees with a chronicle. -/
structure Agrees (account : Watched σ) (c : Chronicle base) : Prop where
  shows : realization.shows account.state c.tree
  last : account.seen.getLast? = some account.state
  met : ∀ {object}, c.met object → Stood realization base account.seen object
  issued : ∀ issue ∈ account.issued, WasProper realization base issue

variable {realization base} {account : Watched σ} {c : Chronicle base} {request : Request}

theorem Stood.mono {states more : List σ} {object : Object}
    (hstood : Stood realization base states object) :
    Stood realization base (states ++ more) object := by
  obtain ⟨s, hs, t, here, hshows, hplace, hbelow⟩ := hstood
  exact ⟨s, List.mem_append_left more hs, t, here, hshows, hplace, hbelow⟩

theorem wasProper_of_proper (hagrees : Agrees realization base account c)
    (hproper : c.Proper request) : WasProper realization base (request, account.seen) := by
  intro object hsubject
  have hknows : c.Knows object := by
    cases request with
    | remove | put | link =>
      obtain rfl := Option.some.inj hsubject
      exact hproper
    | list | makeDir | makeDirReporting | get | getRoot | openLink | readRange | drain | connect =>
      cases hsubject
  exact ⟨hagrees.met hknows.met, _, _, hagrees.last, hagrees.shows, hknows.inside⟩

/-- The chronicle goes on with a tree. What stands at or below the base has been met from then on. -/
def Chronicle.next (c : Chronicle base) (t : Tree) : Chronicle base where
  tree := t
  met object := c.met object ∨ ∃ here, t.place object = some here ∧ base <+: here
  meets hplace hbelow := .inr ⟨_, hplace, hbelow⟩

/-- A chronicle goes on as it is while its tree does. -/
theorem Chronicle.next_tree (c : Chronicle base) : c.next c.tree = c := by
  obtain ⟨tree, met, meets⟩ := c
  have hmet : ∀ object, (met object ∨ ∃ here, tree.place object = some here ∧ base <+: here) ↔
      met object := fun object =>
    ⟨fun h => h.elim id (fun ⟨_, hplace, hbelow⟩ => meets hplace hbelow), .inl⟩
  simp [next, hmet]

/-- The account goes on as the chronicle does. -/
theorem Agrees.pass (hagrees : Agrees realization base account c) {s : σ} {t : Tree}
    (hshows : realization.shows s t) : Agrees realization base (account.pass s) (c.next t) where
  shows := hshows
  last := List.getLast?_concat
  met := by
    rintro object (hmet | ⟨here, hplace, hbelow⟩)
    · exact (hagrees.met hmet).mono
    · exact ⟨s, List.mem_append_right _ (List.mem_singleton.2 rfl), t, here, hshows, hplace, hbelow⟩
  issued := hagrees.issued

theorem Agrees.issue (hagrees : Agrees realization base account c)
    {issue : Request × List σ} (hissue : WasProper realization base issue) :
    Agrees realization base { account with issued := account.issued ++ [issue] } c where
  shows := hagrees.shows
  last := hagrees.last
  met := hagrees.met
  issued := by
    intro other hother
    rcases List.mem_append.1 hother with hother | hother
    · exact hagrees.issued other hother
    · obtain rfl := List.mem_singleton.1 hother
      exact hissue

/-- A move over the tree is one over the chronicle that goes on with it. -/
theorem moves_next {before after : Option request.Answer} {t' : Tree}
    (hmoves : confined.Moves request before c.tree after t') :
    (fenced base).Moves request before c after (c.next t') := by
  cases hmoves with
  | waits =>
    rw [c.next_tree]
    exact .waits before c
  | acts hpermitted => exact .acts ⟨hpermitted, .inl⟩

variable (realization base) in
/-- A confined backend of which an account is kept, asked for nothing improper. -/
def Realization.watched : Realization backend.watched (fenced base) where
  shows := Agrees realization base
  Owes := realization.Owes
  offer hagrees := realization.offer hagrees.shows
  issue := by
    intro account c request hproper hagrees
    obtain ⟨after, t', hmoves, hshows, htells⟩ : backend.Brings confined realization.shows
        realization.Owes none c.tree (backend.issue request account.state) :=
      realization.issue trivial hagrees.shows
    refine ⟨after, c.next t', moves_next hmoves, ?_, htells⟩
    exact (hagrees.issue (wasProper_of_proper hagrees hproper)).pass hshows
  resume := by
    intro account c request flight owed _ howes hagrees
    obtain ⟨after, t', hmoves, hshows, htells⟩ : backend.Brings confined realization.shows
        realization.Owes owed c.tree (backend.resume request flight account.state) :=
      realization.resume trivial howes hagrees.shows
    exact ⟨after, c.next t', moves_next hmoves, hagrees.pass hshows, htells⟩
  abandon := by
    intro account c request flight _ hagrees
    have hpassed := hagrees.pass (realization.abandon flight trivial hagrees.shows)
    rwa [c.next_tree] at hpassed

end Watched

end VirtualFs
