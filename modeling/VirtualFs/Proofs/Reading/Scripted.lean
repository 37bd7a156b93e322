import VirtualFs.Proofs.Reading.Steady
import VirtualFs.Scenario.Script

namespace VirtualFs.Scenario

namespace Script

/-- What some rules make of a request in the end, however long they hold it up. -/
def verdict (rules : List Rule) : Option Failure :=
  rules.findSome? Rule.failure

theorem obey_cases (gates : List String) (rules : List Rule) :
    obey gates rules = .ready (verdict rules) ∨
      ∃ rest, obey gates rules = .waiting rest ∧ verdict rest = verdict rules := by
  induction rules with
  | nil => exact .inl rfl
  | cons rule rules ih =>
    rw [obey]
    split
    case isFalse => exact .inr ⟨_, rfl, rfl⟩
    case isTrue =>
      cases hfailure : rule.failure with
      | some failure => exact .inl (by simp [verdict, hfailure])
      | none => simpa [verdict, hfailure] using ih

/-- The verdict of rules that apply to every visit alike. -/
def verdictOn (rules : List Rule) (moment : Moment) (visit : Visit) : Option Failure :=
  verdict (rules.filter (·.applies moment visit 0))

/-- What a store answers whose rules apply to every visit alike. -/
def reply (store : Store) (rules : List Rule) (request : Request) : request.Answer :=
  match visit? request with
  | none => (store.effect request).1
  | some visit =>
    match verdictOn rules .before visit, verdictOn rules .after visit with
    | some failure, _ => .error failure
    | none, some failure => .error failure
    | none, none => (store.effect request).1

theorem effect_of_reads {request : Request} (hreads : request.Reads) (store : Store) :
    (store.effect request).2 = store := by
  cases request with
  | list | link | get | getRoot | openLink | readRange => rfl
  | remove | makeDir | makeDirReporting | put | drain | connect => exact hreads.elim

theorem tell_of_reads {request : Request} (hreads : request.Reads) (store : Store)
    (answer : request.Answer) : store.tell request answer = answer := by
  cases request with
  | list | link | get | getRoot | openLink | readRange => rfl
  | remove | makeDir | makeDirReporting | put | drain | connect => exact hreads.elim

section Steady

variable {store : Store} {rules : List Rule}

/-- The store and its rules are what they were. -/
def Stands (store : Store) (rules : List Rule) (script : Script) : Prop :=
  script.store = store ∧ script.rules = rules

/-- A request in flight has not passed over any verdict. -/
def Awaits (store : Store) (rules : List Rule) {request : Request} : Flight request → Prop
  | .before visit _ rest => visit? request = some visit ∧ verdict rest = verdictOn rules .before visit
  | .after rest answer => ∃ visit, visit? request = some visit ∧
    verdictOn rules .before visit = none ∧ verdict rest = verdictOn rules .after visit ∧
    answer = (store.effect request).1

/-- What a turn of a request leaves behind. -/
private def Keeps (store : Store) (rules : List Rule) {request : Request}
    (turn : RequestTurn request) : Prop :=
  Stands store rules turn.state ∧
    turn.poll.Tells (Awaits store rules) (fun answer => answer = reply store rules request)

variable {script : Script} {request : Request} {visit : Visit}

private theorem applies_alike (halike : ∀ rule ∈ rules, rule.nth = 0) (moment : Moment)
    (count : Nat) : verdict (rules.filter (·.applies moment visit count)) =
      verdictOn rules moment visit := by
  have hfilter : rules.filter (·.applies moment visit count) =
      rules.filter (·.applies moment visit 0) :=
    List.filter_congr fun rule hrule => by simp [Rule.applies, halike rule hrule]
  rw [verdictOn, hfilter]

private theorem keeps_conclude (hreads : request.Reads) (hstands : Stands store rules script)
    (hvisit : visit? request = some visit) (hbefore : verdictOn rules .before visit = none)
    {rest : List Rule} (hrest : verdict rest = verdictOn rules .after visit) :
    Keeps store rules (conclude request rest (store.effect request).1 script) := by
  have hreply := reply.eq_def store rules request
  rw [hvisit] at hreply
  dsimp only at hreply
  rw [hbefore] at hreply
  rw [conclude]
  rcases obey_cases script.openGates rest with hobey | ⟨waiting, hobey, hverdict⟩
  · rw [hobey, hrest]
    cases hafter : verdictOn rules .after visit with
    | some failure =>
      rw [hafter] at hreply
      exact ⟨hstands, hreply.symm⟩
    | none =>
      rw [hafter] at hreply
      exact ⟨hstands, (tell_of_reads hreads _ _).trans hreply.symm⟩
  · rw [hobey]
    exact ⟨hstands, visit, hvisit, hbefore, hverdict.trans hrest, rfl⟩

private theorem keeps_proceed (halike : ∀ rule ∈ rules, rule.nth = 0) (hreads : request.Reads)
    (hstands : Stands store rules script) (hvisit : visit? request = some visit) {count : Nat}
    {rest : List Rule} (hrest : verdict rest = verdictOn rules .before visit) :
    Keeps store rules (proceed request visit count rest script) := by
  rw [proceed]
  rcases obey_cases script.openGates rest with hobey | ⟨waiting, hobey, hverdict⟩
  · rw [hobey, hrest]
    cases hbefore : verdictOn rules .before visit with
    | some failure =>
      refine ⟨hstands, ?_⟩
      rw [reply.eq_def, hvisit]
      dsimp only
      rw [hbefore]
      rfl
    | none =>
      obtain ⟨rfl, rfl⟩ := hstands
      dsimp only
      rw [effect_of_reads hreads]
      exact keeps_conclude hreads ⟨rfl, rfl⟩ hvisit hbefore (applies_alike halike _ _)
  · rw [hobey]
    exact ⟨hstands, hvisit, hverdict.trans hrest⟩

private theorem keeps_issue (halike : ∀ rule ∈ rules, rule.nth = 0) (hreads : request.Reads)
    (hstands : Stands store rules script) : Keeps store rules (issue request script) := by
  obtain ⟨rfl, rfl⟩ := hstands
  rw [issue]
  cases hvisit : visit? request with
  | none =>
    have hwrite : ∀ line : Option String,
        (line.elim script script.write).store = script.store ∧
          (line.elim script script.write).rules = script.rules := by
      intro line
      cases line <;> exact ⟨rfl, rfl⟩
    refine ⟨⟨?_, (hwrite _).2⟩, ?_⟩
    · exact (effect_of_reads hreads _).trans (hwrite _).1
    · show _ = reply _ _ request
      rw [reply.eq_def, hvisit]
      exact congrArg (fun store : Store => (store.effect request).1) (hwrite _).1
  | some visit =>
    have hproceed : ∀ count line, Keeps script.store script.rules
        (proceed request visit count (script.rules.filter (·.applies .before visit count))
          { script.write line with visits := visit :: script.visits }) :=
      fun count line => keeps_proceed halike hreads ⟨by rfl, by rfl⟩ hvisit (applies_alike halike _ _)
    exact hproceed _ _

private theorem stands_abandon (hstands : Stands store rules script) (flight : Flight request) :
    Stands store rules (abandon request flight script) := by
  rw [abandon]
  split
  · exact hstands
  · exact hstands

/-- A scripted store whose rules apply to every visit alike is steady, whatever they hold up and
    whatever they let fail. -/
theorem steady (halike : ∀ rule ∈ rules, rule.nth = 0) :
    Script.backend.Steady (Stands store rules) (Awaits store rules) store.offer
      (reply store rules) where
  offer := by
    rintro script ⟨rfl, -⟩
    rfl
  issue := fun hreads hstands => keeps_issue halike hreads hstands
  resume := by
    intro script request flight hreads hawaits hstands
    cases flight with
    | before visit count rest => exact keeps_proceed halike hreads hstands hawaits.1 hawaits.2
    | after rest answer =>
      obtain ⟨visit, hvisit, hbefore, hrest, rfl⟩ := hawaits
      exact keeps_conclude hreads hstands hvisit hbefore hrest
  abandon := fun flight _ hstands => stands_abandon hstands flight

end Steady

end Script

/-- A mount that shows a store as it is, from the root on. -/
def plainMount : Mount := ⟨0, .root, "root", .identity, none⟩

end VirtualFs.Scenario
