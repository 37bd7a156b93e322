import VirtualFs.Proofs.Descent.Level
import VirtualFs.Proofs.Isolation.Mounted
import VirtualFs.Proofs.Reading.Walk

namespace VirtualFs

open SharedCalls

variable {σ α : Type}

namespace World

section Patience

variable {backend : Backend σ} (world : World backend α) (moves : List (Move σ))

/-- The listing with a number has come to its end. -/
def Ended (number : Nat) : Prop :=
  (world.scene.listings.view number).any (fun
    | (_, .settled _) => true
    | _ => false) = true

/-- A task is through. -/
def IsThrough (index : Nat) : Prop :=
  world.tasks[index]?.any Stage.isFinished = true

/-- A task has had a turn at the end of which the listing with a number had begun. -/
def TurnedSince (index number : Nat) : Prop :=
  ∃ earlier, earlier ++ [.turn index] <+: moves ∧
    number < (world.run (earlier ++ [.turn index])).scene.listings.calls.length

/-- No listing comes to its end before each task that is not through has had a turn since it began. -/
def Patient : Prop :=
  ∀ past, past <+: moves → ∀ number < (world.run past).scene.listings.calls.length,
    (world.run past).Ended number →
    ∀ index < world.tasks.length, (world.run past).IsThrough index ∨
      world.TurnedSince past index number

variable {world moves} {move : Move σ}

instance (number : Nat) : Decidable (world.Ended number) :=
  inferInstanceAs (Decidable (_ = true))

instance (index : Nat) : Decidable (world.IsThrough index) :=
  inferInstanceAs (Decidable (_ = true))

/-- A move is a turn of a task. -/
def Move.isTurn (index : Nat) : Move σ → Bool
  | .turn other => other = index
  | _ => false

theorem turnedSince_iff {index number : Nat} :
    (∃ past ∈ moves.inits, past.getLast?.any (Move.isTurn index) = true ∧
      number < (world.run past).scene.listings.calls.length) ↔
    world.TurnedSince moves index number := by
  constructor
  · rintro ⟨past, hpast, hlast, hnumber⟩
    obtain ⟨move, hmove, hturn⟩ := (Option.any_eq_true _ _).1 hlast
    obtain ⟨earlier, rfl⟩ := List.getLast?_eq_some_iff.1 hmove
    obtain rfl : move = .turn index := by
      cases move with
      | turn other => simpa [Move.isTurn] using hturn
      | drop other => cases hturn
      | change change => cases hturn
    exact ⟨earlier, (List.mem_inits _ _).1 hpast, hnumber⟩
  · rintro ⟨earlier, hearlier, hnumber⟩
    exact ⟨_, (List.mem_inits _ _).2 hearlier, by simp [Move.isTurn], hnumber⟩

instance (index number : Nat) : Decidable (world.TurnedSince moves index number) :=
  decidable_of_iff _ turnedSince_iff

instance : Decidable (world.Patient moves) :=
  decidable_of_iff (∀ past ∈ moves.inits,
    ∀ number < (world.run past).scene.listings.calls.length, (world.run past).Ended number →
      ∀ index < world.tasks.length, (world.run past).IsThrough index ∨
        world.TurnedSince past index number) (by simp only [List.mem_inits, Patient])

theorem Patient.mono {moves' : List (Move σ)} (hpatient : world.Patient moves')
    (hmoves : moves <+: moves') : world.Patient moves :=
  fun past hpast => hpatient past (hpast.trans hmoves)

theorem turnedSince_append_singleton {index number : Nat}
    (hturned : world.TurnedSince (moves ++ [move]) index number) :
    world.TurnedSince moves index number ∨ move = .turn index ∧
      number < (world.run (moves ++ [move])).scene.listings.calls.length := by
  obtain ⟨earlier, hearlier, hnumber⟩ := hturned
  rcases List.prefix_concat_iff.1 hearlier with hlast | hearlier
  · obtain ⟨rfl, hmove⟩ := List.append_inj' hlast rfl
    refine .inr ⟨by simpa using hmove.symm, ?_⟩
    rwa [← hlast]
  · exact .inl ⟨earlier, hearlier, hnumber⟩

end Patience

end World

namespace Descent

open World

variable {backend : Backend σ} {descent : Descent backend}

/-- Something happens outside that issues nothing. -/
theorem Level.change {scene : Scene backend.watched} {held : Multiset Ticket} {done : Nat}
    (hlevel : descent.Level scene held done) {surroundings : Surroundings (Watched σ)}
    (hholds : descent.holds surroundings.state.state)
    (hrequests : surroundings.state.requests = scene.surroundings.state.requests) :
    descent.Level { scene with surroundings } held done := by
  have htidy : descent.Tidy { scene with surroundings } held done :=
    ⟨hholds, hlevel.tidy.sound, hlevel.tidy.settled⟩
  rcases hlevel with hidle | hbusy
  · exact .inl ⟨htidy, hidle.length, hrequests.trans hidle.requests⟩
  · refine .inr ⟨htidy, hbusy.length, ?_⟩
    dsimp only
    rw [hrequests]
    exact hbusy.running

/-- So many listings have come to their end. A task is through with all of them, or it has taken part
    in each one that had begun when it had its last turn. -/
structure Orderly (descent : Descent backend) (turned : Nat → Nat → Prop)
    (world : World backend.watched α) (done : Nat) : Prop where
  level : descent.Level world.scene world.tickets done
  tasks : ∀ {index stage}, world.tasks[index]? = some stage →
    (∃ result, stage = .returned result ∧ done = descent.plans.length) ∨
    ∃ number, descent.Next stage number ∧ ∀ begun, turned index begun → begun < number

variable {world : World backend.watched α} {done : Nat} {turned turned' : Nat → Nat → Prop}

/-- What stands in a list after a change is what is new there or stands somewhere else. -/
theorem getElem?_set_cases {β : Type} {items : List β} {index other : Nat} {item x : β}
    (hx : (items.set index item)[other]? = some x) : other = index ∧ x = item ∨ other ≠ index := by
  by_cases hother : other = index
  · subst other
    have hindex : index < items.length := by
      simpa using (List.getElem?_eq_some_iff.1 hx).1
    rw [List.getElem?_set_self hindex] at hx
    exact .inl ⟨rfl, (Option.some.inj hx).symm⟩
  · exact .inr hother

theorem Orderly.turn (horderly : descent.Orderly turned world done) {index : Nat}
    {stage : Stage backend.watched α} (hstage : world.tasks[index]? = some stage)
    (hpatient : ∀ number < done, (∃ result, stage = .returned result) ∨ turned index number)
    (hturned : ∀ {other begun}, turned' other begun → turned other begun ∨
      other = index ∧ begun < (stage.turn world.scene).2.listings.calls.length) :
    ∃ done', descent.Orderly turned'
      ⟨(stage.turn world.scene).2, world.tasks.set index (stage.turn world.scene).1⟩ done' := by
  obtain ⟨others, hbefore, hafter⟩ := exists_heldBy_others Stage.held? hstage
  have hlevel : descent.Level world.scene ((stage.held?.toList : Multiset Ticket) + others) done :=
    hbefore ▸ horderly.level
  have hothers : ∀ {other stage'}, other ≠ index →
      (world.tasks.set index (stage.turn world.scene).1)[other]? = some stage' →
      (∃ result, stage' = .returned result ∧ done = descent.plans.length) ∨
      ∃ number, descent.Next stage' number ∧ ∀ begun, turned' other begun → begun < number := by
    intro other stage' hother hstage'
    rw [List.getElem?_set_ne (Ne.symm hother)] at hstage'
    refine (horderly.tasks hstage').imp id ?_
    rintro ⟨number, hnext, hseen⟩
    exact ⟨number, hnext, fun begun h => hseen begun ((hturned h).resolve_right (hother ·.1))⟩
  rcases horderly.tasks hstage with ⟨result, rfl, hdone⟩ | ⟨number, hnext, hseen⟩
  · refine ⟨done, ?_, fun {other stage'} hstage' => ?_⟩
    · rw [tickets, hafter]
      exact hlevel
    · rcases getElem?_set_cases hstage' with ⟨rfl, rfl⟩ | hother
      · exact .inl ⟨result, rfl, hdone⟩
      · exact hothers hother hstage'
  · have hdone : done ≤ number := by
      refine Nat.le_of_not_lt fun hlt => ?_
      rcases hpatient number hlt with ⟨result, rfl⟩ | hturned
      · cases hnext
      · exact (hseen number hturned).ne rfl
    have hle := hnext.le hlevel
    have hreached := reached_turn hnext hlevel hdone
    generalize stage.turn world.scene = reached at hreached hturned hothers
    cases hreached with
    | @waits done' role next scene later busy onward =>
      refine ⟨done', ?_, fun {other stage'} hstage' => ?_⟩
      · rw [tickets, hafter]
        exact .inr busy
      · rcases getElem?_set_cases hstage' with ⟨rfl, rfl⟩ | hother
        · refine .inr ⟨_, .sharing onward, fun begun h => ?_⟩
          rcases hturned h with hearlier | ⟨-, hnow⟩
          · have hbegun := hseen begun hearlier
            dsimp only
            omega
          · exact hnow.trans_eq busy.length
        · refine (hothers hother hstage').imp ?_ id
          rintro ⟨result, rfl, hall⟩
          obtain ⟨_, _, _, hplan, -⟩ := busy.running
          have hlt := (List.getElem?_eq_some_iff.1 hplan).1
          omega
    | @ends result scene idle =>
      refine ⟨descent.plans.length, ?_, fun {other stage'} hstage' => ?_⟩
      · rw [tickets, hafter]
        have hfree : descent.Level scene others descent.plans.length := .inl idle
        simpa using hfree
      · rcases getElem?_set_cases hstage' with ⟨rfl, rfl⟩ | hother
        · exact .inl ⟨result, rfl, rfl⟩
        · refine (hothers hother hstage').imp ?_ id
          rintro ⟨result, rfl, -⟩
          exact ⟨result, rfl, rfl⟩

/-- A world in which no caller has begun yet. -/
theorem orderly_gather {surroundings : Surroundings (Watched σ)} {procedures : List (Procedure α)}
    (hholds : descent.holds surroundings.state.state) (hrequests : surroundings.state.requests = [])
    (hshares : ∀ procedure ∈ procedures, ∃ result,
      procedure.Shares descent.offered descent.reply descent.plans result)
    (hturned : ∀ {index begun}, ¬ turned index begun) :
    descent.Orderly turned (gather surroundings procedures : World backend.watched α) 0 := by
  have hnone : (gather surroundings procedures : World backend.watched α).tickets = 0 := by
    simp [gather, tickets, heldBy, List.filterMap_map, Function.comp_def]
  refine ⟨.inl ⟨⟨hholds, hnone ▸ sound_empty, fun number h => (Nat.not_lt_zero _ h).elim⟩, rfl, ?_⟩,
    fun {index stage} hstage => .inr ?_⟩
  · exact hrequests
  · obtain ⟨procedure, hprocedure, rfl⟩ : ∃ procedure, procedures[index]? = some procedure ∧
        Stage.ready procedure = stage := by
      simpa [gather] using hstage
    obtain ⟨result, h⟩ := hshares procedure (List.mem_of_getElem? hprocedure)
    exact ⟨0, .ready h, fun begun hbegun => (hturned hbegun).elim⟩

/-- Where no task moves, none has had another turn. -/
theorem Orderly.of_tasks_eq {world' : World backend.watched α}
    (horderly : descent.Orderly turned world done)
    (hlevel : descent.Level world'.scene world'.tickets done) (htasks : world'.tasks = world.tasks)
    (hturned : ∀ {index begun}, index < world.tasks.length → turned' index begun →
      turned index begun) :
    descent.Orderly turned' world' done := by
  refine ⟨hlevel, fun {index stage} hstage => ?_⟩
  rw [htasks] at hstage
  have hindex := (List.getElem?_eq_some_iff.1 hstage).1
  refine (horderly.tasks hstage).imp id ?_
  rintro ⟨number, hnext, hseen⟩
  exact ⟨number, hnext, fun begun hbegun => hseen begun (hturned hindex hbegun)⟩

theorem Orderly.ended (horderly : descent.Orderly turned world done) {number : Nat}
    (hnumber : number < done) :
    number < world.scene.listings.calls.length ∧ world.Ended number := by
  obtain ⟨_, _, hsettled⟩ := horderly.level.tidy.settled number hnumber
  refine ⟨Nat.lt_of_not_le fun hle => ?_, ?_⟩
  · rw [view_eq_none_iff.2 hle] at hsettled
    cases hsettled
  · rw [Ended, hsettled]
    rfl

/-- A task that is through has returned, as nobody is taken away. -/
theorem Orderly.exists_returned (horderly : descent.Orderly turned world done) {index : Nat}
    (hthrough : world.IsThrough index) :
    ∃ result, world.tasks[index]? = some (.returned result) := by
  cases hstage : world.tasks[index]? with
  | none =>
    rw [IsThrough, hstage] at hthrough
    cases hthrough
  | some stage =>
    rw [IsThrough, hstage] at hthrough
    rcases horderly.tasks hstage with ⟨result, rfl, -⟩ | ⟨_, hnext, -⟩
    · exact ⟨result, rfl⟩
    · cases hnext <;> cases hthrough

variable (descent) in
/-- By induction on the moves, by which nobody is taken away. -/
theorem orderly_run {surroundings : Surroundings σ} {procedures : List (Procedure α)}
    (hholds : descent.holds surroundings.state)
    (hshares : ∀ procedure ∈ procedures, ∃ result,
      procedure.Shares descent.offered descent.reply descent.plans result)
    {moves : List (Move σ)} (hstay : ∀ index, .drop index ∉ moves)
    (hchanges : ∀ {change}, .change change ∈ moves →
      ∀ {s : Surroundings σ}, descent.holds s.state → descent.holds (change s).state) :
    let start : World backend.watched α :=
      gather ⟨.begin surroundings.state, surroundings.log⟩ procedures
    start.Patient (moves.map Move.watched) →
    ∃ done, descent.Orderly (start.TurnedSince (moves.map Move.watched))
      (start.run (moves.map Move.watched)) done := by
  intro start hpatient
  induction moves using List.reverseRecOn with
  | nil =>
    refine ⟨0, orderly_gather hholds rfl hshares ?_⟩
    rintro index begun ⟨earlier, hearlier, -⟩
    simp at hearlier
  | append_singleton moves move ih =>
    rw [List.map_append, List.map_singleton] at hpatient ⊢
    obtain ⟨done, horderly⟩ := ih (fun index h => hstay index (List.mem_append_left _ h))
      (fun h => hchanges (List.mem_append_left _ h)) (hpatient.mono (List.prefix_append _ _))
    have hlast : move ∈ moves ++ [move] := List.mem_append_right _ (List.mem_singleton.2 rfl)
    have hnow := hpatient _ (List.prefix_append (moves.map Move.watched) _)
    have hlength := length_run start (moves.map Move.watched)
    have hturned : ∀ {index begun},
        start.TurnedSince (moves.map Move.watched ++ [move.watched]) index begun → _ :=
      turnedSince_append_singleton
    rw [run_append_singleton] at hturned ⊢
    generalize start.run (moves.map Move.watched) = world at horderly hnow hlength hturned ⊢
    cases move with
    | drop index => exact (hstay index hlast).elim
    | change change =>
      refine ⟨done, horderly.of_tasks_eq ?_ rfl fun _ h => (hturned h).resolve_right ?_⟩
      · exact horderly.level.change (hchanges hlast horderly.level.tidy.holds) rfl
      · rintro ⟨⟨⟩, -⟩
    | turn index =>
      cases hstage : world.tasks[index]? with
      | none =>
        have hmake : world.make (.turn index) = world := by
          simp [make, World.turn, World.move, hstage]
        refine ⟨done, horderly.of_tasks_eq ?_ (congrArg World.tasks hmake) fun hlt h => ?_⟩
        · exact hmake.symm ▸ horderly.level
        · refine (hturned h).resolve_right ?_
          rintro ⟨⟨⟩, -⟩
          exact (List.getElem?_eq_none_iff.1 hstage).not_gt hlt
      | some stage =>
        have hmake : world.make (.turn index) =
            ⟨(stage.turn world.scene).2, world.tasks.set index (stage.turn world.scene).1⟩ := by
          simp [make, World.turn, World.move, hstage]
        have hindex := (List.getElem?_eq_some_iff.1 hstage).1
        refine hmake ▸ horderly.turn hstage (fun number hnumber => ?_) fun h => ?_
        · obtain ⟨hbegun, hended⟩ := horderly.ended hnumber
          refine (hnow number hbegun hended index (hlength ▸ hindex)).imp (fun hthrough => ?_) id
          obtain ⟨result, hreturned⟩ := horderly.exists_returned hthrough
          exact ⟨result, Option.some.inj (hstage.symm.trans hreturned)⟩
        · refine (hturned h).imp id ?_
          rintro ⟨hother, hbegun⟩
          exact ⟨(Move.turn.inj hother).symm,
            hbegun.trans_eq (congrArg (·.scene.listings.calls.length) hmake)⟩

theorem Orderly.requests_prefix (horderly : descent.Orderly turned world done) :
    world.scene.surroundings.state.requests <+: descent.plans.map ListingPlan.request := by
  have hinitial : ∀ count, descent.requests count <+: descent.plans.map ListingPlan.request :=
    fun count => (List.take_prefix _ _).map _
  rcases horderly.level with hidle | hbusy
  · exact hidle.requests ▸ hinitial done
  · obtain ⟨_, _, owed, -, -, -, hrequests⟩ := hbusy.running
    exact (hrequests ▸ List.prefix_append _ owed).trans (hinitial (done + 1))

/-- Once a task is through with all listings, each of them has been asked for. -/
theorem Orderly.requests_eq (horderly : descent.Orderly turned world done) {index : Nat} {result : α}
    (hreturned : world.result? index = some result) :
    world.scene.surroundings.state.requests = descent.plans.map ListingPlan.request := by
  rcases horderly.tasks (result?_eq_some_iff.1 hreturned) with ⟨-, -, rfl⟩ | ⟨_, hnext, -⟩
  · have hidle := horderly.level.idle_of_length_le le_rfl
    rw [hidle.requests, requests, List.take_length]
  · cases hnext

end Descent

namespace World

open Steady

variable {backend : Backend σ} {holds : σ → Prop}
  {awaits : ∀ {request}, backend.Flight request → Prop}
  {offered : Offer} {reply : (request : Request) → request.Answer}

/-- However many callers look for names in one directory, whether the names exist or not, the
    directory and each one above it is listed once for all of them, from the root on. It is enough
    that no listing comes to its end before each caller who is not through has had a turn. -/
theorem listed_once_run (hsteady : backend.Steady holds awaits offered reply)
    (hget : offered.get = false) (hgetRoot : offered.getRoot = false) {mount : Mount} {dir : Path}
    (hdir : IsDirectory offered reply mount dir) {names : List String} (hnames : names ≠ [])
    (hbelow : ∀ name ∈ names, ∃ segment, mount.pathOf name = .child dir segment)
    {surroundings : Surroundings σ} (hholds : holds surroundings.state) :
    let start : World backend.watched (Except Failure Answer) :=
      gatherCalls ⟨.begin surroundings.state, surroundings.log⟩ mount (names.map .stat)
    let listings := (dir.above ++ [dir]).map fun dir => (listing offered reply mount dir).request
    (∀ {moves : List (Move σ)}, (∀ index, .drop index ∉ moves) →
      (∀ {change}, .change change ∈ moves →
        ∀ {s : Surroundings σ}, holds s.state → holds (change s).state) →
      start.Patient (moves.map Move.watched) →
      (start.run (moves.map Move.watched)).scene.surroundings.state.requests <+: listings ∧
        ∀ {index result}, (start.run (moves.map Move.watched)).result? index = some result →
          (start.run (moves.map Move.watched)).scene.surroundings.state.requests = listings) ∧
    ∀ {course : Nat → Move σ}, (∀ {n change}, course n = .change change →
        ∀ {s : Surroundings σ}, holds s.state → holds (change s).state) →
      (∀ n, start.Patient (((List.range n).map course).map Move.watched)) →
      start.Fair (fun n => (course n).watched) →
      ∃ n, (∀ index < names.length, ∃ result,
          (start.after (fun n => (course n).watched) n).result? index = some result) ∧
        (start.after (fun n => (course n).watched) n).scene.surroundings.state.requests =
          listings := by
  intro start listings
  let descent : Descent backend :=
    ⟨holds, awaits, offered, reply, hsteady, (dir.above ++ [dir]).map (listing offered reply mount)⟩
  have hlistings : descent.plans.map ListingPlan.request = listings := List.map_map
  have hshares : ∀ procedure ∈ (names.map Call.stat).map (fun call => (call.operation mount).run),
      ∃ result, procedure.Shares offered reply descent.plans result := by
    intro procedure hprocedure
    obtain ⟨name, hname, rfl⟩ :
        ∃ name ∈ names, ((Call.stat name).operation mount).run = procedure := by
      simpa using hprocedure
    obtain ⟨segment, hpath⟩ := hbelow name hname
    exact exists_shares_stat hget hgetRoot hdir hpath
  have hrun : ∀ {moves : List (Move σ)}, (∀ index, .drop index ∉ moves) →
      (∀ {change}, .change change ∈ moves →
        ∀ {s : Surroundings σ}, holds s.state → holds (change s).state) →
      start.Patient (moves.map Move.watched) →
      (start.run (moves.map Move.watched)).scene.surroundings.state.requests <+: listings ∧
        ∀ {index result}, (start.run (moves.map Move.watched)).result? index = some result →
          (start.run (moves.map Move.watched)).scene.surroundings.state.requests = listings := by
    intro moves hstay hchanges hpatient
    obtain ⟨done, horderly⟩ := descent.orderly_run hholds hshares hstay hchanges hpatient
    rw [← hlistings]
    exact ⟨horderly.requests_prefix, fun hreturned => horderly.requests_eq hreturned⟩
  refine ⟨hrun, ?_⟩
  intro course hchanges hpatient hfair
  obtain ⟨n, hall⟩ := hfair.exists_returned
  have hafter : start.after (fun n => (course n).watched) n =
      start.run (((List.range n).map course).map Move.watched) := by
    rw [after_eq_run, List.map_map]
    rfl
  have hmem : ∀ {move}, move ∈ (List.range n).map course → ∃ k, course k = move := by
    intro move hmove
    obtain ⟨k, -, hk⟩ := List.mem_map.1 hmove
    exact ⟨k, hk⟩
  have hstay : ∀ index, .drop index ∉ (List.range n).map course := by
    intro index hdrop
    obtain ⟨k, hk⟩ := hmem hdrop
    exact hfair.stay k index (by rw [hk]; rfl)
  have hreturned : ∀ index < names.length, ∃ result,
      (start.after (fun n => (course n).watched) n).result? index = some result := by
    intro index hindex
    exact hall index (by simpa using hindex)
  refine ⟨n, hreturned, ?_⟩
  obtain ⟨result, hresult⟩ := hreturned 0 (List.length_pos_iff.2 hnames)
  rw [hafter] at hresult ⊢
  refine (hrun hstay (fun hchange => ?_) (hpatient n)).2 hresult
  obtain ⟨k, hk⟩ := hmem hchange
  exact hchanges hk

section Landing

open Scenario

/-- A store whose listings of the root and of its directory wait for gates. -/
def landing : Script where
  store := Mount.cabinet
  rules := [⟨"list", "/", 0, .before, some "outer", none⟩,
    ⟨"list", "/d", 0, .before, some "inner", none⟩]

def openGate (gate : String) (s : Surroundings Script) : Surroundings Script :=
  { s with state := { s.state with openGates := gate :: s.state.openGates } }

/-- The moves of two callers, of whom now the one and now the other is ahead. -/
def landingMoves : List (Move Script) :=
  [.turn 0, .turn 1, .change (openGate "outer"), .turn 1, .turn 0, .change (openGate "inner"),
    .turn 0, .turn 1]

/-- Two callers look for two names, of which one does not exist. -/
def landed : World Script.backend.watched (Except Failure Answer) :=
  gatherCalls ⟨.begin landing, []⟩ plainMount (["d/a", "d/b"].map .stat)

theorem patient_landed : landed.Patient (landingMoves.map Move.watched) := by
  decide +kernel

/-- Both directories are listed once for the two callers. -/
theorem listed_once_run_landed :
    let world := landed.run (landingMoves.map Move.watched)
    (world.result? 0).isSome = true ∧ (world.result? 1).isSome = true ∧
      world.scene.surroundings.state.requests =
        [.list { id := "/", name := "root", isFolder := true } false,
          .list { id := "/d", path := "/d", name := "d", isFolder := true } false] := by
  have hreturned : ((landed.run (landingMoves.map Move.watched)).result? 0).isSome = true := by
    decide +kernel
  have hreturned' : ((landed.run (landingMoves.map Move.watched)).result? 1).isSome = true := by
    decide +kernel
  obtain ⟨result, hresult⟩ := Option.isSome_iff_exists.1 hreturned
  refine ⟨hreturned, hreturned', ?_⟩
  have halike : ∀ rule ∈ landing.rules, rule.nth = 0 := by simp [landing]
  have hdir : IsDirectory landing.store.offer (Script.reply landing.store landing.rules) plainMount
      (.child .root ⟨"d", by decide⟩) :=
    ⟨_, rfl, rfl⟩
  have hbelow : ∀ name ∈ ["d/a", "d/b"], ∃ segment,
      plainMount.pathOf name = .child (.child .root ⟨"d", by decide⟩) segment := by
    simp only [List.mem_cons, List.not_mem_nil, or_false]
    rintro name (rfl | rfl)
    · exact ⟨⟨"a", by decide⟩, by decide +kernel⟩
    · exact ⟨⟨"b", by decide⟩, by decide +kernel⟩
  have hchanges : ∀ {change}, Move.change change ∈ landingMoves → ∀ {s : Surroundings Script},
      Script.Stands landing.store landing.rules s.state →
        Script.Stands landing.store landing.rules (change s).state := by
    intro change hchange s hstands
    have hgate : change = openGate "outer" ∨ change = openGate "inner" := by
      simpa [landingMoves] using hchange
    rcases hgate with rfl | rfl
    · exact hstands
    · exact hstands
  have hstands : Script.Stands landing.store landing.rules
      (⟨landing, []⟩ : Surroundings Script).state := ⟨rfl, rfl⟩
  exact ((listed_once_run (Script.steady halike) rfl rfl hdir (by simp) hbelow hstands).1
    (by simp [landingMoves]) hchanges patient_landed).2 hresult

end Landing

end World

end VirtualFs
