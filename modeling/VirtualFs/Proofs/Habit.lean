import VirtualFs.Build
import VirtualFs.Call

namespace VirtualFs

variable {α β : Type}

/-- What callers do as a rule: the lines that they leave in the log, and the listings in which they
    take part. -/
structure Habit where
  Notes : LogEvent → Prop
  Shares : ListingPlan → Prop

namespace Procedure

/-- Whatever a procedure is answered, it does nothing but what callers do as a rule. -/
def KeepsTo (habit : Habit) : Procedure α → Prop
  | .done _ => True
  | .log event next => habit.Notes event ∧ next.KeepsTo habit
  | .offer next => ∀ answer, (next answer).KeepsTo habit
  | .now next => ∀ time, (next time).KeepsTo habit
  | .ask _ next => ∀ answer, (next answer).KeepsTo habit
  | .share plan next => habit.Shares plan ∧ ∀ outcome, (next outcome).KeepsTo habit

variable {habit : Habit}

theorem KeepsTo.bind {procedure : Procedure α} {f : α → Procedure β}
    (hprocedure : procedure.KeepsTo habit) (hf : ∀ value, (f value).KeepsTo habit) :
    (procedure.bind f).KeepsTo habit := by
  induction procedure with
  | done value => exact hf value
  | log event next ih => exact ⟨hprocedure.1, ih hprocedure.2⟩
  | offer next ih => exact fun answer => ih answer (hprocedure answer)
  | now next ih => exact fun time => ih time (hprocedure time)
  | ask request next ih => exact fun answer => ih answer (hprocedure answer)
  | share plan next ih => exact ⟨hprocedure.1, fun outcome => ih outcome (hprocedure.2 outcome)⟩

end Procedure

namespace Operation

/-- The same of an operation, whether or not it fails. -/
def KeepsTo (habit : Habit) (operation : Operation α) : Prop :=
  operation.run.KeepsTo habit

variable {habit : Habit} {operation : Operation α}

theorem keepsTo_require (known : Except Failure α) : (require known).KeepsTo habit :=
  trivial

theorem keepsTo_pure (value : α) : (pure value : Operation α).KeepsTo habit :=
  trivial

theorem keepsTo_fail (failure : Failure) : (fail failure : Operation α).KeepsTo habit :=
  trivial

theorem keepsTo_log {event : LogEvent} (hnotes : habit.Notes event) :
    (log event).KeepsTo habit :=
  ⟨hnotes, trivial⟩

theorem keepsTo_offer : offer.KeepsTo habit :=
  fun _ => trivial

theorem keepsTo_now : now.KeepsTo habit :=
  fun _ => trivial

theorem keepsTo_ask (request : Request) : (ask request).KeepsTo habit :=
  fun _ => trivial

theorem keepsTo_share {plan : ListingPlan} (hshares : habit.Shares plan) :
    (share plan).KeepsTo habit := by
  refine ⟨hshares, fun outcome => ?_⟩
  cases outcome with
  | value listing => trivial
  | aborted => trivial

theorem KeepsTo.bind {f : α → Operation β} (hoperation : operation.KeepsTo habit)
    (hf : ∀ value, (f value).KeepsTo habit) : (operation >>= f).KeepsTo habit := by
  refine Procedure.KeepsTo.bind hoperation fun result => ?_
  cases result with
  | ok value => exact hf value
  | error failure => trivial

/-- Only a success that is known already has to be gone on with. -/
theorem keepsTo_require_bind {known : Except Failure α} {f : α → Operation β}
    (hf : ∀ value, known = .ok value → (f value).KeepsTo habit) :
    (require known >>= f).KeepsTo habit := by
  cases known with
  | ok value => exact hf value rfl
  | error failure => exact keepsTo_fail failure

theorem KeepsTo.attempt (hoperation : operation.KeepsTo habit) :
    (attempt operation).KeepsTo habit :=
  Procedure.KeepsTo.bind hoperation fun _ => trivial

theorem KeepsTo.during (hoperation : operation.KeepsTo habit) (what : String) :
    (during what operation).KeepsTo habit :=
  Procedure.KeepsTo.bind hoperation fun _ => trivial

end Operation

/-- An event that shows the settings of a backend. -/
def LogEvent.OfSettings : LogEvent → Prop
  | initializing _ => True
  | _ => False

namespace Mount

open Operation

/-- Callers of a mount log no settings, and take part in listings of this mount only, of which the
    entries are shown under the names that its mapping gives them. -/
def habit (mount : Mount) : Habit where
  Notes event := ¬ event.OfSettings
  Shares plan := plan.mount = mount.number ∧ plan.mapping = mount.mapping

variable {mount : Mount}

theorem keepsTo_direct (path : Path) {longWay : Operation Entry}
    (hlongWay : longWay.KeepsTo mount.habit) : (mount.direct path longWay).KeepsTo mount.habit := by
  refine keepsTo_offer.bind fun offer => ?_
  split
  case isFalse => exact hlongWay
  case isTrue =>
    refine (keepsTo_ask _).attempt.bind fun answer => ?_
    cases answer with
    | ok object => exact keepsTo_pure _
    | error failure => exact (keepsTo_log id).bind fun _ => hlongWay

theorem keepsTo_describeRoot : mount.describeRoot.KeepsTo mount.habit := by
  refine keepsTo_offer.bind fun offer => ?_
  refine (keepsTo_require _).bind fun source => ?_
  refine (keepsTo_log id).bind fun _ => ?_
  cases source with
  | asked => exact ((keepsTo_ask _).during _).bind fun _ => keepsTo_pure _
  | id id => exact keepsTo_pure _
  | path path => exact keepsTo_pure _

theorem keepsTo_listFound (dir : Path) {find : Operation Entry} (hfind : find.KeepsTo mount.habit) :
    (mount.listFound dir find).KeepsTo mount.habit := by
  refine hfind.bind fun entry => ?_
  split
  case isTrue => exact keepsTo_share ⟨rfl, rfl⟩
  case isFalse => exact keepsTo_fail _

/-- By induction on the path: a level adds a listing of the one above. -/
theorem keepsTo_lookup (path : Path) : (mount.lookup path).KeepsTo mount.habit := by
  induction path with
  | root =>
    rw [lookup]
    exact keepsTo_direct _ keepsTo_describeRoot
  | child dir name ih =>
    rw [lookup]
    refine keepsTo_direct _ ?_
    exact ((keepsTo_listFound dir ih).during _).bind fun _ => keepsTo_require _

theorem keepsTo_listAfresh (parent : Entry) (dir : Path) (name : Segment) :
    (mount.listAfresh parent dir name).KeepsTo mount.habit :=
  ((keepsTo_ask _).during _).bind fun _ => keepsTo_require _

theorem keepsTo_findOrMake {find make : Operation Entry} (hfind : find.KeepsTo mount.habit)
    (hmake : make.KeepsTo mount.habit) : (findOrMake find make).KeepsTo mount.habit := by
  refine hfind.attempt.bind fun found => ?_
  cases found with
  | ok entry => exact keepsTo_pure _
  | error failure =>
    dsimp only
    split
    case isTrue => exact hmake
    case isFalse => exact keepsTo_fail _

theorem keepsTo_create (parent : Entry) (name : Segment) (form : Form) :
    (create parent name form).KeepsTo mount.habit := by
  cases form with
  | reporting => exact keepsTo_ask _
  | plain => exact (keepsTo_ask _).bind fun _ => keepsTo_pure _

theorem keepsTo_createIn (parent : Entry) (dir : Path) (name : Segment) :
    (mount.createIn parent dir name).KeepsTo mount.habit := by
  refine keepsTo_offer.bind fun offer => ?_
  refine (keepsTo_require _).bind fun form => ?_
  refine (keepsTo_create parent name form).attempt.bind fun answer => ?_
  have hend : ∀ entry : Entry, (do
      log (.directoryReady (.child dir name))
      pure entry : Operation Entry).KeepsTo mount.habit :=
    fun entry => (keepsTo_log id).bind fun _ => keepsTo_pure _
  match answer with
  | .ok (some object) => exact hend _
  | .ok none => exact (keepsTo_listAfresh parent dir name).bind hend
  | .error failure =>
    refine (keepsTo_listAfresh parent dir name).attempt.bind fun found => ?_
    cases found with
    | error _ => exact (keepsTo_fail _).bind hend
    | ok entry =>
      dsimp only
      split
      case isTrue => exact (keepsTo_log id).bind fun _ => hend entry
      case isFalse => exact (keepsTo_fail _).bind hend

theorem keepsTo_makeDirs (path : Path) : (mount.makeDirs path).KeepsTo mount.habit := by
  induction path with
  | root => exact keepsTo_lookup .root
  | child dir name ih =>
    refine (keepsTo_lookup _).attempt.bind fun found => ?_
    cases found with
    | ok entry =>
      dsimp only
      split
      case isTrue => exact keepsTo_pure _
      case isFalse => exact keepsTo_fail _
    | error failure =>
      dsimp only
      split
      case isTrue =>
        exact (keepsTo_findOrMake (keepsTo_lookup dir) ih).bind
          fun parent => keepsTo_createIn parent dir name
      case isFalse => exact keepsTo_fail _

theorem keepsTo_delete (name : String) : (mount.delete name).KeepsTo mount.habit := by
  refine (keepsTo_lookup _).attempt.bind fun found => ?_
  cases found with
  | ok entry =>
    refine keepsTo_offer.bind fun offer => ?_
    exact (keepsTo_require _).bind fun _ => (keepsTo_ask _).during _
  | error failure =>
    dsimp only
    split
    case isTrue => exact keepsTo_log id
    case isFalse => exact keepsTo_fail _

theorem keepsTo_ofLink (file : Entry) (opener : Option Opener) (link : Link) :
    (Readable.ofLink file opener link).KeepsTo mount.habit := by
  cases link with
  | data content => exact keepsTo_pure _
  | reader reader => exact keepsTo_pure _
  | url address headers =>
    cases opener with
    | none => exact keepsTo_fail _
    | some opener => exact (keepsTo_ask _).bind fun _ => keepsTo_pure _

theorem keepsTo_readable_read (readable : Readable) (range : ByteRange) :
    (readable.read range).KeepsTo mount.habit := by
  refine (keepsTo_log id).bind fun _ => ?_
  exact (keepsTo_ask (.readRange _ _)).bind fun _ => keepsTo_pure _

theorem keepsTo_read (name : String) (offset length : UInt64) :
    (mount.read name offset length).KeepsTo mount.habit := by
  refine ((keepsTo_lookup _).during _).bind fun file => ?_
  split
  case isTrue => exact keepsTo_fail _
  case isFalse =>
    refine ((keepsTo_ask _).during _).bind fun link => ?_
    refine ((keepsTo_ofLink file mount.opener link).during _).bind fun readable => ?_
    exact keepsTo_readable_read readable _

theorem keepsTo_write (name : String) (content : List UInt8) :
    (mount.write name content).KeepsTo mount.habit := by
  unfold write
  dsimp only
  cases mount.pathOf name with
  | root => exact keepsTo_fail _
  | child dir base =>
    dsimp only
    split
    case isTrue => exact keepsTo_fail _
    case isFalse =>
      refine keepsTo_offer.bind fun offer => ?_
      refine (keepsTo_require _).bind fun form => ?_
      refine keepsTo_now.bind fun time => ?_
      refine ((keepsTo_makeDirs dir).during _).bind fun parent => ?_
      exact (keepsTo_ask _).during _

theorem keepsTo_writeFrom (name : String) (source : Stream) :
    (mount.writeFrom name source).KeepsTo mount.habit :=
  (keepsTo_ask (.drain source)).bind fun content => keepsTo_write name content

/-- A build keeps to what the callers of its mount do as a rule. -/
theorem keepsTo_build {config : Config} (hmapping : config.mapping = mount.mapping)
    (opener : Option Opener) : (build mount.number config opener).KeepsTo mount.habit := by
  unfold build
  refine keepsTo_require_bind fun config' hchecked => ?_
  let built := ofConfig mount.number config' opener
  have hhabit : built.habit = mount.habit := by
    simp only [habit, built, ofConfig, Config.eq_of_checked hchecked, hmapping]
  rw [← hhabit]
  refine keepsTo_offer.bind fun offer => ?_
  refine (keepsTo_log id).bind fun _ => ?_
  have hmake : (built.makeDirs built.base).KeepsTo built.habit := keepsTo_makeDirs _
  refine (hmake.during _).bind fun _ => ?_
  exact (keepsTo_log id).bind fun _ => keepsTo_pure _

end Mount

end VirtualFs
