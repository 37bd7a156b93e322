import VirtualFs.Call
import VirtualFs.Proofs.Alone
import VirtualFs.Proofs.Reading.Steady

namespace VirtualFs

variable {α β : Type}

namespace Path

/-- The directories above a path, outermost first. -/
def above : Path → List Path
  | root => []
  | child dir _ => dir.above ++ [dir]

end Path

section Shares

variable (offered : Offer) (reply : (request : Request) → request.Answer)

/-- Over a backend that always answers the same, a procedure asks nothing for itself. It takes part
    in the listings of some plans, one after the other, and comes to a result. -/
inductive Procedure.Shares : Procedure α → List ListingPlan → α → Prop
  | done (result : α) : Shares (.done result) [] result
  | log {event : LogEvent} {next : Procedure α} {plans : List ListingPlan} {result : α}
      (later : Shares next plans result) : Shares (.log event next) plans result
  | offer {next : Offer → Procedure α} {plans : List ListingPlan} {result : α}
      (later : Shares (next offered) plans result) : Shares (.offer next) plans result
  | share {plan : ListingPlan} {next : Outcome Listing → Procedure α} {plans : List ListingPlan}
      {result : α} (later : Shares (next (.value (plan.finish (reply plan.request)))) plans result) :
      Shares (.share plan next) (plan :: plans) result

/-- The same of an operation. -/
def Operation.Shares (operation : Operation α) (plans : List ListingPlan)
    (result : Except Failure α) : Prop :=
  operation.run.Shares offered reply plans result

end Shares

variable {offered : Offer} {reply : (request : Request) → request.Answer}
  {plans more : List ListingPlan}

theorem Procedure.Shares.bind {procedure : Procedure α} {f : α → Procedure β} {value : α}
    {result : β} (hprocedure : procedure.Shares offered reply plans value)
    (hf : (f value).Shares offered reply more result) :
    (procedure.bind f).Shares offered reply (plans ++ more) result := by
  induction hprocedure with
  | done => exact hf
  | log _ ih => exact .log (ih hf)
  | offer _ ih => exact .offer (ih hf)
  | share _ ih => exact .share (ih hf)

/-- With nobody else about the procedure comes to that result. -/
theorem Procedure.Shares.alone_eq {procedure : Procedure α} {result : α}
    (hprocedure : procedure.Shares offered reply plans result) :
    (procedure.alone (Steady.service offered reply) ()).1 = result := by
  induction hprocedure with
  | done => rfl
  | log _ ih => exact ih
  | offer _ ih => exact ih
  | share _ ih => exact ih

namespace Operation

variable {operation : Operation α}

theorem shares_require (result : Except Failure α) :
    (require result).Shares offered reply [] result :=
  .done result

theorem shares_offer : offer.Shares offered reply [] (.ok offered) :=
  .offer (.done _)

theorem shares_log (event : LogEvent) : (log event).Shares offered reply [] (.ok ()) :=
  .log (.done _)

theorem shares_share (plan : ListingPlan) :
    (share plan).Shares offered reply [plan] (plan.finish (reply plan.request)) :=
  .share (.done _)

theorem Shares.bind {f : α → Operation β} {value : α} {result : Except Failure β}
    (hoperation : operation.Shares offered reply plans (.ok value))
    (hf : (f value).Shares offered reply more result) :
    (operation >>= f).Shares offered reply (plans ++ more) result :=
  Procedure.Shares.bind hoperation hf

theorem Shares.bind_error {f : α → Operation β} {failure : Failure}
    (hoperation : operation.Shares offered reply plans (.error failure)) :
    (operation >>= f).Shares offered reply plans (.error failure) := by
  have hbind :=
    Procedure.Shares.bind (f := ExceptT.bindCont f) hoperation (.done (Except.error failure))
  rwa [List.append_nil] at hbind

theorem Shares.during (attempt : String) {result : Except Failure α}
    (hoperation : operation.Shares offered reply plans result) :
    (during attempt operation).Shares offered reply plans (result.mapError (·.during attempt)) := by
  have hbind := Procedure.Shares.bind
    (f := fun result => .done (result.mapError (·.during attempt))) hoperation (.done _)
  rwa [List.append_nil] at hbind

theorem Shares.map {result : Except Failure α} (f : α → β)
    (hoperation : operation.Shares offered reply plans result) :
    (f <$> operation).Shares offered reply plans (result.map f) := by
  rw [← bind_pure_comp]
  cases result with
  | error failure => exact hoperation.bind_error
  | ok value =>
    have hbind := hoperation.bind (f := fun value => pure (f value)) (shares_require (.ok (f value)))
    rwa [List.append_nil] at hbind

end Operation

namespace Steady

variable (offered reply)

/-- What a path leads to with nobody else about. -/
def found (mount : Mount) (path : Path) : Except Failure Entry :=
  ((mount.lookup path).alone (service offered reply) ()).1

/-- The directory at a path exists. -/
def IsDirectory (mount : Mount) (path : Path) : Prop :=
  ∃ entry, found offered reply mount path = .ok entry ∧ entry.isDir = true

/-- The listing of the object that a path leads to. -/
def listing (mount : Mount) (dir : Path) : ListingPlan where
  mount := mount.number
  dir := dir
  object := match found offered reply mount dir with
    | .ok entry => entry.object
    | .error _ => {}
  mapping := mount.mapping

variable {offered reply} {mount : Mount}

theorem listing_eq {dir : Path} {entry : Entry}
    (hfound : found offered reply mount dir = .ok entry) :
    listing offered reply mount dir = ⟨mount.number, dir, entry.object, mount.mapping⟩ := by
  rw [listing, hfound]

/-- What lies below a path cannot be found unless the path leads to a directory. -/
theorem isDirectory_of_found (hget : offered.get = false) {dir : Path} {name : Segment}
    {entry : Entry} (hfound : found offered reply mount (.child dir name) = .ok entry) :
    IsDirectory offered reply mount dir := by
  have hlongWay : ((service offered reply).offer ()).get = false := hget
  rw [found, Mount.lookup, Mount.alone_direct hlongWay, Operation.alone_bind, Operation.alone_during,
    Mount.listFound, Operation.alone_bind] at hfound
  cases hdir : (mount.lookup dir).alone (service offered reply) () with
  | mk result state =>
    cases result with
    | error failure =>
      rw [hdir] at hfound
      cases hfound
    | ok parent =>
      rw [hdir] at hfound
      have hparent : found offered reply mount dir = .ok parent := congrArg Prod.fst hdir
      refine ⟨parent, hparent, Decidable.byContradiction fun hfile => ?_⟩
      dsimp only at hfound
      rw [if_neg hfile] at hfound
      cases hfound

theorem shares_direct (hget : offered.get = false) {path : Path} {longWay : Operation Entry}
    {result : Except Failure Entry} (hlongWay : longWay.Shares offered reply plans result) :
    (mount.direct path longWay).Shares offered reply plans result := by
  refine Operation.shares_offer.bind ?_
  rw [hget]
  exact hlongWay

variable (reply mount) in
theorem exists_shares_describeRoot (hgetRoot : offered.getRoot = false) :
    ∃ result, mount.describeRoot.Shares offered reply [] result := by
  have hsource : ∀ source, offered.rootSource = .ok source → source ≠ .asked := by
    rintro source hsource rfl
    rw [Offer.rootSource, hgetRoot] at hsource
    split at hsource
    case isTrue h => cases h
    case isFalse => split at hsource <;> cases hsource
  cases hoffered : offered.rootSource with
  | error failure =>
    refine ⟨.error failure, Operation.shares_offer.bind (Operation.Shares.bind_error ?_)⟩
    rw [hoffered]
    exact Operation.shares_require _
  | ok source =>
    have hrequire : (Operation.require offered.rootSource).Shares offered reply [] (.ok source) :=
      hoffered ▸ Operation.shares_require _
    cases source with
    | asked => exact (hsource _ hoffered rfl).elim
    | id id =>
      exact ⟨_, Operation.shares_offer.bind
        (hrequire.bind ((Operation.shares_log _).bind (Operation.shares_require _)))⟩
    | path path =>
      exact ⟨_, Operation.shares_offer.bind
        (hrequire.bind ((Operation.shares_log _).bind (Operation.shares_require _)))⟩

/-- Looking up a name in a directory takes one listing more than looking up the directory. -/
theorem exists_shares_lookup_child (hget : offered.get = false) {dir : Path} {parent : Entry}
    (hfound : found offered reply mount dir = .ok parent) (hdir : parent.isDir = true)
    (hlookup : (mount.lookup dir).Shares offered reply plans (.ok parent)) (name : Segment) :
    ∃ result, (mount.lookup (.child dir name)).Shares offered reply
      (plans ++ [listing offered reply mount dir]) result := by
  let plan := listing offered reply mount dir
  have hlist : (mount.listFound dir (mount.lookup dir)).Shares offered reply (plans ++ [plan])
      (plan.finish (reply plan.request)) := by
    refine hlookup.bind ?_
    rw [if_pos hdir, ← listing_eq hfound]
    exact Operation.shares_share _
  rw [Mount.lookup]
  cases hlisted : plan.finish (reply plan.request) with
  | error failure =>
    rw [hlisted] at hlist
    exact ⟨_, shares_direct hget (hlist.during _).bind_error⟩
  | ok entries =>
    rw [hlisted] at hlist
    have hpick := (hlist.during "failed get parent list").bind
      (f := fun entries => Operation.require (Mount.pick name entries)) (Operation.shares_require _)
    rw [List.append_nil] at hpick
    exact ⟨_, shares_direct hget hpick⟩

/-- A lookup that succeeds lists each directory above the path once, from the root on. -/
theorem shares_lookup (hget : offered.get = false) (hgetRoot : offered.getRoot = false)
    {path : Path} {entry : Entry} (hfound : found offered reply mount path = .ok entry) :
    (mount.lookup path).Shares offered reply (path.above.map (listing offered reply mount))
      (.ok entry) := by
  induction path generalizing entry with
  | root =>
    obtain ⟨result, hshares⟩ := exists_shares_describeRoot reply mount hgetRoot
    have hdirect : (mount.lookup .root).Shares offered reply [] result := by
      rw [Mount.lookup]
      exact shares_direct hget hshares
    have hresult : found offered reply mount .root = result := hdirect.alone_eq
    rw [hfound] at hresult
    rwa [← hresult] at hdirect
  | child dir name ih =>
    obtain ⟨parent, hparent, hdir⟩ := isDirectory_of_found hget hfound
    obtain ⟨result, hshares⟩ := exists_shares_lookup_child hget hparent hdir (ih hparent) name
    have hresult : found offered reply mount (.child dir name) = result := hshares.alone_eq
    rw [hfound] at hresult
    rwa [← hresult, ← List.map_singleton, ← List.map_append] at hshares

/-- Looking up a name in a directory lists the directory and each one above it once, whether or not
    the name is found. -/
theorem exists_shares_lookup (hget : offered.get = false) (hgetRoot : offered.getRoot = false)
    {dir : Path} (hdir : IsDirectory offered reply mount dir) (name : Segment) :
    ∃ result, (mount.lookup (.child dir name)).Shares offered reply
      ((dir.above ++ [dir]).map (listing offered reply mount)) result := by
  obtain ⟨entry, hfound, hisDir⟩ := hdir
  rw [List.map_append, List.map_singleton]
  exact exists_shares_lookup_child hget hfound hisDir (shares_lookup hget hgetRoot hfound) name

/-- The same of a call that asks for the name. -/
theorem exists_shares_stat (hget : offered.get = false) (hgetRoot : offered.getRoot = false)
    {dir : Path} (hdir : IsDirectory offered reply mount dir) {name : String} {segment : Segment}
    (hpath : mount.pathOf name = .child dir segment) :
    ∃ result, ((Call.stat name).operation mount).Shares offered reply
      ((dir.above ++ [dir]).map (listing offered reply mount)) result := by
  obtain ⟨result, hlookup⟩ := exists_shares_lookup hget hgetRoot hdir segment
  refine ⟨result.map Answer.entry, ?_⟩
  rw [Call.operation, Mount.stat, hpath]
  exact hlookup.map _

end Steady

end VirtualFs
