import VirtualFs.SharedCalls
import VirtualFs.Request

namespace VirtualFs

/-- A listing of a directory that overlapping callers of one mount share. It carries all that the
    shared call needs, whoever ends up driving it. -/
structure ListingPlan where
  mount : Nat
  dir : Path
  object : Object
  mapping : NameMapping

abbrev Listing : Type := Except Failure (List Entry)

namespace ListingPlan

/-- Listings of one directory are shared within a mount only. -/
def key (plan : ListingPlan) : Nat × Path :=
  (plan.mount, plan.dir)

def request (plan : ListingPlan) : Request :=
  .list plan.object false

def attempt (dir : Path) : String :=
  "failed to list objs [" ++ dir.text ++ "]"

/-- The entries that an answer stands for, in the backend's order. -/
def finish (plan : ListingPlan) (answer : plan.request.Answer) : Listing :=
  match (answer : Except Failure (List Object)) with
  | .ok objects => .ok (objects.map (Entry.ofObject · plan.mapping))
  | .error failure => .error (failure.during (attempt plan.dir))

end ListingPlan

/-- The steps of one caller, each after the first a function of what the world answered. A procedure
    says what is asked and what is done with the answer, never when the answer comes. -/
inductive Procedure (α : Type) where
  | done (result : α)
  | log (event : LogEvent) (next : Procedure α)
  /-- Look at what the backend can do right now. -/
  | offer (next : Offer → Procedure α)
  /-- Look at the clock. -/
  | now (next : UInt64 → Procedure α)
  | ask (request : Request) (next : request.Answer → Procedure α)
  /-- Take part in a listing. -/
  | share (plan : ListingPlan) (next : Outcome Listing → Procedure α)

namespace Procedure

variable {α β : Type}

protected def bind : Procedure α → (α → Procedure β) → Procedure β
  | done result, f => f result
  | log event next, f => log event (next.bind f)
  | offer next, f => offer (fun answer => (next answer).bind f)
  | now next, f => now (fun time => (next time).bind f)
  | ask request next, f => ask request (fun answer => (next answer).bind f)
  | share plan next, f => share plan (fun outcome => (next outcome).bind f)

instance : Monad Procedure where
  pure := done
  bind := Procedure.bind

theorem bind_done (procedure : Procedure α) : procedure.bind done = procedure := by
  induction procedure with
  | done => rfl
  | log event next ih => exact congrArg (log event) ih
  | offer next ih => exact congrArg offer (funext ih)
  | now next ih => exact congrArg now (funext ih)
  | ask request next ih => exact congrArg (ask request) (funext ih)
  | share plan next ih => exact congrArg (share plan) (funext ih)

theorem bind_assoc {γ : Type} (procedure : Procedure α) (f : α → Procedure β)
    (g : β → Procedure γ) :
    (procedure.bind f).bind g = procedure.bind (fun result => (f result).bind g) := by
  induction procedure with
  | done => rfl
  | log event next ih => exact congrArg (log event) ih
  | offer next ih => exact congrArg offer (funext ih)
  | now next ih => exact congrArg now (funext ih)
  | ask request next ih => exact congrArg (ask request) (funext ih)
  | share plan next ih => exact congrArg (share plan) (funext ih)

instance : LawfulMonad Procedure :=
  LawfulMonad.mk' Procedure bind_done (fun _ _ => rfl) bind_assoc

end Procedure

/-- A procedure that may fail. -/
abbrev Operation (α : Type) : Type :=
  ExceptT Failure Procedure α

namespace Operation

variable {α : Type}

def log (event : LogEvent) : Operation Unit :=
  ExceptT.mk (.log event (.done (.ok ())))

def offer : Operation Offer :=
  ExceptT.mk (.offer (fun answer => .done (.ok answer)))

def now : Operation UInt64 :=
  ExceptT.mk (.now (fun time => .done (.ok time)))

def ask (request : Request) : Operation request.Reply :=
  ExceptT.mk (.ask request .done)

/-- Take part in a listing. If the caller that began it goes away, so does the answer. -/
def share (plan : ListingPlan) : Operation (List Entry) :=
  ExceptT.mk (.share plan (fun
    | .value listing => .done listing
    | .aborted =>
      .done (.error (Failure.during (Cause.cancelled : Failure) (ListingPlan.attempt plan.dir)))))

def fail (failure : Failure) : Operation α :=
  ExceptT.mk (.done (.error failure))

/-- Continue with a result that is already known. -/
def require (result : Except Failure α) : Operation α :=
  ExceptT.mk (.done result)

/-- Carry out an operation and go on whether or not it fails. -/
def attempt (operation : Operation α) : Operation (Except Failure α) :=
  ExceptT.mk (operation.run.bind (fun result => .done (.ok result)))

/-- Say what a failure spoiled. -/
def during (attempt : String) (operation : Operation α) : Operation α :=
  ExceptT.mk (operation.run.bind (fun result => .done (result.mapError (·.during attempt))))

end Operation

end VirtualFs
