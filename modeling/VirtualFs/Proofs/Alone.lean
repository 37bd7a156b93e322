import VirtualFs.Alone
import VirtualFs.Lookup
import VirtualFs.Proofs.Operation

namespace VirtualFs

variable {σ τ α : Type}

/-- A behaviour that grants all the uses of another and can be counted on for at least as much. -/
structure Behaviour.Extends (behaviour other : Behaviour τ) : Prop where
  uses : ∀ {request t}, other.Uses request t → behaviour.Uses request t
  offers : ∀ {t offer}, behaviour.offers t offer → other.offers t offer
  permits : ∀ {request t answer t'}, other.Uses request t → behaviour.permits request t answer t' →
    other.permits request t answer t'

/-- A service behaves in a certain way. -/
structure Service.Obeys (service : Service σ) (behaviour : Behaviour τ) (shows : σ → τ → Prop) :
    Prop where
  offer : ∀ {s t}, shows s t → behaviour.offers t (service.offer s)
  answer : ∀ {s t} request, behaviour.Uses request t → shows s t →
    ∃ t', behaviour.permits request t (service.answer request s).1 t' ∧
      shows (service.answer request s).2 t'

variable {service : Service σ} {behaviour other : Behaviour τ} {shows : σ → τ → Prop} {s : σ}
  {t : τ}

theorem Service.Obeys.of_extends (hobeys : service.Obeys behaviour shows)
    (hextends : behaviour.Extends other) : service.Obeys other shows where
  offer hshows := hextends.offers (hobeys.offer hshows)
  answer request huses hshows := by
    obtain ⟨t', hpermits, hshows'⟩ := hobeys.answer request (hextends.uses huses) hshows
    exact ⟨t', hextends.permits huses hpermits, hshows'⟩

variable {accord : Accord behaviour}

/-- A procedure that is safe among others is safe with nobody else about. No listing is ever aborted
    then. -/
theorem Procedure.Safe.alone {post : Bool → τ → α → Prop} {procedure : Procedure α}
    (hobeys : service.Obeys behaviour shows) (hsafe : procedure.Safe accord post false t)
    (hshows : shows s t) :
    ∃ t', accord.Leads t t' ∧ shows (procedure.alone service s).2 t' ∧
      post false t' (procedure.alone service s).1 := by
  induction procedure generalizing s t with
  | done result => exact ⟨t, accord.refl t, hshows, hsafe (accord.refl t)⟩
  | log event next ih => exact ih hsafe hshows
  | offer next ih => exact ih _ (hsafe (accord.refl t) (hobeys.offer hshows)) hshows
  | now next ih => exact ih _ (hsafe _) hshows
  | ask request next ih =>
    obtain ⟨huses, hnext⟩ := hsafe (accord.refl t)
    obtain ⟨t', hpermits, hshows'⟩ := hobeys.answer request huses hshows
    obtain ⟨hdoes, hsafe'⟩ := hnext hpermits
    have hleads := accord.does hdoes
    obtain ⟨t'', hleads', hend⟩ := ih _ hsafe' hshows'
    exact ⟨t'', accord.trans hleads hleads', hend⟩
  | share plan next ih =>
    obtain ⟨hshareable, hvalue, -⟩ := hsafe
    obtain ⟨t', hpermits, hshows'⟩ := hobeys.answer plan.request (behaviour.lists _ t) hshows
    have hleads := accord.listed hpermits
    have hknown : accord.Known plan.key (plan.finish (service.answer plan.request s).1) t' :=
      ⟨plan, _, rfl, ⟨t, t', hshareable, hpermits, accord.since_refl plan t'⟩, rfl⟩
    obtain ⟨t'', hleads', hend⟩ := ih _ (hvalue hleads hknown) hshows'
    exact ⟨t'', accord.trans hleads hleads', hend⟩

theorem Operation.Safe.alone {post : Bool → τ → Except Failure α → Prop} {operation : Operation α}
    (hobeys : service.Obeys behaviour shows) (hsafe : operation.Safe accord post false t)
    (hshows : shows s t) :
    ∃ t', accord.Leads t t' ∧ shows (operation.alone service s).2 t' ∧
      post false t' (operation.alone service s).1 :=
  hsafe.run.alone hobeys hshows

/-- A backend without direct access is asked the long way. -/
theorem Mount.alone_direct {mount : Mount} (hget : (service.offer s).get = false) (path : Path)
    (longWay : Operation Entry) :
    (mount.direct path longWay).alone service s = longWay.alone service s := by
  simp [direct, Operation.alone_bind, hget]

/-- What lies in a directory that has been found is picked from a listing of it. -/
theorem Mount.alone_lookup_child {mount : Mount} {dir : Path} {parent : Entry}
    {objects : List Object} {s₁ s₂ : σ} (hget : (service.offer s).get = false)
    (hparent : (mount.lookup dir).alone service s = (.ok parent, s₁)) (hdir : parent.isDir = true)
    (hanswer : service.answer (.list parent.object false) s₁ = (.ok objects, s₂)) (name : Segment) :
    (mount.lookup (dir.child name)).alone service s =
      (pick name (objects.map (Entry.ofObject · mount.mapping)), s₂) := by
  rw [lookup, alone_direct hget, Operation.alone_bind, Operation.alone_during, listFound,
    Operation.alone_bind_of_ok hparent, if_pos hdir, Operation.alone_share]
  simp only [ListingPlan.request, hanswer]
  rfl

/-- Where the directory above a path is not found, neither is the path. -/
theorem Mount.alone_lookup_child_of_error {mount : Mount} {dir : Path} {failure : Failure} {s₁ : σ}
    (hget : (service.offer s).get = false)
    (hparent : (mount.lookup dir).alone service s = (.error failure, s₁)) (name : Segment) :
    (mount.lookup (dir.child name)).alone service s =
      (.error (failure.during "failed get parent list"), s₁) := by
  rw [lookup, alone_direct hget]
  refine Operation.alone_bind_of_error ?_
  rw [Operation.alone_during, listFound, Operation.alone_bind_of_error hparent]
  rfl

/-- Where a file is found above a path, the path is not. -/
theorem Mount.alone_lookup_child_of_file {mount : Mount} {dir : Path} {parent : Entry} {s₁ : σ}
    (hget : (service.offer s).get = false)
    (hparent : (mount.lookup dir).alone service s = (.ok parent, s₁))
    (hfile : parent.isDir = false) (name : Segment) :
    (mount.lookup (dir.child name)).alone service s =
      (.error ((Failure.during (Cause.notADirectory : Failure) dir.text).during
        "failed get parent list"), s₁) := by
  rw [lookup, alone_direct hget]
  refine Operation.alone_bind_of_error ?_
  rw [Operation.alone_during, listFound, Operation.alone_bind_of_ok hparent, hfile]
  rfl

end VirtualFs
