import VirtualFs.Proofs.Alone
import VirtualFs.Proofs.Path
import VirtualFs.Proofs.Reading.Scripted

namespace VirtualFs

variable {σ : Type}

namespace Service

/-- A service offers and answers the same at all times, as far as one only looks. What it keeps for
    itself, such as an account of its requests, may change with each of them. -/
structure Fixed (service : Service σ) (offered : Offer)
    (reply : (request : Request) → request.Answer) : Prop where
  offer : ∀ state, service.offer state = offered
  answer : ∀ {request}, request.Reads → ∀ state, (service.answer request state).1 = reply request

/-- The state of a service after some requests, of which the first comes first. -/
def after (service : Service σ) (requests : List Request) (state : σ) : σ :=
  requests.foldl (fun state request => (service.answer request state).2) state

@[simp] theorem after_nil (service : Service σ) (state : σ) : service.after [] state = state := rfl

@[simp] theorem after_singleton (service : Service σ) (request : Request) (state : σ) :
    service.after [request] state = (service.answer request state).2 := rfl

theorem after_append (service : Service σ) (requests more : List Request) (state : σ) :
    service.after (requests ++ more) state = service.after more (service.after requests state) :=
  List.foldl_append

end Service

/-- A failure that is met on the way to something so many levels further down. -/
def Failure.onTheWay (failure : Failure) : Nat → Failure
  | 0 => failure
  | levels + 1 => (failure.onTheWay levels).during "failed get parent list"

/-- What becomes of a walk, and the directories that are listed on it, in that order. -/
structure Walk where
  result : Except Failure Entry
  listed : List Object

/-- A walk that goes on from where it has come to. If it has come to nothing, that is one more level
    up than before. -/
def Walk.andThen (walk : Walk) (next : Entry → Walk) : Walk :=
  match walk.result with
  | .error failure => ⟨.error (failure.onTheWay 1), walk.listed⟩
  | .ok entry => ⟨(next entry).result, walk.listed ++ (next entry).listed⟩

namespace Mount

variable (mount : Mount) (offered : Offer) (reply : (request : Request) → request.Answer)

/-- The entry of the root, where a walk begins. -/
def summit : Except Failure Entry :=
  match offered.rootSource with
  | .error failure => .error failure
  | .ok .asked =>
    match (reply .getRoot : Except Failure Object) with
    | .error failure => .error (failure.during "failed get root obj")
    | .ok object => .ok ⟨mount.rootName, object⟩
  | .ok (.id id) =>
    .ok ⟨mount.rootName,
      { id, name := mount.rootName, modified := offered.modified, isFolder := true }⟩
  | .ok (.path path) =>
    .ok ⟨mount.rootName,
      { path, name := mount.rootName, modified := offered.modified, isFolder := true }⟩

/-- Walk on from an entry. Each step needs a directory, lists it and takes the first object that is
    shown under the name of the step. A failure is told once more for each level below it. -/
def walkFrom (here : Path) (entry : Entry) : List Segment → Walk
  | [] => ⟨.ok entry, []⟩
  | name :: rest =>
    if entry.isDir then
      match (reply (.list entry.object false) : Except Failure (List Object)) with
      | .error failure =>
        ⟨.error ((failure.during (ListingPlan.attempt here)).onTheWay (rest.length + 1)),
          [entry.object]⟩
      | .ok objects =>
        match objects.find? (fun object => mount.mapping.apply object.name = name.text) with
        | none => ⟨.error ((Cause.notFound : Failure).onTheWay rest.length), [entry.object]⟩
        | some object =>
          let walk := walkFrom (here.child name) ⟨name.text, object⟩ rest
          ⟨walk.result, entry.object :: walk.listed⟩
    else
      ⟨.error (((Cause.notADirectory : Failure).during here.text).onTheWay (rest.length + 1)), []⟩

/-- Walk from the root to a path. -/
def walk (path : Path) : Walk :=
  match mount.summit offered reply with
  | .error failure => ⟨.error (failure.onTheWay path.segments.length), []⟩
  | .ok entry => mount.walkFrom reply .root entry path.segments

/-- What a backend is asked on the way to a path: how the root is described, if it wants to be asked
    for that, and the children of each directory that the walk lists. -/
def askedFor (path : Path) : List Request :=
  (if offered.getRoot then [.getRoot] else []) ++
    (mount.walk offered reply path).listed.map (.list · false)

variable {mount offered reply} {service : Service σ} {state : σ}

/-- The last step of a walk is a walk of one step from where the others lead. -/
theorem walkFrom_append_singleton (here : Path) (entry : Entry) (steps : List Segment)
    (name : Segment) :
    mount.walkFrom reply here entry (steps ++ [name]) =
      (mount.walkFrom reply here entry steps).andThen
        (fun entry => mount.walkFrom reply (steps.foldl .child here) entry [name]) := by
  induction steps generalizing here entry with
  | nil => rfl
  | cons step rest ih =>
    rw [List.cons_append, walkFrom, walkFrom]
    split
    case isFalse => simp [Walk.andThen, Failure.onTheWay]
    case isTrue =>
      cases (reply (.list entry.object false) : Except Failure (List Object)) with
      | error failure => simp [Walk.andThen, Failure.onTheWay]
      | ok objects =>
        dsimp only
        cases objects.find? (fun object => mount.mapping.apply object.name = step.text) with
        | none => simp [Walk.andThen, Failure.onTheWay]
        | some object =>
          simp only [ih, List.foldl_cons]
          generalize mount.walkFrom reply (here.child step) ⟨step.text, object⟩ rest = walk
          obtain ⟨result, listed⟩ := walk
          cases result <;> rfl

theorem walk_child (dir : Path) (name : Segment) :
    mount.walk offered reply (dir.child name) =
      (mount.walk offered reply dir).andThen
        (fun entry => mount.walkFrom reply dir entry [name]) := by
  rw [walk, walk]
  cases mount.summit offered reply with
  | error failure => simp [Path.segments, Walk.andThen, Failure.onTheWay]
  | ok entry =>
    simp only [Path.segments, walkFrom_append_singleton, Path.foldl_child_segments]

theorem alone_describeRoot (hfixed : service.Fixed offered reply) :
    mount.describeRoot.alone service state =
      (mount.summit offered reply,
        service.after (if offered.getRoot then [.getRoot] else []) state) := by
  rw [describeRoot, summit, Operation.alone_bind, Operation.alone_offer, hfixed.offer]
  dsimp only
  rw [Operation.alone_bind, Operation.alone_require, Offer.rootSource]
  cases offered.getRoot with
  | true =>
    have hreads : Request.getRoot.Reads := trivial
    have hanswer := hfixed.answer hreads state
    simp only [if_pos, Operation.alone_bind, Operation.alone_log, Operation.alone_during,
      Operation.alone_ask, hanswer, Service.after_singleton]
    cases (reply .getRoot : Except Failure Object) <;> rfl
  | false =>
    cases offered.rootId with
    | some id => rfl
    | none => cases offered.rootPath <;> rfl

variable (mount state) in
/-- To list what was found and pick a name is a walk of one step. -/
theorem alone_step (hfixed : service.Fixed offered reply) (dir : Path) (entry : Entry)
    (name : Segment) :
    (do
      let entries ← Operation.during "failed get parent list"
        (if entry.isDir then Operation.share ⟨mount.number, dir, entry.object, mount.mapping⟩
        else Operation.fail (Failure.during (Cause.notADirectory : Failure) dir.text))
      Operation.require (pick name entries) : Operation Entry).alone service state =
      ((mount.walkFrom reply dir entry [name]).result, service.after
        ((mount.walkFrom reply dir entry [name]).listed.map (.list · false)) state) := by
  rw [Operation.alone_bind, Operation.alone_during, walkFrom]
  cases entry.isDir with
  | false => rfl
  | true =>
    have hreads : (Request.list entry.object false).Reads := trivial
    obtain ⟨answer, hanswer⟩ : ∃ answer : Except Failure (List Object),
      reply (.list entry.object false) = answer := ⟨_, rfl⟩
    simp only [if_pos, Operation.alone_share, ListingPlan.request, hfixed.answer hreads, hanswer]
    cases answer with
    | error failure => rfl
    | ok objects =>
      simp only [ListingPlan.finish, Operation.mapError_ok, Operation.alone_require, pick_map,
        walkFrom]
      cases objects.find? (fun object => mount.mapping.apply object.name = name.text) <;> rfl

/-- To pick a name from a listing of the directory that an operation finds takes its walk one step
    further. -/
theorem alone_pick_listFound (hfixed : service.Fixed offered reply) {dir : Path}
    {find : Operation Entry} {requests : List Request} {walk : Walk} (name : Segment)
    (hfind : find.alone service state =
      (walk.result, service.after (requests ++ walk.listed.map (.list · false)) state)) :
    (do
      let entries ← Operation.during "failed get parent list" (mount.listFound dir find)
      Operation.require (pick name entries) : Operation Entry).alone service state =
      let walk := walk.andThen (fun entry => mount.walkFrom reply dir entry [name])
      (walk.result, service.after (requests ++ walk.listed.map (.list · false)) state) := by
  obtain ⟨result, listed⟩ := walk
  rw [Operation.alone_bind, Operation.alone_during, listFound]
  cases result with
  | error failure =>
    rw [Operation.alone_bind_of_error hfind]
    rfl
  | ok entry =>
    have hstep := alone_step mount
      (service.after (requests ++ listed.map (.list · false)) state) hfixed dir entry name
    rw [Operation.alone_bind, Operation.alone_during] at hstep
    rw [Operation.alone_bind_of_ok hfind, hstep]
    simp [Walk.andThen, Service.after_append]

/-- Looking up a path, which begins with its last name, is a walk to it, which begins at the root. -/
theorem lookup_eq_walk (hfixed : service.Fixed offered reply) (hget : offered.get = false)
    (path : Path) (state : σ) :
    (mount.lookup path).alone service state =
      ((mount.walk offered reply path).result,
        service.after (mount.askedFor offered reply path) state) := by
  have hlongWay : (service.offer state).get = false := by rw [hfixed.offer, hget]
  induction path with
  | root =>
    rw [lookup, alone_direct hlongWay, alone_describeRoot hfixed, askedFor, walk]
    cases mount.summit offered reply <;> simp [walkFrom, Path.segments, Failure.onTheWay]
  | child dir name ih =>
    rw [lookup, alone_direct hlongWay, alone_pick_listFound hfixed name ih, askedFor, walk_child]

section Cabinet

open Scenario

/-- A store with one file in a directory of its root. -/
def cabinet : Store where
  nodes :=
    [⟨{ id := "/", path := "/", isFolder := true }, none, [], .data []⟩,
      ⟨{ id := "/d", path := "/d", name := "d", isFolder := true }, some "/", [], .data []⟩,
      ⟨{ id := "/d/a", path := "/d/a", name := "a", size := 1 }, some "/d", [7], .data [7]⟩]

/-- The service of a store that does not change and keeps an account of what it is asked. -/
def recorder (store : Store) : Service (List Request) where
  offer _ := store.offer
  now _ := 0
  answer request requests := ((store.effect request).1, requests ++ [request])

theorem after_recorder (store : Store) (requests before : List Request) :
    (recorder store).after requests before = before ++ requests := by
  induction requests generalizing before with
  | nil => simp
  | cons request requests ih => exact (ih (before ++ [request])).trans (by simp)

/-- The way to something behind a file ends at the file. The two directories above it have been
    listed, and the failure is told for both of the names behind it. -/
theorem lookup_eq_walk_behind_file :
    let path : Path := (((Path.root.child ⟨"d", by decide⟩).child ⟨"a", by decide⟩).child
      ⟨"b", by decide⟩).child ⟨"c", by decide⟩
    (recorder cabinet).Fixed cabinet.offer (fun request => (cabinet.effect request).1) ∧
      cabinet.offer.get = false ∧
      (plainMount.lookup path).alone (recorder cabinet) [] =
        (.error ⟨["failed get parent list", "failed get parent list", "/d/a"], .notADirectory⟩,
          [.list { id := "/", name := "root", isFolder := true } false,
            .list { id := "/d", path := "/d", name := "d", isFolder := true } false]) := by
  intro path
  have hfixed : (recorder cabinet).Fixed cabinet.offer (fun request => (cabinet.effect request).1) :=
    ⟨fun _ => rfl, fun _ _ => rfl⟩
  have hwalk : (plainMount.walk cabinet.offer (fun request => (cabinet.effect request).1) path) =
      ⟨.error ⟨["failed get parent list", "failed get parent list", "/d/a"], .notADirectory⟩,
        [{ id := "/", name := "root", isFolder := true },
          { id := "/d", path := "/d", name := "d", isFolder := true }]⟩ := by
    rfl
  refine ⟨hfixed, rfl, ?_⟩
  rw [lookup_eq_walk hfixed rfl, after_recorder, askedFor, hwalk]
  rfl

end Cabinet

end Mount

end VirtualFs
