import VirtualFs.Proofs.Alone
import VirtualFs.Proofs.Writing.Growth
import VirtualFs.Proofs.Writing.Sight
import VirtualFs.Proofs.Writing.Stored
import VirtualFs.Scenario.Reading

namespace VirtualFs

/-- The object by which the root is known to callers. -/
def RootSource.describe (name : String) (modified : UInt64) (top : Object) : RootSource → Object
  | .asked => top
  | .id key => { id := key, name, modified, isFolder := true }
  | .path key => { path := key, name, modified, isFolder := true }

namespace Tree

/-- What comes of asking for a directory under a name that is free: the directory is there, and an
    object that is reported is its object. -/
def AddsDir (t : Tree) (parent : Object) (name : String) (answer : Except Failure (Option Object))
    (t' : Tree) : Prop :=
  ∀ {dir}, t.place parent = some dir → t.HasDir dir → t.item (dir ++ [name]) = none →
    ∃ made? x, answer = .ok made? ∧ x.object.isFolder = true ∧ t.Gains (dir ++ [name]) x t' ∧
      ∀ {made}, made? = some made → made = x.object

/-- How a backend behaves that holds a tree and makes directories in either way, finds no object by
    its path, and always has its root described in the same way, whatever time it tells. Listings
    tell the children of a directory, and nothing fails without a reason. -/
def housing (source : RootSource) : Behaviour Tree where
  Uses
    | .list _ _, _ => True
    | .makeDir parent name, t => Usable name ∧ t.IsDir parent
    | .makeDirReporting parent name, t => Usable name ∧ t.IsDir parent
    | .getRoot, _ => True
    | _, _ => False
  lists _ _ := trivial
  offers t offer := offer.get = false ∧ (∃ form, offer.makeDirForm = .ok form) ∧
    offer.rootSource = .ok source ∧ ∀ {top}, t.item [] = some top → ∀ name,
      t.place (source.describe name offer.modified top.object) = some []
  permits
    | .list object _, t, answer, t' => t' = t ∧ ∀ {dir}, t.place object = some dir → t.HasDir dir →
      ∃ objects, answer = .ok objects ∧ t.Lists dir objects
    | .makeDir parent name, t, answer, t' => t.AddsDir parent name (answer.map (fun _ => none)) t'
    | .makeDirReporting parent name, t, answer, t' => t.AddsDir parent name answer t'
    | .getRoot, t, answer, t' => t' = t ∧ ∃ top, t.item [] = some top ∧ answer = .ok top.object
    | _, _, _, _ => True

end Tree

namespace Mount

open VirtualFs.Tree

/-- The entry under which a mount shows what stands at a path. -/
def entryAt (mount : Mount) (source : RootSource) (modified : UInt64) (t : Tree) :
    Path → Option Entry
  | .root => (t.item []).map fun top =>
    ⟨mount.rootName, source.describe mount.rootName modified top.object⟩
  | .child dir name => (t.item (dir.child name).place).map fun x => ⟨name.text, x.object⟩

variable {σ : Type} {service : Service σ} {source : RootSource} {modified : UInt64}
  {shows : σ → Tree → Prop} {mount : Mount} {s : σ} {t : Tree} {path dir : Path} {x : Item}
  {entry : Entry}

/-- What a lookup comes to: what stands at the path, or the reason why nothing does. -/
inductive Tells (mount : Mount) (source : RootSource) (modified : UInt64) (t : Tree) (path : Path) :
    Except Failure Entry → Prop
  | found {entry : Entry} (shown : mount.entryAt source modified t path = some entry) :
      Tells mount source modified t path (.ok entry)
  | missing {failure : Failure} (free : t.item path.place = none)
      (clear : ¬ t.Blocked path.place) (cause : failure.cause = .notFound) :
      Tells mount source modified t path (.error failure)
  | blocked {failure : Failure} (free : t.item path.place = none) (blocked : t.Blocked path.place)
      (cause : failure.cause = .notADirectory) : Tells mount source modified t path (.error failure)

theorem exists_entryAt_root (mount : Mount) (source : RootSource) (modified : UInt64) (t : Tree) :
    ∃ entry, mount.entryAt source modified t .root = some entry := by
  obtain ⟨top, htop, -⟩ := t.root
  exact ⟨_, congrArg (Option.map _) htop⟩

/-- What a mount shows at a path where something stands says truly what it is. -/
theorem item_of_entryAt (hshown : mount.entryAt source modified t path = some entry) :
    ∃ x, t.item path.place = some x ∧ entry.isDir = x.object.isFolder := by
  cases path with
  | root =>
    obtain ⟨top, htop, rfl⟩ := Option.map_eq_some_iff.1 hshown
    obtain ⟨top', htop', hfolder⟩ := t.root
    obtain rfl := Option.some.inj (htop.symm.trans htop')
    refine ⟨top, htop, ?_⟩
    cases source with
    | asked => rfl
    | id id => exact hfolder.symm
    | path path => exact hfolder.symm
  | child dir name =>
    obtain ⟨x, hitem, rfl⟩ := Option.map_eq_some_iff.1 hshown
    exact ⟨x, hitem, rfl⟩

/-- What a mount shows at a path stands there. -/
theorem place_of_entryAt (hobeys : service.Obeys (housing source) shows) (hshows : shows s t)
    (hshown : mount.entryAt source (service.offer s).modified t path = some entry) :
    t.place entry.object = some path.place := by
  cases path with
  | root =>
    obtain ⟨top, htop, rfl⟩ := Option.map_eq_some_iff.1 hshown
    obtain ⟨-, -, -, hroot⟩ := hobeys.offer hshows
    exact hroot htop mount.rootName
  | child dir name =>
    obtain ⟨x, hitem, rfl⟩ := Option.map_eq_some_iff.1 hshown
    exact t.found hitem

theorem exists_alone_root (hobeys : service.Obeys (housing source) shows) (hshows : shows s t)
    (hshown : mount.entryAt source (service.offer s).modified t .root = some entry) :
    ∃ s', mount.describeRoot.alone service s = (.ok entry, s') ∧ shows s' t := by
  obtain ⟨-, -, hsource, -⟩ := hobeys.offer hshows
  obtain ⟨top, htop, rfl⟩ := Option.map_eq_some_iff.1 hshown
  rw [describeRoot, Operation.alone_bind, Operation.alone_offer]
  dsimp only
  rw [hsource]
  cases source with
  | asked =>
    obtain ⟨t', ⟨rfl, top', htop', hanswer⟩, hshows'⟩ := hobeys.answer .getRoot trivial hshows
    obtain rfl := Option.some.inj (htop.symm.trans htop')
    refine ⟨_, ?_, hshows'⟩
    have hasked : Operation.alone service (Operation.ask .getRoot) s =
        (.ok top.object, (service.answer .getRoot s).2) :=
      Prod.ext hanswer rfl
    exact Operation.alone_bind_of_ok (Operation.alone_during_of_ok _ hasked)
  | id id => exact ⟨s, rfl, hshows⟩
  | path path => exact ⟨s, rfl, hshows⟩

/-- A listing of a directory tells all of its children. -/
theorem exists_answer_children (hobeys : service.Obeys (housing source) shows)
    (hshows : shows s t) {object : Object} {here : Place} (hplace : t.place object = some here)
    (hdir : t.HasDir here) (refresh : Bool) :
    ∃ objects s', service.answer (.list object refresh) s = (.ok objects, s') ∧ shows s' t ∧
      t.Lists here objects := by
  obtain ⟨t', ⟨rfl, hlists⟩, hshows'⟩ := hobeys.answer (.list object refresh) trivial hshows
  obtain ⟨objects, hanswer, hobjects⟩ := hlists hplace hdir
  exact ⟨objects, _, Prod.ext hanswer rfl, hshows', hobjects⟩

theorem sees_of_housing (hobeys : service.Obeys (housing source) shows) (mount : Mount) :
    mount.Sees service shows where
  indirect hshows := (hobeys.offer hshows).1
  root {s t} hshows := by
    obtain ⟨top, htop, hfolder⟩ := t.root
    obtain ⟨entry, hshown⟩ := exists_entryAt_root mount source (service.offer s).modified t
    obtain ⟨s', halone, hshows'⟩ := exists_alone_root hobeys hshows hshown
    obtain ⟨x, hitem, hisDir⟩ := item_of_entryAt hshown
    obtain rfl := Option.some.inj (htop.symm.trans hitem)
    exact ⟨_, s', halone, hshows', hisDir.trans hfolder, place_of_entryAt hobeys hshows hshown⟩
  list hshows hplace hdir := exists_answer_children hobeys hshows hplace hdir false

/-- A lookup tells what stands at a path, and whether it is a file that stands in the way of it. -/
theorem exists_alone_lookup_tells (hobeys : service.Obeys (housing source) shows)
    (hplain : ∀ {dir name x}, t.item (dir ++ [name]) = some x → mount.mapping.apply name = name)
    (path : Path) (hshows : shows s t) :
    ∃ result s', (mount.lookup path).alone service s = (result, s') ∧ shows s' t ∧
      mount.Tells source (service.offer s).modified t path result := by
  cases path with
  | root =>
    obtain ⟨entry, hshown⟩ := exists_entryAt_root mount source (service.offer s).modified t
    obtain ⟨s', halone, hshows'⟩ := exists_alone_root hobeys hshows hshown
    refine ⟨_, s', ?_, hshows', .found hshown⟩
    rwa [lookup, alone_direct (hobeys.offer hshows).1]
  | child dir name =>
    obtain ⟨result, s', halone, hshows', hreports⟩ :=
      (sees_of_housing hobeys mount).exists_alone_lookup hshows (dir.child name)
        fun _ _ => hplain
    refine ⟨result, s', halone, hshows', ?_⟩
    cases hreports with
    | found hitem _ hshown =>
      obtain rfl := hshown rfl
      exact .found (by rw [entryAt, hitem]; rfl)
    | missing hfree hclear hcause => exact .missing hfree hclear hcause
    | blocked hfree hblocked hcause => exact .blocked hfree hblocked hcause

end Mount

namespace Scenario.Store

open VirtualFs.Tree

variable {store : Store} {t t' : Tree} {source : RootSource}

/-- A store shows a tree and can be asked for directories and for its root. -/
structure Houses (source : RootSource) (store : Store) (t : Tree) : Prop where
  shows : store.Shows t
  offers : (housing source).offers t store.offer

/-- The object that a store reports of a new directory is the one that it lists from then on. -/
theorem item_of_makeDir {parent object : Object} {name : String} {here : Place}
    (hshows : (store.makeDir parent name).2.Shows t')
    (hmade : (store.makeDir parent name).1 = .ok object) (hplace : t'.place object = some here) :
    ∃ content, t'.item here = some ⟨object, content⟩ := by
  rw [makeDir] at hshows hmade
  dsimp only at hshows hmade
  split at hmade
  case h_1 => cases hmade
  case h_2 hfree =>
    rw [hfree] at hshows
    obtain rfl := Except.ok.inj hmade
    obtain ⟨path, -, hitem⟩ := hshows.stands _ (List.mem_append_right _ List.mem_cons_self)
    obtain rfl := Option.some.inj (hplace.symm.trans (t'.found hitem))
    exact ⟨[], hitem⟩

theorem addsDir_of_makesDir {parent : Object} {name : String}
    {answer : Except Failure (Option Object)}
    (hmakes : t.MakesDir parent name answer t')
    (hreported : ∀ {made here}, answer = .ok (some made) → t'.place made = some here →
      ∃ content, t'.item here = some ⟨made, content⟩) :
    t.AddsDir parent name answer t' := by
  intro dir hplace hdir hfree
  obtain ⟨made?, x, rfl, hfolder, hgains, hmade⟩ := (hmakes hplace hdir).2 hfree
  refine ⟨made?, x, rfl, hfolder, hgains, ?_⟩
  rintro made rfl
  obtain ⟨content, hitem⟩ := hreported rfl (hmade rfl)
  rw [hgains.item, if_pos rfl] at hitem
  obtain rfl := Option.some.inj hitem
  rfl

/-- What a store knows of its root is the object that it holds there. -/
theorem getRoot_eq (hshows : store.Shows t) :
    ∃ top, t.item [] = some top ∧ store.getRoot = .ok top.object := by
  obtain ⟨object, hroot, -, -⟩ := hshows.getRoot
  rw [hroot]
  rw [getRoot] at hroot
  split at hroot
  case h_1 node hfind =>
    obtain rfl := Except.ok.inj hroot
    obtain ⟨path, hstands, hitem⟩ := hshows.stands node (List.mem_of_find?_eq_some hfind)
    cases path with
    | root => exact ⟨node.item, hitem, rfl⟩
    | child dir name =>
      have hparent := List.find?_some hfind
      simp [hstands.parent] at hparent
  case h_2 => cases hroot

theorem offers_of_place {offer : Offer} (hplace : t'.place = t.place)
    (hoffers : (housing source).offers t offer) :
    (housing source).offers t' offer := by
  obtain ⟨hget, hform, hsource, hroot⟩ := hoffers
  refine ⟨hget, hform, hsource, fun {top'} htop' name => ?_⟩
  obtain ⟨top, htop, -⟩ := t.root
  cases source with
  | asked => exact t'.found htop'
  | id id =>
    rw [hplace]
    exact hroot htop name
  | path path =>
    rw [hplace]
    exact hroot htop name

theorem Houses.makeDir (hhouses : store.Houses source t) {parent : Object} {name : String}
    (hshows : (store.makeDir parent name).2.Shows t') (hplace : t'.place = t.place) :
    (store.makeDir parent name).2.Houses source t' := by
  obtain ⟨nodes, hnodes⟩ := store.exists_nodes_makeDir parent name
  rw [hnodes] at hshows ⊢
  exact ⟨hshows, offers_of_place hplace hhouses.offers⟩

/-- A store that answers at once behaves as a tree in which directories can be made. -/
theorem service_obeys_housing :
    service.Obeys (housing source) (Houses source) where
  offer hhouses := hhouses.offers
  answer := by
    intro store t request huses hhouses
    cases request with
    | list dir refresh =>
      exact ⟨t, ⟨rfl, fun hplace hdir => hhouses.shows.list hplace hdir⟩, hhouses⟩
    | makeDir parent name =>
      obtain ⟨t', hshows, hplace, -, hmakes⟩ := hhouses.shows.makeDir huses.1 huses.2
      have hforgotten : ((store.makeDir parent name).1.map (fun _ => ())).map (fun _ => none) =
          (store.makeDir parent name).1.map (fun _ => (none : Option Object)) := by
        cases (store.makeDir parent name).1 <;> rfl
      refine ⟨t', addsDir_of_makesDir (hforgotten ▸ hmakes) ?_, hhouses.makeDir hshows hplace⟩
      intro made here hanswer
      cases hmade : (service.answer (.makeDir parent name) store).1 with
      | ok =>
        rw [hmade] at hanswer
        cases hanswer
      | error failure =>
        rw [hmade] at hanswer
        cases hanswer
    | makeDirReporting parent name =>
      obtain ⟨t', hshows, hplace, hmakes, -⟩ := hhouses.shows.makeDir huses.1 huses.2
      refine ⟨t', addsDir_of_makesDir hmakes ?_, hhouses.makeDir hshows hplace⟩
      intro made here hanswer hhere
      refine item_of_makeDir hshows ?_ hhere
      cases hmade : (store.makeDir parent name).1 with
      | ok object =>
        have hsome : Except.ok (some object) = (.ok (some made) : Except Failure _) := by
          rw [← hanswer]
          exact (congrArg (Except.map some) hmade).symm
        cases hsome
        rfl
      | error failure =>
        have herror : (.error failure : Except Failure _) = .ok (some made) := by
          rw [← hanswer]
          exact (congrArg (Except.map some) hmade).symm
        cases herror
    | getRoot =>
      obtain ⟨top, htop, hroot⟩ := getRoot_eq hhouses.shows
      exact ⟨t, ⟨rfl, top, htop, hroot⟩, hhouses⟩
    | link | remove | put | get | openLink | readRange | drain | connect => exact huses.elim

end Scenario.Store

end VirtualFs
