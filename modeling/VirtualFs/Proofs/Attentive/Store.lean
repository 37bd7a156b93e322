import VirtualFs.Proofs.Attentive.Behaviour
import VirtualFs.Proofs.Writing.Readback

namespace VirtualFs

open VirtualFs.Tree

/-- A tree without what is at or below a place that is not its root. -/
def Tree.prune (t : Tree) (here : Place) (hne : here ≠ []) : Tree where
  item other := if here <+: other then none else t.item other
  place := t.place
  root := by
    rw [if_neg (fun hroot => hne (List.prefix_nil.1 hroot))]
    exact t.root
  parent := by
    intro dir name x hitem
    split at hitem
    case isTrue => cases hitem
    case isFalse houtside =>
      rw [if_neg (fun habove => houtside (habove.trans (List.prefix_append _ _)))]
      exact t.parent hitem
  named := by
    intro dir name x hitem
    split at hitem
    case isTrue => cases hitem
    case isFalse => exact t.named hitem
  found := by
    intro other x hitem
    split at hitem
    case isTrue => cases hitem
    case isFalse => exact t.found hitem

namespace Scenario.Store

/-- There is a directory under a key. -/
def hasDir (store : Store) (key : String) : Bool :=
  (store.find? key).any (·.object.isFolder)

/-- A directory can have a new child or file of some name. -/
def admits (store : Store) (parent : Object) (name : String) : Bool :=
  store.hasDir (keyOf parent) && decide (Usable name)

/-- Without what is at or below a place. -/
def prune (store : Store) (here : Place) : Store :=
  { store with nodes := store.nodes.filter (fun node => !(placeAt node.key).any (here <+: ·)) }

/-- A store that refuses what would not leave it a tree: children of what is no directory, names that
    no path can have, a file in the place of a directory, and the removal of the root. It lets nobody
    change what it shows of its root. -/
def careful : Service Store where
  offer := Store.offer
  now _ := 0
  answer
    | .makeDir parent name, store =>
      if store.admits parent name then store.effect (.makeDir parent name) else (notFound, store)
    | .makeDirReporting parent name, store =>
      if store.admits parent name then store.effect (.makeDirReporting parent name)
      else (notFound, store)
    | .put form parent upload target, store =>
      if store.admits parent upload.object.name && !upload.object.isFolder &&
          !store.hasDir (childKey (keyOf parent) upload.object.name) then
        store.effect (.put form parent upload target)
      else (notFound, store)
    | .remove object, store =>
      match placeAt (keyOf object) with
      | some (step :: steps) => (.ok (), store.prune (step :: steps))
      | _ => (notFound, store)
    | .connect _, store => (notFound, store)
    | request, store => store.effect request

variable {store : Store} {t : Tree} {here : Place}

theorem Shows.prune (hshows : store.Shows t) (hne : here ≠ []) :
    (store.prune here).Shows (t.prune here hne) := by
  have hkept : ∀ {node path}, node ∈ store.nodes → node.StandsAt path →
      (node ∈ (store.prune here).nodes ↔ ¬ here <+: path.place) := by
    intro node path hnode hstands
    simp [Store.prune, hnode, hstands.key, placeAt_text]
  refine ⟨hshows.keys.of_map.filter _ |>.map_on ?_, ?_, ?_, hshows.place⟩
  · intro node hnode other hother hkey
    exact List.inj_on_of_nodup_map hshows.keys (List.mem_filter.1 hnode).1
      (List.mem_filter.1 hother).1 hkey
  · intro node hnode
    have hmem := (List.mem_filter.1 hnode).1
    obtain ⟨path, hstands, hitem⟩ := hshows.stands node hmem
    exact ⟨path, hstands, (if_neg ((hkept hmem hstands).1 hnode)).trans hitem⟩
  · intro other x hitem
    dsimp only [Tree.prune] at hitem
    split at hitem
    case isTrue => cases hitem
    case isFalse houtside =>
      obtain ⟨path, rfl, node, hnode, hstands, rfl⟩ := hshows.held hitem
      exact ⟨path, rfl, node, (hkept hnode hstands).2 houtside, hstands, rfl⟩

/-- The place where a store finds an object. -/
def home (object : Object) : Option Place :=
  placeAt (keyOf object)

theorem Shows.homed (hshows : store.Shows t) : t.Homed home where
  stands {object _} hplace := (hshows.place object).symm.trans hplace
  found {object _} hhome _ := (hshows.place object).trans hhome

theorem Shows.hasDir_iff (hshows : store.Shows t) {key : String} :
    store.hasDir key = true ↔ ∃ path : Path, path.text = key ∧ t.HasDir path.place := by
  constructor
  · intro hdir
    obtain ⟨node, hfind, hfolder⟩ := (Option.any_eq_true _ _).1 hdir
    have hkey : node.key = key := by simpa using List.find?_some hfind
    obtain ⟨path, hstands, hitem⟩ := hshows.stands node (List.mem_of_find?_eq_some hfind)
    exact ⟨path, by rw [← hstands.key, hkey], _, hitem, hfolder⟩
  · rintro ⟨path, rfl, x, hitem, hfolder⟩
    obtain ⟨node, hfind, rfl⟩ := hshows.find?_of_item hitem
    rw [hasDir, hfind]
    exact hfolder

theorem Shows.of_admits (hshows : store.Shows t) {parent : Object} {name : String}
    (hadmits : store.admits parent name = true) :
    Usable name ∧ ∃ dir : Path, dir.text = keyOf parent ∧ t.place parent = some dir.place ∧
      t.HasDir dir.place := by
  simp only [admits, Bool.and_eq_true, decide_eq_true_eq] at hadmits
  obtain ⟨dir, htext, hdir⟩ := hshows.hasDir_iff.1 hadmits.1
  exact ⟨hadmits.2, dir, htext, by rw [hshows.place, ← htext, placeAt_text], hdir⟩

/-- What is listed without a directory is nothing. -/
theorem Shows.nil_or_lists (hshows : store.Shows t) {object : Object} {objects : List Object}
    (hlist : store.list object = .ok objects) :
    objects = [] ∨ ∃ dir, t.place object = some dir ∧ t.Lists dir objects := by
  cases objects with
  | nil => exact .inl rfl
  | cons child objects =>
    have hchild : ∃ node ∈ store.nodes, node.parent = some (keyOf object) := by
      rw [Store.list] at hlist
      split at hlist
      case h_1 =>
        have hmem : child ∈ (store.nodes.filter (·.parent = some (keyOf object))).map Node.object := by
          rw [Except.ok.inj hlist]
          exact List.mem_cons_self
        obtain ⟨node, hnode, -⟩ := List.mem_map.1 hmem
        exact ⟨node, by simpa using hnode⟩
      case h_2 => cases hlist
    obtain ⟨node, hnode, hparent⟩ := hchild
    obtain ⟨path, hstands, hitem⟩ := hshows.stands node hnode
    have habove := hstands.parent
    rw [hparent] at habove
    cases path with
    | root => cases habove
    | child dir name =>
      have hplace : t.place object = some dir.place := by
        rw [hshows.place, Option.some.inj habove, placeAt_text]
      obtain ⟨objects', hlist', hlists⟩ := hshows.list hplace (t.parent hitem)
      rw [hlist] at hlist'
      obtain rfl := Except.ok.inj hlist'
      exact .inr ⟨_, hplace, hlists⟩

end Scenario.Store

namespace Tree

variable {t t' : Tree} {here : Place} {x : Item}

theorem Gains.changes (hgains : t.Gains here x t') (hsame : t'.place = t.place) :
    t.Changes here t' where
  item {other} hother := by
    have hne : other ≠ here := fun hsame => hother (hsame ▸ List.prefix_rfl)
    rw [hgains.item, if_neg hne]
  place object := .inl (by rw [hsame])

/-- A directory that is made as it should be is one that may be made. -/
theorem MakesDir.mayMake {parent : Object} {name : String} {dir : Place}
    {answer : Except Failure (Option Object)} (hmakes : t.MakesDir parent name answer t')
    (hplace : t.place parent = some dir) (hdir : t.HasDir dir) (hsame : t'.place = t.place) :
    t.MayMake parent name answer t' := by
  obtain ⟨htaken, hfree⟩ := hmakes hplace hdir
  by_cases hitem : t.item (dir ++ [name]) = none
  · obtain ⟨made?, x, hanswer, hfolder, hgains, hreported⟩ := hfree hitem
    have hmade : t'.HasDir (dir ++ [name]) := ⟨x, by rw [hgains.item, if_pos rfl], hfolder⟩
    refine ⟨.inr ⟨dir, hplace, hgains.changes hsame, hitem, hmade, fun hother => ?_⟩, ?_⟩
    · rw [hgains.item, if_neg hother]
    · intro made?' hanswer'
      rw [hanswer] at hanswer'
      obtain rfl := Except.ok.inj hanswer'
      exact ⟨dir, hplace, hmade, hreported⟩
  · obtain ⟨⟨failure, hanswer⟩, hunchanged⟩ := htaken hitem
    refine ⟨.inl hunchanged, fun {made?} hanswer' => ?_⟩
    rw [hanswer] at hanswer'
    cases hanswer'

end Tree

namespace Scenario.Store

variable {store : Store} {t : Tree}

/-- Asking such a store for a directory, in either form. -/
private theorem exists_mayMake {parent : Object} {name : String} (hholds : store.Holds t)
    (hadmits : store.admits parent name = true) :
    ∃ t', (store.makeDir parent name).2.Holds t' ∧
      t.MayMake parent name ((store.makeDir parent name).1.map some) t' ∧
      t.MayMake parent name (((store.makeDir parent name).1.map (fun _ => ())).map
        (fun _ => none)) t' := by
  have hforgotten : ((store.makeDir parent name).1.map (fun _ => ())).map (fun _ => none) =
      (store.makeDir parent name).1.map (fun _ => (none : Option Object)) := by
    cases (store.makeDir parent name).1 <;> rfl
  obtain ⟨husable, dir, -, hplace, hdir⟩ := hholds.shows.of_admits hadmits
  obtain ⟨t', hshows, hsame, hreported, hunreported⟩ :=
    hholds.shows.makeDir husable ⟨_, hplace, hdir⟩
  refine ⟨t', ?_, hreported.mayMake hplace hdir hsame,
    hforgotten ▸ hunreported.mayMake hplace hdir hsame⟩
  exact hholds.effect (.makeDir parent name) ⟨husable, _, hplace, hdir⟩ hshows hsame
    (store.exists_nodes_makeDir parent name)

/-- What a store does that changes nothing and tells what a tree tells. -/
private theorem exists_permits_same (request : Request) {answer : request.Answer}
    (hholds : store.Holds t) (hconfined : confined.permits request t answer t)
    (hattends : t.Attends request answer t) :
    ∃ t', (attentive home).permits request t answer t' ∧ store.Holds t' :=
  ⟨t, ⟨id, hconfined, hattends⟩, hholds⟩

theorem Holds.prune {here : Place} (hholds : store.Holds t) (hne : here ≠ []) :
    (store.prune here).Holds (t.prune here hne) where
  shows := hholds.shows.prune hne
  offers := Script.offers_of_place rfl hholds.offers
  reticent := hholds.reticent
  links node hnode := hholds.links node (List.mem_filter.1 hnode).1

/-- What is found under the key of a path stands at its place. -/
theorem Holds.holdsFile {content : List UInt8} (hholds : store.Holds t) (path : Path)
    (hfile : store.nodes.any (fun node =>
      decide (node.key = path.text ∧ node.content = content ∧ node.object.isFolder = false)) = true) :
    t.HoldsFile path.place content := by
  obtain ⟨node, hnode, hfile⟩ := List.any_eq_true.1 hfile
  obtain ⟨hkey, rfl, hplain⟩ := of_decide_eq_true hfile
  exact ⟨node.object, (hholds.shows.standsAt_of_key hnode hkey).2, hplain⟩

/-- A file that such a store takes is there afterwards, and nothing else has changed. -/
private theorem exists_permits_put (form : Form) {parent : Object} {upload : Upload} (target : Path)
    (hholds : store.Holds t) (hadmits : store.admits parent upload.object.name = true)
    (hplain : upload.object.isFolder = false)
    (hfree : store.hasDir (childKey (keyOf parent) upload.object.name) = false) :
    ∃ t', (attentive home).permits (.put form parent upload target) t (.ok ()) t' ∧
      (store.put parent upload).Holds t' := by
  obtain ⟨husable, dir, htext, hplace, hdir⟩ := hholds.shows.of_admits hadmits
  have hfree' : ¬ t.HasDir (dir.place ++ [upload.object.name]) := by
    intro hchild
    have hkey := hholds.shows.hasDir_iff.2 ⟨dir.child ⟨_, husable⟩, rfl, hchild⟩
    rw [← htext, childKey_text dir ⟨_, husable⟩, hkey] at hfree
    cases hfree
  obtain ⟨t', file, hshows, hsame, hfile, -, hgains⟩ :=
    hholds.shows.put husable hplain hplace hdir hfree'
  have hholds' : (store.put parent upload).Holds t' :=
    hholds.effect (.put form parent upload target) ⟨husable, hplain, _, hplace, hdir, hfree'⟩
      hshows hsame (store.exists_nodes_put parent upload)
  have hfiled : t'.HoldsFile (dir.place ++ [upload.object.name]) upload.content :=
    ⟨file, by rw [hgains.item, if_pos rfl], hfile⟩
  refine ⟨t', ⟨fun _ => hholds'.shows.homed, .inr ⟨_, hplace, hgains.changes hsame⟩, ?_, ?_⟩, hholds'⟩
  · intro here hhere
    rw [hplace] at hhere
    exact .inr (Option.some.inj hhere ▸ hfiled)
  · exact fun _ => ⟨_, hplace, hfiled⟩

/-- What such a store removes is gone, with all that lay below it. -/
private theorem exists_permits_remove {object : Object} (hholds : store.Holds t)
    (hhome : home object = some here) (hne : here ≠ []) :
    ∃ t', (attentive home).permits (.remove object) t (.ok ()) t' ∧ (store.prune here).Holds t' := by
  have hholds' := hholds.prune hne
  have hplace : t.place object = some here := (hholds.shows.place object).trans hhome
  have hgone : (t.prune here hne).item here = none := if_pos List.prefix_rfl
  refine ⟨_, ⟨fun _ => hholds'.shows.homed, .inr ⟨_, hplace, ?_, fun _ => .inl rfl⟩, ?_⟩, hholds'⟩
  · exact fun hother => if_neg hother
  · intro other hother
    rw [hplace] at hother
    obtain rfl := Option.some.inj hother
    exact ⟨.inr hgone, fun _ => hgone⟩

/-- A careful store is attentive. -/
theorem careful_obeys : careful.Obeys (attentive home) Holds where
  offer hholds := ⟨hholds.offers.1, hholds.offers.2.2.2⟩
  answer := by
    intro store t request _ hholds
    have hhomed : ∀ {store' t'}, Holds store' t' → t.Homed home → t'.Homed home :=
      fun hholds' _ => hholds'.shows.homed
    cases request with
    | list object refresh =>
      exact exists_permits_same (.list object refresh) hholds
        ⟨rfl, hholds.shows.nil_or_lists⟩ hholds.shows.list
    | link file =>
      refine exists_permits_same (.link file) hholds rfl ?_
      intro here x hplace hitem hfile
      obtain ⟨t', ⟨-, hlink⟩, -⟩ := service_obeys.answer (.link file)
        ⟨here, x, hplace, hitem, hfile⟩ hholds
      exact ⟨_, hlink hplace hitem hfile, rfl⟩
    | getRoot =>
      obtain ⟨object, hroot, hfolder, hplace⟩ := hholds.shows.getRoot
      refine exists_permits_same .getRoot hholds ⟨rfl, fun {object'} hroot' => ?_⟩
        ⟨object, hroot, hfolder, hplace⟩
      obtain rfl := Except.ok.inj (hroot.symm.trans hroot')
      exact hplace
    | readRange reader range =>
      exact exists_permits_same (.readRange reader range) hholds rfl rfl
    | get path => exact exists_permits_same (.get path) hholds rfl trivial
    | openLink opener file url headers =>
      exact exists_permits_same (.openLink opener file url headers) hholds rfl trivial
    | drain source => exact exists_permits_same (.drain source) hholds rfl trivial
    | connect credentials =>
      exact exists_permits_same (.connect credentials) hholds rfl trivial
    | makeDir parent name =>
      dsimp only [careful]
      split
      case isFalse =>
        exact exists_permits_same (.makeDir parent name) hholds
          ⟨.inl rfl, fun h => by cases h⟩ trivial
      case isTrue hadmits =>
        obtain ⟨t', hholds', -, hmake⟩ := exists_mayMake hholds hadmits
        exact ⟨t', ⟨hhomed hholds', hmake, trivial⟩, hholds'⟩
    | makeDirReporting parent name =>
      dsimp only [careful]
      split
      case isFalse =>
        exact exists_permits_same (.makeDirReporting parent name) hholds
          ⟨.inl rfl, fun h => by cases h⟩ trivial
      case isTrue hadmits =>
        obtain ⟨t', hholds', hmake, -⟩ := exists_mayMake hholds hadmits
        exact ⟨t', ⟨hhomed hholds', hmake, trivial⟩, hholds'⟩
    | put form parent upload target =>
      dsimp only [careful]
      split
      case isFalse =>
        exact exists_permits_same (.put form parent upload target) hholds (.inl rfl)
          ⟨fun _ => .inl rfl, fun h => by cases h⟩
      case isTrue hguard =>
        simp only [Bool.and_eq_true, Bool.not_eq_true'] at hguard
        exact exists_permits_put form target hholds hguard.1.1 hguard.1.2 hguard.2
    | remove object =>
      dsimp only [careful]
      split
      case h_2 hroot =>
        refine exists_permits_same (.remove object) hholds (.inl rfl) ?_
        exact fun _ => ⟨.inl rfl, fun h => by cases h⟩
      case h_1 step steps hhome =>
        exact exists_permits_remove hholds hhome (List.cons_ne_nil _ _)

end Scenario.Store

end VirtualFs
