import VirtualFs.Proofs.Making.Missing

namespace VirtualFs

variable {σ : Type}

/-- A service with one form of making directories on offer. The plain form makes what the reporting
    form makes, and keeps it to itself. -/
def Service.inForm (service : Service σ) (form : Form) : Service σ where
  offer s := { service.offer s with
    makeDirReporting := form = .reporting, makeDir := form = .plain }
  now := service.now
  answer
    | .makeDir parent name, s =>
      match service.answer (.makeDirReporting parent name) s with
      | (made, s) => (made.map fun _ => (), s)
    | .makeDirReporting parent name, s => service.answer (.makeDirReporting parent name) s
    | request, s => service.answer request s

namespace Tree

/-- What comes of asking for a directory in a directory and for its object. A name that is taken is
    refused. -/
def ReportsDir (t : Tree) (parent : Object) (name : String)
    (answer : Except Failure (Option Object)) (t' : Tree) : Prop :=
  ∀ {dir}, t.place parent = some dir → t.HasDir dir →
    (t.item (dir ++ [name]) ≠ none → (∃ failure, answer = .error failure) ∧ t' = t) ∧
    (t.item (dir ++ [name]) = none → ∃ x, answer = .ok (some x.object) ∧
      x.object.isFolder = true ∧ t.Gains (dir ++ [name]) x t')

/-- What stands in a tree stays when something comes to a free place. -/
theorem Gains.stays {t t' : Tree} {here other : Place} {x y : Item} (hgains : t.Gains here x t')
    (hfree : t.item here = none) (hitem : t.item other = some y) : t'.item other = some y := by
  rw [hgains.item, if_neg, hitem]
  rintro rfl
  rw [hfree] at hitem
  cases hitem

/-- How a backend behaves that holds a tree, makes directories and reports them, finds no object by
    its path, and always has its root described in the same way, whatever time it tells. Nothing
    fails without a reason. -/
def reporting (source : RootSource) : Behaviour Tree where
  Uses
    | .list _ _, _ => True
    | .makeDirReporting parent name, t => Usable name ∧ t.IsDir parent
    | .getRoot, _ => True
    | _, _ => False
  lists _ _ := trivial
  offers t offer := offer.get = false ∧ offer.rootSource = .ok source ∧
    ∀ {top}, t.item [] = some top → ∀ name,
      t.place (source.describe name offer.modified top.object) = some []
  permits
    | .list object _, t, answer, t' => t' = t ∧ ∀ {dir}, t.place object = some dir → t.HasDir dir →
      ∃ objects, answer = .ok objects ∧ t.Lists dir objects
    | .makeDirReporting parent name, t, answer, t' => t.ReportsDir parent name answer t'
    | .getRoot, t, answer, t' => t' = t ∧ ∃ top, t.item [] = some top ∧ answer = .ok top.object
    | _, _, _, _ => True

end Tree

/-- A service that holds a tree, makes directories and reports them. To look at it does not change
    it. -/
structure Service.Reports (service : Service σ) (source : RootSource) (shows : σ → Tree → Prop) :
    Prop where
  obeys : service.Obeys (Tree.reporting source) shows
  list : ∀ object refresh s, (service.answer (.list object refresh) s).2 = s
  root : ∀ s, (service.answer .getRoot s).2 = s

namespace Mount

open Operation VirtualFs.Tree

variable {service : Service σ} {source : RootSource} {shows : σ → Tree → Prop} {mount : Mount}
  {s : σ} {t : Tree} {path dir : Path} {name : Segment} {parent entry : Entry} {here : Place}
  {form : Form}

theorem mem_of_pick {mapping : NameMapping} {objects : List Object}
    (hpick : pick name (objects.map (Entry.ofObject · mapping)) = .ok entry) :
    ∃ object ∈ objects, mapping.apply object.name = name.text ∧ entry = ⟨name.text, object⟩ := by
  rw [pick_map] at hpick
  split at hpick
  case h_1 object hfind =>
    exact ⟨object, List.mem_of_find?_eq_some hfind, by simpa using List.find?_some hfind,
      (Except.ok.inj hpick).symm⟩
  case h_2 => cases hpick

/-- A listing tells the children of a directory and changes nothing. -/
theorem exists_told_children (hreports : service.Reports source shows) (hshows : shows s t)
    {object : Object} (hplace : t.place object = some here) (hdir : t.HasDir here)
    (refresh : Bool) :
    ∃ objects : List Object, service.answer (.list object refresh) s = (.ok objects, s) ∧
      t.Lists here objects := by
  obtain ⟨t', ⟨rfl, hlists⟩, -⟩ := hreports.obeys.answer (.list object refresh) trivial hshows
  obtain ⟨objects, hanswer, hobjects⟩ := hlists hplace hdir
  exact ⟨objects, Prod.ext hanswer (hreports.list object refresh s), hobjects⟩

theorem alone_describeRoot_inForm (hreports : service.Reports source shows)
    (hshows : shows s t) {top : Item} (htop : t.item [] = some top) (form : Form) :
    mount.describeRoot.alone (service.inForm form) s =
      (.ok ⟨mount.rootName, source.describe mount.rootName (service.offer s).modified top.object⟩,
        s) := by
  obtain ⟨-, hsource, -⟩ := hreports.obeys.offer hshows
  have hsource' : ((service.inForm form).offer s).rootSource = .ok source := hsource
  rw [describeRoot, alone_bind, alone_offer]
  dsimp only
  rw [hsource']
  cases source with
  | asked =>
    obtain ⟨t', ⟨rfl, top', htop', hanswer⟩, -⟩ := hreports.obeys.answer .getRoot trivial hshows
    obtain rfl := Option.some.inj (htop.symm.trans htop')
    have hasked : (ask .getRoot).alone (service.inForm form) s = (.ok top.object, s) :=
      Prod.ext hanswer (hreports.root s)
    exact alone_bind_of_ok (alone_during_of_ok _ hasked)
  | id id => rfl
  | path path => rfl

/-- In either form a lookup comes to the same, and what it finds is in the tree. -/
theorem exists_alone_lookup_inForm (hreports : service.Reports source shows)
    (hshows : shows s t) (path : Path) :
    ∃ result, (∀ form, (mount.lookup path).alone (service.inForm form) s = (result, s)) ∧
      ∀ {entry : Entry}, result = .ok entry →
        ∃ here, t.place entry.object = some here ∧ (entry.isDir = true → t.HasDir here) := by
  obtain ⟨hget, -, hroot⟩ := hreports.obeys.offer hshows
  have hget' : ∀ form, ((service.inForm form).offer s).get = false := fun _ => hget
  induction path with
  | root =>
    obtain ⟨top, htop, hfolder⟩ := t.root
    have hfound : ∀ form, (mount.lookup .root).alone (service.inForm form) s =
        (.ok ⟨mount.rootName,
          source.describe mount.rootName (service.offer s).modified top.object⟩, s) := by
      intro form
      rw [lookup, alone_direct (hget' form)]
      exact alone_describeRoot_inForm hreports hshows htop form
    refine ⟨_, hfound, ?_⟩
    rintro entry ⟨⟩
    exact ⟨[], hroot htop _, fun _ => ⟨top, htop, hfolder⟩⟩
  | child dir name ih =>
    obtain ⟨result, hdir, hplace⟩ := ih
    cases result with
    | error failure =>
      exact ⟨_, fun form => alone_lookup_child_of_error (hget' form) (hdir form) name,
        fun h => by cases h⟩
    | ok parent =>
      obtain ⟨here, hhere, hthere⟩ := hplace rfl
      cases hisDir : parent.isDir with
      | false =>
        exact ⟨_, fun form => alone_lookup_child_of_file (hget' form) (hdir form) hisDir name,
          fun h => by cases h⟩
      | true =>
        obtain ⟨objects, hanswer, hobjects⟩ :=
          exists_told_children hreports hshows hhere (hthere hisDir) false
        refine ⟨_, fun form => alone_lookup_child (hget' form) (hdir form) hisDir hanswer name, ?_⟩
        intro entry hpick
        obtain ⟨object, hmem, -, rfl⟩ := mem_of_pick hpick
        obtain ⟨content, hitem⟩ := hobjects.mem.1 hmem
        exact ⟨_, t.found hitem, fun hfolder => ⟨_, hitem, hfolder⟩⟩

/-- No child of a directory is shown under a name. -/
def Hides (mount : Mount) (t : Tree) (here : Place) (name : Segment) : Prop :=
  ∀ ⦃text x⦄, t.item (here ++ [text]) = some x → mount.mapping.apply text ≠ name.text

theorem hides_of_pick {objects : List Object} {failure : Failure} (hobjects : t.Lists here objects)
    (hpick : pick name (objects.map (Entry.ofObject · mount.mapping)) = .error failure) :
    mount.Hides t here name := by
  intro text x hitem hshown
  have hname : x.object.name = text := t.named hitem
  have hmem : x.object ∈ objects := hobjects.mem.2 ⟨x.content, by rw [hname]; exact hitem⟩
  rw [pick_map] at hpick
  cases hfind : objects.find? (fun object => mount.mapping.apply object.name = name.text) with
  | some object =>
    rw [hfind] at hpick
    cases hpick
  | none =>
    have hnone := List.find?_eq_none.1 hfind _ hmem
    simp [hname, hshown] at hnone

theorem pick_of_hides {objects : List Object} (hobjects : t.Lists here objects)
    (hhides : mount.Hides t here name) :
    pick name (objects.map (Entry.ofObject · mount.mapping)) = .error Cause.notFound := by
  have hnone : objects.find? (fun object => mount.mapping.apply object.name = name.text) = none := by
    refine List.find?_eq_none.2 fun object hmem => ?_
    obtain ⟨content, hitem⟩ := hobjects.mem.1 hmem
    simpa using hhides hitem
  rw [pick_map, hnone]

/-- A new child, the only one that can be shown under its name, is found unless the mapping changes
    the name. -/
theorem pick_of_gains {objects : List Object} {t' : Tree} {x : Item}
    (hobjects : t'.Lists here objects) (hhides : mount.Hides t here name)
    (hgains : t.Gains (here ++ [name.text]) x t') :
    pick name (objects.map (Entry.ofObject · mount.mapping)) =
      if mount.mapping.apply name.text = name.text then .ok ⟨name.text, x.object⟩
      else .error Cause.notFound := by
  have hitem : t'.item (here ++ [name.text]) = some x := (hgains.item _).trans (if_pos rfl)
  split
  case isTrue hfixed =>
    cases hpick : pick name (objects.map (Entry.ofObject · mount.mapping)) with
    | error failure => exact (hides_of_pick hobjects hpick hitem hfixed).elim
    | ok entry =>
      obtain ⟨object, hmem, hshown, rfl⟩ := mem_of_pick hpick
      obtain ⟨content, hchild⟩ := hobjects.mem.1 hmem
      rw [hgains.item] at hchild
      split at hchild
      case isTrue => rw [Option.some.inj hchild]
      case isFalse => exact (hhides hchild hshown).elim
  case isFalse hchanged =>
    refine pick_of_hides hobjects fun text y hchild => ?_
    rw [hgains.item] at hchild
    split at hchild
    case isTrue hsame =>
      obtain rfl : text = name.text := by simpa using hsame
      exact hchanged
    case isFalse => exact hhides hchild

/-- What each form tells of a directory that is made. -/
def told : Form → Except Failure (Option Object) → Except Failure (Option Object)
  | .reporting, made => made
  | .plain, made => made.map fun _ => none

theorem alone_create_inForm (service : Service σ) (parent : Entry) (name : Segment) (form : Form)
    (s : σ) :
    (create parent name form).alone (service.inForm form) s =
      (told form (service.answer (.makeDirReporting parent.object name.text) s).1,
        (service.answer (.makeDirReporting parent.object name.text) s).2) := by
  cases form with
  | reporting => rfl
  | plain =>
    cases hmade : service.answer (.makeDirReporting parent.object name.text) s with
    | mk made s' =>
      have hask : (ask (.makeDir parent.object name.text)).alone (service.inForm .plain) s =
          (made.map fun _ => (), s') := by
        rw [alone_ask]
        simp only [Service.inForm, hmade]
        rfl
      cases made with
      | error failure => exact alone_bind_of_error hask
      | ok object => exact alone_bind_of_ok hask

theorem alone_createIn_inForm (service : Service σ) (mount : Mount) (parent : Entry) (dir : Path)
    (name : Segment) (form : Form) (s : σ) :
    (mount.createIn parent dir name).alone (service.inForm form) s =
      (mount.resolve parent dir name
          (told form (service.answer (.makeDirReporting parent.object name.text) s).1)).alone
        (service.inForm form) (service.answer (.makeDirReporting parent.object name.text) s).2 := by
  have hform : ((service.inForm form).offer s).makeDirForm = .ok form := by cases form <;> rfl
  have hcreate : (attempt (create parent name form)).alone (service.inForm form) s =
      (.ok (told form (service.answer (.makeDirReporting parent.object name.text) s).1),
        (service.answer (.makeDirReporting parent.object name.text) s).2) := by
    rw [alone_attempt, alone_create_inForm]
  rw [createIn_eq, alone_bind_of_ok (alone_offer _ s), hform, alone_bind_of_ok (alone_require _ s _),
    alone_bind_of_ok hcreate, alone_bind]
  generalize (mount.resolve parent dir name _).alone (service.inForm form) _ = resolved
  obtain ⟨result, s'⟩ := resolved
  cases result <;> rfl

theorem alone_listAfresh {objects : List Object}
    (hanswer : service.answer (.list parent.object true) s = (.ok objects, s)) :
    (mount.listAfresh parent dir name).alone service s =
      (pick name (objects.map (Entry.ofObject · mount.mapping)), s) := by
  have hlisted : (ask (.list parent.object true)).alone service s = (.ok objects, s) := hanswer
  exact alone_bind_of_ok (alone_during_of_ok _ hlisted)

/-- To make a directory in one where nothing is shown under its name: it is refused in both forms, or
    made in both. Then the reporting form has its entry, and the plain form has it unless the mapping
    changes the name. -/
theorem createIn_cases (hreports : service.Reports source shows) (hshows : shows s t)
    (hplace : t.place parent.object = some here) (hdir : t.HasDir here)
    (hhides : mount.Hides t here name) :
    (∃ failure s', t.item (here ++ [name.text]) ≠ none ∧ shows s' t ∧
      ∀ form, (mount.createIn parent dir name).alone (service.inForm form) s =
        (.error failure, s')) ∨
    ∃ x s' t', t.item (here ++ [name.text]) = none ∧ shows s' t' ∧ x.object.isFolder = true ∧
      t.Gains (here ++ [name.text]) x t' ∧
      (mount.createIn parent dir name).alone (service.inForm .reporting) s =
        (.ok ⟨name.text, x.object⟩, s') ∧
      (mount.createIn parent dir name).alone (service.inForm .plain) s =
        (if mount.mapping.apply name.text = name.text then .ok ⟨name.text, x.object⟩
          else .error Cause.notFound, s') := by
  obtain ⟨t', hmakes, hshows'⟩ := hreports.obeys.answer
    (.makeDirReporting parent.object name.text) ⟨name.usable, here, hplace, hdir⟩ hshows
  obtain ⟨htaken, hfree⟩ := hmakes hplace hdir
  simp only [alone_createIn_inForm]
  generalize service.answer (.makeDirReporting parent.object name.text) s = made at *
  obtain ⟨made, s'⟩ := made
  by_cases hitem : t.item (here ++ [name.text]) = none
  · right
    obtain ⟨x, rfl, hfolder, hgains⟩ := hfree hitem
    obtain ⟨y, hy, hyFolder⟩ := hdir
    obtain ⟨objects, hanswer, hobjects⟩ := exists_told_children hreports hshows'
      (hgains.keeps hplace ⟨y, hy, hyFolder⟩) ⟨y, hgains.stays hitem hy, hyFolder⟩ true
    refine ⟨x, s', t', hitem, hshows', hfolder, hgains, rfl, ?_⟩
    rw [← pick_of_gains hobjects hhides hgains]
    exact alone_listAfresh hanswer
  · left
    obtain ⟨⟨failure, rfl⟩, rfl⟩ := htaken hitem
    obtain ⟨objects, hanswer, hobjects⟩ := exists_told_children hreports hshows' hplace hdir true
    refine ⟨failure, s', hitem, hshows', fun form => ?_⟩
    have htold : told form (.error failure) = .error failure := by cases form <;> rfl
    have hlisted : (mount.listAfresh parent dir name).alone (service.inForm form) s' = (_, s') :=
      alone_listAfresh hanswer
    have hattempt : (attempt (mount.listAfresh parent dir name)).alone (service.inForm form) s' =
        (.ok (.error Cause.notFound), s') := by
      rw [alone_attempt, hlisted, pick_of_hides hobjects hhides]
    rw [htold, resolve, alone_bind_of_ok hattempt]
    rfl

end Mount

namespace Scenario.Store

open VirtualFs.Tree

variable {source : RootSource}

/-- A store that answers at once reports the directories that it makes. -/
theorem service_reports : service.Reports source (Houses source) where
  list _ _ _ := rfl
  root _ := rfl
  obeys :=
    { offer := fun hhouses =>
        ⟨hhouses.offers.1, hhouses.offers.2.2.1, hhouses.offers.2.2.2⟩
      answer := by
        intro store t request huses hhouses
        cases request with
        | list dir refresh =>
          exact ⟨t, ⟨rfl, fun hplace hdir => hhouses.shows.list hplace hdir⟩, hhouses⟩
        | getRoot =>
          obtain ⟨top, htop, hroot⟩ := getRoot_eq hhouses.shows
          exact ⟨t, ⟨rfl, top, htop, hroot⟩, hhouses⟩
        | makeDirReporting parent name =>
          obtain ⟨t', hshows, hplace, hmakes, -⟩ := hhouses.shows.makeDir huses.1 huses.2
          refine ⟨t', fun hparent hdir => ?_, hhouses.makeDir hshows hplace⟩
          obtain ⟨htaken, hfree⟩ := hmakes hparent hdir
          refine ⟨htaken, fun hitem => ?_⟩
          obtain ⟨made?, x, hanswer, hfolder, hgains, hmade⟩ := hfree hitem
          cases hresult : (store.makeDir parent name).1 with
          | error failure =>
            rw [hresult] at hanswer
            cases hanswer
          | ok object =>
            have hreported : (store.makeDir parent name).1.map some = .ok (some object) := by
              rw [hresult]
              rfl
            rw [hresult] at hanswer
            obtain rfl : some object = made? := Except.ok.inj hanswer
            obtain ⟨content, hobject⟩ := item_of_makeDir hshows hresult (hmade rfl)
            rw [hgains.item, if_pos rfl] at hobject
            obtain rfl := Option.some.inj hobject
            exact ⟨⟨object, content⟩, hreported, hfolder, hgains⟩
        | link | remove | makeDir | put | get | openLink | readRange | drain | connect =>
          exact huses.elim }

end Scenario.Store

end VirtualFs
