import VirtualFs.Lookup
import VirtualFs.Proofs.Writing.Tree

namespace VirtualFs

namespace Tree

/-- An object stands for nothing but what is at or below a place. -/
def Inside (t : Tree) (here : Place) (object : Object) : Prop :=
  ∀ {other}, t.place object = some other → here <+: other

/-- What is at or below a place has changed, and nothing else. An object that changes its meaning has
    stood for nothing but that before and does so afterwards. -/
structure Changes (t : Tree) (here : Place) (t' : Tree) : Prop where
  item : ∀ {other}, ¬ here <+: other → t'.item other = t.item other
  place : ∀ object, t'.place object = t.place object ∨ t.Inside here object ∧ t'.Inside here object

/-- A directory is new at a place that was free, and nothing else has changed. -/
structure Makes (t : Tree) (here : Place) (t' : Tree) : Prop extends t.Changes here t' where
  free : t.item here = none
  made : t'.HasDir here
  rest : ∀ {other}, other ≠ here → t'.item other = t.item other

/-- What may come of asking for a directory in a directory. It may fail before or after the directory
    is made, and it may succeed where the directory is there already. -/
def MayMake (t : Tree) (parent : Object) (name : String) (answer : Except Failure (Option Object))
    (t' : Tree) : Prop :=
  (t' = t ∨ ∃ dir, t.place parent = some dir ∧ t.Makes (dir ++ [name]) t') ∧
  ∀ {made?}, answer = .ok made? → ∃ dir, t.place parent = some dir ∧ t'.HasDir (dir ++ [name]) ∧
    ∀ {made}, made? = some made → t'.place made = some (dir ++ [name])

/-- How a backend behaves that holds a tree, finds no object by its path and changes nothing but what
    it is given: the child of that name in a directory, which is new or takes the place of another, or
    an object with all below it. Apart from that it is free to fail, before a change or after it, and
    it may be asked for anything. -/
def confined : Behaviour Tree where
  Uses _ _ := True
  lists _ _ := trivial
  offers t offer := offer.get = false ∧ ∀ {source}, offer.rootSource = .ok source →
    match source with
    | .asked => True
    | .id id => ∀ name modified, t.place { id, name, modified, isFolder := true } = some []
    | .path path => ∀ name modified, t.place { path, name, modified, isFolder := true } = some []
  permits
    | .list object _, t, answer, t' => t' = t ∧ ∀ {objects}, answer = .ok objects →
      objects = [] ∨ ∃ dir, t.place object = some dir ∧ t.Lists dir objects
    | .remove object, t, _, t' => t' = t ∨ ∃ here, t.place object = some here ∧ t.Changes here t'
    | .put _ parent upload _, t, _, t' => t' = t ∨ ∃ dir, t.place parent = some dir ∧
      t.Changes (dir ++ [upload.object.name]) t'
    | .makeDir parent name, t, answer, t' => t.MayMake parent name (answer.map (fun _ => none)) t'
    | .makeDirReporting parent name, t, answer, t' => t.MayMake parent name answer t'
    | .getRoot, t, answer, t' => t' = t ∧ ∀ {object}, answer = .ok object →
      t.place object = some []
    | _, t, _, t' => t' = t

/-- What is picked from a listing is a child of the place of the directory, under a name that is shown
    as the one that was looked for. -/
theorem exists_item_of_pick {t : Tree} {parent : Object} {objects : List Object}
    {mapping : NameMapping} {name : Segment} {entry : Entry}
    (hobjects : objects = [] ∨ ∃ dir, t.place parent = some dir ∧ t.Lists dir objects)
    (hpick : Mount.pick name (objects.map (Entry.ofObject · mapping)) = .ok entry) :
    ∃ dir child content, t.place parent = some dir ∧
      t.item (dir ++ [child]) = some ⟨entry.object, content⟩ ∧ mapping.apply child = name.text := by
  rw [Mount.pick_map] at hpick
  cases hfind : objects.find? (fun object => mapping.apply object.name = name.text) with
  | none =>
    rw [hfind] at hpick
    cases hpick
  | some object =>
    rw [hfind] at hpick
    cases hpick
    have hmem := List.mem_of_find?_eq_some hfind
    rcases hobjects with rfl | ⟨dir, hplace, hlists⟩
    · cases hmem
    obtain ⟨content, hitem⟩ := hlists.mem.1 hmem
    exact ⟨dir, object.name, content, hplace, hitem, by simpa using List.find?_some hfind⟩

/-- All directories that a place lies in are there. -/
def Ready (base : Place) (t : Tree) : Prop :=
  ∀ {dir}, dir <+: base → dir ≠ base → t.HasDir dir

/-- What may become of a tree while callers keep to what is at or below a place. All else is kept, and
    nothing else is new but a missing directory that the place lies in. An object that stood for
    something above the place still does. Once the directories above are there, no object comes to
    stand for anything outside. -/
structure Keeps (base : Place) (t t' : Tree) : Prop where
  item : ∀ {here}, ¬ base <+: here → t'.item here = t.item here ∨
    t.item here = none ∧ here <+: base ∧ t'.HasDir here
  above : ∀ {object dir}, dir <+: base → dir ≠ base → t.item dir ≠ none →
    t.place object = some dir → t'.place object = some dir
  inside : Ready base t → ∀ {object}, t.Inside base object → t'.Inside base object

variable {base here dir : Place} {t t' t'' : Tree} {object : Object} {x : Item}

theorem not_prefix_of_above (hdir : dir <+: base) (hne : dir ≠ base) : ¬ base <+: dir :=
  fun hbase => hne (hdir.eq_of_length (Nat.le_antisymm hdir.length_le hbase.length_le))

theorem ready_of_item (hitem : t.item here = some x) (hhere : base <+: here) : t.Ready base := by
  intro dir hdir hne
  refine hasDir_above hitem (hdir.trans hhere) ?_
  rintro rfl
  exact not_prefix_of_above hdir hne hhere

theorem Keeps.refl (base : Place) (t : Tree) : Keeps base t t :=
  ⟨fun _ => .inl rfl, fun _ _ _ hplace => hplace, fun _ _ hinside => hinside⟩

theorem Keeps.item_of_item (hkeeps : Keeps base t t') (hhere : ¬ base <+: here)
    (hitem : t.item here = some x) : t'.item here = some x := by
  rcases hkeeps.item hhere with hsame | ⟨hnone, -⟩
  · rw [hsame, hitem]
  · rw [hnone] at hitem
    cases hitem

theorem Keeps.hasDir (hkeeps : Keeps base t t') (hhere : ¬ base <+: here) (hdir : t.HasDir here) :
    t'.HasDir here := by
  obtain ⟨x, hitem, hfolder⟩ := hdir
  exact ⟨x, hkeeps.item_of_item hhere hitem, hfolder⟩

theorem Keeps.ready (hkeeps : Keeps base t t') (hready : t.Ready base) : t'.Ready base :=
  fun hdir hne => hkeeps.hasDir (not_prefix_of_above hdir hne) (hready hdir hne)

theorem Keeps.trans (hfirst : Keeps base t t') (hlast : Keeps base t' t'') : Keeps base t t'' where
  item := by
    intro here hhere
    rcases hfirst.item hhere with hsame | ⟨hnone, hbelow, hdir⟩
    · rw [← hsame]
      exact hlast.item hhere
    · exact .inr ⟨hnone, hbelow, hlast.hasDir hhere hdir⟩
  above := by
    intro object dir hdir hne hitem hplace
    have hhere := not_prefix_of_above hdir hne
    refine hlast.above hdir hne ?_ (hfirst.above hdir hne hitem hplace)
    obtain ⟨x, hx⟩ := Option.ne_none_iff_exists'.1 hitem
    rw [hfirst.item_of_item hhere hx]
    exact Option.some_ne_none x
  inside hready _ hinside := hlast.inside (hfirst.ready hready) (hfirst.inside hready hinside)

/-- Once the directories above are there, nothing outside changes any more. -/
theorem Keeps.item_eq (hkeeps : Keeps base t t') (hready : t.Ready base) (hhere : ¬ base <+: here) :
    t'.item here = t.item here := by
  rcases hkeeps.item hhere with hsame | ⟨hnone, hbelow, -⟩
  · exact hsame
  · obtain ⟨x, hitem, -⟩ := hready hbelow (fun hsame => hhere (hsame ▸ List.prefix_rfl))
    rw [hnone] at hitem
    cases hitem

/-- A change at or below a place keeps the rest. -/
theorem Changes.keeps (hchanges : t.Changes here t') (hhere : base <+: here) : Keeps base t t' where
  item hother := .inl (hchanges.item fun hbelow => hother (hhere.trans hbelow))
  above := by
    intro object dir hdir hne _ hplace
    rcases hchanges.place object with hsame | ⟨hinside, -⟩
    · rw [hsame, hplace]
    · exact (not_prefix_of_above hdir hne (hhere.trans (hinside hplace))).elim
  inside := by
    intro _ object hinside other hplace
    rcases hchanges.place object with hsame | ⟨-, hinside'⟩
    · exact hinside (hsame ▸ hplace)
    · exact hhere.trans (hinside' hplace)

/-- To make a missing directory above a place keeps the rest. -/
theorem Makes.keeps (hmakes : t.Makes here t') (hhere : here <+: base) : Keeps base t t' := by
  by_cases hsame : here = base
  · exact hmakes.toChanges.keeps (hsame ▸ List.prefix_rfl)
  refine ⟨fun {other} hother => ?_, fun {object dir} hdir hne hitem hplace => ?_, fun hready => ?_⟩
  · by_cases hnew : other = here
    · exact .inr ⟨hnew ▸ hmakes.free, hnew ▸ hhere, hnew ▸ hmakes.made⟩
    · exact .inl (hmakes.rest hnew)
  · rcases hmakes.place object with hkept | ⟨hinside, -⟩
    · rw [hkept, hplace]
    · -- Nothing stands below a place that is free.
      obtain ⟨x, hx⟩ := Option.ne_none_iff_exists'.1 hitem
      have hbelow := hinside hplace
      by_cases heq : here = dir
      · rw [← heq, hmakes.free] at hx
        cases hx
      · obtain ⟨y, hy, -⟩ := hasDir_above hx hbelow heq
        rw [hmakes.free] at hy
        cases hy
  · obtain ⟨x, hitem, -⟩ := hready hhere hsame
    rw [hmakes.free] at hitem
    cases hitem

end Tree

end VirtualFs
