import VirtualFs.Proofs.Making.Forms

namespace VirtualFs

variable {σ : Type}

namespace Tree

/-- Something new has come to a tree under a name. -/
def Fresh (t t' : Tree) (name : String) : Prop :=
  ∃ dir x, t'.item (dir ++ [name]) = some x ∧ t.item (dir ++ [name]) = none

/-- An object stands for a directory in which there is nothing. -/
def IsVacant (t : Tree) (object : Object) : Prop :=
  ∃ here, t.place object = some here ∧ t.HasDir here ∧ ∀ name, t.item (here ++ [name]) = none

variable {t t₁ t' : Tree} {here : Place} {name other : String} {x : Item}

theorem not_fresh_self (t : Tree) (name : String) : ¬ t.Fresh t name := by
  rintro ⟨dir, x, hitem, hfree⟩
  rw [hfree] at hitem
  cases hitem

theorem fresh_gains_iff (hkept : ∀ {here x}, t.item here = some x → t₁.item here = some x)
    (hfree : t₁.item (here ++ [name]) = none) (hgains : t₁.Gains (here ++ [name]) x t') :
    t.Fresh t' other ↔ t.Fresh t₁ other ∨ other = name := by
  constructor
  · rintro ⟨dir, y, hitem, hbefore⟩
    rw [hgains.item] at hitem
    split at hitem
    case isTrue hsame =>
      obtain ⟨-, hsame⟩ := List.append_inj' hsame rfl
      exact .inr (by simpa using hsame)
    case isFalse => exact .inl ⟨dir, y, hitem, hbefore⟩
  · rintro (⟨dir, y, hitem, hbefore⟩ | rfl)
    · exact ⟨dir, y, hgains.stays hfree hitem, hbefore⟩
    · refine ⟨here, x, (hgains.item _).trans (if_pos rfl), ?_⟩
      rw [Option.eq_none_iff_forall_ne_some]
      intro y hitem
      rw [hkept hitem] at hfree
      cases hfree

end Tree

namespace Mount

open Operation VirtualFs.Tree

variable {service : Service σ} {source : RootSource}
  {shows : σ → Tree → Prop} {mount : Mount} {s : σ} {t t' : Tree} {path dir : Path}
  {name : Segment} {outcome reporting plain : Except Failure Entry × σ}

/-- What comes of making a path in the two forms: the same, unless something new has a name that the
    mapping changes. Then only the reporting form comes to an end, and the plain one cannot find what
    it has made. -/
structure Concord (mount : Mount) (shows : σ → Tree → Prop) (t : Tree) (path : Path) (t' : Tree)
    (reporting plain : Except Failure Entry × σ) : Prop where
  shows : shows reporting.2 t'
  kept : ∀ {here x}, t.item here = some x → t'.item here = some x
  onWay : ∀ {name}, t.Fresh t' name → name ∈ path.place
  agree : plain = reporting ↔ ∀ {name}, t.Fresh t' name → mount.mapping.apply name = name
  differ : plain ≠ reporting → (∃ entry, reporting.1 = .ok entry) ∧
    ∃ failure, plain.1 = .error failure ∧ failure.cause = .notFound

theorem concord_same (hshows : shows outcome.2 t) :
    Concord mount shows t path t outcome outcome where
  shows := hshows
  kept := id
  onWay hfresh := (not_fresh_self t _ hfresh).elim
  agree := iff_of_true rfl fun hfresh => (not_fresh_self t _ hfresh).elim
  differ hne := (hne rfl).elim

/-- A directory is made in what the steps before have come to. -/
def createNext (mount : Mount) (service : Service σ) (dir : Path) (name : Segment) :
    Except Failure Entry × σ → Except Failure Entry × σ
  | (.ok parent, s) => (mount.createIn parent dir name).alone service s
  | (.error failure, s) => (.error failure, s)

/-- If the forms have come to the same, they also end alike when there is nothing to make. -/
theorem Concord.ended {t₁ : Tree} {before before' : Except Failure Entry × σ}
    (hconcord : Concord mount shows t dir t₁ before before') (hsame : before' = before)
    (hshows : shows outcome.2 t₁) : Concord mount shows t (dir.child name) t₁ outcome outcome where
  shows := hshows
  kept := hconcord.kept
  onWay hfresh := List.mem_append_left _ (hconcord.onWay hfresh)
  agree := iff_of_true rfl (hconcord.agree.1 hsame)
  differ hne := (hne rfl).elim

/-- A directory that both forms make is what they may come to differ over, if they have not differed
    before. -/
theorem Concord.made {t₁ : Tree} {parent entry : Entry} {s₁ s' : σ} {here : Place} {x : Item}
    (hconcord : Concord mount shows t dir t₁ (.ok parent, s₁) plain)
    (hfree : t₁.item (here ++ [name.text]) = none) (hgains : t₁.Gains (here ++ [name.text]) x t')
    (hshows : shows s' t')
    (hplain : (mount.createIn parent dir name).alone (service.inForm .plain) s₁ =
      (if mount.mapping.apply name.text = name.text then .ok entry else .error Cause.notFound, s')) :
    Concord mount shows t (dir.child name) t' (.ok entry, s')
      (mount.createNext (service.inForm .plain) dir name plain) := by
  have hfresh : ∀ {other}, t.Fresh t' other ↔ t.Fresh t₁ other ∨ other = name.text :=
    fresh_gains_iff hconcord.kept hfree hgains
  have hkept : ∀ {here y}, t.item here = some y → t'.item here = some y := fun hbefore =>
    hgains.stays hfree (hconcord.kept hbefore)
  have honWay : ∀ {other}, t.Fresh t' other → other ∈ (dir.child name).place := by
    intro other hother
    rcases hfresh.1 hother with hother | rfl
    · exact List.mem_append_left _ (hconcord.onWay hother)
    · exact List.mem_append_right _ List.mem_cons_self
  by_cases hsame : plain = (.ok parent, s₁)
  · have hearlier : ∀ {other}, t.Fresh t₁ other → mount.mapping.apply other = other :=
      hconcord.agree.1 hsame
    rw [hsame, Mount.createNext, hplain]
    split
    case isTrue hfixed =>
      refine ⟨hshows, hkept, honWay, iff_of_true rfl fun hother => ?_, fun h => (h rfl).elim⟩
      rcases hfresh.1 hother with hother | rfl
      · exact hearlier hother
      · exact hfixed
    case isFalse hchanged =>
      refine ⟨hshows, hkept, honWay, iff_of_false (fun h => by cases h) fun hall => ?_,
        fun _ => ⟨⟨_, rfl⟩, _, rfl, rfl⟩⟩
      exact hchanged (hall (hfresh.2 (.inr rfl)))
  · obtain ⟨-, failure, hfailed, hcause⟩ := hconcord.differ hsame
    have hstopped : (mount.createNext (service.inForm .plain) dir name plain).1 =
        .error failure := by
      obtain ⟨result, s₂⟩ := plain
      obtain rfl : result = .error failure := hfailed
      rfl
    refine ⟨hshows, hkept, honWay, iff_of_false (fun h => ?_) fun hall => ?_,
      fun _ => ⟨⟨_, rfl⟩, failure, hstopped, hcause⟩⟩
    · rw [h] at hstopped
      cases hstopped
    · exact hsame (hconcord.agree.2 fun hother => hall (hfresh.2 (.inl hother)))

/-- One more directory: the forms still differ as they may. Where they have differed before, it has to
    be new, as the parent is. -/
theorem Concord.createNext (hreports : service.Reports source shows) {t₁ : Tree}
    (hconcord : Concord mount shows t dir t₁ reporting plain) (name : Segment)
    (hparent : ∀ {parent}, reporting.1 = .ok parent → ∃ here, t₁.place parent.object = some here ∧
      t₁.HasDir here ∧ mount.Hides t₁ here name ∧
      (plain ≠ reporting → t₁.item (here ++ [name.text]) = none)) :
    ∃ t', Concord mount shows t (dir.child name) t'
        (mount.createNext (service.inForm .reporting) dir name reporting)
        (mount.createNext (service.inForm .plain) dir name plain) ∧
      ∀ {entry}, (mount.createNext (service.inForm .reporting) dir name reporting).1 = .ok entry →
        t'.IsVacant entry.object := by
  obtain ⟨result, s₁⟩ := reporting
  cases result with
  | error failure =>
    have hsame : plain = (.error failure, s₁) := by
      by_contra hne
      obtain ⟨⟨entry, hentry⟩, -⟩ := hconcord.differ hne
      cases hentry
    rw [hsame]
    exact ⟨t₁, hconcord.ended hsame hconcord.shows, fun h => by cases h⟩
  | ok parent =>
    obtain ⟨here, hplace, hdir, hhides, hfree⟩ := hparent rfl
    rcases createIn_cases hreports hconcord.shows hplace hdir hhides with
      ⟨failure, s', htaken, hshows', hboth⟩ |
        ⟨x, s', t', hitem, hshows', hfolder, hgains, hmade, hplain⟩
    · have hsame : plain = (.ok parent, s₁) := by
        by_contra hne
        exact htaken (hfree hne)
      rw [hsame, Mount.createNext, Mount.createNext, hboth, hboth]
      exact ⟨t₁, hconcord.ended hsame hshows', fun h => by cases h⟩
    · rw [Mount.createNext, hmade]
      refine ⟨t', hconcord.made hitem hgains hshows' hplain, ?_⟩
      rintro entry ⟨⟩
      refine ⟨here ++ [name.text], t'.found ((hgains.item _).trans (if_pos rfl)),
        hgains.hasDir hfolder, fun other => ?_⟩
      rw [hgains.item, if_neg (by simp)]
      exact item_child_eq_none hitem

/-- What is found at a path has to be a directory. -/
def checked (path : Path) : Except Failure Entry → Except Failure Entry
  | .ok entry =>
    if entry.isDir then .ok entry
    else .error (Failure.during (Cause.notADirectory : Failure) path.text)
  | .error failure => .error failure

/-- Nothing is made unless the lookup leads nowhere. -/
theorem alone_makeDirs_of_found {result : Except Failure Entry}
    (hlookup : (mount.lookup (dir.child name)).alone service s = (result, s))
    (hthere : ∀ {failure}, result = .error failure → failure.leadsNowhere = false) :
    (mount.makeDirs (dir.child name)).alone service s = (checked (dir.child name) result, s) := by
  rw [makeDirs, alone_bind, alone_attempt, hlookup]
  cases result with
  | error failure =>
    dsimp only
    rw [hthere rfl]
    rfl
  | ok entry =>
    dsimp only
    cases hdir : entry.isDir <;> simp [checked, hdir]

theorem alone_makeDirs_of_absent {failure : Failure}
    (hlookup : (mount.lookup (dir.child name)).alone service s = (.error failure, s))
    (hnowhere : failure.leadsNowhere = true) :
    (mount.makeDirs (dir.child name)).alone service s = mount.createNext service dir name
      ((findOrMake (mount.lookup dir) (mount.makeDirs dir)).alone service s) := by
  rw [makeDirs, alone_bind, alone_attempt, hlookup]
  dsimp only
  rw [if_pos hnowhere, alone_bind]
  generalize (findOrMake (mount.lookup dir) (mount.makeDirs dir)).alone service s = outcome
  obtain ⟨result, s'⟩ := outcome
  cases result <;> rfl

theorem alone_findOrMake_of_ok {find : Operation Entry} {entry : Entry}
    (hfind : find.alone service s = (.ok entry, s)) (make : Operation Entry) :
    (findOrMake find make).alone service s = (.ok entry, s) := by
  rw [findOrMake, alone_bind, alone_attempt, hfind]
  rfl

theorem alone_findOrMake_of_error {find : Operation Entry} {failure : Failure}
    (hfind : find.alone service s = (.error failure, s)) (hnowhere : failure.leadsNowhere = true)
    (make : Operation Entry) : (findOrMake find make).alone service s = make.alone service s := by
  rw [findOrMake, alone_bind, alone_attempt, hfind]
  dsimp only
  rw [if_pos hnowhere]

/-- The two forms of making a path come to the same or differ as they may. What is made where the
    lookup failed is empty. -/
def InConcord (mount : Mount) (service : Service σ) (shows : σ → Tree → Prop) (s : σ) (t : Tree)
    (path : Path) : Prop :=
  ∃ t', Concord mount shows t path t' ((mount.makeDirs path).alone (service.inForm .reporting) s)
      ((mount.makeDirs path).alone (service.inForm .plain) s) ∧
    ∀ {failure entry},
      (mount.lookup path).alone (service.inForm .reporting) s = (.error failure, s) →
      ((mount.makeDirs path).alone (service.inForm .reporting) s).1 = .ok entry →
      t'.IsVacant entry.object

theorem inConcord_of_found {result : Except Failure Entry} (hshows : shows s t)
    (hlookup : ∀ form,
      (mount.lookup (dir.child name)).alone (service.inForm form) s = (result, s))
    (hthere : ∀ {failure}, result = .error failure → failure.leadsNowhere = false) :
    mount.InConcord service shows s t (dir.child name) := by
  rw [InConcord, alone_makeDirs_of_found (hlookup _) hthere,
    alone_makeDirs_of_found (hlookup _) hthere]
  refine ⟨t, concord_same hshows, fun {failure entry} hmissing hmade => ?_⟩
  rw [hlookup] at hmissing
  cases hmissing
  cases hmade

/-- By induction on the path: where the parent has been found or made alike, the forms differ in the
    last step only, and otherwise the plain form has failed before. -/
theorem inConcord_makeDirs (hreports : service.Reports source shows) (hshows : shows s t)
    (mount : Mount) (path : Path) : mount.InConcord service shows s t path := by
  have hget : ∀ form, ((service.inForm form).offer s).get = false := fun _ =>
    (hreports.obeys.offer hshows).1
  induction path with
  | root =>
    obtain ⟨result, hroot, -⟩ := exists_alone_lookup_inForm hreports hshows .root
    rw [InConcord, makeDirs, hroot, hroot]
    refine ⟨t, concord_same hshows, ?_⟩
    rintro failure entry ⟨⟩ ⟨⟩
  | child dir name ih =>
    obtain ⟨result, hdir, hplace⟩ := exists_alone_lookup_inForm hreports hshows dir
    cases result with
    | error failure =>
      have hlookup := fun form => alone_lookup_child_of_error (hget form) (hdir form) name
      cases hnowhere : failure.leadsNowhere with
      | false =>
        refine inConcord_of_found hshows hlookup fun {other} hother => ?_
        cases hother
        exact hnowhere
      | true =>
        obtain ⟨t₁, hconcord, hvacant⟩ := ih
        have hmade := fun form =>
          alone_findOrMake_of_error (hdir form) hnowhere (mount.makeDirs dir)
        rw [InConcord, alone_makeDirs_of_absent (hlookup _) hnowhere,
          alone_makeDirs_of_absent (hlookup _) hnowhere, hmade, hmade]
        obtain ⟨t', hnext, hempty⟩ := hconcord.createNext hreports name fun hparent => by
          obtain ⟨here, hhere, hthere, hnothing⟩ := hvacant (hdir _) hparent
          refine ⟨here, hhere, hthere, fun text x hitem => ?_, fun _ => hnothing _⟩
          rw [hnothing] at hitem
          cases hitem
        exact ⟨t', hnext, fun _ => hempty⟩
    | ok parent =>
      obtain ⟨here, hhere, hthere⟩ := hplace rfl
      cases hisDir : parent.isDir with
      | false =>
        refine inConcord_of_found hshows
          (fun form => alone_lookup_child_of_file (hget form) (hdir form) hisDir name) ?_
        rintro failure ⟨⟩
        rfl
      | true =>
        obtain ⟨objects, hanswer, hobjects⟩ :=
          exists_told_children hreports hshows hhere (hthere hisDir) false
        have hlookup := fun form =>
          alone_lookup_child (hget form) (hdir form) hisDir hanswer name
        cases hpick : pick name (objects.map (Entry.ofObject · mount.mapping)) with
        | ok entry =>
          rw [hpick] at hlookup
          exact inConcord_of_found hshows hlookup fun h => by cases h
        | error failure =>
          have hhides := hides_of_pick hobjects hpick
          obtain rfl := Except.error.inj (hpick.symm.trans (pick_of_hides hobjects hhides))
          rw [hpick] at hlookup
          have hfound := fun form => alone_findOrMake_of_ok (hdir form) (mount.makeDirs dir)
          rw [InConcord, alone_makeDirs_of_absent (hlookup _) rfl,
            alone_makeDirs_of_absent (hlookup _) rfl, hfound, hfound]
          have hsame : Concord mount shows t dir t (.ok parent, s) (.ok parent, s) :=
            concord_same hshows
          obtain ⟨t', hnext, hempty⟩ := hsame.createNext hreports name fun hparent => by
            cases hparent
            exact ⟨here, hhere, hthere hisDir, hhides, fun h => (h rfl).elim⟩
          exact ⟨t', hnext, fun _ => hempty⟩

/-- The two forms of making directories agree if and only if the mapping leaves alone the name of each
    directory that is made on the way. Otherwise the reporting form comes to an entry all the same,
    but the plain form looks in vain for the directory that it has made. -/
theorem forms_agree_iff (hreports : service.Reports source shows) (hshows : shows s t)
    (mount : Mount) (path : Path) :
    let reporting := (mount.makeDirs path).alone (service.inForm .reporting) s
    let plain := (mount.makeDirs path).alone (service.inForm .plain) s
    ∃ t', shows reporting.2 t' ∧ (∀ {name}, t.Fresh t' name → name ∈ path.place) ∧
      (plain = reporting ↔ ∀ {name}, t.Fresh t' name → mount.mapping.apply name = name) ∧
      (plain ≠ reporting → (∃ entry, reporting.1 = .ok entry) ∧
        ∃ failure, plain.1 = .error failure ∧ failure.cause = .notFound) := by
  obtain ⟨t', hconcord, -⟩ := inConcord_makeDirs hreports hshows mount path
  exact ⟨t', hconcord.shows, hconcord.onWay, hconcord.agree, hconcord.differ⟩

section Bare

open Scenario World

/-- A mount that shows each `a` in a name as a `b`. -/
def swapping : Mount := ⟨0, .root, "root", ⟨.ofList [("a", "b")]⟩, none⟩

/-- Two directories are made in an empty store, in either form alike, although the mapping changes
    other names. -/
theorem forms_agree_iff_bare :
    let path : Path := .child (.child .root ⟨"d", by decide⟩) ⟨"e", by decide⟩
    let reporting := (swapping.makeDirs path).alone (Store.service.inForm .reporting) (bare []).store
    let plain := (swapping.makeDirs path).alone (Store.service.inForm .plain) (bare []).store
    plain = reporting ∧ (∃ entry, plain.1 = .ok entry ∧ entry.isDir = true) ∧
      plain.2.nodes.map Node.key = ["/", "/d", "/d/e"] := by
  intro path reporting plain
  obtain ⟨t', -, honWay, hagree, -⟩ :=
    forms_agree_iff Store.service_reports houses_bare swapping path
  have hsame : plain = reporting := by
    refine hagree.2 fun {name} hfresh => ?_
    have hname : name ∈ ["d", "e"] := honWay hfresh
    simp only [List.mem_cons, List.not_mem_nil, or_false] at hname
    rcases hname with rfl | rfl
    · decide
    · decide
  exact ⟨hsame, ⟨_, rfl, rfl⟩, rfl⟩

/-- The two forms disagree over a directory whose name the mapping changes. Both make it, and only
    the plain form fails. -/
theorem plain_form_loses :
    let path : Path := .child .root ⟨"a", by decide⟩
    let reporting := (swapping.makeDirs path).alone (Store.service.inForm .reporting) (bare []).store
    let plain := (swapping.makeDirs path).alone (Store.service.inForm .plain) (bare []).store
    Store.service.Reports (.id "/") (Store.Houses (.id "/")) ∧
      (bare []).store.Houses (.id "/") bareTree ∧
      ∃ entry failure, reporting.1 = .ok entry ∧ entry.name = "a" ∧ entry.isDir = true ∧
        plain.1 = .error failure ∧ failure.cause = .notFound ∧ plain.2 = reporting.2 ∧
        plain.2.nodes.map Node.key = ["/", "/a"] :=
  ⟨Store.service_reports, houses_bare, _, _, rfl, rfl, rfl, rfl, rfl, rfl, rfl⟩

end Bare

end Mount

end VirtualFs
