import VirtualFs.Proofs.Attentive.Store
import VirtualFs.Proofs.Making.Climb

namespace VirtualFs

/-- The requests among some exchanges that change a backend if they take effect. -/
def changesIn (past : List Exchange) : List Request :=
  (past.map Exchange.request).filter (·.Changes)

theorem changesIn_append (first second : List Exchange) :
    changesIn (first ++ second) = changesIn first ++ changesIn second := by
  rw [changesIn, List.map_append, List.filter_append]
  rfl

theorem changesIn_eq_nil {past : List Exchange} : changesIn past = [] ↔ Quiet past := by
  simp [changesIn, Quiet]

namespace Tree

/-- All that stands at or below a place is gone, and the rest is as before. -/
def Loses (t : Tree) (here : Place) (t' : Tree) : Prop :=
  ∀ other, t'.item other = if here <+: other then none else t.item other

/-- How a backend behaves that can be looked at and removes what it is asked to, together with all
    that lies below it. It is not asked to remove its root, or what is not there. -/
def clearing : Behaviour Tree where
  Uses
    | .remove object, t => ∃ here x, here ≠ [] ∧ t.place object = some here ∧ t.item here = some x
    | request, t => looking.Uses request t
  lists _ _ := trivial
  offers t offer := looking.offers t offer ∧ offer.remove = true
  permits
    | .remove object, t, answer, t' => ∀ {here}, t.place object = some here → here ≠ [] →
      answer = .ok () ∧ t.Loses here t'
    | request, t, answer, t' => looking.permits request t answer t'

theorem clearing_extends_looking : clearing.Extends looking where
  uses := by
    intro request t huses
    cases request with
    | remove => exact huses.elim
    | list | link | makeDir | makeDirReporting | put | get | getRoot | openLink | readRange | drain
    | connect => exact huses
  offers := And.left
  permits := by
    intro request t answer t' huses hpermits
    cases request with
    | remove => exact huses.elim
    | list | link | makeDir | makeDirReporting | put | get | getRoot | openLink | readRange | drain
    | connect => exact hpermits

variable {t t' : Tree} {here other : Place} {x : Item}

/-- Nothing stands anywhere below a place where nothing stands. -/
theorem item_eq_none_of_prefix (hfree : t.item here = none) (hbelow : here <+: other) :
    t.item other = none := by
  rw [Option.eq_none_iff_forall_ne_some]
  intro x hitem
  by_cases hsame : here = other
  · rw [hsame, hitem] at hfree
    cases hfree
  · obtain ⟨above, habove, -⟩ := hasDir_above hitem hbelow hsame
    rw [hfree] at habove
    cases habove

/-- There is nothing to lose where nothing stands. -/
theorem loses_of_free (hfree : t.item here = none) : t.Loses here t := by
  intro other
  split
  case isTrue hbelow => exact item_eq_none_of_prefix hfree hbelow
  case isFalse => rfl

namespace Loses

variable (hloses : t.Loses here t')
include hloses

theorem item_self : t'.item here = none :=
  (hloses here).trans (if_pos List.prefix_rfl)

theorem of_item (hitem : t'.item other = some x) : t.item other = some x := by
  rw [hloses other] at hitem
  split at hitem
  case isTrue => cases hitem
  case isFalse => exact hitem

/-- Nothing stands in the way of a place where something stood. -/
theorem not_blocked (hitem : t.item here = some x) : ¬ t'.Blocked here := by
  rintro ⟨above, y, hbelow, habove, hfile⟩
  have hne : above ≠ here := by
    rintro rfl
    rw [hloses.item_self] at habove
    cases habove
  exact not_hasDir_of_file (hloses.of_item habove) hfile (hasDir_above hitem hbelow hne)

end Loses

end Tree

namespace Mount

open VirtualFs.Tree Operation

variable {σ : Type} {service : Service σ} {shows : σ → Tree → Prop} {mount : Mount} {t : Tree}
  {s s₁ s' : σ} {name : String} {past : List Exchange}

theorem gives_delete_of_found {entry : Entry} {answer : Except Failure Unit}
    (hlookup : (mount.lookup (mount.pathOf name)).Gives service s past (.ok entry) s₁)
    (hoffer : (service.offer s₁).remove = true)
    (hanswer : service.answer (.remove entry.object) s₁ = (answer, s')) :
    (mount.delete name).Gives service s (past ++ [⟨.remove entry.object, answer⟩])
      (answer.mapError (·.during ("failed to remove [" ++ (mount.pathOf name).text ++ "]"))) s' := by
  have hrequire : (require (service.offer s₁).requireRemove).Gives service s₁ [] (.ok ()) s₁ := by
    rw [Offer.requireRemove, if_pos hoffer]
    exact gives_require _
  exact hlookup.attempt_bind (gives_offer.bind (hrequire.bind ((gives_ask hanswer).during _)))

theorem gives_delete_of_missing {failure : Failure}
    (hlookup : (mount.lookup (mount.pathOf name)).Gives service s past (.error failure) s')
    (hcause : failure.cause = .notFound) :
    (mount.delete name).Gives service s past (.ok ()) s' := by
  have hnowhere : failure.leadsNowhere = true := decide_eq_true hcause
  rw [← List.append_nil past]
  refine hlookup.attempt_bind ?_
  dsimp only
  rw [if_pos hnowhere]
  exact gives_log _

theorem gives_delete_of_error {failure : Failure}
    (hlookup : (mount.lookup (mount.pathOf name)).Gives service s past (.error failure) s')
    (hcause : failure.cause ≠ .notFound) :
    (mount.delete name).Gives service s past (.error (failure.during "failed to get object"))
      s' := by
  have hsomewhere : ¬ failure.leadsNowhere = true := fun h => hcause (of_decide_eq_true h)
  rw [← List.append_nil past]
  refine hlookup.attempt_bind ?_
  dsimp only
  rw [if_neg hsomewhere]
  exact gives_fail _

/-- Whatever a backend holds at a path and above it, a mount finds out in a lookup that changes
    nothing. -/
theorem Sees.exists_gives_lookup (hsees : mount.Sees service shows) (hshows : shows s t)
    (hplain : ∀ {dir name x}, t.item (dir ++ [name]) = some x → mount.mapping.apply name = name)
    (path : Path) :
    ∃ past result s', (mount.lookup path).Gives service s past result s' ∧ Quiet past ∧
      shows s' t ∧ Reports t path result := by
  obtain ⟨result, s', halone, hshows', hreports⟩ :=
    hsees.exists_alone_lookup hshows path fun _ _ => hplain
  obtain ⟨past, hgives, hquiet⟩ := exists_gives_lookup_of_alone halone
  exact ⟨past, result, s', hgives, hquiet, hshows', hreports⟩

/-- Where nothing stands, and nothing stands in the way, a path leads nowhere and there is nothing to
    remove. -/
theorem Sees.gone_of_free (hsees : mount.Sees service shows) (hshows : shows s t)
    (hplain : ∀ {dir name x}, t.item (dir ++ [name]) = some x → mount.mapping.apply name = name)
    (hfree : t.item (mount.pathOf name).place = none)
    (hclear : ¬ t.Blocked (mount.pathOf name).place) :
    (∃ failure, ((mount.stat name).alone service s).1 = .error failure ∧
      failure.cause = .notFound) ∧
    ∃ past s', (mount.delete name).Gives service s past (.ok ()) s' ∧ Quiet past ∧ shows s' t := by
  obtain ⟨past, result, s', hgives, hquiet, hshows', hreports⟩ :=
    hsees.exists_gives_lookup hshows hplain (mount.pathOf name)
  cases hreports with
  | found hitem =>
    rw [hfree] at hitem
    cases hitem
  | missing _ _ hcause =>
    refine ⟨⟨_, congrArg Prod.fst hgives.alone, hcause⟩, past, s', ?_, hquiet, hshows'⟩
    exact gives_delete_of_missing hgives hcause
  | blocked _ hblocked => exact (hclear hblocked).elim

/-- Unless a file stands in the way, a removal succeeds. What stood at the path is gone, together with
    all that lay below it and nothing else, as the one change that was asked for is the removal of the
    object that was found there. From then on the path leads nowhere, and to remove it again is to
    succeed without asking for anything. If a file stands in the way, nothing is changed. The path may
    be any but that of the backend's root. -/
theorem delete_clears (mount : Mount) (name : String) (hobeys : service.Obeys clearing shows)
    (hshows : shows s t)
    (hplain : ∀ {dir name x}, t.item (dir ++ [name]) = some x → mount.mapping.apply name = name)
    (hroot : mount.pathOf name ≠ .root) :
    let here := (mount.pathOf name).place
    let found := ((mount.stat name).alone service s).1
    ∃ past result s' t', (mount.delete name).Gives service s past result s' ∧ shows s' t' ∧
      ((∀ {above x}, above <+: here → above ≠ here → t.item above = some x →
          x.object.isFolder = true) →
        result = .ok () ∧ t.Loses here t' ∧
        ((∃ entry, found = .ok entry) ↔ t.item here ≠ none) ∧
        changesIn past = (match found with
          | .ok entry => [.remove entry.object]
          | .error _ => []) ∧
        ∀ {later}, shows later t' →
          (∃ failure, ((mount.stat name).alone service later).1 = .error failure ∧
            failure.cause = .notFound) ∧
          ∃ past later', (mount.delete name).Gives service later past (.ok ()) later' ∧
            Quiet past ∧ shows later' t') ∧
      ((∃ above x, above <+: here ∧ above ≠ here ∧ t.item above = some x ∧
          x.object.isFolder = false) →
        (∃ failure, result = .error failure ∧ failure.cause = .notADirectory) ∧ Quiet past ∧
          t' = t) := by
  intro here found
  have hsees := sees_of_obeys (hobeys.of_extends clearing_extends_looking) mount
  obtain ⟨past, result, s₁, hgives, hquiet, hshows₁, hreports⟩ :=
    hsees.exists_gives_lookup hshows hplain (mount.pathOf name)
  have hfound : found = result := congrArg Prod.fst hgives.alone
  cases hreports with
  | @found x entry hitem hmeets =>
    have hne : here ≠ [] := fun h => hroot (Path.place_injective h)
    have hthere : t.item here ≠ none := fun h => by cases hitem.symm.trans h
    obtain ⟨t', hremove, hshows'⟩ := hobeys.answer (.remove entry.object)
      ⟨here, x, hne, hmeets.place, hitem⟩ hshows₁
    obtain ⟨hanswer, hloses⟩ := hremove hmeets.place hne
    refine ⟨_, _, _, t', gives_delete_of_found hgives (hobeys.offer hshows₁).2
      (Prod.ext hanswer rfl), hshows', ?_, ?_⟩
    · intro _
      rw [hfound]
      refine ⟨rfl, hloses, ⟨fun _ => hthere, fun _ => ⟨entry, rfl⟩⟩, ?_, fun hlater => ?_⟩
      · rw [changesIn_append, changesIn_eq_nil.2 hquiet]
        rfl
      · exact hsees.gone_of_free hlater (fun hitem' => hplain (hloses.of_item hitem'))
          hloses.item_self (hloses.not_blocked hitem)
    · rintro ⟨above, y, hbelow, hother, habove, hfile⟩
      exact (not_hasDir_of_file habove hfile (hasDir_above hitem hbelow hother)).elim
  | missing hfree hclear hcause =>
    refine ⟨past, .ok (), s₁, t, gives_delete_of_missing hgives hcause, hshows₁, ?_, ?_⟩
    · intro _
      rw [hfound]
      refine ⟨rfl, loses_of_free hfree, ⟨nofun, fun h => (h hfree).elim⟩,
        changesIn_eq_nil.2 hquiet, fun hlater => hsees.gone_of_free hlater hplain hfree hclear⟩
    · rintro ⟨above, x, hbelow, -, hitem, hfile⟩
      exact (hclear ⟨above, x, hbelow, hitem, hfile⟩).elim
  | blocked hfree hblocked hcause =>
    refine ⟨past, _, s₁, t, gives_delete_of_error hgives (by rw [hcause]; nofun), hshows₁, ?_, ?_⟩
    · intro hfolders
      obtain ⟨above, x, hbelow, hitem, hfile⟩ := hblocked
      have hne : above ≠ here := by
        rintro rfl
        rw [hfree] at hitem
        cases hitem
      rw [hfolders hbelow hne hitem] at hfile
      cases hfile
    · exact fun _ => ⟨⟨_, rfl, hcause⟩, hquiet, rfl⟩

end Mount

namespace Scenario.Store

open VirtualFs.Tree

/-- A careful store that removes what it is asked to. -/
def Clears (store : Store) (t : Tree) : Prop :=
  store.Holds t ∧ store.offer.remove = true

theorem careful_obeys_clearing : careful.Obeys clearing Clears where
  offer := fun ⟨hholds, hremove⟩ => ⟨⟨hholds.offers.1, hholds.offers.2.2.2⟩, hremove⟩
  answer := by
    rintro store t request huses ⟨hholds, hremove⟩
    cases request with
    | list object refresh =>
      exact ⟨t, ⟨rfl, hholds.shows.list⟩, hholds, hremove⟩
    | getRoot => exact ⟨t, ⟨rfl, hholds.shows.getRoot⟩, hholds, hremove⟩
    | remove object =>
      obtain ⟨here, x, hne, hplace, hitem⟩ := huses
      have hhome : placeAt (keyOf object) = some here := (hholds.shows.place object).symm.trans hplace
      cases here with
      | nil => exact (hne rfl).elim
      | cons step steps =>
        dsimp only [careful]
        rw [hhome]
        refine ⟨t.prune (step :: steps) hne, ?_, hholds.prune hne, hremove⟩
        intro other hother _
        obtain rfl := Option.some.inj (hplace.symm.trans hother)
        exact ⟨rfl, fun _ => rfl⟩
    | link | makeDir | makeDirReporting | put | get | openLink | readRange | drain | connect =>
      exact huses.elim

/-- An empty careful store, after some requests. -/
def after (requests : List Request) : Store :=
  requests.foldl (fun store request => (careful.answer request store).2) (World.bare []).store

/-- Whatever a careful store is asked, it goes on to hold a tree. By induction on the requests. -/
theorem exists_holds_after (requests : List Request) : ∃ t, (after requests).Holds t := by
  suffices hholds : ∀ {store t}, Holds store t → ∃ t', Holds
      (requests.foldl (fun store request => (careful.answer request store).2) store) t' from
    hholds Mount.holds_bare
  induction requests with
  | nil => exact fun {_ t} hholds => ⟨t, hholds⟩
  | cons request requests ih =>
    intro store t hholds
    obtain ⟨t', -, hholds'⟩ := careful_obeys.answer request trivial hholds
    exact ih hholds'

end Scenario.Store

namespace Mount

open Scenario

/-- A store with a file and with a directory, in which there is a directory that holds another
    file. -/
def furnished : Store :=
  let top : Object := { id := "/", path := "/", isFolder := true }
  let base : Object := { id := "/b", path := "/b", name := "b", isFolder := true }
  let dir : Object := { id := "/b/d", path := "/b/d", name := "d", isFolder := true }
  .after [.makeDir top "b", .makeDir base "d", .put .plain dir ⟨{ name := "x" }, [7]⟩ .root,
    .put .plain top ⟨{ name := "e" }, [8]⟩ .root]

/-- A mount over the directory in such a store. -/
def indoors : Mount :=
  { plainMount with base := .ofString "/b" }

theorem exists_holds_furnished :
    ∃ t, furnished.Holds t ∧ t.HasDir ["b"] ∧ t.HasDir ["b", "d"] ∧
      t.HoldsFile ["b", "d", "x"] [7] ∧ t.HoldsFile ["e"] [8] := by
  obtain ⟨t, hholds⟩ := Store.exists_holds_after _
  have hdir : ∀ key, furnished.hasDir key = true → t.HasDir (Path.ofString key).place := by
    intro key hthere
    obtain ⟨path, rfl, hdir⟩ := hholds.shows.hasDir_iff.1 hthere
    rwa [Path.ofString_text]
  exact ⟨t, hholds, hdir "/b" (by decide +kernel), hdir "/b/d" (by decide +kernel),
    hholds.holdsFile (Path.ofString "/b/d/x") (by decide +kernel),
    hholds.holdsFile (Path.ofString "/e") (by decide +kernel)⟩

/-- A directory is removed with the file in it, and a file elsewhere stays. Below a file there is
    nothing that could be removed. -/
theorem delete_clears_furnished :
    ∃ t, Store.Clears furnished t ∧ t.HasDir ["b", "d"] ∧ t.HoldsFile ["b", "d", "x"] [7] ∧
      (∃ past s' t', (indoors.delete "e/../d").Gives Store.careful furnished past (.ok ()) s' ∧
        Store.Clears s' t' ∧ t'.item ["b", "d", "x"] = none ∧ t'.HoldsFile ["e"] [8] ∧
        (changesIn past).length = 1) ∧
      ∃ past s' failure,
        (indoors.delete "d/x/y").Gives Store.careful furnished past (.error failure) s' ∧
        failure.cause = .notADirectory ∧ Quiet past := by
  obtain ⟨t, hholds, -, hdir, hfile, hother⟩ := exists_holds_furnished
  have hclears : Store.Clears furnished t := ⟨hholds, rfl⟩
  refine ⟨t, hclears, hdir, hfile, ?_, ?_⟩
  · have hhere : (indoors.pathOf "e/../d").place = ["b", "d"] := by decide +kernel
    obtain ⟨past, result, s', t', hgives, hclears', hdone, -⟩ :=
      delete_clears indoors "e/../d" Store.careful_obeys_clearing hclears (fun _ => rfl)
        (fun h => by rw [h] at hhere; cases hhere)
    rw [hhere] at hdone
    obtain ⟨x, hitem, -⟩ := hdir
    obtain ⟨rfl, hloses, hthere, hchanges, -⟩ := hdone fun hbelow hne habove => by
      obtain ⟨y, hitem', hfolder⟩ := Tree.hasDir_above hitem hbelow hne
      rwa [Option.some.inj (habove.symm.trans hitem')]
    obtain ⟨entry, hfound⟩ := hthere.2 fun h => by cases hitem.symm.trans h
    obtain ⟨file, hkept, hplain⟩ := hother
    refine ⟨past, s', t', hgives, hclears', ?_, ⟨file, ?_, hplain⟩, ?_⟩
    · exact (hloses ["b", "d", "x"]).trans (if_pos (List.prefix_append ["b", "d"] ["x"]))
    · exact (hloses ["e"]).trans ((if_neg (by decide)).trans hkept)
    · rw [hchanges, hfound]
      rfl
  · have hhere : (indoors.pathOf "d/x/y").place = ["b", "d", "x", "y"] := by decide +kernel
    obtain ⟨past, result, s', t', hgives, -, -, hrefused⟩ :=
      delete_clears indoors "d/x/y" Store.careful_obeys_clearing hclears (fun _ => rfl)
        (fun h => by rw [h] at hhere; cases hhere)
    rw [hhere] at hrefused
    obtain ⟨file, hitem, hplain⟩ := hfile
    obtain ⟨⟨failure, rfl, hcause⟩, hquiet, -⟩ := hrefused
      ⟨["b", "d", "x"], _, List.prefix_append ["b", "d", "x"] ["y"], by decide, hitem, hplain⟩
    exact ⟨past, s', failure, hgives, hcause, hquiet⟩

end Mount

end VirtualFs
