import VirtualFs.Proofs.Alone
import VirtualFs.Proofs.Writing.Lookup

namespace VirtualFs

namespace Tree

/-- A file stands at a place or above it. -/
def Blocked (t : Tree) (here : Place) : Prop :=
  ∃ above x, above <+: here ∧ t.item above = some x ∧ x.object.isFolder = false

/-- How a backend behaves that can be looked at: it finds no object by its path, has its root
    described, and lists the children of a directory. -/
def looking : Behaviour Tree where
  Uses
    | .list _ _, _ => True
    | .getRoot, _ => True
    | _, _ => False
  lists _ _ := trivial
  offers t offer := offer.get = false ∧ t.ShowsRoot offer
  permits
    | .list object _, t, answer, t' => t' = t ∧ ∀ {dir}, t.place object = some dir → t.HasDir dir →
      ∃ objects, answer = .ok objects ∧ t.Lists dir objects
    | .getRoot, t, answer, t' => t' = t ∧ ∃ object, answer = .ok object ∧
      object.isFolder = true ∧ t.place object = some []
    | _, _, _, _ => True

variable {t t' : Tree} {here dir : Place} {name : String} {x : Item}

theorem not_blocked_of_hasDir (hdir : t.HasDir here) : ¬ t.Blocked here := by
  rintro ⟨above, x, hbelow, hitem, hfile⟩
  obtain ⟨y, hhere, hfolder⟩ := hdir
  have habove : t.HasDir above := by
    by_cases hsame : above = here
    · exact hsame ▸ ⟨y, hhere, hfolder⟩
    · exact hasDir_above hhere hbelow hsame
  exact not_hasDir_of_file hitem hfile habove

/-- What stands in the way of a missing place stands in the way of its directory. -/
theorem blocked_child (hfree : t.item (dir ++ [name]) = none) :
    t.Blocked (dir ++ [name]) ↔ t.Blocked dir := by
  constructor
  · rintro ⟨above, x, hbelow, hitem, hfile⟩
    rcases List.prefix_concat_iff.1 hbelow with rfl | hbelow
    · rw [hfree] at hitem
      cases hitem
    · exact ⟨above, x, hbelow, hitem, hfile⟩
  · rintro ⟨above, x, hbelow, hitem, hfile⟩
    exact ⟨above, x, hbelow.trans (List.prefix_append dir [name]), hitem, hfile⟩

/-- Nothing stands below a place where nothing stands. -/
theorem item_child_eq_none (hfree : t.item dir = none) : t.item (dir ++ [name]) = none := by
  rw [Option.eq_none_iff_forall_ne_some]
  intro x hitem
  obtain ⟨above, habove, -⟩ := t.parent hitem
  rw [hfree] at habove
  cases habove

/-- Nothing stands below a file. -/
theorem item_child_eq_none_of_file (hitem : t.item dir = some x)
    (hfile : x.object.isFolder = false) : t.item (dir ++ [name]) = none := by
  rw [Option.eq_none_iff_forall_ne_some]
  intro y hchild
  exact not_hasDir_of_file hitem hfile (t.parent hchild)

end Tree

namespace Mount

open VirtualFs.Tree

variable {σ : Type} {service : Service σ} {shows : σ → Tree → Prop} {mount : Mount} {t : Tree}
  {s : σ} {path dir : Path} {x : Item}

/-- An entry stands for the item at a path. -/
structure Meets (t : Tree) (path : Path) (x : Item) (entry : Entry) : Prop where
  place : t.place entry.object = some path.place
  isDir : entry.isDir = x.object.isFolder
  file : x.object.isFolder = false → entry.object = x.object

/-- A mount sees a tree: it finds its way to the root, and in a directory to all the children. To
    look changes nothing. -/
structure Sees (mount : Mount) (service : Service σ) (shows : σ → Tree → Prop) : Prop where
  indirect : ∀ {s t}, shows s t → (service.offer s).get = false
  root : ∀ {s t}, shows s t → ∃ entry s', mount.describeRoot.alone service s = (.ok entry, s') ∧
    shows s' t ∧ entry.isDir = true ∧ t.place entry.object = some []
  list : ∀ {s t object dir}, shows s t → t.place object = some dir → t.HasDir dir →
    ∃ objects s', service.answer (.list object false) s = (.ok objects, s') ∧ shows s' t ∧
      t.Lists dir objects

/-- What a lookup comes to: what stands at the path, or the reason why nothing does. -/
inductive Reports (t : Tree) (path : Path) : Except Failure Entry → Prop
  | found {x : Item} {entry : Entry} (item : t.item path.place = some x)
      (meets : Meets t path x entry)
      (shown : ∀ {dir name}, path = .child dir name → entry = ⟨name.text, x.object⟩) :
      Reports t path (.ok entry)
  | missing {failure : Failure} (free : t.item path.place = none)
      (clear : ¬ t.Blocked path.place) (cause : failure.cause = .notFound) :
      Reports t path (.error failure)
  | blocked {failure : Failure} (free : t.item path.place = none)
      (blocked : t.Blocked path.place) (cause : failure.cause = .notADirectory) :
      Reports t path (.error failure)

/-- A root that can be found in the way that an offer prefers is described. -/
theorem exists_alone_describeRoot_of_shown (hroot : t.ShowsRoot (service.offer s))
    (hasked : ∃ object, (service.answer .getRoot s).1 = .ok object ∧ object.isFolder = true ∧
      t.place object = some [] ∧ shows (service.answer .getRoot s).2 t)
    (hshows : shows s t) (mount : Mount) :
    ∃ entry s', mount.describeRoot.alone service s = (.ok entry, s') ∧ shows s' t ∧
      entry.isDir = true ∧ t.place entry.object = some [] := by
  obtain ⟨source, hsource, hroot⟩ := hroot
  rw [describeRoot, Operation.alone_bind, Operation.alone_offer]
  dsimp only
  rw [hsource]
  cases source with
  | asked =>
    obtain ⟨object, hanswer, hfolder, hplace, hshows'⟩ := hasked
    refine ⟨⟨mount.rootName, object⟩, _, ?_, hshows', hfolder, hplace⟩
    simp [Operation.alone_bind, hanswer, Operation.mapError_ok]
  | id id => exact ⟨_, s, rfl, hshows, rfl, hroot _ _⟩
  | path path => exact ⟨_, s, rfl, hshows, rfl, hroot _ _⟩

theorem sees_of_obeys (hobeys : service.Obeys looking shows) (mount : Mount) :
    mount.Sees service shows where
  indirect hshows := (hobeys.offer hshows).1
  root {s t} hshows := by
    obtain ⟨t', ⟨hsame, object, hanswer, hfolder, hplace⟩, hshows'⟩ :=
      hobeys.answer .getRoot trivial hshows
    subst t'
    exact exists_alone_describeRoot_of_shown (hobeys.offer hshows).2
      ⟨object, hanswer, hfolder, hplace, hshows'⟩ hshows mount
  list {s t object dir} hshows hplace hdir := by
    obtain ⟨t', ⟨hsame, hlists⟩, hshows'⟩ :=
      hobeys.answer (.list object false) trivial hshows
    subst t'
    obtain ⟨objects, hanswer, hobjects⟩ := hlists hplace hdir
    exact ⟨objects, _, Prod.ext hanswer rfl, hshows', hobjects⟩

/-- A lookup tells what stands at a path, and whether it is a file that stands in the way of it. By
    induction on the path, as the listing of a directory tells of all the children. -/
theorem Sees.exists_alone_lookup (hsees : mount.Sees service shows) (hshows : shows s t)
    (path : Path) (hplain : ∀ {dir name x}, dir <+: path.place → dir ≠ path.place →
      t.item (dir ++ [name]) = some x → mount.mapping.apply name = name) :
    ∃ result s', (mount.lookup path).alone service s = (result, s') ∧ shows s' t ∧
      Reports t path result := by
  have hget : (service.offer s).get = false := hsees.indirect hshows
  induction path with
  | root =>
    obtain ⟨entry, s', halone, hshows', hisDir, hplace⟩ := hsees.root hshows
    obtain ⟨top, htop, hfolder⟩ := t.root
    refine ⟨_, s', ?_, hshows', .found htop ⟨hplace, hisDir.trans hfolder.symm, ?_⟩ nofun⟩
    · rwa [lookup, alone_direct hget]
    · exact fun hfile => by simp [hfile] at hfolder
  | child dir name ih =>
    have hbelow : dir.place <+: (dir.child name).place := List.prefix_append _ _
    have hne : dir.place ≠ (dir.child name).place := by simp [Path.place]
    obtain ⟨result, s₁, halone, hshows₁, hreports⟩ := ih fun {_ _ _} habove _ =>
      hplain (habove.trans hbelow) fun hsame => by
        have hlength := habove.length_le
        simp only [hsame, Path.place, List.length_append, List.length_singleton] at hlength
        exact Nat.not_succ_le_self _ hlength
    cases hreports with
    | missing hfree hclear hcause =>
      have hfree' : t.item (dir.child name).place = none := item_child_eq_none hfree
      exact ⟨_, s₁, alone_lookup_child_of_error hget halone name, hshows₁,
        .missing hfree' (fun h => hclear ((blocked_child hfree').1 h)) hcause⟩
    | blocked hfree hblocked hcause =>
      have hfree' : t.item (dir.child name).place = none := item_child_eq_none hfree
      exact ⟨_, s₁, alone_lookup_child_of_error hget halone name, hshows₁,
        .blocked hfree' ((blocked_child hfree').2 hblocked) hcause⟩
    | @found x parent hitem hmeets =>
      cases hfolder : x.object.isFolder with
      | false =>
        exact ⟨_, s₁, alone_lookup_child_of_file hget halone (hmeets.isDir.trans hfolder) name,
          hshows₁,
          .blocked (item_child_eq_none_of_file hitem hfolder) ⟨dir.place, x, hbelow, hitem, hfolder⟩
            rfl⟩
      | true =>
        obtain ⟨objects, s₂, hanswer, hshows₂, hobjects⟩ :=
          hsees.list hshows₁ hmeets.place ⟨x, hitem, hfolder⟩
        rw [alone_lookup_child hget halone (hmeets.isDir.trans hfolder) hanswer]
        refine ⟨_, s₂, rfl, hshows₂, ?_⟩
        rcases hobjects.pick (hplain hbelow hne) name with
          ⟨object, content, hchild, hpick⟩ | ⟨hfree, hpick⟩
        · rw [hpick]
          refine .found hchild ⟨t.found hchild, rfl, fun _ => rfl⟩ ?_
          rintro _ _ ⟨⟩
          rfl
        · rw [hpick]
          have hclear : ¬ t.Blocked dir.place := not_blocked_of_hasDir ⟨x, hitem, hfolder⟩
          exact .missing hfree (fun h => hclear ((blocked_child hfree).1 h)) rfl

/-- A lookup finds what stands at a path. -/
theorem Sees.exists_alone_lookup_item (hsees : mount.Sees service shows) (hshows : shows s t)
    (path : Path) (hplain : ∀ {dir name x}, dir <+: path.place → dir ≠ path.place →
      t.item (dir ++ [name]) = some x → mount.mapping.apply name = name)
    (hitem : t.item path.place = some x) :
    ∃ entry s', (mount.lookup path).alone service s = (.ok entry, s') ∧ shows s' t ∧
      Meets t path x entry := by
  obtain ⟨result, s', halone, hshows', hreports⟩ := hsees.exists_alone_lookup hshows path hplain
  cases hreports with
  | @found y entry hitem' hmeets =>
    obtain rfl := Option.some.inj (hitem.symm.trans hitem')
    exact ⟨entry, s', halone, hshows', hmeets⟩
  | missing hfree | blocked hfree =>
    rw [hfree] at hitem
    cases hitem

end Mount

end VirtualFs
