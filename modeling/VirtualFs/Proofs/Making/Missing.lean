import VirtualFs.Proofs.Making.Housing
import VirtualFs.Proofs.Making.Write

namespace VirtualFs

namespace Tree

/-- The directories that are missing on the way to a path and at its end, outermost first. -/
def missing (t : Tree) : Path → List Path
  | .root => []
  | .child dir name =>
    if t.item (dir.child name).place = none then t.missing dir ++ [dir.child name] else []

/-- Some directories are new in a tree, and the rest is as before. -/
structure Gained (t : Tree) (paths : List Path) (t' : Tree) : Prop where
  kept : ∀ {here x}, t.item here = some x → t'.item here = some x
  made : ∀ path ∈ paths, t'.HasDir path.place
  rest : ∀ {here}, (∀ path ∈ paths, path.place ≠ here) → t'.item here = t.item here
  keeps : ∀ {object dir}, t.place object = some dir → t.HasDir dir → t'.place object = some dir

/-- A directory was asked for in the object of the one above it. -/
def Orders (t : Tree) (order : Object × String) (path : Path) : Prop :=
  ∃ dir name, path = .child dir name ∧ t.place order.1 = some dir.place ∧ t.HasDir dir.place ∧
    order.2 = name.text

variable {t t' t'' : Tree} {path dir : Path} {name : Segment} {here : Place} {x : Item}
  {paths : List Path}

theorem missing_child_of_free (hfree : t.item (dir.child name).place = none) :
    t.missing (dir.child name) = t.missing dir ++ [dir.child name] :=
  if_pos hfree

theorem missing_of_item (hitem : t.item path.place = some x) : t.missing path = [] := by
  cases path with
  | root => rfl
  | child dir name =>
    refine if_neg fun hfree => ?_
    rw [hfree] at hitem
    cases hitem

/-- Nothing else is missing than the paths on the way where nothing stands. -/
theorem mem_missing {other : Path} :
    other ∈ t.missing path ↔ other.place <+: path.place ∧ t.item other.place = none := by
  induction path with
  | root =>
    refine ⟨fun hmem => (List.not_mem_nil hmem).elim, ?_⟩
    rintro ⟨hbelow, hfree⟩
    obtain ⟨top, htop, -⟩ := t.root
    rw [List.prefix_nil.1 hbelow, htop] at hfree
    cases hfree
  | child dir name ih =>
    cases hitem : t.item (dir.child name).place with
    | some x =>
      rw [missing_of_item hitem]
      refine ⟨fun hmem => (List.not_mem_nil hmem).elim, ?_⟩
      rintro ⟨hbelow, hfree⟩
      by_cases hsame : other.place = (dir.child name).place
      · rw [hsame, hitem] at hfree
        cases hfree
      · obtain ⟨y, habove, -⟩ := hasDir_above hitem hbelow hsame
        rw [habove] at hfree
        cases hfree
    | none =>
      rw [missing_child_of_free hitem, List.mem_append, List.mem_singleton, ih, Path.place,
        List.prefix_concat_iff]
      constructor
      · rintro (⟨hbelow, hfree⟩ | rfl)
        · exact ⟨.inr hbelow, hfree⟩
        · exact ⟨.inl rfl, hitem⟩
      · rintro ⟨hsame | hbelow, hfree⟩
        · exact .inr (Path.place_injective hsame)
        · exact .inl ⟨hbelow, hfree⟩

theorem Gained.refl (t : Tree) : t.Gained [] t :=
  ⟨id, List.forall_mem_nil _, fun _ => rfl, fun h _ => h⟩

theorem Gained.hasDir (hgained : t.Gained paths t') (hdir : t.HasDir here) : t'.HasDir here := by
  obtain ⟨x, hitem, hfolder⟩ := hdir
  exact ⟨x, hgained.kept hitem, hfolder⟩

/-- One more directory that was missing until now. -/
theorem Gained.add (hgained : t.Gained paths t') (hfree : t'.item path.place = none)
    (hgains : t'.Gains path.place x t'') (hfolder : x.object.isFolder = true) :
    t.Gained (paths ++ [path]) t'' := by
  have hstays : ∀ {here}, here ≠ path.place → t''.item here = t'.item here := fun hne =>
    (hgains.item _).trans (if_neg hne)
  have hkept : ∀ {here y}, t'.item here = some y → t''.item here = some y := by
    intro here y hitem
    rw [hstays, hitem]
    rintro rfl
    rw [hfree] at hitem
    cases hitem
  refine ⟨fun hitem => hkept (hgained.kept hitem), ?_, ?_, ?_⟩
  · refine List.forall_mem_append.2 ⟨fun other hmem => ?_, ?_⟩
    · obtain ⟨y, hitem, hdir⟩ := hgained.made other hmem
      exact ⟨y, hkept hitem, hdir⟩
    · exact List.forall_mem_singleton.2 (hgains.hasDir hfolder)
  · intro here hrest
    have hne : here ≠ path.place := fun hsame => hrest path (by simp) hsame.symm
    rw [hstays hne]
    exact hgained.rest fun other hmem => hrest other (List.mem_append_left _ hmem)
  · exact fun hplace hdir => hgains.keeps (hgained.keeps hplace hdir) (hgained.hasDir hdir)

theorem Orders.mono {order : Object × String} (horders : t.Orders order path)
    (hkeeps : ∀ {object dir}, t.place object = some dir → t.HasDir dir → t'.place object = some dir)
    (hdir : ∀ {dir}, t.HasDir dir → t'.HasDir dir) : t'.Orders order path := by
  obtain ⟨dir, name, hpath, hplace, hthere, hname⟩ := horders
  exact ⟨dir, name, hpath, hkeeps hplace hthere, hdir hthere, hname⟩

end Tree

namespace Mount

open Operation VirtualFs.Tree

variable {σ : Type} {service : Service σ} {source : RootSource} {shows : σ → Tree → Prop}
  {mount : Mount} {s : σ} {t : Tree} {path dir : Path} {name : Segment} {parent entry : Entry}
  {x : Item}

/-- All names that callers can come across on the way to a path are shown as they are. -/
def ShowsPlainly (mount : Mount) (t : Tree) (path : Path) : Prop :=
  ∀ {name : String}, (∃ dir x, t.item (dir ++ [name]) = some x) ∨ name ∈ path.place →
    mount.mapping.apply name = name

/-- A lookup tells what stands at a path and asks for no change. -/
theorem exists_gives_lookup (hobeys : service.Obeys (housing source) shows)
    (hshows : shows s t) (hplain : mount.ShowsPlainly t path) (other : Path) :
    ∃ past result s', (mount.lookup other).Gives service s past result s' ∧ Quiet past ∧
      shows s' t ∧ mount.Tells source (service.offer s).modified t other result := by
  obtain ⟨result, s', halone, hshows', htells⟩ :=
    exists_alone_lookup_tells hobeys (fun hitem => hplain (.inl ⟨_, _, hitem⟩)) other hshows
  obtain ⟨past, hgives, hquiet⟩ := exists_gives_lookup_of_alone halone
  exact ⟨past, result, s', hgives, hquiet, hshows', htells⟩

/-- A directory that is there is found, and nothing is made. -/
theorem exists_gives_makeDirs_of_dir (hobeys : service.Obeys (housing source) shows)
    (hshows : shows s t) (hplain : mount.ShowsPlainly t path)
    (hshown : mount.entryAt source (service.offer s).modified t path = some entry)
    (hdir : entry.isDir = true) :
    ∃ past s', (mount.makeDirs path).Gives service s past (.ok entry) s' ∧ Quiet past ∧
      shows s' t := by
  obtain ⟨past, result, s', hgives, hquiet, hshows', htells⟩ :=
    exists_gives_lookup hobeys hshows hplain path
  obtain ⟨x, hitem, -⟩ := item_of_entryAt hshown
  cases htells with
  | found hshown' =>
    obtain rfl := Option.some.inj (hshown.symm.trans hshown')
    exact ⟨past, s', gives_makeDirs_of_found hgives hdir, hquiet, hshows'⟩
  | missing hfree =>
    rw [hfree] at hitem
    cases hitem
  | blocked hfree =>
    rw [hfree] at hitem
    cases hitem

/-- A file at a path or above it is found out before anything is made. -/
theorem exists_gives_makeDirs_of_blocked (hobeys : service.Obeys (housing source) shows)
    (hshows : shows s t) (hplain : mount.ShowsPlainly t path) (hblocked : t.Blocked path.place) :
    ∃ past failure s', (mount.makeDirs path).Gives service s past (.error failure) s' ∧
      failure.cause = .notADirectory ∧ Quiet past ∧ shows s' t := by
  obtain ⟨past, result, s', hgives, hquiet, hshows', htells⟩ :=
    exists_gives_lookup hobeys hshows hplain path
  cases path with
  | root => exact (not_blocked_of_hasDir (hasDir_root t) hblocked).elim
  | child dir name =>
    have hstop : ∀ {failure : Failure}, (mount.lookup (.child dir name)).Gives service s past
        (.error failure) s' → failure.cause = .notADirectory →
        (mount.makeDirs (.child dir name)).Gives service s past (.error failure) s' := by
      intro failure hfails hcause
      rw [makeDirs, ← List.append_nil past]
      refine hfails.attempt_bind ?_
      dsimp only
      rw [if_neg (by simp [Failure.leadsNowhere, hcause])]
      exact ⟨rfl, rfl⟩
    cases htells with
    | missing _ hclear => exact (hclear hblocked).elim
    | blocked _ _ hcause => exact ⟨past, _, s', hstop hgives hcause, hcause, hquiet, hshows'⟩
    | @found found hshown =>
      obtain ⟨x, hitem, hisDir⟩ := item_of_entryAt hshown
      have hfile : found.isDir = false := by
        rw [hisDir, ← Bool.not_eq_true]
        exact fun hfolder => not_blocked_of_hasDir ⟨x, hitem, hfolder⟩ hblocked
      refine ⟨past, Failure.during (Cause.notADirectory : Failure) (dir.child name).text, s', ?_,
        rfl, hquiet, hshows'⟩
      rw [makeDirs, ← List.append_nil past]
      refine hgives.attempt_bind ?_
      dsimp only
      rw [hfile]
      exact ⟨rfl, rfl⟩

/-- A listing of one's own shows a directory that is there. -/
theorem exists_alone_listAfresh (hobeys : service.Obeys (housing source) shows)
    (hshows : shows s t)
    (hplain : ∀ {dir name x}, t.item (dir ++ [name]) = some x → mount.mapping.apply name = name)
    (hplace : t.place parent.object = some dir.place) (hdir : t.HasDir dir.place)
    (hitem : t.item (dir.child name).place = some x) :
    ∃ s', (mount.listAfresh parent dir name).alone service s = (.ok ⟨name.text, x.object⟩, s') ∧
      shows s' t := by
  obtain ⟨objects, s', hanswer, hshows', hobjects⟩ :=
    exists_answer_children hobeys hshows hplace hdir true
  have hask : (ask (.list parent.object true)).alone service s = (.ok objects, s') := hanswer
  refine ⟨s', ?_, hshows'⟩
  refine (alone_bind_of_ok (alone_during_of_ok _ hask)).trans ?_
  rw [alone_require]
  rcases hobjects.pick hplain name with ⟨object, content, hchild, hpick⟩ | ⟨hfree, -⟩
  · obtain rfl := Option.some.inj (hitem.symm.trans hchild)
    rw [hpick]
  · rw [Path.place, hfree] at hitem
    cases hitem

/-- In either way a directory is asked for, it is there afterwards, and its object may be
    reported. -/
theorem exists_alone_create (hobeys : service.Obeys (housing source) shows)
    (hshows : shows s t) (hplace : t.place parent.object = some dir.place)
    (hdir : t.HasDir dir.place) (hfree : t.item (dir.child name).place = none) (form : Form) :
    ∃ made? x s' t', (create parent name form).alone service s = (.ok made?, s') ∧ shows s' t' ∧
      x.object.isFolder = true ∧ t.Gains (dir.child name).place x t' ∧
      ∀ {made}, made? = some made → made = x.object := by
  have huses : Usable name.text ∧ t.IsDir parent.object := ⟨name.usable, dir.place, hplace, hdir⟩
  cases form with
  | reporting =>
    obtain ⟨t', hadds, hshows'⟩ :=
      hobeys.answer (.makeDirReporting parent.object name.text) huses hshows
    obtain ⟨made?, x, hanswer, hfolder, hgains, hmade⟩ := hadds hplace hdir hfree
    exact ⟨made?, x, _, t', Prod.ext hanswer rfl, hshows', hfolder, hgains, hmade⟩
  | plain =>
    obtain ⟨t', hadds, hshows'⟩ := hobeys.answer (.makeDir parent.object name.text) huses hshows
    obtain ⟨made?, x, hanswer, hfolder, hgains, -⟩ := hadds hplace hdir hfree
    cases hasked : (service.answer (.makeDir parent.object name.text) s).1 with
    | error failure =>
      rw [hasked] at hanswer
      cases hanswer
    | ok =>
      have hask : (ask (.makeDir parent.object name.text)).alone service s =
          (.ok (), (service.answer (.makeDir parent.object name.text) s).2) :=
        Prod.ext hasked rfl
      exact ⟨none, x, _, t', alone_bind_of_ok hask, hshows', hfolder, hgains, fun h => by cases h⟩

/-- A directory that is missing is made below its parent. -/
theorem exists_alone_createIn (hobeys : service.Obeys (housing source) shows)
    (hshows : shows s t) (hplain : mount.ShowsPlainly t (dir.child name))
    (hplace : t.place parent.object = some dir.place) (hdir : t.HasDir dir.place)
    (hfree : t.item (dir.child name).place = none) :
    ∃ x s' t', (mount.createIn parent dir name).alone service s =
        (.ok ⟨name.text, x.object⟩, s') ∧
      shows s' t' ∧ x.object.isFolder = true ∧ t.Gains (dir.child name).place x t' := by
  obtain ⟨-, ⟨form, hform⟩, -⟩ := hobeys.offer hshows
  obtain ⟨made?, x, s₁, t', hcreate, hshows₁, hfolder, hgains, hmade⟩ :=
    exists_alone_create hobeys hshows hplace hdir hfree form
  have hitem : t'.item (dir.child name).place = some x := (hgains.item _).trans (if_pos rfl)
  have hstays : ∀ {here y}, t.item here = some y → t'.item here = some y := by
    intro here y hbefore
    refine (hgains.item _).trans ((if_neg ?_).trans hbefore)
    rintro rfl
    rw [hfree] at hbefore
    cases hbefore
  have hplain' : ∀ {dir name x}, t'.item (dir ++ [name]) = some x →
      mount.mapping.apply name = name := by
    intro dir' name' y hitem'
    rw [hgains.item] at hitem'
    split at hitem'
    case isTrue hsame =>
      refine hplain (.inr ?_)
      rw [← hsame]
      simp
    case isFalse => exact hplain (.inl ⟨dir', y, hitem'⟩)
  obtain ⟨s₂, hresolve, hshows₂⟩ : ∃ s₂,
      (mount.resolve parent dir name (.ok made?)).alone service s₁ =
        (.ok ⟨name.text, x.object⟩, s₂) ∧ shows s₂ t' := by
    cases made? with
    | some made =>
      obtain rfl := hmade rfl
      exact ⟨s₁, rfl, hshows₁⟩
    | none =>
      obtain ⟨y, hdirItem, hdirFolder⟩ := hdir
      exact exists_alone_listAfresh hobeys hshows₁ hplain'
        (hgains.keeps hplace ⟨y, hdirItem, hdirFolder⟩) ⟨y, hstays hdirItem, hdirFolder⟩ hitem
  refine ⟨x, s₂, t', ?_, hshows₂, hfolder, hgains⟩
  have hattempt : (attempt (create parent name form)).alone service s = (.ok (.ok made?), s₁) := by
    rw [alone_attempt, hcreate]
  rw [createIn_eq, alone_bind_of_ok (alone_offer service s), hform,
    alone_bind_of_ok (alone_require service s _), alone_bind_of_ok hattempt,
    alone_bind_of_ok hresolve, alone_bind_of_ok (alone_log service s₂ _), alone_pure]

/-- With nobody else about an operation comes to the directory at a path, and makes those and only
    those directories that are missing, outermost first and each in the one above it. -/
def Furnishes (mount : Mount) (service : Service σ) (source : RootSource)
    (shows : σ → Tree → Prop) (operation : Operation Entry) (path : Path) (s : σ) (t : Tree) :
    Prop :=
  ∃ past entry s' t', operation.Gives service s past (.ok entry) s' ∧ shows s' t' ∧
    mount.entryAt source (service.offer s).modified t' path = some entry ∧
    t'.place entry.object = some path.place ∧ entry.isDir = true ∧
    t.Gained (t.missing path) t' ∧ List.Forall₂ t'.Orders (asked past) (t.missing path)

/-- What is shown at a path where no file is in the way is a directory. -/
theorem isDir_of_not_blocked {modified : UInt64}
    (hshown : mount.entryAt source modified t path = some entry)
    (hclear : ¬ t.Blocked path.place) : entry.isDir = true := by
  obtain ⟨x, hitem, hisDir⟩ := item_of_entryAt hshown
  rw [hisDir, ← Bool.not_eq_false]
  exact fun hfile => hclear ⟨path.place, x, List.prefix_rfl, hitem, hfile⟩

theorem furnishes_of_dir (hobeys : service.Obeys (housing source) shows) {s' : σ}
    (hshows : shows s t) {operation : Operation Entry} {past : List Exchange}
    (hgives : operation.Gives service s past (.ok entry) s') (hquiet : Quiet past)
    (hshows' : shows s' t)
    (hshown : mount.entryAt source (service.offer s).modified t path = some entry)
    (hclear : ¬ t.Blocked path.place) :
    mount.Furnishes service source shows operation path s t := by
  obtain ⟨x, hitem, -⟩ := item_of_entryAt hshown
  refine ⟨past, entry, s', t, hgives, hshows', hshown, place_of_entryAt hobeys hshows hshown,
    isDir_of_not_blocked hshown hclear, ?_, ?_⟩
  · rw [missing_of_item hitem]
    exact Gained.refl t
  · rw [missing_of_item hitem, hquiet.asked_eq]
    exact .nil

/-- Something stands at the root, and what is shown at another path does not depend on the time that
    is told of the root. -/
theorem entryAt_eq_of_free {t' : Tree} (hfree : t.item path.place = none)
    (modified modified' : UInt64) :
    mount.entryAt source modified t' path = mount.entryAt source modified' t' path := by
  cases path with
  | root =>
    obtain ⟨top, htop, -⟩ := t.root
    rw [Path.place, htop] at hfree
    cases hfree
  | child dir name => rfl

/-- A directory that is not found is made. -/
theorem furnishes_findOrMake (hobeys : service.Obeys (housing source) shows)
    (hshows : shows s t) (hplain : mount.ShowsPlainly t path) (hclear : ¬ t.Blocked path.place)
    (hmake : ∀ {s}, shows s t →
      mount.Furnishes service source shows (mount.makeDirs path) path s t) :
    mount.Furnishes service source shows
      (findOrMake (mount.lookup path) (mount.makeDirs path)) path s t := by
  obtain ⟨first, result, s₁, hlookup, hquiet, hshows₁, htells⟩ :=
    exists_gives_lookup hobeys hshows hplain path
  cases htells with
  | blocked _ hblocked => exact (hclear hblocked).elim
  | found hshown =>
    refine furnishes_of_dir hobeys hshows ?_ hquiet hshows₁ hshown hclear
    rw [findOrMake, ← List.append_nil first]
    exact hlookup.attempt_bind ⟨rfl, rfl⟩
  | @missing failure hfree _ hcause =>
    obtain ⟨second, parent, s₂, t', hmade, hshows₂, hshown, hplace, hdir, hgained, horders⟩ :=
      hmake hshows₁
    rw [entryAt_eq_of_free hfree _ (service.offer s).modified] at hshown
    refine ⟨first ++ second, parent, s₂, t', ?_, hshows₂, hshown, hplace, hdir, hgained, ?_⟩
    · rw [findOrMake]
      refine hlookup.attempt_bind ?_
      dsimp only
      rwa [if_pos (by simp [Failure.leadsNowhere, hcause])]
    · rwa [asked_append, hquiet.asked_eq]

theorem ShowsPlainly.of_child (hplain : mount.ShowsPlainly t (dir.child name)) :
    mount.ShowsPlainly t dir :=
  fun h => hplain (h.imp_right (List.mem_append_left _))

/-- No other names come up while directories are made on the way to a path. -/
theorem ShowsPlainly.of_gained {t' : Tree} (hplain : mount.ShowsPlainly t path)
    (hgained : t.Gained (t.missing dir) t') (hbelow : dir.place <+: path.place) :
    mount.ShowsPlainly t' path := by
  rintro text (⟨above, x, hitem⟩ | hmem)
  · by_cases hnew : ∃ other ∈ t.missing dir, other.place = above ++ [text]
    · obtain ⟨other, hother, hplace⟩ := hnew
      have htext : text ∈ other.place := by
        rw [hplace]
        exact List.mem_append_right _ List.mem_cons_self
      exact hplain (.inr (((mem_missing.1 hother).1.trans hbelow).subset htext))
    · have hrest : t'.item (above ++ [text]) = t.item (above ++ [text]) :=
        hgained.rest fun other hother hplace => hnew ⟨other, hother, hplace⟩
      exact hplain (.inl ⟨above, x, hrest.symm.trans hitem⟩)
  · exact hplain (.inr hmem)

/-- Where no file is in the way, the directory at a path comes about. By induction on the path, as
    the parent is made first. -/
theorem furnishes_makeDirs (hobeys : service.Obeys (housing source) shows)
    (hshows : shows s t) (path : Path) (hplain : mount.ShowsPlainly t path)
    (hclear : ¬ t.Blocked path.place) :
    mount.Furnishes service source shows (mount.makeDirs path) path s t := by
  induction path generalizing s with
  | root =>
    obtain ⟨past, result, s', hlookup, hquiet, hshows', htells⟩ :=
      exists_gives_lookup hobeys hshows hplain .root
    cases htells with
    | found hshown => exact furnishes_of_dir hobeys hshows hlookup hquiet hshows' hshown hclear
    | missing hfree =>
      obtain ⟨top, htop, -⟩ := t.root
      rw [Path.place, htop] at hfree
      cases hfree
    | blocked _ hblocked => exact (hclear hblocked).elim
  | child dir name ih =>
    obtain ⟨first, result, s₁, hlookup, hquiet, hshows₁, htells⟩ :=
      exists_gives_lookup hobeys hshows hplain (.child dir name)
    cases htells with
    | blocked _ hblocked => exact (hclear hblocked).elim
    | found hshown =>
      have hgives := gives_makeDirs_of_found hlookup (isDir_of_not_blocked hshown hclear)
      exact furnishes_of_dir hobeys hshows hgives hquiet hshows₁ hshown hclear
    | @missing failure hfree _ hcause =>
      have hclear' : ¬ t.Blocked dir.place := fun h => hclear ((blocked_child hfree).2 h)
      obtain ⟨second, parent, s₂, t₁, hparent, hshows₂, hshown, hplace, hdir, hgained, horders⟩ :=
        furnishes_findOrMake hobeys hshows₁ hplain.of_child hclear'
          (fun hshows => ih hshows hplain.of_child hclear')
      obtain ⟨y, hitem, hisDir⟩ := item_of_entryAt hshown
      have hthere : t₁.HasDir dir.place := ⟨y, hitem, hisDir.symm.trans hdir⟩
      have hfree₁ : t₁.item (dir.child name).place = none := by
        rw [hgained.rest, hfree]
        intro path hpath hsame
        have hlength := (mem_missing.1 hpath).1.length_le
        rw [hsame, Path.place, List.length_append, List.length_singleton] at hlength
        omega
      obtain ⟨x, s₃, t', hcreate, hshows₃, hfolder, hgains⟩ :=
        exists_alone_createIn hobeys hshows₂ (hplain.of_gained hgained (List.prefix_append _ _))
          hplace hthere hfree₁
      obtain ⟨third, hcreated⟩ :
          ∃ third, (mount.createIn parent dir name).Gives service s₂ third _ s₃ :=
        ⟨_, gives_of_alone hcreate⟩
      obtain ⟨acts, hreturns, rfl⟩ := hcreated.exists_returns
      have hstep : t₁.Gained [dir.child name] t' := (Gained.refl t₁).add hfree₁ hgains hfolder
      have hmissing := missing_child_of_free hfree
      have hitem' : t'.item (dir.child name).place = some x := (hgains.item _).trans (if_pos rfl)
      refine ⟨first ++ (second ++ exchangesOf acts), ⟨name.text, x.object⟩, s₃, t', ?_, hshows₃, ?_,
        t'.found hitem', hfolder, ?_, ?_⟩
      · rw [makeDirs]
        refine hlookup.attempt_bind ?_
        dsimp only
        rw [if_pos (by simp [Failure.leadsNowhere, hcause])]
        exact hparent.bind hcreated
      · rw [entryAt, hitem']
        rfl
      · rw [hmissing]
        exact hgained.add hfree₁ hgains hfolder
      · rw [hmissing, asked_append, asked_append, hquiet.asked_eq,
          (makes_of_createIn hreturns).asked_eq]
        refine List.rel_append (horders.imp fun _ _ h => h.mono hstep.keeps hstep.hasDir) ?_
        exact .cons ⟨dir, name, rfl, hstep.keeps hplace hthere, hstep.hasDir hthere, rfl⟩ .nil

/-- Making a directory makes those and only those directories on the way to it that are missing,
    outermost first and each in the one above it, and leaves everything else as it was. Afterwards
    there is nothing left to make, and the same object is found. A root that is not asked for is
    described with the time that the backend tells, so there this takes that it still tells the
    same. Where a file is in the way, nothing is made at all. -/
theorem makeDirs_missing (hobeys : service.Obeys (housing source) shows)
    (hshows : shows s t) (hplain : mount.ShowsPlainly t path) :
    (¬ t.Blocked path.place → ∃ past entry s₁ t₁,
      (mount.makeDirs path).Gives service s past (.ok entry) s₁ ∧ shows s₁ t₁ ∧
      entry.isDir = true ∧ t₁.place entry.object = some path.place ∧
      List.Forall₂ t₁.Orders (asked past) (t.missing path) ∧ t.Gained (t.missing path) t₁ ∧
      ∀ {s₂ : σ}, shows s₂ t₁ →
        (path = .root → source ≠ .asked →
          (service.offer s₂).modified = (service.offer s).modified) →
        ∃ again s₃, (mount.makeDirs path).Gives service s₂ again (.ok entry) s₃ ∧ Quiet again ∧
          shows s₃ t₁) ∧
    (t.Blocked path.place → ∃ past failure s₁,
      (mount.makeDirs path).Gives service s past (.error failure) s₁ ∧
      failure.cause = .notADirectory ∧ Quiet past ∧ shows s₁ t) := by
  refine ⟨fun hclear => ?_, exists_gives_makeDirs_of_blocked hobeys hshows hplain⟩
  obtain ⟨past, entry, s₁, t₁, hgives, hshows₁, hshown, hplace, hdir, hgained, horders⟩ :=
    furnishes_makeDirs hobeys hshows path hplain hclear
  refine ⟨past, entry, s₁, t₁, hgives, hshows₁, hdir, hplace, horders, hgained, ?_⟩
  intro s₂ hshows₂ hmodified
  refine exists_gives_makeDirs_of_dir hobeys hshows₂ (hplain.of_gained hgained List.prefix_rfl) ?_
    hdir
  cases path with
  | root =>
    cases source with
    | asked => exact hshown
    | id | path => rwa [hmodified rfl nofun]
  | child dir name => exact hshown

section Bare

open Scenario World

theorem houses_bare : (bare []).store.Houses (.id "/") bareTree where
  shows := (carries_bare (by simp)).store
  offers := by
    refine ⟨rfl, ⟨.plain, rfl⟩, rfl, fun {top} _ name => ?_⟩
    have hkey : keyOf ((RootSource.id "/").describe name 0 top.object) = Path.root.text := by
      simp [RootSource.describe, keyOf, Path.text]
    exact (congrArg placeAt hkey).trans (placeAt_text .root)

/-- Nothing but the root stands in an empty store, and it is a directory. -/
theorem not_blocked_bareTree (here : Place) : ¬ bareTree.Blocked here := by
  rintro ⟨above, x, -, hitem, hfile⟩
  rw [bareTree] at hitem
  dsimp only at hitem
  split at hitem
  case isTrue =>
    obtain rfl := Option.some.inj hitem
    cases hfile
  case isFalse => cases hitem

/-- Two directories are missing on the way to a path in an empty store, and two are made. -/
theorem makeDirs_missing_bare :
    let dir : Path := .child .root ⟨"d", by decide⟩
    let path : Path := .child dir ⟨"e", by decide⟩
    bareTree.missing path = [dir, path] ∧ ∃ past entry s₁, ∃ t₁ : Tree,
      (plainMount.makeDirs path).Gives Store.service (bare []).store past (.ok entry) s₁ ∧
        t₁.place entry.object = some ["d", "e"] ∧ (asked past).length = 2 := by
  intro dir path
  have hmissing : bareTree.missing path = [dir, path] := by
    rw [missing_child_of_free rfl, missing_child_of_free rfl]
    rfl
  have hplain : plainMount.ShowsPlainly bareTree path := fun _ => rfl
  obtain ⟨past, entry, s₁, t₁, hgives, -, -, hplace, horders, -⟩ :=
    (makeDirs_missing Store.service_obeys_housing houses_bare hplain).1 (not_blocked_bareTree _)
  rw [hmissing] at horders
  exact ⟨hmissing, past, entry, s₁, t₁, hgives, hplace, horders.length_eq⟩

end Bare

end Mount

end VirtualFs
