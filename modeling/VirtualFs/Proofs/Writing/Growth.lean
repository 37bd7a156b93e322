import VirtualFs.Proofs.Accord
import VirtualFs.Proofs.Writing.Tree

namespace VirtualFs.Tree

/-- A file on its way to a place. -/
structure Target where
  place : Place
  content : List UInt8

variable (targets : List Target)

/-- A place that some target lies below. -/
def Above (here : Place) : Prop :=
  ∃ target ∈ targets, here <+: target.place ∧ here ≠ target.place

/-- What may become of a place while some files are written: a missing directory above one of them
    is made, or a file is put where one of them belongs. -/
inductive Becomes (here : Place) : Option Item → Option Item → Prop
  | same (x : Option Item) : Becomes here x x
  | made {x : Item} (above : Above targets here) (folder : x.object.isFolder = true) :
      Becomes here none (some x)
  | written {before : Option Item} {x : Item} {target : Target} (mem : target ∈ targets)
      (place : target.place = here) (free : ∀ {y}, before = some y → y.object.isFolder = false)
      (file : x.object.isFolder = false) (content : x.content = target.content) :
      Becomes here before (some x)

/-- The growth of a tree while some files are written. Objects of directories keep their meaning. -/
structure Grows (t t' : Tree) : Prop where
  item : ∀ here, Becomes targets here (t.item here) (t'.item here)
  keeps : ∀ {object dir}, t.place object = some dir → t.HasDir dir → t'.place object = some dir

/-- Files can be written into a tree: none is to take the place of a directory, and what is there
    above them, now or when all are written, is no file. -/
structure Writable (t : Tree) : Prop where
  free : ∀ target ∈ targets, ¬ t.HasDir target.place
  above : ∀ {here x}, Above targets here → t.item here = some x → x.object.isFolder = true
  apart : ∀ target ∈ targets, ¬ Above targets target.place

variable {targets} {t t' t'' : Tree} {here dir : Place} {x : Item}

theorem Becomes.trans {first middle last : Option Item} (hfirst : Becomes targets here first middle)
    (hlast : Becomes targets here middle last) : Becomes targets here first last := by
  cases hlast with
  | same => exact hfirst
  | made habove hfolder =>
    cases hfirst with
    | same => exact .made habove hfolder
  | written hmem hplace hfree hfile hcontent =>
    cases hfirst with
    | same => exact .written hmem hplace hfree hfile hcontent
    | made habove hfolder =>
      rw [hfree rfl] at hfolder
      cases hfolder
    | written _ _ hfree' _ _ => exact .written hmem hplace hfree' hfile hcontent

/-- A directory is left as it is. -/
theorem Becomes.eq_of_folder {after : Option Item} (hfolder : x.object.isFolder = true)
    (hbecomes : Becomes targets here (some x) after) : after = some x := by
  cases hbecomes with
  | same => rfl
  | written _ _ hfree _ _ =>
    rw [hfree rfl] at hfolder
    cases hfolder

/-- A file that stands at a target holds one of the contents for that target. -/
def HasFile (targets : List Target) (t : Tree) (here : Place) : Prop :=
  ∃ x target, t.item here = some x ∧ x.object.isFolder = false ∧ target ∈ targets ∧
    target.place = here ∧ x.content = target.content

theorem Grows.refl (t : Tree) : Grows targets t t :=
  ⟨fun _ => .same _, fun hplace _ => hplace⟩

theorem Grows.item_of_folder (hgrows : Grows targets t t') (hitem : t.item here = some x)
    (hfolder : x.object.isFolder = true) : t'.item here = some x :=
  Becomes.eq_of_folder hfolder (hitem ▸ hgrows.item here)

theorem Grows.hasDir (hgrows : Grows targets t t') (hdir : t.HasDir dir) : t'.HasDir dir := by
  obtain ⟨x, hitem, hfolder⟩ := hdir
  exact ⟨x, hgrows.item_of_folder hitem hfolder, hfolder⟩

theorem Grows.trans (hfirst : Grows targets t t') (hlast : Grows targets t' t'') :
    Grows targets t t'' :=
  ⟨fun here => (hfirst.item here).trans (hlast.item here),
    fun hplace hdir => hlast.keeps (hfirst.keeps hplace hdir) (hfirst.hasDir hdir)⟩

theorem Grows.hasFile (hgrows : Grows targets t t') (hfile : HasFile targets t here) :
    HasFile targets t' here := by
  obtain ⟨x, target, hitem, hplain, hmem, hplace, hcontent⟩ := hfile
  have hbecomes := hgrows.item here
  rw [hitem] at hbecomes
  cases hafter : t'.item here with
  | none =>
    rw [hafter] at hbecomes
    cases hbecomes
  | some y =>
    rw [hafter] at hbecomes
    cases hbecomes with
    | same => exact ⟨x, target, hafter, hplain, hmem, hplace, hcontent⟩
    | written hmem' hplace' _ hfile' hcontent' =>
      exact ⟨y, _, hafter, hfile', hmem', hplace', hcontent'⟩

/-- What one new item makes of a tree is growth if that item was allowed to come. -/
theorem Gains.grows (hgains : t.Gains here x t')
    (hbecomes : Becomes targets here (t.item here) (some x)) :
    Grows targets t t' := by
  refine ⟨fun other => ?_, hgains.keeps⟩
  rw [hgains.item]
  split
  case isTrue hother => exact hother ▸ hbecomes
  case isFalse => exact .same _

theorem Gains.hasDir (hgains : t.Gains here x t') (hfolder : x.object.isFolder = true) :
    t'.HasDir here := by
  have hitem : t'.item here = some x := by rw [hgains.item, if_pos rfl]
  exact ⟨x, hitem, hfolder⟩

theorem Above.of_child {name : String} (habove : Above targets (dir ++ [name])) :
    Above targets dir := by
  obtain ⟨target, hmem, hbelow, -⟩ := habove
  refine ⟨target, hmem, (List.prefix_append dir [name]).trans hbelow, ?_⟩
  rintro rfl
  have hlength := hbelow.length_le
  rw [List.length_append, List.length_singleton] at hlength
  omega

theorem above_of_mem {target : Target} {name : String} (hmem : target ∈ targets)
    (hplace : target.place = dir ++ [name]) : Above targets dir := by
  refine ⟨target, hmem, hplace ▸ List.prefix_append dir [name], ?_⟩
  rw [hplace]
  simp

/-- A file by itself can be written where no directory is, if nothing above it is a file. -/
theorem writable_singleton {target : Target} (hfree : ¬ t.HasDir target.place)
    (habove : ∀ {here x}, here <+: target.place → here ≠ target.place → t.item here = some x →
      x.object.isFolder = true) :
    t.Writable [target] := by
  refine ⟨?_, ?_, ?_⟩
  · intro other hother
    obtain rfl := List.mem_singleton.1 hother
    exact hfree
  · rintro here x ⟨other, hother, hbelow, hne⟩ hitem
    obtain rfl := List.mem_singleton.1 hother
    exact habove hbelow hne hitem
  · rintro _ hself ⟨other, hother, -, hne⟩
    obtain rfl := List.mem_singleton.1 hself
    obtain rfl := List.mem_singleton.1 hother
    exact hne rfl

variable {t₀ : Tree}

/-- No file comes to stand above a target. -/
theorem Writable.folder_of_above (hwritable : t₀.Writable targets) (hgrows : Grows targets t₀ t)
    (habove : Above targets here) (hitem : t.item here = some x) : x.object.isFolder = true := by
  have hbecomes := hgrows.item here
  rw [hitem] at hbecomes
  cases hbefore : t₀.item here with
  | none =>
    rw [hbefore] at hbecomes
    cases hbecomes with
    | made _ hfolder => exact hfolder
    | written hmem hplace _ _ _ => exact (hwritable.apart _ hmem (hplace ▸ habove)).elim
  | some y =>
    rw [hbefore] at hbecomes
    cases hbecomes with
    | same => exact hwritable.above habove hbefore
    | written hmem hplace _ _ _ => exact (hwritable.apart _ hmem (hplace ▸ habove)).elim

/-- No directory comes to stand at a target. -/
theorem Writable.not_hasDir (hwritable : t₀.Writable targets) (hgrows : Grows targets t₀ t)
    {target : Target} (hmem : target ∈ targets) : ¬ t.HasDir target.place := by
  rintro ⟨x, hitem, hfolder⟩
  have hbecomes := hgrows.item target.place
  rw [hitem] at hbecomes
  cases hbefore : t₀.item target.place with
  | none =>
    rw [hbefore] at hbecomes
    cases hbecomes with
    | made habove _ => exact hwritable.apart target hmem habove
    | written _ _ _ hfile _ =>
      rw [hfile] at hfolder
      cases hfolder
  | some y =>
    rw [hbefore] at hbecomes
    cases hbecomes with
    | same => exact hwritable.free target hmem ⟨x, hbefore, hfolder⟩
    | written _ _ _ hfile _ =>
      rw [hfile] at hfolder
      cases hfolder

/-- What has become of a tree when all the files are written: the directories above them are there,
    each file holds one of the contents for its place, and nothing else has changed. -/
structure Written (targets : List Target) (t t' : Tree) : Prop where
  above : ∀ {here}, Above targets here → t'.HasDir here
  kept : ∀ {here x}, Above targets here → t.item here = some x → t'.item here = some x
  files : ∀ target ∈ targets, HasFile targets t' target.place
  rest : ∀ {here}, ¬ Above targets here → (∀ target ∈ targets, target.place ≠ here) →
    t'.item here = t.item here

/-- Growth comes to this end with the last file. -/
theorem Writable.written (hwritable : t₀.Writable targets) (hgrows : Grows targets t₀ t)
    (hfiles : ∀ target ∈ targets, HasFile targets t target.place) : Written targets t₀ t where
  above := by
    rintro here ⟨target, hmem, hbelow, hne⟩
    obtain ⟨x, _, hitem, -⟩ := hfiles target hmem
    exact hasDir_above hitem hbelow hne
  kept := fun habove hitem => hgrows.item_of_folder hitem (hwritable.above habove hitem)
  files := hfiles
  rest := by
    intro here habove hfree
    have hbecomes := hgrows.item here
    generalize t₀.item here = before, t.item here = after at hbecomes
    cases hbecomes with
    | same => rfl
    | made habove' _ => exact (habove habove').elim
    | written hmem hplace _ _ _ => exact (hfree _ hmem hplace).elim

/-- A name that callers may come across while some files are written. -/
def Occurs (targets : List Target) (t : Tree) (name : String) : Prop :=
  (∃ dir x, t.item (dir ++ [name]) = some x) ∨ ∃ target ∈ targets, name ∈ target.place

/-- No other names come up than those of the tree and of the targets. -/
theorem Grows.occurs (hgrows : Grows targets t₀ t) {name : String}
    (hitem : t.item (dir ++ [name]) = some x) : Occurs targets t₀ name := by
  have hbecomes := hgrows.item (dir ++ [name])
  rw [hitem] at hbecomes
  cases hbefore : t₀.item (dir ++ [name]) with
  | some y => exact .inl ⟨dir, y, hbefore⟩
  | none =>
    rw [hbefore] at hbecomes
    cases hbecomes with
    | made habove _ =>
      obtain ⟨target, hmem, hbelow, -⟩ := habove
      exact .inr ⟨target, hmem, hbelow.subset (by simp)⟩
    | written hmem hplace _ _ _ =>
      refine .inr ⟨_, hmem, ?_⟩
      simp [hplace]

end VirtualFs.Tree
