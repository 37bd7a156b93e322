import Mathlib.Algebra.Group.Nat.Defs
import VirtualFs.Proofs.Alone
import VirtualFs.Proofs.Reading.Ranges
import VirtualFs.Proofs.Writing.Sight
import VirtualFs.Proofs.Writing.Writers
import VirtualFs.Scenario.Reading

namespace VirtualFs

open VirtualFs.Tree

namespace Tree

/-- How a backend behaves that holds a tree and also hands out the content of its files. A file that
    is stored under its true size has that size, and what is read from a reader is what the reader
    serves. -/
def filing : Behaviour Tree where
  Uses
    | .link file, t => ∃ here x, t.place file = some here ∧ t.item here = some x ∧
      x.object.isFolder = false
    | .readRange (.memory _) _, _ => True
    | request, t => behaviour.Uses request t
  lists _ _ := trivial
  offers := behaviour.offers
  permits
    | .link file, t, answer, t' => t' = t ∧ ∀ {here x}, t.place file = some here →
      t.item here = some x → x.object.isFolder = false → answer = .ok (.data x.content)
    | .readRange reader range, t, answer, t' => t' = t ∧ answer = reader.read range
    | .put _ object upload _, t, answer, t' => ∀ {dir}, t.place object = some dir → t.HasDir dir →
      ¬ t.HasDir (dir ++ [upload.object.name]) → answer = .ok () ∧ ∃ file : Object,
        file.isFolder = false ∧
        (upload.object.size = UInt64.ofNat upload.content.length →
          file.size = upload.object.size) ∧
        t.Gains (dir ++ [upload.object.name]) ⟨file, upload.content⟩ t'
    | request, t, answer, t' => behaviour.permits request t answer t'

/-- Handing out content comes on top of holding a tree. -/
theorem filing_extends : filing.Extends behaviour where
  uses := by
    intro request t huses
    cases request with
    | link | readRange => exact huses.elim
    | list | remove | makeDir | makeDirReporting | put | get | getRoot | openLink | drain
    | connect => exact huses
  offers := id
  permits := by
    intro request t answer t' huses hpermits
    cases request with
    | link | readRange => exact huses.elim
    | put form object upload target =>
      intro dir hplace hdir hfree
      obtain ⟨hanswer, file, hfile, -, hgains⟩ := hpermits hplace hdir hfree
      exact ⟨hanswer, file, hfile, hgains⟩
    | list | remove | makeDir | makeDirReporting | get | getRoot | openLink | drain | connect =>
      exact hpermits

theorem filing_extends_looking : filing.Extends looking where
  uses := by
    intro request t huses
    cases request with
    | list | getRoot => exact huses
    | link | remove | makeDir | makeDirReporting | put | get | openLink | readRange | drain
    | connect => exact huses.elim
  offers := fun ⟨hget, _, _, hroot⟩ => ⟨hget, hroot⟩
  permits := by
    intro request t answer t' huses hpermits
    cases request with
    | list | getRoot => exact hpermits
    | link | remove | makeDir | makeDirReporting | put | get | openLink | readRange | drain
    | connect => exact huses.elim

end Tree

namespace Mount

variable {σ : Type} {service : Service σ} {shows : σ → Tree → Prop} {mount : Mount} {t : Tree}
  {s : σ} {x : Item}

theorem sees_of_filing (hobeys : service.Obeys filing shows) (mount : Mount) :
    mount.Sees service shows :=
  sees_of_obeys (hobeys.of_extends filing_extends_looking) mount

/-- The content of a file can be read from any offset on. -/
theorem exists_alone_read (hobeys : service.Obeys filing shows)
    (hplain : ∀ {dir name x}, t.item (dir ++ [name]) = some x → mount.mapping.apply name = name)
    (hshows : shows s t) {name : String} (hitem : t.item (mount.pathOf name).place = some x)
    (hfile : x.object.isFolder = false) (hsize : x.content.length < 2 ^ 64)
    (offset length : UInt64) :
    ∃ s', (mount.read name offset length).alone service s =
      (.ok ⟨(x.content.drop offset.toNat).take length.toNat, none⟩, s') ∧ shows s' t := by
  obtain ⟨file, s₁, hfound, hshows₁, hmeets⟩ :=
    (sees_of_filing hobeys mount).exists_alone_lookup_item hshows _ (fun _ _ => hplain) hitem
  obtain ⟨t', ⟨hsame, hlink⟩, hshows₂⟩ := hobeys.answer (.link file.object)
    ⟨_, x, hmeets.place, hitem, hfile⟩ hshows₁
  subst t'
  obtain ⟨s₂, hlinked⟩ : ∃ s₂, (Operation.ask (.link file.object)).alone service s₁ =
      (.ok (Link.data x.content), s₂) :=
    ⟨_, Prod.ext (hlink hmeets.place hitem hfile) rfl⟩
  replace hshows₂ : shows s₂ t := by rwa [← Operation.alone_ask, hlinked] at hshows₂
  obtain ⟨t', ⟨hsame, hread⟩, hshows₃⟩ := hobeys.answer
    (.readRange (.memory x.content) ⟨offset, some length⟩) trivial hshows₂
  subst t'
  rw [Reader.read, ByteRange.slice_eq hsize] at hread
  obtain ⟨s₃, hserved⟩ : ∃ s₃, (Operation.ask
      (.readRange (.memory x.content) ⟨offset, some length⟩)).alone service s₂ =
        (.ok (⟨(x.content.drop offset.toNat).take length.toNat, none⟩ : Stream), s₃) :=
    ⟨_, Prod.ext hread rfl⟩
  replace hshows₃ : shows s₃ t := by rwa [← Operation.alone_ask, hserved] at hshows₃
  have hopened : (Readable.ofLink file mount.opener (.data x.content)).alone service s₂ =
      (.ok ⟨file, .memory x.content⟩, s₂) := rfl
  refine ⟨s₃, ?_, hshows₃⟩
  refine (Operation.alone_bind_of_ok (Operation.alone_during_of_ok _ hfound)).trans ?_
  rw [if_neg (by simp [hmeets.isDir, hfile])]
  refine (Operation.alone_bind_of_ok (Operation.alone_during_of_ok _ hlinked)).trans ?_
  refine (Operation.alone_bind_of_ok (Operation.alone_during_of_ok _ hopened)).trans ?_
  refine (Operation.alone_bind_of_ok (Operation.alone_log ..)).trans ?_
  refine (Operation.alone_bind_of_ok hserved).trans ?_
  dsimp only
  rw [Stream.take_take, Operation.alone_pure]

end Mount

section

variable {σ : Type} {service : Service σ} {shows : σ → Tree → Prop} {s : σ}

/-- With nobody else about a write stores its file, under the true size, in a tree that has grown by
    no more than the write needs. -/
theorem Writing.exists_alone_write {writing : Writing} (hobeys : service.Obeys filing shows)
    (hshows : shows s writing.start) {name : String} {content : List UInt8}
    (hmem : ⟨(writing.mount.pathOf name).place, content⟩ ∈ writing.targets)
    (hbase : writing.mount.pathOf name ≠ writing.mount.base) :
    ∃ s' t' file, (writing.mount.write name content).alone service s = (.ok (), s') ∧
      shows s' t' ∧ Grows writing.targets writing.start t' ∧
      t'.item (writing.mount.pathOf name).place = some ⟨file, content⟩ ∧
      file.isFolder = false ∧ file.size = UInt64.ofNat content.length := by
  rw [Mount.write]
  dsimp only
  generalize writing.mount.pathOf name = path at hmem hbase ⊢
  cases path with
  | root => exact (writing.writable.free _ hmem (hasDir_root _)).elim
  | child dir base =>
    obtain ⟨-, ⟨form, hform⟩, -⟩ := hobeys.offer hshows
    have hdirs : (writing.mount.makeDirs dir).Safe writing.accord (Provides dir.place) false
        writing.start :=
      safe_makeDirs dir (above_of_mem hmem rfl) (Grows.refl _)
    obtain ⟨t₁, hgrows, hshows₁, parent, hparent, hplace, hdir⟩ :=
      hdirs.alone (hobeys.of_extends filing_extends) hshows
    obtain ⟨s₁, hmade⟩ : ∃ s₁, (writing.mount.makeDirs dir).alone service s = (.ok parent, s₁) :=
      ⟨_, Prod.ext hparent rfl⟩
    replace hshows₁ : shows s₁ t₁ := by rwa [hmade] at hshows₁
    have hfree := writing.writable.not_hasDir hgrows hmem
    let upload : Upload :=
      ⟨{ name := base.text, size := UInt64.ofNat content.length, modified := service.now s,
         created := service.now s }, content⟩
    obtain ⟨t', hput, hshows'⟩ := hobeys.answer
      (.put form parent.object upload (dir.child base))
      ⟨base.usable, rfl, dir.place, hplace, hdir, hfree⟩ hshows₁
    obtain ⟨hanswer, file, hfile, hsize, hgains⟩ := hput hplace hdir hfree
    obtain ⟨s', hstored⟩ : ∃ s', service.answer
        (.put form parent.object upload (dir.child base)) s₁ = (.ok (), s') :=
      ⟨_, Prod.ext hanswer rfl⟩
    replace hshows' : shows s' t' := by rwa [hstored] at hshows'
    have hitem : t'.item (dir.child base).place = some ⟨file, content⟩ :=
      (hgains.item _).trans (if_pos rfl)
    refine ⟨s', t', file, ?_, hshows', hgrows.trans ?_, hitem, hfile, hsize rfl⟩
    · dsimp only
      rw [if_neg hbase]
      simp only [Operation.alone_bind, Operation.alone_offer, Operation.alone_require, hform,
        Operation.alone_now, Operation.alone_during_of_ok _ hmade]
      exact Operation.alone_during_of_ok _ hstored
    · exact (grows_of_put hmem hfree hfile hgains).1

namespace Mount

variable {mount : Mount} {t : Tree}

/-- A file can be read back in a state: its bytes from any offset on, its size, and the directories
    above it. Reading leaves the tree as it is. -/
structure ReadsBack (service : Service σ) (shows : σ → Tree → Prop) (mount : Mount) (t : Tree)
    (name : String) (content : List UInt8) (s : σ) : Prop where
  read : ∀ offset length, ∃ s', (mount.read name offset length).alone service s =
    (.ok ⟨(content.drop offset.toNat).take length.toNat, none⟩, s') ∧ shows s' t
  stat : ∃ entry s', (mount.stat name).alone service s = (.ok entry, s') ∧ shows s' t ∧
    entry.isDir = false ∧ entry.object.size.toNat = content.length
  above : ∀ path : Path, path.place <+: (mount.pathOf name).place → path ≠ mount.pathOf name →
    ∃ entry s', (mount.lookup path).alone service s = (.ok entry, s') ∧ shows s' t ∧
      entry.isDir = true

/-- A name that is not that of the root leads further down than the base. -/
theorem pathOf_ne_base {name : String} (hname : Path.ofString name ≠ .root) :
    mount.pathOf name ≠ mount.base :=
  fun hbase => hname (Path.join_eq_base_iff.1 hbase)

/-- A file of the size that is said of it can be read back from where it stands. -/
theorem readsBack_of_item (hobeys : service.Obeys filing shows) (hshows : shows s t)
    (hshown : ∀ {dir name x}, t.item (dir ++ [name]) = some x → mount.mapping.apply name = name)
    {name : String} {file : Object} {content : List UInt8}
    (hitem : t.item (mount.pathOf name).place = some ⟨file, content⟩)
    (hfile : file.isFolder = false) (hfileSize : file.size = UInt64.ofNat content.length)
    (hsize : content.length < 2 ^ 64) :
    ReadsBack service shows mount t name content s := by
  have hsees := sees_of_filing hobeys mount
  refine ⟨exists_alone_read hobeys hshown hshows hitem hfile hsize, ?_, fun path hbelow hne => ?_⟩
  · obtain ⟨entry, s', hlookup, hshows', hmeets⟩ :=
      hsees.exists_alone_lookup_item hshows _ (fun _ _ => hshown) hitem
    refine ⟨entry, s', hlookup, hshows', hmeets.isDir.trans hfile, ?_⟩
    rw [hmeets.file hfile, hfileSize]
    exact UInt64.toNat_ofNat_of_lt hsize
  · obtain ⟨x, hdir, hfolder⟩ :=
      hasDir_above hitem hbelow fun hsame => hne (Path.place_injective hsame)
    obtain ⟨entry, s', hlookup, hshows', hmeets⟩ :=
      hsees.exists_alone_lookup_item hshows _ (fun _ _ => hshown) hdir
    exact ⟨entry, s', hlookup, hshows', hmeets.isDir.trans hfolder⟩

/-- A file that is written can be read back, and nothing else has changed but for the directories
    above it that were missing. -/
theorem readsBack_of_write (hobeys : service.Obeys filing shows) (hshows : shows s t)
    {name : String} {content : List UInt8} (hname : Path.ofString name ≠ .root)
    (hfree : ¬ t.HasDir (mount.pathOf name).place)
    (habove : ∀ {here x}, here <+: (mount.pathOf name).place → here ≠ (mount.pathOf name).place →
      t.item here = some x → x.object.isFolder = true)
    (hplain : ∀ {text}, (∃ dir x, t.item (dir ++ [text]) = some x) ∨
      text ∈ (mount.pathOf name).place → mount.mapping.apply text = text)
    (hsize : content.length < 2 ^ 64) :
    ∃ s' t', (mount.write name content).alone service s = (.ok (), s') ∧ shows s' t' ∧
      Written [⟨(mount.pathOf name).place, content⟩] t t' ∧
      ∀ {s}, shows s t' → ReadsBack service shows mount t' name content s := by
  have hwritable : t.Writable [⟨(mount.pathOf name).place, content⟩] :=
    writable_singleton hfree habove
  let writing : Writing := ⟨mount, [⟨(mount.pathOf name).place, content⟩], t, hwritable, by
    rintro text (hnative | ⟨target, htarget, htext⟩)
    · exact hplain (.inl hnative)
    · obtain rfl := List.mem_singleton.1 htarget
      exact hplain (.inr htext)⟩
  have hmem : ⟨(mount.pathOf name).place, content⟩ ∈ writing.targets := List.mem_singleton.2 rfl
  obtain ⟨s', t', file, hwrite, hshows', hgrows, hitem, hfile, hfileSize⟩ :=
    writing.exists_alone_write hobeys hshows hmem (pathOf_ne_base hname)
  have hwritten : Written writing.targets t t' := by
    refine hwritable.written hgrows fun target htarget => ?_
    obtain rfl := List.mem_singleton.1 htarget
    exact ⟨_, _, hitem, hfile, htarget, rfl, rfl⟩
  refine ⟨s', t', hwrite, hshows', hwritten, fun {s} hs => ?_⟩
  have hreached : writing.Reached t' := hgrows
  exact readsBack_of_item hobeys hs (Writing.plain_of_item hreached) hitem hfile hfileSize hsize

end Mount

end

namespace Scenario.Store

/-- A store that stands for a tree, tells what it makes and hands out the content of its files as it
    is. -/
structure Holds (store : Store) (t : Tree) : Prop where
  shows : store.Shows t
  offers : Tree.behaviour.offers t store.offer
  reticent : store.reticent = false
  links : ∀ node ∈ store.nodes, node.link = .data node.content

variable {store : Store}

theorem links_makeDir (hlinks : ∀ node ∈ store.nodes, node.link = .data node.content)
    (parent : Object) (name : String) :
    ∀ node ∈ (store.makeDir parent name).2.nodes, node.link = .data node.content := by
  rw [makeDir]
  dsimp only
  split
  · exact hlinks
  · intro node hnode
    rcases List.mem_append.1 hnode with hnode | hnode
    · exact hlinks node hnode
    · obtain rfl := List.mem_singleton.1 hnode
      rfl

theorem links_put (hlinks : ∀ node ∈ store.nodes, node.link = .data node.content)
    (dir : Object) (upload : Upload) :
    ∀ node ∈ (store.put dir upload).nodes, node.link = .data node.content := by
  rw [put]
  dsimp only
  split
  · intro node hnode
    rcases List.mem_or_eq_of_mem_set hnode with hnode | rfl
    · exact hlinks node hnode
    · rfl
  · intro node hnode
    rcases List.mem_append.1 hnode with hnode | hnode
    · exact hlinks node hnode
    · obtain rfl := List.mem_singleton.1 hnode
      rfl

/-- What a request may do to a store that stands for a tree leaves it one that hands out content. -/
theorem links_effect (hlinks : ∀ node ∈ store.nodes, node.link = .data node.content)
    {request : Request} {t : Tree} (huses : Tree.behaviour.Uses request t) :
    ∀ node ∈ (store.effect request).2.nodes, node.link = .data node.content := by
  cases request with
  | list | getRoot => exact hlinks
  | makeDir parent name | makeDirReporting parent name => exact links_makeDir hlinks parent name
  | put form parent upload target => exact links_put hlinks parent upload
  | link | remove | get | openLink | readRange | drain | connect => exact huses.elim

theorem Holds.effect {t t' : Tree} (request : Request) (hholds : store.Holds t)
    (huses : Tree.behaviour.Uses request t) (hshows : (store.effect request).2.Shows t')
    (hplace : t'.place = t.place) (hnodes : ∃ nodes, (store.effect request).2 = { store with nodes }) :
    (store.effect request).2.Holds t' := by
  have hlinks := links_effect hholds.links huses
  obtain ⟨nodes, hnodes⟩ := hnodes
  rw [hnodes] at hshows hlinks ⊢
  exact ⟨hshows, Script.offers_of_place hplace hholds.offers, hholds.reticent, hlinks⟩

/-- What such a store has to tell it tells as it is. -/
theorem Holds.tell_eq {t : Tree} (hholds : store.Holds t) (request : Request)
    (answer : request.Answer) : store.tell request answer = answer := by
  cases request with
  | makeDirReporting parent name => simp [tell, hholds.reticent]
  | _ => rfl

/-- Such a store behaves as a tree. -/
theorem exists_holds_answer {t : Tree} (request : Request) (hholds : store.Holds t)
    (huses : Tree.behaviour.Uses request t) :
    ∃ t', Tree.behaviour.permits request t (service.answer request store).1 t' ∧
      (service.answer request store).2.Holds t' := by
  obtain ⟨t', hpermits, hshows, hplace, hnodes⟩ := hholds.shows.effect huses
  rw [hholds.tell_eq] at hpermits
  exact ⟨t', hpermits, hholds.effect request huses hshows hplace hnodes⟩

/-- Such a store behaves as a tree that hands out its content. -/
theorem service_obeys : service.Obeys filing Holds where
  offer hholds := hholds.offers
  answer := by
    intro store t request huses hholds
    cases request with
    | link file =>
      refine ⟨t, ⟨rfl, fun {here x} hplace hitem _ => ?_⟩, hholds⟩
      rw [hholds.shows.place] at hplace
      obtain ⟨path, htext, rfl⟩ := exists_text_of_placeAt hplace
      obtain ⟨node, hfind, rfl⟩ := hholds.shows.find?_of_item hitem
      have hlink := hholds.links node (List.mem_of_find?_eq_some hfind)
      show store.link file = _
      rw [link, ← htext, hfind]
      exact congrArg Except.ok hlink
    | readRange reader range => exact ⟨t, ⟨rfl, rfl⟩, hholds⟩
    | put form parent upload target =>
      obtain ⟨husable, hplain, dir, hplace, hdir, hfree⟩ := id huses
      obtain ⟨t', file, hshows, hsame, hfile, hsize, hgains⟩ :=
        hholds.shows.put husable hplain hplace hdir hfree
      refine ⟨t', fun {here} hhere _ _ => ?_, hholds.effect (.put form parent upload target)
        huses hshows hsame (store.exists_nodes_put parent upload)⟩
      rw [hplace] at hhere
      obtain rfl := Option.some.inj hhere
      exact ⟨rfl, file, hfile, fun _ => hsize, hgains⟩
    | list dir refresh => exact exists_holds_answer (.list dir refresh) hholds huses
    | makeDir parent name =>
      exact exists_holds_answer (.makeDir parent name) hholds huses
    | makeDirReporting parent name =>
      exact exists_holds_answer (.makeDirReporting parent name) hholds huses
    | getRoot => exact exists_holds_answer .getRoot hholds huses
    | remove | get | openLink | drain | connect => exact huses.elim

end Scenario.Store

namespace Mount

open Scenario

theorem holds_bare : (World.bare []).store.Holds World.bareTree := by
  have hcarries : Script.Carries false (World.bare []) World.bareTree :=
    World.carries_bare (by simp)
  refine ⟨hcarries.store, hcarries.offers, rfl, fun node hnode => ?_⟩
  obtain rfl := List.mem_singleton.1 hnode
  rfl

/-- A file two directories below the root is written into an empty tree. A range of it that goes on
    past its end holds what there is. -/
theorem readsBack_of_write_deep :
    let name := "x/../d//e/a"
    Path.ofString name ≠ .root ∧ (plainMount.pathOf name).place = ["d", "e", "a"] ∧
      ∃ s' t', (plainMount.write name [1, 2, 3]).alone Store.service (World.bare []).store =
          (.ok (), s') ∧
        Written [⟨["d", "e", "a"], [1, 2, 3]⟩] World.bareTree t' ∧
        ReadsBack Store.service Store.Holds plainMount t' name [1, 2, 3] s' ∧
        ((plainMount.read name 1 7).alone Store.service s').1 = .ok ⟨[2, 3], none⟩ := by
  intro name
  have hname : Path.ofString name ≠ .root := by decide +kernel
  have hplace : (plainMount.pathOf name).place = ["d", "e", "a"] := by decide +kernel
  have hempty : ∀ {here x}, World.bareTree.item here = some x → here = [] := by
    intro here x hitem
    by_contra hne
    simp [World.bareTree, hne] at hitem
  have hfree : ¬ World.bareTree.HasDir (plainMount.pathOf name).place := by
    rintro ⟨x, hitem, -⟩
    have hroot := hempty hitem
    rw [hplace] at hroot
    cases hroot
  have habove : ∀ {here x}, here <+: (plainMount.pathOf name).place →
      here ≠ (plainMount.pathOf name).place → World.bareTree.item here = some x →
      x.object.isFolder = true := by
    intro here x _ _ hitem
    obtain rfl := hempty hitem
    obtain ⟨top, htop, hfolder⟩ := World.bareTree.root
    rw [hitem] at htop
    rwa [Option.some.inj htop]
  have hsize : ([1, 2, 3] : List UInt8).length < 2 ^ 64 := by decide
  obtain ⟨s', t', hwrite, hholds, hwritten, hback⟩ := readsBack_of_write Store.service_obeys
    holds_bare hname hfree habove (fun _ => rfl) hsize
  rw [hplace] at hwritten
  obtain ⟨s'', hread, -⟩ := (hback hholds).read 1 7
  exact ⟨hname, hplace, s', t', hwrite, hwritten, hback hholds, congrArg Prod.fst hread⟩

end Mount

end VirtualFs
