import Mathlib.Data.List.Nodup
import VirtualFs.Proofs.Writing.Tree
import VirtualFs.Scenario.Store

namespace VirtualFs

/-- A tree with one more item, or with a file exchanged for it. -/
def Tree.add (t : Tree) (dir : Place) (name : String) (x : Item) (hdir : t.HasDir dir)
    (hfree : ¬ t.HasDir (dir ++ [name])) (hname : x.object.name = name)
    (hplace : t.place x.object = some (dir ++ [name])) : Tree where
  item here := if here = dir ++ [name] then some x else t.item here
  place := t.place
  root := by
    rw [if_neg (by simp)]
    exact t.root
  parent := by
    intro other name' y hitem
    have habove : t.HasDir other := by
      split at hitem
      case isTrue hsame =>
        obtain ⟨rfl, -⟩ := List.append_inj' hsame rfl
        exact hdir
      case isFalse => exact t.parent hitem
    have hne : other ≠ dir ++ [name] := fun hsame => hfree (hsame ▸ habove)
    rw [if_neg hne]
    exact habove
  named := by
    intro other name' y hitem
    split at hitem
    case isTrue hsame =>
      obtain ⟨-, hsame'⟩ := List.append_inj' hsame rfl
      obtain rfl : name' = name := by simpa using hsame'
      obtain rfl := Option.some.inj hitem
      exact hname
    case isFalse => exact t.named hitem
  found := by
    intro here y hitem
    split at hitem
    case isTrue hsame =>
      obtain rfl := Option.some.inj hitem
      rw [hsame, hplace]
    case isFalse => exact t.found hitem

namespace Scenario

/-- The place that a key belongs to. A key is the canonical spelling of a path. -/
def placeAt (key : String) : Option Place :=
  if (Path.ofString key).text = key then some (Path.ofString key).place else none

theorem placeAt_text (path : Path) : placeAt path.text = some path.place := by
  rw [placeAt, Path.ofString_text, if_pos rfl]

theorem exists_text_of_placeAt {key : String} {here : Place} (hplace : placeAt key = some here) :
    ∃ path : Path, path.text = key ∧ path.place = here := by
  rw [placeAt] at hplace
  split at hplace
  case isTrue htext => exact ⟨_, htext, Option.some.inj hplace⟩
  case isFalse => cases hplace

theorem childKey_text (dir : Path) (name : Segment) :
    childKey dir.text name.text = (dir.child name).text := by
  rw [childKey]
  cases dir with
  | root => rfl
  | child above name' =>
    rw [if_neg (Path.text_child_ne_root above name')]
    rfl

namespace Node

/-- What a node is to a tree. -/
def item (node : Node) : Item :=
  ⟨node.object, node.content⟩

/-- A node has the key, the parent and the name that belong to a path. -/
structure StandsAt (node : Node) (path : Path) : Prop where
  key : node.key = path.text
  parent : node.parent = match path with
    | .root => none
    | .child dir _ => some dir.text
  name : ∀ {dir name}, path = .child dir name → node.object.name = name.text

/-- A new node in a directory. -/
theorem standsAt_child {object : Object} {content : List UInt8} {link : Link} {dir : Path}
    {name : Segment} (hkey : keyOf object = (dir.child name).text)
    (hname : object.name = name.text) :
    StandsAt ⟨object, some dir.text, content, link⟩ (dir.child name) := by
  refine ⟨hkey, rfl, ?_⟩
  rintro _ _ ⟨⟩
  exact hname

end Node

/-- The object of a new directory. -/
def newDirectory (dir : Path) (name : Segment) : Object :=
  { id := (dir.child name).text
    path := (dir.child name).text
    name := name.text
    isFolder := true }

theorem keyOf_newDirectory (dir : Path) (name : Segment) :
    keyOf (newDirectory dir name) = (dir.child name).text :=
  ite_self _

/-- The object of a file that is stored. -/
def newFile (dir : Path) (name : Segment) (upload : Upload) : Object :=
  { upload.object with
    id := (dir.child name).text
    path := (dir.child name).text
    modified := 0
    created := 0 }

theorem keyOf_newFile (dir : Path) (name : Segment) (upload : Upload) :
    keyOf (newFile dir name upload) = (dir.child name).text :=
  ite_self _

namespace Store

/-- The nodes of a store are the items of a tree, each under the key of its path. -/
structure Shows (store : Store) (t : Tree) : Prop where
  keys : (store.nodes.map Node.key).Nodup
  stands : ∀ node ∈ store.nodes, ∃ path, node.StandsAt path ∧ t.item path.place = some node.item
  held : ∀ {here x}, t.item here = some x →
    ∃ path, path.place = here ∧ ∃ node ∈ store.nodes, node.StandsAt path ∧ node.item = x
  place : ∀ object, t.place object = placeAt (keyOf object)

variable {store store' : Store} {t t' : Tree} {path dir : Path} {name : Segment} {node : Node}

/-- Only one node stands at a path. -/
theorem Shows.standsAt_of_key (hshows : store.Shows t) (hnode : node ∈ store.nodes)
    (hkey : node.key = path.text) :
    node.StandsAt path ∧ t.item path.place = some node.item := by
  obtain ⟨other, hstands, hitem⟩ := hshows.stands node hnode
  have htext : other.text = path.text := by rw [← hstands.key, hkey]
  obtain rfl := Path.text_injective htext
  exact ⟨hstands, hitem⟩

theorem Shows.find?_of_item (hshows : store.Shows t) {x : Item}
    (hitem : t.item path.place = some x) :
    ∃ node, store.find? path.text = some node ∧ node.item = x := by
  obtain ⟨other, hplace, node, hnode, hstands, rfl⟩ := hshows.held hitem
  obtain rfl := Path.place_injective hplace
  cases hfind : store.find? other.text with
  | none =>
    have hother := List.find?_eq_none.1 hfind node hnode
    simp [hstands.key] at hother
  | some found =>
    have hkey : found.key = other.text := by simpa using List.find?_some hfind
    have hfound := hshows.standsAt_of_key (List.mem_of_find?_eq_some hfind) hkey
    have hsame : some found.item = some node.item := by rw [← hfound.2, hitem]
    exact ⟨found, rfl, Option.some.inj hsame⟩

theorem Shows.find?_of_no_item (hshows : store.Shows t) (hitem : t.item path.place = none) :
    store.find? path.text = none := by
  rw [find?, List.find?_eq_none]
  intro node hnode hkey
  have hstands := hshows.standsAt_of_key hnode (by simpa using hkey)
  rw [hstands.2] at hitem
  cases hitem

/-- The nodes with a directory for their parent stand right below it. -/
theorem Shows.standsAt_of_parent (hshows : store.Shows t) (hnode : node ∈ store.nodes)
    (hparent : node.parent = some path.text) :
    ∃ name : Segment, name.text = node.object.name ∧ node.StandsAt (path.child name) ∧
      t.item (path.child name).place = some node.item := by
  obtain ⟨other, hstands, hitem⟩ := hshows.stands node hnode
  have habove := hstands.parent
  rw [hparent] at habove
  cases other with
  | root => cases habove
  | child dir name =>
    obtain rfl := Path.text_injective (Option.some.inj habove)
    exact ⟨name, (hstands.name rfl).symm, hstands, hitem⟩

/-- A store lists the children of a directory. -/
theorem Shows.list (hshows : store.Shows t) {object : Object} {here : Place}
    (hplace : t.place object = some here) (hdir : t.HasDir here) :
    ∃ objects, store.list object = .ok objects ∧ t.Lists here objects := by
  rw [hshows.place] at hplace
  obtain ⟨path, htext, rfl⟩ := exists_text_of_placeAt hplace
  obtain ⟨x, hitem, -⟩ := hdir
  obtain ⟨node, hfind, -⟩ := hshows.find?_of_item hitem
  refine ⟨_, by rw [Store.list, ← htext, hfind], ?_, fun {child} => ⟨?_, ?_⟩⟩
  · rw [List.map_map]
    refine List.Nodup.map_on ?_ (hshows.keys.of_map.filter _)
    intro node hnode other hother hname
    simp only [List.mem_filter, decide_eq_true_eq] at hnode hother
    obtain ⟨name, htext, hstands, -⟩ := hshows.standsAt_of_parent hnode.1 hnode.2
    obtain ⟨name', htext', hstands', -⟩ := hshows.standsAt_of_parent hother.1 hother.2
    have hsame : name.text = name'.text := by
      rw [htext, htext']
      exact hname
    obtain rfl := Segment.text_injective hsame
    have hkey : node.key = other.key := by rw [hstands.key, hstands'.key]
    exact List.inj_on_of_nodup_map hshows.keys hnode.1 hother.1 hkey
  · intro hchild
    obtain ⟨node, hnode, rfl⟩ := List.mem_map.1 hchild
    simp only [List.mem_filter, decide_eq_true_eq] at hnode
    obtain ⟨name, htext, -, hitem⟩ := hshows.standsAt_of_parent hnode.1 hnode.2
    rw [← htext]
    exact ⟨node.content, hitem⟩
  · rintro ⟨content, hitem⟩
    obtain ⟨other, hother, node, hnode, hstands, hsame⟩ := hshows.held hitem
    cases other with
    | root => simp [Path.place] at hother
    | child dir name =>
      obtain ⟨hdir, -⟩ := List.append_inj' hother rfl
      obtain rfl := Path.place_injective hdir
      refine List.mem_map.2 ⟨node, ?_, congrArg Item.object hsame⟩
      simpa using ⟨hnode, hstands.parent⟩

/-- A node that comes to a store, in the place of the node with its key if there is one, comes to the
    tree as well. -/
theorem Shows.add (hshows : store.Shows t) (hstands : node.StandsAt (dir.child name))
    (hdir : t.HasDir dir.place) (hfree : ¬ t.HasDir (dir.child name).place)
    (hkeys : (store'.nodes.map Node.key).Nodup)
    (hnodes : ∀ other, other ∈ store'.nodes ↔
      other = node ∨ other ∈ store.nodes ∧ other.key ≠ node.key) :
    ∃ t', store'.Shows t' ∧ t'.place = t.place ∧ t.Gains (dir.child name).place node.item t' := by
  have hplace : t.place node.object = some (dir.child name).place := by
    rw [hshows.place, ← placeAt_text, ← hstands.key]
    rfl
  refine ⟨t.add dir.place name.text node.item hdir hfree (hstands.name rfl) hplace, ?_, rfl,
    fun _ => rfl, fun h _ => h⟩
  refine ⟨hkeys, fun other hother => ?_, fun {here x} hitem => ?_, hshows.place⟩
  · rcases (hnodes other).1 hother with rfl | ⟨hother, hkey⟩
    · exact ⟨_, hstands, if_pos rfl⟩
    · obtain ⟨path, hstands', hitem⟩ := hshows.stands other hother
      have hne : path.place ≠ (dir.child name).place := by
        intro hsame
        obtain rfl := Path.place_injective hsame
        apply hkey
        rw [hstands'.key, hstands.key]
      refine ⟨path, hstands', ?_⟩
      rw [← hitem]
      exact if_neg hne
  · dsimp only [Tree.add] at hitem
    by_cases hhere : here = (dir.child name).place
    · have hnode : some node.item = some x := by
        rw [← hitem]
        exact (if_pos hhere).symm
      exact ⟨_, hhere.symm, node, (hnodes node).2 (.inl rfl), hstands, Option.some.inj hnode⟩
    · have hbefore : t.item here = some x := by
        rw [← hitem]
        exact (if_neg hhere).symm
      obtain ⟨path, rfl, other, hother, hstands', hsame⟩ := hshows.held hbefore
      have hne : other.key ≠ node.key := by
        intro hkey
        have htext : path.text = (dir.child name).text := by
          rw [← hstands'.key, hkey, hstands.key]
        apply hhere
        rw [Path.text_injective htext]
      exact ⟨path, rfl, other, (hnodes other).2 (.inr ⟨hother, hne⟩), hstands', hsame⟩

theorem Shows.append (hshows : store.Shows t) (hstands : node.StandsAt (dir.child name))
    (hdir : t.HasDir dir.place) (hitem : t.item (dir.child name).place = none) :
    ∃ t', ({ store with nodes := store.nodes ++ [node] } : Store).Shows t' ∧ t'.place = t.place ∧
      t.Gains (dir.child name).place node.item t' := by
  have hnew : ∀ other ∈ store.nodes, other.key ≠ node.key := by
    intro other hother hkey
    rw [hstands.key] at hkey
    have hother' := hshows.standsAt_of_key hother hkey
    rw [hother'.2] at hitem
    cases hitem
  refine hshows.add hstands hdir ?_ ?_ fun other => ?_
  · intro hfolder
    obtain ⟨x, hitem', -⟩ := hfolder
    rw [hitem] at hitem'
    cases hitem'
  · rw [List.map_append, List.nodup_append]
    refine ⟨hshows.keys, by simp, ?_⟩
    rintro key hkey _ hkey' rfl
    obtain ⟨other, hother, rfl⟩ := List.mem_map.1 hkey
    exact hnew other hother (by simpa using hkey')
  · rw [List.mem_append, List.mem_singleton]
    constructor
    · rintro (hother | rfl)
      · exact .inr ⟨hother, hnew other hother⟩
      · exact .inl rfl
    · rintro (rfl | ⟨hother, -⟩)
      · exact .inr rfl
      · exact .inl hother

/-- With the exchange of a node for one with the same key no other node changes. -/
private theorem mem_set_iff {nodes : List Node} {old new other : Node} {index : Nat}
    (hkeys : (nodes.map Node.key).Nodup) (hold : nodes[index]? = some old)
    (hkey : old.key = new.key) :
    other ∈ nodes.set index new ↔ other = new ∨ other ∈ nodes ∧ other.key ≠ new.key := by
  have hindex := (List.getElem?_eq_some_iff.1 hold).1
  simp only [List.mem_iff_getElem?, List.getElem?_set]
  constructor
  · rintro ⟨position, hother⟩
    by_cases hposition : index = position
    · subst position
      exact .inl (by simpa [hindex] using hother.symm)
    · rw [if_neg hposition] at hother
      refine .inr ⟨⟨position, hother⟩, fun hsame => hposition ?_⟩
      refine (List.getElem?_inj (by simpa using hindex) hkeys).1 ?_
      simp [hold, hother, hkey, hsame]
  · rintro (rfl | ⟨⟨position, hother⟩, hne⟩)
    · exact ⟨index, by simp [hindex]⟩
    · refine ⟨position, ?_⟩
      rw [if_neg, hother]
      intro hposition
      subst position
      rw [hold] at hother
      cases hother
      exact hne hkey

theorem Shows.exchange (hshows : store.Shows t) (hstands : node.StandsAt (dir.child name))
    (hdir : t.HasDir dir.place) (hfree : ¬ t.HasDir (dir.child name).place) {index : Nat}
    {old : Node} (hold : store.nodes[index]? = some old) (hkey : old.key = node.key) :
    ∃ t', ({ store with nodes := store.nodes.set index node } : Store).Shows t' ∧
      t'.place = t.place ∧ t.Gains (dir.child name).place node.item t' := by
  refine hshows.add hstands hdir hfree ?_ fun other => mem_set_iff hshows.keys hold hkey
  obtain ⟨hindex, rfl⟩ := List.getElem?_eq_some_iff.1 hold
  have hsame : (store.nodes.map Node.key).set index node.key = store.nodes.map Node.key := by
    refine List.ext_getElem? fun position => ?_
    rw [List.getElem?_set]
    split
    case isTrue hposition =>
      subst position
      simp [hindex, hkey]
    case isFalse => rfl
  rw [List.map_set, hsame]
  exact hshows.keys

/-- A new directory changes nothing about a store but its nodes. -/
theorem exists_nodes_makeDir (store : Store) (object : Object) (name : String) :
    ∃ nodes, (store.makeDir object name).2 = { store with nodes } := by
  rw [makeDir]
  dsimp only
  split
  · exact ⟨store.nodes, rfl⟩
  · exact ⟨_, rfl⟩

theorem exists_nodes_put (store : Store) (object : Object) (upload : Upload) :
    ∃ nodes, store.put object upload = { store with nodes } := by
  rw [put]
  dsimp only
  split
  · exact ⟨_, rfl⟩
  · exact ⟨_, rfl⟩

/-- A store makes a directory whose name is free, and refuses one whose name is taken. -/
theorem Shows.makeDir (hshows : store.Shows t) {object : Object} {name : String}
    (husable : Usable name) (hparent : t.IsDir object) :
    ∃ t', (store.makeDir object name).2.Shows t' ∧ t'.place = t.place ∧
      t.MakesDir object name ((store.makeDir object name).1.map some) t' ∧
      t.MakesDir object name ((store.makeDir object name).1.map (fun _ => none)) t' := by
  obtain ⟨here, hplace, hdir⟩ := hparent
  have hkey := hplace
  rw [hshows.place] at hkey
  obtain ⟨dir, htext, rfl⟩ := exists_text_of_placeAt hkey
  obtain ⟨name, rfl⟩ : ∃ segment : Segment, segment.text = name := ⟨⟨name, husable⟩, rfl⟩
  rw [Store.makeDir, ← htext, childKey_text]
  cases hitem : t.item (dir.child name).place with
  | some x =>
    obtain ⟨node, hfind, -⟩ := hshows.find?_of_item hitem
    have hmakes : ∀ {answer failure}, answer = .error failure →
        t.MakesDir object name.text answer t := by
      intro answer failure hanswer here hhere _
      rw [hplace] at hhere
      obtain rfl := Option.some.inj hhere
      refine ⟨fun _ => ⟨⟨failure, hanswer⟩, rfl⟩, fun hfree => ?_⟩
      have hnone : t.item (dir.child name).place = none := hfree
      rw [hitem] at hnone
      cases hnone
    rw [hfind]
    exact ⟨t, hshows, rfl, hmakes rfl, hmakes rfl⟩
  | none =>
    rw [hshows.find?_of_no_item hitem]
    dsimp only
    have hstands : Node.StandsAt ⟨newDirectory dir name, some dir.text, [], .data []⟩
        (dir.child name) :=
      Node.standsAt_child (keyOf_newDirectory dir name) rfl
    obtain ⟨t', hshows', hsame, hgains⟩ := hshows.append hstands hdir hitem
    have hmakes : ∀ {answer made?}, answer = .ok made? →
        (∀ {made}, made? = some made → t'.place made = some (dir.child name).place) →
        t.MakesDir object name.text answer t' := by
      intro answer made? hanswer hreported here hhere _
      rw [hplace] at hhere
      obtain rfl := Option.some.inj hhere
      refine ⟨fun htaken => (htaken hitem).elim, fun _ => ?_⟩
      exact ⟨made?, _, hanswer, rfl, hgains, hreported⟩
    have hnew : t'.place (newDirectory dir name) = some (dir.child name).place := by
      rw [hshows'.place, keyOf_newDirectory, placeAt_text]
    refine ⟨t', hshows', hsame, hmakes rfl ?_, hmakes rfl ?_⟩
    · intro made hmade
      obtain rfl := Option.some.inj hmade
      exact hnew
    · intro made hmade
      cases hmade

/-- A store puts a file into a directory, in the place of a file of its name. -/
theorem Shows.put (hshows : store.Shows t) {object : Object} {upload : Upload} {here : Place}
    (husable : Usable upload.object.name) (hplain : upload.object.isFolder = false)
    (hplace : t.place object = some here) (hdir : t.HasDir here)
    (hfree : ¬ t.HasDir (here ++ [upload.object.name])) :
    ∃ t' file, (store.put object upload).Shows t' ∧ t'.place = t.place ∧ file.isFolder = false ∧
      file.size = upload.object.size ∧
      t.Gains (here ++ [upload.object.name]) ⟨file, upload.content⟩ t' := by
  rw [hshows.place] at hplace
  obtain ⟨dir, htext, rfl⟩ := exists_text_of_placeAt hplace
  obtain ⟨name, hname⟩ : ∃ segment : Segment, segment.text = upload.object.name :=
    ⟨⟨_, husable⟩, rfl⟩
  have hstands : Node.StandsAt ⟨newFile dir name upload, some dir.text, upload.content,
      .data upload.content⟩ (dir.child name) :=
    Node.standsAt_child (keyOf_newFile dir name upload) hname.symm
  rw [Store.put, ← htext, ← hname, childKey_text]
  rw [← hname] at hfree
  dsimp only
  split
  case h_1 index hindex =>
    obtain ⟨hlength, hkey, -⟩ := List.findIdx?_eq_some_iff_getElem.1 hindex
    have hkey' : store.nodes[index].key = Node.key ⟨newFile dir name upload, some dir.text,
        upload.content, .data upload.content⟩ := by
      rw [hstands.key]
      simpa using hkey
    obtain ⟨t', hshows', hsame, hgains⟩ := hshows.exchange hstands hdir hfree
      (List.getElem?_eq_getElem hlength) hkey'
    exact ⟨t', newFile dir name upload, hshows', hsame, hplain, rfl, hgains⟩
  case h_2 hindex =>
    have hitem : t.item (dir.child name).place = none := by
      rw [Option.eq_none_iff_forall_ne_some]
      intro x hitem
      obtain ⟨path, hpath, node, hnode, hstands', -⟩ := hshows.held hitem
      obtain rfl := Path.place_injective hpath
      have hkey := List.findIdx?_eq_none_iff.1 hindex node hnode
      simp [hstands'.key] at hkey
    obtain ⟨t', hshows', hsame, hgains⟩ := hshows.append hstands hdir hitem
    exact ⟨t', newFile dir name upload, hshows', hsame, hplain, rfl, hgains⟩

/-- A store knows the object of its root. -/
theorem Shows.getRoot (hshows : store.Shows t) :
    ∃ object, store.getRoot = .ok object ∧ object.isFolder = true ∧ t.place object = some [] := by
  obtain ⟨top, htop, hfolder⟩ := t.root
  obtain ⟨path, hpath, node, hnode, hstands, rfl⟩ := hshows.held htop
  obtain rfl : path = .root := Path.place_injective hpath
  rw [Store.getRoot]
  cases hfind : store.nodes.find? (·.parent.isNone) with
  | none =>
    have hparent := List.find?_eq_none.1 hfind node hnode
    simp [hstands.parent] at hparent
  | some found =>
    obtain ⟨other, hstands', hitem⟩ := hshows.stands found (List.mem_of_find?_eq_some hfind)
    cases other with
    | root =>
      have hsame : some node.item = some found.item := by
        rw [← htop, ← hitem]
        rfl
      rw [Option.some.inj hsame] at hfolder
      exact ⟨found.object, rfl, hfolder, t.found hitem⟩
    | child dir name =>
      have hparent := List.find?_some hfind
      simp [hstands'.parent] at hparent

end Store

end Scenario

end VirtualFs
