import VirtualFs.Proofs.Attentive.Behaviour
import VirtualFs.Proofs.Footing.Upheld
import VirtualFs.Proofs.Guide.Assured
import VirtualFs.Proofs.Isolation.Calls
import VirtualFs.Proofs.Writing.Sight

namespace VirtualFs

open VirtualFs.Tree VirtualFs.Chronicle

namespace Tree

/-- How a confined backend behaves that says nothing untrue. Its objects need not keep their meaning
    when what they stand for is removed and made again. -/
def candid : Behaviour Tree where
  Uses _ _ := True
  lists _ _ := trivial
  offers t offer := offer.get = false ∧ t.ShowsRoot offer
  permits request t answer t' := confined.permits request t answer t' ∧ t.Attends request answer t'

theorem candid_extends_looking : candid.Extends looking where
  uses _ := trivial
  offers := id
  permits := by
    intro request t answer t' huses hpermits
    obtain ⟨hconfined, hattends⟩ := hpermits
    cases request with
    | list => exact ⟨hconfined.1, hattends⟩
    | getRoot => exact ⟨hconfined.1, hattends⟩
    | link | remove | makeDir | makeDirReporting | put | get | openLink | readRange | drain
    | connect => exact huses.elim

/-- An attentive backend is candid. -/
theorem attentive_extends_candid {home : Object → Option Place} :
    (attentive home).Extends candid where
  uses := id
  offers := id
  permits _ hpermits := hpermits.2

end Tree

namespace Fence

variable (fence : Fence)

/-- The tree has changed since the start as is allowed to all who leave the base alone. -/
def Upheld (t : Tree) : Prop :=
  Tree.Keeps fence.mount.base.place fence.start t

/-- Callers may share the listings of the base, of what lies below it and of what it lies in, and
    nobody touches the base itself. -/
def upholding : Accord candid where
  Leads := Upholds fence.mount.base.place
  refl := Upholds.refl _
  trans := Upholds.trans
  listed := by
    rintro plan t answer t' ⟨⟨hsame, -⟩, -⟩
    exact hsame ▸ Upholds.refl _ _
  Drops := True
  Does := Upholds fence.mount.base.place
  does := id
  Shareable plan t := fence.Upheld t ∧ plan.mapping = fence.mount.mapping ∧
    Comparable fence.mount.base.place plan.dir.place ∧
    t.Rests fence.mount.base.place plan.dir.place plan.object
  shareable_mono := by
    rintro plan t t' ⟨hupheld, hmapping, hcomparable, hrests⟩ hupholds
    exact ⟨hupheld.trans hupholds.toKeeps, hmapping, hcomparable, hrests.mono hupholds⟩
  Accepts _ _ := True
  Since _ := Upholds fence.mount.base.place
  since_refl _ := Upholds.refl _
  since_trans := Upholds.trans

variable {fence} {t t' : Tree} {dir : Path} {name : Segment}

/-- The names in a directory that the base lies in are shown as they are. -/
theorem Upheld.plain_of_item (hupheld : fence.Upheld t) {dir : Place} {name : String} {x : Item}
    (hdir : dir <+: fence.mount.base.place) (hne : dir ≠ fence.mount.base.place)
    (hitem : t.item (dir ++ [name]) = some x) : fence.mount.mapping.apply name = name :=
  let c : Chronicle fence.mount.base.place := ⟨t, fun _ => True, fun _ _ => trivial⟩
  Fence.plain_of_item (c := c) hupheld hdir hne hitem

/-- What a backend lists for an object that is found for a directory is found for its places there. -/
theorem rests_of_pick (hupheld : fence.Upheld t) {parent : Object}
    (hrests : t.Rests fence.mount.base.place dir.place parent) {objects : List Object}
    (hobjects : objects = [] ∨ ∃ other, t.place parent = some other ∧ t.Lists other objects)
    (hcomparable : Comparable fence.mount.base.place (dir.child name).place) {entry : Entry}
    (hpick : Mount.pick name (objects.map (Entry.ofObject · fence.mount.mapping)) = .ok entry) :
    t.Rests fence.mount.base.place (dir.child name).place entry.object := by
  obtain ⟨other, child, content, hplace, hitem, hshown⟩ := exists_item_of_pick hobjects hpick
  by_cases hdir : fence.mount.base.place <+: dir.place
  · obtain ⟨⟨x, hbase⟩, hother⟩ := hrests.prefix_of_place hdir
    exact .of_below (below_concat_iff.2 hdir) hbase (t.found hitem)
      (below_concat_iff.2 (hother hplace))
  · have habove : dir.place <+: fence.mount.base.place := hcomparable.of_child.resolve_right hdir
    have hne : dir.place ≠ fence.mount.base.place := fun h => hdir (h ▸ List.prefix_rfl)
    obtain ⟨hplace', -⟩ := hrests.above habove
    obtain rfl : dir.place = other := Option.some.inj (hplace'.symm.trans hplace)
    rw [hupheld.plain_of_item habove hne hitem] at hshown
    subst hshown
    have hchild : (dir.child name).place <+: fence.mount.base.place :=
      above_of_comparable hcomparable hdir
    exact .of_above hchild (t.found hitem) hitem fun hfolder => ⟨_, hitem, hfolder⟩

/-- Whatever comes of asking for a directory on the way to the base or below it, the base is left
    alone. If it is reported, it is there, and an object that is reported is found for its place. -/
theorem upholds_of_mayMake {object : Object} {answer : Except Failure (Option Object)}
    (hcomparable : Comparable fence.mount.base.place (dir.child name).place)
    (hrests : t.Rests fence.mount.base.place dir.place object)
    (hmakes : t.MayMake object name.text answer t') :
    Upholds fence.mount.base.place t t' ∧ ∀ {made?}, answer = .ok made? →
      ((dir.child name).place <+: fence.mount.base.place → t'.HasDir (dir.child name).place) ∧
      ∀ {made}, made? = some made → t'.Rests fence.mount.base.place (dir.child name).place made := by
  obtain ⟨hchange, hreport⟩ := hmakes
  by_cases hdir : fence.mount.base.place <+: dir.place
  · obtain ⟨⟨x, hbase⟩, hother⟩ := hrests.prefix_of_place hdir
    have hupholds : Upholds fence.mount.base.place t t' := by
      rcases hchange with rfl | ⟨other, hplace, hmade⟩
      · exact Upholds.refl _ _
      · exact hmade.toChanges.upholds (below_concat_iff.2 (hother hplace))
    have hbelow : Below fence.mount.base.place (dir.child name).place := below_concat_iff.2 hdir
    refine ⟨hupholds, fun {made?} hanswer => ⟨fun habove => (hbelow.not_above habove).elim, ?_⟩⟩
    intro made hmade
    obtain ⟨other, hplace, -, hreported⟩ := hreport hanswer
    exact .of_below hbelow (hupholds.self hbase) (hreported hmade)
      (below_concat_iff.2 (hother hplace))
  · have hchild : (dir.child name).place <+: fence.mount.base.place :=
      above_of_comparable hcomparable hdir
    obtain ⟨hplace, -⟩ := hrests.above (hcomparable.of_child.resolve_right hdir)
    have hthere : ∀ {other}, t.place object = some other → other = dir.place :=
      fun hother => Option.some.inj (hother.symm.trans hplace)
    refine ⟨?_, fun {made?} hanswer => ?_⟩
    · rcases hchange with rfl | ⟨other, hother, hmade⟩
      · exact Upholds.refl _ _
      · obtain rfl := hthere hother
        exact hmade.upholds hchild
    · obtain ⟨other, hother, hmade, hreported⟩ := hreport hanswer
      obtain rfl := hthere hother
      refine ⟨fun _ => hmade, fun hsome => ?_⟩
      obtain ⟨x, hitem, hfolder⟩ := hmade
      exact .of_above hchild (hreported hsome) hitem fun _ => ⟨x, hitem, hfolder⟩

/-- What stands for the root is found for it. -/
theorem rests_root {object : Object} (hplace : t.place object = some []) :
    t.Rests fence.mount.base.place [] object := by
  obtain ⟨top, htop, -⟩ := t.root
  exact .of_above (List.nil_prefix) hplace htop fun _ => t.root

theorem upholds_of_eq (hsame : t' = t) : Upholds fence.mount.base.place t t' :=
  hsame ▸ Upholds.refl _ _

/-- Callers who leave the base alone find their way to it and below it. -/
def upholdingGuide (fence : Fence) : Guide candid where
  mount := fence.mount
  accord := fence.upholding
  Reached := fence.Upheld
  reached_mono hupheld hupholds := hupheld.trans hupholds.toKeeps
  Way := fence.guide.Way
  way_dir := fence.guide.way_dir
  Found path object t := t.Rests fence.mount.base.place path.place object
  found_mono _ hrests hupholds := hrests.mono hupholds
  indirect hoffer := hoffer.1
  offersRoot := by
    rintro t offer source - ⟨-, source', hsource', hroot⟩ hsource
    rw [hsource] at hsource'
    obtain rfl := Except.ok.inj hsource'
    cases source with
    | asked => trivial
    | id id => exact fun name modified => rests_root (hroot name modified)
    | path path => exact fun name modified => rests_root (hroot name modified)
  root := by
    refine fun _ => ⟨trivial, fun {answer t'} hpermits => ?_⟩
    obtain ⟨⟨hsame, hobject⟩, -⟩ := hpermits
    exact ⟨upholds_of_eq hsame, fun hanswer => rests_root (hsame ▸ hobject hanswer)⟩
  shareable hway hupheld hrests := ⟨hupheld, rfl, hway, hrests⟩
  known := by
    intro dir name entries entry t hway _ hknown hpick
    obtain ⟨plan, objects, rfl, hanswered, rfl⟩ := hknown.exists_answered
    obtain ⟨before, after, ⟨hbefore, hmapping, -, hrests⟩, ⟨⟨hsame, hlists⟩, -⟩, hupholds⟩ :=
      hanswered
    rw [hmapping] at hpick
    have hpicked := rests_of_pick hbefore hrests (hlists rfl) hway hpick
    exact hpicked.mono ((upholds_of_eq hsame).trans hupholds)
  listing := by
    refine fun hway hupheld hrests => ⟨trivial, fun {answer t'} hpermits => ?_⟩
    obtain ⟨⟨hsame, hlists⟩, -⟩ := hpermits
    refine ⟨upholds_of_eq hsame, fun hanswer hpick => ?_⟩
    exact (rests_of_pick hupheld hrests (hlists hanswer) hway hpick).mono (upholds_of_eq hsame)
  makeDir := by
    refine fun hway _ hrests => ⟨trivial, fun {answer t'} hpermits => ?_⟩
    exact ⟨(upholds_of_mayMake hway hrests hpermits.1).1, trivial⟩
  makeDirReporting := by
    refine fun hway _ hrests => ⟨trivial, fun {answer t'} hpermits => ?_⟩
    obtain ⟨hupholds, hmade⟩ := upholds_of_mayMake hway hrests hpermits.1
    exact ⟨hupholds, fun hanswer => (hmade hanswer).2 rfl⟩
  transfer := by
    intro request t htransfers
    cases request with
    | openLink opener file url headers =>
      exact ⟨trivial, fun hpermits => ⟨upholds_of_eq hpermits.1, trivial⟩⟩
    | readRange reader range =>
      exact ⟨trivial, fun hpermits => ⟨upholds_of_eq hpermits.1, trivial⟩⟩
    | drain source =>
      exact ⟨trivial, fun hpermits => ⟨upholds_of_eq hpermits.1, trivial⟩⟩
    | _ => exact htransfers.elim

/-- A directory on the way to the base is there once it has been made sure of. -/
theorem assures_hasDir : fence.upholdingGuide.Assures
    (fun path t => path.place <+: fence.mount.base.place → t.HasDir path.place) where
  mono hsure hupholds hhere := hupholds.hasDir_above hhere (hsure hhere)
  root t _ := t.root
  folder hrests hfolder hhere := (hrests.above hhere).2.2 hfolder
  made hway hrests hpermits := ((upholds_of_mayMake hway hrests hpermits.1).2 rfl).1
  reported hway hrests hpermits := ((upholds_of_mayMake hway hrests hpermits.1).2 rfl).1

section Calls

variable {path : Path} {cut : Bool}

/-- What was found at the base or below it may be handed out. -/
theorem upholdingGuide_lends_link (hbelow : fence.mount.base.place <+: path.place) :
    fence.upholdingGuide.Lends path .link :=
  ⟨.inr hbelow, fun _ _ => ⟨trivial, fun hpermits => ⟨upholds_of_eq hpermits.1, trivial⟩⟩⟩

/-- What was found below the base may be removed. -/
theorem upholdingGuide_lends_remove (hbelow : Below fence.mount.base.place path.place) :
    fence.upholdingGuide.Lends path .remove := by
  refine ⟨.inr hbelow.1, fun {object t} _ hrests => ⟨trivial, fun {answer t'} hpermits => ?_⟩⟩
  obtain ⟨hchange, -⟩ := hpermits
  obtain ⟨-, hbeneath⟩ := hrests.below hbelow
  rcases hchange with hsame | ⟨here, hplace, hchanges⟩
  · exact ⟨upholds_of_eq hsame, trivial⟩
  · exact ⟨hchanges.upholds (hbeneath hplace), trivial⟩

/-- Files may be stored below the base. -/
theorem upholdingGuide_takes (hbelow : fence.mount.base.place <+: path.place) (content : List UInt8) :
    fence.upholdingGuide.Takes path content (fun _ => True) := by
  rintro dir name rfl hbase
  have hdir : fence.mount.base.place <+: dir.place :=
    (List.prefix_concat_iff.1 hbelow).resolve_left fun hsame =>
      hbase (Path.place_injective hsame.symm)
  refine ⟨.inr hdir, fun {form parent file t} _ _ hrests => ?_⟩
  refine ⟨trivial, fun {answer t'} hpermits => ?_⟩
  obtain ⟨hchange, -⟩ := hpermits
  obtain ⟨-, hother⟩ := hrests.prefix_of_place hdir
  refine ⟨?_, fun _ _ _ => trivial⟩
  rcases hchange with hsame | ⟨other, hplace, hchanges⟩
  · exact upholds_of_eq hsame
  · exact hchanges.upholds (below_concat_iff.2 (hother hplace))

/-- Whatever a caller asks of a mount but to remove the base itself, the base is left alone. A file is
    never stored at the base. -/
theorem upholdingGuide_admits {call : Call}
    (hspares : ∀ name, call = .delete name → fence.mount.pathOf name ≠ fence.mount.base) :
    fence.upholdingGuide.Admits call := by
  have hbelow := fence.mount.base_prefix_pathOf
  cases call with
  | stat name => exact .inr (hbelow name)
  | readDir name => exact .inr (hbelow name)
  | names name => exact .inr (hbelow name)
  | delete name =>
    have hne : (fence.mount.pathOf name).place ≠ fence.mount.base.place :=
      fun hsame => hspares name rfl (Path.place_injective hsame)
    exact upholdingGuide_lends_remove ⟨hbelow name, hne⟩
  | read name offset length => exact upholdingGuide_lends_link (hbelow name)
  | write name content => exact upholdingGuide_takes (hbelow name) content
  | writeFrom name source => exact fun content => upholdingGuide_takes (hbelow name) content

/-- A build that succeeds has made sure of the base. -/
theorem safe_build_upheld {t : Tree} (hupheld : fence.Upheld t) {number : Nat} {config : Config}
    {opener : Option Opener} (hmount : fence.mount = .ofConfig number config opener) :
    (Mount.build number config opener).Safe fence.upholding
      (fun _ t result => ∀ mount, result = .ok mount →
        mount = fence.mount ∧ t.HasDir fence.mount.base.place) cut t := by
  refine Guide.safe_build fence.upholdingGuide hmount
    (fun hdir hupholds => hupholds.hasDir_above List.prefix_rfl hdir) ?_ hupheld
  intro cut t hupheld
  refine (Guide.safe_makeDirs_sure assures_hasDir (.inr List.prefix_rfl) hupheld).weaken ?_
  exact fun hsure entry hentry => hsure entry hentry List.prefix_rfl

end Calls

end Fence

end VirtualFs
