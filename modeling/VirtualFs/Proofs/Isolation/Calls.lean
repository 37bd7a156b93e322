import VirtualFs.Proofs.Guide.Assured
import VirtualFs.Proofs.Guide.Calls
import VirtualFs.Proofs.Isolation.Lookup

namespace VirtualFs

open VirtualFs.Tree VirtualFs.Chronicle

/-- Whatever the name, its path is the base of the mount or lies below it. -/
theorem Mount.base_prefix_pathOf (mount : Mount) (name : String) :
    mount.base.place <+: (mount.pathOf name).place := by
  rw [pathOf, Path.place_join]
  exact List.prefix_append _ _

namespace Fence

variable {fence : Fence} {c c' : Chronicle fence.mount.base.place} {cut : Bool} {path : Path}

/-- What was found at or below the base may be handed out. -/
theorem lends_link (hbelow : fence.mount.base.place <+: path.place) :
    fence.guide.Lends path .link := by
  refine ⟨.inr hbelow, fun _ hstands => ⟨hstands.inside hbelow, fun hpermits => ?_⟩⟩
  exact ⟨keeps_of_eq hpermits.1 hpermits.2, trivial⟩

/-- What was found at or below the base may be removed. -/
theorem lends_remove (hbelow : fence.mount.base.place <+: path.place) :
    fence.guide.Lends path .remove := by
  refine ⟨.inr hbelow, fun {object c} _ hstands => ?_⟩
  have hknows : c.Knows object := hstands.inside hbelow
  refine ⟨hknows, fun {answer c'} hpermits => ?_⟩
  obtain ⟨hchange, hmet⟩ := hpermits
  refine ⟨⟨?_, hmet⟩, trivial⟩
  rcases hchange with hsame | ⟨here, hplace, hchanges⟩
  · exact hsame ▸ Tree.Keeps.refl _ _
  · exact hchanges.keeps (hknows.inside hplace)

/-- Files may be stored below the base. A file is not to stand at the base itself, so its directory is
    not above the base. -/
theorem takes (hbelow : fence.mount.base.place <+: path.place) (content : List UInt8) :
    fence.guide.Takes path content (fun _ => True) := by
  rintro dir name rfl hbase
  have hdir : fence.mount.base.place <+: dir.place := by
    rcases List.prefix_concat_iff.1 hbelow with hsame | hdir
    · exact (hbase (Path.place_injective hsame.symm)).elim
    · exact hdir
  refine ⟨.inr hdir, fun {form parent file c} _ _ hstands => ?_⟩
  have hknows : c.Knows parent := hstands.inside hdir
  refine ⟨hknows, fun {answer c'} hpermits => ?_⟩
  obtain ⟨hchange, hmet⟩ := hpermits
  refine ⟨⟨?_, hmet⟩, fun _ _ _ => trivial⟩
  rcases hchange with hsame | ⟨here, hplace, hchanges⟩
  · exact hsame ▸ Tree.Keeps.refl _ _
  · exact hchanges.keeps ((hknows.inside hplace).trans (List.prefix_append _ _))

theorem admits (fence : Fence) (call : Call) : fence.guide.Admits call := by
  have hbelow := fence.mount.base_prefix_pathOf
  cases call with
  | stat name => exact .inr (hbelow name)
  | readDir name => exact .inr (hbelow name)
  | names name => exact .inr (hbelow name)
  | delete name => exact lends_remove (hbelow name)
  | read name offset length => exact lends_link (hbelow name)
  | write name content => exact takes (hbelow name) content
  | writeFrom name source => exact fun content => takes (hbelow name) content

/-- Whatever a caller asks of a mount, it keeps to the base and to what lies below it. -/
theorem safe_call (hreached : fence.Reached c) (call : Call) :
    (call.operation fence.mount).Safe fence.accord Guide.AnyResult cut c :=
  Guide.safe_call (fence.admits call) hreached

/-- A build that succeeds has made sure of the directories that the base lies in. -/
theorem safe_build (hreached : fence.Reached c) {number : Nat} {config : Config}
    {opener : Option Opener} (hmount : fence.mount = .ofConfig number config opener) :
    (Mount.build number config opener).Safe fence.accord
      (fun _ c result => ∀ mount, result = .ok mount →
        mount = fence.mount ∧ c.tree.Ready fence.mount.base.place) cut c := by
  refine Guide.safe_build fence.guide hmount
    (fun hready hkeeps => hkeeps.tree.ready hready) ?_ hreached
  intro cut c hreached
  have hway : fence.guide.Way fence.mount.base := .inr List.prefix_rfl
  refine (Guide.safe_makeDirs fence.mount.base hway hreached).weaken ?_
  intro cut c result hresult entry hentry
  have hstands : c.Stands fence.mount.base.place entry.object := hresult entry hentry
  have hready : c.tree.Ready fence.mount.base.place := (hstands.inside List.prefix_rfl).ready
  exact @hready

end Fence

end VirtualFs
