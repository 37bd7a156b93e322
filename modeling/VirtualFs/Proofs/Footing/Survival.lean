import VirtualFs.Proofs.Attentive.Store
import VirtualFs.Proofs.Footing.Guided

namespace VirtualFs

open VirtualFs.Tree

variable {σ : Type} {service : Service σ} {shows : σ → Tree → Prop} {s : σ} {t : Tree}

namespace Mount

/-- The state after some calls over a mount, each of which begins when the one before is done. -/
def afterCalls (mount : Mount) (service : Service σ) (calls : List Call) (s : σ) : σ :=
  calls.foldl (fun s call => ((call.operation mount).alone service s).2) s

/-- The root of a namespace is the base of its mount, however it is spelled. -/
theorem pathOf_of_root (mount : Mount) {name : String} (hname : Path.ofString name = .root) :
    mount.pathOf name = mount.base :=
  Path.join_of_root mount.base hname

end Mount

namespace Fence

variable {fence : Fence}

/-- A directory on the way to the base that is there is found. -/
theorem exists_alone_lookup_above (hobeys : service.Obeys candid shows) (hupheld : fence.Upheld t)
    (path : Path) (habove : path.place <+: fence.mount.base.place) (hshows : shows s t)
    (hdir : t.HasDir path.place) :
    ∃ entry s', (fence.mount.lookup path).alone service s = (.ok entry, s') ∧ shows s' t ∧
      entry.isDir = true ∧ t.place entry.object = some path.place := by
  obtain ⟨x, hitem, hfolder⟩ := hdir
  have hsees := Mount.sees_of_obeys (hobeys.of_extends candid_extends_looking) fence.mount
  have hplain : ∀ {dir name x}, dir <+: path.place → dir ≠ path.place →
      t.item (dir ++ [name]) = some x → fence.mount.mapping.apply name = name := by
    intro dir name x hbelow hne hitem
    refine hupheld.plain_of_item (hbelow.trans habove) (fun hbase => hne ?_) hitem
    exact hbelow.eq_of_length_le (hbase ▸ habove.length_le)
  obtain ⟨entry, s', hfound, hshows', hmeets⟩ :=
    hsees.exists_alone_lookup_item hshows path hplain hitem
  exact ⟨entry, s', hfound, hshows', hmeets.isDir.trans hfolder, hmeets.place⟩

/-- The base is removed by any of its names, if the removal is reported as done. -/
theorem exists_gone_of_delete (hobeys : service.Obeys candid shows) (hupheld : fence.Upheld t)
    (hshows : shows s t) (hdir : t.HasDir fence.mount.base.place) {name : String}
    (hname : Path.ofString name = .root)
    (hdone : ((fence.mount.delete name).alone service s).1 = .ok ()) :
    ∃ t', shows ((fence.mount.delete name).alone service s).2 t' ∧
      t'.item fence.mount.base.place = none := by
  obtain ⟨entry, s₁, hfound, hshows₁, -, hplace⟩ :=
    exists_alone_lookup_above hobeys hupheld fence.mount.base List.prefix_rfl hshows hdir
  have hlookup : (Operation.attempt (fence.mount.lookup (fence.mount.pathOf name))).alone service s =
      (.ok (.ok entry), s₁) := by
    rw [fence.mount.pathOf_of_root hname, Operation.alone_attempt, hfound]
  rw [Mount.delete, Operation.alone_bind_of_ok hlookup] at hdone ⊢
  simp only [Operation.alone_bind, Operation.alone_offer, Operation.alone_require] at hdone ⊢
  cases hremove : (service.offer s₁).requireRemove with
  | error failure =>
    rw [hremove] at hdone
    cases hdone
  | ok =>
    rw [hremove] at hdone
    obtain ⟨t', ⟨-, hattends⟩, hshows'⟩ :=
      hobeys.answer (.remove entry.object) trivial hshows₁
    refine ⟨t', hshows', (hattends hplace).2 ?_⟩
    have hreply := (congrArg Prod.fst (Operation.alone_during service s₁ _
      (Operation.ask (.remove entry.object)))).symm.trans hdone
    cases hanswer : (service.answer (.remove entry.object) s₁).1 with
    | error failure =>
      rw [Operation.alone_ask, hanswer] at hreply
      cases hreply
    | ok => rfl

/-- Calls none of which removes the base leave the base alone. By induction on the calls. -/
theorem exists_upholds_afterCalls (hobeys : service.Obeys candid shows) (hupheld : fence.Upheld t)
    (hshows : shows s t) {calls : List Call}
    (hspares : ∀ name, Call.delete name ∈ calls → Path.ofString name ≠ .root) :
    ∃ t', Upholds fence.mount.base.place t t' ∧
      shows (fence.mount.afterCalls service calls s) t' := by
  induction calls generalizing s t with
  | nil => exact ⟨t, Upholds.refl _ t, hshows⟩
  | cons call calls ih =>
    have hadmits : fence.upholdingGuide.Admits call := upholdingGuide_admits fun name hcall =>
      Mount.pathOf_ne_base (hspares name (hcall ▸ List.mem_cons_self))
    have hsafe : (call.operation fence.mount).Safe fence.upholding Guide.AnyResult false t :=
      Guide.safe_call hadmits hupheld
    obtain ⟨t₁, hupholds, hshows₁, -⟩ := hsafe.alone hobeys hshows
    obtain ⟨t₂, hupholds', hshows₂⟩ := ih (hupheld.trans hupholds.toKeeps) hshows₁
      fun name hname => hspares name (List.mem_cons_of_mem _ hname)
    exact ⟨t₂, hupholds.trans hupholds', hshows₂⟩

end Fence

namespace Mount

/-- The base of a mount outlasts all calls that do not remove it by one of its own names. The very
    directory that the build has made sure of stays, and it is found as the root of the mount. Nothing
    keeps a caller from removing it by one of its names. -/
theorem base_survives (hobeys : service.Obeys candid shows) {start : Tree} (hshows : shows s start)
    {number : Nat} {config : Config} {opener : Option Opener} {mount : Mount}
    (hplain : ∀ {dir name x}, start.item (dir ++ [name]) = some x →
      config.mapping.apply name = name)
    (hbase : ∀ name ∈ (Path.ofString config.baseDir).place, config.mapping.apply name = name)
    (hbuilt : ((Mount.build number config opener).alone service s).1 = .ok mount)
    {calls : List Call} (hspares : ∀ name, Call.delete name ∈ calls → Path.ofString name ≠ .root) :
    let built := ((Mount.build number config opener).alone service s).2
    let later := mount.afterCalls service calls built
    ∃ t t' x, shows built t ∧ t.item mount.base.place = some x ∧ x.object.isFolder = true ∧
      shows later t' ∧ t'.item mount.base.place = some x ∧
      (∃ entry, ((mount.stat "/").alone service later).1 = .ok entry ∧ entry.isDir = true) ∧
      ∀ name, Path.ofString name = .root → ((mount.delete name).alone service later).1 = .ok () →
        ∃ t'', shows ((mount.delete name).alone service later).2 t'' ∧
          t''.item mount.base.place = none := by
  intro built later
  let fence : Fence := ⟨ofConfig number config opener, start, hplain, hbase⟩
  have hstart : fence.Upheld start := Keeps.refl _ start
  obtain ⟨t, hupholds, hshows₁, hpost⟩ :=
    (Fence.safe_build_upheld hstart rfl).alone hobeys hshows
  obtain ⟨rfl, x, hitem, hfolder⟩ := hpost mount hbuilt
  have hupheld : fence.Upheld t := hupholds.toKeeps
  obtain ⟨t', hupholds', hshows₂⟩ := Fence.exists_upholds_afterCalls hobeys hupheld hshows₁ hspares
  have hitem' : t'.item fence.mount.base.place = some x := hupholds'.self hitem
  have hdir : t'.HasDir fence.mount.base.place := ⟨x, hitem', hfolder⟩
  have hupheld' : fence.Upheld t' := hupheld.trans hupholds'.toKeeps
  obtain ⟨entry, s', hfound, -, hisDir, -⟩ := Fence.exists_alone_lookup_above hobeys hupheld'
    fence.mount.base List.prefix_rfl hshows₂ hdir
  refine ⟨t, t', x, hshows₁, hitem, hfolder, hshows₂, hitem', ⟨entry, ?_, hisDir⟩, ?_⟩
  · have hslash : Path.ofString "/" = .root := by decide +kernel
    rw [stat, fence.mount.pathOf_of_root hslash]
    exact congrArg Prod.fst hfound
  · exact fun name hname => Fence.exists_gone_of_delete hobeys hupheld' hshows₂ hdir hname

section Lodged

open Scenario

/-- Settings that put a namespace into a directory that is not there yet. -/
def lodging : Config := { baseDir := "/home//b/", mapping := .identity }

/-- Such a namespace over an empty careful store. -/
def lodged : Except Failure Mount × Store :=
  (Mount.build 0 lodging none).alone Store.careful (World.bare []).store

/-- Much is stored and removed by names of all kinds, and files are written to the base in vain. The
    base is still there. -/
theorem base_survives_vain :
    let calls : List Call := [.write "d/../f" [7], .delete "../../f", .write "x/.." [8],
      .write "." [9], .writeFrom "../a/b" ⟨[1, 2], none⟩, .read "a/b" 0 2, .delete "a",
      .readDir "..", .delete "home/b"]
    ∃ mount, lodged.1 = .ok mount ∧ mount.base.place = ["home", "b"] ∧
      ∃ entry, ((mount.stat "/").alone Store.careful
        (mount.afterCalls Store.careful calls lodged.2)).1 = .ok entry ∧ entry.isDir = true := by
  intro calls
  obtain ⟨mount, hbuilt⟩ : ∃ mount, lodged.1 = .ok mount := ⟨_, rfl⟩
  have hspares : ∀ name, Call.delete name ∈ calls → Path.ofString name ≠ .root := by
    have hnames : ∀ name ∈ ["../../f", "a", "home/b"], Path.ofString name ≠ .root := by
      decide +kernel
    intro name hname
    exact hnames name (by simpa [calls] using hname)
  obtain ⟨-, -, -, -, -, -, -, -, hentry, -⟩ := base_survives
    (Store.careful_obeys.of_extends attentive_extends_candid) Mount.holds_bare (fun _ => rfl)
    (fun _ _ => rfl) hbuilt hspares
  refine ⟨mount, hbuilt, ?_, hentry⟩
  cases hbuilt
  decide +kernel

/-- A namespace does not outlast the removal of its base by one of its own names. The base has been
    made, it is found, its removal is reported as done, and then there is no root any more. -/
theorem base_removed :
    Store.careful.Obeys candid Store.Holds ∧ (World.bare []).store.Holds World.bareTree ∧
    ∃ mount entry failure, lodged.1 = .ok mount ∧
      ((mount.stat "/").alone Store.careful lodged.2).1 = .ok entry ∧ entry.isDir = true ∧
      ((mount.delete "").alone Store.careful lodged.2).1 = .ok () ∧
      ((mount.stat "/").alone Store.careful
        (mount.afterCalls Store.careful [.delete ""] lodged.2)).1 = .error failure ∧
      failure.cause = .notFound :=
  ⟨Store.careful_obeys.of_extends attentive_extends_candid, Mount.holds_bare,
    _, _, _, rfl, rfl, rfl, rfl, rfl, rfl⟩

end Lodged

end Mount

end VirtualFs
