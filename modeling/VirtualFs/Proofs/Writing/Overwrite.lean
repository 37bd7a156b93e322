import VirtualFs.Proofs.Isolation.Calls
import VirtualFs.Proofs.Making.Refusal
import VirtualFs.Proofs.Writing.Removal

namespace VirtualFs

namespace Tree

/-- How a backend behaves that can be looked at and takes files. What it does with them is left
    open. -/
def taking : Behaviour Tree :=
  { looking with
    offers := fun t offer => looking.offers t offer ∧ ∃ form, offer.putForm = .ok form }

theorem taking_extends_looking : taking.Extends looking where
  uses := id
  offers := And.left
  permits _ := id

theorem filing_extends_taking : filing.Extends taking where
  uses := filing_extends_looking.uses
  offers hoffers := ⟨filing_extends_looking.offers hoffers, hoffers.2.1⟩
  permits := filing_extends_looking.permits

end Tree

namespace Mount

open VirtualFs.Tree Operation

variable {σ : Type} {service : Service σ} {shows : σ → Tree → Prop} {mount : Mount} {t : Tree}
  {s s₁ s' : σ} {name : String} {past : List Exchange} {dir : Path} {base : Segment}
  {content : List UInt8}

/-- What is handed to a backend to be stored under a name. -/
def uploadOf (base : Segment) (content : List UInt8) (time : UInt64) : Upload :=
  ⟨{ name := base.text, size := UInt64.ofNat content.length, modified := time, created := time },
    content⟩

/-- Whatever stands at a path, a write asks for the file to be stored in the directory above it. -/
theorem gives_write_of_found {parent : Entry} {form : Form} {answer : Except Failure Unit}
    (hpath : mount.pathOf name = dir.child base) (hbase : mount.pathOf name ≠ mount.base)
    (hform : (service.offer s).putForm = .ok form)
    (hlookup : (mount.lookup dir).Gives service s past (.ok parent) s₁)
    (hisDir : parent.isDir = true)
    (hanswer : service.answer (.put form parent.object (uploadOf base content (service.now s))
      (dir.child base)) s₁ = (answer, s')) :
    (mount.write name content).Gives service s
      (past ++ [⟨.put form parent.object (uploadOf base content (service.now s)) (dir.child base),
        answer⟩])
      (answer.mapError (·.during ("failed to put [" ++ (dir.child base).text ++ "]"))) s' := by
  have hrequire : (require (service.offer s).putForm).Gives service s [] (.ok form) s := by
    rw [hform]
    exact gives_require _
  have hmake := (gives_makeDirs_of_found hlookup hisDir).during
    ("failed to make dir [" ++ dir.text ++ "]")
  rw [write]
  dsimp only
  rw [hpath] at hbase ⊢
  dsimp only
  rw [if_neg hbase]
  exact gives_offer.bind (hrequire.bind (gives_now.bind
    (hmake.bind ((gives_ask hanswer).during _))))

/-- A directory is not read. -/
theorem gives_read_of_dir {entry : Entry}
    (hlookup : (mount.lookup (mount.pathOf name)).Gives service s past (.ok entry) s')
    (hisDir : entry.isDir = true) (offset length : UInt64) :
    (mount.read name offset length).Gives service s past
      (.error (Failure.during (Cause.notAFile : Failure) (mount.pathOf name).text)) s' := by
  rw [← List.append_nil past]
  refine (hlookup.during _).bind ?_
  rw [if_pos hisDir]
  exact gives_fail _

/-- A directory is found by a lookup that changes nothing. -/
theorem Sees.exists_gives_lookup_dir (hsees : mount.Sees service shows) (hshows : shows s t)
    (hplain : ∀ {dir name x}, t.item (dir ++ [name]) = some x → mount.mapping.apply name = name)
    (path : Path) (hdir : t.HasDir path.place) :
    ∃ past entry s', (mount.lookup path).Gives service s past (.ok entry) s' ∧ Quiet past ∧
      shows s' t ∧ entry.isDir = true ∧ t.place entry.object = some path.place := by
  obtain ⟨x, hitem, hfolder⟩ := hdir
  obtain ⟨past, result, s', hgives, hquiet, hshows', hreports⟩ :=
    hsees.exists_gives_lookup hshows hplain path
  cases hreports with
  | @found y entry hitem' hmeets =>
    obtain rfl := Option.some.inj (hitem.symm.trans hitem')
    exact ⟨past, entry, s', hgives, hquiet, hshows', hmeets.isDir.trans hfolder, hmeets.place⟩
  | missing hfree | blocked hfree =>
    rw [hfree] at hitem
    cases hitem

/-- Of a name that leads to a directory, reading says that it is not a file. Writing says so only if
    the directory is the base of the mount. To any other directory a file is written as if nothing
    stood there: the backend is asked to store it in the directory above, under the name that the
    directory has, and what comes of it is up to the backend. -/
theorem write_to_directory (mount : Mount) (content : List UInt8)
    (hobeys : service.Obeys taking shows) (hshows : shows s t)
    (hplain : ∀ {dir name x}, t.item (dir ++ [name]) = some x → mount.mapping.apply name = name)
    {name : String} (hdir : t.HasDir (mount.pathOf name).place) :
    let refusal : Failure := Failure.during (Cause.notAFile : Failure) (mount.pathOf name).text
    (∀ offset length, ∃ past s',
      (mount.read name offset length).Gives service s past (.error refusal) s' ∧ Quiet past ∧
        shows s' t) ∧
    (mount.pathOf name = mount.base →
      (mount.write name content).Gives service s [] (.error refusal) s) ∧
    (mount.pathOf name ≠ mount.base → ∃ dir base past form parent s₁,
      mount.pathOf name = .child dir base ∧ Quiet past ∧ shows s₁ t ∧
        t.place parent = some dir.place ∧
        let request : Request := .put form parent (uploadOf base content (service.now s))
          (dir.child base)
        ∃ answer s', service.answer request s₁ = (answer, s') ∧
          (mount.write name content).Gives service s (past ++ [⟨request, answer⟩])
            (answer.mapError (·.during ("failed to put [" ++ (dir.child base).text ++ "]"))) s') := by
  intro refusal
  have hsees := sees_of_obeys (hobeys.of_extends taking_extends_looking) mount
  refine ⟨fun offset length => ?_, fun hbase => ?_, fun hbase => ?_⟩
  · obtain ⟨past, entry, s', hgives, hquiet, hshows', hisDir, -⟩ :=
      hsees.exists_gives_lookup_dir hshows hplain _ hdir
    exact ⟨past, s', gives_read_of_dir hgives hisDir offset length, hquiet, hshows'⟩
  · rw [write_of_base hbase, ← hbase]
    exact gives_fail _
  · obtain ⟨-, form, hform⟩ := hobeys.offer hshows
    cases hpath : mount.pathOf name with
    | root =>
      have hbelow := mount.base_prefix_pathOf name
      rw [hpath] at hbelow
      have hroot : mount.base = .root := Path.place_injective (List.prefix_nil.1 hbelow)
      exact (hbase (hpath.trans hroot.symm)).elim
    | child dir base =>
      obtain ⟨x, hitem, -⟩ := hdir
      rw [hpath] at hitem
      obtain ⟨past, parent, s₁, hgives, hquiet, hshows₁, hisDir, hplace⟩ :=
        hsees.exists_gives_lookup_dir hshows hplain dir (t.parent hitem)
      exact ⟨dir, base, past, form, parent.object, s₁, rfl, hquiet, hshows₁, hplace, _, _, rfl,
        gives_write_of_found hpath hbase hform hgives hisDir rfl⟩

section Furnished

open Scenario

theorem service_obeys_taking : Store.service.Obeys taking Store.Holds :=
  Store.service_obeys.of_extends filing_extends_taking

/-- A directory that holds a file is not read, and neither is the base of the mount written to, but a
    file is stored in the place of the directory. -/
theorem write_to_directory_furnished :
    ∃ t, furnished.Holds t ∧ t.HasDir (indoors.pathOf "e/../d").place ∧
      t.HasDir (indoors.pathOf "d/..").place ∧
      (∃ past s' failure, (indoors.read "e/../d" 0 1).Gives Store.service furnished past
        (.error failure) s' ∧ failure.cause = .notAFile) ∧
      (∃ failure, (indoors.write "d/.." [9]).Gives Store.service furnished []
        (.error failure) furnished ∧ failure.cause = .notAFile) ∧
      ∃ past s', (indoors.write "e/../d" [9]).Gives Store.service furnished past (.ok ()) s' ∧
        (changesIn past).length = 1 := by
  obtain ⟨t, hholds, hbase, hdir, -, -⟩ := exists_holds_furnished
  have hhere : (indoors.pathOf "e/../d").place = ["b", "d"] := by decide +kernel
  have hhere' : (indoors.pathOf "d/..").place = ["b"] := by decide +kernel
  rw [← hhere] at hdir
  rw [← hhere'] at hbase
  obtain ⟨hread, -, hwrite⟩ :=
    write_to_directory indoors [9] service_obeys_taking hholds (fun _ => rfl) hdir
  obtain ⟨-, hrefused, -⟩ :=
    write_to_directory indoors [9] service_obeys_taking hholds (fun _ => rfl) hbase
  obtain ⟨past, s', hgives, -, -⟩ := hread 0 1
  obtain ⟨dir, base, past', form, parent, s₁, -, hquiet, -, -, answer, s'', hanswer, hgives'⟩ :=
    hwrite (by decide +kernel)
  cases hanswer
  refine ⟨t, hholds, hdir, hbase, ⟨past, s', _, hgives, rfl⟩,
    ⟨_, hrefused (by decide +kernel), rfl⟩, _, _, hgives', ?_⟩
  rw [changesIn_append, changesIn_eq_nil.2 hquiet]
  rfl

/-- A write replaces a directory by a file where the backend lets it. The file that the directory held
    is not found any more. -/
theorem write_replaces_directory :
    Store.service.Obeys taking Store.Holds ∧
    (∃ t, furnished.Holds t ∧ t.HasDir (indoors.pathOf "d").place ∧
      t.HoldsFile (indoors.pathOf "d/x").place [7]) ∧
    indoors.pathOf "d" ≠ indoors.base ∧
    ∃ s', (indoors.write "d" [9]).alone Store.service furnished = (.ok (), s') ∧
      ((indoors.stat "d").alone Store.service s').1.map Entry.isDir = .ok false ∧
      ∃ failure, ((indoors.stat "d/x").alone Store.service s').1 = .error failure ∧
        failure.cause = .notADirectory := by
  obtain ⟨t, hholds, -, hdir, hfile, -⟩ := exists_holds_furnished
  have hhere : (indoors.pathOf "d").place = ["b", "d"] := by decide +kernel
  have hhere' : (indoors.pathOf "d/x").place = ["b", "d", "x"] := by decide +kernel
  refine ⟨service_obeys_taking, ⟨t, hholds, hhere ▸ hdir, hhere' ▸ hfile⟩, by decide +kernel,
    _, Prod.ext (by decide +kernel) rfl, by decide +kernel, _, rfl, by decide +kernel⟩

end Furnished

end Mount

end VirtualFs
