import VirtualFs.Proofs.Making.Write

namespace VirtualFs

namespace Offer

variable {offer : Offer}

theorem mem_capabilities {capability : Capability} :
    capability ∈ offer.capabilities ↔ offer.supports capability = true := by
  rw [capabilities, List.mem_filter]
  refine and_iff_right ?_
  cases capability <;> decide

theorem putForm_of_lacks (hlacks : .put ∉ offer.capabilities) :
    offer.putForm = .error (Cause.notImplemented .put) := by
  simp_all [mem_capabilities, supports, putForm, chooseForm]

theorem makeDirForm_of_lacks (hlacks : .makeDir ∉ offer.capabilities) :
    offer.makeDirForm = .error (Cause.notImplemented .makeDir) := by
  simp_all [mem_capabilities, supports, makeDirForm, chooseForm]

end Offer

namespace Mount

open Operation

variable {mount : Mount} {path dir : Path} {base : Segment} {name : String}
  {content : List UInt8} {source : Stream} {capabilities : List Capability} {past : List Act}
  {request : Request}

/-- The means to make a directory are looked for before anything is asked. -/
theorem not_issues_createIn_of_lacks {parent : Entry} (hlacks : .makeDir ∉ capabilities)
    (hsteady : Steady capabilities past) : ¬ (mount.createIn parent dir base).Issues past request := by
  intro hissues
  rw [createIn_eq, issues_offer_bind] at hissues
  obtain ⟨offer, rest, rfl, hissues⟩ := hissues
  have hoffered : offer.capabilities = capabilities := (steady_cons.1 hsteady).1
  rw [issues_require_bind, Offer.makeDirForm_of_lacks (hoffered ▸ hlacks)] at hissues
  obtain ⟨form, ⟨⟩, -⟩ := hissues

/-- Those who cannot make the topmost directory that is missing have done nothing but look for it
    and for the ones below it. -/
theorem not_changes_of_makeDirs_of_lacks (hlacks : .makeDir ∉ capabilities)
    (hsteady : Steady capabilities past) (hissues : (mount.makeDirs path).Issues past request) :
    ¬ request.Changes := by
  induction path generalizing past with
  | root => exact not_changes_of_lookup hissues
  | child dir base ih =>
    rcases issues_makeDirs_child.1 hissues with
      hlookup | ⟨first, second, rfl, -, hparent | ⟨third, parent, fourth, rfl, -, hcreate⟩⟩
    · exact not_changes_of_lookup hlookup
    · rcases issues_findOrMake.1 hparent with hlookup | ⟨third, fourth, rfl, -, hmake⟩
      · exact not_changes_of_lookup hlookup
      · exact ih (steady_append.1 (steady_append.1 hsteady).2).2 hmake
    · have hsteady' := (steady_append.1 (steady_append.1 hsteady).2).2
      exact (not_issues_createIn_of_lacks hlacks hsteady' hcreate).elim

/-- The means to store a file are looked for before anything is asked. -/
theorem not_issues_write_of_lacks (hlacks : .put ∉ capabilities)
    (hsteady : Steady capabilities past) : ¬ (mount.write name content).Issues past request := by
  intro hissues
  obtain ⟨dir, base, offer, form, time, climb, -, hform, rfl, -⟩ := issues_write hissues
  have hoffered : offer.capabilities = capabilities := (steady_cons.1 hsteady).1
  rw [Offer.putForm_of_lacks (hoffered ▸ hlacks)] at hform
  cases hform

/-- What is said of a failure to make the directory above a target. -/
def makingDir (dir : Path) : String :=
  "failed to make dir [" ++ dir.text ++ "]"

/-- Whether it was a directory or the file that could not be made is told by the letter after the
    first two words. -/
theorem storing_ne_making (path dir : String) :
    "failed to put [" ++ path ++ "]" ≠ "failed to make dir [" ++ dir ++ "]" := by
  intro hsame
  have hlists := congrArg String.toList hsame
  rw [String.append_assoc, String.append_assoc, String.toList_append, String.toList_append]
    at hlists
  have hletters := congrArg (fun letters => (letters.drop 10).head?) hlists
  simp at hletters

theorem attempts_of_during {α : Type} {what : String} {operation : Operation α} {failure : Failure}
    (hreturns : (during what operation).Returns past (.error failure)) :
    failure.attempts.head? = some what := by
  obtain ⟨plain, -, hfailure⟩ := returns_during.1 hreturns
  cases plain with
  | ok => cases hfailure
  | error cause =>
    obtain rfl := Except.error.inj hfailure
    rfl

/-- Without the means to make a directory, a write that fails for want of one has not got to storing
    its file. -/
theorem quiet_of_write_of_lacks {failure : Failure} (hpath : mount.pathOf name = dir.child base)
    (hlacks : .makeDir ∉ capabilities) (hsteady : Steady capabilities past)
    (hreturns : (mount.write name content).Returns past
      (.error (failure.during (makingDir dir)))) : Quiet (exchangesOf past) := by
  rw [write] at hreturns
  dsimp only at hreturns
  rw [hpath] at hreturns
  dsimp only at hreturns
  split at hreturns
  · obtain ⟨rfl, -⟩ := returns_fail.1 hreturns
    exact quiet_nil
  rw [returns_offer_bind] at hreturns
  obtain ⟨offer, rest, rfl, hreturns⟩ := hreturns
  rw [returns_require_bind] at hreturns
  obtain ⟨_, -, rfl, -⟩ | ⟨form, -, hreturns⟩ := hreturns
  · exact quiet_nil
  rw [returns_now_bind] at hreturns
  obtain ⟨time, rest, rfl, hreturns⟩ := hreturns
  have hsteady' : Steady capabilities rest := (steady_cons.1 (steady_cons.1 hsteady).2).2
  rw [returns_bind] at hreturns
  obtain ⟨cause, hmake, -⟩ | ⟨first, parent, second, rfl, -, hput⟩ := hreturns
  · obtain ⟨plain, hmake, -⟩ := returns_during.1 hmake
    exact hmake.quiet fun hfirst =>
      not_changes_of_makeDirs_of_lacks hlacks (hsteady'.of_prefix hfirst)
  · have hstoring := attempts_of_during hput
    exact (storing_ne_making _ _ (Option.some.inj hstoring).symm).elim

/-- The failures by which a write is turned down because nobody offers what it needs. -/
inductive Refuses (mount : Mount) (capabilities : List Capability) (name : String) :
    Failure → Prop
  | put (lacks : .put ∉ capabilities) :
      Refuses mount capabilities name (Cause.notImplemented .put)
  | makeDir {dir : Path} {base : Segment} (target : mount.pathOf name = dir.child base)
      (lacks : .makeDir ∉ capabilities) :
      Refuses mount capabilities name
        (Failure.during (Cause.notImplemented .makeDir) (makingDir dir))

theorem quiet_of_refused_write {failure : Failure} (hsteady : Steady capabilities past)
    (hreturns : (mount.write name content).Returns past (.error failure))
    (hrefuses : mount.Refuses capabilities name failure) : Quiet (exchangesOf past) := by
  cases hrefuses with
  | put lacks =>
    exact hreturns.quiet fun hfirst hissues =>
      (not_issues_write_of_lacks lacks (hsteady.of_prefix hfirst) hissues).elim
  | makeDir target lacks => exact quiet_of_write_of_lacks target lacks hsteady hreturns

/-- The base itself is not written to. -/
theorem write_of_base (hpath : mount.pathOf name = mount.base) :
    mount.write name content = fail (Failure.during (Cause.notAFile : Failure) mount.base.text) := by
  rw [write, hpath]
  dsimp only
  cases mount.base with
  | root => rfl
  | child dir base => exact if_pos rfl

/-- A source is read to its end first. If it breaks off, that is all, else the content is written. -/
theorem goes_writeFrom {rest : Procedure (Except Failure Unit)}
    (hgoes : (mount.writeFrom name source).run.Goes past rest) :
    past = [] ∨
      (∃ failure, past = [.asked ⟨.drain source, .error failure⟩] ∧ rest = .done (.error failure)) ∨
        ∃ content later, past = .asked ⟨.drain source, .ok content⟩ :: later ∧
          (mount.write name content).run.Goes later rest := by
  change Procedure.Goes (.ask (.drain source) _) past rest at hgoes
  cases hgoes with
  | rest => exact .inl rfl
  | ask answer later =>
    cases answer with
    | ok content => exact .inr (.inr ⟨content, _, rfl, later⟩)
    | error failure =>
      cases later
      exact .inr (.inl ⟨failure, rfl, rfl⟩)

variable (mount name content source) in
/-- A write that is turned down because nobody offers to store files, or because nobody offers to
    make the topmost directory that is missing, has not asked for any change, however it came by its
    content. A write to the root of the namespace does nothing at all, and neither does one whose
    source breaks off, beyond reading the source. -/
theorem refused_write_changes_nothing (capabilities : List Capability) :
    (∀ operation ∈ [mount.write name content, mount.writeFrom name source], ∀ past failure,
      operation.run.Goes past (.done (.error failure)) → Steady capabilities past →
        mount.Refuses capabilities name failure → Quiet (exchangesOf past)) ∧
      (Path.ofString name = .root → ∀ past rest,
        (mount.write name content).run.Goes past rest → past = []) ∧
      ∀ past rest, (mount.writeFrom name source).run.Goes past rest →
        (∀ content, .asked ⟨.drain source, .ok content⟩ ∉ past) →
          past = [] ∨ ∃ failure, past = [.asked ⟨.drain source, .error failure⟩] ∧
            rest = .done (.error failure) := by
  refine ⟨?_, ?_, ?_⟩
  · intro operation hmem past failure hgoes hsteady hrefuses
    rcases List.mem_pair.1 hmem with rfl | rfl
    · exact quiet_of_refused_write hsteady hgoes hrefuses
    · rcases goes_writeFrom hgoes with rfl | ⟨cause, rfl, -⟩ | ⟨drained, later, rfl, hlater⟩
      · exact quiet_nil
      · exact List.forall_mem_singleton.2 id
      · obtain ⟨-, hsteady'⟩ := List.forall_mem_cons.1 hsteady
        exact List.forall_mem_cons.2 ⟨id, quiet_of_refused_write hsteady' hlater hrefuses⟩
  · intro hname past rest hgoes
    rw [write_of_base (Path.join_of_root mount.base hname)] at hgoes
    cases hgoes
    rfl
  · intro past rest hgoes hdrained
    rcases goes_writeFrom hgoes with hnone | hbreaks | ⟨drained, later, rfl, -⟩
    · exact .inl hnone
    · exact .inr hbreaks
    · exact (hdrained drained List.mem_cons_self).elim

section Rigid

open Scenario

/-- A store that finds objects by their paths and takes files, but makes no directories. -/
def rigid : Store :=
  { (World.bare []).store with
    offer := { remove := true, put := true, get := true, rootId := some "/" } }

/-- Two directories are missing above a file, as objects are asked for by their paths and listings
    are taken, and none is made. There is nothing to do at the root, or where a source breaks off. -/
theorem refused_write_rigid :
    (∃ past failure, (plainMount.write "d/e/f" [7]).run.Goes past (.done (.error failure)) ∧
      Steady rigid.offer.capabilities past ∧
      plainMount.Refuses rigid.offer.capabilities "d/e/f" failure ∧
      (exchangesOf past).length = 8 ∧ Quiet (exchangesOf past)) ∧
    (Path.ofString "d/.." = .root ∧
      ∀ past rest, (plainMount.write "d/.." [7]).run.Goes past rest → past = []) ∧
    ∃ past rest, (plainMount.writeFrom "d/e/f" ⟨[7], some "torn"⟩).run.Goes past rest ∧
      (∀ content, .asked ⟨.drain ⟨[7], some "torn"⟩, .ok content⟩ ∉ past) ∧
      (past = [] ∨ ∃ failure, past = [.asked ⟨.drain ⟨[7], some "torn"⟩, .error failure⟩] ∧
        rest = .done (.error failure)) := by
  refine ⟨?_, ?_, ?_⟩
  · let write := (plainMount.write "d/e/f" [7]).run
    have hgoes := write.goes_acts Store.service rigid
    have hfails : (write.alone Store.service rigid).1 = .error
        (Failure.during (Cause.notImplemented .makeDir) (makingDir (Path.ofString "d/e"))) := by
      decide +kernel
    rw [hfails] at hgoes
    have hsteady : Steady rigid.offer.capabilities (write.acts Store.service rigid) := by
      decide +kernel
    have htarget : plainMount.pathOf "d/e/f" = (Path.ofString "d/e").child ⟨"f", by decide⟩ := by
      decide +kernel
    have hrefuses : plainMount.Refuses rigid.offer.capabilities "d/e/f" _ :=
      .makeDir htarget (by decide)
    have hquiet := (refused_write_changes_nothing plainMount "d/e/f" [7] ⟨[], none⟩ _).1 _
      List.mem_cons_self _ _ hgoes hsteady hrefuses
    exact ⟨_, _, hgoes, hsteady, hrefuses, by decide +kernel, hquiet⟩
  · have hname : Path.ofString "d/.." = .root := by decide +kernel
    exact ⟨hname, (refused_write_changes_nothing plainMount "d/.." [7] ⟨[], none⟩ []).2.1 hname⟩
  · let write := (plainMount.writeFrom "d/e/f" ⟨[7], some "torn"⟩).run
    have hgoes := write.goes_acts Store.service rigid
    have hdrained : ∀ content, .asked ⟨.drain ⟨[7], some "torn"⟩, .ok content⟩ ∉
        write.acts Store.service rigid := by
      intro content hmem
      cases List.mem_singleton.1 hmem
    exact ⟨_, _, hgoes, hdrained, (refused_write_changes_nothing plainMount "d/e/f" [7]
      ⟨[7], some "torn"⟩ []).2.2 _ _ hgoes hdrained⟩

end Rigid

end Mount

end VirtualFs
