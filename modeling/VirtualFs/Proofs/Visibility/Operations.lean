import VirtualFs.Proofs.Visibility.Seeker
import VirtualFs.Proofs.Writing.Readback

namespace VirtualFs

open VirtualFs.Tree

/-- A call that looks for a file, if only to remove it. -/
def Call.Seeks : Call → Prop
  | stat _ => True
  | read _ _ _ => True
  | delete _ => True
  | _ => False

def Call.Removes : Call → Prop
  | delete _ => True
  | _ => False

/-- What a call comes to on the path of a file: it tells of the file or reads from it while it is
    there, and if it reports that it has removed it, no file is there any more. -/
def Call.Achieves (here : Place) (item : Item) (t : Tree) : Call → Except Failure Answer → Prop
  | stat _, result => t.item here = some item ∧
    result = .ok (.entry ⟨item.object.name, item.object⟩)
  | read _ offset length, result => t.item here = some item ∧
    result = .ok (.stream ⟨(item.content.drop offset.toNat).take length.toNat, none⟩)
  | delete _, result => result = .ok .done →
    ∀ {x}, t.item here = some x → x.object.isFolder = true
  | _, _ => True

namespace Sought

variable {sought : Sought} {homing : Homing} {late : Nat → Prop} {t : Tree} {cut : Bool}
  {name : String}

/-- Names that lead to a file do not lead to the root. -/
theorem safe_lookup_pathOf (hplain : homing.Plain (homing.mount.pathOf name).place)
    (hhere : (homing.mount.pathOf name).place = sought.here) (hne : sought.here ≠ [])
    (hstanding : sought.Standing homing t) :
    (homing.mount.lookup (homing.mount.pathOf name)).Safe (sought.accord homing late)
      (fun cut t result => (sought.guide homing late).LooksUp (homing.mount.pathOf name) cut t result ∧
        sought.Sees cut t result) cut t := by
  have hguided : ((sought.guide homing late).mount.lookup (homing.mount.pathOf name)).Safe
      (sought.guide homing late).accord
      ((sought.guide homing late).LooksUp (homing.mount.pathOf name)) cut t :=
    Guide.safe_lookup _ hplain hstanding
  refine Operation.Safe.and hguided ?_
  generalize homing.mount.pathOf name = path at hplain hhere
  cases path with
  | root => exact (hne hhere.symm).elim
  | child dir base => exact safe_lookup hplain hhere hstanding

theorem safe_stat (hplain : homing.Plain (homing.mount.pathOf name).place)
    (hhere : (homing.mount.pathOf name).place = sought.here) (hne : sought.here ≠ [])
    (hstanding : sought.Standing homing t) :
    (homing.mount.stat name).Safe (sought.accord homing late) sought.Sees cut t :=
  (safe_lookup_pathOf hplain hhere hne hstanding).weaken And.right

/-- Reading from what serves a file comes to its bytes. -/
theorem safe_readable_read (hsize : sought.item.content.length < 2 ^ 64) {readable : Readable}
    (hserves : ∀ range, readable.reader.read range =
      (Reader.memory sought.item.content).read range) (offset length : UInt64) :
    (readable.read ⟨offset, some length⟩).Safe (sought.accord homing late)
      (fun _ _ result => result =
        .ok ⟨(sought.item.content.drop offset.toNat).take length.toNat, none⟩) cut t := by
  refine Operation.Safe.bind (Operation.safe_log fun {t₁} _ => ?_)
  refine Operation.Safe.bind (Operation.safe_ask (.readRange ..) fun {t₂} _ => ⟨trivial, ?_⟩)
  rintro answer t₃ ⟨-, rfl, hread : answer = _⟩
  refine ⟨fun hreached => ⟨hreached, id, id⟩, fun {t₄} _ => ?_⟩
  rw [hserves, Reader.read, ByteRange.slice_eq hsize] at hread
  subst answer
  refine Operation.safe_pure fun _ => ?_
  dsimp only [Option.elim]
  rw [Stream.take_take]

/-- A file that nobody is about to remove is read. -/
theorem safe_read (hstays : ¬ sought.removing) (hsize : sought.item.content.length < 2 ^ 64)
    (hplain : homing.Plain (homing.mount.pathOf name).place)
    (hhere : (homing.mount.pathOf name).place = sought.here) (hne : sought.here ≠ [])
    (hstanding : sought.Standing homing t) (offset length : UInt64) :
    (homing.mount.read name offset length).Safe (sought.accord homing late)
      (fun _ _ result => result =
        .ok ⟨(sought.item.content.drop offset.toNat).take length.toNat, none⟩) cut t := by
  rw [Mount.read]
  refine Operation.Safe.bind (Operation.Safe.during
    ((safe_stat hplain hhere hne hstanding).since.weaken ?_))
  rintro cut t₁ result ⟨hleads₁, hgone | rfl⟩
  · exact (hstays hgone.1).elim
  have hfile : ¬ sought.item.object.isFolder = true := by simp [sought.file]
  show Operation.Safe _ _ (if sought.item.object.isFolder = true then _ else _) cut t₁
  rw [if_neg hfile]
  refine Operation.Safe.bind (Operation.Safe.during
    (Operation.safe_ask (.link _) fun {t₂} hleads₂ => ⟨trivial, ?_⟩))
  have hstanding₂ := (hstanding.mono hleads₁).mono hleads₂
  have hitem : t₂.item sought.here = some sought.item :=
    (hstanding₂.kept_of_ne hne).resolve_right fun hgone => hstays hgone.1
  rintro answer t₃ ⟨-, rfl, hlink⟩
  obtain ⟨link, rfl, hserves⟩ := hlink (Tree.found _ hitem) hitem sought.file
  refine ⟨fun hreached => ⟨hreached, id, id⟩, fun {t₄} hleads₄ => ?_⟩
  refine Operation.Safe.bind (Operation.Safe.during ?_)
  cases link with
  | data bytes =>
    obtain rfl : bytes = sought.item.content := hserves
    exact Operation.safe_pure fun _ => safe_readable_read hsize (fun _ => rfl) offset length
  | reader reader =>
    have hreads : ∀ range, reader.read range = (Reader.memory sought.item.content).read range :=
      hserves
    exact Operation.safe_pure fun _ => safe_readable_read hsize hreads offset length
  | url address headers => exact hserves.elim

/-- A removal that is reported has taken place. -/
theorem safe_delete (hremoving : sought.removing)
    (hplain : homing.Plain (homing.mount.pathOf name).place)
    (hhere : (homing.mount.pathOf name).place = sought.here) (hne : sought.here ≠ [])
    (hstanding : sought.Standing homing t) :
    (homing.mount.delete name).Safe (sought.accord homing late)
      (fun _ t result => result = .ok () → sought.Gone t) cut t := by
  rw [Mount.delete]
  refine Operation.Safe.bind (Operation.Safe.attempt
    ((safe_lookup_pathOf hplain hhere hne hstanding).since.weaken ?_))
  rintro cut t₁ result ⟨hleads₁, hlooks, hsees⟩
  have hstanding₁ := hstanding.mono hleads₁
  cases result with
  | error failure =>
    have hgone : sought.Gone t₁ := hsees.resolve_right fun h => by cases h
    dsimp only
    cases failure.leadsNowhere with
    | true => exact Operation.safe_log fun h _ => hgone.mono hstanding₁ h
    | false => exact Operation.safe_fail fun _ h => by cases h
  | ok entry =>
    have hhome : homing.home entry.object = some sought.here := hhere ▸ hlooks _ rfl
    refine Operation.Safe.bind (Operation.safe_offer ?_)
    rintro t₂ offer hleads₂ - t₃ hleads₃
    refine Operation.Safe.bind (Operation.safe_require fun {t₄} hleads₄ => ?_)
    cases offer.requireRemove with
    | error failure => exact fun h => by cases h
    | ok =>
      refine Operation.Safe.during (Operation.safe_ask (.remove _) fun {t₅} hleads₅ => ?_)
      refine ⟨trivial, fun {answer t₆} hpermits => ?_⟩
      have hleads : sought.course.Leading homing t₁ t₅ :=
        Course.Leading.trans hleads₂ (Course.Leading.trans hleads₃
          (Course.Leading.trans hleads₄ hleads₅))
      have hstanding₅ := hstanding₁.mono hleads
      obtain ⟨hreached₆, hchange⟩ :=
        hstanding₅.reached.of_remove (hhere ▸ hplain) hhome hpermits
      have hdoes : (sought.Kept t₅ → sought.Kept t₆) ∧ (sought.Gone t₅ → sought.Gone t₆) := by
        rcases hchange with rfl | hcleared
        · exact ⟨id, id⟩
        · have hgone : sought.Gone t₆ := gone_of_none hremoving hcleared.gone
          exact ⟨fun _ => .inr hgone, fun _ => hgone⟩
      have hdone : answer = .ok () → sought.Gone t₆ := by
        intro hanswer
        rcases hsees with hgone | hfound
        · exact hdoes.2 (hgone.mono hstanding₁ hleads)
        · rcases hstanding₅.kept_of_ne hne with hitem | hgone
          · obtain rfl := Except.ok.inj hfound
            exact gone_of_none hremoving ((hpermits.2.2 (Tree.found _ hitem)).2 hanswer)
          · exact hdoes.2 hgone
      refine ⟨fun _ => ⟨hreached₆, hdoes⟩, fun {t₇} hleads₇ hok => ?_⟩
      have hstanding₆ : sought.Standing homing t₆ := hstanding₅.mono fun _ => ⟨hreached₆, hdoes⟩
      cases answer with
      | error failure => cases hok
      | ok => exact (hdone rfl).mono hstanding₆ hleads₇

/-- A call on the path of the file comes to what it is to come to. -/
theorem safe_call {call : Call} (hseeks : call.Seeks) (hremoving : sought.removing ↔ call.Removes)
    (hsize : sought.item.content.length < 2 ^ 64)
    (hplain : homing.Plain (call.path homing.mount).place)
    (hhere : (call.path homing.mount).place = sought.here) (hne : sought.here ≠ [])
    (hstanding : sought.Standing homing t) :
    (call.operation homing.mount).Safe (sought.accord homing late)
      (fun _ t result => call.Achieves sought.here sought.item t result) cut t := by
  have hitem : ¬ sought.removing → ∀ {t'}, sought.course.Leading homing t t' →
      t'.item sought.here = some sought.item := fun hstays _ hleads =>
    ((hstanding.mono hleads).kept_of_ne hne).resolve_right fun hgone => hstays hgone.1
  cases call with
  | stat name =>
    have hstays : ¬ sought.removing := fun h => hremoving.1 h
    refine Operation.Safe.map ((safe_stat hplain hhere hne hstanding).since.weaken ?_)
    rintro cut t' result ⟨hleads, hgone | rfl⟩
    · exact (hstays hgone.1).elim
    · exact ⟨hitem hstays hleads, rfl⟩
  | read name offset length =>
    have hstays : ¬ sought.removing := fun h => hremoving.1 h
    refine Operation.Safe.map
      ((safe_read hstays hsize hplain hhere hne hstanding offset length).since.weaken ?_)
    rintro cut t' result ⟨hleads, rfl⟩
    exact ⟨hitem hstays hleads, rfl⟩
  | delete name =>
    refine Operation.Safe.map
      ((safe_delete (hremoving.2 trivial) hplain hhere hne hstanding).weaken ?_)
    intro cut t' result hgone hdone
    cases result with
    | error failure => cases hdone
    | ok => exact (hgone rfl).2
  | _ => exact hseeks.elim

end Sought

end VirtualFs
