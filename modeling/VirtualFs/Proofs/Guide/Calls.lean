import VirtualFs.Call
import VirtualFs.Proofs.Guide.Directories

namespace VirtualFs

variable {τ α : Type} {behaviour : Behaviour τ}

namespace Guide

/-- An object that is found for a path may be asked for in a certain way. -/
def Lends (guide : Guide behaviour) (path : Path) (request : Object → Request) : Prop :=
  guide.Way path ∧ ∀ {object t}, guide.Reached t → guide.Found path object t →
    guide.accord.Grants (request object) t (fun _ _ => True)

/-- Some content may be stored under a path and, if the backend says that this is done, has come to be
    stored there. -/
def Takes (guide : Guide behaviour) (path : Path) (content : List UInt8) (stored : τ → Prop) :
    Prop :=
  ∀ dir name, path = dir.child name → path ≠ guide.mount.base → guide.Way dir ∧
    ∀ {form parent file t}, file.name = name.text → guide.Reached t → guide.Found dir parent t →
      guide.accord.Grants (.put form parent ⟨file, content⟩ path) t
        (fun answer t' => answer = .ok () → ∀ {t''}, guide.accord.Leads t' t'' → stored t'')

/-- What a call asks for is granted. -/
def Admits (guide : Guide behaviour) : Call → Prop
  | .stat name => guide.Way (guide.mount.pathOf name)
  | .readDir name => guide.Way (guide.mount.pathOf name)
  | .names name => guide.Way (guide.mount.pathOf name)
  | .delete name => guide.Lends (guide.mount.pathOf name) .remove
  | .read name _ _ => guide.Lends (guide.mount.pathOf name) .link
  | .write name content => guide.Takes (guide.mount.pathOf name) content (fun _ => True)
  | .writeFrom name _ =>
    ∀ content, guide.Takes (guide.mount.pathOf name) content (fun _ => True)

variable {guide : Guide behaviour} {t : τ} {cut : Bool} {path : Path} {name : String}

/-- Any result will do. -/
def AnyResult (_ : Bool) (_ : τ) (_ : Except Failure α) : Prop := True

theorem safe_readDir (hway : guide.Way path) (hreached : guide.Reached t) :
    (guide.mount.list path).Safe guide.accord AnyResult cut t :=
  (safe_listFound hway hreached (safe_lookup _ hway hreached)).weaken fun _ => trivial

theorem safe_delete (hlends : guide.Lends (guide.mount.pathOf name) .remove)
    (hreached : guide.Reached t) : (guide.mount.delete name).Safe guide.accord AnyResult cut t := by
  obtain ⟨hway, hgrants⟩ := hlends
  rw [Mount.delete]
  refine Operation.Safe.bind (Operation.Safe.attempt ((safe_lookup _ hway hreached).since.weaken ?_))
  rintro cut t₁ result ⟨hleads₁, hresult⟩
  have hreached₁ := guide.reached_mono hreached hleads₁
  cases result with
  | error failure =>
    dsimp only
    cases failure.leadsNowhere with
    | true => exact Operation.safe_log fun _ => trivial
    | false => exact Operation.safe_fail fun _ => trivial
  | ok entry =>
    refine Operation.Safe.bind (Operation.safe_offer ?_)
    rintro t₂ offer hleads₂ - t₃ hleads₃
    refine Operation.Safe.bind (Operation.safe_require fun {t₄} hleads₄ => ?_)
    have hleads := guide.accord.trans hleads₂ (guide.accord.trans hleads₃ hleads₄)
    cases offer.requireRemove with
    | error failure => trivial
    | ok =>
      refine Operation.Safe.during (Operation.safe_ask (.remove _) fun {t₅} hleads₅ => ?_)
      have hlater := guide.accord.trans hleads hleads₅
      obtain ⟨huses, hdoes⟩ := hgrants (guide.reached_mono hreached₁ hlater)
        (guide.found_mono hway (hresult _ rfl) hlater)
      exact ⟨huses, fun hpermits => ⟨(hdoes hpermits).1, fun _ => trivial⟩⟩

/-- To find the reader behind a link or to read from it is nothing that the backend hears of. -/
theorem safe_ofLink (file : Entry) (opener : Option Opener) (link : Link) :
    (Readable.ofLink file opener link).Safe guide.accord AnyResult cut t := by
  cases link with
  | data content => exact Operation.safe_pure fun _ => trivial
  | reader reader => exact Operation.safe_pure fun _ => trivial
  | url address headers =>
    cases opener with
    | none => exact Operation.safe_fail fun _ => trivial
    | some opener =>
      refine Operation.Safe.bind (Operation.safe_ask (.openLink ..) fun {t₁} _ => ?_)
      obtain ⟨huses, hdoes⟩ := guide.transfer (.openLink ..) trivial
      refine ⟨huses, fun {answer t₂} hpermits => ⟨(hdoes hpermits).1, fun _ => ?_⟩⟩
      cases answer with
      | error failure => trivial
      | ok reader => exact Operation.safe_pure fun _ => trivial

theorem safe_readable_read (readable : Readable) (range : ByteRange) :
    (readable.read range).Safe guide.accord AnyResult cut t := by
  refine Operation.Safe.bind (Operation.safe_log fun {t₁} _ => ?_)
  refine Operation.Safe.bind (Operation.safe_ask (.readRange ..) fun {t₂} _ => ?_)
  obtain ⟨huses, hdoes⟩ := guide.transfer (.readRange ..) trivial
  refine ⟨huses, fun {answer t₃} hpermits => ⟨(hdoes hpermits).1, fun _ => ?_⟩⟩
  cases answer with
  | error failure => trivial
  | ok stream => exact Operation.safe_pure fun _ => trivial

theorem safe_read (hlends : guide.Lends (guide.mount.pathOf name) .link)
    (hreached : guide.Reached t) (offset length : UInt64) :
    (guide.mount.read name offset length).Safe guide.accord AnyResult cut t := by
  obtain ⟨hway, hgrants⟩ := hlends
  rw [Mount.read]
  refine Operation.Safe.bind (Operation.Safe.during ((safe_lookup _ hway hreached).since.weaken ?_))
  rintro cut t₁ result ⟨hleads₁, hresult⟩
  have hreached₁ := guide.reached_mono hreached hleads₁
  cases result with
  | error failure => trivial
  | ok file =>
    show Operation.Safe guide.accord AnyResult (if file.isDir = true then _ else _) cut t₁
    cases file.isDir with
    | true => exact Operation.safe_fail fun _ => trivial
    | false =>
      refine Operation.Safe.bind (Operation.Safe.during
        (Operation.safe_ask (.link _) fun {t₂} hleads₂ => ?_))
      obtain ⟨huses, hdoes⟩ := hgrants (guide.reached_mono hreached₁ hleads₂)
        (guide.found_mono hway (hresult _ rfl) hleads₂)
      refine ⟨huses, fun {answer t₃} hpermits => ⟨(hdoes hpermits).1, fun _ => ?_⟩⟩
      cases answer with
      | error failure => trivial
      | ok link =>
        refine Operation.Safe.bind (Operation.Safe.during ((safe_ofLink ..).weaken ?_))
        intro cut t₄ result _
        cases result with
        | error failure => trivial
        | ok readable => exact safe_readable_read readable _

theorem safe_put {form : Form} {parent : Object} {upload : Upload} {attempt : String}
    {stored : τ → Prop}
    (hgrants : ∀ {t'}, guide.accord.Leads t t' → guide.accord.Grants (.put form parent upload path) t'
      (fun answer t' => answer = .ok () → ∀ {t''}, guide.accord.Leads t' t'' → stored t'')) :
    (Operation.during attempt (Operation.ask (.put form parent upload path))).Safe guide.accord
      (fun _ t result => result = .ok () → stored t) cut t := by
  refine Operation.Safe.during (Operation.safe_ask (.put ..) fun {t₁} hleads => ?_)
  obtain ⟨huses, hdoes⟩ := hgrants hleads
  refine ⟨huses, fun {answer t₂} hpermits => ?_⟩
  obtain ⟨hdone, hstored⟩ := hdoes hpermits
  refine ⟨hdone, fun hleads' hok => ?_⟩
  cases answer with
  | error failure => cases hok
  | ok => exact hstored rfl hleads'

/-- A write that succeeds has stored what it was given. -/
theorem safe_write {content : List UInt8} {stored : τ → Prop}
    (htakes : guide.Takes (guide.mount.pathOf name) content stored) (hreached : guide.Reached t) :
    (guide.mount.write name content).Safe guide.accord
      (fun _ t result => result = .ok () → stored t) cut t := by
  rw [Mount.write]
  dsimp only
  generalize guide.mount.pathOf name = path at htakes ⊢
  cases path with
  | root => exact Operation.safe_fail fun _ h => by cases h
  | child dir base =>
    dsimp only
    by_cases hbase : dir.child base = guide.mount.base
    case pos =>
      rw [if_pos hbase]
      exact Operation.safe_fail fun _ h => by cases h
    case neg =>
      rw [if_neg hbase]
      obtain ⟨hway, hgrants⟩ := htakes _ _ rfl hbase
      refine Operation.Safe.bind (Operation.safe_offer ?_)
      rintro t₁ offer hleads₁ - t₂ hleads₂
      refine Operation.Safe.bind (Operation.safe_require fun {t₃} hleads₃ => ?_)
      cases offer.putForm with
      | error failure => exact fun h => by cases h
      | ok form =>
        refine Operation.Safe.bind (Operation.safe_now fun time {t₄} hleads₄ => ?_)
        have hleads := guide.accord.trans hleads₁ (guide.accord.trans hleads₂
          (guide.accord.trans hleads₃ hleads₄))
        have hreached₄ := guide.reached_mono hreached hleads
        refine Operation.Safe.bind (Operation.Safe.during ?_)
        refine (safe_makeDirs dir hway hreached₄).since.weaken ?_
        rintro cut t₅ result ⟨hleads₅, hresult⟩
        cases result with
        | error failure => exact fun h => by cases h
        | ok parent =>
          have hreached₅ := guide.reached_mono hreached₄ hleads₅
          exact safe_put fun hleads₆ => hgrants rfl (guide.reached_mono hreached₅ hleads₆)
            (guide.found_mono hway (hresult _ rfl) hleads₆)

theorem safe_writeFrom {source : Stream}
    (htakes : ∀ content, guide.Takes (guide.mount.pathOf name) content (fun _ => True))
    (hreached : guide.Reached t) :
    (guide.mount.writeFrom name source).Safe guide.accord AnyResult cut t := by
  refine Operation.Safe.bind (Operation.safe_ask (.drain _) fun {t₁} hleads₁ => ?_)
  obtain ⟨huses, hdoes⟩ := guide.transfer (.drain _) trivial
  refine ⟨huses, fun {answer t₂} hpermits => ?_⟩
  obtain ⟨hdone, -⟩ := hdoes hpermits
  refine ⟨hdone, fun {t₃} hleads₃ => ?_⟩
  have hleads := guide.accord.trans hleads₁ (guide.accord.trans (guide.accord.does hdone) hleads₃)
  cases answer with
  | error failure => trivial
  | ok content =>
    exact (safe_write (htakes content) (guide.reached_mono hreached hleads)).weaken fun _ => trivial

/-- A call of which the requests are granted keeps to the accord, whatever the others do. -/
theorem safe_call {call : Call} (hadmits : guide.Admits call) (hreached : guide.Reached t) :
    (call.operation guide.mount).Safe guide.accord AnyResult cut t := by
  cases call with
  | stat name => exact Operation.Safe.map ((safe_lookup _ hadmits hreached).weaken fun _ => trivial)
  | readDir name => exact Operation.Safe.map ((safe_readDir hadmits hreached).weaken fun _ => trivial)
  | names name => exact Operation.Safe.map ((safe_readDir hadmits hreached).weaken fun _ => trivial)
  | delete name => exact Operation.Safe.map ((safe_delete hadmits hreached).weaken fun _ => trivial)
  | read name offset length =>
    exact Operation.Safe.map ((safe_read hadmits hreached offset length).weaken fun _ => trivial)
  | write name content =>
    exact Operation.Safe.map ((safe_write hadmits hreached).weaken fun _ => trivial)
  | writeFrom name source =>
    exact Operation.Safe.map ((safe_writeFrom hadmits hreached).weaken fun _ => trivial)

end Guide

end VirtualFs
