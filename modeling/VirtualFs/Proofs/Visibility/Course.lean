import VirtualFs.Proofs.Guide.Calls
import VirtualFs.Proofs.Visibility.Homing

namespace VirtualFs

open VirtualFs.Tree

/-- What a caller puts up with and what it does itself, as far as some file is concerned. To look and
    to make directories is always among the latter. `Kept` is true of the tree all the time. -/
structure Course where
  Leads : Tree → Tree → Prop
  refl : ∀ t, Leads t t
  trans : ∀ {t t' t''}, Leads t t' → Leads t' t'' → Leads t t''
  Does : Tree → Tree → Prop
  does : ∀ {t t'}, Does t t' → Leads t t'
  same : ∀ t, Does t t
  makes : ∀ {t here t'}, t.Makes here t' → Does t t'
  Kept : Tree → Prop
  kept_mono : ∀ {t t'}, Kept t → Leads t t' → Kept t'

namespace Course

variable (course : Course) (homing : Homing)

def Leading (t t' : Tree) : Prop :=
  homing.Reached t → homing.Reached t' ∧ course.Leads t t'

def Doing (t t' : Tree) : Prop :=
  homing.Reached t → homing.Reached t' ∧ course.Does t t'

variable {course homing} {t t' t'' : Tree}

theorem Leading.trans (hfirst : course.Leading homing t t') (hlast : course.Leading homing t' t'') :
    course.Leading homing t t'' := by
  intro hreached
  obtain ⟨hreached', hleads⟩ := hfirst hreached
  obtain ⟨hreached'', hleads'⟩ := hlast hreached'
  exact ⟨hreached'', course.trans hleads hleads'⟩

variable (course homing) in
/-- Callers share the listings of objects that are at home at the directory that they are listed for.
    Where it `matters`, they take part in listings that are `late` enough only: what is kept is true
    when such a listing is answered, and what has happened since is on the course. -/
def accord (matters : Path → Prop) (late : Nat → Prop) : Accord (attentive homing.home) where
  Leads := course.Leading homing
  refl t hreached := ⟨hreached, course.refl t⟩
  trans := Leading.trans
  listed := by
    rintro plan t answer t' ⟨-, ⟨rfl, -⟩, -⟩ hreached
    exact ⟨hreached, course.refl _⟩
  Drops := False
  Does := course.Doing homing
  does hdoes hreached := (hdoes hreached).imp_right course.does
  Shareable plan t := homing.Reached t ∧ plan.mapping = homing.mount.mapping ∧
    homing.home plan.object = some plan.dir.place ∧ (matters plan.dir → course.Kept t)
  shareable_mono := by
    rintro plan t t' ⟨hreached, hmapping, hhome, hkept⟩ hleads
    obtain ⟨hreached', hcourse⟩ := hleads hreached
    exact ⟨hreached', hmapping, hhome, fun hmatters => course.kept_mono (hkept hmatters) hcourse⟩
  Accepts key number := matters key.2 → late number
  Since plan t t' := homing.Reached t → homing.Reached t' ∧ (matters plan.dir → course.Leads t t')
  since_refl _ t hreached := ⟨hreached, fun _ => course.refl t⟩
  since_trans := by
    intro plan t t' t'' hsince hleads hreached
    obtain ⟨hreached', hcourse⟩ := hsince hreached
    obtain ⟨hreached'', hcourse'⟩ := hleads hreached'
    exact ⟨hreached'', fun hmatters => course.trans (hcourse hmatters) hcourse'⟩

variable (course homing) in
/-- The accord of those who take part in any listing, whatever it may miss. -/
def accordAnyListing : Accord (attentive homing.home) :=
  course.accord homing (fun _ => False) (fun _ => True)

/-- To ask for a directory under an object of its parent's place is on every course. -/
theorem grants_of_mayMake {dir : Path} {name : Segment} {object : Object}
    {answer : Except Failure (Option Object)} (hplain : homing.Plain (dir.child name).place)
    (hhome : homing.home object = some dir.place)
    (hhomed : t.Homed homing.home → t'.Homed homing.home)
    (hmakes : t.MayMake object name.text answer t') (hreached : homing.Reached t) :
    course.Doing homing t t' ∧
      ∀ {made}, answer = .ok (some made) → homing.home made = some (dir.child name).place := by
  obtain ⟨hreached', hchange, hmade⟩ :=
    hreached.of_mayMake (hhomed hreached.homed) hplain hhome hmakes
  refine ⟨fun _ => ⟨hreached', ?_⟩, hmade⟩
  rcases hchange with rfl | hmakes'
  · exact course.same _
  · exact course.makes hmakes'

/-- The tree is as it may be while somebody keeps to a course. -/
structure Standing (course : Course) (homing : Homing) (matters : Path → Prop) (t : Tree) : Prop where
  reached : homing.Reached t
  kept : ∀ {dir}, matters dir → course.Kept t

theorem Standing.mono {matters : Path → Prop} (hstanding : course.Standing homing matters t)
    (hleads : course.Leading homing t t') : course.Standing homing matters t' := by
  obtain ⟨hreached, hcourse⟩ := hleads hstanding.reached
  exact ⟨hreached, fun hmatters => course.kept_mono (hstanding.kept hmatters) hcourse⟩

theorem standing_of_reached (hreached : homing.Reached t) :
    course.Standing homing (fun _ => False) t :=
  ⟨hreached, False.elim⟩

variable (course homing) in
/-- Callers find their way by what is at home at the places there. -/
def guide (matters : Path → Prop) (late : Nat → Prop) : Guide (attentive homing.home) where
  mount := homing.mount
  accord := course.accord homing matters late
  Reached := course.Standing homing matters
  reached_mono := Standing.mono
  Way path := homing.Plain path.place
  way_dir := Homing.Plain.of_child
  Found path object _ := homing.home object = some path.place
  found_mono _ hhome _ := hhome
  indirect hoffer := hoffer.1
  offersRoot := by
    rintro t offer source ⟨hreached, -⟩ ⟨-, source', hsource', hroot⟩ hsource
    obtain rfl := Except.ok.inj (hsource'.symm.trans hsource)
    cases source' with
    | asked => trivial
    | id id => exact fun name modified => hreached.homed.stands (hroot name modified)
    | path path => exact fun name modified => hreached.homed.stands (hroot name modified)
  root := by
    refine fun {t} ⟨hreached, _⟩ => ⟨trivial, fun {answer t'} hpermits => ?_⟩
    obtain ⟨-, ⟨rfl, hobject⟩, -⟩ := hpermits
    exact ⟨fun _ => ⟨hreached, course.same _⟩, fun hanswer =>
      hreached.homed.stands (hobject hanswer)⟩
  shareable _ hstanding hhome := ⟨hstanding.reached, rfl, hhome, hstanding.kept⟩
  known := by
    intro dir name entries entry t _ _ hknown hpick
    obtain ⟨plan, objects, rfl, hanswered, rfl⟩ := hknown.exists_answered
    obtain ⟨before, after, ⟨hbefore, hmapping, hhome, -⟩, ⟨-, ⟨rfl, hlists⟩, -⟩, -⟩ := hanswered
    rw [hmapping] at hpick
    exact hbefore.home_of_pick hhome (hlists rfl) hpick
  listing := by
    refine fun {dir name parent t} _ ⟨hreached, _⟩ hhome =>
      ⟨trivial, fun {answer t'} hpermits => ?_⟩
    obtain ⟨-, ⟨rfl, hlists⟩, -⟩ := hpermits
    exact ⟨fun _ => ⟨hreached, course.same _⟩, fun hanswer hpick =>
      hreached.home_of_pick hhome (hlists hanswer) hpick⟩
  makeDir := by
    refine fun hplain ⟨hreached, _⟩ hhome => ⟨trivial, fun {answer t'} hpermits => ?_⟩
    obtain ⟨hhomed, hmakes, -⟩ := hpermits
    exact ⟨(grants_of_mayMake hplain hhome hhomed hmakes hreached).1, trivial⟩
  makeDirReporting := by
    refine fun hplain ⟨hreached, _⟩ hhome => ⟨trivial, fun {answer t'} hpermits => ?_⟩
    obtain ⟨hhomed, hmakes, -⟩ := hpermits
    obtain ⟨hdoes, hmade⟩ := grants_of_mayMake hplain hhome hhomed hmakes hreached
    exact ⟨hdoes, fun hanswer => hmade hanswer⟩
  transfer := by
    have hsame : ∀ {t t'}, t' = t → course.Doing homing t t' := by
      rintro t _ rfl hreached
      exact ⟨hreached, course.same _⟩
    intro request t htransfers
    cases request with
    | openLink opener file url headers =>
      exact ⟨trivial, fun hpermits => ⟨hsame hpermits.2.1, trivial⟩⟩
    | readRange reader range => exact ⟨trivial, fun hpermits => ⟨hsame hpermits.2.1, trivial⟩⟩
    | drain source => exact ⟨trivial, fun hpermits => ⟨hsame hpermits.2.1, trivial⟩⟩
    | _ => exact htransfers.elim

variable {path : Path} {content : List UInt8} {matters : Path → Prop} {late : Nat → Prop}

theorem lends_link (hplain : homing.Plain path.place) :
    (course.guide homing matters late).Lends path .link := by
  refine ⟨hplain, fun {object t} ⟨hreached, _⟩ _ => ⟨trivial, fun {answer t'} hpermits => ?_⟩⟩
  obtain ⟨-, rfl, -⟩ := hpermits
  exact ⟨fun _ => ⟨hreached, course.same _⟩, trivial⟩

theorem lends_remove (hplain : homing.Plain path.place)
    (hclears : ∀ {t t'}, t.Clears path.place t' → course.Does t t') :
    (course.guide homing matters late).Lends path .remove := by
  refine ⟨hplain, fun {object t} ⟨hreached, _⟩ hhome => ⟨trivial, fun {answer t'} hpermits => ?_⟩⟩
  obtain ⟨hreached', hchange⟩ := hreached.of_remove hplain hhome hpermits
  refine ⟨fun _ => ⟨hreached', ?_⟩, trivial⟩
  rcases hchange with rfl | hcleared
  · exact course.same _
  · exact hclears hcleared

/-- What is stored stays so if those who put up with the course keep it. -/
theorem takes {stored : Tree → Prop} (hplain : homing.Plain path.place)
    (hstores : ∀ {t t'}, t.Stores path.place content t' → course.Does t t')
    (hheld : ∀ {t}, homing.Reached t → t.HoldsFile path.place content →
      ∀ {t'}, course.Leading homing t t' → stored t') :
    (course.guide homing matters late).Takes path content stored := by
  rintro dir name rfl -
  refine ⟨hplain.of_child, fun {form parent file t} hname ⟨hreached, _⟩ hhome => ?_⟩
  refine ⟨trivial, fun {answer t'} hpermits => ?_⟩
  obtain ⟨hreached', hchange, hdone⟩ := hreached.of_put hplain hhome hname hpermits
  refine ⟨fun _ => ⟨hreached', ?_⟩, fun hanswer _ hleads => ?_⟩
  · rcases hchange with rfl | hstored
    · exact course.same _
    · exact hstores hstored
  · exact hheld hreached' (hdone hanswer) hleads

end Course

end VirtualFs
