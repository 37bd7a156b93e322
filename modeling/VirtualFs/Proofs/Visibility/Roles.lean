import VirtualFs.Proofs.Visibility.Course

namespace VirtualFs

open VirtualFs.Tree

/-- A call that may take away what stands at its path, or put something else there. -/
def Call.alters : Call → Bool
  | delete _ => true
  | write _ _ => true
  | writeFrom _ _ => true
  | _ => false

/-- A call that may take away what stands at a place, or a directory that it lies in. -/
def Call.Threatens (mount : Mount) (here : Place) (call : Call) : Prop :=
  call.alters = true ∧ (call.path mount).place <+: here

instance (mount : Mount) (here : Place) : DecidablePred (Call.Threatens mount here) :=
  fun _ => inferInstanceAs (Decidable (_ ∧ _))

namespace Tree

/-- What stands at a place stays, and if there is nothing only a directory can come there. -/
def Spares (here : Place) (t t' : Tree) : Prop :=
  t'.item here = t.item here ∨ t.item here = none ∧ t'.HasDir here

variable {here other : Place} {t t' : Tree} {content : List UInt8}

theorem Makes.spares (hmakes : t.Makes other t') : Spares here t t' := by
  by_cases hsame : here = other
  · exact .inr (hsame ▸ ⟨hmakes.free, hmakes.made⟩)
  · exact .inl (hmakes.rest hsame)

theorem Spares.holdsFile (hspares : Spares here t t') (hfile : t.HoldsFile here content) :
    t'.HoldsFile here content := by
  obtain ⟨file, hitem, hplain⟩ := hfile
  rcases hspares with hsame | ⟨hnone, -⟩
  · exact ⟨file, hsame.trans hitem, hplain⟩
  · rw [hnone] at hitem
    cases hitem

end Tree

namespace Course

/-- Whatever becomes of the file, this course is kept to. -/
def passing : Course where
  Leads _ _ := True
  refl _ := trivial
  trans _ _ := trivial
  Does _ _ := True
  does := id
  same _ := trivial
  makes _ := trivial
  Kept _ := True
  kept_mono _ _ := trivial

/-- The course of those who spare what stands at a place. -/
def sparing (here : Place) : Course where
  Leads _ _ := True
  refl _ := trivial
  trans _ _ := trivial
  Does := Spares here
  does _ := trivial
  same _ := .inl rfl
  makes := Makes.spares
  Kept _ := True
  kept_mono _ _ := trivial

/-- The course of the one who stores a file at a place, which is to stay. -/
def storing (here : Place) (content : List UInt8) : Course where
  Leads t t' := t.HoldsFile here content → t'.HoldsFile here content
  refl _ := id
  trans hfirst hlast hfile := hlast (hfirst hfile)
  Does t t' := t.HoldsFile here content → t'.HoldsFile here content
  does := id
  same _ := id
  makes hmakes := hmakes.spares.holdsFile
  Kept _ := True
  kept_mono _ _ := trivial

variable {course : Course} {homing : Homing} {t : Tree} {cut : Bool} {here : Place} {call : Call}
  {name : String} {content : List UInt8} {matters : Path → Prop} {late : Nat → Prop}

/-- A call is granted what it asks for if all that it may change is on the course. -/
theorem admits (hplain : homing.Plain (call.path homing.mount).place)
    (hchanges : call.alters = true → ∀ {t t'}, t.Changes (call.path homing.mount).place t' →
      course.Does t t') : (course.guide homing matters late).Admits call := by
  have hstores : call.alters = true → ∀ content, (course.guide homing matters late).Takes
      (call.path homing.mount) content (fun _ => True) := fun halters content =>
    takes hplain (fun hstored => hchanges halters hstored.toChanges) (fun _ _ _ _ => trivial)
  cases call with
  | stat name => exact hplain
  | readDir name => exact hplain
  | names name => exact hplain
  | read name offset length => exact lends_link hplain
  | delete name => exact lends_remove hplain fun hcleared => hchanges rfl hcleared.toChanges
  | write name content => exact hstores rfl content
  | writeFrom name source => exact hstores rfl

/-- A call that does not threaten a place spares it. -/
theorem safe_sparing (hreached : homing.Reached t)
    (hplain : homing.Plain (call.path homing.mount).place)
    (hspares : ¬ call.Threatens homing.mount here) :
    (call.operation homing.mount).Safe ((sparing here).accordAnyListing homing) Guide.AnyResult cut
      t := by
  refine Guide.safe_call (admits hplain fun halters {t t'} hchanges => ?_)
    (standing_of_reached hreached)
  exact .inl (hchanges.item fun habove => hspares ⟨halters, habove⟩)

theorem safe_passing (hreached : homing.Reached t)
    (hplain : homing.Plain (call.path homing.mount).place) :
    (call.operation homing.mount).Safe (passing.accordAnyListing homing) Guide.AnyResult cut t :=
  Guide.safe_call (admits hplain fun _ _ _ _ => trivial) (standing_of_reached hreached)

/-- A write that succeeds leaves its file in place, as long as all others spare it. -/
theorem safe_storing (content : List UInt8) (hreached : homing.Reached t)
    (hplain : homing.Plain (homing.mount.pathOf name).place) :
    ((Call.write name content).operation homing.mount).Safe
      ((storing (homing.mount.pathOf name).place content).accordAnyListing homing)
      (fun _ t result => result = .ok .done →
        t.HoldsFile (homing.mount.pathOf name).place content) cut t := by
  have htakes : ((storing (homing.mount.pathOf name).place content).guide homing (fun _ => False)
      (fun _ => True)).Takes
      (homing.mount.pathOf name) content
      (fun t => t.HoldsFile (homing.mount.pathOf name).place content) :=
    takes hplain (fun hstored _ => hstored.held)
      (fun hreached hfile _ hleads => (hleads hreached).2 hfile)
  refine Operation.Safe.map ((Guide.safe_write htakes (standing_of_reached hreached)).weaken ?_)
  intro cut t result hstored hdone
  cases result with
  | error failure => cases hdone
  | ok => exact hstored rfl

end Course

end VirtualFs
