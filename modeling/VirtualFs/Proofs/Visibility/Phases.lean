import VirtualFs.Proofs.Visibility.Operations
import VirtualFs.Proofs.World.Safety

namespace VirtualFs

open VirtualFs.Tree

variable {σ : Type} {backend : Backend σ}

/-- The backend has not answered the request of a shared listing yet. -/
def ListingWork.Unanswered {τ : Type} {behaviour : Behaviour τ}
    (realization : Realization backend behaviour) : ListingWork backend → Prop
  | planned _ => True
  | asked _ flight => ∀ {owed}, realization.Owes flight owed → owed = none

/-- A listing, given by its number, that the backend has yet to answer, whether or not it has begun. -/
def Scene.Upcoming {τ : Type} {behaviour : Behaviour τ} (scene : Scene backend)
    (realization : Realization backend behaviour) (number : Nat) : Prop :=
  scene.listings.calls.length ≤ number ∨ ∃ key work,
    scene.listings.view number = some (key, .running work) ∧ work.Unanswered realization

namespace Course

variable (course : Course) (homing : Homing) (matters : Path → Prop) (late : Nat → Prop)

/-- What callers have agreed on while they keep to a course. Where it `matters`, only listings that are
    `late` enough are in flight. Of the others nothing is known but that they are listings. -/
def pact : Pact (attentive homing.home) where
  toDrift := (course.accordAnyListing homing).toDrift
  Reached t := homing.Reached t ∧ course.Kept t
  reached_mono := by
    intro t t' hreached hleads
    obtain ⟨hreached', hcourse⟩ := hleads hreached.1
    exact ⟨hreached', course.kept_mono hreached.2 hcourse⟩
  ledger number := course.accord homing (fun _ => late number) (fun _ => True)
  heeds := id
  Open key number := matters key.2 → late number

variable {course homing matters late} {other : Course} {matters' : Path → Prop}
  {late' : Nat → Prop} {t : Tree} {number : Nat}

/-- Callers on various courses can take part as long as each puts up with the course of all, does
    nothing else, and minds the listings only where the others do. -/
theorem joins (hleads : ∀ {t t'}, course.Leads t t' → other.Leads t t')
    (hdoes : ∀ {t t'}, other.Does t t' → course.Leads t t')
    (hkept : ∀ {t}, course.Kept t → other.Kept t)
    (hmatters : ∀ {dir}, matters' dir → matters dir ∧ ∀ number, late' number ↔ late number) :
    (other.accord homing matters' late').Joins (course.pact homing matters late) where
  leads hdrift hreached := (hdrift hreached).imp_right hleads
  does hdone hreached := (hdone hreached).imp_right hdoes
  begins hreached hplan := ⟨hplan.1, hplan.2.1, hplan.2.2.1, fun _ => hreached.2⟩
  accepts hopen hmatters' :=
    ((hmatters hmatters').2 _).2 (hopen (hmatters hmatters').1)
  knows := by
    rintro key number listing t haccepts ⟨plan, answer, hkey, hanswered, hlisting⟩
    obtain ⟨before, after, hplan, hpermitted, hsince⟩ := hanswered
    obtain ⟨hreached, hmapping, hhome, hkept'⟩ := hplan
    have hlate : matters' plan.dir → late number := by
      intro hminds
      have hkeyed : matters' key.2 := by rw [← hkey]; exact hminds
      exact ((hmatters hkeyed).2 number).1 (haccepts hkeyed)
    refine ⟨plan, answer, hkey, ⟨before, after, ⟨hreached, hmapping, hhome, ?_⟩, hpermitted, ?_⟩,
      hlisting⟩
    · exact fun hminds => hkept (hkept' (hlate hminds))
    · exact fun hafter => (hsince hafter).imp_right fun hcourse hminds =>
        hleads (hcourse (hlate hminds))
  drops := id

theorem joins_accordAnyListing (hleads : ∀ {t t'}, course.Leads t t' → other.Leads t t')
    (hdoes : ∀ {t t'}, other.Does t t' → course.Leads t t')
    (hkept : ∀ {t}, course.Kept t → other.Kept t) :
    (other.accordAnyListing homing).Joins (course.pact homing matters late) :=
  joins hleads hdoes hkept False.elim

section Adopt

variable {realization : Realization backend (attentive homing.home)} {forsaken : Nat → Prop}
  {held : Multiset SharedCalls.Ticket} {scene : Scene backend} {key : Nat × Path}
  {stage : SharedCalls.Stage (ListingWork backend) Listing}

/-- What is known of a listing that is not late enough does not depend on the course. -/
theorem answered_of_not_late (hlate : ¬ late' number) {plan : ListingPlan}
    {answer : plan.request.Answer}
    (hanswered : ((course.pact homing matters late).ledger number).Answered plan answer t) :
    ((other.pact homing matters' late').ledger number).Answered plan answer t := by
  obtain ⟨before, after, ⟨hreached, hmapping, hhome, -⟩, hpermitted, hsince⟩ := hanswered
  exact ⟨before, after, ⟨hreached, hmapping, hhome, fun h => (hlate h).elim⟩, hpermitted,
    fun hafter => (hsince hafter).imp_right fun _ h => (hlate h).elim⟩

theorem accounts_of_not_late (hlate : ¬ late' number)
    (hopen : (other.pact homing matters' late').Open key number)
    (haccounts : Scene.Accounts (course.pact homing matters late) realization forsaken t number key
      stage) :
    Scene.Accounts (other.pact homing matters' late') realization forsaken t number key stage := by
  have hshareable : ∀ {plan}, ((course.pact homing matters late).ledger number).Shareable plan t →
      ((other.pact homing matters' late').ledger number).Shareable plan t :=
    fun hplan => ⟨hplan.1, hplan.2.1, hplan.2.2.1, fun h => (hlate h).elim⟩
  cases stage with
  | running work =>
    obtain ⟨hkey, hwork, -⟩ := haccounts
    refine ⟨hkey, ?_, hopen⟩
    cases work with
    | planned plan => exact hshareable hwork
    | asked plan flight =>
      obtain ⟨owed, howes, hnone, hsome⟩ := hwork
      exact ⟨owed, howes, fun h => hshareable (hnone h),
        fun h => answered_of_not_late hlate (hsome h)⟩
  | cancelled work => exact haccounts
  | settled outcome =>
    cases outcome with
    | aborted => exact haccounts
    | value listing =>
      obtain ⟨plan, answer, hkey, hanswered, hlisting⟩ := haccounts
      exact ⟨plan, answer, hkey, answered_of_not_late hlate hanswered, hlisting⟩

/-- A listing that the backend has yet to answer will show the tree as it is from now on. -/
theorem accounts_of_unanswered {work : ListingWork backend} (hwork : work.Unanswered realization)
    (hkept : other.Kept t) (hopen : (other.pact homing matters' late').Open key number)
    (haccounts : Scene.Accounts (course.pact homing matters late) realization forsaken t number key
      (.running work)) :
    Scene.Accounts (other.pact homing matters' late') realization forsaken t number key
      (.running work) := by
  have hshareable : ∀ {plan}, ((course.pact homing matters late).ledger number).Shareable plan t →
      ((other.pact homing matters' late').ledger number).Shareable plan t :=
    fun hplan => ⟨hplan.1, hplan.2.1, hplan.2.2.1, fun _ => hkept⟩
  obtain ⟨hkey, hunderway, -⟩ := haccounts
  refine ⟨hkey, ?_, hopen⟩
  cases work with
  | planned plan => exact hshareable hunderway
  | asked plan flight =>
    obtain ⟨owed, howes, hnone, -⟩ := hunderway
    obtain rfl := hwork howes
    exact ⟨none, howes, fun _ => hshareable (hnone rfl), fun h => by cases h⟩

/-- While it does not matter yet, callers may agree on another course, on which listings that are
    still to be answered are late enough. -/
theorem adopt (hscene : scene.Sound (course.pact homing matters late) realization forsaken held t)
    (hkept : other.Kept t) (hlate : ∀ {number}, late' number → scene.Upcoming realization number) :
    scene.Sound (other.pact homing (fun _ => False) late') realization forsaken held t := by
  have hopen : ∀ {key number}, (other.pact homing (fun _ => False) late').Open key number :=
    False.elim
  refine hscene.adopt ⟨hscene.reached.1, hkept⟩ (fun {number key stage} hview haccounts => ?_)
    (fun _ => hopen)
  by_cases hnumber : late' number
  · rcases hlate hnumber with hlength | ⟨key', work, hview', hwork⟩
    · rw [SharedCalls.view_eq_none_iff.2 hlength] at hview
      cases hview
    · rw [hview] at hview'
      cases hview'
      exact accounts_of_unanswered hwork hkept hopen haccounts
  · exact accounts_of_not_late hnumber hopen haccounts

/-- From some moment on it may matter that listings are late enough, if all in flight are. -/
theorem mind (hscene : scene.Sound (course.pact homing matters late) realization forsaken held t)
    (hentries : ∀ {key number}, (key, number) ∈ scene.listings.entries → matters' key.2 →
      late number)
    (hlater : ∀ {number}, scene.listings.calls.length ≤ number → late number) :
    scene.Sound (course.pact homing matters' late) realization forsaken held t := by
  refine hscene.adopt hscene.reached (fun {number key stage} hview haccounts => ?_)
    (fun hlength _ => hlater hlength)
  cases stage with
  | running work =>
    exact ⟨haccounts.1, haccounts.2.1, fun hmatters =>
      hentries (hscene.listings.mem_entries_iff.2 ⟨work, hview⟩) hmatters⟩
  | cancelled work => exact haccounts
  | settled outcome =>
    cases outcome with
    | value listing => exact haccounts
    | aborted => exact haccounts

end Adopt

end Course

end VirtualFs
