import VirtualFs.Alone
import VirtualFs.Proofs.Spelling.Spelled

namespace VirtualFs

open Operation

variable {α β : Type}

/-- One of the operations of a mount that call one another, with the spelling that it is called at.
    -/
inductive Routine where
  | lookup (mount : Mount) (spelling : String)
  | list (mount : Mount) (spelling : String)
  | makeDirs (mount : Mount) (spelling : String)

namespace Routine

def spelling : Routine → String
  | lookup _ spelling => spelling
  | list _ spelling => spelling
  | makeDirs _ spelling => spelling

def Result : Routine → Type
  | lookup _ _ => Entry
  | list _ _ => List Entry
  | makeDirs _ _ => Entry

end Routine

/-- A way to carry out every routine. -/
abbrev Routines : Type :=
  (routine : Routine) → Operation routine.Result

namespace Routines

/-- Each routine as that of the path which its spelling leads to. -/
def onPaths : Routines
  | .lookup mount path => mount.lookup (Path.ofString path)
  | .list mount dir => mount.list (Path.ofString dir)
  | .makeDirs mount dir => mount.makeDirs (Path.ofString dir)

end Routines

/-- What a routine does itself, with its calls of routines left open. -/
def Routine.body : (routine : Routine) → Routines → Operation routine.Result
  | .lookup mount path, call => mount.lookupBy (fun dir => call (.list mount dir)) path
  | .list mount dir, call => mount.listBy (fun path => call (.lookup mount path)) dir
  | .makeDirs mount dir, call =>
    mount.makeDirsBy (fun path => call (.lookup mount path))
      (fun path => call (.makeDirs mount path)) dir

/-- Carry out routines by their bodies, up to a depth. A call at a greater depth does something
    else. -/
def Routines.unroll (beyond : Routines) : Nat → Routines
  | 0 => beyond
  | depth + 1 => fun routine => routine.body (unroll beyond depth)

/-- A program calls a routine if it can matter to it how that routine is carried out. -/
def Invokes (program : Routines → β) (routine : Routine) : Prop :=
  ∃ call call' : Routines, (∀ other, other ≠ routine → call other = call' other) ∧
    program call ≠ program call'

/-- A program that calls no routines but some. -/
def CallsOnly (allowed : Routine → Prop) (program : Routines → β) : Prop :=
  ∀ call call' : Routines, (∀ routine, allowed routine → call routine = call' routine) →
    program call = program call'

theorem CallsOnly.of_invokes {allowed : Routine → Prop} {program : Routines → β}
    (honly : CallsOnly allowed program) {routine : Routine} (hinvokes : Invokes program routine) :
    allowed routine := by
  obtain ⟨call, call', hothers, hdiffer⟩ := hinvokes
  by_contra hnot
  refine hdiffer (honly call call' fun other hother => hothers other ?_)
  rintro rfl
  exact hnot hother

namespace Routine

/-- How routines call one another. Away from the root, all go on at what is in front of the last
    separator. -/
inductive Calls : Routine → Routine → Prop
  | list {mount : Mount} {path : String} (hpath : path ≠ "/") :
      Calls (.lookup mount path) (.list mount (Path.split path).1)
  | dir {mount : Mount} {dir : String} : Calls (.list mount dir) (.lookup mount dir)
  | present {mount : Mount} {dir : String} : Calls (.makeDirs mount dir) (.lookup mount dir)
  | parent {mount : Mount} {dir : String} (hdir : dir ≠ "/") :
      Calls (.makeDirs mount dir) (.lookup mount (Path.split dir).1)
  | above {mount : Mount} {dir : String} (hdir : dir ≠ "/") :
      Calls (.makeDirs mount dir) (.makeDirs mount (Path.split dir).1)

theorem callsOnly_body (routine : Routine) : CallsOnly routine.Calls routine.body := by
  intro call call' hsame
  cases routine with
  | lookup mount path =>
    rw [body, body]
    exact mount.lookupBy_congr fun hpath => hsame _ (.list hpath)
  | list mount dir =>
    rw [body, body]
    exact mount.listBy_congr (hsame _ .dir)
  | makeDirs mount dir =>
    rw [body, body]
    exact mount.makeDirsBy_congr (hsame _ .present) (fun hdir => hsame _ (.parent hdir))
      fun hdir => hsame _ (.above hdir)

/-- On canonical spellings, the operations on paths are what the bodies make of one another. -/
theorem body_onPaths {routine : Routine} (hcanonical : Path.Canonical routine.spelling) :
    routine.body .onPaths = Routines.onPaths routine := by
  obtain ⟨path, hpath⟩ := Path.canonical_iff_exists_text.1 hcanonical
  cases routine with
  | lookup mount spelling =>
    obtain rfl : path.text = spelling := hpath
    rw [Routines.onPaths, Path.ofString_text]
    exact mount.lookupBy_text path
  | list mount spelling => rfl
  | makeDirs mount spelling =>
    obtain rfl : path.text = spelling := hpath
    rw [Routines.onPaths, Path.ofString_text]
    exact mount.makeDirsBy_text path

/-- Twice the number of names in the spelling, and one more for what looks the same spelling up. -/
def rank : Routine → Nat
  | lookup _ spelling => 2 * (Path.names spelling).length
  | list _ spelling => 2 * (Path.names spelling).length + 1
  | makeDirs _ spelling => 2 * (Path.names spelling).length + 1

theorem rank_lt_of_length_le {routine : Routine} {length : Nat}
    (hlength : (Path.names routine.spelling).length ≤ length) : routine.rank < 2 * length + 2 := by
  cases routine <;> simp only [rank, spelling] at hlength ⊢ <;> omega

theorem le_rank (routine : Routine) : 2 * (Path.names routine.spelling).length ≤ routine.rank := by
  cases routine <;> simp only [rank, spelling] <;> omega

/-- A call stays at its spelling, where lookups are below the others, or it goes on at the directory
    in front, which has fewer names. -/
theorem Calls.down {routine callee : Routine} (hcalls : routine.Calls callee)
    (hcanonical : Path.Canonical routine.spelling) :
    callee.spelling = routine.spelling ∧ callee.rank < routine.rank ∨
      routine.spelling ≠ "/" ∧ callee.spelling = (Path.split routine.spelling).1 ∧
        (Path.names callee.spelling).length < (Path.names routine.spelling).length := by
  cases hcalls with
  | @list mount path hpath =>
    exact .inr ⟨hpath, rfl, Path.length_split_lt path hcanonical hpath⟩
  | dir => exact .inl ⟨rfl, Nat.lt_succ_self _⟩
  | present => exact .inl ⟨rfl, Nat.lt_succ_self _⟩
  | @parent mount dir hdir => exact .inr ⟨hdir, rfl, Path.length_split_lt dir hcanonical hdir⟩
  | @above mount dir hdir => exact .inr ⟨hdir, rfl, Path.length_split_lt dir hcanonical hdir⟩

theorem Calls.canonical {routine callee : Routine} (hcalls : routine.Calls callee)
    (hcanonical : Path.Canonical routine.spelling) : Path.Canonical callee.spelling := by
  obtain ⟨hspelling, -⟩ | ⟨-, hspelling, -⟩ := hcalls.down hcanonical
  · rwa [hspelling]
  · rw [hspelling]
    exact hcanonical.split_fst

theorem Calls.rank_lt {routine callee : Routine} (hcalls : routine.Calls callee)
    (hcanonical : Path.Canonical routine.spelling) : callee.rank < routine.rank := by
  obtain ⟨-, hrank⟩ | ⟨-, -, hshorter⟩ := hcalls.down hcanonical
  · exact hrank
  · have hcallee := rank_lt_of_length_le (Nat.le_refl (Path.names callee.spelling).length)
    have hroutine := le_rank routine
    omega

end Routine

/-- Unrolled deeper than a routine ranks, the bodies come to the operation on paths, and nothing is
    left of what is done beyond. By induction on the depth. -/
theorem Routines.unroll_eq_onPaths (beyond : Routines) {depth : Nat} {routine : Routine}
    (hcanonical : Path.Canonical routine.spelling) (hdepth : routine.rank < depth) :
    beyond.unroll depth routine = onPaths routine := by
  induction depth generalizing routine with
  | zero => exact absurd hdepth (Nat.not_lt_zero _)
  | succ depth ih =>
    rw [unroll, ← Routine.body_onPaths hcanonical]
    refine routine.callsOnly_body _ _ fun callee hcalls => ih (hcalls.canonical hcanonical) ?_
    have := hcalls.rank_lt hcanonical
    omega

theorem Operation.fail_injective : Function.Injective (fail : Failure → Operation α) := by
  intro failure failure' hsame
  cases hsame
  rfl

namespace Routines

/-- Nothing is there. -/
def missing : Routines := fun _ => fail (Cause.notFound : Failure)

open Classical in
/-- Nothing is there, but one routine fails in another way. -/
noncomputable def refusing (routine : Routine) : Routines := fun other =>
  if other = routine then fail (Cause.notAFile : Failure) else missing other

theorem refusing_self (routine : Routine) :
    refusing routine routine = fail (Cause.notAFile : Failure) :=
  if_pos rfl

theorem refusing_of_ne {routine other : Routine} (hother : other ≠ routine) :
    refusing routine other = missing other :=
  if_neg hother

end Routines

theorem invokes_of_ne {program : Routines → β} {routine : Routine}
    (hdiffer : program .missing ≠ program (.refusing routine)) : Invokes program routine :=
  ⟨.missing, .refusing routine, fun _ hother => (Routines.refusing_of_ne hother).symm, hdiffer⟩

/-- A program calls a routine if it fails in the way of that one where all others miss something. -/
theorem invokes_of_fail {program : Routines → Operation α} {routine : Routine}
    (hmissing : program .missing = fail (Cause.notFound : Failure))
    (hrefusing : program (.refusing routine) = fail (Cause.notAFile : Failure)) :
    Invokes program routine := by
  refine invokes_of_ne fun hsame => ?_
  rw [hmissing, hrefusing] at hsame
  exact absurd (fail_injective hsame) (by decide)

/-- A backend that offers nothing and answers nothing. -/
def Service.idle : Service Unit where
  offer _ := {}
  now _ := 0
  answer _ _ := (.error (Cause.notFound : Failure), ())

namespace Mount

variable {mount : Mount} {dir : String} {failure : Failure}

theorem alone_lookupBy_fail (list : String → Operation (List Entry)) {path : String}
    (hpath : path ≠ "/") (hlist : list (Path.split path).1 = fail failure) :
    alone .idle (mount.lookupBy list path) () =
      (.error (failure.during "failed get parent list"), ()) := by
  rw [lookupBy, if_neg hpath, hlist]
  rfl

theorem listBy_fail (dir : String) (lookup : String → Operation Entry)
    (hlookup : lookup dir = fail failure) : mount.listBy lookup dir = fail failure := by
  rw [listBy, hlookup]
  rfl

theorem makeDirsBy_fail (dir : String) (lookup makeDirs : String → Operation Entry)
    (hlookup : lookup dir = fail failure) (hfailure : failure.leadsNowhere = false) :
    mount.makeDirsBy lookup makeDirs dir = fail failure := by
  rw [makeDirsBy, hlookup]
  split
  case isTrue => rfl
  case isFalse =>
    change (if failure.leadsNowhere then _ else fail failure : Operation Entry) = fail failure
    rw [hfailure]
    rfl

/-- If a directory is not there, making it fails where the one above is neither found nor made. -/
theorem makeDirsBy_fail_parent (lookup makeDirs : String → Operation Entry) (hdir : dir ≠ "/")
    (hlookup : lookup dir = fail (Cause.notFound : Failure))
    (hparent : findOrMake (lookup (Path.split dir).1) (makeDirs (Path.split dir).1) =
      fail failure) :
    mount.makeDirsBy lookup makeDirs dir = fail failure := by
  rw [makeDirsBy, if_neg hdir, hlookup]
  change (findOrMake (lookup (Path.split dir).1) (makeDirs (Path.split dir).1) >>= _) = _
  rw [hparent]
  rfl

theorem makeDirsBy_missing (dir : String) :
    mount.makeDirsBy (fun _ => fail (Cause.notFound : Failure))
      (fun _ => fail (Cause.notFound : Failure)) dir = fail (Cause.notFound : Failure) := by
  by_cases hdir : dir = "/"
  · rw [makeDirsBy, if_pos hdir]
  · exact makeDirsBy_fail_parent _ _ hdir rfl rfl

end Mount

namespace Routine

/-- On canonical spellings, each of the calls is made: a routine fails in the way of any one of them
    where all others miss something. -/
theorem Calls.invokes {routine callee : Routine} (hcalls : routine.Calls callee)
    (hcanonical : Path.Canonical routine.spelling) : Invokes routine.body callee := by
  let call : Routines := .refusing callee
  have hrefused : call callee = fail (Cause.notAFile : Failure) := Routines.refusing_self callee
  cases hcalls with
  | @list mount path hpath =>
    refine invokes_of_ne fun hsame => ?_
    have hmissing := mount.alone_lookupBy_fail
      (fun dir => Routines.missing (.list mount dir)) hpath rfl
    have hrefusing := mount.alone_lookupBy_fail
      (fun dir => call (.list mount dir)) hpath hrefused
    have hresults := hmissing.symm.trans ((congrArg (alone .idle · ()) hsame).trans hrefusing)
    exact absurd hresults (by simp [Failure.during])
  | @dir mount dir =>
    exact invokes_of_fail (mount.listBy_fail dir (fun _ => fail (Cause.notFound : Failure)) rfl)
      (mount.listBy_fail dir (fun path => call (.lookup mount path)) hrefused)
  | @present mount dir =>
    exact invokes_of_fail (mount.makeDirsBy_missing dir)
      (mount.makeDirsBy_fail dir (fun path => call (.lookup mount path))
        (fun path => call (.makeDirs mount path)) hrefused rfl)
  | @parent mount dir hdir =>
    have hparent : (Path.split dir).1 ≠ dir := fun h =>
      absurd (Path.length_split_lt dir hcanonical hdir) (by simp [h])
    have hlookup : call (.lookup mount dir) = fail (Cause.notFound : Failure) :=
      Routines.refusing_of_ne (by simpa [eq_comm] using hparent)
    have hfind : Mount.findOrMake (call (.lookup mount (Path.split dir).1))
        (call (.makeDirs mount (Path.split dir).1)) = fail (Cause.notAFile : Failure) := by
      rw [hrefused]
      rfl
    exact invokes_of_fail (mount.makeDirsBy_missing dir)
      (mount.makeDirsBy_fail_parent (fun path => call (.lookup mount path))
        (fun path => call (.makeDirs mount path)) hdir hlookup hfind)
  | @above mount dir hdir =>
    have hlookup : ∀ path, call (.lookup mount path) = fail (Cause.notFound : Failure) :=
      fun path => Routines.refusing_of_ne (by simp)
    have hfind : Mount.findOrMake (call (.lookup mount (Path.split dir).1))
        (call (.makeDirs mount (Path.split dir).1)) = fail (Cause.notAFile : Failure) := by
      rw [hlookup, hrefused]
      rfl
    exact invokes_of_fail (mount.makeDirsBy_missing dir)
      (mount.makeDirsBy_fail_parent (fun path => call (.lookup mount path))
        (fun path => call (.makeDirs mount path)) hdir (hlookup dir) hfind)

/-- On canonical spellings, the calls are those and no others. -/
theorem invokes_iff_calls {routine callee : Routine}
    (hcanonical : Path.Canonical routine.spelling) :
    Invokes routine.body callee ↔ routine.Calls callee :=
  ⟨routine.callsOnly_body.of_invokes, fun hcalls => hcalls.invokes hcanonical⟩

end Routine

end VirtualFs
