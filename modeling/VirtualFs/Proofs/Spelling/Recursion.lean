import VirtualFs.Proofs.Spelling.Routines

namespace VirtualFs

open Operation

variable {β : Type}

/-- What is asked of the namespace from outside: to build a mount, to open a backend and build a
    mount over it, or a call of a mount. -/
inductive Errand where
  | build (number : Nat) (config : Config) (opener : Option Opener)
  | buildFrom (number : Nat) (config : Config) (settings : String)
  | call (mount : Mount) (asked : Call)

/-- A call run on spellings, with the calls of routines left open. -/
def Call.program (mount : Mount) : Call → Routines → Operation Answer
  | stat name, routines => .entry <$> routines (.lookup mount (mount.spell name))
  | readDir name, routines => .entries <$> routines (.list mount (mount.spell name))
  | names name, routines =>
    (fun entries : List Entry => .lines (entries.map Entry.display)) <$>
      routines (.list mount (mount.spell name))
  | delete name, routines =>
    (fun _ => .done) <$>
      Mount.deleteBy (fun path => routines (.lookup mount path)) (mount.spell name)
  | read name offset length, routines =>
    .stream <$>
      mount.readBy (fun path => routines (.lookup mount path)) (mount.spell name) offset length
  | write name content, routines =>
    (fun _ => .done) <$>
      mount.writeBy (fun dir => routines (.makeDirs mount dir)) (mount.spell name) content
  | writeFrom name source, routines =>
    (fun _ => .done) <$> do
      let content ← ask (.drain source)
      mount.writeBy (fun dir => routines (.makeDirs mount dir)) (mount.spell name) content

namespace Errand

def operation : Errand → Operation Answer
  | build number config opener => .mounted <$> Mount.build number config opener
  | buildFrom number config settings => .mounted <$> Mount.buildFrom number config settings
  | call mount asked => asked.operation mount

/-- The path that an errand is about. -/
def path : Errand → Path
  | build _ config _ => Path.ofString config.baseDir
  | buildFrom _ config _ => Path.ofString config.baseDir
  | call mount asked => asked.path mount

/-- An errand run on spellings, with the calls of routines left open. -/
def program : Errand → Routines → Operation Answer
  | build number config opener, routines =>
    .mounted <$>
      Mount.buildBy (fun mount dir => routines (.makeDirs mount dir)) number config opener
  | buildFrom number config settings, routines =>
    .mounted <$> Mount.openBy
      (Mount.buildBy (fun mount dir => routines (.makeDirs mount dir)) number config none) settings
  | call mount asked, routines => asked.program mount routines

end Errand

/-- The routines that are called in the course of a program, by itself or by one that is. -/
inductive Arises (program : Routines → β) : Routine → Prop
  | called {routine : Routine} (hinvokes : Invokes program routine) : Arises program routine
  | within {routine callee : Routine} (harises : Arises program routine)
      (hinvokes : Invokes routine.body callee) : Arises program callee

/-- A routine that is called at the canonical spelling of a path, or of one with fewer names. -/
def Routine.UpTo (path : Path) (routine : Routine) : Prop :=
  Path.Canonical routine.spelling ∧ (Path.names routine.spelling).length ≤ path.place.length

theorem Path.upTo_text {path : Path} {routine : Routine}
    (hspelling : routine.spelling = path.text) : routine.UpTo path := by
  refine ⟨hspelling ▸ path.canonical_text, Nat.le_of_eq ?_⟩
  rw [hspelling, names_text]

theorem Path.upTo_split {path : Path} {routine : Routine}
    (hspelling : routine.spelling = (split path.text).1) : routine.UpTo path := by
  refine ⟨hspelling ▸ path.canonical_text.split_fst, ?_⟩
  rw [hspelling, ← names_text path]
  exact length_split_le _ path.canonical_text

theorem Call.callsOnly_program (mount : Mount) (asked : Call) :
    CallsOnly (Routine.UpTo (asked.path mount)) (asked.program mount) := by
  intro call call' hsame
  cases asked with
  | stat name =>
    have hlookup := hsame (.lookup mount (mount.spell name)) (Path.upTo_text rfl)
    exact congrArg (Answer.entry <$> ·) hlookup
  | readDir name =>
    have hlist := hsame (.list mount (mount.spell name)) (Path.upTo_text rfl)
    exact congrArg (Answer.entries <$> ·) hlist
  | names name =>
    have hlist := hsame (.list mount (mount.spell name)) (Path.upTo_text rfl)
    exact congrArg
      ((fun entries : List Entry => Answer.lines (entries.map Entry.display)) <$> ·) hlist
  | delete name =>
    have hlookup := hsame (.lookup mount (mount.spell name)) (Path.upTo_text rfl)
    rw [program, program]
    exact congrArg _ (Mount.deleteBy_congr hlookup)
  | read name offset length =>
    have hlookup := hsame (.lookup mount (mount.spell name)) (Path.upTo_text rfl)
    rw [program, program]
    exact congrArg _ (Mount.readBy_congr hlookup _ _)
  | write name content =>
    have hmakeDirs :=
      hsame (.makeDirs mount (Path.split (mount.spell name)).1) (Path.upTo_split rfl)
    rw [program, program]
    exact congrArg _ (Mount.writeBy_congr hmakeDirs _)
  | writeFrom name source =>
    have hmakeDirs :=
      hsame (.makeDirs mount (Path.split (mount.spell name)).1) (Path.upTo_split rfl)
    rw [program, program]
    refine congrArg _ (congrArg _ (funext fun content => ?_))
    exact Mount.writeBy_congr hmakeDirs _

theorem Call.program_onPaths (mount : Mount) (asked : Call) :
    asked.program mount .onPaths = asked.operation mount := by
  have hspell : ∀ name, Path.ofString (mount.spell name) = mount.pathOf name :=
    fun name => Path.ofString_text _
  cases asked with
  | stat name => exact congrArg (fun path => Answer.entry <$> mount.lookup path) (hspell name)
  | readDir name => exact congrArg (fun path => Answer.entries <$> mount.list path) (hspell name)
  | names name =>
    exact congrArg (fun path => (fun entries : List Entry =>
      Answer.lines (entries.map Entry.display)) <$> mount.list path) (hspell name)
  | delete name =>
    rw [program, operation, ← Mount.deleteBy_text]
    rfl
  | read name offset length =>
    rw [program, operation, ← Mount.readBy_text]
    rfl
  | write name content =>
    rw [program, operation, ← Mount.writeBy_text]
    rfl
  | writeFrom name source =>
    have hwrite : mount.writeBy (fun dir => mount.makeDirs (Path.ofString dir)) (mount.spell name) =
        mount.write name := funext fun content => Mount.writeBy_text name content
    rw [program, operation, Mount.writeFrom, ← hwrite]
    rfl

namespace Errand

theorem callsOnly_program (errand : Errand) :
    CallsOnly (Routine.UpTo errand.path) errand.program := by
  intro call call' hsame
  have hbuild : ∀ {config : Config} (number : Nat) (opener : Option Opener),
      errand.path = Path.ofString config.baseDir →
      Mount.buildBy (fun mount dir => call (.makeDirs mount dir)) number config opener =
        Mount.buildBy (fun mount dir => call' (.makeDirs mount dir)) number config opener := by
    intro config number opener hpath
    refine Mount.buildBy_congr (fun mount config' hchecked => hsame _ (Path.upTo_text ?_)) _ _
    rw [hpath, Config.eq_of_checked hchecked]
    rfl
  cases errand with
  | build number config opener =>
    rw [program, program]
    exact congrArg _ (hbuild _ _ rfl)
  | buildFrom number config settings =>
    rw [program, program]
    exact congrArg (fun build => _ <$> Mount.openBy build settings) (hbuild _ _ rfl)
  | call mount asked => exact asked.callsOnly_program mount call call' hsame

theorem program_onPaths (errand : Errand) : errand.program .onPaths = errand.operation := by
  cases errand with
  | build number config opener =>
    rw [program, operation, ← Mount.buildBy_text]
    rfl
  | buildFrom number config settings =>
    have hopen : Mount.openBy (Mount.build number config none) settings =
        Mount.buildFrom number config settings := rfl
    rw [program, operation, ← hopen, ← Mount.buildBy_text]
    rfl
  | call mount asked => exact asked.program_onPaths mount

end Errand

/-- What holds of a routine that arises: its spelling is canonical, it calls others at that spelling
    or, away from the root, at the directory in front, which has fewer names, and no chain of calls
    goes on from it forever. -/
structure Routine.Descends (routine : Routine) : Prop where
  canonical : Path.Canonical routine.spelling
  calls : ∀ callee, Invokes routine.body callee →
    callee.spelling = routine.spelling ∨
      routine.spelling ≠ "/" ∧ callee.spelling = (Path.split routine.spelling).1 ∧
        (Path.names callee.spelling).length < (Path.names routine.spelling).length
  ends : Acc (fun callee caller : Routine => Invokes caller.body callee) routine

namespace Routine

/-- By induction on the rank. -/
theorem acc_of_canonical {routine : Routine} (hcanonical : Path.Canonical routine.spelling) :
    Acc (fun callee caller : Routine => Invokes caller.body callee) routine := by
  induction hrank : routine.rank using Nat.strongRecOn generalizing routine with
  | _ rank ih =>
    refine Acc.intro routine fun callee hinvokes => ?_
    have hcalls := (invokes_iff_calls hcanonical).1 hinvokes
    exact ih callee.rank (hrank ▸ hcalls.rank_lt hcanonical) (hcalls.canonical hcanonical) rfl

theorem descends_of_canonical {routine : Routine} (hcanonical : Path.Canonical routine.spelling) :
    routine.Descends where
  canonical := hcanonical
  calls := by
    intro callee hinvokes
    exact (((invokes_iff_calls hcanonical).1 hinvokes).down hcanonical).imp_left And.left
  ends := acc_of_canonical hcanonical

end Routine

namespace Errand

/-- Every routine that arises from an errand is called at a canonical spelling. By induction on how
    it arises. -/
theorem canonical_of_arises {errand : Errand} {routine : Routine}
    (harises : Arises errand.program routine) : Path.Canonical routine.spelling := by
  induction harises with
  | called hinvokes => exact (errand.callsOnly_program.of_invokes hinvokes).1
  | within _ hinvokes ih => exact ((Routine.invokes_iff_calls ih).1 hinvokes).canonical ih

theorem arises_of_calls {errand : Errand} {routine callee : Routine}
    (harises : Arises errand.program routine) (hcalls : routine.Calls callee) :
    Arises errand.program callee :=
  .within harises (hcalls.invokes (canonical_of_arises harises))

theorem invokes_stat (mount : Mount) (name : String) :
    Invokes (call mount (.stat name)).program (.lookup mount (mount.spell name)) := by
  have hrefused := Routines.refusing_self (.lookup mount (mount.spell name))
  exact invokes_of_fail rfl (congrArg (Answer.entry <$> ·) hrefused)

/-- Unrolled to twice the names of its path, an errand on spellings is the operation. -/
theorem program_unroll (errand : Errand) (beyond : Routines) :
    errand.program (beyond.unroll (2 * errand.path.place.length + 2)) = errand.operation := by
  rw [← errand.program_onPaths]
  refine errand.callsOnly_program _ _ fun routine hupTo => ?_
  exact beyond.unroll_eq_onPaths hupTo.1 (Routine.rank_lt_of_length_le hupTo.2)

end Errand

/-- Splitting a canonical spelling undoes joining and is undone by it, and it takes away one name.
    So whatever is asked of a namespace, the recursions that it sets off go from canonical spellings
    to canonical spellings with fewer names and end at the root. Carried out to a depth of twice the
    names on the way, they come to the operations on paths, whatever the backend does and whatever a
    deeper call would do. -/
theorem recursion_ends :
    (∀ spelling, Path.Canonical spelling → spelling ≠ "/" →
        ∃ dir name, Path.PartedInto spelling dir name) ∧
      (∀ dir name, Path.Canonical dir → Usable name →
        Path.split (Path.join dir name).text = (dir, name)) ∧
      ∀ errand : Errand,
        (∀ routine, Arises errand.program routine → routine.Descends) ∧
          ∀ beyond : Routines, errand.program (beyond.unroll (2 * errand.path.place.length + 2)) =
            errand.operation := by
  refine ⟨fun _ => Path.Canonical.partedInto, fun _ _ => Path.Canonical.split_join, ?_⟩
  intro errand
  refine ⟨fun routine harises => ?_, errand.program_unroll⟩
  exact Routine.descends_of_canonical (Errand.canonical_of_arises harises)

/-- A mount whose base has to be found first. -/
def deep : Mount := ⟨0, .ofString "/b", "root", .identity, none⟩

/-- To look up a name below that base, the base is listed for the name and the root for the base. -/
theorem arises_deep : Arises (Errand.call deep (.stat "x")).program (.lookup deep "/") := by
  have hspell : deep.spell "x" = "/b/x" := by decide +kernel
  have hname : (Routine.lookup deep "/b/x").Calls (.list deep (Path.split "/b/x").1) :=
    .list (by decide)
  have hbase : (Routine.lookup deep "/b").Calls (.list deep (Path.split "/b").1) :=
    .list (by decide)
  rw [show Path.split "/b/x" = ("/b", "x") by decide +kernel] at hname
  rw [show Path.split "/b" = ("/", "b") by decide +kernel] at hbase
  have hfirst : Arises (Errand.call deep (.stat "x")).program (.lookup deep "/b/x") :=
    .called (hspell ▸ Errand.invokes_stat deep "x")
  have hlist : Arises (Errand.call deep (.stat "x")).program (.list deep "/") :=
    Errand.arises_of_calls (Errand.arises_of_calls (Errand.arises_of_calls hfirst hname) .dir) hbase
  exact Errand.arises_of_calls hlist .dir

/-- The way of that name up to the root, and the operation at the depth of that way. -/
theorem recursion_ends_deep :
    Path.Canonical "/b/x" ∧ (∃ dir name, Path.PartedInto "/b/x" dir name) ∧
      Path.Canonical "/b" ∧ Usable "x" ∧ Path.split (Path.join "/b" "x").text = ("/b", "x") ∧
      Arises (Errand.call deep (.stat "x")).program (.lookup deep "/") ∧
      (Routine.lookup deep "/").Descends ∧
      (Errand.call deep (.stat "x")).program (Routines.missing.unroll 6) =
        (Errand.call deep (.stat "x")).operation := by
  have hname : Path.Canonical "/b/x" := Path.clean_eq_self_iff.1 (by decide +kernel)
  have hbase : Path.Canonical "/b" := Path.clean_eq_self_iff.1 (by decide +kernel)
  have hdepth : 2 * (Errand.call deep (.stat "x")).path.place.length + 2 = 6 := by decide +kernel
  obtain ⟨hparted, hjoined, hends⟩ := recursion_ends
  obtain ⟨hdescends, hunroll⟩ := hends (.call deep (.stat "x"))
  refine ⟨hname, hparted _ hname (by decide), hbase, by decide, hjoined _ _ hbase (by decide),
    arises_deep, hdescends _ arises_deep, ?_⟩
  rw [← hdepth]
  exact hunroll _

end VirtualFs
