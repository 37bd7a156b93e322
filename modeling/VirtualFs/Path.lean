namespace VirtualFs

/-- A text that can name one step of a path. The empty text and `.` stay where they are, `..` goes
    back, and a text with a separator names more than one step. -/
def Usable (text : String) : Prop :=
  text ≠ "" ∧ text ≠ "." ∧ text ≠ ".." ∧ '/' ∉ text.toList

instance : DecidablePred Usable := fun _ => inferInstanceAs (Decidable (_ ∧ _ ∧ _ ∧ _))

/-- One step of a path. -/
structure Segment where
  text : String
  usable : Usable text
deriving DecidableEq

/-- A place in the namespace, as the steps that lead to it from the root. Every path has one
    spelling, `Path.text`; all other spellings of it are read by `Path.ofString`. -/
inductive Path where
  | root
  | child (dir : Path) (name : Segment)
deriving DecidableEq

namespace Path

/-- The directory that holds a path. Nothing lies above the root. -/
def dir : Path → Path
  | root => root
  | child dir _ => dir

/-- Follow one piece of a spelling: a usable text goes down, `..` goes up, anything else stays. -/
def enter (path : Path) (piece : String) : Path :=
  if h : Usable piece then path.child ⟨piece, h⟩
  else if piece = ".." then path.dir
  else path

/-- Follow a spelling piece by piece. A relative spelling starts at the root as well. -/
def ofString (spelling : String) : Path :=
  (spelling.toList.splitOn '/').foldl (fun path piece => path.enter (String.ofList piece)) root

/-- The steps from the root, each with a separator in front. -/
def steps : Path → String
  | root => ""
  | child dir name => dir.steps ++ "/" ++ name.text

/-- The canonical spelling. Only the root ends in a separator. -/
def text : Path → String
  | root => "/"
  | path => path.steps

/-- The steps from the root, outermost first. -/
def segments : Path → List Segment
  | root => []
  | child dir name => dir.segments ++ [name]

/-- The canonical spelling of the place that a spelling leads to. -/
def clean (spelling : String) : String :=
  (ofString spelling).text

/-- The place that a caller's name means below a base. The name is cleaned by itself first, so its
    `..` pieces are used up before the base is in front of them. -/
def join (base name : String) : Path :=
  ofString (base ++ clean name)

/-- Cut a spelling at its last separator into the directory and the last name. A separator at the
    front stands for the root, and a spelling without any lies directly below the root. -/
def split (spelling : String) : String × String :=
  let reversed := spelling.toList.reverse
  let name := String.ofList (reversed.takeWhile (· ≠ '/')).reverse
  match (reversed.dropWhile (· ≠ '/')).tail with
  | [] => ("/", name)
  | front => (String.ofList front.reverse, name)

/-- The last name of a spelling. -/
def lastName (spelling : String) : String :=
  (split spelling).2

end Path

end VirtualFs
