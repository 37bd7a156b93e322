import VirtualFs.Link
import VirtualFs.LogEvent

namespace VirtualFs

/-- A file on its way to a backend. The object describes it, the content is what is stored. -/
structure Upload where
  object : Object
  content : List UInt8
deriving DecidableEq

/-- What opens a backend: an account and, if it is to see only a part, where that part begins. -/
structure Credentials where
  username : String
  password : String
  rootFolder : Option String
deriving DecidableEq

/-- A question to the outside world, which may take its time to answer. -/
inductive Request where
  | list (dir : Object) (refresh : Bool)
  | link (file : Object)
  | remove (object : Object)
  | makeDir (parent : Object) (name : String)
  | makeDirReporting (parent : Object) (name : String)
  /-- Store a file in a directory. `target` is the path that the caller writes to. -/
  | put (form : Form) (dir : Object) (upload : Upload) (target : Path)
  | get (path : Path)
  | getRoot
  | openLink (opener : Opener) (file : Object) (url : String) (headers : Dict String)
  | readRange (reader : Reader) (range : ByteRange)
  /-- Read everything that a caller has to give. -/
  | drain (source : Stream)
  /-- Open the backend. -/
  | connect (credentials : Credentials)

namespace Request

/-- What a request yields if it succeeds. -/
def Reply : Request → Type
  | list _ _ => List Object
  | link _ => Link
  | remove _ => Unit
  | makeDir _ _ => Unit
  | makeDirReporting _ _ => Option Object
  | put _ _ _ _ => Unit
  | get _ => Object
  | getRoot => Object
  | openLink _ _ _ _ => Reader
  | readRange _ _ => Stream
  | drain _ => List UInt8
  | connect _ => Unit

abbrev Answer (request : Request) : Type :=
  Except Failure request.Reply

/-- What the log hears of an upload that is under way. -/
def progressEvents : Request → Progress → List LogEvent
  | put _ _ _ target, progress => [.upload target progress]
  | _, _ => []

end Request

end VirtualFs
