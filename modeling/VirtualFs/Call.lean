import VirtualFs.Build

namespace VirtualFs

/-- What a caller can ask of a mount. -/
inductive Call where
  | stat (name : String)
  | readDir (name : String)
  /-- The lines that a listing shows. -/
  | names (name : String)
  | delete (name : String)
  | read (name : String) (offset length : UInt64)
  | write (name : String) (content : List UInt8)
  | writeFrom (name : String) (source : Stream)

/-- What a call or a build comes to. -/
inductive Answer where
  | entry (entry : Entry)
  | entries (entries : List Entry)
  | lines (lines : List String)
  | stream (stream : Stream)
  | done
  | mounted (mount : Mount)

namespace Call

/-- The path that a call is about. -/
def path (mount : Mount) : Call → Path
  | stat name => mount.pathOf name
  | readDir name => mount.pathOf name
  | names name => mount.pathOf name
  | delete name => mount.pathOf name
  | read name _ _ => mount.pathOf name
  | write name _ => mount.pathOf name
  | writeFrom name _ => mount.pathOf name

def operation (mount : Mount) : Call → Operation Answer
  | stat name => .entry <$> mount.stat name
  | readDir name => .entries <$> mount.readDir name
  | names name => (fun entries => .lines (entries.map Entry.display)) <$> mount.readDir name
  | delete name => (fun _ => .done) <$> mount.delete name
  | read name offset length => .stream <$> mount.read name offset length
  | write name content => (fun _ => .done) <$> mount.write name content
  | writeFrom name source => (fun _ => .done) <$> mount.writeFrom name source

end Call

end VirtualFs
