namespace VirtualFs

/-- What a backend may be able to do beyond listing a directory and linking a file. -/
inductive Capability where
  | remove
  | put
  | makeDir
  | get
  | getRoot
  | rootId
  | rootPath
deriving DecidableEq

namespace Capability

/-- Every capability, in the order in which they are reported. -/
def all : List Capability :=
  [remove, put, makeDir, get, getRoot, rootId, rootPath]

def name : Capability → String
  | remove => "remove"
  | put => "put"
  | makeDir => "mkdir"
  | get => "get"
  | getRoot => "get_root"
  | rootId => "root_id"
  | rootPath => "root_path"

end Capability

end VirtualFs
