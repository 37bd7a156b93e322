import VirtualFs.NameMapping

namespace VirtualFs

/-- What a backend knows of a file or a directory. A backend finds its objects again by `id` or by
    `path`; nothing here looks into either. Times are whole seconds. -/
structure Object where
  id : String := ""
  path : String := ""
  name : String := ""
  size : UInt64 := 0
  modified : UInt64 := 0
  created : UInt64 := 0
  isFolder : Bool := false
deriving DecidableEq

/-- An object under the name by which callers see it. -/
structure Entry where
  name : String
  object : Object
deriving DecidableEq

namespace Entry

/-- An object under the shown form of the backend's own name. -/
def ofObject (object : Object) (mapping : NameMapping) : Entry :=
  ⟨mapping.apply object.name, object⟩

def isDir (entry : Entry) : Bool :=
  entry.object.isFolder

/-- One line for a listing: a directory ends in a separator, a file has its size. -/
def display (entry : Entry) : String :=
  if entry.isDir then entry.name ++ "/"
  else entry.name ++ " (" ++ toString entry.object.size ++ " bytes)"

end Entry

end VirtualFs
