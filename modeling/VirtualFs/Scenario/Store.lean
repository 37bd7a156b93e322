import VirtualFs.Backend

namespace VirtualFs.Scenario

/-- The key under which a store finds an object again. -/
def keyOf (object : Object) : String :=
  if object.id = "" then object.path else object.id

/-- The key of a new object in a directory. -/
def childKey (dir name : String) : String :=
  if dir = "/" then "/" ++ name else dir ++ "/" ++ name

/-- An object in a store with the key of its directory, its content, and the way in which the
    content is handed out. -/
structure Node where
  object : Object
  parent : Option String
  content : List UInt8 := []
  link : Link := .data content

namespace Node

def key (node : Node) : String :=
  keyOf node.object

end Node

/-- An object store in memory. Nodes stand in the order in which they came. -/
structure Store where
  nodes : List Node := []
  offer : Offer := { remove := true, put := true, makeDir := true, rootId := some "/" }
  /-- Whether the reporting forms keep to themselves what they made. -/
  reticent : Bool := false

namespace Store

def find? (store : Store) (key : String) : Option Node :=
  store.nodes.find? (·.key = key)

def notFound {α : Type} : Except Failure α :=
  .error Cause.notFound

/-- The objects in a directory. -/
def list (store : Store) (dir : Object) : Except Failure (List Object) :=
  let key := keyOf dir
  match store.find? key with
  | some _ => .ok ((store.nodes.filter (·.parent = some key)).map Node.object)
  | none => notFound

def link (store : Store) (file : Object) : Except Failure Link :=
  match store.find? (keyOf file) with
  | some node => .ok node.link
  | none => notFound

/-- The keys that hang below some keys. Each round adds one level, so there is nothing left to find
    after as many rounds as there are nodes. -/
def withDescendants (nodes : List Node) : Nat → List String → List String
  | 0, keys => keys
  | rounds + 1, keys =>
    let more := (nodes.filter (fun node =>
      node.parent.any keys.contains && !keys.contains node.key)).map Node.key
    withDescendants nodes rounds (keys ++ more)

/-- Remove an object and all that lies below it. -/
def remove (store : Store) (object : Object) : Except Failure Unit × Store :=
  let key := keyOf object
  match store.find? key with
  | some _ =>
    let doomed := withDescendants store.nodes store.nodes.length [key]
    (.ok (), { store with nodes := store.nodes.filter (!doomed.contains ·.key) })
  | none => (notFound, store)

/-- Add an empty directory. A key that is taken stays as it is. -/
def makeDir (store : Store) (parent : Object) (name : String) : Except Failure Object × Store :=
  let key := childKey (keyOf parent) name
  match store.find? key with
  | some _ => (.error (Cause.storage "already exists"), store)
  | none =>
    let object : Object := { id := key, path := key, name, isFolder := true }
    let node : Node := ⟨object, some (keyOf parent), [], .data []⟩
    (.ok object, { store with nodes := store.nodes ++ [node] })

/-- Store a file, in the place of the object with its key if there is one. -/
def put (store : Store) (dir : Object) (upload : Upload) : Store :=
  let key := childKey (keyOf dir) upload.object.name
  let object : Object :=
    { upload.object with id := key, path := key, modified := 0, created := 0 }
  let node : Node := ⟨object, some (keyOf dir), upload.content, .data upload.content⟩
  match store.nodes.findIdx? (·.key = key) with
  | some index => { store with nodes := store.nodes.set index node }
  | none => { store with nodes := store.nodes ++ [node] }

def get (store : Store) (path : Path) : Except Failure Object :=
  match store.nodes.find? (·.object.path = path.text) with
  | some node => .ok node.object
  | none => notFound

def getRoot (store : Store) : Except Failure Object :=
  match store.nodes.find? (·.parent.isNone) with
  | some node => .ok node.object
  | none => notFound

/-- Let a user in who has a password. The user may narrow the view to a folder. -/
def connect (store : Store) (credentials : Credentials) : Except Failure Unit × Store :=
  if credentials.password = "" then
    (.error (Cause.storage ("login failed for " ++ credentials.username)), store)
  else
    match credentials.rootFolder with
    | some folder => (.ok (), { store with offer := { store.offer with rootId := some folder } })
    | none => (.ok (), store)

/-- All that a caller's source yields, unless it breaks off. -/
def drain (source : Stream) : Except Failure (List UInt8) :=
  match source.fault with
  | some message => .error (Cause.io message)
  | none => .ok source.bytes

/-- The effect of a request, which takes place at one moment, and all there is to tell of it. -/
def effect (store : Store) : (request : Request) → request.Answer × Store
  | .list dir _ => (store.list dir, store)
  | .link file => (store.link file, store)
  | .remove object => store.remove object
  | .makeDir parent name =>
    match store.makeDir parent name with
    | (result, store) => (result.map (fun _ => ()), store)
  | .makeDirReporting parent name =>
    match store.makeDir parent name with
    | (result, store) => (result.map some, store)
  | .put _ dir upload _ => (.ok (), store.put dir upload)
  | .get path => (store.get path, store)
  | .getRoot => (store.getRoot, store)
  | .openLink opener file url headers => (opener.connect file url headers, store)
  | .readRange reader range => (reader.read range, store)
  | .drain source => (drain source, store)
  | .connect credentials => store.connect credentials

/-- An answer as it leaves the store. Whether the object made is told with it is settled then, and
    not when the object is made. -/
def tell (store : Store) : (request : Request) → request.Answer → request.Answer
  | .makeDirReporting _ _, answer => if store.reticent then answer.map (fun _ => none) else answer
  | _, answer => answer

end Store

end VirtualFs.Scenario
