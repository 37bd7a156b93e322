import VirtualFs.Failure

namespace VirtualFs

/-- Which of its two forms an operation takes: one that reports the object it made, or one that only
    says that it is done. -/
inductive Form where
  | reporting
  | plain
deriving DecidableEq

/-- How the root directory is found. -/
inductive RootSource where
  | asked
  | id (id : String)
  | path (path : String)
deriving DecidableEq

namespace RootSource

def capability : RootSource → Capability
  | asked => .getRoot
  | id _ => .rootId
  | path _ => .rootPath

end RootSource

/-- What a backend can do at one moment. It may change its mind, so an operation looks again each
    time it needs to know. -/
structure Offer where
  remove : Bool := false
  putReporting : Bool := false
  put : Bool := false
  makeDirReporting : Bool := false
  makeDir : Bool := false
  get : Bool := false
  getRoot : Bool := false
  rootId : Option String := none
  rootPath : Option String := none
  /-- When the storage as a whole was last modified. -/
  modified : UInt64 := 0
deriving DecidableEq

namespace Offer

def supports (offer : Offer) : Capability → Bool
  | .remove => offer.remove
  | .put => offer.putReporting || offer.put
  | .makeDir => offer.makeDirReporting || offer.makeDir
  | .get => offer.get
  | .getRoot => offer.getRoot
  | .rootId => offer.rootId.isSome
  | .rootPath => offer.rootPath.isSome

/-- The capabilities on offer, in the order of `Capability.all`. -/
def capabilities (offer : Offer) : List Capability :=
  Capability.all.filter offer.supports

/-- The form that an operation with two forms takes. The reporting one saves a lookup and is
    preferred where there is a choice. -/
def chooseForm (reporting plain : Bool) (capability : Capability) : Except Failure Form :=
  if reporting then .ok .reporting
  else if plain then .ok .plain
  else .error (Cause.notImplemented capability)

def putForm (offer : Offer) : Except Failure Form :=
  chooseForm offer.putReporting offer.put .put

def makeDirForm (offer : Offer) : Except Failure Form :=
  chooseForm offer.makeDirReporting offer.makeDir .makeDir

def requireRemove (offer : Offer) : Except Failure Unit :=
  if offer.remove then .ok () else .error (Cause.notImplemented .remove)

/-- How to find the root. A backend that offers no way at all cannot carry a namespace. -/
def rootSource (offer : Offer) : Except Failure RootSource :=
  if offer.getRoot then .ok .asked
  else match offer.rootId, offer.rootPath with
    | some id, _ => .ok (.id id)
    | none, some path => .ok (.path path)
    | none, none =>
      .error (Cause.configuration "please implement root path, root id or root getter")

end Offer

/-- A list of capabilities on one line. -/
def Capability.listed (capabilities : List Capability) : String :=
  "[" ++ ", ".intercalate (capabilities.map Capability.name) ++ "]"

end VirtualFs
