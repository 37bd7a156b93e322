import VirtualFs.Capability

namespace VirtualFs

/-- Why an operation failed. -/
inductive Cause where
  /-- The path does not lead to any object. -/
  | notFound
  /-- A directory was needed where a file is. -/
  | notADirectory
  /-- A file was needed where a directory is. -/
  | notAFile
  /-- The backend does not offer what the operation needs. -/
  | notImplemented (capability : Capability)
  /-- The caller that began a shared listing went away before the answer came. -/
  | cancelled
  /-- The settings and the backend together do not describe a namespace. -/
  | configuration (message : String)
  /-- A text is not the JSON that was asked for. -/
  | decode
  /-- Content could not be read. -/
  | io (message : String)
  /-- The backend failed in its own way. -/
  | storage (message : String)
deriving DecidableEq

namespace Cause

def message : Cause → String
  | notFound => "object not found"
  | notADirectory => "not a folder"
  | notAFile => "not a file"
  | notImplemented capability => "not implemented: " ++ capability.name
  | cancelled => "operation cancelled"
  | configuration message => "configuration error: " ++ message
  | decode => "invalid json"
  | io message => "io error: " ++ message
  | storage message => "storage error: " ++ message

end Cause

/-- A cause and, outermost first, what was being attempted when it arose. -/
structure Failure where
  attempts : List String
  cause : Cause
deriving DecidableEq

namespace Failure

/-- A failure seen from the attempt that it spoiled. -/
def during (failure : Failure) (attempt : String) : Failure :=
  { failure with attempts := attempt :: failure.attempts }

def message (failure : Failure) : String :=
  failure.attempts.foldr (fun attempt rest => attempt ++ ": " ++ rest) failure.cause.message

/-- Whether the failure means that the path leads nowhere, whatever was being attempted. -/
def leadsNowhere (failure : Failure) : Bool :=
  failure.cause = .notFound

instance : Coe Cause Failure := ⟨fun cause => ⟨[], cause⟩⟩

end Failure

end VirtualFs
