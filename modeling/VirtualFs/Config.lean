import VirtualFs.Failure
import VirtualFs.NameMapping
import VirtualFs.Path

namespace VirtualFs

/-- How a namespace is laid over a backend: the directory that all names lie under, the name by
    which the backend's root is shown, and the changes made to the backend's own names. -/
structure Config where
  baseDir : String := "/juicefs"
  rootName : String := "root"
  mapping : NameMapping := .standard

namespace Config

/-- Bring the base directory into its canonical spelling and refuse a root without a name. -/
def checked (config : Config) : Except Failure Config :=
  if config.rootName = "" then .error (Cause.configuration "root_name must not be empty")
  else .ok { config with baseDir := Path.clean config.baseDir }

theorem eq_of_checked {config config' : Config} (hchecked : config.checked = .ok config') :
    config' = { config with baseDir := Path.clean config.baseDir } := by
  unfold checked at hchecked
  split at hchecked
  case isTrue => cases hchecked
  case isFalse => exact (Except.ok.inj hchecked).symm

end Config

end VirtualFs
