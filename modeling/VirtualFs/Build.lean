import VirtualFs.Json.Decode
import VirtualFs.Redaction
import VirtualFs.Transfer

namespace VirtualFs.Mount

open Operation

/-- The mount that some settings describe. -/
def ofConfig (number : Nat) (config : Config) (opener : Option Opener) : Mount :=
  ⟨number, .ofString config.baseDir, config.rootName, config.mapping, opener⟩

/-- Lay a namespace over a backend and make sure that its base directory exists. -/
def build (number : Nat) (config : Config) (opener : Option Opener) : Operation Mount := do
  let config ← require config.checked
  let mount := ofConfig number config opener
  let offer ← offer
  log (.preparing mount.base offer.capabilities)
  let _ ← during ("failed to make dir [" ++ mount.base.text ++ "]") (mount.makeDirs mount.base)
  log (.ready mount.base)
  pure mount

/-- Open a backend with the settings in a JSON text, then lay a namespace over it. The settings are
    logged without what should stay hidden. -/
def buildFrom (number : Nat) (config : Config) (settings : String) : Operation Mount := do
  let value ← require (Json.decoded (Json.Value.ofText? settings))
  log (.initializing (({} : Redaction).render value))
  let credentials ← require (Json.decoded (Credentials.ofValue? value))
  during "failed to init storage" (ask (.connect credentials))
  build number config none

end VirtualFs.Mount
