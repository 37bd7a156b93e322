import VirtualFs.Offer
import VirtualFs.Path
import VirtualFs.Text.Quoted

namespace VirtualFs

/-- How far an upload has come. -/
inductive Progress where
  | started
  | finished
deriving DecidableEq

namespace Progress

/-- The share that is done, in per cent. -/
def percent : Progress → String
  | started => "0.0"
  | finished => "100.0"

end Progress

/-- What the filesystem tells its log. -/
inductive LogEvent where
  | initializing (addition : String)
  | preparing (base : Path) (capabilities : List Capability)
  | ready (base : Path)
  | resolvingRoot (source : Capability)
  | directGetFailed (path : Path) (failure : Failure)
  | listing (dir : Path)
  | joining (key : String)
  | createReconciled (dir : Path) (failure : Failure)
  | directoryReady (dir : Path)
  | deleteOfMissing (path : Path)
  | upload (path : Path) (progress : Progress)
  | rangeRead (file : String) (header : Option String)
deriving DecidableEq

namespace LogEvent

/-- The line of an event: level, message and fields. -/
def line : LogEvent → String
  | initializing addition => "INFO initializing storage addition=" ++ addition
  | preparing base capabilities =>
    "INFO preparing namespace base_dir=" ++ base.text ++
      " capabilities=" ++ Capability.listed capabilities
  | ready base => "INFO namespace ready base_dir=" ++ base.text
  | resolvingRoot source => "DEBUG resolving root strategy=" ++ source.name
  | directGetFailed path failure =>
    "DEBUG direct get failed, falling back to listing path=" ++ path.text ++
      " error=" ++ failure.message
  | listing dir => "DEBUG listing directory path=" ++ dir.text
  | joining key => "TRACE joining in-flight call key=" ++ key
  | createReconciled dir failure =>
    "WARN create failed but directory exists path=" ++ dir.text ++ " error=" ++ failure.message
  | directoryReady dir => "DEBUG directory ready path=" ++ dir.text
  | deleteOfMissing path => "DEBUG delete of missing object path=" ++ path.text
  | upload path progress =>
    "TRACE upload progress path=" ++ path.text ++ " progress=" ++ progress.percent
  | rangeRead file header =>
    "TRACE range read file=" ++ file ++ " range=" ++
      header.elim "None" (fun value => "Some(" ++ Text.quoted value ++ ")")

end LogEvent

end VirtualFs
