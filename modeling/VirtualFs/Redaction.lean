import VirtualFs.Json.Value
import VirtualFs.Secret
import VirtualFs.Text.OneLine
import VirtualFs.Text.Upper

namespace VirtualFs

/-- Whether one text occurs within another. -/
def Text.occursIn (part : List Char) : List Char → Bool
  | [] => part.isEmpty
  | c :: rest => part.isPrefixOf (c :: rest) || occursIn part rest

/-- What may be shown of the settings of a backend. -/
structure Redaction where
  /-- Whether anything is hidden at all. -/
  active : Bool := true
  /-- A value is hidden if the upper-case form of its key contains one of these. -/
  patterns : List String :=
    ["PASSWORD", "PASSWD", "SECRET", "TOKEN", "KEY", "CREDENTIAL", "AUTH", "COOKIE", "SESSION",
      "SIGNATURE", "PRIVATE"]
  /-- The number of bytes that are shown of a long text. -/
  maxLength : Nat := 64

namespace Redaction

/-- Hide the values of one more sort of key, in whatever case it is written. -/
def hideKey (redaction : Redaction) (pattern : String) : Redaction :=
  { redaction with patterns := redaction.patterns ++ [Text.upper pattern] }

def hidesKey (redaction : Redaction) (key : String) : Bool :=
  redaction.active &&
    redaction.patterns.any (fun pattern => Text.occursIn pattern.toList (Text.upper key).toList)

def hidden : String := "[REDACTED]"

/-- What is shown of a text. -/
def showText (redaction : Redaction) (text : String) : String :=
  if redaction.active && Secret.isLikely text then hidden
  else Text.truncate redaction.maxLength text

/-- What is shown of a value. Nested values are named, never shown. -/
def showValue (redaction : Redaction) : Json.Value → String
  | .null => "null"
  | .bool value => if value then "true" else "false"
  | .number value => value.text
  | .string text => redaction.showText text
  | value => "[" ++ value.kind ++ "]"

def showField (redaction : Redaction) (field : String × Json.Value) : String :=
  let shown := if redaction.hidesKey field.1 then hidden else redaction.showValue field.2
  Text.oneLine field.1 ++ "=" ++ Text.oneLine shown

/-- The settings of a backend on one line, a pair for each field. -/
def render (redaction : Redaction) : Json.Value → String
  | .object fields => " ".intercalate (fields.map redaction.showField)
  | value => "[" ++ value.kind ++ "]"

end Redaction

end VirtualFs
