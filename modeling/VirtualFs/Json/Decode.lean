import VirtualFs.Config
import VirtualFs.Json.Value
import VirtualFs.Request

namespace VirtualFs

open Json

/-- A text, where a text is asked for. -/
def Json.Tree.text? : Tree → Option String
  | .string pieces => Json.text? pieces
  | _ => none

/-- An object whose members are all texts, as a table. -/
def Json.Tree.texts? : Tree → Option (Dict String)
  | .object members => do
    let entries ← members.mapM (fun (key, item) => do
      return (← Json.text? key, ← item.text?))
    return .ofList entries
  | _ => none

/-- The members of an object under the names that are looked for. Other members are passed over
    without a look at their values, but a name that is looked for may come only once. -/
def Json.Tree.known? (names : List String) (members : List (List Piece × Tree)) :
    Option (List (String × Tree)) := do
  let named ← members.mapM (fun (key, item) => do return (← Json.text? key, item))
  let known := named.filter (fun (key, _) => names.contains key)
  if (known.map Prod.fst).Nodup then some known else none

/-- Decode a part that may be missing, in which case it has a default. -/
def Json.optional {α : Type} (decode : Tree → Option α) (default : α) : Option Tree → Option α
  | none => some default
  | some tree => decode tree

def Config.ofParts? (baseDir rootName mapping : Option Tree) : Option Config := do
  let default : Config := {}
  return {
    baseDir := ← optional Tree.text? default.baseDir baseDir
    rootName := ← optional Tree.text? default.rootName rootName
    mapping := ← optional (fun tree => tree.texts?.map NameMapping.mk) default.mapping mapping }

/-- Settings as an object, or as an array of the same parts in their order. -/
def Config.ofTree? : Tree → Option Config
  | .object members => do
    let known ← Tree.known? ["base_dir", "root_name", "name_mapping"] members
    Config.ofParts? (known.lookup "base_dir") (known.lookup "root_name")
      (known.lookup "name_mapping")
  | .array items =>
    if items.length ≤ 3 then Config.ofParts? items[0]? items[1]? items[2]? else none
  | _ => none

def Json.decoded {α : Type} : Option α → Except Failure α
  | some value => .ok value
  | none => .error Cause.decode

/-- The settings in a JSON text, checked. What is missing has its default. -/
def Config.ofText (text : String) : Except Failure Config := do
  let config ← decoded ((Tree.ofText? text).bind Config.ofTree?)
  config.checked

/-- The name mapping in a JSON text. -/
def NameMapping.ofText (text : String) : Except Failure NameMapping :=
  decoded (((Tree.ofText? text).bind Tree.texts?).map NameMapping.mk)

def Json.Value.text? : Value → Option String
  | .string text => some text
  | _ => none

/-- A text that may also be missing or null. -/
def Json.Value.optionalText? : Option Value → Option (Option String)
  | none => some none
  | some .null => some none
  | some (.string text) => some (some text)
  | some _ => none

def Credentials.ofParts? (username password rootFolder : Option Value) : Option Credentials := do
  return {
    username := ← (← username).text?
    password := ← (← password).text?
    rootFolder := ← Value.optionalText? rootFolder }

/-- Credentials as an object, or as an array of the same parts in their order. -/
def Credentials.ofValue? : Value → Option Credentials
  | .object fields =>
    Credentials.ofParts? (fields.lookup "username") (fields.lookup "password")
      (fields.lookup "root_folder_id")
  | .array items =>
    if items.length ≤ 3 then Credentials.ofParts? items[0]? items[1]? items[2]? else none
  | _ => none

end VirtualFs
