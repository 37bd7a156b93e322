import VirtualFs.Dict
import VirtualFs.Json.Number
import VirtualFs.Json.Tree

namespace VirtualFs.Json

/-- A JSON value. The fields of an object stand in the order of their names, each name once. -/
inductive Value where
  | null
  | bool (value : Bool)
  | number (value : Number)
  | string (value : String)
  | array (items : List Value)
  | object (fields : List (String × Value))

namespace Value

/-- What sort of value it is. -/
def kind : Value → String
  | null => "null"
  | bool _ => "bool"
  | number _ => "number"
  | string _ => "string"
  | array _ => "array"
  | object _ => "object"

end Value

mutual

/-- The value that a written one stands for, if its strings are texts, its numbers are in range and
    it is nested at most `depth` deep. Of several members with one name the last counts. -/
def Tree.value? (depth : Nat) : Tree → Option Value
  | .null => some .null
  | .bool value => some (.bool value)
  | .number numeral => (Number.ofNumeral? numeral).map .number
  | .string pieces => (text? pieces).map .string
  | .array items =>
    match depth with
    | 0 => none
    | depth + 1 => (Tree.values? depth items).map .array
  | .object members =>
    match depth with
    | 0 => none
    | depth + 1 =>
      (Tree.fields? depth members).map (fun fields => .object (Dict.ofList fields).entries)

def Tree.values? (depth : Nat) : List Tree → Option (List Value)
  | [] => some []
  | item :: items => do
    let value ← Tree.value? depth item
    let values ← Tree.values? depth items
    return value :: values

def Tree.fields? (depth : Nat) : List (List Piece × Tree) → Option (List (String × Value))
  | [] => some []
  | (key, item) :: members => do
    let key ← text? key
    let value ← Tree.value? depth item
    let fields ← Tree.fields? depth members
    return (key, value) :: fields

end

/-- How deep a value may be nested. -/
def Value.maxDepth : Nat := 127

/-- Read a text that holds one value and nothing else. -/
def Value.ofText? (text : String) : Option Value :=
  (Tree.ofText? text).bind (Tree.value? Value.maxDepth)

end VirtualFs.Json
