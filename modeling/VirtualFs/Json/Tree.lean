import VirtualFs.Json.Token

namespace VirtualFs.Json

/-- What a JSON text says, with strings and numbers as they are written. A member of an object
    stands as often and where it is written. -/
inductive Tree where
  | null
  | bool (value : Bool)
  | number (numeral : Numeral)
  | string (pieces : List Piece)
  | array (items : List Tree)
  | object (members : List (List Piece × Tree))

namespace Tree

/-- A container that is still open. Its content so far stands last first. -/
inductive Frame where
  | array (items : List Tree)
  | object (members : List (List Piece × Tree))
  | member (members : List (List Piece × Tree)) (key : List Piece)

/-- What has to come next. After an opening bracket or brace the container may close at once, after
    a comma it may not. -/
inductive Expecting where
  | value
  | firstItem
  | firstKey
  | key
  | colon
  | more
  | nothing (whole : Tree)

/-- A value is complete: put it where it belongs. -/
def deliver (value : Tree) : List Frame → Option (Expecting × List Frame)
  | [] => some (.nothing value, [])
  | .array items :: frames => some (.more, .array (value :: items) :: frames)
  | .member members key :: frames => some (.more, .object ((key, value) :: members) :: frames)
  | .object _ :: _ => none

/-- Read a token where a value may begin. -/
def beginValue (token : Token) (frames : List Frame) : Option (Expecting × List Frame) :=
  match token with
  | .null => deliver .null frames
  | .bool value => deliver (.bool value) frames
  | .number numeral => deliver (.number numeral) frames
  | .string pieces => deliver (.string pieces) frames
  | .openBracket => some (.firstItem, .array [] :: frames)
  | .openBrace => some (.firstKey, .object [] :: frames)
  | _ => none

def step (token : Token) : Expecting → List Frame → Option (Expecting × List Frame)
  | .value, frames => beginValue token frames
  | .firstItem, frames =>
    match token, frames with
    | .closeBracket, .array items :: frames => deliver (.array items.reverse) frames
    | token, frames => beginValue token frames
  | .firstKey, frames =>
    match token, frames with
    | .closeBrace, .object members :: frames => deliver (.object members.reverse) frames
    | .string key, .object members :: frames => some (.colon, .member members key :: frames)
    | _, _ => none
  | .key, frames =>
    match token, frames with
    | .string key, .object members :: frames => some (.colon, .member members key :: frames)
    | _, _ => none
  | .colon, frames =>
    match token with
    | .colon => some (.value, frames)
    | _ => none
  | .more, frames =>
    match token, frames with
    | .comma, .array items :: frames => some (.value, .array items :: frames)
    | .comma, .object members :: frames => some (.key, .object members :: frames)
    | .closeBracket, .array items :: frames => deliver (.array items.reverse) frames
    | .closeBrace, .object members :: frames => deliver (.object members.reverse) frames
    | _, _ => none
  | .nothing _, _ => none

def ofTokens : List Token → Expecting → List Frame → Option Tree
  | [], .nothing whole, _ => some whole
  | [], _, _ => none
  | token :: tokens, expecting, frames =>
    match step token expecting frames with
    | some (expecting, frames) => ofTokens tokens expecting frames
    | none => none

/-- Read a text that holds one JSON value and nothing else. -/
def ofText? (text : String) : Option Tree :=
  (Token.ofText text.toList).bind (ofTokens · .value [])

end Tree

/-- The text that a string stands for. Two units may form one character; half of such a pair alone
    is no text. -/
def textOfPieces : List Piece → Option (List Char)
  | [] => some []
  | .char c :: rest => (textOfPieces rest).map (c :: ·)
  | .unit high :: .unit low :: rest =>
    if 0xd800 ≤ high && high ≤ 0xdbff && 0xdc00 ≤ low && low ≤ 0xdfff then
      (textOfPieces rest).map
        (Char.ofNat (0x10000 + (high - 0xd800) * 0x400 + (low - 0xdc00)) :: ·)
    else if 0xd800 ≤ high && high ≤ 0xdfff then none
    else (textOfPieces (.unit low :: rest)).map (Char.ofNat high :: ·)
  | .unit code :: rest =>
    if 0xd800 ≤ code && code ≤ 0xdfff then none
    else (textOfPieces rest).map (Char.ofNat code :: ·)

def text? (pieces : List Piece) : Option String :=
  (textOfPieces pieces).map String.ofList

end VirtualFs.Json
