namespace VirtualFs.Text

/-- The number of bytes that a text takes up. -/
def byteLength (text : List Char) : Nat :=
  text.foldr (fun c bytes => c.utf8Size + bytes) 0

/-- The longest beginning of a text that has at most the given number of bytes. -/
def fitting (limit : Nat) : List Char → List Char
  | [] => []
  | c :: rest => if c.utf8Size ≤ limit then c :: fitting (limit - c.utf8Size) rest else []

/-- Cut a text down to a number of bytes, between two characters, and say how much is missing. A
    text that fits is left as it is. -/
def truncate (limit : Nat) (text : String) : String :=
  if text.utf8ByteSize ≤ limit then text
  else
    let shown := String.ofList (fitting limit text.toList)
    shown ++ "...[truncated " ++ toString (text.utf8ByteSize - shown.utf8ByteSize) ++ " bytes]"

end VirtualFs.Text
