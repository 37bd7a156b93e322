namespace VirtualFs

/-- The bytes from `start` on: `length` of them, or all that follow if there is no length. -/
structure ByteRange where
  start : UInt64
  length : Option UInt64
deriving DecidableEq

namespace ByteRange

/-- The part of a range that lies in content of the given size. A range that begins behind the
    content becomes the empty range at its end, and the result always has a length. -/
def clamp (range : ByteRange) (size : UInt64) : ByteRange :=
  let start := min range.start size
  let available := size - start
  ⟨start, some (range.length.elim available (min · available))⟩

/-- The last offset of a range that starts at `start` and has a positive length, or the largest
    offset there is where the range would run past it. -/
def lastOffset (start length : UInt64) : UInt64 :=
  let last := start + (length - 1)
  if last < start then 0xFFFFFFFFFFFFFFFF else last

/-- The range as the value of a request header. An empty range has none and needs no request. -/
def header? (range : ByteRange) : Option String :=
  match range.length with
  | none => some ("bytes=" ++ toString range.start ++ "-")
  | some length =>
    if length = 0 then none
    else some ("bytes=" ++ toString range.start ++ "-" ++ toString (lastOffset range.start length))

/-- The bytes of some content that lie in a range. -/
def slice (range : ByteRange) (content : List UInt8) : List UInt8 :=
  let inside := range.clamp (UInt64.ofNat content.length)
  (content.drop inside.start.toNat).take (inside.length.getD 0).toNat

end ByteRange

end VirtualFs
