import VirtualFs.ByteRange
import VirtualFs.Failure
import VirtualFs.Object
import VirtualFs.Text.Quoted

namespace VirtualFs

/-- Bytes as they arrive. A stream that breaks off has the reason in `fault`. -/
structure Stream where
  bytes : List UInt8
  fault : Option String := none
deriving DecidableEq

namespace Stream

/-- At most the first `limit` bytes. What lies behind the limit is never asked for, so a fault
    there goes unnoticed. -/
def take (limit : UInt64) (stream : Stream) : Stream :=
  if limit.toNat ≤ stream.bytes.length then ⟨stream.bytes.take limit.toNat, none⟩ else stream

end Stream

/-- Something that serves ranges of one file. A remote reader is free to ignore part of the range
    that it is asked for. -/
inductive Reader where
  | memory (content : List UInt8)
  | remote (serve : ByteRange → Except Failure Stream)

namespace Reader

def read : Reader → ByteRange → Except Failure Stream
  | memory content, range => .ok ⟨range.slice content, none⟩
  | remote serve, range => serve range

end Reader

/-- Turns an address into a reader. -/
structure Opener where
  connect : (file : Object) → (url : String) → (headers : Dict String) → Except Failure Reader

/-- How a backend hands out the content of a file. -/
inductive Link where
  | data (content : List UInt8)
  | url (address : String) (headers : Dict String)
  | reader (reader : Reader)

namespace Link

/-- A line about a link. Headers can hold credentials and are left out. -/
def describe : Link → String
  | data content => "Data(" ++ toString content.length ++ " bytes)"
  | reader _ => "Reader"
  | url address _ => "Url \x7b url: " ++ Text.quoted address ++ " \x7d"

end Link

end VirtualFs
