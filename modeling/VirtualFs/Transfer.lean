import VirtualFs.Directories

namespace VirtualFs

/-- A file together with the reader that serves it. -/
structure Readable where
  file : Entry
  reader : Reader

namespace Readable

open Operation

/-- Find the reader behind a link. An address needs someone to open it. -/
def ofLink (file : Entry) (opener : Option Opener) : Link → Operation Readable
  | .data content => pure ⟨file, .memory content⟩
  | .reader reader => pure ⟨file, reader⟩
  | .url address headers =>
    match opener with
    | some opener => do
      let reader ← ask (.openLink opener file.object address headers)
      pure ⟨file, reader⟩
    | none =>
      fail (Cause.configuration ("no link opener configured for [" ++ file.name ++ "]"))

/-- Read a range. The size in the description plays no part, since a backend may not know it, and a
    reader that goes on past the range is cut off at its end. -/
def read (readable : Readable) (range : ByteRange) : Operation Stream := do
  log (.rangeRead readable.file.name range.header?)
  let stream : Stream ← ask (.readRange readable.reader range)
  pure (match range.length with
    | some length => stream.take length
    | none => stream)

end Readable

namespace Mount

open Operation

def stat (mount : Mount) (name : String) : Operation Entry :=
  mount.lookup (mount.pathOf name)

def readDir (mount : Mount) (name : String) : Operation (List Entry) :=
  mount.list (mount.pathOf name)

/-- Remove what a name leads to. There is nothing to do for a name that leads nowhere. -/
def delete (mount : Mount) (name : String) : Operation Unit := do
  let path := mount.pathOf name
  match ← attempt (mount.lookup path) with
  | .ok entry =>
    let offer ← offer
    require offer.requireRemove
    during ("failed to remove [" ++ path.text ++ "]") (ask (.remove entry.object))
  | .error failure =>
    if failure.leadsNowhere then log (.deleteOfMissing path)
    else fail (failure.during "failed to get object")

/-- Read `length` bytes of a file from `offset` on, or as many of them as there are. -/
def read (mount : Mount) (name : String) (offset length : UInt64) : Operation Stream := do
  let path := mount.pathOf name
  let file ← during ("failed to get file [" ++ path.text ++ "]") (mount.lookup path)
  if file.isDir then fail (Failure.during (Cause.notAFile : Failure) path.text)
  else
    let link ← during ("failed to link [" ++ path.text ++ "]") (ask (.link file.object))
    let readable ← during ("failed get [" ++ path.text ++ "] stream")
      (Readable.ofLink file mount.opener link)
    readable.read ⟨offset, some length⟩

/-- Store a file, making the directories above it. A backend that cannot store files is found out
    before anything is changed. -/
def write (mount : Mount) (name : String) (content : List UInt8) : Operation Unit := do
  let path := mount.pathOf name
  match path with
  | .root => fail (Failure.during (Cause.notAFile : Failure) path.text)
  | .child dir base =>
    if path = mount.base then fail (Failure.during (Cause.notAFile : Failure) path.text)
    else
      let offer ← offer
      let form ← require offer.putForm
      let time ← now
      let size := UInt64.ofNat content.length
      let object : Object := { name := base.text, size, modified := time, created := time }
      let parent ← during ("failed to make dir [" ++ dir.text ++ "]") (mount.makeDirs dir)
      during ("failed to put [" ++ path.text ++ "]")
        (ask (.put form parent.object ⟨object, content⟩ path))

/-- Store all that a caller's source yields. A source that breaks off stores nothing. -/
def writeFrom (mount : Mount) (name : String) (source : Stream) : Operation Unit := do
  let content ← ask (.drain source)
  mount.write name content

end Mount

end VirtualFs
