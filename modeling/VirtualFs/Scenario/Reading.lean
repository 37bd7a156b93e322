import VirtualFs.Alone
import VirtualFs.Scenario.Store
import VirtualFs.Transfer

namespace VirtualFs.Scenario

/-- A store that answers at once and whose clock stands at the beginning. -/
def Store.service : Service Store where
  offer := Store.offer
  now := fun _ => 0
  answer := fun request store => store.effect request

/-- Read ranges through a link, one after the other, if the link leads to a reader at all. -/
def readThrough (file : Entry) (link : Link) (opener : Option Opener) (ranges : List ByteRange) :
    Except Failure (List (Except Failure Stream)) :=
  let carryOut {α : Type} (operation : Operation α) : Except Failure α :=
    (operation.alone Store.service {}).1
  (carryOut (Readable.ofLink file opener link)).map (fun readable =>
    ranges.map (fun range => carryOut (readable.read range)))

end VirtualFs.Scenario
