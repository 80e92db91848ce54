import PionBridge.Sctp.PayloadData

/-!
# `PionBridge.Sctp.PayloadQueue`: chunks in flight

The sender's queue of `payload_queue.go`: the chunks that were sent and are not behind the peer's
cumulative TSN, in the order of their TSNs. `get` finds a chunk by its distance from the first one.
The ring buffer under it is a list here.
-/

set_option autoImplicit false

namespace PionBridge.Sctp

/-- A chunk in flight, with what `chunkPayloadData` keeps for the sender. -/
structure InflightChunk where
  chunk : PayloadData
  acked : Bool
  retransmit : Bool
  nSent : Nat
  missIndicator : Nat
deriving DecidableEq, Repr

structure PayloadQueue where
  chunks : List InflightChunk
  nBytes : Int
deriving DecidableEq, Repr

def newPayloadQueue : PayloadQueue := { chunks := [], nBytes := 0 }

namespace PayloadQueue

def pushNoCheck (q : PayloadQueue) (c : InflightChunk) : PayloadQueue :=
  { chunks := q.chunks ++ [c], nBytes := q.nBytes + c.chunk.userData.length }

/-- The first chunk, if it has the given TSN. -/
def pop (q : PayloadQueue) (tsn : TSN) : Option (InflightChunk × PayloadQueue) :=
  match q.chunks with
  | c :: rest =>
    if tsn = c.chunk.tsn then
      some (c, { chunks := rest, nBytes := q.nBytes - c.chunk.userData.length })
    else none
  | [] => none

/-- The place of a TSN in the queue. The first comparison is one of plain numbers. -/
def index (q : PayloadQueue) (tsn : TSN) : Option Nat :=
  match q.chunks with
  | [] => none
  | c :: _ =>
    if tsn < c.chunk.tsn ∨ q.chunks.length ≤ (tsn - c.chunk.tsn).toNat then none
    else some (tsn - c.chunk.tsn).toNat

def get (q : PayloadQueue) (tsn : TSN) : Option InflightChunk :=
  (q.index tsn).bind fun i => q.chunks[i]?

/-- The chunk with the TSN is changed in place. -/
def modify (q : PayloadQueue) (tsn : TSN) (f : InflightChunk → InflightChunk) : PayloadQueue :=
  match q.index tsn with
  | none => q
  | some i => { q with chunks := q.chunks.modify i f }

/-- The chunk is acknowledged and lets its data go, and the number of its bytes. -/
def markAsAcked (q : PayloadQueue) (tsn : TSN) : PayloadQueue × Nat :=
  match q.get tsn with
  | none => (q, 0)
  | some c =>
    let nBytesAcked := c.chunk.userData.length
    ({ q.modify tsn fun c =>
        { c with acked := true, retransmit := false, chunk := { c.chunk with userData := [] } } with
        nBytes := q.nBytes - nBytesAcked },
      nBytesAcked)

def markAllToRetrasmit (q : PayloadQueue) : PayloadQueue :=
  { q with chunks := q.chunks.map fun c => if c.acked then c else { c with retransmit := true } }

def getNumBytes (q : PayloadQueue) : Int := q.nBytes

def size (q : PayloadQueue) : Nat := q.chunks.length

end PayloadQueue

end PionBridge.Sctp
