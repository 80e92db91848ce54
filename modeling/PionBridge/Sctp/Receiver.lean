import PionBridge.Sctp.ReassemblyQueue
import PionBridge.Sctp.Sender

/-!
# `PionBridge.Sctp.Receiver`: the receiving half of an association

The part of `association.go` that takes DATA chunks, passes them to the streams and makes SACKs. The
streams that the peer opens wait in a channel of 16 places for `AcceptStream`.
-/

set_option autoImplicit false

namespace PionBridge.Sctp

def acceptChSize : Nat := 16

/-- The receiver's fields of `Association`. -/
structure Receiver where
  state : AssociationState
  payloadQueue : ReceivePayloadQueue
  streams : List ReassemblyQueue
  acceptCh : List StreamId
  maxReceiveBufferSize : BitVec 32
  mtu : BitVec 32
deriving DecidableEq, Repr

namespace Receiver

def findStream (a : Receiver) (si : StreamId) : Option ReassemblyQueue :=
  a.streams.find? fun r => r.si == si

def putStream (a : Receiver) (r : ReassemblyQueue) : Receiver :=
  { a with streams := a.streams.map fun r' => if r'.si == r.si then r else r' }

/-- A new stream, if there is a place for it in the channel. -/
def createStream (a : Receiver) (si : StreamId) (accept : Bool) :
    Receiver × Option ReassemblyQueue :=
  let stream := newReassemblyQueue si
  if accept then
    if a.acceptCh.length < acceptChSize then
      ({ a with acceptCh := a.acceptCh ++ [si], streams := a.streams ++ [stream] }, some stream)
    else (a, none)
  else ({ a with streams := a.streams ++ [stream] }, some stream)

def getOrCreateStream (a : Receiver) (si : StreamId) (accept : Bool) :
    Receiver × Option ReassemblyQueue :=
  match a.findStream si with
  | some r => (a, some r)
  | none => a.createStream si accept

/-- `OpenStream`. -/
def openStream (a : Receiver) (si : StreamId) : Receiver := (a.getOrCreateStream si false).1

/-- `AcceptStream` takes the oldest new stream. -/
def acceptStream (a : Receiver) : Receiver := { a with acceptCh := a.acceptCh.tail }

def getMyReceiverWindowCredit (a : Receiver) : BitVec 32 :=
  let bytesQueued := a.streams.foldl (fun n r => n + BitVec.ofNat 32 r.getNumBytes) 0#32
  if bytesQueued ≥ a.maxReceiveBufferSize then 0 else a.maxReceiveBufferSize - bytesQueued

/-- The TSN is noted and the chunk goes to its stream. -/
def pushPayloadDataToStream (a : Receiver) (stream : ReassemblyQueue) (chunk : PayloadData) :
    Receiver × Bool :=
  let a := { a with payloadQueue := (a.payloadQueue.push chunk.tsn).1 }
  match stream.pushWithError chunk with
  | (r, .ok _) => (a.putStream r, true)
  | (r, .error _) => (a.putStream r, false)

/-- The receiver with the chunk, and whether `handleData` goes on. With a full buffer only chunks
before the last TSN are taken. -/
def acceptPayloadData (a : Receiver) (chunk : PayloadData) : Receiver × Bool :=
  match a.getOrCreateStream chunk.streamIdentifier true with
  | (a, none) => (a, false)
  | (a, some stream) =>
    if a.getMyReceiverWindowCredit > 0 then a.pushPayloadDataToStream stream chunk
    else
      match a.payloadQueue.getLastTSNReceived with
      | none => (a, true)
      | some lastTSN =>
        if sna32LT chunk.tsn lastTSN then a.pushPayloadDataToStream stream chunk else (a, true)

/-- The loop that moves the cumulative TSN on while the next one has arrived. Each turn takes a TSN
out of the queue. -/
def popLoop : Nat → ReceivePayloadQueue → ReceivePayloadQueue
  | 0, q => q
  | fuel + 1, q =>
    let (q', popped) := q.pop false
    if popped then popLoop fuel q' else q'

/-- `handlePeerLastTSNAndAcknowledgement` without the choice of when to acknowledge. -/
def handlePeerLastTSN (a : Receiver) : Receiver :=
  { a with payloadQueue := popLoop (a.payloadQueue.chunkSize.toNat + 1) a.payloadQueue }

/-- A DATA chunk arrives. -/
def handleData (a : Receiver) (chunk : PayloadData) : Receiver :=
  if !a.state.processes then a
  else if a.payloadQueue.canPush chunk.tsn then
    match a.acceptPayloadData chunk with
    | (a, false) => a
    | (a, true) => a.handlePeerLastTSN
  else a.handlePeerLastTSN

def selectiveAckHeaderSize : Nat := 12

/-- The number of gap blocks and duplicates that fit into a packet and into the length of a
chunk. -/
def maxSackEntries (mtu : BitVec 32) : Nat :=
  let headerSize := commonHeaderSize + chunkHeaderSize + selectiveAckHeaderSize
  if mtu.toNat > headerSize then
    min (mtu.toNat - headerSize) (65535 - chunkHeaderSize - selectiveAckHeaderSize) / 4
  else 0

def createSelectiveAckChunk (a : Receiver) : Receiver × SelectiveAck :=
  let maxEntries := maxSackEntries a.mtu
  let gapAckBlocks := a.payloadQueue.getGapAckBlocks maxEntries
  let (payloadQueue, duplicates) := a.payloadQueue.popDuplicates
  ({ a with payloadQueue },
    { cumulativeTSNAck := a.payloadQueue.getcumulativeTSN
      advertisedReceiverWindowCredit := a.getMyReceiverWindowCredit
      gapAckBlocks
      duplicateTSN := duplicates.take (min duplicates.length (maxEntries - gapAckBlocks.length)) })

/-- `ReadSCTP` when it does not wait. -/
def readSCTP (a : Receiver) (si : StreamId) (len : Nat) : Receiver × ReadResult :=
  match a.findStream si with
  | none => (a, .tryAgain)
  | some r =>
    let (r', result) := r.read len
    (a.putStream r', result)

end Receiver

end PionBridge.Sctp
