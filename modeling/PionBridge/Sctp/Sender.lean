import PionBridge.Sctp.PayloadQueue
import PionBridge.Sctp.PendingQueue
import PionBridge.Sctp.ReceivePayloadQueue
import PionBridge.Sctp.Stream

/-!
# `PionBridge.Sctp.Sender`: the sending half of an association

The part of `association.go` that queues the chunks of messages, gives them TSNs, processes the
peer's SACKs and retransmits. Streams are reliable here: no chunk is abandoned. A SACK that fails
leaves what it had changed before. The timers and the measurements of round trips (RTO, RACK, tail
loss probes, bursts) decide when something is sent and are choices from outside:
`popPendingDataChunksToSend` takes the answers of the burst limit, and the retransmissions take how
many chunks pass before a limit ends the loop. The limits are the windows, the packets and the
burst, and each of them ends the loop.
-/

set_option autoImplicit false

namespace PionBridge.Sctp

/-- `chunkSelectiveAck`. -/
structure SelectiveAck where
  cumulativeTSNAck : TSN
  advertisedReceiverWindowCredit : BitVec 32
  gapAckBlocks : List GapAckBlock
  duplicateTSN : List TSN
deriving DecidableEq, Repr

/-- The states of an association. -/
inductive AssociationState where
  | closed
  | cookieWait
  | cookieEchoed
  | established
  | shutdownAckSent
  | shutdownPending
  | shutdownReceived
  | shutdownSent
deriving DecidableEq, Repr

/-- The states in which data and SACKs are processed. -/
def AssociationState.processes : AssociationState → Bool
  | .established | .shutdownPending | .shutdownReceived => true
  | _ => false

/-- The sender's fields of `Association`. -/
structure Sender where
  state : AssociationState
  myNextTSN : TSN
  cumulativeTSNAckPoint : TSN
  pendingQueue : PendingQueue
  inflightQueue : PayloadQueue
  streams : List SendStream
  maxPayloadSize : Nat
  maxMessageSize : Nat
  mtu : BitVec 32
  cwnd : BitVec 32
  ssthresh : BitVec 32
  rwnd : BitVec 32
  partialBytesAcked : BitVec 32
  minCwnd : BitVec 32
  cwndCAStep : BitVec 32
  inFastRecovery : Bool
  fastRecoverExitPoint : TSN
  willRetransmitFast : Bool
deriving DecidableEq, Repr

def max32 (a b : BitVec 32) : BitVec 32 := if a > b then a else b
def min32 (a b : BitVec 32) : BitVec 32 := if a < b then a else b

namespace Sender

def setCWND (s : Sender) (cwnd : BitVec 32) : Sender := { s with cwnd := max32 s.minCwnd cwnd }

/-- The user data that is buffered. -/
def bufferedAmount (s : Sender) : Int :=
  s.pendingQueue.getNumBytes + s.inflightQueue.getNumBytes

/-! ### Writing -/

/-- The errors of `WriteSCTP`. -/
inductive WriteError where
  | outboundPacketTooLarge
  | streamClosed
  | payloadDataStateNotExist
deriving DecidableEq, Repr

def findStream (s : Sender) (si : StreamId) : Option SendStream :=
  s.streams.find? fun st => st.streamIdentifier == si

def putStream (s : Sender) (st : SendStream) : Sender :=
  { s with
    streams :=
      s.streams.map fun st' => if st'.streamIdentifier == st.streamIdentifier then st else st' }

/-- `getOrCreateStream` for a stream that is opened here. -/
def openStream (s : Sender) (si : StreamId) : Sender :=
  match s.findStream si with
  | some _ => s
  | none => { s with streams := s.streams ++ [newSendStream si] }

/-- The chunks enter the pending queue. -/
def sendPayloadData (s : Sender) (chunks : List PayloadData) : Except WriteError Sender :=
  if s.state ≠ .established then .error .payloadDataStateNotExist
  else .ok { s with pendingQueue := chunks.foldl PendingQueue.push s.pendingQueue }

def writeSCTP (s : Sender) (si : StreamId) (payload : List UInt8) (ppi : PPI) :
    Sender × Except WriteError Nat :=
  if payload.length > s.maxMessageSize then (s, .error .outboundPacketTooLarge)
  else
    match s.findStream si with
    | none => (s, .error .streamClosed)
    | some st =>
      let (st', chunks, unordered) := st.packetize false s.maxPayloadSize payload ppi
      match (s.putStream st').sendPayloadData chunks with
      | .ok s' => (s', .ok payload.length)
      | .error e =>
        ((s.putStream st').putStream (st'.rollback false unordered payload.length), .error e)

/-! ### Sending -/

/-- The chunk that was looked at gets its TSN and moves to the chunks in flight. -/
def movePendingDataChunkToInflightQueue (s : Sender) (chunk : PayloadData) :
    Sender × PayloadData :=
  let chunk' := { chunk with tsn := s.myNextTSN }
  ({ s with
      pendingQueue := (s.pendingQueue.pop chunk).1
      myNextTSN := s.myNextTSN + 1#32
      inflightQueue := s.inflightQueue.pushNoCheck
        { chunk := chunk', acked := false, retransmit := false, nSent := 1, missIndicator := 0 } },
    chunk')

/-- The state of the loop of `popPendingDataChunksToSend`. -/
structure SendLoop where
  sender : Sender
  chunks : List PayloadData
  sisToReset : List StreamId
  bytesInPacket : Nat
  /-- How often the burst limit was asked. -/
  asked : Nat

/-- A chunk is sent. -/
def SendLoop.send (l : SendLoop) (chunk : PayloadData) (bytesInPacket : Nat) : SendLoop :=
  let sender :=
    { l.sender with rwnd := l.sender.rwnd - BitVec.ofNat 32 chunk.userData.length }
  let (sender, chunk') := sender.movePendingDataChunkToInflightQueue chunk
  { l with sender, chunks := l.chunks ++ [chunk'], bytesInPacket, asked := l.asked + 1 }

/-- The loop: a chunk is sent while the windows, the packet and the burst limit allow it. A chunk
without data stands for the end of a stream. -/
def popLoop (allow : List Bool) : Nat → SendLoop → SendLoop
  | 0, l => l
  | fuel + 1, l =>
    match l.sender.pendingQueue.peek with
    | none => l
    | some c =>
      let dataLen := BitVec.ofNat 32 c.userData.length
      if dataLen = 0 then
        popLoop allow fuel
          { l with
            sisToReset := l.sisToReset ++ [c.streamIdentifier]
            sender := { l.sender with pendingQueue := (l.sender.pendingQueue.pop c).1 } }
      else if BitVec.ofInt 32 l.sender.inflightQueue.getNumBytes + dataLen > l.sender.cwnd then l
      else if dataLen > l.sender.rwnd then l
      else if l.bytesInPacket = 0 then
        if c.chunkSizeInPacket + commonHeaderSize > l.sender.mtu.toNat then l
        else if !allow.getD l.asked true then l
        else popLoop allow fuel (l.send c (commonHeaderSize + c.chunkSizeInPacket))
      else if l.bytesInPacket + c.chunkSizeInPacket > l.sender.mtu.toNat then
        popLoop allow fuel { l with bytesInPacket := 0 }
      else if !allow.getD l.asked true then l
      else popLoop allow fuel (l.send c (l.bytesInPacket + c.chunkSizeInPacket))

/-- The chunks that are sent, and the streams whose end was reached. With nothing in flight one
chunk is sent whatever the windows say. -/
def popPendingDataChunksToSend (s : Sender) (allow : List Bool) :
    Sender × List PayloadData × List StreamId :=
  if s.pendingQueue.size ≤ 0 then (s, [], [])
  else
    let l := popLoop allow (2 * s.pendingQueue.size.toNat + 2)
      { sender := s, chunks := [], sisToReset := [], bytesInPacket := 0, asked := 0 }
    if !l.chunks.isEmpty || l.sender.inflightQueue.size ≠ 0 then
      (l.sender, l.chunks, l.sisToReset)
    else
      match l.sender.pendingQueue.peek with
      | none => (l.sender, l.chunks, l.sisToReset)
      | some c =>
        if c.userData.length > 0 ∧
            commonHeaderSize + c.chunkSizeInPacket ≤ l.sender.mtu.toNat ∧
            allow.getD l.asked true = true then
          let (sender, c') := l.sender.movePendingDataChunkToInflightQueue c
          (sender, [c'], l.sisToReset)
        else (l.sender, l.chunks, l.sisToReset)

/-! ### Acknowledgements -/

/-- The errors of a SACK. -/
inductive SackError where
  | inflightQueueTSNPop (tsn : TSN)
  | tsnRequestNotExist (tsn : TSN)
deriving DecidableEq, Repr

/-- What a function left that may return an error. An error does not undo what was changed before
it, so it comes with that. -/
def leftBy {σ : Type} : Except (SackError × σ) σ → σ
  | .ok s => s
  | .error (_, s) => s

/-- `bytesAckedPerStream[si] += n`. -/
def addBytes (bytes : List (StreamId × Nat)) (si : StreamId) (n : Nat) :
    List (StreamId × Nat) :=
  if bytes.any fun p => p.1 == si then
    bytes.map fun p => if p.1 == si then (p.1, p.2 + n) else p
  else bytes ++ [(si, n)]

/-- What `processSelectiveAck` works on. -/
structure AckWork where
  queue : PayloadQueue
  bytes : List (StreamId × Nat)
  inFastRecovery : Bool
  /-- The highest TSN that is newly acknowledged. -/
  htna : TSN

/-- The loop that pops the chunks up to the cumulative TSN. Each turn but the last pops one. -/
def popAcked (exitPoint cumulativeTSNAck : TSN) :
    Nat → TSN → AckWork → Except (SackError × AckWork) AckWork
  | 0, idx, w => .error (.inflightQueueTSNPop idx, w)
  | fuel + 1, idx, w =>
    if sna32LTE idx cumulativeTSNAck then
      match w.queue.pop idx with
      | none => .error (.inflightQueueTSNPop idx, w)
      | some (c, queue) =>
        popAcked exitPoint cumulativeTSNAck fuel (idx + 1#32)
          { w with
            queue
            bytes :=
              if c.acked then w.bytes
              else addBytes w.bytes c.chunk.streamIdentifier c.chunk.userData.length
            inFastRecovery := w.inFastRecovery && !(c.chunk.tsn == exitPoint) }
    else .ok w

/-- The offsets of a gap block. The counter has 16 bits, so a block up to the last offset goes on
at zero. -/
def blockOffsets (b : GapAckBlock) : List Nat :=
  List.range' b.start.toNat (b.stop.toNat + 1 - b.start.toNat) ++
    if b.stop = 65535#16 then [0] else []

def ackOffset (cumulativeTSNAck : TSN) (w : AckWork) (i : Nat) :
    Except (SackError × AckWork) AckWork :=
  let tsn := cumulativeTSNAck + BitVec.ofNat 32 i
  match w.queue.get tsn with
  | none => .error (.tsnRequestNotExist tsn, w)
  | some c =>
    let w' :=
      if c.acked then w
      else
        let (queue, nBytesAcked) := w.queue.markAsAcked tsn
        { w with queue, bytes := addBytes w.bytes c.chunk.streamIdentifier nBytesAcked }
    .ok { w' with htna := if sna32LT w'.htna tsn then tsn else w'.htna }

def processSelectiveAck (s : Sender) (sack : SelectiveAck) : Except (SackError × AckWork) AckWork :=
  let start : AckWork :=
    { queue := s.inflightQueue
      bytes := []
      inFastRecovery := s.inFastRecovery
      htna := sack.cumulativeTSNAck }
  match popAcked s.fastRecoverExitPoint sack.cumulativeTSNAck (s.inflightQueue.size + 1)
      (s.cumulativeTSNAckPoint + 1#32) start with
  | .error e => .error e
  | .ok w => (sack.gapAckBlocks.flatMap blockOffsets).foldlM (ackOffset sack.cumulativeTSNAck) w

def onCumulativeTSNAckPointAdvanced (s : Sender) (totalBytesAcked : Nat) : Sender :=
  let acked := BitVec.ofNat 32 totalBytesAcked
  if s.cwnd ≤ s.ssthresh then
    if !s.inFastRecovery && s.pendingQueue.size > 0 then
      s.setCWND (s.cwnd + min32 acked s.cwnd)
    else s
  else
    let s := { s with partialBytesAcked := s.partialBytesAcked + acked }
    if s.partialBytesAcked ≥ s.cwnd ∧ s.pendingQueue.size > 0 then
      { s with partialBytesAcked := s.partialBytesAcked - s.cwnd }.setCWND
        (s.cwnd + max32 s.mtu s.cwndCAStep)
    else s

/-- A chunk that a SACK reports as missing. The third report starts fast recovery. -/
def reportMissing (s : Sender) (htna tsn : TSN) (c : InflightChunk) : Sender :=
  if !c.acked && c.missIndicator < 3 then
    let s' :=
      { s with
        inflightQueue := s.inflightQueue.modify tsn fun c =>
          { c with missIndicator := c.missIndicator + 1 } }
    if c.missIndicator + 1 = 3 ∧ !s.inFastRecovery then
      let ssthresh := max32 (s.cwnd / 2#32) (4#32 * s.mtu)
      { s'.setCWND ssthresh with
        inFastRecovery := true
        fastRecoverExitPoint := htna
        ssthresh
        partialBytesAcked := 0
        willRetransmitFast := true }
    else s'
  else s

/-- The loop over the missing TSNs before `maxTSN`. A TSN outside the queue ends it. -/
def missingLoop (htna maxTSN : TSN) : Nat → TSN → Sender → Except (SackError × Sender) Sender
  | 0, tsn, s => .error (.tsnRequestNotExist tsn, s)
  | fuel + 1, tsn, s =>
    if sna32LT tsn maxTSN then
      match s.inflightQueue.get tsn with
      | none => .error (.tsnRequestNotExist tsn, s)
      | some c => missingLoop htna maxTSN fuel (tsn + 1#32) (s.reportMissing htna tsn c)
    else .ok s

/-- Each SACK counts the missing chunks, in fast recovery only when it moves the cumulative TSN. -/
def countMissing (s : Sender) (sack : SelectiveAck) (htna : TSN) (cumTSNAckPointAdvanced : Bool) :
    Except (SackError × Sender) Sender :=
  if !s.inFastRecovery || cumTSNAckPointAdvanced then
    let maxTSN :=
      if !s.inFastRecovery then htna
      else
        match sack.gapAckBlocks.getLast? with
        | none => sack.cumulativeTSNAck
        | some b => sack.cumulativeTSNAck + b.stop.setWidth 32
    missingLoop htna maxTSN (s.inflightQueue.size + 1) (sack.cumulativeTSNAck + 1#32) s
  else .ok s

def processFastRetransmission (s : Sender) (sack : SelectiveAck) (htna : TSN)
    (cumTSNAckPointAdvanced : Bool) : Except (SackError × Sender) Sender :=
  (s.countMissing sack htna cumTSNAckPointAdvanced).map fun s =>
    { s with
      willRetransmitFast :=
        s.willRetransmitFast || (s.inFastRecovery && cumTSNAckPointAdvanced) }

/-- The bytes that were acknowledged are released, stream by stream. -/
def releaseBytes (streams : List SendStream) (bytes : List (StreamId × Nat)) :
    List SendStream :=
  bytes.foldl
    (fun streams p => streams.map fun st =>
      if st.streamIdentifier == p.1 then (st.onBufferReleased p.2).1 else st)
    streams

/-- With nothing left in flight a shutdown goes on. -/
def postprocessSack (s : Sender) : Sender :=
  if s.inflightQueue.size > 0 then s
  else
    match s.state with
    | .shutdownPending => { s with state := .shutdownSent }
    | .shutdownReceived => { s with state := .shutdownAckSent }
    | _ => s

/-- What `processSelectiveAck` changes in the association, also when it fails. -/
def withWork (s : Sender) (w : AckWork) : Sender :=
  { s with inflightQueue := w.queue, inFastRecovery := w.inFastRecovery }

/-- What a SACK changes before the missing chunks are counted: the queue, the cumulative TSN, the
congestion window, the streams and the window of the receiver. -/
def settleSack (s : Sender) (sack : SelectiveAck) (w : AckWork) : Sender :=
  let s := s.withWork w
  let totalBytesAcked := (w.bytes.map Prod.snd).sum
  let s :=
    if sna32LT s.cumulativeTSNAckPoint sack.cumulativeTSNAck then
      { s with cumulativeTSNAckPoint := sack.cumulativeTSNAck }.onCumulativeTSNAckPointAdvanced
        totalBytesAcked
    else s
  let bytesOutstanding := BitVec.ofInt 32 s.inflightQueue.getNumBytes
  { s with
    streams := releaseBytes s.streams w.bytes
    rwnd :=
      if bytesOutstanding ≥ sack.advertisedReceiverWindowCredit then 0
      else sack.advertisedReceiverWindowCredit - bytesOutstanding }

/-- `handleSack`. An error of `processSelectiveAck` comes before the cumulative TSN moves and the
bytes are released, and one of `processFastRetransmission` comes after that. -/
def handleSack (s : Sender) (sack : SelectiveAck) : Except (SackError × Sender) Sender :=
  if !s.state.processes then .ok s
  else if sna32GT s.cumulativeTSNAckPoint sack.cumulativeTSNAck then .ok s
  else
    match s.processSelectiveAck sack with
    | .error (e, w) => .error (e, s.withWork w)
    | .ok w =>
      ((s.settleSack sack w).processFastRetransmission sack w.htna
        (sna32LT s.cumulativeTSNAckPoint sack.cumulativeTSNAck)).map postprocessSack

/-! ### Retransmission -/

/-- T3-rtx runs out. -/
def onT3Timeout (s : Sender) : Sender :=
  let ssthresh := max32 (s.cwnd / 2#32) (4#32 * s.mtu)
  let s := { s with ssthresh }.setCWND s.mtu
  let s :=
    if s.inFastRecovery then
      { s with
        inFastRecovery := false
        willRetransmitFast := false
        fastRecoverExitPoint := 0
        partialBytesAcked := 0 }
    else s
  { s with inflightQueue := s.inflightQueue.markAllToRetrasmit }

/-- RACK or a tail loss probe takes a chunk for lost. -/
def markLost (s : Sender) (tsn : TSN) : Sender :=
  match s.inflightQueue.get tsn with
  | none => s
  | some c =>
    if c.acked then s
    else
      { s with
        inflightQueue := s.inflightQueue.modify tsn fun c => { c with retransmit := true } }

/-- The first `count` chunks that `due` selects are sent again. -/
def resend (due : InflightChunk → Bool) (sent : InflightChunk → InflightChunk) :
    Nat → List InflightChunk → List InflightChunk × List PayloadData
  | 0, cs => (cs, [])
  | _, [] => ([], [])
  | count + 1, c :: cs =>
    if due c then
      let (cs', out) := resend due sent count cs
      (sent c :: cs', c.chunk :: out)
    else
      let (cs', out) := resend due sent (count + 1) cs
      (c :: cs', out)

/-- The chunks marked for retransmission, up to the limit of the windows, the packets and the
burst. -/
def getDataPacketsToRetransmit (s : Sender) (count : Nat) : Sender × List PayloadData :=
  let (chunks, out) := resend InflightChunk.retransmit
    (fun c => { c with retransmit := false, nSent := c.nSent + 1 }) count s.inflightQueue.chunks
  ({ s with inflightQueue := { s.inflightQueue with chunks } }, out)

/-- The chunks that were sent once and reported as missing three times. -/
def gatherOutboundFastRetransmissionPackets (s : Sender) (count : Nat) :
    Sender × List PayloadData :=
  if !s.willRetransmitFast then (s, [])
  else
    let (chunks, out) := resend
      (fun c => !c.acked && decide (c.nSent ≤ 1 ∧ 3 ≤ c.missIndicator))
      (fun c => { c with nSent := c.nSent + 1 }) count s.inflightQueue.chunks
    ({ s with willRetransmitFast := false, inflightQueue := { s.inflightQueue with chunks } }, out)

/-- The data packets of `gatherOutbound`: nothing new is sent once a shutdown has begun. -/
def gatherOutbound (s : Sender) (allow : List Bool) (rtx fast : Nat) :
    Sender × List PayloadData × List StreamId :=
  match s.state with
  | .established =>
    let (s, out1) := s.getDataPacketsToRetransmit rtx
    let (s, out2, sisToReset) := s.popPendingDataChunksToSend allow
    let (s, out3) := s.gatherOutboundFastRetransmissionPackets fast
    (s, out1 ++ out2 ++ out3, sisToReset)
  | .shutdownPending | .shutdownSent | .shutdownReceived =>
    let (s, out1) := s.getDataPacketsToRetransmit rtx
    let (s, out2) := s.gatherOutboundFastRetransmissionPackets fast
    (s, out1 ++ out2, [])
  | _ => (s, [], [])

/-! ### Shutdown -/

/-- `Shutdown`: a graceful end waits for the chunks in flight, not for those that are pending. -/
def shutdown (s : Sender) : Sender :=
  if s.state ≠ .established then s
  else
    { s with state := if s.inflightQueue.size = 0 then .shutdownSent else .shutdownPending }

def handleShutdown (s : Sender) : Sender :=
  match s.state with
  | .established =>
    { s with state := if s.inflightQueue.size > 0 then .shutdownReceived else .shutdownAckSent }
  | .shutdownSent => { s with state := .shutdownAckSent }
  | _ => s

end Sender

end PionBridge.Sctp
