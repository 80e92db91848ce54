import PionBridge.Lib.StepSystem
import PionBridge.Sctp.Receiver

/-!
# `PionBridge.Sctp.Link`: one direction of an association

The sending half of one association, the receiving half of its peer, and the network between them.
The network keeps every chunk and every SACK that was ever sent, and delivers any of them at any
time, so it loses, repeats and reorders them. The applications on both ends act at any time too.
Streams are reliable, and the data travels in DATA chunks.

The lists of what was written and what was read are not part of the code, and neither is the record
of a failed SACK. They are what the results are about.
-/

set_option autoImplicit false

namespace PionBridge.Sctp

open PionBridge.Lib

/-- What of a chunk of DATA the wire carries: not the identifiers of I-DATA. -/
def PayloadData.onWire (c : PayloadData) : PayloadData :=
  { c with messageIdentifier := 0, fragmentSequenceNumber := 0 }

/-- A message as an application sees it. -/
structure Message where
  si : StreamId
  unordered : Bool
  data : List UInt8
  ppi : PPI
deriving DecidableEq, Repr

structure LinkConfig where
  initialTSN : TSN
  mtu : BitVec 32
  maxMessageSize : Nat
  minCwnd : BitVec 32
  cwndCAStep : BitVec 32
  /-- The size of the receiver's buffer, which is its first window too. -/
  maxReceiveBufferSize : BitVec 32
  receiverMtu : BitVec 32
deriving DecidableEq, Repr

/-- The payload of a chunk that fills a packet. -/
def LinkConfig.maxPayloadSize (cfg : LinkConfig) : Nat :=
  (cfg.mtu - BitVec.ofNat 32 (commonHeaderSize + chunkHeaderSize + payloadDataHeaderSize)).toNat

structure Link where
  sender : Sender
  receiver : Receiver
  wire : List PayloadData
  sacks : List SelectiveAck
  written : List Message
  delivered : List Message
  /-- The last error of `handleSack`. -/
  failure : Option Sender.SackError
deriving Repr

/-- Both ends after the handshake. -/
def Link.init (cfg : LinkConfig) : Link :=
  { sender :=
      { state := .established
        myNextTSN := cfg.initialTSN
        cumulativeTSNAckPoint := cfg.initialTSN - 1#32
        pendingQueue := newPendingQueue
        inflightQueue := newPayloadQueue
        streams := []
        maxPayloadSize := cfg.maxPayloadSize
        maxMessageSize := cfg.maxMessageSize
        mtu := cfg.mtu
        cwnd := max32 cfg.minCwnd (min32 (4#32 * cfg.mtu) (max32 (2#32 * cfg.mtu) 4380#32))
        ssthresh := cfg.maxReceiveBufferSize
        rwnd := cfg.maxReceiveBufferSize
        partialBytesAcked := 0
        minCwnd := cfg.minCwnd
        cwndCAStep := cfg.cwndCAStep
        inFastRecovery := false
        fastRecoverExitPoint := 0
        willRetransmitFast := false }
    receiver :=
      { state := .established
        payloadQueue :=
          (newReceivePayloadQueue (getMaxTSNOffset cfg.maxReceiveBufferSize)).init
            (cfg.initialTSN - 1#32)
        streams := []
        acceptCh := []
        maxReceiveBufferSize := cfg.maxReceiveBufferSize
        mtu := cfg.receiverMtu }
    wire := []
    sacks := []
    written := []
    delivered := []
    failure := none }

inductive LinkEvent where
  /-- The sender's application. -/
  | openStream (si : StreamId)
  | setReliabilityParams (si : StreamId) (unordered : Bool)
  | write (si : StreamId) (payload : List UInt8) (ppi : PPI)
  | shutdown
  /-- The sender's loops and timers. -/
  | gather (allow : List Bool) (rtx fast : Nat)
  | t3Timeout
  | markLost (tsn : TSN)
  | peerShutdown
  /-- The network. -/
  | deliver (j : Nat)
  | deliverSack (j : Nat)
  /-- The receiver's application and loops. -/
  | receiverOpen (si : StreamId)
  | receiverAccept
  | receiverState (state : AssociationState)
  | read (si : StreamId) (len : Nat)
  | sack
deriving DecidableEq, Repr

namespace Link

/-- A message that `WriteSCTP` takes. -/
def write (l : Link) (si : StreamId) (payload : List UInt8) (ppi : PPI) : Link :=
  match l.sender.writeSCTP si payload ppi with
  | (sender, .ok _) =>
    let unordered := ppi != payloadTypeWebRTCDCEP &&
      (l.sender.findStream si).any SendStream.unordered
    { l with sender, written := l.written ++ [{ si, unordered, data := payload, ppi }] }
  | (sender, .error _) => { l with sender }

def read (l : Link) (si : StreamId) (len : Nat) : Link :=
  let unordered := (l.receiver.findStream si).any fun r => !r.unordered.isEmpty
  match l.receiver.readSCTP si len with
  | (receiver, .message data ppi) =>
    { l with receiver, delivered := l.delivered ++ [{ si, unordered, data, ppi }] }
  | (receiver, _) => { l with receiver }

def gather (l : Link) (allow : List Bool) (rtx fast : Nat) : Link :=
  let (sender, out, _) := l.sender.gatherOutbound allow rtx fast
  { l with sender, wire := l.wire ++ out }

/-- `handleChunk` logs an error of `handleSack`, and the association goes on. -/
def deliverSack (l : Link) (sack : SelectiveAck) : Link :=
  match l.sender.handleSack sack with
  | .ok sender => { l with sender }
  | .error (e, sender) => { l with sender, failure := some e }

def step (l : Link) : LinkEvent → Option Link
  | .openStream si => some { l with sender := l.sender.openStream si }
  | .setReliabilityParams si unordered =>
    (l.sender.findStream si).map fun st =>
      { l with sender := l.sender.putStream (st.setReliabilityParams unordered) }
  | .write si payload ppi => some (l.write si payload ppi)
  | .shutdown => some { l with sender := l.sender.shutdown }
  | .gather allow rtx fast => some (l.gather allow rtx fast)
  | .t3Timeout => some { l with sender := l.sender.onT3Timeout }
  | .markLost tsn => some { l with sender := l.sender.markLost tsn }
  | .peerShutdown => some { l with sender := l.sender.handleShutdown }
  | .deliver j => l.wire[j]?.map fun c => { l with receiver := l.receiver.handleData c.onWire }
  | .deliverSack j => l.sacks[j]?.map l.deliverSack
  | .receiverOpen si => some { l with receiver := l.receiver.openStream si }
  | .receiverAccept => some { l with receiver := l.receiver.acceptStream }
  | .receiverState state => some { l with receiver := { l.receiver with state } }
  | .read si len => some (l.read si len)
  | .sack =>
    let (receiver, sack) := l.receiver.createSelectiveAckChunk
    some { l with receiver, sacks := l.sacks ++ [sack] }

/-- The ordered messages of a stream. -/
def ordered (si : StreamId) (ms : List Message) : List Message :=
  ms.filter fun m => m.si == si && !m.unordered

/-- The unordered messages of a stream. -/
def unordered (si : StreamId) (ms : List Message) : List Message :=
  ms.filter fun m => m.si == si && m.unordered

end Link

/-- The runs of a link. -/
def linkSystem (cfg : LinkConfig) : StepSystem Link LinkEvent where
  init := Link.init cfg
  step := Link.step

end PionBridge.Sctp
