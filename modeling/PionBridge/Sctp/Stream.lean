import PionBridge.Sctp.PayloadData

/-!
# `PionBridge.Sctp.Stream`: the sending side of a stream

The part of `stream.go` that cuts a message into chunks and counts the bytes that are not
acknowledged yet. The receiving side of a stream is its reassembly queue. Streams are reliable here:
`reliabilityType` and `reliabilityValue` are left out, and so is the reset of a stream.
-/

set_option autoImplicit false

namespace PionBridge.Sctp

/-- The sender's part of a reliable `Stream`. -/
structure SendStream where
  streamIdentifier : StreamId
  sequenceNumber : SSN
  nextOrderedMID : BitVec 32
  nextUnorderedMID : BitVec 32
  unordered : Bool
  bufferedAmount : Nat
  bufferedAmountLow : Nat
deriving DecidableEq, Repr

def newSendStream (streamIdentifier : StreamId) : SendStream :=
  { streamIdentifier
    sequenceNumber := 0
    nextOrderedMID := 0
    nextUnorderedMID := 0
    unordered := false
    bufferedAmount := 0
    bufferedAmountLow := 0 }

namespace SendStream

/-- `SetReliabilityParams` with the type of a reliable stream. -/
def setReliabilityParams (s : SendStream) (unordered : Bool) : SendStream := { s with unordered }

/-- The loop of `packetize` on the rest of the message. It ends only for a positive
`maxPayloadSize`, and then makes at most one turn for each byte. -/
def packetizeLoop (maxPayloadSize : Nat) (chunk : PayloadData) :
    Nat → List UInt8 → Nat → BitVec 32 → List PayloadData
  | 0, _, _, _ => []
  | fuel + 1, raw, offset, fsn =>
    if raw.isEmpty then []
    else
      let fragmentSize := min maxPayloadSize raw.length
      { chunk with
        userData := raw.take fragmentSize
        beginningFragment := offset == 0
        endingFragment := raw.length - fragmentSize == 0
        fragmentSequenceNumber := fsn } ::
        packetizeLoop maxPayloadSize chunk fuel (raw.drop fragmentSize) (offset + fragmentSize)
          (fsn + 1#32)

/-- The chunks of a message, and whether they are unordered. -/
def packetize (s : SendStream) (useInterleaving : Bool) (maxPayloadSize : Nat) (raw : List UInt8)
    (ppi : PPI) : SendStream × List PayloadData × Bool :=
  -- DCEP messages are always ordered
  let unordered := ppi != payloadTypeWebRTCDCEP && s.unordered
  let mid :=
    if !useInterleaving then 0 else if unordered then s.nextUnorderedMID else s.nextOrderedMID
  let chunk : PayloadData :=
    { unordered
      beginningFragment := false
      endingFragment := false
      immediateSack := false
      tsn := 0
      streamIdentifier := s.streamIdentifier
      streamSequenceNumber := if useInterleaving then mid.setWidth 16 else s.sequenceNumber
      messageIdentifier := mid
      fragmentSequenceNumber := 0
      payloadType := ppi
      userData := []
      iData := useInterleaving }
  let s' :=
    { s with
      nextOrderedMID :=
        if useInterleaving && !unordered then s.nextOrderedMID + 1#32 else s.nextOrderedMID
      nextUnorderedMID :=
        if useInterleaving && unordered then s.nextUnorderedMID + 1#32 else s.nextUnorderedMID
      sequenceNumber :=
        if !useInterleaving && !unordered then s.sequenceNumber + 1#16 else s.sequenceNumber
      bufferedAmount := s.bufferedAmount + raw.length }
  (s', packetizeLoop maxPayloadSize chunk raw.length raw 0 0, unordered)

/-- What `WriteSCTP` takes back when the association refuses the chunks. -/
def rollback (s : SendStream) (useInterleaving unordered : Bool) (n : Nat) : SendStream :=
  { s with
    bufferedAmount := s.bufferedAmount - n
    nextOrderedMID :=
      if useInterleaving && !unordered then s.nextOrderedMID - 1#32 else s.nextOrderedMID
    nextUnorderedMID :=
      if useInterleaving && unordered then s.nextUnorderedMID - 1#32 else s.nextUnorderedMID
    sequenceNumber :=
      if !useInterleaving && !unordered then s.sequenceNumber - 1#16 else s.sequenceNumber }

/-- The bytes that were delivered are taken off, and whether the low mark is crossed. -/
def onBufferReleased (s : SendStream) (nBytesReleased : Nat) : SendStream × Bool :=
  if nBytesReleased = 0 then (s, false)
  else
    let bufferedAmount :=
      if s.bufferedAmount < nBytesReleased then 0 else s.bufferedAmount - nBytesReleased
    ({ s with bufferedAmount },
      decide (s.bufferedAmount > s.bufferedAmountLow) &&
        decide (bufferedAmount ≤ s.bufferedAmountLow))

end SendStream

end PionBridge.Sctp
