import PionBridge.Sctp.Util

/-!
# `PionBridge.Sctp.PayloadData`: DATA and I-DATA chunks

The fields of `chunkPayloadData` that travel. What only the sender keeps for a chunk (whether it is
acknowledged, how often it was sent) is in `Sctp.PayloadQueue`.
-/

set_option autoImplicit false

namespace PionBridge.Sctp

/-- A payload protocol identifier. -/
abbrev PPI := BitVec 32

def payloadTypeWebRTCDCEP : PPI := 50

abbrev StreamId := BitVec 16

/-- `chunkPayloadData`. -/
structure PayloadData where
  unordered : Bool
  beginningFragment : Bool
  endingFragment : Bool
  immediateSack : Bool
  tsn : TSN
  streamIdentifier : StreamId
  streamSequenceNumber : SSN
  messageIdentifier : BitVec 32
  fragmentSequenceNumber : BitVec 32
  payloadType : PPI
  userData : List UInt8
  iData : Bool
deriving DecidableEq, Repr

/-- A received chunk has no link to a head, so only the flags count. -/
def PayloadData.isFragmented (c : PayloadData) : Bool :=
  !c.beginningFragment || !c.endingFragment

def chunkHeaderSize : Nat := 4
def commonHeaderSize : Nat := 12
def payloadDataHeaderSize : Nat := 12
def iDataHeaderSize : Nat := 16

def PayloadData.chunkSize (c : PayloadData) : Nat :=
  if c.iData then chunkHeaderSize + iDataHeaderSize + c.userData.length
  else chunkHeaderSize + payloadDataHeaderSize + c.userData.length

def PayloadData.chunkSizeInPacket (c : PayloadData) : Nat :=
  c.chunkSize + getPadding c.chunkSize

end PionBridge.Sctp
