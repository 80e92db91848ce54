import PionBridge.Lib.BitRing
import PionBridge.Sctp.Util

/-!
# `PionBridge.Sctp.ReceivePayloadQueue`: the TSNs that have arrived

The receiver's queue of `receive_payload_queue.go`. It keeps no chunks, only which TSNs behind the
cumulative TSN have arrived, as bits of a ring of words: the TSN `t` has the bit `t % 64` of the
word `t / 64 % words`. `getGapAckBlocks` reads the ring word by word.

The two loops that move through the ring by words take a bound on their number of turns. The bound
they are called with is enough (`Proofs.Sctp.ReceivePayloadQueue`, `Proofs.Sctp.GapAckBlocks`).
-/

set_option autoImplicit false

namespace PionBridge.Sctp

open PionBridge.Lib

/-- `gapAckBlock`: the offsets of the first and the last TSN of a block from the cumulative TSN. -/
structure GapAckBlock where
  start : BitVec 16
  stop : BitVec 16
deriving DecidableEq, Repr

structure ReceivePayloadQueue where
  tailTSN : TSN
  chunkSize : Int
  tsnBitmask : List (BitVec 64)
  dupTSN : List TSN
  maxTSNOffset : BitVec 32
  cumulativeTSN : TSN
deriving DecidableEq, Repr

def newReceivePayloadQueue (maxTSNOffset : BitVec 32) : ReceivePayloadQueue :=
  let rounded := ((maxTSNOffset + 63#32) / 64#32) * 64#32
  { tailTSN := 0
    chunkSize := 0
    tsnBitmask := List.replicate (rounded / 64#32).toNat 0
    dupTSN := []
    maxTSNOffset := rounded
    cumulativeTSN := 0 }

def avgChunkSize : Nat := 500
def minTSNOffset : Nat := 2000
def maxTSNOffset : Nat := 40000

/-- How far behind the cumulative TSN a chunk may be, by the size of the receive buffer. The product
is one of 32 bits. -/
def getMaxTSNOffset (maxReceiveBufferSize : BitVec 32) : BitVec 32 :=
  BitVec.ofNat 32
    (min (max ((maxReceiveBufferSize * 4#32).toNat / avgChunkSize) minTSNOffset) maxTSNOffset)

/-- `bits.TrailingZeros64` from `start` on, and whether there is such a bit before `stop`. -/
def getFirstNonZeroBit (val : BitVec 64) (start stop : Nat) : Nat × Bool :=
  let i := trailingZeros (val >>> start)
  (i + start, decide (i + start < stop))

def getFirstZeroBit (val : BitVec 64) (start stop : Nat) : Nat × Bool :=
  getFirstNonZeroBit (~~~val) start stop

namespace ReceivePayloadQueue

def init (q : ReceivePayloadQueue) (cumulativeTSN : TSN) : ReceivePayloadQueue :=
  { q with
    cumulativeTSN := cumulativeTSN
    tailTSN := cumulativeTSN
    chunkSize := 0
    tsnBitmask := q.tsnBitmask.map fun _ => 0
    dupTSN := [] }

/-- The word that holds the bit of `tsn`. -/
def word (q : ReceivePayloadQueue) (tsn : TSN) : BitVec 64 :=
  q.tsnBitmask.getD (ringIndex q.tsnBitmask.length tsn.toNat) 0

def hasChunk (q : ReceivePayloadQueue) (tsn : TSN) : Bool :=
  if q.chunkSize = 0 ∨ sna32LTE tsn q.cumulativeTSN ∨ sna32GT tsn q.tailTSN then false
  else q.word tsn &&& (1#64 <<< (tsn.toNat % 64)) != 0

def canPush (q : ReceivePayloadQueue) (tsn : TSN) : Bool :=
  !(q.hasChunk tsn || sna32LTE tsn q.cumulativeTSN ||
    sna32GT tsn (q.cumulativeTSN + q.maxTSNOffset))

/-- Records the TSN, or reports a duplicate, or drops what is too far ahead. -/
def push (q : ReceivePayloadQueue) (tsn : TSN) : ReceivePayloadQueue × Bool :=
  if sna32GT tsn (q.cumulativeTSN + q.maxTSNOffset) then (q, false)
  else if sna32LTE tsn q.cumulativeTSN || q.hasChunk tsn then
    ({ q with dupTSN := q.dupTSN ++ [tsn] }, false)
  else
    ({ q with
        tsnBitmask := ringModify q.tsnBitmask tsn.toNat fun v => v ||| 1#64 <<< (tsn.toNat % 64)
        chunkSize := q.chunkSize + 1
        tailTSN := if sna32GT tsn q.tailTSN then tsn else q.tailTSN }, true)

/-- Moves the cumulative TSN by one if the next TSN is there, or if it is forced to. -/
def pop (q : ReceivePayloadQueue) (force : Bool) : ReceivePayloadQueue × Bool :=
  let tsn := q.cumulativeTSN + 1#32
  if q.hasChunk tsn then
    ({ q with
        tsnBitmask :=
          ringModify q.tsnBitmask tsn.toNat fun v => v &&& ~~~(1#64 <<< (tsn.toNat % 64))
        chunkSize := q.chunkSize - 1
        cumulativeTSN := tsn }, true)
  else if force then
    ({ q with
        cumulativeTSN := tsn
        tailTSN := if q.chunkSize = 0 then tsn else q.tailTSN }, false)
  else (q, false)

/-- One turn of the loop of `clearTSNRange`: `n` bits of the word of `startTSN`. -/
def clearBits (q : ReceivePayloadQueue) (startTSN : TSN) (n : Nat) : ReceivePayloadQueue :=
  let mask := bitsMask n (startTSN.toNat % 64)
  { q with
    tsnBitmask := ringModify q.tsnBitmask startTSN.toNat fun v => v &&& ~~~mask
    chunkSize := q.chunkSize - popCount (q.word startTSN &&& mask) }

/-- The loop of `clearTSNRange`: `remaining` TSNs from `startTSN` on. -/
def clearLoop (q : ReceivePayloadQueue) (startTSN : TSN) (remaining : Nat) :
    Nat → ReceivePayloadQueue
  | 0 => q
  | fuel + 1 =>
    if remaining = 0 then q
    else
      let n := min remaining (64 - startTSN.toNat % 64)
      (q.clearBits startTSN n).clearLoop (startTSN + BitVec.ofNat 32 n) (remaining - n) fuel

def clearTSNRange (q : ReceivePayloadQueue) (startTSN endTSN : TSN) : ReceivePayloadQueue :=
  let remaining := (endTSN - startTSN + 1#32).toNat
  q.clearLoop startTSN remaining remaining

def advanceCumulativeTSN (q : ReceivePayloadQueue) (cumulativeTSN : TSN) : ReceivePayloadQueue :=
  if ¬ sna32LT q.cumulativeTSN cumulativeTSN then q
  else if q.chunkSize = 0 ∨ sna32LTE q.tailTSN cumulativeTSN then
    { q with
      tsnBitmask := q.tsnBitmask.map fun _ => 0
      chunkSize := 0
      cumulativeTSN := cumulativeTSN
      tailTSN := cumulativeTSN }
  else
    let q' := q.clearTSNRange (q.cumulativeTSN + 1#32) cumulativeTSN
    { q' with
      cumulativeTSN := cumulativeTSN
      tailTSN := if q'.chunkSize = 0 then cumulativeTSN else q'.tailTSN }

def popDuplicates (q : ReceivePayloadQueue) : ReceivePayloadQueue × List TSN :=
  ({ q with dupTSN := [] }, q.dupTSN)

/-- The variables of the loop of `getGapAckBlocks`. -/
structure GapScan where
  tsn : TSN
  findEnd : Bool
  start : BitVec 16
  blocks : List GapAckBlock

/-- One turn that looks for the first TSN of a block. -/
def findBlockStart (q : ReceivePayloadQueue) (s : GapScan) : GapScan :=
  let offset := s.tsn.toNat % 64
  match getFirstNonZeroBit (q.word s.tsn) offset 64 with
  | (nonZeroBit, true) =>
    let found := s.tsn + BitVec.ofNat 32 (nonZeroBit - offset)
    { s with tsn := found, start := (found - q.cumulativeTSN).setWidth 16, findEnd := true }
  | (_, false) => { s with tsn := s.tsn + BitVec.ofNat 32 (64 - offset) }

/-- One turn that looks for the end of a block, up to the test for the last TSN. -/
def findBlockEnd (q : ReceivePayloadQueue) (s : GapScan) : GapScan :=
  let offset := s.tsn.toNat % 64
  match getFirstZeroBit (q.word s.tsn) offset 64 with
  | (zeroBit, true) =>
    let next := s.tsn + BitVec.ofNat 32 (zeroBit - offset)
    let block := { start := s.start, stop := (next - 1#32 - q.cumulativeTSN).setWidth 16 }
    { s with
      tsn := next
      findEnd := false
      blocks := if sna32LTE next q.tailTSN then s.blocks ++ [block] else s.blocks }
  | (_, false) => { s with tsn := s.tsn + BitVec.ofNat 32 (64 - offset) }

/-- The loop of `getGapAckBlocks`. -/
def gapScan (q : ReceivePayloadQueue) (maxBlocks : Int) : GapScan → Nat → List GapAckBlock
  | s, 0 => s.blocks
  | s, fuel + 1 =>
    if sna32LTE s.tsn q.tailTSN ∧ (s.blocks.length : Int) < maxBlocks then
      if s.findEnd then
        let s' := q.findBlockEnd s
        if sna32GT s'.tsn q.tailTSN then
          -- no zero bit up to the last TSN
          s'.blocks ++ [{ start := s.start, stop := (q.tailTSN - q.cumulativeTSN).setWidth 16 }]
        else q.gapScan maxBlocks s' fuel
      else q.gapScan maxBlocks (q.findBlockStart s) fuel
    else s.blocks

/-- The blocks of TSNs that have arrived behind the cumulative TSN, at most `maxBlocks`. -/
def getGapAckBlocks (q : ReceivePayloadQueue) (maxBlocks : Int) : List GapAckBlock :=
  if q.chunkSize = 0 ∨ maxBlocks ≤ 0 then []
  else
    q.gapScan maxBlocks
      { tsn := q.cumulativeTSN + 1#32, findEnd := false, start := 0, blocks := [] }
      (2 * (q.tailTSN - q.cumulativeTSN).toNat + 2)

def getLastTSNReceived (q : ReceivePayloadQueue) : Option TSN :=
  if q.chunkSize = 0 then none else some q.tailTSN

def getcumulativeTSN (q : ReceivePayloadQueue) : TSN := q.cumulativeTSN

def size (q : ReceivePayloadQueue) : Int := q.chunkSize

end ReceivePayloadQueue

/-- The calls that change the queue. -/
inductive ReceiveCall where
  | init (cumulativeTSN : TSN)
  | push (tsn : TSN)
  | pop (force : Bool)
  | advanceCumulativeTSN (cumulativeTSN : TSN)
  | popDuplicates
deriving DecidableEq, Repr

def ReceivePayloadQueue.call (q : ReceivePayloadQueue) : ReceiveCall → ReceivePayloadQueue
  | .init cum => q.init cum
  | .push tsn => (q.push tsn).1
  | .pop force => (q.pop force).1
  | .advanceCumulativeTSN cum => q.advanceCumulativeTSN cum
  | .popDuplicates => q.popDuplicates.1

end PionBridge.Sctp
