import Mathlib.Data.List.Sort
import PionBridge.Sctp.PayloadData

/-!
# `PionBridge.Sctp.ReassemblyQueue`: from chunks to messages

The queue of a stream that puts the fragments of its messages together (`reassembly_queue.go`).
Chunks of DATA are grouped by stream sequence number (ordered) or found as runs of TSNs (unordered),
chunks of I-DATA by message identifier.

`sort.Slice` is a stable insertion sort here. It is the sort of the source wherever the comparison
is a linear order on the elements and no two of them are equal. `orderedMIDMap` only finds the
elements of `orderedMID` by their identifier and is left out. A reliable stream is never told to
give up messages, so the `forwardTSNFor...` functions are not here.
-/

set_option autoImplicit false

namespace PionBridge.Sctp

def sortChunksByTSN (a : List PayloadData) : List PayloadData :=
  a.insertionSort fun x y => sna32LT y.tsn x.tsn = false

def sortChunksByFSN (a : List PayloadData) : List PayloadData :=
  a.insertionSort fun x y => sna32LT y.fragmentSequenceNumber x.fragmentSequenceNumber = false

/-! ### The chunks of one message -/

/-- `chunkSet`: chunks of DATA that share a stream sequence number. -/
structure ChunkSet where
  ssn : SSN
  ppi : PPI
  chunks : List PayloadData
deriving DecidableEq, Repr

def newChunkSet (ssn : SSN) (ppi : PPI) : ChunkSet := { ssn, ppi, chunks := [] }

def sortChunksBySSN (a : List ChunkSet) : List ChunkSet :=
  a.insertionSort fun x y => sna16LT y.ssn x.ssn = false

/-- Each number is the one before it plus one. -/
def contiguous : List (BitVec 32) → Bool
  | [] => true
  | [_] => true
  | x :: y :: rest => y == x + 1#32 && contiguous (y :: rest)

/-- The first chunk begins a message, the last one ends it, and the numbers have no gap. -/
def completeBy (number : PayloadData → BitVec 32) (chunks : List PayloadData) : Bool :=
  match chunks.head?, chunks.getLast? with
  | some first, some last =>
    first.beginningFragment && last.endingFragment && contiguous (chunks.map number)
  | _, _ => false

namespace ChunkSet

def isComplete (set : ChunkSet) : Bool := completeBy PayloadData.tsn set.chunks

/-- The set with the chunk, and whether that completes it. A chunk with a known TSN is dropped. -/
def push (set : ChunkSet) (chunk : PayloadData) : ChunkSet × Bool :=
  if set.chunks.any fun c => c.tsn == chunk.tsn then (set, false)
  else
    let set' := { set with chunks := sortChunksByTSN (set.chunks ++ [chunk]) }
    (set', set'.isComplete)

end ChunkSet

/-- `chunkSetMID`: chunks of I-DATA that share a message identifier. -/
structure ChunkSetMID where
  mid : BitVec 32
  ppi : PPI
  chunks : List PayloadData
deriving DecidableEq, Repr

def newChunkSetMID (mid : BitVec 32) (ppi : PPI) : ChunkSetMID := { mid, ppi, chunks := [] }

namespace ChunkSetMID

def isComplete (set : ChunkSetMID) : Bool :=
  completeBy PayloadData.fragmentSequenceNumber set.chunks &&
    set.chunks.head?.any fun c => c.fragmentSequenceNumber == 0

/-- The set with the chunk, whether that completes it, and whether the chunk is taken. -/
def pushAndCheck (set : ChunkSetMID) (chunk : PayloadData) : ChunkSetMID × Bool × Bool :=
  if set.isComplete then (set, false, false)
  else if set.chunks.any fun c => c.fragmentSequenceNumber == chunk.fragmentSequenceNumber then
    (set, false, false)
  else
    let set' :=
      { set with
        ppi := if chunk.beginningFragment then chunk.payloadType else set.ppi
        chunks := sortChunksByFSN (set.chunks ++ [chunk]) }
    (set', set'.isComplete, true)

end ChunkSetMID

/-- `sort.Search`: the binary search for the first index at which `f` holds. -/
def searchLoop (f : Nat → Bool) (i j : Nat) : Nat :=
  if i < j then
    let h := (i + j) / 2
    if f h then searchLoop f i h else searchLoop f (h + 1) j
  else i
termination_by j - i
decreasing_by
  all_goals omega

def insertChunkSetByMID (a : List ChunkSetMID) (cset : ChunkSetMID) : List ChunkSetMID :=
  let insertAt := searchLoop
    (fun i => a[i]?.all fun set => !sna32LT set.mid cset.mid) 0 a.length
  a.take insertAt ++ cset :: a.drop insertAt

/-! ### The queue -/

structure ReassemblyQueue where
  si : StreamId
  /-- The stream sequence number of the next ordered message. -/
  nextSSN : SSN
  /-- The message identifier of the next ordered message of I-DATA. -/
  nextMID : BitVec 32
  ordered : List ChunkSet
  unordered : List ChunkSet
  unorderedChunks : List PayloadData
  orderedMID : List ChunkSetMID
  unorderedMID : List ChunkSetMID
  /-- The values of `unorderedMIDMap`, each found by its identifier. -/
  unorderedMIDMap : List ChunkSetMID
  useInterleaving : Bool
  nBytes : Nat
deriving DecidableEq, Repr

def newReassemblyQueue (si : StreamId) : ReassemblyQueue :=
  { si
    nextSSN := 0
    nextMID := 0
    ordered := []
    unordered := []
    unorderedChunks := []
    orderedMID := []
    unorderedMID := []
    unorderedMIDMap := []
    useInterleaving := false
    nBytes := 0 }

def maxReassemblyQueueMIDEntries : Nat := 1024

/-- `errReassemblyQueueMIDLimitExceeded`. -/
inductive ReassemblyError where
  | midLimitExceeded
deriving DecidableEq, Repr

/-- The loop of `findCompleteUnorderedChunkSet`: the run of chunks that is being followed, as its
start, its number of chunks and its last TSN. -/
def findComplete : Nat → Option (Nat × Nat × TSN) → List PayloadData → Option (Nat × Nat)
  | _, _, [] => none
  | i, run, chunk :: rest =>
    if chunk.beginningFragment then
      if chunk.endingFragment then some (i, 1)
      else findComplete (i + 1) (some (i, 1, chunk.tsn)) rest
    else
      match run with
      | none => findComplete (i + 1) none rest
      | some (startIdx, nChunks, lastTSN) =>
        if chunk.tsn ≠ lastTSN + 1#32 then findComplete (i + 1) none rest
        else if chunk.endingFragment then some (startIdx, nChunks + 1)
        else findComplete (i + 1) (some (startIdx, nChunks + 1, chunk.tsn)) rest

/-- What a read gives: no message yet, a message longer than the buffer, or a message. -/
inductive ReadResult where
  | tryAgain
  | shortBuffer (n : Nat)
  | message (data : List UInt8) (ppi : PPI)
deriving DecidableEq, Repr

/-- The loop that copies chunks into a buffer of `len` bytes: the bytes of all chunks, whether one
did not fit, and what was copied. -/
def copyChunks (len : Nat) (chunks : List PayloadData) : Nat × Bool × List UInt8 :=
  chunks.foldl
    (fun acc c =>
      if len < acc.1 + c.userData.length then (acc.1 + c.userData.length, true, acc.2.2)
      else (acc.1 + c.userData.length, acc.2.1, acc.2.2 ++ c.userData))
    (0, false, [])

namespace ReassemblyQueue

def subtractNumBytes (r : ReassemblyQueue) (n : Nat) : ReassemblyQueue :=
  { r with nBytes := r.nBytes - n }

def getNumBytes (r : ReassemblyQueue) : Nat := r.nBytes

/-- The complete message among the unordered chunks moves to the unordered sets. -/
def findCompleteUnorderedChunkSet (r : ReassemblyQueue) : Option (ChunkSet × ReassemblyQueue) :=
  match findComplete 0 none r.unorderedChunks with
  | none => none
  | some (startIdx, nChunks) =>
    let chunks := (r.unorderedChunks.drop startIdx).take nChunks
    let ppi := (chunks.head?.map PayloadData.payloadType).getD 0
    some ({ newChunkSet 0 ppi with chunks },
      { r with
        unorderedChunks :=
          r.unorderedChunks.take startIdx ++ r.unorderedChunks.drop (startIdx + nChunks) })

def pushUnordered (r : ReassemblyQueue) (chunk : PayloadData) : ReassemblyQueue × Bool :=
  let r :=
    { r with
      unorderedChunks := sortChunksByTSN (r.unorderedChunks ++ [chunk])
      nBytes := r.nBytes + chunk.userData.length }
  match r.findCompleteUnorderedChunkSet with
  | some (cset, r) => ({ r with unordered := r.unordered ++ [cset] }, true)
  | none => (r, false)

/-- A set that a fragment belongs to: it has its number and is of a fragmented message. -/
def accepts (chunk : PayloadData) (set : ChunkSet) : Bool :=
  set.ssn == chunk.streamSequenceNumber && set.chunks.head?.any PayloadData.isFragmented

def pushOrdered (r : ReassemblyQueue) (chunk : PayloadData) : ReassemblyQueue × Bool :=
  if sna16LT chunk.streamSequenceNumber r.nextSSN then (r, false)
  else
    let r' := { r with nBytes := r.nBytes + chunk.userData.length }
    let found := if chunk.isFragmented then r.ordered.findIdx? (accepts chunk) else none
    match found.bind fun i => r.ordered[i]?.map fun set => (i, set) with
    | some (i, set) =>
      let (set, complete) := set.push chunk
      ({ r' with ordered := r.ordered.set i set }, complete)
    | none =>
      -- the set is filled after it has found its place
      let (set, complete) :=
        (newChunkSet chunk.streamSequenceNumber chunk.payloadType).push chunk
      ({ r' with ordered := sortChunksBySSN (r.ordered ++ [set]) }, complete)

def hasQueuedUnorderedMID (r : ReassemblyQueue) (mid : BitVec 32) : Bool :=
  r.unorderedMID.any fun set => set.mid == mid

def unorderedMIDEntryCount (r : ReassemblyQueue) : Nat :=
  r.unorderedMIDMap.length + r.unorderedMID.length

/-- `unorderedMIDMap[mid] = set`. -/
def putUnorderedMID (r : ReassemblyQueue) (set : ChunkSetMID) : ReassemblyQueue :=
  { r with unorderedMIDMap := (r.unorderedMIDMap.filter fun s => s.mid != set.mid) ++ [set] }

def pushUnorderedIData (r : ReassemblyQueue) (chunk : PayloadData) :
    ReassemblyQueue × Except ReassemblyError Bool :=
  if r.hasQueuedUnorderedMID chunk.messageIdentifier then (r, .ok false)
  else
    let known := r.unorderedMIDMap.find? fun s => s.mid == chunk.messageIdentifier
    if known.isNone && r.unorderedMIDEntryCount ≥ maxReassemblyQueueMIDEntries then
      (r, .error .midLimitExceeded)
    else
      let cset := known.getD (newChunkSetMID chunk.messageIdentifier chunk.payloadType)
      let (cset, complete, accepted) := cset.pushAndCheck chunk
      if !accepted then (r, .ok false)
      else
        let r := { r with nBytes := r.nBytes + chunk.userData.length }
        if complete then
          ({ r with
              unorderedMIDMap :=
                r.unorderedMIDMap.filter fun s => s.mid != chunk.messageIdentifier
              unorderedMID := r.unorderedMID ++ [cset] },
            .ok true)
        else (r.putUnorderedMID cset, .ok false)

def pushOrderedIData (r : ReassemblyQueue) (chunk : PayloadData) :
    ReassemblyQueue × Except ReassemblyError Bool :=
  if sna32LT chunk.messageIdentifier r.nextMID then (r, .ok false)
  else
    let known := r.orderedMID.findIdx? fun s => s.mid == chunk.messageIdentifier
    match known.bind fun i => r.orderedMID[i]?.map fun set => (i, set) with
    | some (i, set) =>
      let (cset, complete, accepted) := set.pushAndCheck chunk
      if !accepted then (r, .ok false)
      else
        ({ r with
            orderedMID := r.orderedMID.set i cset
            nBytes := r.nBytes + chunk.userData.length },
          .ok complete)
    | none =>
      if r.orderedMID.length ≥ maxReassemblyQueueMIDEntries then (r, .error .midLimitExceeded)
      else
        let (cset, complete, _) :=
          (newChunkSetMID chunk.messageIdentifier chunk.payloadType).pushAndCheck chunk
        ({ r with
            orderedMID := insertChunkSetByMID r.orderedMID cset
            nBytes := r.nBytes + chunk.userData.length },
          .ok complete)

def pushIData (r : ReassemblyQueue) (chunk : PayloadData) :
    ReassemblyQueue × Except ReassemblyError Bool :=
  if chunk.streamIdentifier != r.si then (r, .ok false)
  else if chunk.unordered then r.pushUnorderedIData chunk
  else r.pushOrderedIData chunk

/-- The queue with the chunk, and whether a message is complete. -/
def pushWithError (r : ReassemblyQueue) (chunk : PayloadData) :
    ReassemblyQueue × Except ReassemblyError Bool :=
  if chunk.iData then { r with useInterleaving := true }.pushIData chunk
  else if chunk.streamIdentifier != r.si then (r, .ok false)
  else
    let (r, complete) := if chunk.unordered then r.pushUnordered chunk else r.pushOrdered chunk
    (r, .ok complete)

/-- A message of I-DATA for a buffer of `len` bytes. -/
def readMID (r : ReassemblyQueue) (len : Nat) : ReassemblyQueue × ReadResult :=
  match r.unorderedMID, r.orderedMID with
  | iSet :: rest, _ =>
    let (nTotal, short, data) := copyChunks len iSet.chunks
    if short then (r, .shortBuffer nTotal)
    else ({ r with unorderedMID := rest }.subtractNumBytes nTotal, .message data iSet.ppi)
  | [], iSet :: rest =>
    if !iSet.isComplete || sna32GT iSet.mid r.nextMID then (r, .tryAgain)
    else
      let (nTotal, short, data) := copyChunks len iSet.chunks
      if short then (r, .shortBuffer nTotal)
      else
        ({ r with
            orderedMID := rest
            nextMID := if iSet.mid == r.nextMID then r.nextMID + 1#32 else r.nextMID
          }.subtractNumBytes nTotal,
          .message data iSet.ppi)
  | [], [] => (r, .tryAgain)

/-- A message of DATA for a buffer of `len` bytes: the unordered ones first. -/
def readSSN (r : ReassemblyQueue) (len : Nat) : ReassemblyQueue × ReadResult :=
  match r.unordered, r.ordered with
  | cset :: rest, _ =>
    let (nTotal, short, data) := copyChunks len cset.chunks
    if short then (r, .shortBuffer nTotal)
    else ({ r with unordered := rest }.subtractNumBytes nTotal, .message data cset.ppi)
  | [], cset :: rest =>
    if !cset.isComplete || sna16GT cset.ssn r.nextSSN then (r, .tryAgain)
    else
      let (nTotal, short, data) := copyChunks len cset.chunks
      if short then (r, .shortBuffer nTotal)
      else
        ({ r with
            ordered := rest
            nextSSN := if cset.ssn == r.nextSSN then r.nextSSN + 1#16 else r.nextSSN
          }.subtractNumBytes nTotal,
          .message data cset.ppi)
  | [], [] => (r, .tryAgain)

def read (r : ReassemblyQueue) (len : Nat) : ReassemblyQueue × ReadResult :=
  if r.useInterleaving then r.readMID len else r.readSSN len

end ReassemblyQueue

end PionBridge.Sctp
