import PionBridge.Sctp.PayloadData

/-!
# `PionBridge.Sctp.PendingQueue`: chunks that wait to be sent

The queue of `pending_queue.go` without interleaving: unordered chunks go first, but a message that
has been begun is finished before another one is. The source compares the chunk that was popped with
the one that was looked at by its address, the model by its value.
-/

set_option autoImplicit false

namespace PionBridge.Sctp

/-- The errors of `pop`. -/
inductive PendingError where
  | unexpectedChunkPoppedUnordered
  | unexpectedChunkPoppedOrdered
  | unexpectedQState
deriving DecidableEq, Repr

/-- `messagePendingQueuePolicy`. -/
structure MessagePolicy where
  unorderedQueue : List PayloadData
  orderedQueue : List PayloadData
  selected : Bool
  unorderedIsSelected : Bool
deriving DecidableEq, Repr

def newMessagePolicy : MessagePolicy :=
  { unorderedQueue := [], orderedQueue := [], selected := false, unorderedIsSelected := false }

namespace MessagePolicy

def push (q : MessagePolicy) (chunk : PayloadData) : MessagePolicy :=
  if chunk.unordered then { q with unorderedQueue := q.unorderedQueue ++ [chunk] }
  else { q with orderedQueue := q.orderedQueue ++ [chunk] }

def peek (q : MessagePolicy) : Option PayloadData :=
  if q.selected then
    if q.unorderedIsSelected then q.unorderedQueue.head? else q.orderedQueue.head?
  else q.unorderedQueue.head?.or q.orderedQueue.head?

/-- The queue without the first chunk of one of its two parts, and that chunk. -/
def popFrom (q : MessagePolicy) (unordered : Bool) : MessagePolicy × Option PayloadData :=
  if unordered then ({ q with unorderedQueue := q.unorderedQueue.tail }, q.unorderedQueue.head?)
  else ({ q with orderedQueue := q.orderedQueue.tail }, q.orderedQueue.head?)

/-- The error of a chunk that is not the expected one. -/
def unexpected (unordered : Bool) : PendingError :=
  if unordered then .unexpectedChunkPoppedUnordered else .unexpectedChunkPoppedOrdered

def popSelected (q : MessagePolicy) (chunk : PayloadData) :
    MessagePolicy × Except PendingError Unit :=
  let (q', popped) := q.popFrom q.unorderedIsSelected
  if popped ≠ some chunk then (q', .error (unexpected q.unorderedIsSelected))
  else ({ q' with selected := if chunk.endingFragment then false else q'.selected }, .ok ())

def popNewSelection (q : MessagePolicy) (chunk : PayloadData) :
    MessagePolicy × Except PendingError Unit :=
  let (q', popped) := q.popFrom chunk.unordered
  if popped ≠ some chunk then (q', .error (unexpected chunk.unordered))
  else if chunk.endingFragment then (q', .ok ())
  else ({ q' with selected := true, unorderedIsSelected := chunk.unordered }, .ok ())

def pop (q : MessagePolicy) (chunk : PayloadData) : MessagePolicy × Except PendingError Unit :=
  if q.selected then q.popSelected chunk
  else if !chunk.beginningFragment then (q, .error .unexpectedQState)
  else q.popNewSelection chunk

end MessagePolicy

structure PendingQueue where
  nBytes : Int
  nChunks : Int
  policy : MessagePolicy
deriving DecidableEq, Repr

def newPendingQueue : PendingQueue := { nBytes := 0, nChunks := 0, policy := newMessagePolicy }

namespace PendingQueue

def push (q : PendingQueue) (chunk : PayloadData) : PendingQueue :=
  { nBytes := q.nBytes + chunk.userData.length
    nChunks := q.nChunks + 1
    policy := q.policy.push chunk }

def peek (q : PendingQueue) : Option PayloadData := q.policy.peek

def pop (q : PendingQueue) (chunk : PayloadData) : PendingQueue × Except PendingError Unit :=
  match q.policy.pop chunk with
  | (policy, .error e) => ({ q with policy }, .error e)
  | (policy, .ok _) =>
    let nBytes := q.nBytes - chunk.userData.length
    ({ nBytes := if nBytes < 0 then 0 else nBytes, nChunks := q.nChunks - 1, policy }, .ok ())

def getNumBytes (q : PendingQueue) : Int := q.nBytes

def size (q : PendingQueue) : Int := q.nChunks

end PendingQueue

end PionBridge.Sctp
