import PionBridge.Lib.GoMap
import PionBridge.Lib.StepSystem

/-!
# `PionBridge.Server.Registry`: the handle map (`go/internal/pionserver/registry.go`)

The five maps of `Registry` and the operations on them. An operation is a function on the
maps. What it reads from outside is an argument: the generated handle, the readings of
`time.Now()`, the order in which `range` visits `lastSeen`, and the connection states.

Three pieces of the source do not end by their own shape: the two loops that follow
`parent` (in `Touch` and in `Cleanup`) and the recursion of `collectLocked`. They run on
fuel and return `none` when the fuel is used up. `Registry.fuel` is one more than the
number of parent entries. `Proofs/Registry/Invariant.lean` shows that it always suffices.

`collectLocked` keeps the handle beside each closer and each send state it collects, and
`released` is the list of its `Trace.ReleaseDC` calls. The source keeps only the objects.

The end of the file is the system of all sequences of operations. Its state has one part
the source does not store: `used`, every handle generated and every parent string passed
so far.
-/

set_option autoImplicit false

namespace PionBridge.Server

open PionBridge.Lib

/-- A handle: the text of a version 4 UUID without hyphens. -/
abbrev Handle := String

/-- `int64(time.Second)`. Clock readings (`time.Now().UnixNano()`), stamps and ages are
integers in nanoseconds. -/
def second : Int := 1000000000

/-- What the registry can tell about a resource: a `*webrtc.PeerConnection`, a
`*webrtc.DataChannel`, another `io.Closer`, or a value without `Close`. -/
inductive ResourceKind
  | peerConnection
  | dataChannel
  | closer
  | plain
  deriving DecidableEq, Repr

/-- A registered `interface{}` value: its dynamic type and the object it points to. -/
structure Resource where
  kind : ResourceKind
  obj : Nat
  deriving DecidableEq, Repr

/-- `_, ok := res.(io.Closer)`. Both pion types have a `Close() error` method. -/
def Resource.isCloser (res : Resource) : Bool := res.kind != .plain

/-- The pointer to a `DCSendState`. -/
abbrev StateRef := Nat

structure Registry where
  resources : GoMap Handle Resource
  parent : GoMap Handle Handle
  children : GoMap Handle (List Handle)
  dcSendStates : GoMap Handle StateRef
  lastSeen : GoMap Handle Int
  deriving DecidableEq

namespace Registry

/-- `NewRegistry`. -/
def new : Registry := ⟨∅, ∅, ∅, ∅, ∅⟩

/-- Enough fuel for the loops and the recursion below. -/
def fuel (r : Registry) : Nat := r.parent.keys.card + 1

/-- `newStampLocked`. -/
def newStampLocked (r : Registry) (handle : Handle) (now : Int) : Registry :=
  { r with lastSeen := r.lastSeen.set handle now }

/-- `touchStamp` on the stamp `st`. A store happens only when the stamp is more than a
second old. The `Load` and the `Store` of the source are one step here: of two calls that come
between each other, the source may keep the older reading of the clock. -/
def touchStamp (now st : Int) : Int := if now - st > second then now else st

/-- `touchStamp` on the stamp of `handle`. A missing entry is the `nil` pointer, which the
source skips. -/
def touchEntry (lastSeen : GoMap Handle Int) (now : Int) (handle : Handle) :
    GoMap Handle Int :=
  match lastSeen.get handle with
  | none => lastSeen
  | some st => lastSeen.set handle (touchStamp now st)

/-- `RegisterDCSendState`. The flag is the source's result. -/
def registerDCSendState (r : Registry) (handle : Handle) (state : StateRef) :
    Bool × Registry :=
  match r.dcSendStates.get handle with
  | some _ => (false, r)
  | none => (true, { r with dcSendStates := r.dcSendStates.set handle state })

/-- `LookupDCSendState`. -/
def lookupDCSendState (r : Registry) (handle : Handle) : Option StateRef :=
  r.dcSendStates.get handle

/-- `removeDCSendStateLocked`, and `RemoveDCSendState` which only adds the lock. -/
def removeDCSendState (r : Registry) (handle : Handle) : Option StateRef × Registry :=
  match r.dcSendStates.get handle with
  | some state => (some state, { r with dcSendStates := r.dcSendStates.delete handle })
  | none => (none, r)

/-- `Register`, with the generated handle and the clock reading of its stamp. -/
def register (r : Registry) (resource : Resource) (handle : Handle) (now : Int) :
    Registry :=
  { r with resources := r.resources.set handle resource }.newStampLocked handle now

/-- `RegisterChild`. The parent string is stored whether or not it is registered. -/
def registerChild (r : Registry) (resource : Resource) (parentHandle handle : Handle)
    (now : Int) : Registry :=
  { r with
    resources := r.resources.set handle resource
    parent := r.parent.set handle parentHandle
    children := r.children.set parentHandle
      ((r.children.get parentHandle).getD [] ++ [handle]) }.newStampLocked handle now

/-- `Lookup`. It refreshes the stamp of the handle itself, not those of its ancestors. -/
def lookup (r : Registry) (handle : Handle) (now : Int) : Option Resource × Registry :=
  match r.resources.get handle with
  | none => (none, r)
  | some res => (some res, { r with lastSeen := touchEntry r.lastSeen now handle })

/-- The loop of `Touch` after the first stamp: the handles whose stamps it appends to
`chain`, nearest ancestor first. -/
def chaseChain (parent : GoMap Handle Handle) : Nat → Handle → Option (List Handle)
  | 0, _ => none
  | fuel + 1, h =>
    match parent.get h with
    | none => some []
    | some p => (chaseChain parent fuel p).map (p :: ·)

/-- The final loop of `Touch`. Every `touchStamp` call has a clock reading of its own. -/
def touchAll (lastSeen : GoMap Handle Int) (clock : Nat → Int) :
    List Handle → GoMap Handle Int
  | [] => lastSeen
  | h :: hs => touchAll (touchEntry lastSeen (clock 0) h) (fun i => clock (i + 1)) hs

/-- `Touch`. -/
def touch (r : Registry) (handle : Handle) (clock : Nat → Int) : Option Registry :=
  match r.lastSeen.get handle with
  -- Without a stamp of its own the handle refreshes nothing, its ancestors included.
  | none => some r
  | some _ =>
    (chaseChain r.parent r.fuel handle).map fun chain =>
      { r with lastSeen := touchAll r.lastSeen clock (handle :: chain) }

/-- What `collectLocked` accumulates. -/
structure Collected where
  closers : List (Handle × Resource) := []
  states : List (Handle × StateRef) := []
  released : List Handle := []
  deriving DecidableEq, Repr

/-- The last part of `collectLocked`, after the children: everything about `handle` leaves
the maps, and its send state and closer join the lists. -/
def detachLocked (r : Registry) (handle : Handle) (res : Resource) (acc : Collected) :
    Registry × Collected :=
  let (state, r) := r.removeDCSendState handle
  let acc := match state with
    | some s => { acc with states := acc.states ++ [(handle, s)] }
    | none => acc
  let acc := if res.isCloser then { acc with closers := acc.closers ++ [(handle, res)] }
    else acc
  let r := match r.parent.get handle with
    | some parentHandle =>
      let children := match r.children.get parentHandle with
        | some kids =>
          if handle ∈ kids then r.children.set parentHandle (kids.erase handle)
          else r.children
        -- In a cascade the entry of the parent is gone already.
        | none => r.children
      { r with children := children, parent := r.parent.delete handle }
    | none => r
  ({ r with
      resources := r.resources.delete handle
      lastSeen := r.lastSeen.delete handle },
    { acc with released := acc.released ++ [handle] })

/-- `collectLocked`. The children entry is deleted before the recursion, which therefore
iterates over a list that the calls do not edit. -/
def collectLocked : Nat → Registry → Handle → Collected → Option (Registry × Collected)
  | 0, _, _, _ => none
  | fuel + 1, r, handle, acc =>
    match r.resources.get handle with
    | none => some (r, acc)
    | some res =>
      -- Children first, so that they stand before the handle in both lists.
      (match r.children.get handle with
      | some kids =>
        kids.foldlM (fun (s : Registry × Collected) kid => collectLocked fuel s.1 kid s.2)
          ({ r with children := r.children.delete handle }, acc)
      | none => some (r, acc)).map fun (s : Registry × Collected) =>
        s.1.detachLocked handle res s.2

/-- One shutdown call of `closeCollected`. -/
inductive CloseEvent
  | closeState (handle : Handle) (state : StateRef)
  | close (handle : Handle) (res : Resource)
  deriving DecidableEq, Repr

/-- `closeCollected`: all send states, then all closers. -/
def closeCollected (c : Collected) : List CloseEvent :=
  c.states.map (fun s => .closeState s.1 s.2) ++ c.closers.map (fun s => .close s.1 s.2)

/-- The locked part of `Delete`: the error, or what the call has to shut down. -/
def deleteLocked (r : Registry) (handle : Handle) :
    Option (Except String Collected × Registry) :=
  match r.resources.get handle with
  | none => some (.error ("handle not found: " ++ handle), r)
  | some _ => (collectLocked r.fuel r handle {}).map fun s => (.ok s.2, s.1)

/-- `Delete`: the error, or the shutdown calls in their order. -/
def delete (r : Registry) (handle : Handle) :
    Option (Except String (List CloseEvent) × Registry) :=
  (r.deleteLocked handle).map fun s => (s.1.map closeCollected, s.2)

/-- `isLivePeerConnection`. `connected` tells for each PeerConnection whether its
`ConnectionState()` is `PeerConnectionStateConnected`. -/
def isLivePeerConnection (connected : Nat → Bool) : Option Resource → Bool
  | some ⟨.peerConnection, obj⟩ => connected obj
  | _ => false

/-- The loop of `Cleanup` that finds the end of the parent chain. -/
def chaseRoot (parent : GoMap Handle Handle) : Nat → Handle → Option Handle
  | 0, _ => none
  | fuel + 1, h =>
    match parent.get h with
    | none => some h
    | some p => chaseRoot parent fuel p

/-- What one `Cleanup` call reads from outside. `order` is the order in which `range`
visits `lastSeen`, and `clock k i` is the reading of the `i`-th `touchStamp` call in the
`Touch` of the `k`-th spared handle. -/
structure Sweep where
  maxAge : Int
  now : Int
  order : List Handle
  connected : Nat → Bool
  clock : Nat → Nat → Int

/-- The read-locked pass: the expired handles in visiting order, each with `roots[handle]`. -/
def scan (r : Registry) (maxAge now : Int) : List Handle →
    Option (List (Handle × Option Resource))
  | [] => some []
  | h :: hs =>
    match r.lastSeen.get h with
    | none => r.scan maxAge now hs
    | some st =>
      if now - st ≤ maxAge then r.scan maxAge now hs
      else
        -- The root can be a string that no resource is registered under.
        (chaseRoot r.parent r.fuel h).bind fun root =>
          (r.scan maxAge now hs).map fun rest => (h, r.resources.get root) :: rest

/-- The liveness pass: the handles to reap. -/
def reapList (connected : Nat → Bool) (expired : List (Handle × Option Resource)) :
    List Handle :=
  (expired.filter fun e => !isLivePeerConnection connected e.2).map (·.1)

/-- The liveness pass: the handles to spare. -/
def sparedList (connected : Nat → Bool) (expired : List (Handle × Option Resource)) :
    List Handle :=
  (expired.filter fun e => isLivePeerConnection connected e.2).map (·.1)

/-- The write-locked pass. A handle that an earlier cascade removed is a no-op. -/
def reapLocked (fuel : Nat) (r : Registry) (reap : List Handle) :
    Option (Registry × Collected) :=
  reap.foldlM (fun (s : Registry × Collected) h => collectLocked fuel s.1 h s.2) (r, {})

/-- The final pass of `Cleanup`: `Touch` on every spared handle. -/
def refresh (r : Registry) (clock : Nat → Nat → Int) : List Handle → Option Registry
  | [] => some r
  | h :: hs => (r.touch h (clock 0)).bind fun r => r.refresh (fun k => clock (k + 1)) hs

/-- `Cleanup`, uninterrupted: the shutdown calls in their order, and the registry after
the refresh. -/
def cleanup (r : Registry) (s : Sweep) : Option (List CloseEvent × Registry) :=
  (r.scan s.maxAge s.now s.order).bind fun expired =>
    if expired.isEmpty then some ([], r)
    else
      -- Uninterrupted, the liveness pass reads one state of the connections.
      (reapLocked r.fuel r (reapList s.connected expired)).bind fun reaped =>
        (reaped.1.refresh s.clock (sparedList s.connected expired)).map fun r =>
          (closeCollected reaped.2, r)

end Registry

/-! ### Sequences of operations -/

/-- One call on the registry with what it reads from outside. -/
inductive RegistryOp
  | register (resource : Resource) (handle : Handle) (now : Int)
  | registerChild (resource : Resource) (parentHandle handle : Handle) (now : Int)
  | registerDCSendState (handle : Handle) (state : StateRef)
  | removeDCSendState (handle : Handle)
  | lookup (handle : Handle) (now : Int)
  | touch (handle : Handle) (clock : Nat → Int)
  | delete (handle : Handle)
  | cleanup (s : Registry.Sweep)

/-- The registry with the record of the strings used. -/
structure RegistryWorld where
  reg : Registry
  used : List Handle

/-- The effect of one call on the maps. -/
def Registry.apply (r : Registry) : RegistryOp → Option Registry
  | .register resource handle now => some (r.register resource handle now)
  | .registerChild resource parentHandle handle now =>
      some (r.registerChild resource parentHandle handle now)
  | .registerDCSendState handle state => some (r.registerDCSendState handle state).2
  | .removeDCSendState handle => some (r.removeDCSendState handle).2
  | .lookup handle now => some (r.lookup handle now).2
  | .touch handle clock => r.touch handle clock
  | .delete handle => (r.delete handle).map (·.2)
  | .cleanup s => (r.cleanup s).map (·.2)

/-- The strings an operation adds to `used`. -/
def RegistryOp.uses : RegistryOp → List Handle
  | .register _ handle _ => [handle]
  | .registerChild _ parentHandle handle _ => [handle, parentHandle]
  | _ => []

/-- The choices of an operation are ones the program can make: a generated handle differs
from every handle and parent string used before, and `Cleanup` visits each key of
`lastSeen` once. -/
def RegistryOp.Admissible (w : RegistryWorld) : RegistryOp → Prop
  | .register _ handle _ => handle ∉ w.used
  | .registerChild _ parentHandle handle _ => handle ∉ w.used ∧ handle ≠ parentHandle
  | .cleanup s => w.reg.lastSeen.Ranges s.order
  | _ => True

instance (w : RegistryWorld) (op : RegistryOp) : Decidable (op.Admissible w) :=
  match op with
  | .register _ handle _ => inferInstanceAs (Decidable (handle ∉ w.used))
  | .registerChild _ parentHandle handle _ =>
      inferInstanceAs (Decidable (handle ∉ w.used ∧ handle ≠ parentHandle))
  | .cleanup s => inferInstanceAs (Decidable (w.reg.lastSeen.Ranges s.order))
  | .registerDCSendState _ _ | .removeDCSendState _ | .lookup _ _ | .touch _ _ | .delete _ =>
      inferInstanceAs (Decidable True)

/-- One operation. The step is stuck when its choices are not admissible, or when a loop of
the operation runs out of fuel. -/
def RegistryWorld.step (w : RegistryWorld) (op : RegistryOp) : Option RegistryWorld :=
  if op.Admissible w then
    (w.reg.apply op).map fun r => ⟨r, op.uses ++ w.used⟩
  else none

/-- All sequences of registry operations from `NewRegistry`. -/
def registrySystem : StepSystem RegistryWorld RegistryOp where
  init := ⟨Registry.new, []⟩
  step := RegistryWorld.step

end PionBridge.Server
