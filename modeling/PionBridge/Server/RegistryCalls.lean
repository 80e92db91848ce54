import PionBridge.Server.Registry

/-!
# `PionBridge.Server.RegistryCalls`: registry calls of several goroutines

`Delete` and `Cleanup` are not atomic. `Delete` collects under the lock and then closes
what it collected, one resource at a time, without the lock. `Cleanup` has a read-locked
pass, a pass of liveness checks without a lock, a write-locked pass that collects, and then
closes and refreshes without the lock. This file cuts both calls at these points, so that
the calls of any number of goroutines interleave. The other operations hold the lock for
their whole effect on the maps and stay atomic. `Touch` and `Lookup` store stamps after they
release the lock, and each call is one step here all the same.

`closed` lists the shutdown calls in the order in which they were made, and `registered`
every registration. The connection states of the PeerConnections change at any moment.
-/

set_option autoImplicit false

namespace PionBridge.Server

open PionBridge.Lib

/-- A goroutine that calls `Delete` or `Cleanup`. -/
abbrev Goroutine := Nat

/-- Where a goroutine stands. `judging` is `Cleanup` between its two locked passes. The
lists are the expired handles not checked yet and the two results so far. `closing` holds
the shutdown calls still to make, and the spared handles to refresh after them (none in
`Delete`). -/
inductive CallPc
  | idle
  | judging (todo : List (Handle × Option Resource)) (reap spared : List Handle)
  | closing (left : List Registry.CloseEvent) (spared : List Handle)
  deriving DecidableEq

/-- The shutdown calls a goroutine still has to make. -/
def CallPc.left : CallPc → List Registry.CloseEvent
  | .closing left _ => left
  | _ => []

structure CallWorld where
  world : RegistryWorld
  connected : Nat → Bool
  calls : Goroutine → CallPc
  closed : List Registry.CloseEvent
  registered : List (Handle × Resource)

/-- One atomic step. `op` is a whole operation other than `Delete` and `Cleanup`, by any
goroutine. -/
inductive CallAction
  | op (op : RegistryOp)
  | connection (obj : Nat) (up : Bool)
  | delete (g : Goroutine) (handle : Handle)
  | scan (g : Goroutine) (maxAge now : Int) (order : List Handle)
  | judge (g : Goroutine)
  | reap (g : Goroutine)
  | close (g : Goroutine)
  | refresh (g : Goroutine) (clock : Nat → Int)
  | ret (g : Goroutine)

/-- The registration that an operation makes. -/
def RegistryOp.registration : RegistryOp → List (Handle × Resource)
  | .register resource handle _ => [(handle, resource)]
  | .registerChild resource _ handle _ => [(handle, resource)]
  | _ => []

/-- Operations that hold the lock for their whole effect on the maps. -/
def RegistryOp.isAtomic : RegistryOp → Bool
  | .delete _ => false
  | .cleanup _ => false
  | _ => true

namespace CallWorld

def reg (w : CallWorld) : Registry := w.world.reg

def withReg (w : CallWorld) (r : Registry) : CallWorld :=
  { w with world := { w.world with reg := r } }

def withCall (w : CallWorld) (g : Goroutine) (pc : CallPc) : CallWorld :=
  { w with calls := Function.update w.calls g pc }

def step (w : CallWorld) : CallAction → Option CallWorld
  | .op op =>
    if op.isAtomic then
      (w.world.step op).map fun world =>
        { w with world := world, registered := w.registered ++ op.registration }
    else none
  | .connection obj up => some { w with connected := Function.update w.connected obj up }
  | .delete g handle =>
    match w.calls g with
    | .idle =>
      -- The locked part. The shutdown calls are `close` steps of the same goroutine.
      (w.reg.deleteLocked handle).map fun s =>
        match s.1 with
        | .error _ => w
        | .ok c => (w.withReg s.2).withCall g (.closing (Registry.closeCollected c) [])
    | _ => none
  | .scan g maxAge now order =>
    match w.calls g with
    | .idle =>
      if w.reg.lastSeen.Ranges order then
        (w.reg.scan maxAge now order).map fun expired =>
          if expired.isEmpty then w else w.withCall g (.judging expired [] [])
      else none
    | _ => none
  | .judge g =>
    match w.calls g with
    | .judging (e :: todo) reap spared =>
      -- The resource is the one of the scan, its connection state the one of now.
      if Registry.isLivePeerConnection w.connected e.2 then
        some (w.withCall g (.judging todo reap (spared ++ [e.1])))
      else some (w.withCall g (.judging todo (reap ++ [e.1]) spared))
    | _ => none
  | .reap g =>
    match w.calls g with
    | .judging [] reap spared =>
      -- A handle that was touched or deleted since the scan is still on the list.
      (Registry.reapLocked w.reg.fuel w.reg reap).map fun s =>
        (w.withReg s.1).withCall g (.closing (Registry.closeCollected s.2) spared)
    | _ => none
  | .close g =>
    match w.calls g with
    | .closing (e :: left) spared =>
      some { w.withCall g (.closing left spared) with closed := w.closed ++ [e] }
    | _ => none
  | .refresh g clock =>
    match w.calls g with
    | .closing [] (h :: spared) =>
      (w.reg.touch h clock).map fun r => (w.withReg r).withCall g (.closing [] spared)
    | _ => none
  | .ret g =>
    match w.calls g with
    | .closing [] [] => some (w.withCall g .idle)
    | _ => none

end CallWorld

/-- The interleavings of registry calls from `NewRegistry`, with no call in progress. -/
def callSystem : StepSystem CallWorld CallAction where
  init := ⟨⟨Registry.new, []⟩, fun _ => false, fun _ => .idle, [], []⟩
  step := CallWorld.step

end PionBridge.Server
