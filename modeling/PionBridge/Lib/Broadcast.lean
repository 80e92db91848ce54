import Mathlib.Data.List.Basic
import Mathlib.Logic.Function.Basic

/-!
# `PionBridge.Lib.Broadcast`: asynchronous broadcast streams

A broadcast controller puts every event on the queue of each of its subscriptions, and the event
loop hands the events of a queue to the callback later, one by one. An event that is added while
nobody listens is lost. `Subscription.flow` is everything a subscription was given, whether or not
the callback has seen it yet: `add` appends to it, and a delivery leaves it as it is.

`offer` is a buffer with a cap that drops what does not fit. It keeps the first `cap` events
(`offer_take`).
-/

set_option autoImplicit false

namespace PionBridge.Lib

/-! ### Buffers with a cap -/

/-- `x` goes into the buffer, or it is dropped if the buffer is full. -/
def offer {α : Type} (cap : Nat) (l : List α) (x : α) : List α :=
  if l.length < cap then l ++ [x] else l

/-- A buffer that was filled with `offer` has the first `cap` events. So one more event keeps it
that way, whether it fits or not. -/
theorem offer_take {α : Type} (cap : Nat) (l : List α) (x : α) :
    offer cap (l.take cap) x = (l ++ [x]).take cap := by
  unfold offer
  rw [List.length_take]
  split
  · -- room for `x`: nothing was dropped so far, and nothing is now
    rename_i hlt
    have hle : l.length + 1 ≤ cap := by omega
    rw [List.take_of_length_le (by omega), List.take_of_length_le (by simpa using hle)]
  · -- full: the first `cap` events lie within `l`
    rename_i hge
    rw [List.take_append_of_le_length (by omega)]

/-! ### Subscriptions -/

/-- The events that wait for the callback, and those that it was given. -/
structure Subscription (α : Type) where
  queue : List α
  got : List α

namespace Subscription

variable {α : Type}

def new : Subscription α := ⟨[], []⟩

def push (s : Subscription α) (xs : List α) : Subscription α := { s with queue := s.queue ++ xs }

/-- Everything that was put on the queue, in order. -/
def flow (s : Subscription α) : List α := s.got ++ s.queue

/-- A new subscription was given nothing. -/
@[simp] theorem flow_new : (new : Subscription α).flow = [] := rfl

/-- Putting events on the queue appends them to the flow. The callback has not seen them yet. -/
@[simp] theorem flow_push (s : Subscription α) (xs : List α) : (s.push xs).flow = s.flow ++ xs := by
  simp [flow, push]

/-- The event loop hands over the next event. -/
def next (s : Subscription α) : Option (α × Subscription α) :=
  match s.queue with
  | [] => none
  | x :: rest => some (x, ⟨rest, s.got ++ [x]⟩)

/-- The event that is handed over was the first of the queue, and it is the last that the callback
was given. -/
theorem next_eq {s s' : Subscription α} {x : α} (h : s.next = some (x, s')) :
    s.queue = x :: s'.queue ∧ s'.got = s.got ++ [x] := by
  unfold next at h
  split at h
  · cases h
  · rename_i y rest hqueue
    cases h
    exact ⟨hqueue, rfl⟩

/-- Handing over an event moves it from the queue to the callback, and the flow stays the same. -/
theorem flow_next {s s' : Subscription α} {x : α} (h : s.next = some (x, s')) :
    s'.flow = s.flow := by
  obtain ⟨hqueue, hgot⟩ := next_eq h
  simp [flow, hqueue, hgot]

/-- As long as an event is on the queue, the event loop can hand one over. -/
theorem next_of_queue {s : Subscription α} {x : α} {rest : List α} (h : s.queue = x :: rest) :
    s.next = some (x, ⟨rest, s.got ++ [x]⟩) := by
  unfold next
  rw [h]

end Subscription

/-! ### Controllers -/

/-- A broadcast controller whose listeners have the names `ι`. `active` lists those that have not
cancelled. A closed controller takes no events and no listeners. -/
structure Controller (ι α : Type) where
  active : List ι
  subs : ι → Subscription α
  closed : Bool

namespace Controller

variable {ι α : Type} [DecidableEq ι]

def new : Controller ι α := ⟨[], fun _ => .new, false⟩

/-- `add`, for each of `xs` in order. -/
def addAll (c : Controller ι α) (xs : List α) : Controller ι α :=
  { c with subs := fun i => if i ∈ c.active then (c.subs i).push xs else c.subs i }

def add (c : Controller ι α) (x : α) : Controller ι α := c.addAll [x]

/-- A new listener. -/
def subscribe (c : Controller ι α) (i : ι) : Controller ι α :=
  if c.closed then c
  else { c with active := i :: c.active, subs := Function.update c.subs i .new }

/-- The listener `i` is given its next event. -/
def deliver (c : Controller ι α) (i : ι) : Option (α × Controller ι α) :=
  (c.subs i).next.map fun r => (r.1, { c with subs := Function.update c.subs i r.2 })

/-- A cancelled subscription is given nothing more. -/
def cancel (c : Controller ι α) (i : ι) : Controller ι α :=
  { c with
    active := c.active.filter (· ≠ i)
    subs := Function.update c.subs i { c.subs i with queue := [] } }

def close (c : Controller ι α) : Controller ι α := { c with closed := true }

variable {c c' : Controller ι α} {i j : ι} {x : α} {xs : List α}

/-- Everything that is added reaches each active listener, in order. -/
theorem flow_addAll (h : i ∈ c.active) : ((c.addAll xs).subs i).flow = (c.subs i).flow ++ xs := by
  simp [addAll, h]

/-- An event that is added is not handed over at once, so no callback has been given more. -/
theorem got_addAll : ((c.addAll xs).subs i).got = (c.subs i).got := by
  unfold addAll
  dsimp only
  split <;> rfl

/-- A new listener leaves the subscriptions of the others alone. -/
theorem subs_subscribe_of_ne (h : j ≠ i) : (c.subscribe i).subs j = c.subs j := by
  unfold subscribe
  split
  · -- a closed controller refuses the listener
    rfl
  · exact Function.update_of_ne h _ _

/-- A new listener pushes nobody out: who was active stays so. -/
theorem mem_subscribe_of_mem (h : j ∈ c.active) : j ∈ (c.subscribe i).active := by
  unfold subscribe
  split
  · exact h
  · exact List.mem_cons_of_mem _ h

/-- On an open controller a new listener becomes active, with an empty queue. It does not get what
was added before. -/
theorem subscribe_of_open (h : c.closed = false) :
    c.subscribe i = { c with active := i :: c.active, subs := Function.update c.subs i .new } := by
  unfold subscribe
  rw [if_neg (by simp [h])]

/-- A delivery changes the subscription of its listener only, and that by one `next`. -/
theorem deliver_eq (h : c.deliver i = some (x, c')) :
    ∃ sub, (c.subs i).next = some (x, sub) ∧
      c' = { c with subs := Function.update c.subs i sub } := by
  obtain ⟨r, hr, heq⟩ := Option.map_eq_some_iff.mp h
  cases heq
  exact ⟨r.2, hr, rfl⟩

/-- A delivery leaves the flow of every listener as it is, that of the one who gets the event
included. -/
theorem flow_deliver (h : c.deliver i = some (x, c')) (j : ι) :
    (c'.subs j).flow = (c.subs j).flow := by
  obtain ⟨sub, hnext, rfl⟩ := deliver_eq h
  by_cases hj : j = i
  · -- its own event goes from the queue to the callback
    subst hj
    simpa using Subscription.flow_next hnext
  · simp [hj]

/-- A listener that cancels takes nothing from the others. -/
theorem subs_cancel_of_ne (h : j ≠ i) : (c.cancel i).subs j = c.subs j :=
  Function.update_of_ne h _ _

end Controller

end PionBridge.Lib
