import Mathlib.Data.List.Basic
import Mathlib.Logic.Function.Basic

/-!
# `PionBridge.Lib.Gate`: putting values on a channel until it is closed for good

A Go channel with a buffer is a list that never grows beyond its capacity. A gate is such a
channel next to a `done` channel that is closed once. Any number of goroutines put values on it
with the two selects

    select { case <-done: return closed; default: }
    select { case ch <- x: return nil; case <-done: return closed }

so that a call may wait for room, but not past the moment at which `done` is closed. The record
`sent` lists the values in the order in which they went on the channel.

The receiver and the one who closes `done` belong to the system that uses the gate. What it
needs from here is `Gate.step_flow` (a step puts the same values on the channel and on the
record), `Gate.step_done`, and for a closed gate `Gate.leaves` (nobody waits), `Refused.step` (a
call that comes too late fails) and `Drained.step` (when the channel is empty and no call is
between its selects, nothing comes any more).
-/

set_option autoImplicit false

namespace PionBridge.Lib

/-! ### Channels -/

/-- A channel with a buffer of `cap` places. -/
structure Chan (α : Type) (cap : Nat) where
  buf : List α
  bounded : buf.length ≤ cap

namespace Chan

variable {α : Type} {cap : Nat}

def empty : Chan α cap := ⟨[], Nat.zero_le cap⟩

/-- A send, which waits while the buffer is full. -/
def send (c : Chan α cap) (x : α) : Option (Chan α cap) :=
  if h : c.buf.length < cap then
    some ⟨c.buf ++ [x], by rw [List.length_append]; exact h⟩
  else none

/-- A receive, which waits while the buffer is empty. -/
def recv : Chan α cap → Option (α × Chan α cap)
  | ⟨[], _⟩ => none
  | ⟨x :: rest, h⟩ => some (x, ⟨rest, Nat.le_of_succ_le h⟩)

theorem buf_of_send {c c' : Chan α cap} {x : α} (h : c.send x = some c') :
    c'.buf = c.buf ++ [x] := by
  unfold send at h
  split at h
  · cases h
    rfl
  · cases h

theorem buf_of_recv {c c' : Chan α cap} {x : α} (h : c.recv = some (x, c')) :
    c.buf = x :: c'.buf := by
  obtain ⟨buf, hbuf⟩ := c
  cases buf with
  | nil => cases h
  | cons y rest =>
      cases h
      rfl

end Chan

/-! ### Gates -/

/-- Where a goroutine stands in a call: before the first select, before the second one, or back
from the call, with an error or without. -/
inductive OfferPc (α ε : Type)
  | outside
  | check (x : α)
  | select (x : α)
  | returned (err : Option ε)

/-- A step of the goroutine `g` inside a call. `send` and `giveUp` are the two cases of the second
select, and `leave` makes the goroutine ready for another call. -/
inductive OfferStep
  | check (g : Nat)
  | send (g : Nat)
  | giveUp (g : Nat)
  | leave (g : Nat)
  deriving DecidableEq

/-- The goroutine that makes the step. -/
def OfferStep.caller : OfferStep → Nat
  | .check g | .send g | .giveUp g | .leave g => g

structure Gate (α ε : Type) (cap : Nat) where
  chan : Chan α cap
  done : Bool
  callers : Nat → OfferPc α ε
  sent : List α

namespace Gate

variable {α ε : Type} {cap : Nat}

def new : Gate α ε cap := ⟨Chan.empty, false, fun _ => .outside, []⟩

def withCaller (w : Gate α ε cap) (g : Nat) (pc : OfferPc α ε) : Gate α ε cap :=
  { w with callers := Function.update w.callers g pc }

/-- The goroutine `g` enters a call. What comes before the selects may fail. -/
def call (w : Gate α ε cap) (g : Nat) (x : Except ε α) : Option (Gate α ε cap) :=
  match w.callers g, x with
  | .outside, .ok x => some (w.withCaller g (.check x))
  | .outside, .error e => some (w.withCaller g (.returned (some e)))
  | _, _ => none

/-- One step of a goroutine in a call. A call on a closed gate returns `closed`. -/
def step (closed : ε) (w : Gate α ε cap) : OfferStep → Option (Gate α ε cap)
  | .check g =>
    match w.callers g with
    | .check x => some (w.withCaller g (if w.done then .returned (some closed) else .select x))
    | _ => none
  | .send g =>
    match w.callers g with
    | .select x => (w.chan.send x).map fun chan =>
        { w.withCaller g (.returned none) with chan := chan, sent := w.sent ++ [x] }
    | _ => none
  | .giveUp g =>
    match w.callers g with
    | .select _ => if w.done then some (w.withCaller g (.returned (some closed))) else none
    | _ => none
  | .leave g =>
    match w.callers g with
    | .returned _ => some (w.withCaller g .outside)
    | _ => none

/-- A receive from the channel. -/
def recv (w : Gate α ε cap) : Option (α × Gate α ε cap) :=
  w.chan.recv.map fun r => (r.1, { w with chan := r.2 })

/-- `close(done)`. -/
def close (w : Gate α ε cap) : Gate α ε cap := { w with done := true }

@[simp] theorem callers_withCaller_self (w : Gate α ε cap) (g : Nat) (pc : OfferPc α ε) :
    (w.withCaller g pc).callers g = pc := Function.update_self ..

theorem callers_withCaller_of_ne (w : Gate α ε cap) {g g' : Nat} (pc : OfferPc α ε)
    (h : g' ≠ g) : (w.withCaller g pc).callers g' = w.callers g' :=
  Function.update_of_ne h ..

/-! ### What the steps do -/

/-- What a step inside a call can do: the goroutine goes on, with or without a value that went
on the channel. -/
inductive Moved (closed : ε) (w : Gate α ε cap) : OfferStep → Gate α ε cap → Prop
  | pass (g : Nat) (x : α) (hpc : w.callers g = .check x) (hdone : w.done = false) :
      Moved closed w (.check g) (w.withCaller g (.select x))
  | refuse (g : Nat) (x : α) (hpc : w.callers g = .check x) (hdone : w.done = true) :
      Moved closed w (.check g) (w.withCaller g (.returned (some closed)))
  | send (g : Nat) (x : α) (chan : Chan α cap) (hpc : w.callers g = .select x)
      (hchan : w.chan.send x = some chan) :
      Moved closed w (.send g)
        { w.withCaller g (.returned none) with chan := chan, sent := w.sent ++ [x] }
  | giveUp (g : Nat) (x : α) (hpc : w.callers g = .select x) (hdone : w.done = true) :
      Moved closed w (.giveUp g) (w.withCaller g (.returned (some closed)))
  | leave (g : Nat) (err : Option ε) (hpc : w.callers g = .returned err) :
      Moved closed w (.leave g) (w.withCaller g .outside)

/-- Every step is in the list. -/
theorem moved {closed : ε} {w w' : Gate α ε cap} {a : OfferStep}
    (h : w.step closed a = some w') : Moved closed w a w' := by
  cases a with
  | check g =>
      simp only [step] at h
      split at h
      · rename_i x hpc
        cases h
        split
        · rename_i hdone
          exact .refuse g x hpc hdone
        · rename_i hdone
          exact .pass g x hpc (by simpa using hdone)
      · cases h
  | send g =>
      simp only [step] at h
      split at h
      · rename_i x hpc
        obtain ⟨chan, hchan, rfl⟩ := Option.map_eq_some_iff.mp h
        exact .send g x chan hpc hchan
      · cases h
  | giveUp g =>
      simp only [step] at h
      split at h
      · rename_i x hpc
        split at h
        · rename_i hdone
          cases h
          exact .giveUp g x hpc hdone
        · cases h
      · cases h
  | leave g =>
      simp only [step] at h
      split at h
      · rename_i err hpc
        cases h
        exact .leave g err hpc
      · cases h

/-- A call starts outside, and changes nothing but the place of its goroutine. -/
theorem call_eq {w w' : Gate α ε cap} {g : Nat} {x : Except ε α} (h : w.call g x = some w') :
    (∃ y, x = .ok y ∧ w' = w.withCaller g (.check y)) ∨
      ∃ e, x = .error e ∧ w' = w.withCaller g (.returned (some e)) := by
  unfold call at h
  split at h
  · cases h
    exact Or.inl ⟨_, rfl, rfl⟩
  · cases h
    exact Or.inr ⟨_, rfl, rfl⟩
  · cases h

theorem step_done {closed : ε} {w w' : Gate α ε cap} {a : OfferStep}
    (h : w.step closed a = some w') : w'.done = w.done := by
  cases moved h <;> rfl

theorem call_done {w w' : Gate α ε cap} {g : Nat} {x : Except ε α} (h : w.call g x = some w') :
    w'.done = w.done := by
  rcases call_eq h with ⟨y, -, rfl⟩ | ⟨e, -, rfl⟩ <;> rfl

/-- A step puts the same values on the channel and on the record. -/
theorem step_flow {closed : ε} {w w' : Gate α ε cap} {a : OfferStep}
    (h : w.step closed a = some w') :
    ∃ l, w'.sent = w.sent ++ l ∧ w'.chan.buf = w.chan.buf ++ l := by
  cases moved h with
  | send g x chan _ hchan => exact ⟨[x], rfl, Chan.buf_of_send hchan⟩
  | _ => exact ⟨[], (List.append_nil _).symm, (List.append_nil _).symm⟩

theorem call_flow {w w' : Gate α ε cap} {g : Nat} {x : Except ε α} (h : w.call g x = some w') :
    w'.sent = w.sent ∧ w'.chan = w.chan := by
  rcases call_eq h with ⟨y, -, rfl⟩ | ⟨e, -, rfl⟩ <;> exact ⟨rfl, rfl⟩

theorem recv_eq {w w' : Gate α ε cap} {x : α} (h : w.recv = some (x, w')) :
    w.chan.buf = x :: w'.chan.buf ∧ w'.sent = w.sent ∧ w'.done = w.done ∧
      w'.callers = w.callers := by
  obtain ⟨⟨y, chan⟩, hchan, heq⟩ := Option.map_eq_some_iff.mp h
  cases heq
  exact ⟨Chan.buf_of_recv hchan, rfl, rfl, rfl⟩

/-! ### A closed gate -/

/-- The goroutine `g` can go on by itself: before either select it has a step that takes it out
of the call with the error. -/
def Leaves (closed : ε) (w : Gate α ε cap) (g : Nat) : Prop :=
  ∀ x, (w.callers g = .check x → ∃ w', w.step closed (.check g) = some w' ∧
      w'.callers g = .returned (some closed)) ∧
    (w.callers g = .select x → ∃ w', w.step closed (.giveUp g) = some w' ∧
      w'.callers g = .returned (some closed))

/-- Nobody waits at a closed gate. -/
theorem leaves {closed : ε} {w : Gate α ε cap} (hdone : w.done = true) (g : Nat) :
    w.Leaves closed g := by
  intro x
  refine ⟨fun hpc => ?_, fun hpc => ?_⟩
  · exact ⟨w.withCaller g (.returned (some closed)), by simp [step, hpc, hdone], by simp⟩
  · exact ⟨w.withCaller g (.returned (some closed)), by simp [step, hpc, hdone], by simp⟩

/-- The goroutine has not passed the first select, or is back with an error. -/
def Refused (w : Gate α ε cap) (g : Nat) : Prop :=
  (∃ x, w.callers g = .check x) ∨ ∃ e, w.callers g = .returned (some e)

theorem Refused.of_call {w w' : Gate α ε cap} {g : Nat} {x : Except ε α}
    (h : w.call g x = some w') : w'.Refused g := by
  rcases call_eq h with ⟨y, -, rfl⟩ | ⟨e, -, rfl⟩
  · exact Or.inl ⟨y, by simp⟩
  · exact Or.inr ⟨e, by simp⟩

theorem Refused.congr {w w' : Gate α ε cap} {g : Nat} (h : w.Refused g)
    (heq : w'.callers g = w.callers g) : w'.Refused g := by
  unfold Refused
  rw [heq]
  exact h

/-- At a closed gate such a call does not succeed any more. -/
theorem Refused.step {closed : ε} {w w' : Gate α ε cap} {g : Nat} {a : OfferStep}
    (h : w.Refused g) (hdone : w.done = true) (ha : a ≠ .leave g)
    (hstep : w.step closed a = some w') : w'.Refused g := by
  by_cases hg : a.caller = g
  · cases moved hstep with
    -- The first select lets nobody pass.
    | pass g' x _ hopen =>
        rw [hdone] at hopen
        cases hopen
    | refuse g' x =>
        obtain rfl : g' = g := hg
        exact Or.inr ⟨closed, by simp⟩
    | send g' x chan hpc =>
        obtain rfl : g' = g := hg
        rcases h with ⟨y, hy⟩ | ⟨e, he⟩
        · rw [hpc] at hy
          cases hy
        · rw [hpc] at he
          cases he
    | giveUp g' x =>
        obtain rfl : g' = g := hg
        exact Or.inr ⟨closed, by simp⟩
    | leave g' =>
        obtain rfl : g' = g := hg
        exact absurd rfl ha
  · refine h.congr ?_
    cases moved hstep <;> exact callers_withCaller_of_ne _ _ (Ne.symm hg)

/-- The call of another goroutine does not change that. -/
theorem Refused.call {w w' : Gate α ε cap} {g g' : Nat} {x : Except ε α} (h : w.Refused g)
    (hcall : w.call g' x = some w') : w'.Refused g := by
  by_cases hg : g = g'
  · subst hg
    exact .of_call hcall
  · refine h.congr ?_
    rcases call_eq hcall with ⟨y, -, rfl⟩ | ⟨e, -, rfl⟩ <;> exact callers_withCaller_of_ne _ _ hg

/-- No value is on the channel, and no call has passed the first select with one. -/
def Drained (w : Gate α ε cap) : Prop := w.chan.buf = [] ∧ ∀ g x, w.callers g ≠ .select x

theorem Drained.withCaller {w : Gate α ε cap} (h : w.Drained) (g : Nat) {pc : OfferPc α ε}
    (hpc : ∀ x, pc ≠ .select x) : (w.withCaller g pc).Drained := by
  refine ⟨h.1, fun g' x hg' => ?_⟩
  by_cases hg : g' = g
  · subst hg
    rw [callers_withCaller_self] at hg'
    exact hpc x hg'
  · rw [callers_withCaller_of_ne _ _ hg] at hg'
    exact h.2 g' x hg'

theorem Drained.call {w w' : Gate α ε cap} (h : w.Drained) {g : Nat} {x : Except ε α}
    (hcall : w.call g x = some w') : w'.Drained := by
  rcases call_eq hcall with ⟨y, -, rfl⟩ | ⟨e, -, rfl⟩
  · exact h.withCaller g fun _ => by simp
  · exact h.withCaller g fun _ => by simp

/-- A closed gate that is drained stays so: the first select refuses every call. -/
theorem Drained.step {closed : ε} {w w' : Gate α ε cap} {a : OfferStep} (h : w.Drained)
    (hdone : w.done = true) (hstep : w.step closed a = some w') : w'.Drained := by
  cases moved hstep with
  | pass g x _ hopen =>
      rw [hdone] at hopen
      cases hopen
  | send g x chan hpc => exact absurd hpc (h.2 g x)
  | refuse g | giveUp g | leave g => exact h.withCaller g fun _ => by simp

/-- A call between its selects can still put its value on an empty channel. -/
theorem exists_send {w : Gate α ε cap} {g : Nat} {x : α} (closed : ε) (hcap : 0 < cap)
    (hbuf : w.chan.buf = []) (hpc : w.callers g = .select x) :
    ∃ w', w.step closed (.send g) = some w' ∧ w'.chan.buf = [x] := by
  have hroom : w.chan.buf.length < cap := by
    rw [hbuf]
    exact hcap
  refine ⟨_, by simp only [step, hpc, Chan.send, dif_pos hroom, Option.map_some]; rfl, ?_⟩
  show w.chan.buf ++ [x] = [x]
  rw [hbuf, List.nil_append]

theorem exists_recv {w : Gate α ε cap} (hbuf : w.chan.buf ≠ []) :
    ∃ x w', w.recv = some (x, w') := by
  obtain ⟨⟨buf, hle⟩, done, callers, sent⟩ := w
  cases buf with
  | nil => exact absurd rfl hbuf
  | cons x rest => exact ⟨x, _, rfl⟩

theorem recv_of_buf_nil {w : Gate α ε cap} (hbuf : w.chan.buf = []) : w.recv = none := by
  cases hrecv : w.recv with
  | none => rfl
  | some r =>
      have hcons := (recv_eq hrecv).1
      rw [hbuf] at hcons
      cases hcons

end Gate

end PionBridge.Lib
