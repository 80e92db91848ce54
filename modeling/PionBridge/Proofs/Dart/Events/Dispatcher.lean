import PionBridge.Dart.Events
import PionBridge.Lib.AgingSet

/-!
# `PionBridge.Proofs.Dart.Events.Dispatcher`: the two buffers

`BufferedBroadcast` keeps the first 128 events that come before its first listener (`Buffers`), and
hands over all of them and everything that comes later (`Relays`). For `EventDispatcher`, each call
is described by what it does to the subscription of one wrapper and to the entries of one handle,
and by what it leaves alone.
-/

set_option autoImplicit false

namespace PionBridge.Dart

open PionBridge.Lib

/-! ### `BufferedBroadcast` -/

namespace BufferedBroadcast

variable {α : Type} {b b' : BufferedBroadcast α} {before after : List α}

/-- No listener has come yet, and `before` was added. -/
structure Buffers (b : BufferedBroadcast α) (before : List α) : Prop where
  pending : b.pending = some (before.take maxBuffered)
  idle : b.controller.active = []
  isOpen : b.controller.closed = false
  unheard : b.listeners = 0

/-- `before` was added before the first listener came, and `after` since then. -/
structure Relays (b : BufferedBroadcast α) (before after : List α) : Prop where
  pending : b.pending = none
  isOpen : b.controller.closed = false
  heard : 0 < b.listeners
  flow : 0 ∈ b.controller.active →
    (b.controller.subs 0).flow = before.take maxBuffered ++ after

theorem buffers_new : (new : BufferedBroadcast α).Buffers [] := ⟨rfl, rfl, rfl, rfl⟩

theorem Buffers.add (h : b.Buffers before) (x : α) : (b.add x).Buffers (before ++ [x]) := by
  unfold BufferedBroadcast.add
  rw [h.pending]
  exact ⟨congrArg some (offer_take _ _ _), h.idle, h.isOpen, h.unheard⟩

theorem Buffers.listen (h : b.Buffers before) : b.listen.Relays before [] := by
  unfold BufferedBroadcast.listen
  rw [Controller.subscribe_of_open h.isOpen, if_pos h.idle]
  refine ⟨rfl, h.isOpen, Nat.succ_pos _, fun _ => ?_⟩
  rw [Controller.flow_addAll (by simp [h.unheard]), h.pending]
  simp [h.unheard]

theorem Relays.add (h : b.Relays before after) (x : α) :
    (b.add x).Relays before (after ++ [x]) := by
  unfold BufferedBroadcast.add
  rw [h.pending]
  dsimp only
  rw [if_neg (by simp [h.isOpen])]
  refine ⟨rfl, h.isOpen, h.heard, fun hactive => ?_⟩
  have hactive : 0 ∈ b.controller.active := hactive
  rw [Controller.add, Controller.flow_addAll hactive, h.flow hactive, List.append_assoc]

theorem Relays.listen (h : b.Relays before after) : b.listen.Relays before after := by
  have hne : 0 ≠ b.listeners := Nat.ne_of_lt h.heard
  have hmem : 0 ∈ (b.controller.subscribe b.listeners).active → 0 ∈ b.controller.active := by
    rw [Controller.subscribe_of_open h.isOpen]
    exact fun hmem => (List.mem_cons.mp hmem).resolve_left hne
  have hopen : (b.controller.subscribe b.listeners).closed = false := by
    rw [Controller.subscribe_of_open h.isOpen]
    exact h.isOpen
  unfold BufferedBroadcast.listen
  dsimp only
  split
  · -- All earlier listeners have cancelled.
    rename_i hidle
    refine ⟨rfl, hopen, Nat.succ_pos _, fun hactive => ?_⟩
    have hactive := hmem hactive
    rw [hidle] at hactive
    cases hactive
  · refine ⟨h.pending, hopen, Nat.succ_pos _, fun hactive => ?_⟩
    rw [Controller.subs_subscribe_of_ne hne]
    exact h.flow (hmem hactive)

/-- What stays when an event is handed over or a listener goes. -/
theorem deliver_eq {k : Nat} (h : b.deliver k = some b') :
    b'.pending = b.pending ∧ b'.listeners = b.listeners ∧
      b'.controller.active = b.controller.active ∧ b'.controller.closed = b.controller.closed ∧
      ∀ i, (b'.controller.subs i).flow = (b.controller.subs i).flow := by
  obtain ⟨r, hr, rfl⟩ := Option.map_eq_some_iff.mp h
  obtain ⟨sub, -, hc⟩ := Controller.deliver_eq hr
  refine ⟨rfl, rfl, ?_, ?_, Controller.flow_deliver hr⟩
  · rw [hc]
  · rw [hc]

theorem Buffers.deliver {k : Nat} (h : b.Buffers before) (hb : b.deliver k = some b') :
    b'.Buffers before := by
  obtain ⟨hpending, hlisteners, hactive, hclosed, -⟩ := deliver_eq hb
  exact ⟨hpending.trans h.pending, hactive.trans h.idle, hclosed.trans h.isOpen,
    hlisteners.trans h.unheard⟩

theorem Relays.deliver {k : Nat} (h : b.Relays before after) (hb : b.deliver k = some b') :
    b'.Relays before after := by
  obtain ⟨hpending, hlisteners, hactive, hclosed, hflow⟩ := deliver_eq hb
  refine ⟨hpending.trans h.pending, hclosed.trans h.isOpen, hlisteners ▸ h.heard, fun hmem => ?_⟩
  rw [hflow]
  exact h.flow (hactive ▸ hmem)

theorem Buffers.cancel {k : Nat} (h : b.Buffers before) : (b.cancel k).Buffers before := by
  refine ⟨h.pending, ?_, h.isOpen, h.unheard⟩
  show b.controller.active.filter _ = []
  rw [h.idle]
  rfl

theorem Relays.cancel {k : Nat} (h : b.Relays before after) : (b.cancel k).Relays before after := by
  refine ⟨h.pending, h.isOpen, h.heard, fun hmem => ?_⟩
  obtain ⟨hmem, hne⟩ := List.mem_filter.mp hmem
  have hne : 0 ≠ k := by simpa using hne
  show ((b.controller.cancel k).subs 0).flow = _
  rw [Controller.subs_cancel_of_ne hne]
  exact h.flow hmem

end BufferedBroadcast

/-! ### The dispatcher -/

namespace EventDispatcher

/-- The subscription of the wrapper `w` at the controller `c`. -/
def sub (d : EventDispatcher) (c w : Nat) : Subscription Event :=
  (d.controllers c).controller.subs w

/-- The wrapper `w` listens at the controller `c`. -/
def Listens (d : EventDispatcher) (c w : Nat) : Prop := w ∈ (d.controllers c).controller.active

/-- Each controller in use belongs to the handle it is listed under, and it is open. -/
structure WellFormed (d : EventDispatcher) : Prop where
  made : ∀ h c, d.listeners.get h = some c → c < d.made
  owner : ∀ h c, d.listeners.get h = some c → (d.controllers c).handle = h
  isOpen : ∀ h c, d.listeners.get h = some c → (d.controllers c).controller.closed = false

variable {d d' : EventDispatcher} {h : String} {c w : Nat}

theorem withController_self (d : EventDispatcher) (c : Nat)
    (f : HandleController → HandleController) :
    (d.withController c f).controllers c = f (d.controllers c) :=
  Function.update_self _ _ _

theorem withController_of_ne (d : EventDispatcher) {c c' : Nat}
    (f : HandleController → HandleController) (hne : c' ≠ c) :
    (d.withController c f).controllers c' = d.controllers c' :=
  Function.update_of_ne hne _ _

theorem WellFormed.withController {f : HandleController → HandleController} (hd : d.WellFormed)
    {c : Nat} (hf : (f (d.controllers c)).handle = (d.controllers c).handle ∧
      (f (d.controllers c)).controller.closed = (d.controllers c).controller.closed) :
    (d.withController c f).WellFormed := by
  have hsame : ∀ c', ((d.withController c f).controllers c').handle = (d.controllers c').handle ∧
      ((d.withController c f).controllers c').controller.closed
        = (d.controllers c').controller.closed := by
    intro c'
    by_cases hcc : c' = c
    · subst hcc
      rw [withController_self]
      exact hf
    · rw [withController_of_ne d f hcc]
      exact ⟨rfl, rfl⟩
  exact ⟨hd.made, fun h c' hc' => (hsame c').1.trans (hd.owner h c' hc'),
    fun h c' hc' => (hsame c').2.trans (hd.isOpen h c' hc')⟩

/-- A broadcast for a handle that is listened to. -/
theorem broadcast_listened {msg : Event} (hopen : d.closed = false) (hmsg : msg.handle = some h)
    (hc : d.listeners.get h = some c) :
    d.broadcast msg =
      d.withController c fun hc => { hc with controller := hc.controller.add msg } := by
  unfold broadcast
  rw [if_neg (by simp [hopen]), hmsg]
  simp only [hc]

/-- A broadcast for a handle that nobody has listened to. -/
theorem broadcast_buffered {msg : Event} (hopen : d.closed = false) (hmsg : msg.handle = some h)
    (hc : d.listeners.get h = none) (halive : h ∉ d.closedHandles) :
    d.broadcast msg = { d with
      buffered := d.buffered.set h
        (offer maxBufferedPerHandle ((d.buffered.get h).getD []) msg) } := by
  unfold broadcast
  rw [if_neg (by simp [hopen]), hmsg]
  simp only [hc, if_neg halive]

/-- No broadcast changes who listens, or which handles are closed. -/
theorem broadcast_tables (d : EventDispatcher) (msg : Event) :
    (d.broadcast msg).listeners = d.listeners ∧
      (d.broadcast msg).closedHandles = d.closedHandles := by
  unfold broadcast
  split
  · exact ⟨rfl, rfl⟩
  · split
    · exact ⟨rfl, rfl⟩
    · split
      · exact ⟨rfl, rfl⟩
      · split
        · exact ⟨rfl, rfl⟩
        · exact ⟨rfl, rfl⟩

/-- What a broadcast for another handle leaves alone. -/
theorem broadcast_frame {msg : Event} (hd : d.WellFormed) (hmsg : msg.handle ≠ some h) :
    (d.broadcast msg).listeners = d.listeners ∧
      (d.broadcast msg).buffered.get h = d.buffered.get h ∧
      (d.broadcast msg).closedHandles = d.closedHandles ∧ (d.broadcast msg).closed = d.closed ∧
      (d.broadcast msg).made = d.made ∧
      ∀ c, d.listeners.get h = some c → (d.broadcast msg).controllers c = d.controllers c := by
  unfold broadcast
  split
  · exact ⟨rfl, rfl, rfl, rfl, rfl, fun _ _ => rfl⟩
  · split
    · exact ⟨rfl, rfl, rfl, rfl, rfl, fun _ _ => rfl⟩
    · rename_i handle hhandle
      have hne : h ≠ handle := by
        rintro rfl
        exact hmsg hhandle
      split
      · rename_i c' hc'
        refine ⟨rfl, rfl, rfl, rfl, rfl, fun c hc => withController_of_ne _ _ ?_⟩
        rintro rfl
        exact hne ((hd.owner h c hc).symm.trans (hd.owner handle c hc'))
      · split
        · exact ⟨rfl, rfl, rfl, rfl, rfl, fun _ _ => rfl⟩
        · exact ⟨rfl, GoMap.get_set_of_ne _ _ hne, rfl, rfl, rfl, fun _ _ => rfl⟩

theorem WellFormed.broadcast (hd : d.WellFormed) (msg : Event) : (d.broadcast msg).WellFormed := by
  unfold EventDispatcher.broadcast
  split
  · exact hd
  · split
    · exact hd
    · split
      · exact hd.withController ⟨rfl, rfl⟩
      · split
        · exact hd
        · exact ⟨hd.made, hd.owner, hd.isOpen⟩

theorem got_broadcast (d : EventDispatcher) (msg : Event) (c w : Nat) :
    ((d.broadcast msg).sub c w).got = (d.sub c w).got := by
  unfold broadcast sub
  split
  · rfl
  · split
    · rfl
    · split
      · rename_i c' _
        by_cases hcc : c = c'
        · subst hcc
          rw [withController_self]
          exact Controller.got_addAll
        · rw [withController_of_ne _ _ hcc]
      · split <;> rfl

/-- A wrapper that subscribes leaves the listeners that are there alone. -/
theorem subscribe_frame {w' : Nat} (hne : w ≠ w') (c' : Nat) (hlisten : d.Listens c w) :
    (d.subscribe c' w').Listens c w ∧ (d.subscribe c' w').sub c w = d.sub c w := by
  unfold subscribe Listens sub
  by_cases hcc : c = c'
  · subst hcc
    have hactive : (d.controllers c).controller.active ≠ [] := List.ne_nil_of_mem hlisten
    rw [withController_self]
    dsimp only
    rw [if_neg hactive]
    exact ⟨Controller.mem_subscribe_of_mem hlisten, Controller.subs_subscribe_of_ne hne⟩
  · rw [withController_of_ne _ _ hcc]
    exact ⟨hlisten, rfl⟩

theorem got_subscribe {w' : Nat} (hne : w ≠ w') (c' : Nat) :
    ((d.subscribe c' w').sub c w).got = (d.sub c w).got := by
  unfold subscribe sub
  by_cases hcc : c = c'
  · subst hcc
    rw [withController_self]
    dsimp only
    split
    · rw [Controller.got_addAll, Controller.subs_subscribe_of_ne hne]
    · rw [Controller.subs_subscribe_of_ne hne]
  · rw [withController_of_ne _ _ hcc]

theorem WellFormed.subscribe (hd : d.WellFormed) (c w : Nat) : (d.subscribe c w).WellFormed := by
  have hclosed : ∀ hc : HandleController,
      (hc.controller.subscribe w).closed = hc.controller.closed := by
    intro hc
    unfold Controller.subscribe
    split <;> rfl
  refine hd.withController ?_
  dsimp only
  split <;> exact ⟨rfl, hclosed _⟩

/-- `listen` on a handle that has a controller, and on one that has none. -/
theorem listen_eq (d : EventDispatcher) (h : String) :
    (∃ c, d.listeners.get h = some c ∧ d.listen h = (c, d)) ∨
    (d.listeners.get h = none ∧ d.listen h = (d.made, { d with
      listeners := d.listeners.set h d.made
      closedHandles := d.closedHandles.erase h
      buffered := d.buffered.delete h
      controllers := Function.update d.controllers d.made
        ⟨h, (d.buffered.get h).filter (· ≠ []), .new⟩
      made := d.made + 1 })) := by
  unfold listen
  cases hc : d.listeners.get h with
  | none => exact Or.inr ⟨rfl, rfl⟩
  | some c => exact Or.inl ⟨c, rfl, rfl⟩

theorem WellFormed.listen (hd : d.WellFormed) (h : String) : (d.listen h).2.WellFormed := by
  rcases listen_eq d h with ⟨c, -, heq⟩ | ⟨-, heq⟩
  · rw [heq]
    exact hd
  · rw [heq]
    -- An entry is the new one, or it was there before and is older.
    have hentry : ∀ h' c, (d.listeners.set h d.made).get h' = some c →
        (h' = h ∧ c = d.made) ∨ (d.listeners.get h' = some c ∧ c < d.made) := by
      intro h' c hc
      rw [GoMap.get_set] at hc
      split at hc
      · rename_i heq
        cases hc
        exact Or.inl ⟨heq, rfl⟩
      · exact Or.inr ⟨hc, hd.made h' c hc⟩
    refine ⟨fun h' c hc => ?_, fun h' c hc => ?_, fun h' c hc => ?_⟩ <;>
      rcases hentry h' c hc with ⟨rfl, rfl⟩ | ⟨hc, hlt⟩
    · exact Nat.lt_succ_self _
    · exact Nat.lt_succ_of_lt hlt
    · simp
    · simpa [Nat.ne_of_lt hlt] using hd.owner h' c hc
    · simp [Controller.new]
    · simpa [Nat.ne_of_lt hlt] using hd.isOpen h' c hc

theorem filter_getD (o : Option (List Event)) : (o.filter (· ≠ [])).getD [] = o.getD [] := by
  cases o with
  | none => rfl
  | some l => cases l <;> rfl

theorem tombstone_eq (d : EventDispatcher) (handle : String) :
    d.tombstone handle = remember maxClosedHandles d.closedHandles handle := rfl

/-- What `unsubscribe` of another handle leaves alone. -/
theorem unsubscribe_frame {h' : String} (hne : h ≠ h') :
    (d.unsubscribe h').listeners.get h = d.listeners.get h ∧
      (d.unsubscribe h').buffered.get h = d.buffered.get h ∧
      (h ∉ d.closedHandles → h ∉ (d.unsubscribe h').closedHandles) := by
  have htomb : h ∉ d.closedHandles → h ∉ d.tombstone h' :=
    fun halive hmem => (mem_of_mem_remember hmem).elim halive hne
  unfold unsubscribe
  dsimp only
  split
  · exact ⟨GoMap.get_delete_of_ne _ hne, GoMap.get_delete_of_ne _ hne, htomb⟩
  · exact ⟨rfl, GoMap.get_delete_of_ne _ hne, htomb⟩

/-- `unsubscribe` closes a controller and leaves the subscriptions as they are. -/
theorem unsubscribe_subs (d : EventDispatcher) (h : String) :
    (d.unsubscribe h).closed = d.closed ∧ (d.unsubscribe h).made = d.made ∧
      ∀ c, ((d.unsubscribe h).controllers c).handle = (d.controllers c).handle ∧
        ((d.unsubscribe h).controllers c).controller.active = (d.controllers c).controller.active ∧
        ((d.unsubscribe h).controllers c).controller.subs = (d.controllers c).controller.subs := by
  unfold unsubscribe
  dsimp only
  split
  · rename_i c' _
    refine ⟨rfl, rfl, fun c => ?_⟩
    by_cases hcc : c = c'
    · subst hcc
      rw [withController_self]
      exact ⟨rfl, rfl, rfl⟩
    · rw [withController_of_ne _ _ hcc]
      exact ⟨rfl, rfl, rfl⟩
  · exact ⟨rfl, rfl, fun _ => ⟨rfl, rfl, rfl⟩⟩

theorem WellFormed.unsubscribe (hd : d.WellFormed) (h : String) : (d.unsubscribe h).WellFormed := by
  unfold EventDispatcher.unsubscribe
  dsimp only
  split
  · rename_i c hc
    -- The entry of `h` is gone, and every other one has another controller.
    have hentry : ∀ h' c', (d.listeners.delete h).get h' = some c' →
        d.listeners.get h' = some c' ∧ c' ≠ c := by
      intro h' c' hc'
      rw [GoMap.get_delete] at hc'
      split at hc'
      · cases hc'
      · rename_i hne
        refine ⟨hc', ?_⟩
        rintro rfl
        exact hne ((hd.owner h' c' hc').symm.trans (hd.owner h c' hc))
    refine ⟨fun h' c' hc' => hd.made h' c' (hentry h' c' hc').1, fun h' c' hc' => ?_,
      fun h' c' hc' => ?_⟩
    · rw [withController_of_ne _ _ (hentry h' c' hc').2]
      exact hd.owner h' c' (hentry h' c' hc').1
    · rw [withController_of_ne _ _ (hentry h' c' hc').2]
      exact hd.isOpen h' c' (hentry h' c' hc').1
  · exact ⟨hd.made, hd.owner, hd.isOpen⟩

/-- One event is handed to the wrapper `w`. -/
theorem deliver_eq {msg : Event} (h : d.deliver c w = some (msg, d')) :
    ∃ f : HandleController → HandleController, d' = d.withController c f ∧
      (f (d.controllers c)).handle = (d.controllers c).handle ∧
      (f (d.controllers c)).controller.closed = (d.controllers c).controller.closed ∧
      (f (d.controllers c)).controller.active = (d.controllers c).controller.active ∧
      (∀ i, ((f (d.controllers c)).controller.subs i).flow = (d.sub c i).flow) ∧
      ((f (d.controllers c)).controller.subs w).got = (d.sub c w).got ++ [msg] ∧
      ∀ i, i ≠ w → (f (d.controllers c)).controller.subs i = d.sub c i := by
  obtain ⟨r, hr, heq⟩ := Option.map_eq_some_iff.mp h
  cases heq
  obtain ⟨sub', hnext, hr2⟩ := Controller.deliver_eq hr
  refine ⟨_, rfl, rfl, ?_, ?_, Controller.flow_deliver hr, ?_, fun i hi => ?_⟩
  · show r.2.closed = _
    rw [hr2]
  · show r.2.active = _
    rw [hr2]
  · show (r.2.subs w).got = _
    rw [hr2]
    dsimp only
    rw [Function.update_self]
    exact (Subscription.next_eq hnext).2
  · show r.2.subs i = _
    rw [hr2]
    exact Function.update_of_ne hi _ _

/-- `listen` leaves the controllers that exist alone. -/
theorem listen_frame {d : EventDispatcher} (hd : d.WellFormed) (handle : String) :
    d.made ≤ (d.listen handle).2.made ∧ (d.listen handle).1 < (d.listen handle).2.made ∧
      ∀ c, c < d.made → (d.listen handle).2.controllers c = d.controllers c := by
  rcases d.listen_eq handle with ⟨c, hc, heq⟩ | ⟨-, heq⟩
  · rw [heq]
    exact ⟨Nat.le_refl _, hd.made handle c hc, fun _ _ => rfl⟩
  · rw [heq]
    exact ⟨Nat.le_succ _, Nat.lt_succ_self _,
      fun c hc => Function.update_of_ne (Nat.ne_of_lt hc) _ _⟩

/-- A wrapper that has just subscribed was given nothing yet. -/
theorem got_construct {d : EventDispatcher} (hd : d.WellFormed) (handle : String) (w : Nat) :
    (((d.listen handle).2.subscribe (d.listen handle).1 w).sub (d.listen handle).1 w).got = [] := by
  have hopen : ((d.listen handle).2.controllers (d.listen handle).1).controller.closed = false := by
    rcases d.listen_eq handle with ⟨c, hc, heq⟩ | ⟨-, heq⟩
    · rw [heq]
      exact hd.isOpen handle c hc
    · rw [heq]
      simp [Controller.new]
  unfold subscribe sub
  rw [withController_self]
  dsimp only
  rw [Controller.subscribe_of_open hopen]
  split
  · rw [Controller.got_addAll]
    simp [Subscription.new]
  · simp [Subscription.new]

/-- What the delivery of one event leaves alone. -/
theorem deliver_frame {d d' : EventDispatcher} {c w : Nat} {msg : Event}
    (h : d.deliver c w = some (msg, d')) :
    d'.listeners = d.listeners ∧ d'.buffered = d.buffered ∧ d'.closedHandles = d.closedHandles ∧
      d'.closed = d.closed ∧ d'.made = d.made ∧
      (∀ c' u, d'.Listens c' u ↔ d.Listens c' u) ∧
      (∀ c' u, (d'.sub c' u).flow = (d.sub c' u).flow) ∧
      (d'.sub c w).got = (d.sub c w).got ++ [msg] ∧ ∀ c' u, u ≠ w → d'.sub c' u = d.sub c' u := by
  obtain ⟨f, rfl, -, -, hactive, hflow, hgot, hother⟩ := deliver_eq h
  refine ⟨rfl, rfl, rfl, rfl, rfl, fun c' u => ?_, fun c' u => ?_, ?_, fun c' u hne => ?_⟩
  · unfold Listens
    by_cases hcc : c' = c
    · subst hcc
      rw [withController_self, hactive]
    · rw [withController_of_ne _ _ hcc]
  · unfold sub
    by_cases hcc : c' = c
    · subst hcc
      rw [withController_self]
      exact hflow u
    · rw [withController_of_ne _ _ hcc]
  · unfold sub
    rw [withController_self]
    exact hgot
  · unfold sub
    by_cases hcc : c' = c
    · subst hcc
      rw [withController_self]
      exact hother u hne
    · rw [withController_of_ne _ _ hcc]

theorem wellFormed_deliver {d d' : EventDispatcher} {c w : Nat} {msg : Event} (hd : d.WellFormed)
    (h : d.deliver c w = some (msg, d')) : d'.WellFormed := by
  obtain ⟨f, rfl, hhandle, hclosed, -⟩ := deliver_eq h
  exact hd.withController ⟨hhandle, hclosed⟩

/-- What a released wrapper leaves alone. -/
theorem release_frame {d : EventDispatcher} (h : String) (c w : Nat) :
    let d' := (d.unsubscribe h).withController c fun hc =>
      { hc with controller := hc.controller.cancel w }
    d'.closed = d.closed ∧ d'.made = d.made ∧
      (∀ c' u, u ≠ w → d'.sub c' u = d.sub c' u ∧ (d.Listens c' u → d'.Listens c' u)) ∧
      ∀ c', (d'.sub c' w).got = (d.sub c' w).got := by
  intro d'
  obtain ⟨hclosed, hmade, hsubs⟩ := d.unsubscribe_subs h
  have hsub : ∀ c', (d'.controllers c').controller = (if c' = c then
      ((d.unsubscribe h).controllers c').controller.cancel w
      else ((d.unsubscribe h).controllers c').controller) := by
    intro c'
    by_cases hcc : c' = c
    · subst hcc
      rw [if_pos rfl, show d'.controllers c' = _ from withController_self _ _ _]
    · rw [if_neg hcc, show d'.controllers c' = _ from withController_of_ne _ _ hcc]
  refine ⟨hclosed, hmade, fun c' u hne => ?_, fun c' => ?_⟩
  · unfold sub Listens
    rw [hsub c', ← (hsubs c').2.2]
    split
    · refine ⟨Controller.subs_cancel_of_ne hne, fun hmem => ?_⟩
      rw [← (hsubs c').2.1] at hmem
      exact List.mem_filter.mpr ⟨hmem, by simpa using hne⟩
    · exact ⟨rfl, fun hmem => (hsubs c').2.1 ▸ hmem⟩
  · unfold sub
    rw [hsub c', ← (hsubs c').2.2]
    split
    · simp [Controller.cancel]
    · rfl

/-- What the constructor of a wrapper leaves alone. -/
theorem construct_frame {d : EventDispatcher} (hd : d.WellFormed) (handle : String) (u : Nat) :
    let d' := (d.listen handle).2.subscribe (d.listen handle).1 u
    d'.closed = d.closed ∧ (∀ h, h ∉ d.closedHandles → h ∉ d'.closedHandles) ∧
      (∀ h c, d.listeners.get h = some c → d'.listeners.get h = some c) ∧
      (∀ h, h ≠ handle → d'.listeners.get h = d.listeners.get h ∧
        d'.buffered.get h = d.buffered.get h) ∧
      ∀ c w, c < d.made → w ≠ u → d.Listens c w → d'.Listens c w ∧ d'.sub c w = d.sub c w := by
  intro d'
  obtain ⟨-, -, hframe⟩ := listen_frame hd handle
  have hsub : ∀ c w, c < d.made → w ≠ u → d.Listens c w →
      d'.Listens c w ∧ d'.sub c w = d.sub c w := by
    intro c w hc hne hlistens
    have hsame : (d.listen handle).2.controllers c = d.controllers c := hframe c hc
    have hlistens' : (d.listen handle).2.Listens c w := by
      unfold Listens
      rw [hsame]
      exact hlistens
    obtain ⟨h1, h2⟩ := subscribe_frame hne (d.listen handle).1 hlistens'
    refine ⟨h1, h2.trans ?_⟩
    unfold sub
    rw [hsame]
  rcases d.listen_eq handle with ⟨c, hc, heq⟩ | ⟨hc, heq⟩
  · have hd' : (d.listen handle).2 = d := by rw [heq]
    refine ⟨?_, ?_, ?_, ?_, hsub⟩
    · show (d.listen handle).2.closed = d.closed
      rw [hd']
    · intro h hh
      show h ∉ (d.listen handle).2.closedHandles
      rwa [hd']
    · intro h c' hc'
      show (d.listen handle).2.listeners.get h = some c'
      rwa [hd']
    · intro h _
      show (d.listen handle).2.listeners.get h = _ ∧ (d.listen handle).2.buffered.get h = _
      rw [hd']
      exact ⟨rfl, rfl⟩
  · have hd' := congrArg Prod.snd heq
    refine ⟨?_, ?_, ?_, ?_, hsub⟩
    · show (d.listen handle).2.closed = d.closed
      rw [hd']
    · intro h hh
      show h ∉ (d.listen handle).2.closedHandles
      rw [hd']
      exact fun hmem => hh (List.mem_of_mem_erase hmem)
    · intro h c' hc'
      show (d.listen handle).2.listeners.get h = some c'
      rw [hd']
      have hne : h ≠ handle := by
        rintro rfl
        cases hc.symm.trans hc'
      exact (GoMap.get_set_of_ne _ _ hne).trans hc'
    · intro h hne
      show (d.listen handle).2.listeners.get h = _ ∧ (d.listen handle).2.buffered.get h = _
      rw [hd']
      exact ⟨GoMap.get_set_of_ne _ _ hne, GoMap.get_delete_of_ne _ hne⟩

/-- The first wrapper of a handle is given what the dispatcher has kept. -/
theorem construct_first {d : EventDispatcher} {handle : String}
    (hnone : d.listeners.get handle = none) (w : Nat) :
    let d' := (d.listen handle).2.subscribe (d.listen handle).1 w
    d'.listeners.get handle = some (d.listen handle).1 ∧ d'.Listens (d.listen handle).1 w ∧
      (d'.sub (d.listen handle).1 w).flow = (d.buffered.get handle).getD [] := by
  rcases d.listen_eq handle with ⟨c, hc, -⟩ | ⟨-, heq⟩
  · cases hnone.symm.trans hc
  · intro d'
    have hd' : d' = (EventDispatcher.subscribe _ d.made w) :=
      congrArg (fun r : Nat × EventDispatcher => r.2.subscribe r.1 w) heq
    have hsource : (d.listen handle).1 = d.made := congrArg Prod.fst heq
    rw [hsource, hd']
    unfold subscribe Listens sub
    rw [withController_self]
    refine ⟨GoMap.get_set_self _ _ _, ?_, ?_⟩
    · simp [Controller.new, Controller.subscribe, Controller.addAll]
    · simpa [Controller.new, Controller.subscribe, Controller.addAll] using
        filter_getD (d.buffered.get handle)

end EventDispatcher

end PionBridge.Dart
