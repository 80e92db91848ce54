import PionBridge.Proofs.Dart.Events.Dispatcher

/-!
# `PionBridge.Proofs.Dart.Events.Wrappers`: the streams of a wrapper

`StreamInv` ties each stream of a wrapper to the events that were routed: those of its type are
buffered until its first listener comes, and relayed from then on. `WorldInv` has this for every
wrapper that is not disposed, together with the fact that `_route` was called with what the
subscription of the wrapper was given. It holds in every run.
-/

set_option autoImplicit false

namespace PionBridge.Dart

open PionBridge.Lib

/-! ### The streams of a wrapper -/

/-- What the stream of type `type` is given for a routed event. -/
def eventOf (toStr : Decoded → String) (kind : ResourceKind) (type : StreamType) (r : Routed) :
    Option Payload :=
  (routeOf toStr kind r.child r.msg).bind fun e => if e.1 = type then some e.2 else none

namespace Wrapper

variable {toStr : Decoded → String} {v : Wrapper}

/-- The events of one type, in order. -/
def events (toStr : Decoded → String) (v : Wrapper) (type : StreamType) (l : List Routed) :
    List Payload :=
  l.filterMap (eventOf toStr v.kind type)

/-- Each stream buffers its events until its first listener comes, and relays them from then on. -/
def StreamInv (toStr : Decoded → String) (v : Wrapper) : Prop :=
  ∀ type, (v.opened type = none → (v.streams type).Buffers (v.events toStr type v.routed)) ∧
    ∀ m, v.opened type = some m → m ≤ v.routed.length ∧
      (v.streams type).Relays (v.events toStr type (v.routed.take m))
        (v.events toStr type (v.routed.drop m))

/-- The wrapper after one event was routed. -/
def took (toStr : Decoded → String) (v : Wrapper) (child : Nat) (msg : Event) : Wrapper :=
  let v' := { v with routed := v.routed ++ [⟨msg, child⟩] }
  match routeOf toStr v.kind child msg with
  | none => v'
  | some e => v'.withStream e.1 (·.add e.2)

theorem streamInv_new (kind : ResourceKind) (handle : String) (source born : Nat) :
    (Wrapper.new kind handle source born).StreamInv toStr :=
  fun _ => ⟨fun _ => BufferedBroadcast.buffers_new, nofun⟩

theorem events_append (v : Wrapper) (type : StreamType) (l : List Routed) (r : Routed) :
    v.events toStr type (l ++ [r]) =
      v.events toStr type l ++ (eventOf toStr v.kind type r).toList := by
  unfold events
  rw [List.filterMap_append]
  cases h : eventOf toStr v.kind type r <;> simp [h]

theorem took_fields (toStr : Decoded → String) (v : Wrapper) (child : Nat) (msg : Event) :
    (v.took toStr child msg).kind = v.kind ∧ (v.took toStr child msg).handle = v.handle ∧
      (v.took toStr child msg).disposed = v.disposed ∧
      (v.took toStr child msg).source = v.source ∧ (v.took toStr child msg).born = v.born ∧
      (v.took toStr child msg).routed = v.routed ++ [⟨msg, child⟩] ∧
      (v.took toStr child msg).opened = v.opened := by
  unfold took
  dsimp only
  split <;> exact ⟨rfl, rfl, rfl, rfl, rfl, rfl, rfl⟩

/-- Each stream is given what `eventOf` says. -/
theorem streams_took (v : Wrapper) (child : Nat) (msg : Event) (type : StreamType) :
    (v.took toStr child msg).streams type =
      match eventOf toStr v.kind type ⟨msg, child⟩ with
      | none => v.streams type
      | some payload => (v.streams type).add payload := by
  unfold took eventOf
  dsimp only
  cases routeOf toStr v.kind child msg with
  | none => rfl
  | some e =>
      by_cases he : e.1 = type
      · subst he
        simp [withStream]
      · have hne : type ≠ e.1 := fun h => he h.symm
        simp [withStream, he, hne]

/-- The step lemma for an event. -/
theorem StreamInv.took (hv : v.StreamInv toStr) (child : Nat) (msg : Event) :
    (v.took toStr child msg).StreamInv toStr := by
  obtain ⟨hkind, -, -, -, -, hrouted, hopened⟩ := v.took_fields toStr child msg
  have hevents : ∀ type l,
      (v.took toStr child msg).events toStr type l = v.events toStr type l := by
    intro type l
    unfold events
    rw [hkind]
  intro type
  simp only [hevents, hrouted, hopened, streams_took]
  obtain ⟨hbuffers, hrelays⟩ := hv type
  refine ⟨fun hnone => ?_, fun m hm => ?_⟩
  · rw [events_append]
    cases eventOf toStr v.kind type ⟨msg, child⟩ with
    | none => simpa using hbuffers hnone
    | some payload => exact (hbuffers hnone).add payload
  · obtain ⟨hle, hrelay⟩ := hrelays m hm
    rw [List.take_append_of_le_length hle, List.drop_append_of_le_length hle, events_append]
    refine ⟨by rw [List.length_append]; omega, ?_⟩
    cases eventOf toStr v.kind type ⟨msg, child⟩ with
    | none => simpa using hrelay
    | some payload => exact hrelay.add payload

/-- The step lemma for a listener that comes. -/
theorem StreamInv.listen (hv : v.StreamInv toStr) (type : StreamType) :
    (v.listen type).StreamInv toStr := by
  intro type'
  by_cases htype : type' = type
  · subst htype
    obtain ⟨hbuffers, hrelays⟩ := hv type'
    have hstream : (v.listen type').streams type' = (v.streams type').listen := by
      simp [Wrapper.listen, withStream]
    have hopened : (v.listen type').opened type' = (v.opened type').or (some v.routed.length) := by
      simp [Wrapper.listen]
    rw [hstream, hopened]
    cases hopen : v.opened type' with
    | none =>
        refine ⟨nofun, fun m hm => ?_⟩
        cases hm
        refine ⟨Nat.le_refl _, ?_⟩
        show ((v.streams type').listen).Relays
          (v.events toStr type' (v.routed.take v.routed.length))
          (v.events toStr type' (v.routed.drop v.routed.length))
        rw [List.take_length, List.drop_length]
        exact (hbuffers hopen).listen
    | some n =>
        refine ⟨nofun, fun m hm => ?_⟩
        cases hm
        obtain ⟨hle, hrelay⟩ := hrelays n hopen
        exact ⟨hle, hrelay.listen⟩
  · have hstream : (v.listen type).streams type' = v.streams type' := by
      simp [Wrapper.listen, withStream, htype]
    have hopened : (v.listen type).opened type' = v.opened type' := by
      simp [Wrapper.listen, htype]
    rw [hstream, hopened]
    exact hv type'

/-- A stream that hands over an event or loses a listener. -/
theorem StreamInv.withStream {type : StreamType}
    {f : BufferedBroadcast Payload → BufferedBroadcast Payload} (hv : v.StreamInv toStr)
    (hbuffers : ∀ before, (v.streams type).Buffers before → (f (v.streams type)).Buffers before)
    (hrelays : ∀ before after, (v.streams type).Relays before after →
      (f (v.streams type)).Relays before after) : (v.withStream type f).StreamInv toStr := by
  intro type'
  by_cases htype : type' = type
  · subst htype
    have hstream : (v.withStream type' f).streams type' = f (v.streams type') := by
      simp [Wrapper.withStream]
    rw [hstream]
    exact ⟨fun hnone => hbuffers _ ((hv type').1 hnone),
      fun m hm => ⟨((hv type').2 m hm).1, hrelays _ _ ((hv type').2 m hm).2⟩⟩
  · have hstream : (v.withStream type f).streams type' = v.streams type' := by
      simp [Wrapper.withStream, htype]
    rw [hstream]
    exact hv type'

end Wrapper

/-! ### The wrappers -/

namespace EventWorld

variable {toStr : Decoded → String} {s s' : EventWorld} {h : String}

/-- What holds in every run: a controller is in use for one handle, `_route` was called with what
the subscription was given, and the streams of a wrapper that is not disposed are in order. -/
structure WorldInv (toStr : Decoded → String) (s : EventWorld) : Prop where
  known : ∀ w v, s.wrappers w = some v → w < s.created
  sources : ∀ w v, s.wrappers w = some v → v.source < s.dispatcher.made
  wellFormed : s.dispatcher.WellFormed
  got : ∀ w v, s.wrappers w = some v → v.routed.map Routed.msg = (s.dispatcher.sub v.source w).got
  streams : ∀ w v, s.wrappers w = some v → v.disposed = false → v.StreamInv toStr

theorem wrappers_withWrapper {w u : Nat} {f : Wrapper → Wrapper} {v' : Wrapper}
    (hu : (s.withWrapper w f).wrappers u = some v') :
    ∃ v, s.wrappers u = some v ∧ (v' = v ∨ u = w ∧ v' = f v) := by
  unfold withWrapper at hu
  by_cases huw : u = w
  · subst huw
    simp only [Function.update_self] at hu
    obtain ⟨v, hv, rfl⟩ := Option.map_eq_some_iff.mp hu
    exact ⟨v, hv, Or.inr ⟨rfl, rfl⟩⟩
  · simp only [Function.update_of_ne huw] at hu
    exact ⟨v', hu, Or.inl rfl⟩

/-- A change of one wrapper. -/
theorem WorldInv.withWrapper {w : Nat} {f : Wrapper → Wrapper} (hs : s.WorldInv toStr)
    (hsource : ∀ v, (f v).source = v.source) (hrouted : ∀ v, (f v).routed = v.routed)
    (hdisposed : ∀ v, (f v).disposed = false → v.disposed = false)
    (hstream : ∀ v, s.wrappers w = some v → (f v).disposed = false → v.StreamInv toStr →
      (f v).StreamInv toStr) : (s.withWrapper w f).WorldInv toStr := by
  refine ⟨fun u v' hu => ?_, fun u v' hu => ?_, hs.wellFormed, fun u v' hu => ?_,
    fun u v' hu hopen => ?_⟩ <;>
    obtain ⟨v, hv, rfl | ⟨rfl, rfl⟩⟩ := wrappers_withWrapper hu
  · exact hs.known u v' hv
  · exact hs.known u v hv
  · exact hs.sources u v' hv
  · rw [hsource]
    exact hs.sources u v hv
  · exact hs.got u v' hv
  · rw [hsource, hrouted]
    exact hs.got u v hv
  · exact hs.streams u v' hv hopen
  · exact hstream v hv hopen (hs.streams u v hv (hdisposed v hopen))

theorem WorldInv.broadcast (hs : s.WorldInv toStr) (msg : Event) :
    { s with
      dispatcher := s.dispatcher.broadcast msg
      sent := s.sent ++ [msg] }.WorldInv toStr where
  known := hs.known
  sources w v hv := by
    have hmade : (s.dispatcher.broadcast msg).made = s.dispatcher.made := by
      unfold EventDispatcher.broadcast
      repeat' split
      all_goals rfl
    exact hmade ▸ hs.sources w v hv
  wellFormed := hs.wellFormed.broadcast msg
  got w v hv := (hs.got w v hv).trans (EventDispatcher.got_broadcast _ msg _ _).symm
  streams := hs.streams

/-- What the constructor does to the dispatcher. -/
theorem construct_eq (s : EventWorld) (kind : ResourceKind) (handle : String) :
    s.construct kind handle = { s with
      dispatcher :=
        (s.dispatcher.listen handle).2.subscribe (s.dispatcher.listen handle).1 s.created
      wrappers := Function.update s.wrappers s.created
        (some (Wrapper.new kind handle (s.dispatcher.listen handle).1 s.sent.length))
      created := s.created + 1 } := rfl

theorem wrappers_construct {kind : ResourceKind} {handle : String} {u : Nat} {v : Wrapper}
    (hu : (s.construct kind handle).wrappers u = some v) :
    s.wrappers u = some v ∧ u ≠ s.created ∨
      u = s.created ∧ v = Wrapper.new kind handle (s.dispatcher.listen handle).1 s.sent.length := by
  rw [construct_eq] at hu
  by_cases huc : u = s.created
  · subst huc
    simp only [Function.update_self, Option.some.injEq] at hu
    exact Or.inr ⟨rfl, hu.symm⟩
  · simp only [Function.update_of_ne huc] at hu
    exact Or.inl ⟨hu, huc⟩

theorem WorldInv.construct (hs : s.WorldInv toStr) (kind : ResourceKind) (handle : String) :
    (s.construct kind handle).WorldInv toStr := by
  obtain ⟨hmade, hlt, hframe⟩ := EventDispatcher.listen_frame hs.wellFormed handle
  refine ⟨fun u v hu => ?_, fun u v hu => ?_, (hs.wellFormed.listen handle).subscribe _ _,
    fun u v hu => ?_, fun u v hu hopen => ?_⟩ <;>
    rcases wrappers_construct hu with ⟨hv, hne⟩ | ⟨rfl, rfl⟩
  · exact Nat.lt_succ_of_lt (hs.known u v hv)
  · exact Nat.lt_succ_self _
  · exact Nat.lt_of_lt_of_le (hs.sources u v hv) hmade
  · exact hlt
  · rw [hs.got u v hv, construct_eq]
    dsimp only
    rw [EventDispatcher.got_subscribe hne]
    unfold EventDispatcher.sub
    rw [hframe _ (hs.sources u v hv)]
  · exact (EventDispatcher.got_construct hs.wellFormed handle s.created).symm
  · exact hs.streams u v hv hopen
  · exact Wrapper.streamInv_new _ _ _ _

/-- The wrapper `w` is given the event `msg`. -/
def taken (toStr : Decoded → String) (s : EventWorld) (d : EventDispatcher) (w : Nat) (v : Wrapper)
    (msg : Event) : EventWorld :=
  { s with
    dispatcher := d
    wrappers := Function.update s.wrappers w (some (v.took toStr s.created msg)) }

/-- A step of `_route`: the event is taken, and if it brings a data channel, its wrapper is
constructed. -/
theorem route_eq {w : Nat} (hknown : ∀ w v, s.wrappers w = some v → w < s.created)
    (h : s.route toStr w = some s') :
    ∃ v msg d, s.wrappers w = some v ∧ s.dispatcher.deliver v.source w = some (msg, d) ∧
      (s' = s.taken toStr d w v msg ∨
        v.kind = .peerConnection ∧ ∃ handle, incomingHandle msg = some handle ∧ s' =
          ((s.taken toStr d w v msg).construct .dataChannel handle).adopt w s.created) := by
  obtain ⟨v, hv, hmap⟩ := Option.bind_eq_some_iff.mp h
  obtain ⟨⟨msg, d⟩, hdeliver, rfl⟩ := Option.map_eq_some_iff.mp hmap
  refine ⟨v, msg, d, hv, hdeliver, ?_⟩
  have hne : s.created ≠ w := Nat.ne_of_gt (hknown w v hv)
  unfold routed taken Wrapper.took
  dsimp only
  cases hroute : routeOf toStr v.kind s.created msg with
  | none => simp [withWrapper, hv]
  | some e =>
      dsimp only
      split
      · rename_i handle hkind hhandle
        refine Or.inr ⟨hkind, handle, hhandle, ?_⟩
        simp only [withWrapper, adopt, hv, Option.map_some, construct_eq, ne_eq, hne.symm,
          not_false_eq_true, Function.update_of_ne, Function.update_self, Wrapper.withStream,
          Function.update_idem, mk.injEq, and_self, and_true, true_and]
        rw [Function.update_comm hne.symm, Function.update_idem, Function.update_comm hne.symm,
          Function.update_idem]
      · simp [withWrapper, hv]

theorem wrappers_taken {d : EventDispatcher} {w u : Nat} {v v' : Wrapper} {msg : Event}
    (hu : (s.taken toStr d w v msg).wrappers u = some v') :
    (u ≠ w ∧ s.wrappers u = some v') ∨ (u = w ∧ v' = v.took toStr s.created msg) := by
  unfold taken at hu
  by_cases huw : u = w
  · subst huw
    simp only [Function.update_self, Option.some.injEq] at hu
    exact Or.inr ⟨rfl, hu.symm⟩
  · simp only [Function.update_of_ne huw] at hu
    exact Or.inl ⟨huw, hu⟩

theorem WorldInv.taken {d : EventDispatcher} {w : Nat} {v : Wrapper} {msg : Event}
    (hs : s.WorldInv toStr) (hv : s.wrappers w = some v)
    (h : s.dispatcher.deliver v.source w = some (msg, d)) :
    (s.taken toStr d w v msg).WorldInv toStr := by
  obtain ⟨-, -, -, -, hmade, -, -, hgot, hother⟩ := EventDispatcher.deliver_frame h
  obtain ⟨-, -, hdisposed, hsource, -, hrouted, -⟩ :=
    v.took_fields toStr s.created msg
  refine ⟨fun u v' hu => ?_, fun u v' hu => ?_, EventDispatcher.wellFormed_deliver hs.wellFormed h,
    fun u v' hu => ?_, fun u v' hu hopen => ?_⟩ <;>
    rcases wrappers_taken hu with ⟨hne, hu⟩ | ⟨rfl, rfl⟩
  · exact hs.known u v' hu
  · exact hs.known u v hv
  · exact hmade ▸ hs.sources u v' hu
  · rw [hsource]
    exact hmade ▸ hs.sources u v hv
  · rw [hs.got u v' hu]
    exact congrArg Subscription.got (hother v'.source u hne).symm
  · rw [hrouted, hsource, List.map_append, hs.got u v hv]
    exact hgot.symm
  · exact hs.streams u v' hu hopen
  · exact (hs.streams u v hv (hdisposed ▸ hopen)).took s.created msg

/-- What `release` does to the wrappers. -/
theorem wrappers_release {w u : Nat} {v' : Wrapper} (hu : (s.release w).wrappers u = some v') :
    ∃ v, s.wrappers u = some v ∧ v'.handle = v.handle ∧ v'.source = v.source ∧
      v'.born = v.born ∧ v'.routed = v.routed ∧ (v.disposed = true → v'.disposed = true) ∧
      (v'.disposed = false → v' = v) ∧ (u ≠ w → v' = v) := by
  unfold release at hu
  split at hu
  · exact ⟨v', hu, rfl, rfl, rfl, rfl, id, fun _ => rfl, fun _ => rfl⟩
  · split at hu
    · exact ⟨v', hu, rfl, rfl, rfl, rfl, id, fun _ => rfl, fun _ => rfl⟩
    · obtain ⟨v, hv, rfl | ⟨rfl, rfl⟩⟩ := wrappers_withWrapper hu
      · exact ⟨v', hv, rfl, rfl, rfl, rfl, id, fun _ => rfl, fun _ => rfl⟩
      · exact ⟨v, hv, rfl, rfl, rfl, rfl, fun _ => rfl, nofun, fun hne => absurd rfl hne⟩

/-- What `release` does to the dispatcher. -/
theorem release_dispatcher (s : EventWorld) (w : Nat) :
    (s.release w).dispatcher = s.dispatcher ∨
      ∃ v, s.wrappers w = some v ∧ v.disposed = false ∧ (s.release w).dispatcher =
        (s.dispatcher.unsubscribe v.handle).withController v.source fun hc =>
          { hc with controller := hc.controller.cancel w } := by
  unfold release
  split
  · exact Or.inl rfl
  · rename_i v hv
    split
    · exact Or.inl rfl
    · rename_i hopen
      exact Or.inr ⟨v, hv, by simpa using hopen, rfl⟩

theorem WorldInv.release (hs : s.WorldInv toStr) (w : Nat) : (s.release w).WorldInv toStr := by
  have hcreated : (s.release w).created = s.created := by
    unfold EventWorld.release
    repeat' split
    all_goals rfl
  have hdisp : (s.release w).dispatcher.WellFormed ∧
      (s.release w).dispatcher.made = s.dispatcher.made ∧
      ∀ c u, ((s.release w).dispatcher.sub c u).got = (s.dispatcher.sub c u).got := by
    rcases release_dispatcher s w with heq | ⟨v, hv, -, heq⟩
    · rw [heq]
      exact ⟨hs.wellFormed, rfl, fun _ _ => rfl⟩
    · rw [heq]
      obtain ⟨-, hmade, hother, hgot⟩ :=
        EventDispatcher.release_frame (d := s.dispatcher) v.handle v.source w
      refine ⟨(hs.wellFormed.unsubscribe v.handle).withController ⟨rfl, rfl⟩, hmade, fun c u => ?_⟩
      by_cases huw : u = w
      · subst huw
        exact hgot c
      · exact congrArg Subscription.got (hother c u huw).1
  obtain ⟨hwf, hmade, hgot⟩ := hdisp
  refine ⟨fun u v' hu => ?_, fun u v' hu => ?_, hwf, fun u v' hu => ?_, fun u v' hu hopen => ?_⟩ <;>
    obtain ⟨v, hv, -, hsource, -, hrouted, -, hsame, -⟩ := wrappers_release hu
  · exact hcreated ▸ hs.known u v hv
  · rw [hsource, hmade]
    exact hs.sources u v hv
  · rw [hrouted, hsource, hs.got u v hv, hgot]
  · obtain rfl := hsame hopen
    exact hs.streams u v' hv hopen

theorem WorldInv.foldl_release (hs : s.WorldInv toStr) (ws : List Nat) :
    (ws.foldl EventWorld.release s).WorldInv toStr := by
  induction ws generalizing s with
  | nil => exact hs
  | cons w ws ih => exact ih (hs.release w)

theorem WorldInv.closeAll (hs : s.WorldInv toStr) :
    { s with dispatcher := s.dispatcher.closeAll }.WorldInv toStr where
  known := hs.known
  sources := hs.sources
  wellFormed := ⟨nofun, nofun, nofun⟩
  got w v hv := by
    rw [hs.got w v hv]
    unfold EventDispatcher.sub EventDispatcher.closeAll
    dsimp only
    split <;> rfl
  streams := hs.streams

/-- The children of a wrapper are not about its events. -/
theorem WorldInv.withChildren (hs : s.WorldInv toStr) (w : Nat) (f : List Nat → List Nat) :
    (s.withWrapper w fun v => { v with children := f v.children }).WorldInv toStr :=
  hs.withWrapper (fun _ => rfl) (fun _ => rfl) (fun _ hopen => hopen) fun _ _ _ hv => hv

/-- The step lemma of the wrappers. -/
theorem WorldInv.step {a : EventAction} (hs : s.WorldInv toStr) (h : s.step toStr a = some s') :
    s'.WorldInv toStr := by
  cases a with
  | broadcast msg =>
      cases h
      exact hs.broadcast msg
  | construct kind handle parent =>
      cases h
      cases parent with
      | none => exact hs.construct kind handle
      | some p => exact (hs.construct kind handle).withChildren p (· ++ [s.created])
  | route w =>
      obtain ⟨v, msg, d, hv, hdeliver, rfl | ⟨-, handle, -, rfl⟩⟩ := route_eq hs.known h
      · exact hs.taken hv hdeliver
      · exact ((hs.taken hv hdeliver).construct _ handle).withChildren w (· ++ [s.created])
  | listen w type =>
      obtain ⟨v, hv, hif⟩ := Option.bind_eq_some_iff.mp h
      split at hif
      · cases hif
        exact hs.withWrapper (fun _ => rfl) (fun _ => rfl) (fun _ hopen => hopen)
          fun _ _ _ hstream => hstream.listen type
      · cases hif
  | deliver w type k =>
      obtain ⟨v, hv, hmap⟩ := Option.bind_eq_some_iff.mp h
      obtain ⟨b, hb, rfl⟩ := Option.map_eq_some_iff.mp hmap
      refine hs.withWrapper (fun _ => rfl) (fun _ => rfl) (fun _ hopen => hopen)
        fun v' hv' _ hstream => ?_
      cases hv.symm.trans hv'
      exact hstream.withStream (fun _ hbuf => hbuf.deliver hb) fun _ _ hrel => hrel.deliver hb
  | cancel w type k =>
      cases h
      refine hs.withWrapper (fun _ => rfl) (fun _ => rfl) (fun _ hopen => hopen)
        fun _ _ _ hstream => ?_
      exact hstream.withStream (fun _ hbuf => hbuf.cancel) fun _ _ hrel => hrel.cancel
  | dispose w =>
      cases h
      unfold disposeLocal
      split
      · exact hs
      · exact ((hs.release w).foldl_release _).withChildren w fun _ => []
  | closeAll =>
      cases h
      exact hs.closeAll

theorem worldInv_new : (new : EventWorld).WorldInv toStr :=
  ⟨nofun, nofun, ⟨nofun, nofun, nofun⟩, nofun, nofun⟩

end EventWorld

end PionBridge.Dart
