import PionBridge.Proofs.Dart.Events.Wrappers

/-!
# `PionBridge.Proofs.Dart.Events.Family`: a connection and its channels

`_children` of a `PionPeerConnection` is filled from two places, `_route` and `createDataChannel`,
and emptied in `disposeLocal`. Two things are missing. A `PionDataChannel` that is closed on its own
stays in `_children`. A `createDataChannel` whose response comes after the connection was disposed
constructs a channel that nobody disposes, and its listener stays in the dispatcher.

Where neither happens (`Family.Settled`), a channel is disposed exactly when its connection is, and
`_children` lists the channels of a connection (`OwnInv`). The dispatcher has no listener for a
disposed wrapper, and its subscription is given nothing more (`Quieted`), so a disposed connection
makes no channels.

`Family` records the connection for which a wrapper was constructed.
-/

set_option autoImplicit false

namespace PionBridge.Dart

open PionBridge.Lib

/-! ### A subscription that was cancelled -/

namespace EventDispatcher

variable {d d' : EventDispatcher} {c w : Nat}

/-- The wrapper does not listen at the controller, and no event waits for it. -/
def Silent (d : EventDispatcher) (c w : Nat) : Prop := ¬ d.Listens c w ∧ (d.sub c w).queue = []

/-- The controllers keep the subscriptions of `w`, or none of their listeners is `w`. -/
theorem Silent.withController (h : d.Silent c w) (c' : Nat)
    {f : HandleController → HandleController}
    (hf : ∀ hc : HandleController, w ∉ hc.controller.active →
      w ∉ (f hc).controller.active ∧
        ((hc.controller.subs w).queue = [] → ((f hc).controller.subs w).queue = [])) :
    (d.withController c' f).Silent c w := by
  unfold Silent Listens sub
  by_cases hcc : c = c'
  · subst hcc
    rw [withController_self]
    obtain ⟨hactive, hqueue⟩ := hf (d.controllers c) h.1
    exact ⟨hactive, hqueue h.2⟩
  · rw [withController_of_ne _ _ hcc]
    exact h

theorem Silent.broadcast (h : d.Silent c w) (msg : Event) : (d.broadcast msg).Silent c w := by
  unfold EventDispatcher.broadcast
  split
  · exact h
  · split
    · exact h
    · split
      · refine h.withController _ fun hc hactive => ⟨hactive, fun hqueue => ?_⟩
        simpa [Controller.add, Controller.addAll, hactive] using hqueue
      · split
        · exact h
        · exact h

theorem Silent.subscribe (h : d.Silent c w) (c' : Nat) {u : Nat} (hne : w ≠ u) :
    (d.subscribe c' u).Silent c w := by
  refine h.withController c' fun hc hactive => ?_
  have hactive' : w ∉ (hc.controller.subscribe u).active := by
    unfold Controller.subscribe
    split
    · exact hactive
    · simpa [hne] using hactive
  have hsub : (hc.controller.subscribe u).subs w = hc.controller.subs w :=
    Controller.subs_subscribe_of_ne hne
  dsimp only
  split
  · refine ⟨hactive', fun hqueue => ?_⟩
    simpa [Controller.addAll, hactive', hsub] using hqueue
  · refine ⟨hactive', fun hqueue => ?_⟩
    simpa [hsub] using hqueue

/-- A controller that exists is left alone by `listen`. -/
theorem Silent.listen (h : d.Silent c w) (hd : d.WellFormed) (hc : c < d.made) (handle : String) :
    (d.listen handle).2.Silent c w := by
  obtain ⟨-, -, hframe⟩ := listen_frame hd handle
  unfold Silent Listens sub
  rw [hframe c hc]
  exact h

theorem Silent.unsubscribe (h : d.Silent c w) (handle : String) :
    (d.unsubscribe handle).Silent c w := by
  obtain ⟨-, -, hsubs⟩ := d.unsubscribe_subs handle
  unfold Silent Listens sub
  rw [(hsubs c).2.1, (hsubs c).2.2]
  exact h

theorem Silent.closeAll (h : d.Silent c w) : d.closeAll.Silent c w := by
  unfold Silent Listens sub EventDispatcher.closeAll
  dsimp only
  split
  · exact h
  · exact h

theorem Silent.deliver (h : d.Silent c w) {c' u : Nat} {msg : Event}
    (hd : d.deliver c' u = some (msg, d')) : d'.Silent c w := by
  obtain ⟨-, -, -, -, -, hlistens, hflow, hgot, hother⟩ := deliver_frame hd
  refine ⟨fun hl => h.1 ((hlistens c w).mp hl), ?_⟩
  by_cases huw : w = u
  · -- The flow is the same, and no event was handed over at this controller.
    subst huw
    by_cases hcc : c = c'
    · subst hcc
      obtain ⟨r, hr, -⟩ := Option.map_eq_some_iff.mp hd
      obtain ⟨sub', hnext, -⟩ := Controller.deliver_eq hr
      have hqueue := (Subscription.next_eq hnext).1
      rw [show ((d.controllers c).controller.subs w).queue = [] from h.2] at hqueue
      cases hqueue
    · obtain ⟨f, rfl, -⟩ := deliver_eq hd
      unfold sub
      rw [withController_of_ne _ _ hcc]
      exact h.2
  · rw [hother c w huw]
    exact h.2

/-- Nothing is delivered to it. -/
theorem Silent.deliver_eq_none (h : d.Silent c w) : d.deliver c w = none := by
  have hnext : ((d.controllers c).controller.subs w).next = none := by
    unfold Subscription.next
    rw [show ((d.controllers c).controller.subs w).queue = [] from h.2]
  simp only [EventDispatcher.deliver, Controller.deliver, hnext, Option.map_none]

/-- `unsubscribe` and the cancelled subscription of a wrapper that is released. -/
theorem silent_release (d : EventDispatcher) (handle : String) (c w : Nat) :
    ((d.unsubscribe handle).withController c fun hc =>
      { hc with controller := hc.controller.cancel w }).Silent c w := by
  unfold Silent Listens sub
  rw [withController_self]
  simp [Controller.cancel]

theorem Silent.release (h : d.Silent c w) (handle : String) (c' u : Nat) :
    ((d.unsubscribe handle).withController c' fun hc =>
      { hc with controller := hc.controller.cancel u }).Silent c w := by
  refine (h.unsubscribe handle).withController c' fun hc hactive => ⟨?_, fun hqueue => ?_⟩
  · exact fun hmem => hactive (List.mem_of_mem_filter hmem)
  · by_cases huw : w = u
    · subst huw
      simp [Controller.cancel]
    · rw [Controller.subs_cancel_of_ne huw]
      exact hqueue

/-- No handle but `handle` gets a listener in `listen`. -/
theorem listeners_listen (d : EventDispatcher) {handle h : String} (hne : h ≠ handle) :
    (d.listen handle).2.listeners.get h = d.listeners.get h := by
  obtain ⟨c, -, heq⟩ | ⟨-, heq⟩ := d.listen_eq handle
  · rw [heq]
  · rw [heq]
    exact GoMap.get_set_of_ne _ _ hne

theorem listeners_unsubscribe_self (d : EventDispatcher) (handle : String) :
    (d.unsubscribe handle).listeners.get handle = none := by
  unfold unsubscribe
  dsimp only
  split
  · show (d.listeners.delete handle).get handle = none
    rw [GoMap.get_delete, if_pos rfl]
  · rename_i hnone
    exact hnone

/-- A handle without a listener gets none in `unsubscribe`. -/
theorem listeners_unsubscribe_none {handle h : String} (hnone : d.listeners.get h = none) :
    (d.unsubscribe handle).listeners.get h = none := by
  by_cases hne : h = handle
  · rw [hne]
    exact d.listeners_unsubscribe_self handle
  · rw [(unsubscribe_frame hne).1]
    exact hnone

end EventDispatcher

/-! ### What a step does to the wrappers -/

namespace Wrapper

/-- A wrapper without its streams and what was routed. -/
def core (v : Wrapper) : ResourceKind × String × Bool × Nat × List Nat :=
  (v.kind, v.handle, v.disposed, v.source, v.children)

/-- The wrapper after `release`. -/
def released (v : Wrapper) : Wrapper :=
  if v.disposed then v
  else { v with disposed := true, streams := fun type => (v.streams type).close }

theorem disposed_released (v : Wrapper) : v.released.disposed = true := by
  unfold released
  split
  · assumption
  · rfl

theorem released_fields (v : Wrapper) : v.released.kind = v.kind ∧ v.released.handle = v.handle ∧
    v.released.source = v.source ∧ v.released.children = v.children := by
  unfold released
  split
  · exact ⟨rfl, rfl, rfl, rfl⟩
  · exact ⟨rfl, rfl, rfl, rfl⟩

theorem released_released (v : Wrapper) : v.released.released = v.released := by
  show (if v.released.disposed then v.released else _) = v.released
  rw [if_pos v.disposed_released]

theorem core_took (toStr : Decoded → String) (v : Wrapper) (child : Nat) (msg : Event) :
    (v.took toStr child msg).core = v.core := by
  unfold took
  dsimp only
  split
  · rfl
  · rfl

end Wrapper

namespace EventWorld

variable {toStr : Decoded → String} {s s' : EventWorld}

/-- Every wrapper is what it was, up to its streams and what was routed. -/
structure SameCores (s s' : EventWorld) : Prop where
  created : s'.created = s.created
  cores : ∀ w, (s'.wrappers w).map Wrapper.core = (s.wrappers w).map Wrapper.core

theorem SameCores.back (h : SameCores s s') {w : Nat} {v' : Wrapper}
    (hv' : s'.wrappers w = some v') : ∃ v, s.wrappers w = some v ∧ v'.core = v.core := by
  have hcore := h.cores w
  rw [hv', Option.map_some] at hcore
  obtain ⟨v, hv, heq⟩ := Option.map_eq_some_iff.mp hcore.symm
  exact ⟨v, hv, heq.symm⟩

theorem SameCores.symm (h : SameCores s s') : SameCores s' s :=
  ⟨h.created.symm, fun w => (h.cores w).symm⟩

theorem sameCores_withWrapper (s : EventWorld) (w : Nat) {f : Wrapper → Wrapper}
    (hf : ∀ v, (f v).core = v.core) : SameCores s (s.withWrapper w f) := by
  refine ⟨rfl, fun u => ?_⟩
  unfold withWrapper
  by_cases huw : u = w
  · subst huw
    simp only [Function.update_self, Option.map_map]
    exact Option.map_congr fun v _ => hf v
  · simp only [Function.update_of_ne huw]

theorem sameCores_taken {d : EventDispatcher} {w : Nat} {v : Wrapper} {msg : Event}
    (hv : s.wrappers w = some v) : SameCores s (s.taken toStr d w v msg) := by
  refine ⟨rfl, fun u => ?_⟩
  unfold taken
  by_cases huw : u = w
  · subst huw
    simp only [Function.update_self, hv, Option.map_some, Wrapper.core_took]
  · simp only [Function.update_of_ne huw]

theorem wrappers_release_eq (s : EventWorld) (w u : Nat) : (s.release w).wrappers u =
    if u = w then (s.wrappers u).map Wrapper.released else s.wrappers u := by
  unfold release
  by_cases huw : u = w
  · subst huw
    rw [if_pos rfl]
    cases hv : s.wrappers u with
    | none => simpa using hv
    | some v =>
        dsimp only
        by_cases hdisposed : v.disposed
        · rw [if_pos hdisposed, hv, Option.map_some, Wrapper.released, if_pos hdisposed]
        · rw [if_neg hdisposed]
          simp [withWrapper, hv, Wrapper.released, hdisposed]
  · rw [if_neg huw]
    split
    · rfl
    · split
      · rfl
      · exact Function.update_of_ne huw _ _

/-- The wrappers of the list are released, and no other. -/
theorem wrappers_foldl_release (ws : List Nat) (s : EventWorld) (u : Nat) :
    (ws.foldl release s).wrappers u =
      if u ∈ ws then (s.wrappers u).map Wrapper.released else s.wrappers u := by
  induction ws generalizing s with
  | nil => simp
  | cons w ws ih =>
      rw [List.foldl_cons, ih, wrappers_release_eq]
      by_cases huw : u = w
      · subst huw
        by_cases hmem : u ∈ ws
        · simp only [hmem, List.mem_cons, or_true, if_true, Option.map_map]
          exact Option.map_congr fun v _ => v.released_released
        · simp [hmem]
      · simp [huw]

theorem created_release (s : EventWorld) (w : Nat) : (s.release w).created = s.created := by
  unfold release
  split
  · rfl
  · split
    · rfl
    · rfl

theorem created_foldl_release (ws : List Nat) (s : EventWorld) :
    (ws.foldl release s).created = s.created := by
  induction ws generalizing s with
  | nil => rfl
  | cons w ws ih => exact (ih _).trans (created_release s w)

theorem created_dispose (s : EventWorld) (w : Nat) : (s.disposeLocal w).created = s.created := by
  unfold disposeLocal
  split
  · rfl
  · exact (created_foldl_release _ _).trans (created_release s w)

theorem withWrapper_self (s : EventWorld) (w : Nat) (f : Wrapper → Wrapper) :
    (s.withWrapper w f).wrappers w = (s.wrappers w).map f :=
  Function.update_self _ _ _

theorem withWrapper_of_ne (s : EventWorld) {w u : Nat} (f : Wrapper → Wrapper) (hne : u ≠ w) :
    (s.withWrapper w f).wrappers u = s.wrappers u :=
  Function.update_of_ne hne _ _

/-- `disposeLocal` of `w` releases `u`. -/
def Releases (s : EventWorld) (w u : Nat) : Prop := u = w ∨ u ∈ s.childrenOf w

instance (s : EventWorld) (w u : Nat) : Decidable (s.Releases w u) :=
  inferInstanceAs (Decidable (_ ∨ _))

/-- `disposeLocal` releases the wrapper and its children, and forgets the children. -/
theorem wrappers_disposeLocal_of_open {s : EventWorld} {w : Nat}
    (hopen : (s.wrappers w).any Wrapper.disposed = false) (u : Nat) :
    (s.disposeLocal w).wrappers u = (s.wrappers u).map fun v =>
      { (if s.Releases w u then v.released else v) with
        children := if u = w then [] else v.children } := by
  unfold disposeLocal
  rw [hopen, if_neg Bool.false_ne_true]
  by_cases huw : u = w
  · subst huw
    rw [withWrapper_self, wrappers_foldl_release, wrappers_release_eq, if_pos rfl]
    have hrel : s.Releases u u := .inl rfl
    by_cases hmem : u ∈ s.childrenOf u
    · rw [if_pos hmem, Option.map_map, Option.map_map]
      refine Option.map_congr fun v _ => ?_
      simp [hrel, v.released_released]
    · rw [if_neg hmem, Option.map_map]
      refine Option.map_congr fun v _ => ?_
      simp [hrel]
  · rw [withWrapper_of_ne _ _ huw, wrappers_foldl_release, wrappers_release_eq, if_neg huw]
    by_cases hmem : u ∈ s.childrenOf w
    · have hrel : s.Releases w u := .inr hmem
      simp only [hmem, hrel, huw, if_true, if_false]
      refine Option.map_congr fun v _ => ?_
      rw [← v.released_fields.2.2.2]
    · have hrel : ¬ s.Releases w u := fun h => h.elim huw hmem
      simp only [hmem, hrel, huw, if_false]
      exact Option.map_id'.symm

/-- A second call of `disposeLocal` changes nothing, the children included. -/
theorem wrappers_disposeLocal (s : EventWorld) (w u : Nat) :
    (s.disposeLocal w).wrappers u = (s.wrappers u).map fun v =>
      { (if s.Releases w u then v.released else v) with
        children := if u = w ∧ v.disposed = false then [] else v.children } := by
  cases hdisposed : (s.wrappers w).any Wrapper.disposed with
  | false =>
      rw [wrappers_disposeLocal_of_open hdisposed]
      refine Option.map_congr fun v hv => ?_
      by_cases huw : u = w
      · subst huw
        rw [Option.mem_def.mp hv] at hdisposed
        simp [show v.disposed = false from hdisposed]
      · simp [huw]
  | true =>
      unfold disposeLocal
      rw [hdisposed, if_pos rfl]
      obtain ⟨x, hx, hclosed⟩ := (Option.any_eq_true _ _).mp hdisposed
      cases hu : s.wrappers u with
      | none => rfl
      | some v =>
          by_cases huw : u = w
          · subst huw
            cases hx.symm.trans hu
            have hsame : x.released = x := if_pos hclosed
            rw [Option.map_some, hsame, ite_self, if_neg fun h => Bool.false_ne_true
              (h.2.symm.trans hclosed)]
          · have hrel : ¬ s.Releases w u := by
              unfold Releases childrenOf
              simp [huw, hx, hclosed]
            simp [huw, hrel]

/-! ### The dispatcher and disposed wrappers -/

/-- The handle of a disposed wrapper has no listener, and its subscription is given nothing. -/
def Quieted (s : EventWorld) : Prop :=
  ∀ w v, s.wrappers w = some v → v.disposed = true →
    s.dispatcher.listeners.get v.handle = none ∧ s.dispatcher.Silent v.source w

/-- No disposed wrapper has the handle. -/
def Unclosed (s : EventWorld) (handle : String) : Prop :=
  ∀ w v, s.wrappers w = some v → v.disposed = true → v.handle ≠ handle

/-- A step that constructs and disposes nothing. -/
theorem Quieted.same (hs : s.Quieted)
    (hwrappers : ∀ w v', s'.wrappers w = some v' → ∃ v, s.wrappers w = some v ∧
      v'.handle = v.handle ∧ v'.source = v.source ∧ v'.disposed = v.disposed)
    (hlisteners : ∀ h, s.dispatcher.listeners.get h = none →
      s'.dispatcher.listeners.get h = none)
    (hsilent : ∀ c w, s.dispatcher.Silent c w → s'.dispatcher.Silent c w) : s'.Quieted := by
  intro w v' hv' hdisposed
  obtain ⟨v, hv, hhandle, hsource, hsame⟩ := hwrappers w v' hv'
  obtain ⟨hnone, hquiet⟩ := hs w v hv (hsame ▸ hdisposed)
  rw [hhandle, hsource]
  exact ⟨hlisteners _ hnone, hsilent _ _ hquiet⟩

theorem Quieted.sameCores (hs : s.Quieted) (h : SameCores s s')
    (hlisteners : ∀ h, s.dispatcher.listeners.get h = none →
      s'.dispatcher.listeners.get h = none)
    (hsilent : ∀ c w, s.dispatcher.Silent c w → s'.dispatcher.Silent c w) : s'.Quieted := by
  refine hs.same (fun w v' hv' => ?_) hlisteners hsilent
  obtain ⟨v, hv, hcore⟩ := h.back hv'
  simp only [Wrapper.core, Prod.mk.injEq] at hcore
  exact ⟨v, hv, hcore.2.1, hcore.2.2.2.1, hcore.2.2.1⟩

theorem Quieted.withWrapper (hs : s.Quieted) (w : Nat) {f : Wrapper → Wrapper}
    (hf : ∀ v, (f v).handle = v.handle ∧ (f v).source = v.source ∧ (f v).disposed = v.disposed) :
    (s.withWrapper w f).Quieted := by
  refine hs.same (fun u v' hu => ?_) (fun _ hnone => hnone) fun _ _ hquiet => hquiet
  obtain ⟨v, hv, rfl | ⟨rfl, rfl⟩⟩ := wrappers_withWrapper hu
  · exact ⟨v', hv, rfl, rfl, rfl⟩
  · exact ⟨v, hv, hf v⟩

/-- A wrapper is constructed under a handle that is not closed. -/
theorem Quieted.construct (hs : s.Quieted) (hw : s.WorldInv toStr) {kind : ResourceKind}
    {handle : String} (hfresh : s.Unclosed handle) : (s.construct kind handle).Quieted := by
  intro u v hu hdisposed
  obtain ⟨hv, hne⟩ | ⟨-, rfl⟩ := wrappers_construct hu
  · obtain ⟨hnone, hquiet⟩ := hs u v hv hdisposed
    have hhandle := hfresh u v hv hdisposed
    constructor
    · show (s.dispatcher.listen handle).2.listeners.get v.handle = none
      rw [EventDispatcher.listeners_listen _ hhandle]
      exact hnone
    · exact (hquiet.listen hw.wellFormed (hw.sources u v hv) handle).subscribe _ hne
  · cases hdisposed

theorem Quieted.release (hs : s.Quieted) (w : Nat) : (s.release w).Quieted := by
  intro u v' hu hdisposed
  obtain ⟨v, hv, hhandle, hsource, -, -, -, -, hother⟩ := wrappers_release hu
  rw [hhandle, hsource]
  obtain heq | ⟨vw, hvw, hopen, heq⟩ := s.release_dispatcher w
  · rw [heq]
    by_cases huw : u = w
    · -- Nothing was released: the wrapper was disposed before.
      subst huw
      by_cases hbefore : v.disposed = true
      · exact hs u v hv hbefore
      · have hfalse : v.disposed = false := by simpa using hbefore
        have hrel : (s.release u).dispatcher =
            (s.dispatcher.unsubscribe v.handle).withController v.source fun hc =>
              { hc with controller := hc.controller.cancel u } := by
          simp [EventWorld.release, hv, hfalse, EventWorld.withWrapper]
        rw [← heq, hrel]
        exact ⟨s.dispatcher.listeners_unsubscribe_self v.handle,
          s.dispatcher.silent_release v.handle v.source u⟩
    · rw [hother huw] at hdisposed
      exact hs u v hv hdisposed
  · rw [heq]
    by_cases huw : u = w
    · subst huw
      cases hv.symm.trans hvw
      exact ⟨s.dispatcher.listeners_unsubscribe_self v.handle,
        s.dispatcher.silent_release v.handle v.source u⟩
    · rw [hother huw] at hdisposed
      obtain ⟨hnone, hquiet⟩ := hs u v hv hdisposed
      exact ⟨EventDispatcher.listeners_unsubscribe_none hnone, hquiet.release ..⟩

theorem Quieted.foldl_release (hs : s.Quieted) (ws : List Nat) :
    (ws.foldl EventWorld.release s).Quieted := by
  induction ws generalizing s with
  | nil => exact hs
  | cons w ws ih => exact ih (hs.release w)

end EventWorld

/-! ### Connections and their channels -/

/-- The connection for which an action constructs a wrapper. -/
def EventAction.parent : EventAction → Option Nat
  | .construct _ _ parent => parent
  | .route w => some w
  | _ => none

/-- The world, with the connection for which each wrapper was constructed. -/
structure Family where
  world : EventWorld
  owner : Nat → Option Nat

/-- The action has led to `world`. -/
def Family.next (f : Family) (a : EventAction) (world : EventWorld) : Family where
  world := world
  owner := if f.world.created < world.created
    then Function.update f.owner f.world.created a.parent else f.owner

def Family.step (toStr : Decoded → String) (f : Family) (a : EventAction) : Option Family :=
  (f.world.step toStr a).map (f.next a)

/-- All runs of the dispatcher and its wrappers, with that record. -/
def familySystem (toStr : Decoded → String) : StepSystem Family EventAction where
  init := ⟨EventWorld.new, fun _ => none⟩
  step := Family.step toStr

namespace EventWorld

variable {toStr : Decoded → String} {s s' : EventWorld} {owner : Nat → Option Nat}

/-- `p` is a connection that is not disposed. -/
def LivePeer (s : EventWorld) (p : Nat) : Prop :=
  ∃ v, s.wrappers p = some v ∧ v.kind = .peerConnection ∧ v.disposed = false

/-- A channel is disposed exactly when its connection is, and `_children` lists the channels of a
connection. -/
structure OwnInv (s : EventWorld) (owner : Nat → Option Nat) : Prop where
  parent : ∀ c p, owner c = some p → ∃ vc vp, s.wrappers c = some vc ∧ vc.kind = .dataChannel ∧
    s.wrappers p = some vp ∧ vp.kind = .peerConnection ∧ vc.disposed = vp.disposed
  children : ∀ p v, s.wrappers p = some v → v.disposed = false →
    v.children.Nodup ∧ ∀ c, c ∈ v.children ↔ owner c = some p

theorem OwnInv.sameCores (hs : OwnInv s owner) (h : SameCores s s') : OwnInv s' owner := by
  constructor
  · intro c p hcp
    obtain ⟨vc, vp, hvc, hckind, hvp, hpkind, hdisposed⟩ := hs.parent c p hcp
    obtain ⟨vc', hvc', hcore⟩ := h.symm.back hvc
    obtain ⟨vp', hvp', hcore'⟩ := h.symm.back hvp
    simp only [Wrapper.core, Prod.mk.injEq] at hcore hcore'
    refine ⟨vc', vp', hvc', hcore.1 ▸ hckind, hvp', hcore'.1 ▸ hpkind, ?_⟩
    rw [← hcore.2.2.1, ← hcore'.2.2.1, hdisposed]
  · intro p v' hv' hopen
    obtain ⟨v, hv, hcore⟩ := h.back hv'
    simp only [Wrapper.core, Prod.mk.injEq] at hcore
    rw [hcore.2.2.2.2]
    exact hs.children p v hv (hcore.2.2.1 ▸ hopen)

/-- The owner of a wrapper that does not exist yet, and the children of one. -/
theorem OwnInv.fresh (hs : OwnInv s owner) (hknown : ∀ w v, s.wrappers w = some v → w < s.created)
    {c p : Nat} (hcp : owner c = some p) : c < s.created ∧ p < s.created := by
  obtain ⟨vc, vp, hvc, -, hvp, -⟩ := hs.parent c p hcp
  exact ⟨hknown c vc hvc, hknown p vp hvp⟩

theorem wrappers_construct_self (s : EventWorld) (kind : ResourceKind) (handle : String) :
    (s.construct kind handle).wrappers s.created =
      some (Wrapper.new kind handle (s.dispatcher.listen handle).1 s.sent.length) :=
  Function.update_self _ _ _

theorem wrappers_construct_of_ne (s : EventWorld) (kind : ResourceKind) (handle : String) {u : Nat}
    (hne : u ≠ s.created) : (s.construct kind handle).wrappers u = s.wrappers u :=
  Function.update_of_ne hne _ _

theorem wrappers_adopt_new (s : EventWorld) (kind : ResourceKind) (handle : String) {p : Nat}
    (hne : p ≠ s.created) : ((s.construct kind handle).adopt p s.created).wrappers s.created =
      some (Wrapper.new kind handle (s.dispatcher.listen handle).1 s.sent.length) :=
  (withWrapper_of_ne _ _ hne.symm).trans (wrappers_construct_self s kind handle)

theorem wrappers_adopt_parent (s : EventWorld) (kind : ResourceKind) (handle : String) {p : Nat}
    (hne : p ≠ s.created) {v : Wrapper} (hv : s.wrappers p = some v) :
    ((s.construct kind handle).adopt p s.created).wrappers p =
      some { v with children := v.children ++ [s.created] } := by
  refine (withWrapper_self _ _ _).trans ?_
  rw [wrappers_construct_of_ne s _ _ hne, hv, Option.map_some]

theorem wrappers_adopt_of_ne (s : EventWorld) (kind : ResourceKind) (handle : String) {p u : Nat}
    (hne : u ≠ s.created) (hup : u ≠ p) :
    ((s.construct kind handle).adopt p s.created).wrappers u = s.wrappers u :=
  (withWrapper_of_ne _ _ hup).trans (wrappers_construct_of_ne s kind handle hne)

/-- A connection that does not get the new wrapper keeps its children. -/
theorem OwnInv.children_kept (hs : OwnInv s owner)
    (hknown : ∀ w v, s.wrappers w = some v → w < s.created) {o : Option Nat} {p : Nat}
    {v : Wrapper} (hv : s.wrappers p = some v) (hopen : v.disposed = false) (ho : o ≠ some p) :
    v.children.Nodup ∧ ∀ c, c ∈ v.children ↔ Function.update owner s.created o c = some p := by
  obtain ⟨hnodup, hchildren⟩ := hs.children p v hv hopen
  refine ⟨hnodup, fun c => ?_⟩
  by_cases hc : c = s.created
  · subst hc
    rw [Function.update_self, hchildren]
    constructor
    · intro hcp
      have := (hs.fresh hknown hcp).1
      omega
    · intro hcp
      exact absurd hcp ho
  · rw [Function.update_of_ne hc]
    exact hchildren c

/-- The new wrapper has no children. -/
theorem OwnInv.childless (hs : OwnInv s owner)
    (hknown : ∀ w v, s.wrappers w = some v → w < s.created) {o : Option Nat}
    (ho : o ≠ some s.created) (c : Nat) :
    Function.update owner s.created o c ≠ some s.created := by
  intro hcp
  by_cases hc : c = s.created
  · rw [hc, Function.update_self] at hcp
    exact ho hcp
  · rw [Function.update_of_ne hc] at hcp
    have := (hs.fresh hknown hcp).2
    omega

/-- A wrapper that belongs to no connection. -/
theorem OwnInv.construct (hs : OwnInv s owner)
    (hknown : ∀ w v, s.wrappers w = some v → w < s.created) (kind : ResourceKind)
    (handle : String) :
    OwnInv (s.construct kind handle) (Function.update owner s.created none) := by
  have howner : ∀ c p, Function.update owner s.created none c = some p → owner c = some p := by
    intro c p hcp
    by_cases hc : c = s.created
    · rw [hc, Function.update_self] at hcp
      cases hcp
    · rwa [Function.update_of_ne hc] at hcp
  constructor
  · intro c p hcp
    obtain ⟨hc, hp⟩ := hs.fresh hknown (howner c p hcp)
    rw [wrappers_construct_of_ne s kind handle (Nat.ne_of_lt hc),
      wrappers_construct_of_ne s kind handle (Nat.ne_of_lt hp)]
    exact hs.parent c p (howner c p hcp)
  · intro p v hv hopen
    obtain ⟨hv, hne⟩ | ⟨rfl, rfl⟩ := wrappers_construct hv
    · exact hs.children_kept hknown hv hopen (by simp)
    · refine ⟨List.nodup_nil, fun c => ⟨fun hmem => absurd hmem List.not_mem_nil, fun hcp => ?_⟩⟩
      exact absurd hcp (hs.childless hknown (by simp) c)

/-- A channel that a connection adopts. -/
theorem OwnInv.adopt (hs : OwnInv s owner)
    (hknown : ∀ w v, s.wrappers w = some v → w < s.created) {p : Nat} (hp : s.LivePeer p)
    (handle : String) :
    OwnInv ((s.construct .dataChannel handle).adopt p s.created)
      (Function.update owner s.created (some p)) := by
  obtain ⟨vp, hvp, hpkind, hpopen⟩ := hp
  have hpne : p ≠ s.created := Nat.ne_of_lt (hknown p vp hvp)
  have hself := wrappers_adopt_new s .dataChannel handle hpne
  have hparent := wrappers_adopt_parent s .dataChannel handle hpne hvp
  constructor
  · intro c q hcq
    by_cases hc : c = s.created
    · subst hc
      rw [Function.update_self, Option.some.injEq] at hcq
      subst hcq
      exact ⟨_, _, hself, rfl, hparent, hpkind, hpopen.symm⟩
    · rw [Function.update_of_ne hc] at hcq
      obtain ⟨vc, vq, hvc, hckind, hvq, hqkind, hdisposed⟩ := hs.parent c q hcq
      have hcp : c ≠ p := by
        rintro rfl
        cases hvc.symm.trans hvp
        cases hckind.symm.trans hpkind
      have hold := (wrappers_adopt_of_ne s .dataChannel handle hc hcp).trans hvc
      have hq : q ≠ s.created := Nat.ne_of_lt (hs.fresh hknown hcq).2
      by_cases hqp : q = p
      · subst hqp
        cases hvq.symm.trans hvp
        exact ⟨vc, _, hold, hckind, hparent, hqkind, hdisposed⟩
      · have hconn := (wrappers_adopt_of_ne s .dataChannel handle hq hqp).trans hvq
        exact ⟨vc, vq, hold, hckind, hconn, hqkind, hdisposed⟩
  · intro q v hv hopen
    by_cases hq : q = s.created
    · subst hq
      cases hself.symm.trans hv
      refine ⟨List.nodup_nil, fun c => ⟨fun hmem => absurd hmem List.not_mem_nil, fun hcq => ?_⟩⟩
      exact absurd hcq (hs.childless hknown (by simpa using hpne) c)
    · by_cases hqp : q = p
      · subst hqp
        cases hparent.symm.trans hv
        obtain ⟨hnodup, hchildren⟩ := hs.children q vp hvp hpopen
        have hnew : s.created ∉ vp.children := by
          intro hmem
          have := (hs.fresh hknown ((hchildren _).mp hmem)).1
          omega
        have hdisjoint : List.Disjoint vp.children [s.created] := by simpa using hnew
        refine ⟨List.Nodup.append hnodup (List.nodup_singleton _) hdisjoint, fun c => ?_⟩
        by_cases hc : c = s.created
        · simp [hc]
        · rw [Function.update_of_ne hc, ← hchildren c]
          simp [hc]
      · rw [wrappers_adopt_of_ne s .dataChannel handle hq hqp] at hv
        exact hs.children_kept hknown hv hopen (by simpa using Ne.symm hqp)

/-- What `disposeLocal` does to a wrapper. -/
theorem disposeLocal_fields (s : EventWorld) (w : Nat) {u : Nat} {v : Wrapper}
    (hv : s.wrappers u = some v) : ∃ v', (s.disposeLocal w).wrappers u = some v' ∧
      v'.kind = v.kind ∧ v'.disposed = (v.disposed || decide (s.Releases w u)) ∧
      (u ≠ w → v'.children = v.children) := by
  rw [wrappers_disposeLocal, hv, Option.map_some]
  refine ⟨_, rfl, ?_, ?_, fun huw => by simp [huw]⟩
  · dsimp only
    split
    · exact v.released_fields.1
    · rfl
  · dsimp only
    split
    · rename_i hrel
      rw [v.disposed_released, decide_eq_true hrel, Bool.or_true]
    · rename_i hrel
      rw [decide_eq_false hrel, Bool.or_false]

/-- `disposeLocal` goes through the channels of a connection, and of a disposed one through
none. -/
theorem OwnInv.mem_childrenOf (hs : OwnInv s owner) {c p : Nat} :
    c ∈ s.childrenOf p ↔
      owner c = some p ∧ ∃ v, s.wrappers p = some v ∧ v.disposed = false := by
  unfold childrenOf
  cases hv : s.wrappers p with
  | none => simp
  | some v =>
      cases hopen : v.disposed with
      | true => simp [hopen]
      | false =>
          have hmem := (hs.children p v hv hopen).2 c
          simp [hopen, hmem]

/-- A wrapper that is disposed on its own belongs to no connection, or to a disposed one. -/
theorem OwnInv.dispose (hs : OwnInv s owner) {w : Nat}
    (hsingle : ∀ p, owner w = some p → ∃ v, s.wrappers p = some v ∧ v.disposed = true) :
    OwnInv (s.disposeLocal w) owner := by
  constructor
  · intro c p hcp
    obtain ⟨vc, vp, hvc, hckind, hvp, hpkind, hdisposed⟩ := hs.parent c p hcp
    obtain ⟨vc', hvc', hckind', hcdisposed, -⟩ := s.disposeLocal_fields w hvc
    obtain ⟨vp', hvp', hpkind', hpdisposed, -⟩ := s.disposeLocal_fields w hvp
    refine ⟨vc', vp', hvc', hckind'.trans hckind, hvp', hpkind'.trans hpkind, ?_⟩
    rw [hcdisposed, hpdisposed, hdisposed]
    cases hp : vp.disposed with
    | true => rfl
    | false =>
        -- The channel is released with its connection, and not otherwise.
        have hrel : s.Releases w c ↔ s.Releases w p := by
          constructor
          · rintro (rfl | hmem)
            · obtain ⟨v, hv, hclosed⟩ := hsingle p hcp
              cases hv.symm.trans hvp
              cases hclosed.symm.trans hp
            · exact .inl (Option.some.inj (hcp.symm.trans (hs.mem_childrenOf.mp hmem).1))
          · rintro (rfl | hmem)
            · exact .inr (hs.mem_childrenOf.mpr ⟨hcp, vp, hvp, hp⟩)
            · obtain ⟨v, -, hv, hkind, -⟩ := hs.parent p w (hs.mem_childrenOf.mp hmem).1
              cases hv.symm.trans hvp
              cases hkind.symm.trans hpkind
        simp only [hrel]
  · intro p v' hv' hopen
    cases hv : s.wrappers p with
    | none =>
        rw [wrappers_disposeLocal, hv] at hv'
        cases hv'
    | some v =>
        obtain ⟨v'', hv'', -, hdisposed, hsame⟩ := s.disposeLocal_fields w hv
        cases hv'.symm.trans hv''
        rw [hdisposed, Bool.or_eq_false_iff, decide_eq_false_iff_not] at hopen
        obtain ⟨hopen, hnot⟩ := hopen
        rw [hsame fun hpw => hnot (.inl hpw)]
        exact hs.children p v hv hopen

theorem Quieted.dispose (hs : s.Quieted) (w : Nat) : (s.disposeLocal w).Quieted := by
  unfold disposeLocal
  split
  · exact hs
  · exact ((hs.release w).foldl_release _).withWrapper w fun _ => ⟨rfl, rfl, rfl⟩

end EventWorld

/-! ### The runs -/

/-- The handle of the wrapper that an action constructs: it comes with the call, or with the event
that is next for a connection. -/
def EventWorld.brings (s : EventWorld) : EventAction → Option String
  | .construct _ handle _ => some handle
  | .route w =>
    (s.wrappers w).bind fun v => (s.dispatcher.deliver v.source w).bind fun r =>
      if v.kind = .peerConnection then incomingHandle r.1 else none
  | _ => none

namespace Family

open EventWorld

variable {toStr : Decoded → String} {f f' : Family}

/-- No wrapper gets the handle of a disposed one. The response of a `createDataChannel` comes while
the connection is not disposed, and a channel of such a connection is not disposed on its own. -/
structure Settled (f : Family) (a : EventAction) : Prop where
  fresh : ∀ handle, f.world.brings a = some handle → f.world.Unclosed handle
  response : ∀ kind handle p, a = .construct kind handle (some p) →
    kind = .dataChannel ∧ f.world.LivePeer p
  single : ∀ w p, a = .dispose w → f.owner w = some p →
    ∃ v, f.world.wrappers p = some v ∧ v.disposed = true

structure FamilyInv (toStr : Decoded → String) (f : Family) : Prop where
  world : f.world.WorldInv toStr
  quiet : f.world.Quieted
  own : OwnInv f.world f.owner

/-- A step that constructs nothing, and one that constructs a wrapper. -/
theorem next_of_created {a : EventAction} {world : EventWorld}
    (h : world.created = f.world.created) : f.next a world = ⟨world, f.owner⟩ := by
  unfold next
  rw [if_neg (by omega)]

theorem next_of_new {a : EventAction} {world : EventWorld}
    (h : world.created = f.world.created + 1) :
    f.next a world = ⟨world, Function.update f.owner f.world.created a.parent⟩ := by
  unfold next
  rw [if_pos (by omega)]

/-- A step that constructs and disposes nothing. -/
theorem FamilyInv.keep (hf : f.FamilyInv toStr) {world : EventWorld}
    (hworld : world.WorldInv toStr) (hcores : SameCores f.world world)
    (hlisteners : ∀ h, f.world.dispatcher.listeners.get h = none →
      world.dispatcher.listeners.get h = none)
    (hsilent : ∀ c w, f.world.dispatcher.Silent c w → world.dispatcher.Silent c w) :
    FamilyInv toStr ⟨world, f.owner⟩ :=
  ⟨hworld, hf.quiet.sameCores hcores hlisteners hsilent, hf.own.sameCores hcores⟩

/-- A change of one wrapper that leaves its core alone. -/
theorem FamilyInv.withWrapper (hf : f.FamilyInv toStr) (w : Nat) {g : Wrapper → Wrapper}
    (hworld : (f.world.withWrapper w g).WorldInv toStr) (hg : ∀ v, (g v).core = v.core) :
    FamilyInv toStr ⟨f.world.withWrapper w g, f.owner⟩ := by
  refine hf.keep hworld (sameCores_withWrapper f.world w hg) ?_ fun _ _ hquiet => hquiet
  exact fun _ hnone => hnone

/-- A connection that is not disposed adopts a new channel. -/
theorem FamilyInv.adopt (hf : f.FamilyInv toStr) {p : Nat} (hp : f.world.LivePeer p)
    {handle : String} (hfresh : f.world.Unclosed handle) :
    FamilyInv toStr ⟨(f.world.construct .dataChannel handle).adopt p f.world.created,
      Function.update f.owner f.world.created (some p)⟩ where
  world := (hf.world.construct .dataChannel handle).withChildren p (· ++ [f.world.created])
  quiet := (hf.quiet.construct hf.world hfresh).withWrapper p fun _ => ⟨rfl, rfl, rfl⟩
  own := hf.own.adopt hf.world.known hp handle

/-- A step that constructs nothing leaves the owners alone. -/
theorem FamilyInv.stay {a : EventAction} {world : EventWorld}
    (h : FamilyInv toStr ⟨world, f.owner⟩) (hcreated : world.created = f.world.created) :
    (f.next a world).FamilyInv toStr := by
  rwa [next_of_created hcreated]

/-- The wrapper of a connection takes up an event, which may bring a new channel. -/
theorem FamilyInv.route (hf : f.FamilyInv toStr) {w : Nat} (ha : f.Settled (.route w))
    {world : EventWorld} (hstep : f.world.step toStr (.route w) = some world) :
    (f.next (.route w) world).FamilyInv toStr := by
  obtain ⟨v, msg, d, hv, hdeliver, hcases⟩ := route_eq hf.world.known hstep
  obtain ⟨hlisteners, -⟩ := EventDispatcher.deliver_frame hdeliver
  have hcores : SameCores f.world (f.world.taken toStr d w v msg) := sameCores_taken hv
  -- The event is taken first, whatever it brings.
  have htaken : FamilyInv toStr ⟨f.world.taken toStr d w v msg, f.owner⟩ := by
    refine hf.keep (hf.world.taken hv hdeliver) hcores (fun h hnone => ?_) fun c u hquiet => ?_
    · show d.listeners.get h = none
      rw [hlisteners]
      exact hnone
    · exact hquiet.deliver hdeliver
  obtain rfl | ⟨hkind, handle, hhandle, rfl⟩ := hcases
  · exact htaken.stay rfl
  · have hopen : v.disposed = false := by
      by_contra hdisposed
      have hnone := (hf.quiet w v hv (by simpa using hdisposed)).2.deliver_eq_none
      cases hdeliver.symm.trans hnone
    obtain ⟨v', hv', hcore⟩ := hcores.symm.back hv
    simp only [Wrapper.core, Prod.mk.injEq] at hcore
    have hlive : (f.world.taken toStr d w v msg).LivePeer w :=
      ⟨v', hv', hcore.1 ▸ hkind, hcore.2.2.1 ▸ hopen⟩
    have hbrings : f.world.brings (.route w) = some handle := by
      simp [brings, hv, hdeliver, hkind, hhandle]
    have hfresh : (f.world.taken toStr d w v msg).Unclosed handle := by
      intro u vu hu hdisposed
      obtain ⟨v₀, hv₀, hcore₀⟩ := hcores.back hu
      simp only [Wrapper.core, Prod.mk.injEq] at hcore₀
      have hne := ha.fresh handle hbrings u v₀ hv₀ (hcore₀.2.2.1 ▸ hdisposed)
      rw [hcore₀.2.1]
      exact hne
    rw [next_of_new rfl]
    exact htaken.adopt hlive hfresh

/-- The step lemma. -/
theorem FamilyInv.step (hf : f.FamilyInv toStr) {a : EventAction} (ha : f.Settled a)
    (h : f.step toStr a = some f') : f'.FamilyInv toStr := by
  obtain ⟨world, hstep, rfl⟩ := Option.map_eq_some_iff.mp h
  have hworld := hf.world.step hstep
  cases a with
  | broadcast msg =>
      cases hstep
      have hkept : FamilyInv toStr ⟨f.world.broadcast msg, f.owner⟩ := by
        refine hf.keep hworld ⟨rfl, fun _ => rfl⟩ (fun h hnone => ?_) fun c w hquiet => ?_
        · show (f.world.dispatcher.broadcast msg).listeners.get h = none
          rw [(f.world.dispatcher.broadcast_tables msg).1]
          exact hnone
        · exact hquiet.broadcast msg
      exact hkept.stay rfl
  | construct kind handle parent =>
      cases parent with
      | none =>
          simp only [EventWorld.step, Option.some.injEq] at hstep
          subst hstep
          have hfresh := ha.fresh handle rfl
          rw [next_of_new rfl]
          exact ⟨hworld, hf.quiet.construct hf.world hfresh,
            hf.own.construct hf.world.known kind handle⟩
      | some p =>
          obtain ⟨rfl, hp⟩ := ha.response kind handle p rfl
          simp only [EventWorld.step, Option.some.injEq] at hstep
          subst hstep
          rw [next_of_new rfl]
          exact hf.adopt hp (ha.fresh handle rfl)
  | route w => exact hf.route ha hstep
  | listen w type =>
      obtain ⟨v, -, hif⟩ := Option.bind_eq_some_iff.mp hstep
      split at hif
      · cases hif
        exact (hf.withWrapper w hworld fun _ => rfl).stay rfl
      · cases hif
  | deliver w type k =>
      obtain ⟨v, -, hmap⟩ := Option.bind_eq_some_iff.mp hstep
      obtain ⟨b, -, rfl⟩ := Option.map_eq_some_iff.mp hmap
      exact (hf.withWrapper w hworld fun _ => rfl).stay rfl
  | cancel w type k =>
      cases hstep
      exact (hf.withWrapper w hworld fun _ => rfl).stay rfl
  | dispose w =>
      cases hstep
      have hkept : FamilyInv toStr ⟨f.world.disposeLocal w, f.owner⟩ :=
        ⟨hworld, hf.quiet.dispose w, hf.own.dispose fun p => ha.single w p rfl⟩
      exact hkept.stay (created_dispose f.world w)
  | closeAll =>
      cases hstep
      have hkept : FamilyInv toStr
          ⟨{ f.world with dispatcher := f.world.dispatcher.closeAll }, f.owner⟩ :=
        hf.keep hworld ⟨rfl, fun _ => rfl⟩ (fun _ _ => rfl) fun _ _ hquiet => hquiet.closeAll
      exact hkept.stay rfl

/-- The run lemma. -/
theorem familyInv_of_reachable (hf : (familySystem toStr).ReachableUnder Settled f) :
    f.FamilyInv toStr := by
  refine StepSystem.StepsUnder.invariant hf ?_ fun _ _ _ _ hinv ha hstep => hinv.step ha hstep
  exact ⟨worldInv_new, nofun, nofun, nofun⟩

end Family

open Family

/-- In every run in which the response of a `createDataChannel` comes before its connection is
disposed, no channel is closed before its connection and no handle is used again after it was
closed: `_children` of a connection that is not disposed lists its channels that are not disposed,
and every channel of a disposed connection is disposed and has no listener in the dispatcher. -/
theorem settled_peer_owns_channels (toStr : Decoded → String) (f : Family)
    (hf : (familySystem toStr).ReachableUnder Settled f) (p : Nat) (v : Wrapper)
    (hv : f.world.wrappers p = some v) :
    (v.disposed = false → v.children.Nodup ∧ ∀ c, c ∈ v.children ↔
      f.owner c = some p ∧ ∃ vc, f.world.wrappers c = some vc ∧ vc.disposed = false) ∧
    (v.disposed = true → ∀ c, f.owner c = some p → ∃ vc, f.world.wrappers c = some vc ∧
      vc.disposed = true ∧ f.world.dispatcher.listeners.get vc.handle = none) := by
  have hinv := familyInv_of_reachable hf
  have hchannel : ∀ c, f.owner c = some p →
      ∃ vc, f.world.wrappers c = some vc ∧ vc.disposed = v.disposed := by
    intro c hcp
    obtain ⟨vc, vp, hvc, -, hvp, -, hdisposed⟩ := hinv.own.parent c p hcp
    cases hvp.symm.trans hv
    exact ⟨vc, hvc, hdisposed⟩
  constructor
  · intro hopen
    obtain ⟨hnodup, hchildren⟩ := hinv.own.children p v hv hopen
    refine ⟨hnodup, fun c => ?_⟩
    rw [hchildren c]
    constructor
    · intro hcp
      obtain ⟨vc, hvc, hdisposed⟩ := hchannel c hcp
      exact ⟨hcp, vc, hvc, hdisposed.trans hopen⟩
    · intro hcp
      exact hcp.1
  · intro hclosed c hcp
    obtain ⟨vc, hvc, hdisposed⟩ := hchannel c hcp
    have hdone := hdisposed.trans hclosed
    exact ⟨vc, hvc, hdone, (hinv.quiet c vc hvc hdone).1⟩

/-- The world after the given actions. -/
def familyAfter (acts : List EventAction) : Family :=
  ((familySystem fun _ => "").run (familySystem fun _ => "").init acts).getD ⟨.new, fun _ => none⟩

/-- A connection, a channel that it creates, and the end of the connection. -/
theorem settled_peer_owns_channels_disposed : ∃ f v,
    (familySystem fun _ => "").ReachableUnder Settled f ∧
    f.world.wrappers 0 = some v ∧ v.disposed = true ∧ f.owner 1 = some 0 ∧
    ∃ vc, f.world.wrappers 1 = some vc ∧ vc.disposed = true ∧
      f.world.dispatcher.listeners.get vc.handle = none := by
  let sys := familySystem fun _ => ""
  let f₁ := familyAfter [.construct .peerConnection "p" none]
  let f₂ := familyAfter [.construct .peerConnection "p" none, .construct .dataChannel "c" (some 0)]
  let f₃ := familyAfter [.construct .peerConnection "p" none,
    .construct .dataChannel "c" (some 0), .dispose 0]
  have hopen : ∀ u v, f₁.world.wrappers u = some v → v.disposed = false := by
    intro u v hu
    obtain ⟨hv, -⟩ | ⟨-, rfl⟩ := EventWorld.wrappers_construct (s := .new) hu
    · cases hv
    · rfl
  have h₁ : sys.ReachableUnder Settled f₁ := by
    refine .step .refl ⟨?_, ?_, ?_⟩
      (rfl : sys.step sys.init (.construct .peerConnection "p" none) = _)
    · intro handle _ u v' hu
      cases hu
    · rintro kind handle p ⟨⟩
    · rintro w p ⟨⟩
  have h₂ : sys.ReachableUnder Settled f₂ := by
    refine .step h₁ ⟨?_, ?_, ?_⟩ (rfl : sys.step f₁ (.construct .dataChannel "c" (some 0)) = _)
    · intro handle _ u v' hu hdisposed
      cases (hopen u v' hu).symm.trans hdisposed
    · rintro kind handle p ⟨⟩
      exact ⟨rfl, _, rfl, rfl, rfl⟩
    · rintro w p ⟨⟩
  have h₃ : sys.ReachableUnder Settled f₃ := by
    refine .step h₂ ⟨?_, ?_, ?_⟩ (rfl : sys.step f₂ (.dispose 0) = _)
    · rintro handle ⟨⟩
    · rintro kind handle p ⟨⟩
    · rintro w p ⟨⟩ hp
      cases hp
  refine ⟨f₃, _, h₃, rfl, rfl, rfl, ?_⟩
  exact (settled_peer_owns_channels _ f₃ h₃ 0 _ rfl).2 rfl 1 rfl

/-- A channel is closed on its own. -/
def closedAlone : List EventAction :=
  [.construct .peerConnection "p" none, .construct .dataChannel "c" (some 0), .dispose 1]

/-- The response of a `createDataChannel` comes after the end of its connection. -/
def lateResponse : List EventAction :=
  [.construct .peerConnection "p" none, .dispose 0, .construct .dataChannel "c" (some 0)]

theorem familyAfter_reachable {acts : List EventAction}
    (h : ((familySystem fun _ => "").run (familySystem fun _ => "").init acts).isSome) :
    (familySystem fun _ => "").Reachable (familyAfter acts) := by
  obtain ⟨f, hf⟩ := Option.isSome_iff_exists.mp h
  have heq : familyAfter acts = f := by
    unfold familyAfter
    rw [hf, Option.getD_some]
  exact heq ▸ StepSystem.reachable_of_run hf

/-- A channel that is closed on its own stays in `_children`. A channel whose response comes after
the end of its connection is not disposed, and has its listener in the dispatcher. -/
theorem late_channel_stays :
    (familySystem fun _ => "").Reachable (familyAfter closedAlone) ∧
    ((familyAfter closedAlone).world.wrappers 0).map (fun v => (v.disposed, v.children)) =
      some (false, [1]) ∧
    ((familyAfter closedAlone).world.wrappers 1).map Wrapper.disposed = some true ∧
    (familySystem fun _ => "").Reachable (familyAfter lateResponse) ∧
    (familyAfter lateResponse).owner 1 = some 0 ∧
    ((familyAfter lateResponse).world.wrappers 0).map Wrapper.disposed = some true ∧
    ((familyAfter lateResponse).world.wrappers 1).map Wrapper.disposed = some false ∧
    (familyAfter lateResponse).world.dispatcher.listeners.get "c" = some 1 :=
  ⟨familyAfter_reachable rfl, rfl, rfl, familyAfter_reachable rfl, rfl, rfl, rfl, rfl⟩

end PionBridge.Dart
