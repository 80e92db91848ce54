import PionBridge.Proofs.Dart.Events.Wrappers

/-!
# `PionBridge.Proofs.Dart.Events.Delivery`: delivery does not depend on when the application listens

An event passes two buffers. The dispatcher keeps the first 128 events of a handle until its wrapper
is constructed (`HandleInv`), and each stream of the wrapper keeps the first 128 of its events until
its first listener comes (`StreamInv`). Behind either buffer stands a broadcast controller, which
gives a listener what is added after it came, in order.

An event of a type is one that `_route` turns into a value for its stream. An event whose data have
a type that a cast refuses makes `_route` throw, and it is no event of any type.
-/

set_option autoImplicit false

namespace PionBridge.Dart

open PionBridge.Lib

namespace EventWorld

variable {toStr : Decoded → String} {s s' : EventWorld} {h : String}

/-! ### The events of one handle -/

/-- The event is for the handle `h`. -/
def ofHandle (h : String) (msg : Event) : Bool := decide (msg.handle = some h)

/-- The first 128 events of `h` among the first `born` ones, and all events of `h` after these. -/
def due (h : String) (born : Nat) (sent : List Event) : List Event :=
  ((sent.take born).filter (ofHandle h)).take maxBufferedPerHandle
    ++ (sent.drop born).filter (ofHandle h)

theorem due_append {born : Nat} {sent : List Event} (hborn : born ≤ sent.length) (msg : Event) :
    due h born (sent ++ [msg]) = due h born sent ++ [msg].filter (ofHandle h) := by
  unfold due
  rw [List.take_append_of_le_length hborn, List.drop_append_of_le_length hborn, List.filter_append,
    List.append_assoc]

/-- Neither `unsubscribe` of the handle `h` nor `closeAll`. -/
def Quiet (h : String) (s : EventWorld) : EventAction → Prop
  | .dispose w => ∀ u ∈ w :: s.childrenOf w, ∀ v, s.wrappers u = some v → v.disposed = false →
      v.handle ≠ h
  | .closeAll => False
  | _ => True

/-- The wrapper `w` was the first one of the handle `h`. -/
def First (s : EventWorld) (h : String) (w : Nat) (v : Wrapper) : Prop :=
  s.wrappers w = some v ∧ v.handle = h ∧ ∀ u v', s.wrappers u = some v' → v'.handle = h → w ≤ u

/-- The subscription of a wrapper has been given what it is due. -/
structure Served (s : EventWorld) (h : String) (w : Nat) (v : Wrapper) : Prop where
  entry : s.dispatcher.listeners.get h = some v.source
  listens : s.dispatcher.Listens v.source w
  flow : (s.dispatcher.sub v.source w).flow = due h v.born s.sent
  born : v.born ≤ s.sent.length
  kept : v.disposed = false

/-- The events of `h` are buffered until its wrapper is constructed, and then go to it. -/
structure HandleInv (h : String) (s : EventWorld) : Prop where
  isOpen : s.dispatcher.closed = false
  alive : h ∉ s.dispatcher.closedHandles
  waiting : (∀ u v, s.wrappers u = some v → v.handle ≠ h) → s.dispatcher.listeners.get h = none ∧
    (s.dispatcher.buffered.get h).getD [] = (s.sent.filter (ofHandle h)).take maxBufferedPerHandle
  served : ∀ w v, s.First h w v → s.Served h w v

theorem handleInv_new : HandleInv h new :=
  ⟨rfl, nofun, fun _ => ⟨rfl, rfl⟩, fun _ _ hfirst => by cases hfirst.1⟩

theorem HandleInv.broadcast (hs : HandleInv h s) (hw : s.WorldInv toStr) (msg : Event) :
    HandleInv h
      { s with dispatcher := s.dispatcher.broadcast msg, sent := s.sent ++ [msg] } := by
  by_cases hmsg : msg.handle = some h
  · have hof : [msg].filter (ofHandle h) = [msg] := by simp [ofHandle, hmsg]
    cases hentry : s.dispatcher.listeners.get h with
    | none =>
        have heq := EventDispatcher.broadcast_buffered hs.isOpen hmsg hentry hs.alive
        rw [heq]
        refine ⟨hs.isOpen, hs.alive, fun hnone => ⟨hentry, ?_⟩, fun w v hfirst => ?_⟩
        · dsimp only
          rw [GoMap.get_set_self, Option.getD_some, (hs.waiting hnone).2, offer_take,
            List.filter_append, hof]
        · cases hentry.symm.trans (hs.served w v hfirst).entry
    | some c =>
        have heq := EventDispatcher.broadcast_listened hs.isOpen hmsg hentry
        rw [heq]
        refine ⟨hs.isOpen, hs.alive, fun hnone => ?_, fun w v hfirst => ?_⟩
        · cases hentry.symm.trans (hs.waiting hnone).1
        · obtain ⟨hsource, hlistens, hflow, hborn, hkept⟩ := hs.served w v hfirst
          obtain rfl : c = v.source := Option.some.inj (hentry.symm.trans hsource)
          refine ⟨hsource, ?_, ?_, ?_, hkept⟩
          · unfold EventDispatcher.Listens
            rw [EventDispatcher.withController_self]
            exact hlistens
          · unfold EventDispatcher.sub
            rw [EventDispatcher.withController_self]
            dsimp only
            rw [due_append hborn, hof, ← hflow]
            exact Controller.flow_addAll hlistens
          · exact Nat.le_trans hborn (by simp)
  · have hof : [msg].filter (ofHandle h) = [] := by simp [ofHandle, hmsg]
    obtain ⟨hlist, hbuf, hclosed, hopen, -, hframe⟩ :=
      EventDispatcher.broadcast_frame hw.wellFormed hmsg
    refine ⟨hopen.trans hs.isOpen, ?_, fun hnone => ?_, fun w v hfirst => ?_⟩
    · dsimp only
      rw [hclosed]
      exact hs.alive
    · dsimp only
      rw [hlist, hbuf, List.filter_append, hof, List.append_nil]
      exact hs.waiting hnone
    · obtain ⟨hsource, hlistens, hflow, hborn, hkept⟩ := hs.served w v hfirst
      have hsame := hframe v.source hsource
      refine ⟨?_, ?_, ?_, Nat.le_trans hborn (by simp), hkept⟩
      · dsimp only
        rw [hlist]
        exact hsource
      · unfold EventDispatcher.Listens
        dsimp only
        rw [hsame]
        exact hlistens
      · unfold EventDispatcher.sub
        dsimp only
        rw [hsame, due_append hborn, hof, List.append_nil]
        exact hflow

theorem HandleInv.construct (hs : HandleInv h s) (hw : s.WorldInv toStr) (kind : ResourceKind)
    (handle : String) : HandleInv h (s.construct kind handle) := by
  obtain ⟨hclosed, htomb, hkeep, hother, hsub⟩ :=
    EventDispatcher.construct_frame hw.wellFormed handle s.created
  have hold : ∀ u v, s.wrappers u = some v → (s.construct kind handle).wrappers u = some v := by
    intro u v hu
    have hne : u ≠ s.created := Nat.ne_of_lt (hw.known u v hu)
    rw [construct_eq]
    simpa [hne] using hu
  have hnew : (s.construct kind handle).wrappers s.created
      = some (Wrapper.new kind handle (s.dispatcher.listen handle).1 s.sent.length) := by
    rw [construct_eq]
    simp
  refine ⟨hclosed.trans hs.isOpen, htomb h hs.alive, fun hnone => ?_, fun w v hfirst => ?_⟩
  · have hne : h ≠ handle := fun heq => hnone _ _ hnew heq.symm
    have hwait := hs.waiting fun u v hu => hnone u v (hold u v hu)
    rw [construct_eq]
    dsimp only
    rw [(hother h hne).1, (hother h hne).2]
    exact hwait
  · obtain ⟨hwv, hh, hleast⟩ := hfirst
    rcases wrappers_construct hwv with ⟨hv, hne⟩ | ⟨rfl, rfl⟩
    · obtain ⟨hsource, hlistens, hflow, hborn, hkept⟩ :=
        hs.served w v ⟨hv, hh, fun u v' hu => hleast u v' (hold u v' hu)⟩
      obtain ⟨hlistens', hsame⟩ := hsub v.source w (hw.sources w v hv) hne hlistens
      exact ⟨hkeep h _ hsource, hlistens', (congrArg Subscription.flow hsame).trans hflow, hborn,
        hkept⟩
    · -- No earlier wrapper has the handle, so its events are still in the buffer.
      obtain rfl : handle = h := hh
      have hnone : ∀ u v, s.wrappers u = some v → v.handle ≠ handle := by
        intro u v hu heq
        have hlt := hw.known u v hu
        have hle := hleast u v (hold u v hu) heq
        omega
      obtain ⟨hentry, hbuf⟩ := hs.waiting hnone
      obtain ⟨h1, h2, h3⟩ := EventDispatcher.construct_first hentry s.created
      refine ⟨h1, h2, h3.trans ?_, Nat.le_refl _, rfl⟩
      show _ = due handle s.sent.length s.sent
      rw [hbuf, due, List.take_length, List.drop_length, List.filter_nil, List.append_nil]

/-- A step that neither broadcasts nor constructs. -/
theorem HandleInv.congr (hs : HandleInv h s) (hsent : s'.sent = s.sent)
    (hwrap : ∀ u v', s'.wrappers u = some v' → ∃ v, s.wrappers u = some v ∧
      v'.handle = v.handle ∧ v'.source = v.source ∧ v'.born = v.born ∧
      (v.handle = h → v'.disposed = v.disposed))
    (hsome : ∀ u, s.wrappers u ≠ none → s'.wrappers u ≠ none)
    (hlist : s'.dispatcher.listeners.get h = s.dispatcher.listeners.get h)
    (hbuf : s'.dispatcher.buffered.get h = s.dispatcher.buffered.get h)
    (hopen : s'.dispatcher.closed = s.dispatcher.closed)
    (halive : h ∉ s.dispatcher.closedHandles → h ∉ s'.dispatcher.closedHandles)
    (hsub : ∀ w v, s.wrappers w = some v → v.handle = h → ∀ c, s.dispatcher.Listens c w →
      s'.dispatcher.Listens c w ∧ (s'.dispatcher.sub c w).flow = (s.dispatcher.sub c w).flow) :
    HandleInv h s' := by
  -- A wrapper that is there stays there with its handle.
  have hstays : ∀ u v, s.wrappers u = some v → ∃ v', s'.wrappers u = some v' ∧
      v'.handle = v.handle := by
    intro u v hu
    obtain ⟨v', hu'⟩ := Option.ne_none_iff_exists'.mp (hsome u (by simp [hu]))
    obtain ⟨v₀, hv₀, hhandle, -⟩ := hwrap u v' hu'
    cases hu.symm.trans hv₀
    exact ⟨v', hu', hhandle⟩
  refine ⟨hopen.trans hs.isOpen, halive hs.alive, fun hnone => ?_, fun w v' hfirst => ?_⟩
  · rw [hlist, hbuf, hsent]
    refine hs.waiting fun u v hu heq => ?_
    obtain ⟨v', hu', hhandle⟩ := hstays u v hu
    exact hnone u v' hu' (hhandle.trans heq)
  · obtain ⟨hwv, hh, hleast⟩ := hfirst
    obtain ⟨v, hv, hhandle, hsource, hborn, hkept⟩ := hwrap w v' hwv
    have hh' : v.handle = h := hhandle.symm.trans hh
    have hserved : s.Served h w v := by
      refine hs.served w v ⟨hv, hh', fun u v₁ hu heq => ?_⟩
      obtain ⟨v₂, hu₂, hhandle₂⟩ := hstays u v₁ hu
      exact hleast u v₂ hu₂ (hhandle₂.trans heq)
    obtain ⟨hlistens, hflow⟩ := hsub w v hv hh' v.source hserved.listens
    refine ⟨?_, ?_, ?_, ?_, (hkept hh').trans hserved.kept⟩
    · rw [hlist, hsource]
      exact hserved.entry
    · rw [hsource]
      exact hlistens
    · rw [hsource, hborn, hsent]
      exact hflow.trans hserved.flow
    · rw [hborn, hsent]
      exact hserved.born

theorem HandleInv.withWrapper {w : Nat} {f : Wrapper → Wrapper} (hs : HandleInv h s)
    (hf : ∀ v, (f v).handle = v.handle ∧ (f v).source = v.source ∧ (f v).born = v.born ∧
      (f v).disposed = v.disposed) : HandleInv h (s.withWrapper w f) := by
  refine hs.congr rfl (fun u v' hu => ?_) (fun u hu => ?_) rfl rfl rfl id
    fun _ _ _ _ _ hlistens => ⟨hlistens, rfl⟩
  · obtain ⟨v, hv, rfl | ⟨-, rfl⟩⟩ := wrappers_withWrapper hu
    · exact ⟨v', hv, rfl, rfl, rfl, fun _ => rfl⟩
    · obtain ⟨h1, h2, h3, h4⟩ := hf v
      exact ⟨v, hv, h1, h2, h3, fun _ => h4⟩
  · unfold EventWorld.withWrapper
    by_cases huw : u = w
    · subst huw
      simpa using hu
    · simpa [huw] using hu

theorem HandleInv.taken {d : EventDispatcher} {w : Nat} {v : Wrapper} {msg : Event}
    (hs : HandleInv h s) (hv : s.wrappers w = some v)
    (hd : s.dispatcher.deliver v.source w = some (msg, d)) :
    HandleInv h (s.taken toStr d w v msg) := by
  obtain ⟨hlist, hbuf, htomb, hclosed, -, hlistens, hflow, -⟩ := EventDispatcher.deliver_frame hd
  obtain ⟨-, h1, h2, h3, h4, -⟩ := v.took_fields toStr s.created msg
  refine hs.congr rfl (fun u v' hu => ?_) (fun u hu => ?_) (by rw [← hlist]; rfl)
    (by rw [← hbuf]; rfl) hclosed (by rw [← htomb]; exact id)
    fun _ _ _ _ c hl => ⟨(hlistens c _).mpr hl, hflow c _⟩
  · rcases wrappers_taken hu with ⟨-, hu⟩ | ⟨rfl, rfl⟩
    · exact ⟨v', hu, rfl, rfl, rfl, fun _ => rfl⟩
    · exact ⟨v, hv, h1, h3, h4, fun _ => h2⟩
  · unfold EventWorld.taken
    by_cases huw : u = w
    · subst huw
      simp
    · simpa [huw] using hu

/-- A wrapper of another handle, or one that is disposed already. -/
theorem HandleInv.release {w : Nat} (hs : HandleInv h s)
    (hquiet : ∀ v, s.wrappers w = some v → v.disposed = false → v.handle ≠ h) :
    HandleInv h (s.release w) := by
  have hsent : (s.release w).sent = s.sent := by
    unfold EventWorld.release
    repeat' split
    all_goals rfl
  have hsome : ∀ u, s.wrappers u ≠ none → (s.release w).wrappers u ≠ none := by
    intro u hu
    unfold EventWorld.release
    split
    · exact hu
    · split
      · exact hu
      · unfold EventWorld.withWrapper
        by_cases huw : u = w
        · subst huw
          simpa using hu
        · simpa [huw] using hu
  have hwrap : ∀ u v', (s.release w).wrappers u = some v' → ∃ v, s.wrappers u = some v ∧
      v'.handle = v.handle ∧ v'.source = v.source ∧ v'.born = v.born ∧
      (v.handle = h → v'.disposed = v.disposed) := by
    intro u v' hu
    obtain ⟨v, hv, h1, h2, h3, -, hmono, -, hsame⟩ := wrappers_release hu
    refine ⟨v, hv, h1, h2, h3, fun hh => ?_⟩
    by_cases huw : u = w
    · subst huw
      cases hdisposed : v.disposed with
      | false => exact absurd hh (hquiet v hv hdisposed)
      | true => exact hmono hdisposed
    · rw [hsame huw]
  rcases release_dispatcher s w with heq | ⟨v, hv, hopen, heq⟩
  · refine hs.congr hsent hwrap hsome (by rw [heq]) (by rw [heq]) (by rw [heq])
      (by rw [heq]; exact id) fun u v hu hh c hl => ?_
    rw [heq]
    exact ⟨hl, rfl⟩
  · have hne : h ≠ v.handle := fun hh => hquiet v hv hopen hh.symm
    obtain ⟨hlist, hbuf, htomb⟩ := EventDispatcher.unsubscribe_frame (d := s.dispatcher) hne
    obtain ⟨hclosed, -, hother, -⟩ :=
      EventDispatcher.release_frame (d := s.dispatcher) v.handle v.source w
    refine hs.congr hsent hwrap hsome (by rw [heq]; exact hlist) (by rw [heq]; exact hbuf)
      (by rw [heq]; exact hclosed) (by rw [heq]; exact htomb) fun u v' hu hh c hl => ?_
    have huw : u ≠ w := by
      rintro rfl
      cases hu.symm.trans hv
      exact hne hh.symm
    rw [heq]
    obtain ⟨hsub, hlistens⟩ := hother c u huw
    exact ⟨hlistens hl, congrArg Subscription.flow hsub⟩

theorem HandleInv.foldl_release {ws : List Nat} (hs : HandleInv h s)
    (hquiet : ∀ w ∈ ws, ∀ v, s.wrappers w = some v → v.disposed = false → v.handle ≠ h) :
    HandleInv h (ws.foldl EventWorld.release s) := by
  induction ws generalizing s with
  | nil => exact hs
  | cons w ws ih =>
      refine ih (hs.release (hquiet w List.mem_cons_self)) fun u hu v' hv' hopen => ?_
      -- A wrapper that is not disposed now was not disposed before.
      obtain ⟨v, hv, hhandle, -, -, -, -, hsame, -⟩ := wrappers_release hv'
      obtain rfl := hsame hopen
      exact hquiet u (List.mem_cons_of_mem _ hu) v' hv hopen

/-- The step lemma of the events of one handle. -/
theorem HandleInv.step {a : EventAction} (hs : HandleInv h s) (hw : s.WorldInv toStr)
    (hquiet : Quiet h s a) (hstep : s.step toStr a = some s') : HandleInv h s' := by
  cases a with
  | broadcast msg =>
      cases hstep
      exact hs.broadcast hw msg
  | construct kind handle parent =>
      cases hstep
      cases parent with
      | none => exact hs.construct hw kind handle
      | some p => exact (hs.construct hw kind handle).withWrapper fun _ => ⟨rfl, rfl, rfl, rfl⟩
  | route w =>
      obtain ⟨v, msg, d, hv, hd, rfl | ⟨-, handle, -, rfl⟩⟩ := route_eq hw.known hstep
      · exact hs.taken hv hd
      · exact ((hs.taken hv hd).construct (hw.taken hv hd) _ handle).withWrapper
          fun _ => ⟨rfl, rfl, rfl, rfl⟩
  | listen w type =>
      obtain ⟨v, -, hif⟩ := Option.bind_eq_some_iff.mp hstep
      split at hif
      · cases hif
        exact hs.withWrapper fun _ => ⟨rfl, rfl, rfl, rfl⟩
      · cases hif
  | deliver w type k =>
      obtain ⟨v, -, hmap⟩ := Option.bind_eq_some_iff.mp hstep
      obtain ⟨b, -, rfl⟩ := Option.map_eq_some_iff.mp hmap
      exact hs.withWrapper fun _ => ⟨rfl, rfl, rfl, rfl⟩
  | cancel w type k =>
      cases hstep
      exact hs.withWrapper fun _ => ⟨rfl, rfl, rfl, rfl⟩
  | dispose w =>
      cases hstep
      have hall : HandleInv h ((w :: s.childrenOf w).foldl EventWorld.release s) :=
        hs.foldl_release hquiet
      unfold EventWorld.disposeLocal
      split
      · exact hs
      · exact hall.withWrapper fun _ => ⟨rfl, rfl, rfl, rfl⟩
  | closeAll => exact hquiet.elim

/-- The run lemma. -/
theorem inv_of_reachable (hs : (eventSystem toStr).ReachableUnder (Quiet h) s) :
    s.WorldInv toStr ∧ HandleInv h s := by
  refine StepSystem.StepsUnder.invariant (I := fun s => s.WorldInv toStr ∧ HandleInv h s) hs
    ⟨worldInv_new, handleInv_new⟩ fun s a s' _ hinv hquiet hstep => ?_
  exact ⟨hinv.1.step hstep, hinv.2.step hinv.1 hquiet hstep⟩

/-! ### Everything arrives -/

/-- What a wrapper keeps while events are handed over. -/
structure Kept (v v' : Wrapper) : Prop where
  handle : v'.handle = v.handle
  born : v'.born = v.born
  opened : v'.opened = v.opened
  active : ∀ type, (v'.streams type).controller.active = (v.streams type).controller.active

theorem Kept.trans {v v' v'' : Wrapper} (h : Kept v v') (h' : Kept v' v'') : Kept v v'' :=
  ⟨h'.handle.trans h.handle, h'.born.trans h.born, h'.opened.trans h.opened,
    fun type => (h'.active type).trans (h.active type)⟩

theorem kept_took (toStr : Decoded → String) (v : Wrapper) (child : Nat) (msg : Event) :
    Kept v (v.took toStr child msg) := by
  obtain ⟨-, hhandle, -, -, hborn, -, hopened⟩ := v.took_fields toStr child msg
  refine ⟨hhandle, hborn, hopened, fun type => ?_⟩
  have hadd : ∀ (b : BufferedBroadcast Payload) (p : Payload),
      (b.add p).controller.active = b.controller.active := by
    intro b p
    unfold BufferedBroadcast.add
    split
    · rfl
    · split <;> rfl
  rw [Wrapper.streams_took]
  cases eventOf toStr v.kind type ⟨msg, child⟩ with
  | none => rfl
  | some payload => exact hadd _ payload

/-- An event that waits for `_route` can be handed over. -/
theorem exists_route {w : Nat} {v : Wrapper} (hw : s.WorldInv toStr) (hfirst : s.First h w v)
    (hqueue : (s.dispatcher.sub v.source w).queue ≠ []) :
    ∃ s' v', s.step toStr (.route w) = some s' ∧ s'.First h w v' ∧ s'.sent = s.sent ∧ Kept v v' ∧
      v'.routed.length = v.routed.length + 1 := by
  obtain ⟨hv, hh, hleast⟩ := hfirst
  obtain ⟨msg, rest, hq⟩ := List.exists_cons_of_ne_nil hqueue
  have hnext := Subscription.next_of_queue hq
  have hsome : ∃ s', s.route toStr w = some s' := by
    unfold route EventDispatcher.deliver Controller.deliver
    rw [hv, Option.bind_some, show ((s.dispatcher.controllers v.source).controller.subs w).next = _
      from hnext]
    exact ⟨_, rfl⟩
  obtain ⟨s', hs'⟩ := hsome
  have hlt : w < s.created := hw.known w v hv
  obtain ⟨v₀, msg₀, d, hv₀, -, heq⟩ := route_eq hw.known hs'
  cases hv.symm.trans hv₀
  have hkept : Kept v (v.took toStr s.created msg₀) := kept_took toStr v s.created msg₀
  have hrouted : (v.took toStr s.created msg₀).routed.length = v.routed.length + 1 := by
    rw [(v.took_fields toStr s.created msg₀).2.2.2.2.2.1]
    simp
  have hold : ∀ u v', (s.taken toStr d w v msg₀).wrappers u = some v' → v'.handle = h → w ≤ u := by
    intro u v' hu hh'
    rcases wrappers_taken hu with ⟨-, hu⟩ | ⟨rfl, -⟩
    · exact hleast u v' hu hh'
    · exact Nat.le_refl _
  have hself : (s.taken toStr d w v msg₀).wrappers w = some (v.took toStr s.created msg₀) := by
    simp [taken]
  rcases heq with rfl | ⟨-, handle, -, rfl⟩
  · exact ⟨_, _, hs', ⟨hself, hkept.handle.trans hh, hold⟩, rfl, hkept, hrouted⟩
  · -- The new wrapper has a greater number than `w`.
    have hne : w ≠ s.created := Nat.ne_of_lt hlt
    refine ⟨_, { v.took toStr s.created msg₀ with
      children := (v.took toStr s.created msg₀).children ++ [s.created] }, hs', ⟨?_, ?_, ?_⟩, rfl,
      ⟨hkept.handle, hkept.born, hkept.opened, hkept.active⟩, hrouted⟩
    · simp [adopt, withWrapper, construct_eq, taken, hne]
    · exact hkept.handle.trans hh
    · intro u v' hu hh'
      obtain ⟨v₁, hv₁, hcases⟩ := wrappers_withWrapper hu
      have hhandle : v₁.handle = h := by
        rcases hcases with rfl | ⟨-, rfl⟩
        · exact hh'
        · exact hh'
      rcases wrappers_construct hv₁ with ⟨hold₁, -⟩ | ⟨rfl, -⟩
      · exact hold u v₁ hold₁ hhandle
      · exact Nat.le_of_lt hlt

/-- The events that wait for `_route` are handed over. -/
theorem exists_routes {w : Nat} {v : Wrapper} (n : Nat)
    (hs : (eventSystem toStr).ReachableUnder (Quiet h) s) (hfirst : s.First h w v)
    (hn : (s.dispatcher.sub v.source w).queue.length = n) :
    ∃ s' v', (eventSystem toStr).StepsUnder (fun _ a => a = .route w) s s' ∧ s'.First h w v' ∧
      s'.sent = s.sent ∧ Kept v v' ∧ (s'.dispatcher.sub v'.source w).queue = [] := by
  induction n generalizing s v with
  | zero =>
      exact ⟨s, v, .refl, hfirst, rfl, ⟨rfl, rfl, rfl, fun _ => rfl⟩, List.length_eq_zero_iff.mp hn⟩
  | succ n ih =>
      obtain ⟨hworld, hhandle⟩ := inv_of_reachable hs
      have hqueue : (s.dispatcher.sub v.source w).queue ≠ [] := by
        intro hnil
        rw [hnil] at hn
        cases hn
      obtain ⟨s₁, v₁, hstep, hfirst₁, hsent, hkept, hlen⟩ := exists_route hworld hfirst hqueue
      have hquiet : Quiet h s (.route w) := trivial
      have hs₁ : (eventSystem toStr).ReachableUnder (Quiet h) s₁ := .step hs hquiet hstep
      obtain ⟨hworld₁, hhandle₁⟩ := inv_of_reachable hs₁
      -- What was given is the same, and one event more has been handed over.
      have hflow := (hhandle.served w v hfirst).flow
      have hflow₁ := (hhandle₁.served w v₁ hfirst₁).flow
      rw [hkept.born, hsent, ← hflow] at hflow₁
      have hlength := congrArg List.length hflow₁
      unfold Subscription.flow at hlength
      rw [List.length_append, List.length_append, ← hworld.got w v hfirst.1,
        ← hworld₁.got w v₁ hfirst₁.1, List.length_map, List.length_map] at hlength
      obtain ⟨s', v', hsteps, hfirst', hsent', hkept', hdone⟩ := ih hs₁ hfirst₁ (by omega)
      refine ⟨s', v', ?_, hfirst', hsent'.trans hsent, hkept.trans hkept', hdone⟩
      exact StepSystem.StepsUnder.trans (.step .refl rfl hstep) hsteps

/-- The events that wait for a listener of a stream are handed over. -/
theorem exists_deliveries {w : Nat} {v : Wrapper} (toStr : Decoded → String) (type : StreamType)
    (k n : Nat)
    (hfirst : s.First h w v) (hn : ((v.streams type).controller.subs k).queue.length = n) :
    ∃ s' v', (eventSystem toStr).StepsUnder (fun _ a => a = .deliver w type k) s s' ∧
      s'.First h w v' ∧ s'.dispatcher = s.dispatcher ∧ v'.source = v.source ∧
      v'.routed = v.routed ∧ Kept v v' ∧ ((v'.streams type).controller.subs k).queue = [] := by
  induction n generalizing s v with
  | zero =>
      exact ⟨s, v, .refl, hfirst, rfl, rfl, rfl, ⟨rfl, rfl, rfl, fun _ => rfl⟩,
        List.length_eq_zero_iff.mp hn⟩
  | succ n ih =>
      obtain ⟨hv, hh, hleast⟩ := hfirst
      obtain ⟨payload, rest, hq⟩ := List.exists_cons_of_length_eq_add_one hn
      let sub : Subscription Payload :=
        ⟨rest, ((v.streams type).controller.subs k).got ++ [payload]⟩
      let b : BufferedBroadcast Payload := { v.streams type with
        controller := { (v.streams type).controller with
          subs := Function.update (v.streams type).controller.subs k sub } }
      have hb : (v.streams type).deliver k = some b := by
        unfold BufferedBroadcast.deliver Controller.deliver
        rw [Subscription.next_of_queue hq]
        rfl
      let s₁ := s.withWrapper w (·.withStream type fun _ => b)
      let v₁ := v.withStream type fun _ => b
      have hstep : s.step toStr (.deliver w type k) = some s₁ := by
        show (s.wrappers w).bind _ = _
        rw [hv, Option.bind_some, hb]
        rfl
      have hfirst₁ : s₁.First h w v₁ := by
        refine ⟨by simp [s₁, v₁, withWrapper, hv], hh, fun u v' hu hh' => ?_⟩
        obtain ⟨v₀, hv₀, rfl | ⟨-, rfl⟩⟩ := wrappers_withWrapper hu
        · exact hleast u v' hv₀ hh'
        · exact hleast u v₀ hv₀ hh'
      have hstream : v₁.streams type = b := by simp [v₁, Wrapper.withStream]
      have hn₁ : ((v₁.streams type).controller.subs k).queue.length = n := by
        rw [hstream]
        rw [hq, List.length_cons] at hn
        simpa [b, sub] using hn
      have hkept : Kept v v₁ := by
        refine ⟨rfl, rfl, rfl, fun type' => ?_⟩
        by_cases htype : type' = type
        · subst htype
          rw [hstream]
        · simp [v₁, Wrapper.withStream, htype]
      obtain ⟨s', v', hsteps, hfirst', hdisp, hsource, hrouted, hkept', hdone⟩ := ih hfirst₁ hn₁
      refine ⟨s', v', ?_, hfirst', hdisp, hsource, hrouted, hkept.trans hkept', hdone⟩
      exact StepSystem.StepsUnder.trans (.step .refl rfl hstep) hsteps

end EventWorld

/-! ### Delivery -/

namespace Wrapper

/-- The subscription of the first listener of a stream. -/
def firstListener (v : Wrapper) (type : StreamType) : Subscription Payload :=
  (v.streams type).controller.subs 0

/-- The first listener has not cancelled. -/
def FirstListens (v : Wrapper) (type : StreamType) : Prop := 0 ∈ (v.streams type).controller.active

/-- The first 128 events of the type among the first `m` routed ones, and all later events of the
type. -/
def dueTo (toStr : Decoded → String) (v : Wrapper) (type : StreamType) (m : Nat) : List Payload :=
  (v.events toStr type (v.routed.take m)).take maxBuffered
    ++ v.events toStr type (v.routed.drop m)

end Wrapper

open EventWorld

/-- In every run without an `unsubscribe` of the handle `h`: the wrapper of `h` is routed the first
128 events of `h` that were broadcast before its construction and all later ones, but for those that
still wait; the first listener of a stream is given the first 128 events of its type among those
routed before it came and all later ones, but for those that still wait; and what waits does
arrive. -/
theorem event_delivery (toStr : Decoded → String) (h : String) (s : EventWorld)
    (hs : (eventSystem toStr).ReachableUnder (Quiet h) s) (w : Nat) (v : Wrapper)
    (hfirst : s.First h w v) :
    v.routed.map Routed.msg ++ (s.dispatcher.sub v.source w).queue = due h v.born s.sent ∧
    ∀ type m, v.opened type = some m → v.FirstListens type →
      (v.firstListener type).got ++ (v.firstListener type).queue = v.dueTo toStr type m ∧
      ∃ s' v', (eventSystem toStr).StepsUnder
          (fun _ a => a = .route w ∨ a = .deliver w type 0) s s' ∧
        s'.wrappers w = some v' ∧ v'.opened type = some m ∧
        v'.routed.map Routed.msg = due h v.born s.sent ∧
        (v'.firstListener type).got = v'.dueTo toStr type m := by
  -- The safety parts, for any state of such a run.
  have hsafe : ∀ s, (eventSystem toStr).ReachableUnder (Quiet h) s → ∀ v, s.First h w v →
      v.routed.map Routed.msg ++ (s.dispatcher.sub v.source w).queue = due h v.born s.sent ∧
      ∀ type m, v.opened type = some m → v.FirstListens type →
        (v.firstListener type).flow = v.dueTo toStr type m := by
    intro s hs v hfirst
    obtain ⟨hworld, hhandle⟩ := inv_of_reachable hs
    have hserved := hhandle.served w v hfirst
    refine ⟨?_, fun type m hm hactive => ?_⟩
    · rw [hworld.got w v hfirst.1]
      exact hserved.flow
    · have hstream := hworld.streams w v hfirst.1 hserved.kept type
      exact (hstream.2 m hm).2.flow hactive
  obtain ⟨hrouted, hstream⟩ := hsafe s hs v hfirst
  refine ⟨hrouted, fun type m hm hactive => ⟨hstream type m hm hactive, ?_⟩⟩
  obtain ⟨s₁, v₁, hsteps₁, hfirst₁, hsent₁, hkept₁, hempty₁⟩ := exists_routes _ hs hfirst rfl
  have hdeliver := exists_deliveries toStr type 0 _ hfirst₁ rfl
  obtain ⟨s₂, v₂, hsteps₂, hfirst₂, -, -, hrouted₂, hkept₂, hempty₂⟩ := hdeliver
  have hkept := hkept₁.trans hkept₂
  have hs₁ : (eventSystem toStr).ReachableUnder (Quiet h) s₁ :=
    StepSystem.StepsUnder.trans hs (hsteps₁.mono fun _ _ ha => by rw [ha]; trivial)
  have hopened : v₂.opened type = some m := by rw [hkept.opened, hm]
  refine ⟨s₂, v₂, ?_, hfirst₂.1, hopened, ?_, ?_⟩
  · exact StepSystem.StepsUnder.trans (hsteps₁.mono fun _ _ ha => Or.inl ha)
      (hsteps₂.mono fun _ _ ha => Or.inr ha)
  · have hall := (hsafe s₁ hs₁ v₁ hfirst₁).1
    rw [hempty₁, List.append_nil, hkept₁.born, hsent₁] at hall
    rw [hrouted₂]
    exact hall
  · have hs₂ : (eventSystem toStr).ReachableUnder (Quiet h) s₂ :=
      StepSystem.StepsUnder.trans hs₁ (hsteps₂.mono fun _ _ ha => by rw [ha]; trivial)
    have hactive₂ : v₂.FirstListens type := by
      unfold Wrapper.FirstListens
      rw [hkept.active]
      exact hactive
    have hall := (hsafe s₂ hs₂ v₂ hfirst₂).2 type m hopened hactive₂
    unfold Subscription.flow Wrapper.firstListener at hall
    rw [hempty₂, List.append_nil] at hall
    exact hall

/-- Messages come before the channel is constructed, before the application listens and after. -/
theorem event_delivery_late :
    ∃ s v, (eventSystem fun _ => "").ReachableUnder (Quiet "dc") s ∧ s.First "dc" 0 v ∧
      v.born = 1 ∧ v.opened .message = some 2 ∧
      (v.firstListener .message).got = [.message [1] true] ∧
      (v.firstListener .message).queue = [.message [2] true, .message [3] true] := by
  let message (b : UInt8) : EventAction := .broadcast ⟨"event:dataChannelMessage", 0, some "dc",
    [("is_binary", .bool true), ("data", .bytes [b])]⟩
  let acts : List EventAction := [message 1, .construct .dataChannel "dc" none, message 2, .route 0,
    .route 0, .listen 0 .message, message 3, .route 0, .deliver 0 .message 0]
  let final := (eventSystem fun _ => "").run (eventSystem fun _ => "").init acts
  have hrun : final.isSome := by rfl
  obtain ⟨s, hs⟩ := Option.isSome_iff_exists.mp hrun
  have hreach : (eventSystem fun _ => "").ReachableUnder (Quiet "dc") s := by
    refine StepSystem.steps_of_run ?_ hs
    simp only [acts, List.forall_mem_cons]
    exact ⟨fun _ => trivial, fun _ => trivial, fun _ => trivial, fun _ => trivial,
      fun _ => trivial, fun _ => trivial, fun _ => trivial, fun _ => trivial, fun _ => trivial,
      by simp⟩
  let wrapper := final.bind fun s => s.wrappers 0
  have hwrapper : wrapper.isSome := by rfl
  obtain ⟨v, hv⟩ := Option.isSome_iff_exists.mp hwrapper
  have hwrappers : s.wrappers 0 = some v :=
    StepSystem.eq_some_of_bind (f := fun s => s.wrappers 0) hs hv
  have hfacts : wrapper.map (fun v => (v.handle, v.born, v.opened .message,
      (v.streams .message).controller.active, (v.firstListener .message).got,
      v.dueTo (fun _ => "") .message 2)) = some ("dc", 1, some 2, [0], [.message [1] true],
      [.message [1] true, .message [2] true, .message [3] true]) := by rfl
  simp only [hv, Option.map_some, Option.some.injEq, Prod.mk.injEq] at hfacts
  obtain ⟨hhandle, hborn, hopened, hactive, hgot, hdue⟩ := hfacts
  have hfirst : s.First "dc" 0 v := ⟨hwrappers, hhandle, fun _ _ _ _ => Nat.zero_le _⟩
  have hlistens : v.FirstListens .message := by
    unfold Wrapper.FirstListens
    rw [hactive]
    exact List.mem_singleton_self 0
  obtain ⟨-, hstream⟩ := event_delivery (fun _ => "") "dc" s hreach 0 v hfirst
  obtain ⟨hall, -⟩ := hstream .message 2 hopened hlistens
  rw [hdue, hgot] at hall
  exact ⟨s, v, hreach, hfirst, hborn, hopened, hgot, List.append_cancel_left hall⟩

end PionBridge.Dart
