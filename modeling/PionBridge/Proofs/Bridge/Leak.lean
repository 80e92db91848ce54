import PionBridge.Proofs.Bridge.Profile

/-!
# `PionBridge.Proofs.Bridge.Leak`: what the creation of a channel can leave behind

The creation of a DataChannel registers the channel under its PeerConnection and then its send
state, in two locked operations. Neither looks at whether the handle it builds on is still
registered. So a `Delete` or a sweep of the PeerConnection between the steps leaves something
that nothing will remove: a channel below a handle that is gone with an entry of `children`,
or a send state with a sender that nobody stops (`channel_under_deleted_parent`).

When no removal falls between (`Undisturbed`), every key of the maps belongs to a registered
handle in every state (`Registry.Owned`). And every sender that was started is accounted for
(`Accounted`): its state is in the registry, or it is closed, or some goroutine is on the way
to close it. When everything has come to rest only the first is left.
-/

set_option autoImplicit false

namespace PionBridge.Server

open PionBridge.Lib

/-- The handles that an operation builds on are registered. -/
def RegistryOp.BuildsOn (r : Registry) : RegistryOp → Prop
  | .registerChild _ parentHandle _ _ => r.resources.Has parentHandle
  | .registerDCSendState handle _ => r.resources.Has handle
  | _ => True

namespace Registry

/-- Parents, the keys of `children` and the handles of send states are registered. -/
structure Owned (r : Registry) : Prop where
  parents : ∀ c p, r.parent.get c = some p → r.resources.Has p
  children : ∀ p, r.children.Has p → r.resources.Has p
  states : ∀ h, r.dcSendStates.Has h → r.resources.Has h

theorem owned_new : Registry.new.Owned where
  parents c p h := by simp [Registry.new] at h
  children p h := by simp [Registry.new, GoMap.Has] at h
  states h hh := by simp [Registry.new, GoMap.Has] at hh

theorem Restamped.owned {r r' : Registry} (h : Restamped r r') (ho : r.Owned) : r'.Owned where
  parents c p hp := by
    rw [h.resources]
    exact ho.parents c p (by rwa [h.parent] at hp)
  children p hp := by
    rw [h.resources]
    exact ho.children p (by rwa [h.children] at hp)
  states x hx := by
    rw [h.resources]
    exact ho.states x (by rwa [h.dcSendStates] at hx)

/-- A removal takes the children, the parent links and the states of what it removes. -/
theorem Erased.owned {r r' : Registry} {X : List Handle} (he : Erased r [] X r')
    (hX : r.DownClosed X) (ho : r.Owned) : r'.Owned where
  parents c p hp := by
    rw [he.parent] at hp
    split at hp
    · cases hp
    · rename_i hc
      have hpX : p ∉ X := fun hmem => hc (hX p hmem c hp)
      exact he.has_iff.mpr ⟨hpX, ho.parents c p hp⟩
  children p hp := by
    unfold GoMap.Has at hp
    rw [he.children] at hp
    split at hp
    · exact absurd rfl hp
    · rename_i hpX
      refine he.has_iff.mpr ⟨fun hmem => hpX (Or.inr hmem), ho.children p fun hnone => hp ?_⟩
      rw [hnone]
      rfl
  states x hx := by
    unfold GoMap.Has at hx
    rw [he.dcSendStates] at hx
    split at hx
    · exact absurd rfl hx
    · rename_i hxX
      exact he.has_iff.mpr ⟨hxX, ho.states x hx⟩

theorem register_owned {r : Registry} (ho : r.Owned) (resource : Resource) (handle : Handle)
    (now : Int) : (r.register resource handle now).Owned where
  parents c p hp := (ho.parents c p hp).set handle resource
  children p hp := (ho.children p hp).set handle resource
  states h hh := (ho.states h hh).set handle resource

/-- A channel registered below a registered handle. -/
theorem registerChild_owned {r : Registry} (ho : r.Owned) (resource : Resource)
    {parentHandle : Handle} (hparent : r.resources.Has parentHandle) (handle : Handle)
    (now : Int) : (r.registerChild resource parentHandle handle now).Owned where
  parents c p hp := by
    refine GoMap.Has.set ?_ handle resource
    change (r.parent.set handle parentHandle).get c = some p at hp
    rw [GoMap.get_set] at hp
    split at hp
    · cases hp
      exact hparent
    · exact ho.parents c p hp
  children p hp := by
    refine GoMap.Has.set ?_ handle resource
    rcases GoMap.has_set.mp hp with rfl | hold
    · exact hparent
    · exact ho.children p hold
  states h hh := (ho.states h hh).set handle resource

theorem registerDCSendState_owned {r : Registry} (ho : r.Owned) {handle : Handle}
    (hh : r.resources.Has handle) (state : StateRef) :
    (r.registerDCSendState handle state).2.Owned := by
  unfold registerDCSendState
  split
  · exact ho
  · refine ⟨ho.parents, ho.children, fun x hx => ?_⟩
    rcases GoMap.has_set.mp hx with rfl | hold
    · exact hh
    · exact ho.states x hold

theorem removeDCSendState_owned {r : Registry} (ho : r.Owned) (handle : Handle) :
    (r.removeDCSendState handle).2.Owned := by
  unfold removeDCSendState
  split
  · exact ⟨ho.parents, ho.children, fun x hx => ho.states x (GoMap.has_delete.mp hx).2⟩
  · exact ho

/-- The operations that hold the lock throughout. -/
theorem apply_owned {r r' : Registry} (hi : r.Inv) (ho : r.Owned) {op : RegistryOp}
    (hatomic : op.isAtomic = true) (hbuild : op.BuildsOn r) (h : r.apply op = some r') :
    r'.Owned := by
  cases op with
  | register resource handle now =>
      cases h
      exact register_owned ho resource handle now
  | registerChild resource p handle now =>
      cases h
      exact registerChild_owned ho resource hbuild handle now
  | registerDCSendState handle state =>
      cases h
      exact registerDCSendState_owned ho hbuild state
  | removeDCSendState handle =>
      cases h
      exact removeDCSendState_owned ho handle
  | lookup handle now =>
      cases h
      exact (lookup_restamped r handle now).owned ho
  | touch handle clock =>
      obtain ⟨r₁, hrun, hst, -⟩ := touch_spec hi handle clock
      have heq : some r₁ = some r' := hrun.symm.trans h
      cases heq
      exact hst.owned ho
  | delete handle => cases hatomic
  | cleanup s => cases hatomic

/-- Only `RemoveDCSendState` removes a state, among these operations. -/
theorem apply_state {r r' : Registry} (hi : r.Inv) {op : RegistryOp}
    (hatomic : op.isAtomic = true) {h : Handle} (hop : op ≠ .removeDCSendState h)
    {ref : StateRef} (hget : r.dcSendStates.get h = some ref) (hrun : r.apply op = some r') :
    r'.dcSendStates.get h = some ref := by
  cases op with
  | register resource handle now =>
      cases hrun
      exact hget
  | registerChild resource p handle now =>
      cases hrun
      exact hget
  | registerDCSendState handle state =>
      cases hrun
      unfold registerDCSendState
      split
      · exact hget
      · rename_i hnone
        have hne : h ≠ handle := by
          rintro rfl
          rw [hnone] at hget
          cases hget
        rw [GoMap.get_set_of_ne _ _ hne]
        exact hget
  | removeDCSendState handle =>
      have hne : h ≠ handle := by
        rintro rfl
        exact hop rfl
      cases hrun
      unfold removeDCSendState
      split
      · rw [GoMap.get_delete_of_ne _ hne]
        exact hget
      · exact hget
  | lookup handle now =>
      cases hrun
      rw [(lookup_restamped r handle now).dcSendStates]
      exact hget
  | touch handle clock =>
      obtain ⟨r₁, hrun₁, hst, -⟩ := touch_spec hi handle clock
      have heq : some r₁ = some r' := hrun₁.symm.trans hrun
      cases heq
      rw [hst.dcSendStates]
      exact hget
  | delete handle => cases hatomic
  | cleanup s => cases hatomic

end Registry

open Registry

/-- The step lemma for the registry part. -/
theorem CallInv.owned {w w' : CallWorld} (hw : CallInv w) (ho : w.reg.Owned) {b : CallAction}
    (hbuild : ∀ op, b = .op op → op.BuildsOn w.reg) (h : w.step b = some w') :
    w'.reg.Owned := by
  cases CallWorld.moved hw.world.reg h with
  | op op r' hb hatomic _ hrun => exact apply_owned hw.world.reg ho hatomic (hbuild op hb) hrun
  | collect g hs L r' spared _ he hL => exact he.owned hL.downClosed_nil ho
  | close g e left spared => exact ho
  | quiet _ hreg => exact hreg.owned ho

/-! ### Where the send states are -/

/-- The state `ref` of the handle `h` is in the registry, has been closed by a call, or is one
that a running call will close. -/
inductive CallWorld.Accounted (w : CallWorld) (h : Handle) (ref : StateRef) : Prop
  | registered (hget : w.reg.dcSendStates.get h = some ref)
  | closed (x : Handle) (hmem : .closeState x ref ∈ w.closed)
  | left (g : Goroutine) (x : Handle) (hmem : .closeState x ref ∈ (w.calls g).left)

/-- Only `RemoveDCSendState` takes a state out of a registry's hands. -/
theorem CallInv.accounted {w w' : CallWorld} (hw : CallInv w) {h : Handle} {ref : StateRef}
    (ha : w.Accounted h ref) {b : CallAction}
    (hb : w.reg.dcSendStates.get h = some ref → b ≠ .op (.removeDCSendState h))
    (hstep : w.step b = some w') : w'.Accounted h ref := by
  cases CallWorld.moved hw.world.reg hstep with
  | op op r' hop hatomic _ hrun =>
      cases ha with
      | registered hget =>
          refine .registered (apply_state hw.world.reg hatomic ?_ hget hrun)
          rintro rfl
          exact hb hget hop
      | closed x hmem => exact .closed x hmem
      | left g x hmem => exact .left g x hmem
  | collect g hs L r' spared hg he hL =>
      cases ha with
      | registered hget =>
          by_cases hmem : h ∈ L
          · -- The state is on the list of the call that removed its handle.
            refine .left g h ?_
            have hevent : w.reg.stateEvent h = some (.closeState h ref) := by
              rw [stateEvent, hget]
              rfl
            have hlist : .closeState h ref ∈ closeCollected (w.reg.gather L) := by
              rw [closeCollected_gather]
              exact List.mem_append_left _ (List.mem_filterMap.mpr ⟨h, hmem, hevent⟩)
            simpa [CallWorld.withCall, CallPc.left] using hlist
          · refine .registered ?_
            show r'.dcSendStates.get h = some ref
            rw [he.dcSendStates, if_neg hmem]
            exact hget
      | closed x hmem => exact .closed x hmem
      | left g' x hmem =>
          have hne : g' ≠ g := by
            rintro rfl
            rw [hg] at hmem
            cases hmem
          exact .left g' x (by simpa [CallWorld.withCall, CallWorld.withReg, hne] using hmem)
  | close g e left spared hg =>
      cases ha with
      | registered hget => exact .registered hget
      | closed x hmem => exact .closed x (List.mem_append_left _ hmem)
      | left g' x hmem =>
          by_cases heq : g' = g
          · subst heq
            rw [hg] at hmem
            rcases List.mem_cons.mp hmem with hhead | htail
            · rw [← hhead]
              exact .closed x (List.mem_append_right _ (List.mem_singleton_self _))
            · exact .left g' x (by simpa [CallWorld.withCall, CallPc.left] using htail)
          · exact .left g' x (by simpa [CallWorld.withCall, heq] using hmem)
  | quiet _ hreg _ hleft hclosed _ =>
      cases ha with
      | registered hget => exact .registered (by rw [hreg.dcSendStates]; exact hget)
      | closed x hmem => exact .closed x (by rwa [hclosed])
      | left g x hmem => exact .left g x (by rwa [hleft])

/-- The handle that the next registration of a goroutine builds on. -/
def ThreadPc.base : ThreadPc → List Handle
  | .making m none _ => [m.parent]
  | .making _ (some child) _ => [child.handle]
  | _ => []

/-- The goroutine that registers a channel or its send state. -/
def BridgeAction.registering : BridgeAction → List Thread
  | .registerChild t _ _ => [t]
  | .registerState t => [t]
  | _ => []

namespace Bridge

/-- The state `ref` of the handle `h` is known to the registry part, stopped, or in the hands of
a goroutine that is about to stop it. -/
inductive Accounted (w : Bridge) (h : Handle) (ref : StateRef) : Prop
  | calls (hcalls : w.calls.Accounted h ref)
  | stopped (hmem : ref ∈ w.stopped)
  | closing (t : Thread) (ht : (w.threads t).closing = some ref)

/-- A step that moves one goroutine, which had no state to close, and that does not remove the
state. -/
theorem Accounted.move {w w' : Bridge} {h : Handle} {ref : StateRef} (ha : w.Accounted h ref)
    (hcalls : w.calls.Accounted h ref → w'.calls.Accounted h ref)
    (hstopped : w'.stopped = w.stopped) {t : Thread} {pc : ThreadPc}
    (hthreads : w'.threads = Function.update w.threads t pc)
    (hold : (w.threads t).closing = none) : w'.Accounted h ref := by
  cases ha with
  | calls hc => exact .calls (hcalls hc)
  | stopped hmem => exact .stopped (by rwa [hstopped])
  | closing t' ht' =>
      have hne : t' ≠ t := by
        rintro rfl
        rw [hold] at ht'
        cases ht'
      refine .closing t' ?_
      rw [hthreads, Function.update_of_ne hne]
      exact ht'

theorem accounted_quiet {w : Bridge} (hw : CallInv w.calls) {calls : CallWorld}
    (hcalls : w.QuietCalls calls) {h : Handle} {ref : StateRef}
    (ha : w.calls.Accounted h ref) : calls.Accounted h ref := by
  rcases hcalls with rfl | ⟨b, hb, hstep⟩
  · exact ha
  · refine hw.accounted ha ?_ hstep
    rintro - rfl
    cases hb

/-- The step lemma for the states. -/
theorem Accounted.step {env : Platform} {w w' : Bridge} {a : BridgeAction} {h : Handle}
    {ref : StateRef} (ha : w.Accounted h ref) (hw : CallInv w.calls)
    (hstep : w.step env a = some w') : w'.Accounted h ref := by
  cases moved hstep with
  | free b calls hfree hb =>
      cases ha with
      | calls hc =>
          refine .calls (hw.accounted hc ?_ hb)
          rintro - rfl
          cases hfree
      | stopped hmem => exact .stopped hmem
      | closing t ht => exact .closing t ht
  | exit handle state =>
      cases ha with
      | calls hc => exact .calls hc
      | stopped hmem => exact .stopped hmem
      | closing t ht => exact .closing t ht
  | pass _ t pc calls out hcalls _ hold =>
      exact ha.move (accounted_quiet hw hcalls) rfl rfl hold
  | init s now failure msg tracing resp handler ht =>
      exact ha.move id rfl rfl (by rw [ht]; rfl)
  | refused s now err msg resp profile handler ht => exact ha.move id rfl rfl (by rw [ht]; rfl)
  | newPeer s now msg profile handler config ht => exact ha.move id rfl rfl (by rw [ht]; rfl)
  | register s handle now msg profile peer calls ht hb =>
      exact ha.move (fun hc => hw.accounted hc (by simp) hb) rfl rfl (by rw [ht]; rfl)
  | setPCProfile s msg handle profile peer ht => exact ha.move id rfl rfl (by rw [ht]; rfl)
  | setupPCCallbacks s msg handle peer resp ht => exact ha.move id rfl rfl (by rw [ht]; rfl)
  | lookedUp s now failure msg peer calls ht hcalls =>
      exact ha.move (accounted_quiet hw hcalls) rfl rfl (by rw [ht]; rfl)
  | created s msg peer object ht => exact ha.move id rfl rfl (by rw [ht]; rfl)
  | forget s msg pc _ ht => exact ha.move id rfl rfl (by rw [ht]; rfl)
  | delete s msg calls ht hb =>
      exact ha.move (fun hc => hw.accounted hc (by simp) hb) rfl rfl (by rw [ht]; rfl)
  | removeState s msg pc calls ht hb hpc =>
      -- The state that is removed is in the hands of the goroutine that removed it.
      by_cases hmine : w.reg.dcSendStates.get h = some ref ∧ h = msg.handle
      · obtain ⟨hget, rfl⟩ := hmine
        refine .closing (.reader s) ?_
        rw [hpc, show w.reg.lookupDCSendState msg.handle = some ref from hget]
        simp [Bridge.goto, ThreadPc.closing]
      · refine ha.move (fun hc => hw.accounted hc ?_ hb) rfl rfl (by rw [ht]; rfl)
        rintro hget heq
        cases heq
        exact hmine ⟨hget, rfl⟩
  | closeState s msg state ht =>
      cases ha with
      | calls hc => exact .calls hc
      | stopped hmem => exact .stopped (List.mem_append_left _ hmem)
      | closing t ht' =>
          by_cases heq : t = .reader s
          · rw [heq, ht] at ht'
            cases ht'
            exact .stopped (List.mem_append_right _ (List.mem_singleton_self _))
          · exact .closing t (by simpa [Bridge.goto, heq] using ht')
  | onDataChannel n peer label ordered handle s object ht =>
      exact ha.move id rfl rfl (by rw [ht]; rfl)
  | registerChild t handle now m profile parented calls ht _ hb =>
      exact ha.move (fun hc => hw.accounted hc (by simp) hb) rfl rfl (by rw [ht]; rfl)
  | readProfile t m child ht => exact ha.move id rfl rfl (by rw [ht]; rfl)
  | registerState t m child profile pc calls ht hb =>
      exact ha.move (fun hc => hw.accounted hc (by simp) hb) rfl rfl (by rw [ht]; rfl)
  | startSender t m child profile state ht => exact ha.move id rfl rfl (by rw [ht]; rfl)

/-! ### The runs -/

/-- No removal came between: the handle that a registration builds on is still registered. -/
def Undisturbed (w : Bridge) (a : BridgeAction) : Prop :=
  ∀ t ∈ a.registering, ∀ h ∈ (w.threads t).base, w.reg.resources.Has h

instance (w : Bridge) (a : BridgeAction) : Decidable (w.Undisturbed a) :=
  inferInstanceAs (Decidable (∀ t ∈ a.registering, ∀ h ∈ (w.threads t).base, _))

/-- No request, callback or registry call is in progress, and every sender whose state is closed
has ended. -/
def AtRest (w : Bridge) : Prop :=
  (∀ t, w.threads t = .idle) ∧ (∀ g, w.calls.calls g = .idle) ∧
    ∀ x ∈ w.senders, w.stateClosed x.2 = false

/-- Nothing belongs to a handle that is not registered. -/
def NoLeak (w : Bridge) : Prop :=
  w.reg.Owned ∧ ∀ x ∈ w.senders, w.reg.resources.Has x.1

/-- The senders that run, and the one that a goroutine is about to start. -/
def Started (w : Bridge) (h : Handle) (ref : StateRef) : Prop :=
  (h, ref) ∈ w.senders ∨
    ∃ t m child profile, w.threads t = .startSender m child profile ref ∧ child.handle = h

/-- The invariant of the runs. -/
structure LeakInv (w : Bridge) : Prop where
  owned : w.reg.Owned
  accounted : ∀ h ref, w.Started h ref → w.Accounted h ref

theorem leakInv_init {env : Platform} : LeakInv (bridgeSystem env).init where
  owned := owned_new
  accounted h ref hs := by
    rcases hs with hmem | ⟨t, m, child, profile, ht, -⟩
    · cases hmem
    · cases ht

/-- A step that adds no sender keeps the invariant. -/
theorem LeakInv.next {env : Platform} {w w' : Bridge} {a : BridgeAction} (hw : LeakInv w)
    (hcalls : CallInv w.calls) (hstep : w.step env a = some w') (howned : w'.reg.Owned)
    (hstarted : ∀ h ref, w'.Started h ref → w.Started h ref ∨ w'.Accounted h ref) :
    LeakInv w' where
  owned := howned
  accounted h ref hs := by
    rcases hstarted h ref hs with hold | hnew
    · exact (hw.accounted h ref hold).step hcalls hstep
    · exact hnew

/-- One goroutine moves to a place where it does not start a sender. -/
theorem Started.of_goto {w w' : Bridge} {h : Handle} {ref : StateRef}
    (hs : w'.Started h ref) {t : Thread} {pc : ThreadPc}
    (hthreads : w'.threads = Function.update w.threads t pc) (hsenders : w'.senders = w.senders)
    (hpc : ∀ m child profile ref, pc ≠ .startSender m child profile ref) : w.Started h ref := by
  rcases hs with hmem | ⟨t', m, child, profile, ht', hh⟩
  · exact Or.inl (by rwa [hsenders] at hmem)
  · refine Or.inr ⟨t', m, child, profile, ?_, hh⟩
    by_cases heq : t' = t
    · rw [hthreads, heq, Function.update_self] at ht'
      exact absurd ht' (hpc m child profile ref)
    · rwa [hthreads, Function.update_of_ne heq] at ht'

theorem owned_quiet {w : Bridge} (hw : LeakInv w) (hinv : CallInv w.calls)
    {calls : CallWorld} (hcalls : w.QuietCalls calls) : calls.reg.Owned := by
  rcases hcalls with rfl | ⟨b, hb, hstep⟩
  · exact hw.owned
  · refine hinv.owned hw.owned ?_ hstep
    rintro op rfl
    cases op <;> trivial

/-- The registry part of the step lemma. -/
theorem LeakInv.owned_step {env : Platform} {w w' : Bridge} {a : BridgeAction}
    (hw : LeakInv w) (hinv : CallInv w.calls) (hC : w.Undisturbed a)
    (hstep : w.step env a = some w') : w'.reg.Owned := by
  cases moved hstep with
  | free b calls hfree hb =>
      refine hinv.owned hw.owned ?_ hb
      rintro op rfl
      cases op <;> trivial
  | pass _ t pc calls out hcalls => exact owned_quiet hw hinv hcalls
  | lookedUp s now failure msg peer calls _ hcalls => exact owned_quiet hw hinv hcalls
  | register s handle now msg profile peer calls _ hb =>
      refine hinv.owned hw.owned ?_ hb
      rintro op heq
      cases heq
      trivial
  | delete s msg calls _ hb =>
      refine hinv.owned hw.owned ?_ hb
      rintro op heq
      cases heq
  | removeState s msg pc calls _ hb =>
      refine hinv.owned hw.owned ?_ hb
      rintro op heq
      cases heq
      trivial
  | registerChild t handle now m profile parented calls ht _ hb =>
      refine hinv.owned hw.owned ?_ hb
      rintro op heq
      cases heq
      exact hC t (List.mem_singleton_self t) m.parent (by rw [ht]; exact List.mem_singleton_self _)
  | registerState t m child profile pc calls ht hb =>
      refine hinv.owned hw.owned ?_ hb
      rintro op heq
      cases heq
      exact hC t (List.mem_singleton_self t) child.handle
        (by rw [ht]; exact List.mem_singleton_self _)
  | _ => exact hw.owned

/-- A new state is in the registry when its sender starts. -/
theorem accounted_of_registerState {w calls : CallWorld} {handle : Handle} {state : StateRef}
    (hnew : (w.reg.registerDCSendState handle state).1 = true)
    (hstep : w.step (.op (.registerDCSendState handle state)) = some calls) :
    calls.Accounted handle state := by
  simp only [CallWorld.step, RegistryOp.isAtomic, if_true] at hstep
  obtain ⟨world, hop, rfl⟩ := Option.map_eq_some_iff.mp hstep
  rw [RegistryWorld.step, if_pos (admissible_of_step hop)] at hop
  cases hop
  refine .registered ?_
  show ((w.reg.registerDCSendState handle state).2).dcSendStates.get handle = some state
  unfold registerDCSendState at hnew ⊢
  split at hnew
  · cases hnew
  · exact GoMap.get_set_self _ _ _

/-- The step lemma. -/
theorem LeakInv.step {env : Platform} {w w' : Bridge} {a : BridgeAction}
    (hw : LeakInv w) (hinv : CallInv w.calls) (hC : w.Undisturbed a)
    (hstep : w.step env a = some w') : LeakInv w' := by
  have howned := hw.owned_step hinv hC hstep
  refine hw.next hinv hstep howned ?_
  intro h ref hs
  cases moved hstep with
  | free b calls => exact Or.inl hs
  | exit handle state =>
      rcases hs with hmem | hthread
      · exact Or.inl (Or.inl (List.mem_of_mem_erase hmem))
      · exact Or.inl (Or.inr hthread)
  | pass _ t pc calls out _ hpc =>
      refine Or.inl (hs.of_goto rfl rfl ?_)
      rintro m child profile ref rfl
      cases hpc
  | forget s msg pc hpc =>
      refine Or.inl (hs.of_goto rfl rfl ?_)
      rintro m child profile ref rfl
      cases hpc
  | removeState s msg pc calls _ _ hpc =>
      refine Or.inl (hs.of_goto rfl rfl ?_)
      rintro m child profile ref heq
      rw [heq] at hpc
      split at hpc <;> cases hpc
  | registerState t m child profile pc calls ht hb hpc =>
      split at hpc
      · rename_i hnew
        rcases hs with hmem | ⟨t', m', child', profile', ht', hh⟩
        · exact Or.inl (Or.inl hmem)
        · by_cases heq : t' = t
          · -- The sender that this goroutine is about to start.
            have hpc' : pc = .startSender m' child' profile' ref := by
              simpa [goto, heq] using ht'
            rw [hpc] at hpc'
            cases hpc'
            rw [← hh]
            exact Or.inr (.calls (accounted_of_registerState hnew hb))
          · exact Or.inl (Or.inr ⟨t', m', child', profile', by simpa [goto, heq] using ht', hh⟩)
      · refine Or.inl (hs.of_goto rfl rfl ?_)
        rintro m child profile ref heq
        rw [heq] at hpc
        cases hpc
  | startSender t m child profile state ht =>
      rcases hs with hmem | ⟨t', m', child', profile', ht', hh⟩
      · rcases List.mem_append.mp hmem with hold | hnew
        · exact Or.inl (Or.inl hold)
        · cases List.mem_singleton.mp hnew
          exact Or.inl (Or.inr ⟨t, m, child, profile, ht, rfl⟩)
      · by_cases heq : t' = t
        · subst heq
          simp [goto] at ht'
        · exact Or.inl (Or.inr ⟨t', m', child', profile', by simpa [goto, heq] using ht', hh⟩)
  | _ =>
      refine Or.inl (hs.of_goto rfl rfl ?_)
      rintro m child profile ref heq
      cases heq

/-- The run lemma. -/
theorem leakInv_of_reachable {env : Platform} {w : Bridge}
    (hw : (bridgeSystem env).ReachableUnder Undisturbed w) : LeakInv w := by
  refine StepSystem.StepsUnder.invariant hw leakInv_init ?_
  intro u a v hu hinv hC hstep
  have hreach : (bridgeSystem env).Reachable u := StepSystem.ReachableUnder.reachable hu
  exact hinv.step (callInv hreach) hC hstep

end Bridge

open Bridge

/-- In every run in which no removal falls between the steps of a creation, nothing is left
behind when all goroutines have finished. -/
theorem creation_leaks_nothing (env : Platform) (w : Bridge)
    (hw : (bridgeSystem env).ReachableUnder Undisturbed w) (hrest : w.AtRest) : w.NoLeak := by
  obtain ⟨hthreads, hidle, hexited⟩ := hrest
  have hinv := leakInv_of_reachable hw
  refine ⟨hinv.owned, fun x hx => ?_⟩
  have hopen := hexited x hx
  -- The state of a sender that runs is not closed, and nobody is left to close it.
  cases hinv.accounted x.1 x.2 (Or.inl hx) with
  | calls hcalls =>
      cases hcalls with
      | registered hget =>
          refine hinv.owned.states x.1 ?_
          unfold GoMap.Has
          rw [show w.reg.dcSendStates.get x.1 = some x.2 from hget]
          simp
      | closed y hmem =>
          have hclosed : w.stateClosed x.2 = true := by
            unfold stateClosed
            rw [Bool.or_eq_true, List.any_eq_true]
            exact Or.inr ⟨_, hmem, beq_self_eq_true _⟩
          rw [hclosed] at hopen
          cases hopen
      | left g y hmem =>
          rw [hidle g] at hmem
          cases hmem
  | stopped hmem =>
      have hclosed : w.stateClosed x.2 = true := by
        unfold stateClosed
        rw [Bool.or_eq_true]
        exact Or.inl (decide_eq_true hmem)
      rw [hclosed] at hopen
      cases hopen
  | closing t ht =>
      rw [hthreads t] at ht
      cases ht

/-- Session 0 creates the PeerConnection `pc`. -/
def createPeer : List BridgeAction := [
  .frame 0 ⟨"pc:create", 1, "", []⟩ fun _ => 0, .dispatch 0 0 none, .register 0 "pc" 1,
  .setPCProfile 0, .setupPCCallbacks 0]

/-- Session 1 starts to create a channel on it, up to `CreateDataChannel`. -/
def startChannel : List BridgeAction := [
  .frame 1 ⟨"pc:createDc", 2, "pc", [("label", .str "x")]⟩ fun _ => 2, .dispatch 1 2 none,
  .createDataChannel 1 none]

/-- Session 0 deletes it, up to and with the cascade. -/
def deletePeer : List BridgeAction := [
  .frame 0 ⟨"resource:delete", 3, "pc", []⟩ fun _ => 3, .dispatch 0 3 none,
  .forgetPCProfile 0, .delete 0]

/-- The cascade comes after `RegisterDCSendState` and before the sender starts: the sender finds
its state closed and ends. -/
theorem creation_leaks_nothing_late_delete :
    ∃ w, (bridgeSystem plainPlatform).ReachableUnder Undisturbed w ∧ w.AtRest ∧
      w.channels.length = 1 ∧ ¬ w.reg.resources.Has "pc" ∧ w.NoLeak := by
  let acts := createPeer ++ startChannel ++ [.registerChild (.reader 1) "dc" 3,
    .readProfile (.reader 1), .registerState (.reader 1)] ++ deletePeer ++
    [.startSender (.reader 1), .setupDCCallbacks (.reader 1), .call (.close 0),
      .call (.close 0), .call (.close 0), .deleted 0, .exit "dc" 0]
  let final := (bridgeSystem plainPlatform).runUnder Undisturbed
    (bridgeSystem plainPlatform).init acts
  have hrun : final.isSome := by rfl
  obtain ⟨w, hw⟩ := Option.isSome_iff_exists.mp hrun
  have hthreads : ∀ t, final.map (fun w => w.threads t) = some .idle
    | .reader 0 => by rfl
    | .reader 1 => by rfl
    | .reader (_ + 2) => by rfl
    | .callback _ => by rfl
  have hcalls : ∀ g, final.map (fun w => w.calls.calls g) = some .idle
    | 0 => by rfl
    | _ + 1 => by rfl
  have hfacts : final.map (fun w => (w.senders, w.channels.length, w.reg.resources.get "pc"))
      = some ([], 1, none) := by rfl
  simp only [hw, Option.map_some, Option.some.injEq, Prod.mk.injEq] at hthreads hcalls hfacts
  obtain ⟨hsenders, hchannels, hgone⟩ := hfacts
  have hreach : (bridgeSystem plainPlatform).ReachableUnder Undisturbed w :=
    StepSystem.steps_of_runUnder hw
  have hrest : w.AtRest := ⟨hthreads, hcalls, by simp [hsenders]⟩
  exact ⟨w, hreach, hrest, hchannels, fun h => h hgone,
    creation_leaks_nothing plainPlatform w hreach hrest⟩

/-- The PeerConnection is deleted between its lookup and `RegisterChild`: the channel is
registered below a handle that is gone. -/
theorem channel_under_deleted_parent :
    ¬ ∀ (env : Platform) (w : Bridge), (bridgeSystem env).Reachable w → w.AtRest →
      w.NoLeak := by
  intro hall
  let acts := createPeer ++ startChannel ++ deletePeer ++ [.call (.close 0), .deleted 0,
    .registerChild (.reader 1) "dc" 4, .readProfile (.reader 1), .registerState (.reader 1),
    .startSender (.reader 1), .setupDCCallbacks (.reader 1)]
  let final := (bridgeSystem plainPlatform).run (bridgeSystem plainPlatform).init acts
  have hrun : final.isSome := by rfl
  obtain ⟨w, hw⟩ := Option.isSome_iff_exists.mp hrun
  have hthreads : ∀ t, final.map (fun w => w.threads t) = some .idle
    | .reader 0 => by rfl
    | .reader 1 => by rfl
    | .reader (_ + 2) => by rfl
    | .callback _ => by rfl
  have hcalls : ∀ g, final.map (fun w => w.calls.calls g) = some .idle
    | 0 => by rfl
    | _ + 1 => by rfl
  have hfacts : final.map (fun w => (w.senders.map fun x => w.stateClosed x.2,
      w.reg.parent.get "dc", w.reg.resources.get "pc")) = some ([false], some "pc", none) := by rfl
  simp only [hw, Option.map_some, Option.some.injEq, Prod.mk.injEq] at hthreads hcalls hfacts
  obtain ⟨hsenders, hparent, hgone⟩ := hfacts
  have hopen : ∀ x ∈ w.senders, w.stateClosed x.2 = false := by
    intro x hx
    have hmem := List.mem_map_of_mem (f := fun x => w.stateClosed x.2) hx
    rw [hsenders] at hmem
    exact List.mem_singleton.mp hmem
  obtain ⟨howned, -⟩ := hall plainPlatform w (StepSystem.reachable_of_run hw)
    ⟨hthreads, hcalls, hopen⟩
  exact howned.parents "dc" "pc" hparent hgone

end PionBridge.Server
