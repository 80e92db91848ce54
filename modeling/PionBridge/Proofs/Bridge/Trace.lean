import PionBridge.Proofs.Bridge.Leak
import PionBridge.Proofs.Bridge.Profile
import PionBridge.Server.Trace

/-!
# `PionBridge.Proofs.Bridge.Trace`: tables that outlive their handles

Two tables have handles as keys and live outside the registry: `pcProfiles` of every session, and
`Trace.dcIndex`. Some removals clear them and some do not.

- `resource:delete` forgets the profile in the session that sends it. The session that created
  the PeerConnection keeps its entry when another session deletes it, and so it does when
  `Cleanup` removes it.
- `collectLocked` releases the slot of a channel. A reader that has looked up the send state, or a
  sender that has taken an item, calls `DCIdx` after that and assigns a new slot.

`stale_tables` has a run for each. `Tidy` is the condition on a step that excludes them, and
`tables_follow_registry` shows that it is the right one: in a run of tidy steps both tables follow
the registry, and a step from such a state leads to such a state exactly when it is tidy.
-/

set_option autoImplicit false

namespace PionBridge.Server

open PionBridge.Lib
open Registry

/-! ### The slots -/

namespace PionTrace

@[simp] theorem has_dcIdx {t : PionTrace} {h x : Handle} :
    (t.dcIdx h).2.dcIndex.Has x ↔ x = h ∨ t.dcIndex.Has x := by
  unfold dcIdx
  split
  · rename_i idx hget
    have hhas : t.dcIndex.Has h := by simp [GoMap.Has, hget]
    constructor
    · exact Or.inr
    · rintro (rfl | hx)
      · exact hhas
      · exact hx
  · -- A free slot or a new one: the rest of the table is the same.
    cases t.freeIdx.getLast? with
    | some idx => exact GoMap.has_set
    | none => exact GoMap.has_set

@[simp] theorem has_releaseDC {t : PionTrace} {h x : Handle} :
    (t.releaseDC h).dcIndex.Has x ↔ x ≠ h ∧ t.dcIndex.Has x := by
  unfold releaseDC
  split
  · exact GoMap.has_delete
  · rename_i hget
    constructor
    · intro hx
      refine ⟨?_, hx⟩
      rintro rfl
      exact hx hget
    · exact And.right

/-- The releases of a removal. -/
theorem has_foldl_releaseDC {x : Handle} (hs : List Handle) (t : PionTrace) :
    (hs.foldl releaseDC t).dcIndex.Has x ↔ x ∉ hs ∧ t.dcIndex.Has x := by
  induction hs generalizing t with
  | nil => simp
  | cons h hs ih =>
      rw [List.foldl_cons, ih, has_releaseDC, List.mem_cons]
      tauto

end PionTrace

/-! ### What a step removes -/

theorem apply_has {r r' : Registry} (hi : r.Inv) {op : RegistryOp} (hatomic : op.isAtomic = true)
    (h : r.apply op = some r') {x : Handle} (hx : r.resources.Has x) : r'.resources.Has x := by
  cases op with
  | register resource handle now =>
      cases h
      exact hx.set handle resource
  | registerChild resource p handle now =>
      cases h
      exact hx.set handle resource
  | registerDCSendState | removeDCSendState | lookup | touch =>
      rwa [apply_resources hi hatomic rfl h]
  | delete handle => cases hatomic
  | cleanup s => cases hatomic

/-- The collected handles leave the registry, and the others stay. -/
structure Removes (r : Registry) (L : List Handle) (r' : Registry) : Prop where
  gone : ∀ x ∈ L, ¬ r'.resources.Has x
  kept : ∀ x, x ∉ L → r.resources.Has x → r'.resources.Has x

theorem Registry.Erased.removes {r r' : Registry} {L : List Handle} (he : Erased r [] L r') :
    Removes r L r' where
  gone _ hx hhas := (he.has_iff.mp hhas).1 hx
  kept _ hx hhas := he.has_iff.mpr ⟨hx, hhas⟩

theorem removes_of_resources {r r' : Registry} (h : r'.resources = r.resources) :
    Removes r [] r' where
  gone x hx := by cases hx
  kept x _ hhas := by rwa [h]

namespace CallWorld

/-- The steps of the registry part. Two of them collect, and what they collect is gone. -/
theorem removes {w w' : CallWorld} {a : CallAction} (hi : w.reg.Inv) (h : w.step a = some w') :
    Removes w.reg (w.collected a) w'.reg := by
  cases a
  case delete g handle =>
      simp only [CallWorld.step] at h
      split at h
      · rcases deleteLocked_spec hi handle with ⟨-, hrun⟩ | ⟨-, L, r', hrun, he, -⟩
        · simp only [collected, hrun]
          rw [hrun] at h
          cases h
          exact removes_of_resources rfl
        · simp only [collected, hrun]
          rw [hrun] at h
          cases h
          exact he.removes
      · cases h
  case reap g =>
      simp only [CallWorld.step] at h
      split at h
      · rename_i reap spared hg
        obtain ⟨L, r', hrun, he, -⟩ := reapLocked_spec hi reap
        simp only [collected, hg, hrun]
        rw [hrun] at h
        cases h
        exact he.removes
      · cases h
  all_goals
    cases moved hi h with
    | op op r' _ hatomic _ hrun =>
        exact { gone := fun x hx => (by cases hx), kept := fun x _ => apply_has hi hatomic hrun }
    | collect _ _ _ _ _ _ _ _ ha => rcases ha with ha | ⟨_, ha⟩ <;> cases ha
    | close => exact removes_of_resources rfl
    | quiet _ hreg => exact removes_of_resources hreg.resources

end CallWorld

namespace Bridge

/-- A quiet step removes nothing. -/
theorem QuietCalls.removes {w : Bridge} (hi : w.reg.Inv) {calls : CallWorld}
    (h : w.QuietCalls calls) : Removes w.reg [] calls.reg := by
  rcases h with rfl | ⟨b, hb, hstep⟩
  · exact removes_of_resources rfl
  · have hr := CallWorld.removes hi hstep
    cases b with
    | delete | reap => cases hb
    | _ => exact hr

/-- The steps other than those that can collect. -/
theorem removes_nil {env : Platform} {w w' : Bridge} {a : BridgeAction} (hi : w.reg.Inv)
    (hcall : ∀ b, a ≠ .call b) (hdelete : ∀ s, a ≠ .delete s) (h : w.step env a = some w') :
    Removes w.reg [] w'.reg := by
  cases moved h with
  | free b => exact absurd rfl (hcall b)
  | delete s => exact absurd rfl (hdelete s)
  | pass _ t pc calls out hcalls => exact hcalls.removes hi
  | lookedUp s now failure msg peer calls _ hcalls => exact hcalls.removes hi
  | register _ _ _ _ _ _ calls _ hstep => exact CallWorld.removes hi hstep
  | removeState _ _ _ calls _ hstep => exact CallWorld.removes hi hstep
  | registerChild _ _ _ _ _ _ calls _ _ hstep => exact CallWorld.removes hi hstep
  | registerState _ _ _ _ _ calls _ hstep => exact CallWorld.removes hi hstep
  | _ => exact removes_of_resources rfl

/-- A step of the bridge takes the collected handles out of the registry, and no other. -/
theorem removes {env : Platform} {w w' : Bridge} {a : BridgeAction} (hi : w.reg.Inv)
    (h : w.step env a = some w') : Removes w.reg (w.collected a) w'.reg := by
  cases a
  case call b =>
      simp only [step] at h
      split at h
      · obtain ⟨calls, hstep, rfl⟩ := callStep_eq h
        exact CallWorld.removes hi hstep
      · cases h
  case delete s =>
      simp only [step, stepRequest] at h
      split at h
      · rename_i msg ht
        simp only [collected, ht]
        split at h
        · obtain ⟨w₁, hcall, rfl⟩ := Option.map_eq_some_iff.mp h
          obtain ⟨calls, hstep, rfl⟩ := callStep_eq hcall
          exact CallWorld.removes hi hstep
        · rename_i hgone
          cases h
          -- `Delete` returns its error and collects nothing.
          have hnone : w.calls.reg.resources.get msg.handle = none := not_not.mp hgone
          simp only [CallWorld.collected, deleteLocked, hnone]
          exact removes_of_resources rfl
      · cases h
  all_goals exact removes_nil hi (fun _ => by simp) (fun _ => by simp) h

/-! ### What a step does to the profiles -/

/-- The session in which a step stores a profile, and the handle. -/
def storing (w : Bridge) : BridgeAction → Option (Session × Handle)
  | .setPCProfile s =>
    match w.threads (.reader s) with
    | .setPCProfile _ handle _ _ => some (s, handle)
    | _ => none
  | _ => none

theorem has_withHandler {w : Bridge} {s s' : Session} {h : Handler} {x : Handle}
    (hx : ((w.withHandler s h).handlers s').pcProfiles.Has x) :
    s' = s ∧ h.pcProfiles.Has x ∨ (w.handlers s').pcProfiles.Has x := by
  by_cases hs : s' = s
  · subst hs
    exact Or.inl ⟨rfl, by simpa [withHandler] using hx⟩
  · exact Or.inr (by simpa [withHandler, hs] using hx)

/-- A session has the profiles that it had, and the one that the step stores. -/
theorem has_profile {env : Platform} {w w' : Bridge} {a : BridgeAction}
    (h : w.step env a = some w') {s : Session} {x : Handle}
    (hx : (w'.handlers s).pcProfiles.Has x) :
    (w.handlers s).pcProfiles.Has x ∨ w.storing a = some (s, x) := by
  -- Five steps change a handler. Only two of them are about `pcProfiles`.
  cases moved h with
  | init s' now failure msg tracing resp handler ht hmsg hh =>
      left
      rcases has_withHandler hx with ⟨rfl, hnew⟩ | hold
      · rwa [handleInit_pcProfiles hh] at hnew
      · exact hold
  | refused s' now err msg resp profile handler ht hh =>
      left
      rcases has_withHandler hx with ⟨rfl, hnew⟩ | hold
      · rwa [createProfile_keeps hh] at hnew
      · exact hold
  | newPeer s' now msg profile handler config ht hh =>
      left
      rcases has_withHandler hx with ⟨rfl, hnew⟩ | hold
      · rwa [createProfile_keeps hh] at hnew
      · exact hold
  | setPCProfile s' msg handle profile peer ht =>
      rcases has_withHandler hx with ⟨rfl, hnew⟩ | hold
      · rcases GoMap.has_set.mp hnew with rfl | hold
        · right
          simp only [storing, ht]
        · exact Or.inl hold
      · exact Or.inl hold
  | forget s' msg pc hpc ht =>
      left
      rcases has_withHandler hx with ⟨rfl, hnew⟩ | hold
      · exact (GoMap.has_delete.mp hnew).2
      · exact hold
  | _ => exact Or.inl hx

/-- A step that stores a profile does nothing to the registry. -/
theorem stored_of_step {env : Platform} {w w' : Bridge} {a : BridgeAction} {s : Session}
    {x : Handle} (hx : w.storing a = some (s, x)) (h : w.step env a = some w') :
    (w'.handlers s).pcProfiles.Has x ∧ w'.reg = w.reg := by
  unfold storing at hx
  split at hx
  · split at hx
    · rename_i msg handle profile peer ht
      cases hx
      simp only [step, stepRequest, ht] at h
      cases h
      refine ⟨?_, rfl⟩
      simp [goto, withHandler, GoMap.Has, Handler.setPCProfile]
    · cases hx
  · cases hx

/-- A step that collects does nothing to the handlers. -/
theorem handlers_of_collected {env : Platform} {w w' : Bridge} {a : BridgeAction} {x : Handle}
    (hx : x ∈ w.collected a) (h : w.step env a = some w') : w'.handlers = w.handlers := by
  cases a with
  | call b =>
      simp only [step] at h
      split at h
      · obtain ⟨calls, -, rfl⟩ := callStep_eq h
        rfl
      · cases h
  | delete s =>
      simp only [step, stepRequest] at h
      split at h
      · split at h
        · obtain ⟨w₁, hcall, rfl⟩ := Option.map_eq_some_iff.mp h
          obtain ⟨calls, -, rfl⟩ := callStep_eq hcall
          rfl
        · cases h
          rfl
      · cases h
  | _ => cases hx

/-- Whatever is collected is released. -/
theorem collected_subset_released (w : Bridge) (a : BridgeAction) :
    w.collected a ⊆ w.released a := by
  cases a with
  | removeState | closeState => exact List.nil_subset _
  | _ => exact List.Subset.refl _

end Bridge

/-! ### The steps of the whole -/

namespace TracedBridge

/-- The handles that a step takes out of the registry. -/
def collected (w : TracedBridge) : TracedAction → List Handle
  | .bridge a => w.bridge.collected a
  | _ => []

/-- The session in which a step stores a profile, and the handle. -/
def storing (w : TracedBridge) : TracedAction → Option (Session × Handle)
  | .bridge a => w.bridge.storing a
  | _ => none

/-- The handle for which a step calls `DCIdx`. -/
def indexing (w : TracedBridge) : TracedAction → Option Handle
  | .trace s =>
    match w.sends s with
    | .trace i _ => if w.bridge.tracing then some i.work.handle else none
    | _ => none
  | .traceSend x => if w.bridge.tracing then some x.1 else none
  | _ => none

/-- What one step can do. -/
inductive Moved (env : Platform) (w : TracedBridge) : TracedAction → TracedBridge → Prop
  | bridge (a : BridgeAction) (b : Bridge) (hstep : w.bridge.step env a = some b) :
      Moved env w (.bridge a)
        { w with bridge := b, trace := (w.bridge.released a).foldl PionTrace.releaseDC w.trace }
  | index (a : TracedAction) (h : Handle) (w' : TracedBridge) (ha : ∀ b, a ≠ .bridge b)
      (hindexing : w.indexing a = some h) (hbridge : w'.bridge = w.bridge)
      (hended : w'.ended = w.ended) (htrace : w'.trace = (w.trace.dcIdx h).2) : Moved env w a w'
  | quiet (a : TracedAction) (w' : TracedBridge) (hcollected : w.collected a = [])
      (hstoring : w.storing a = none) (hindexing : w.indexing a = none)
      (hcalls : w.bridge.QuietCalls w'.bridge.calls)
      (hhandlers : w'.bridge.handlers = w.bridge.handlers) (htrace : w'.trace = w.trace)
      (hended : ∀ s, w'.ended s = false → w.ended s = false) : Moved env w a w'

/-- Only steps of the bridge collect handles and store profiles. -/
theorem outside_bridge (w : TracedBridge) {a : TracedAction} (ha : ∀ b, a ≠ .bridge b) :
    w.collected a = [] ∧ w.storing a = none := by
  cases a with
  | bridge b => exact absurd rfl (ha b)
  | _ => exact ⟨rfl, rfl⟩

/-- A step that leaves the registry, the handlers and the slots alone. -/
theorem Moved.same {env : Platform} {w w' : TracedBridge} {a : TracedAction}
    (ha : ∀ b, a ≠ .bridge b) (hindexing : w.indexing a = none)
    (hcalls : w'.bridge.calls = w.bridge.calls)
    (hhandlers : w'.bridge.handlers = w.bridge.handlers) (htrace : w'.trace = w.trace)
    (hended : w'.ended = w.ended) : Moved env w a w' := by
  obtain ⟨hcollected, hstoring⟩ := w.outside_bridge ha
  refine .quiet a w' hcollected hstoring hindexing (Or.inl hcalls) hhandlers htrace ?_
  intro s hs
  rwa [hended] at hs

/-- A step that calls `DCIdx` when tracing is on. -/
theorem Moved.dcIdx {env : Platform} {w w' : TracedBridge} {a : TracedAction} {h : Handle}
    (ha : ∀ b, a ≠ .bridge b)
    (hindexing : w.indexing a = if w.bridge.tracing then some h else none)
    (hbridge : w'.bridge = w.bridge) (hended : w'.ended = w.ended)
    (htrace : w'.trace = (w.dcIdx h).trace) : Moved env w a w' := by
  unfold TracedBridge.dcIdx at htrace
  split at htrace
  · rename_i hon
    rw [if_pos hon] at hindexing
    exact .index a h w' ha hindexing hbridge hended htrace
  · rename_i hoff
    rw [if_neg hoff] at hindexing
    exact .same ha hindexing (by rw [hbridge]) (by rw [hbridge]) htrace hended

theorem dcIdx_bridge (w : TracedBridge) (h : Handle) : (w.dcIdx h).bridge = w.bridge := by
  unfold dcIdx
  split <;> rfl

theorem dcIdx_ended (w : TracedBridge) (h : Handle) : (w.dcIdx h).ended = w.ended := by
  unfold dcIdx
  split <;> rfl

/-- The steps of a `dc:send` in its reader. Most of them change the place of the send only. -/
theorem moved_stepReader {env : Platform} {w w' : TracedBridge} {a : TracedAction}
    (h : w.stepReader a = some w') : Moved env w a w' := by
  cases a <;> simp only [stepReader, reduceCtorEq] at h
  case send s msg clock =>
      split at h
      · split at h
        · cases h
          exact .same (by simp) rfl rfl rfl rfl rfl
        · -- `Touch` changes stamps only.
          obtain ⟨b, hcall, rfl⟩ := Option.map_eq_some_iff.mp h
          obtain ⟨calls, hstep, rfl⟩ := Bridge.callStep_eq hcall
          exact .quiet _ _ rfl rfl rfl (Or.inr ⟨_, rfl, hstep⟩) rfl rfl (fun _ => id)
      · cases h
  case trace s =>
      split at h
      · rename_i i state hs
        cases h
        refine .dcIdx (h := i.work.handle) (by simp) ?_ (dcIdx_bridge w _) (dcIdx_ended w _) rfl
        simp only [indexing, hs]
      · cases h
  all_goals
    repeat' split at h
    all_goals
      cases h
      try exact .same (by simp) rfl rfl rfl rfl rfl

/-- The steps of the sender goroutines. -/
theorem moved_stepSender {env : Platform} {w w' : TracedBridge} {a : TracedAction}
    (h : w.stepSender a = some w') : Moved env w a w' := by
  cases a <;> simp only [stepSender, reduceCtorEq] at h
  case traceSend x =>
      split at h
      · cases h
        exact .dcIdx (h := x.1) (by simp) rfl (dcIdx_bridge w _) (dcIdx_ended w _) rfl
      · cases h
  all_goals
    repeat' split at h
    all_goals
      cases h
      try exact .same (by simp) rfl rfl rfl rfl rfl

/-- The steps, in cases. -/
theorem moved {env : Platform} {w w' : TracedBridge} {a : TracedAction}
    (h : w.step env a = some w') : Moved env w a w' := by
  cases a
  case bridge a =>
      simp only [step] at h
      split at h
      · obtain ⟨b, hstep, rfl⟩ := Option.map_eq_some_iff.mp h
        exact .bridge a b hstep
      · cases h
  case disconnect s =>
      simp only [step] at h
      split at h
      · cases h
        refine .quiet _ _ rfl rfl rfl (Or.inl rfl) rfl rfl fun s' hs' => ?_
        by_cases hs : s' = s
        · simp [hs] at hs'
        · simpa [hs] using hs'
      · cases h
  case take | traceSend | sent | drain => exact moved_stepSender h
  all_goals exact moved_stepReader h

/-- A run of the whole is a run of the bridge, up to the steps of the sends. -/
theorem calls_reachable {env : Platform} {w : TracedBridge} (hw : (tracedSystem env).Reachable w) :
    callSystem.Reachable w.bridge.calls := by
  have hinit : callSystem.Reachable (tracedSystem env).init.bridge.calls := .refl
  refine StepSystem.Reachable.invariant (I := fun v => callSystem.Reachable v.bridge.calls) hw
    hinit ?_
  intro u a v _ hu hstep
  cases moved hstep with
  | bridge a b hb =>
      rcases Bridge.calls_step hb with heq | ⟨c, hc⟩
      · exact heq ▸ hu
      · exact hu.next hc
  | index _ h _ _ _ hbridge => rwa [hbridge]
  | quiet _ _ _ _ _ hcalls =>
      rcases hcalls with heq | ⟨c, -, hc⟩
      · rwa [heq]
      · exact hu.next hc

theorem reg_inv {env : Platform} {w : TracedBridge} (hw : (tracedSystem env).Reachable w) :
    w.bridge.reg.Inv :=
  (callInv_of_reachable (calls_reachable hw)).world.reg

/-! ### Stale keys -/

/-- Every key of the profiles of an open session and of `dcIndex` is registered. -/
structure NoStale (w : TracedBridge) : Prop where
  profiles : ∀ s, w.ended s = false → ∀ h, (w.bridge.handlers s).pcProfiles.Has h →
    w.reg.resources.Has h
  slots : ∀ h, w.trace.dcIndex.Has h → w.reg.resources.Has h

/-- A step takes no handle out of the registry whose profile an open session still has. It stores
no profile and assigns no slot for a handle that is gone.

In terms of requests, these are tidy:
- `resource:delete` on a PeerConnection by the session that created it, because that session forgets
  the profile before `Delete` runs, or by any session once the creator has sent `pc:close` or its
  connection has ended. A `resource:delete` by another session before that is not, and neither is a
  `Cleanup` that reaps the PeerConnection;
- `resource:delete` on a DataChannel, whoever sends it;
- `pc:create`, unless the new handle is deleted between `Register` and `setPCProfile`;
- with tracing on, `dc:send`, unless the channel is deleted between the lookup of the send state and
  `DCIdx` in the reader, or between the taking of the item and `DCIdx` in the sender.

The condition is one on every state, so it also excludes a stale key that the rest of a request in
progress would have removed. -/
structure Tidy (w : TracedBridge) (a : TracedAction) : Prop where
  collected : ∀ h ∈ w.collected a, ∀ s, w.ended s = false →
    ¬ (w.bridge.handlers s).pcProfiles.Has h
  stored : ∀ x ∈ w.storing a, w.ended x.1 = false → w.reg.resources.Has x.2
  indexed : ∀ h ∈ w.indexing a, w.reg.resources.Has h

theorem Tidy.of_none {w : TracedBridge} {a : TracedAction} (hcollected : w.collected a = [])
    (hstoring : w.storing a = none) (hindexing : w.indexing a = none) : w.Tidy a where
  collected h hh := by
    rw [hcollected] at hh
    cases hh
  stored x hx := by cases hstoring.symm.trans hx
  indexed h hh := by cases hindexing.symm.trans hh

theorem noStale_init {env : Platform} : NoStale (tracedSystem env).init where
  profiles _ _ h hh := absurd (GoMap.get_empty h) hh
  slots h hh := absurd (GoMap.get_empty h) hh

/-- A step of the bridge. -/
theorem NoStale.bridge_iff {env : Platform} {w : TracedBridge} (hw : NoStale w)
    (hi : w.bridge.reg.Inv) {a : BridgeAction} {b : Bridge} (hstep : w.bridge.step env a = some b) :
    NoStale { w with
      bridge := b
      trace := (w.bridge.released a).foldl PionTrace.releaseDC w.trace } ↔ w.Tidy (.bridge a) := by
  have hremoves := Bridge.removes hi hstep
  constructor
  · intro hnew
    refine ⟨fun h hh s hs hhas => ?_, fun x hx hs => ?_, fun h hh => by cases hh⟩
    · -- The removal leaves the handlers alone, so the key would be stale after it.
      refine hremoves.gone h hh (hnew.profiles s hs h ?_)
      rwa [Bridge.handlers_of_collected hh hstep]
    · obtain ⟨hhas, hreg⟩ := Bridge.stored_of_step hx hstep
      have hregistered := hnew.profiles x.1 hs x.2 hhas
      rwa [TracedBridge.reg, hreg] at hregistered
  · intro htidy
    refine ⟨fun s hs h hh => ?_, fun h hh => ?_⟩
    · -- A key of the profiles is an old one, or the one that is stored now.
      rcases Bridge.has_profile hstep hh with hold | hstored
      · exact hremoves.kept h (fun hmem => htidy.collected h hmem s hs hold)
          (hw.profiles s hs h hold)
      · have hregistered := htidy.stored (s, h) hstored hs
        rwa [TracedBridge.reg, (Bridge.stored_of_step hstored hstep).2]
    · -- A slot that was not released belongs to a handle that was not collected.
      obtain ⟨hkept, hold⟩ := (PionTrace.has_foldl_releaseDC _ _).mp hh
      exact hremoves.kept h (fun hmem => hkept (Bridge.collected_subset_released _ _ hmem))
        (hw.slots h hold)

/-- A call of `DCIdx`. -/
theorem NoStale.index_iff {w w' : TracedBridge} (hw : NoStale w) {h : Handle}
    (hbridge : w'.bridge = w.bridge) (hended : w'.ended = w.ended)
    (htrace : w'.trace = (w.trace.dcIdx h).2) : NoStale w' ↔ w.reg.resources.Has h := by
  have hreg : w'.reg = w.reg := by rw [reg, hbridge, reg]
  constructor
  · intro hnew
    rw [← hreg]
    refine hnew.slots h ?_
    rw [htrace]
    exact PionTrace.has_dcIdx.mpr (Or.inl rfl)
  · intro hregistered
    refine ⟨fun s hs x hx => ?_, fun x hx => ?_⟩
    · rw [hended] at hs
      rw [hbridge] at hx
      rw [hreg]
      exact hw.profiles s hs x hx
    · rw [htrace] at hx
      rw [hreg]
      rcases PionTrace.has_dcIdx.mp hx with rfl | hold
      · exact hregistered
      · exact hw.slots x hold

/-- The step lemma: from a state without stale keys, exactly the tidy steps lead to another. -/
theorem NoStale.step_iff {env : Platform} {w w' : TracedBridge} {a : TracedAction}
    (hw : NoStale w) (hi : w.bridge.reg.Inv) (h : w.step env a = some w') :
    NoStale w' ↔ w.Tidy a := by
  cases moved h with
  | bridge a b hstep => exact hw.bridge_iff hi hstep
  | index _ x _ ha hx hbridge hended htrace =>
      rw [hw.index_iff hbridge hended htrace]
      obtain ⟨hcollected, hstoring⟩ := w.outside_bridge ha
      constructor
      · intro hregistered
        refine ⟨fun y hy => ?_, fun y hy => ?_, fun y hy => ?_⟩
        · rw [hcollected] at hy
          cases hy
        · cases hstoring.symm.trans hy
        · cases hx.symm.trans hy
          exact hregistered
      · intro htidy
        exact htidy.indexed x hx
  | quiet _ _ hcollected hstoring hindexing hcalls hhandlers htrace hended =>
      have hkept := (hcalls.removes hi).kept
      constructor
      · intro _
        exact .of_none hcollected hstoring hindexing
      · intro _
        refine ⟨fun s hs x hx => ?_, fun x hx => ?_⟩
        · rw [hhandlers] at hx
          exact hkept x List.not_mem_nil (hw.profiles s (hended s hs) x hx)
        · rw [htrace] at hx
          exact hkept x List.not_mem_nil (hw.slots x hx)

/-- The run lemma. -/
theorem noStale_of_reachable {env : Platform} {w : TracedBridge}
    (hw : (tracedSystem env).ReachableUnder Tidy w) : NoStale w := by
  refine StepSystem.StepsUnder.invariant (I := NoStale) hw noStale_init ?_
  intro u a v hu hi hC hstep
  exact (hi.step_iff (reg_inv (StepSystem.ReachableUnder.reachable hu)) hstep).mpr hC

/-- Neither table outlives a handle in a run of tidy steps, and from a state in which none does a
step keeps this exactly when it is tidy. -/
theorem tables_follow_registry (env : Platform) :
    (∀ w, (tracedSystem env).ReachableUnder Tidy w → NoStale w) ∧
      ∀ w a w', (tracedSystem env).Reachable w → NoStale w →
        (tracedSystem env).step w a = some w' → (NoStale w' ↔ w.Tidy a) :=
  ⟨fun _ hw => noStale_of_reachable hw,
    fun _ _ _ hw hclean hstep => hclean.step_iff (reg_inv hw) hstep⟩

/-! ### Runs -/

/-- An open session has a profile for a handle that is not registered. -/
def KeepsProfile (w : TracedBridge) (s : Session) (h : Handle) : Prop :=
  w.ended s = false ∧ (w.bridge.handlers s).pcProfiles.Has h ∧ ¬ w.reg.resources.Has h

/-- The end of a run is at rest when all its goroutines are. -/
theorem atRest_of_map {final : Option TracedBridge} {w : TracedBridge} (hw : final = some w)
    (hthreads : ∀ t, final.map (fun w => w.bridge.threads t) = some .idle)
    (hcalls : ∀ g, final.map (fun w => w.bridge.calls.calls g) = some .idle)
    (hsends : ∀ s, final.map (fun w => w.sends s) = some .idle)
    (hplaces : final.map (fun w => w.places) = some fun _ => .select) : w.AtRest := by
  simp only [hw, Option.map_some, Option.some.injEq] at hthreads hcalls hsends hplaces
  exact ⟨hthreads, hcalls, hsends, fun x => by rw [hplaces]⟩

/-- A run that leaves a profile behind. -/
theorem keepsProfile_of_map {final : Option TracedBridge} {s : Session} {h : Handle}
    (hthreads : ∀ t, final.map (fun w => w.bridge.threads t) = some .idle)
    (hcalls : ∀ g, final.map (fun w => w.bridge.calls.calls g) = some .idle)
    (hsends : ∀ s, final.map (fun w => w.sends s) = some .idle)
    (hplaces : final.map (fun w => w.places) = some fun _ => .select)
    (hfacts : final.map (fun w => (w.ended s, ((w.bridge.handlers s).pcProfiles.get h).isSome,
      w.reg.resources.get h)) = some (false, true, none)) :
    ∃ w, final = some w ∧ w.AtRest ∧ w.KeepsProfile s h := by
  obtain ⟨w, hw, hw'⟩ := Option.map_eq_some_iff.mp hfacts
  simp only [Prod.mk.injEq] at hw'
  obtain ⟨hopen, hprofile, hgone⟩ := hw'
  exact ⟨w, hw, atRest_of_map hw hthreads hcalls hsends hplaces, hopen,
    Option.isSome_iff_ne_none.mp hprofile, fun hhas => hhas hgone⟩

/-- Session 1 deletes the PeerConnection that session 0 has created. -/
def deletedByOther : List BridgeAction := createPeer ++ [
  .frame 1 ⟨"resource:delete", 2, "pc", []⟩ fun _ => 2, .dispatch 1 2 none, .forgetPCProfile 1,
  .delete 1, .call (.close 2), .deleted 1]

/-- `Cleanup` removes it. -/
def sweptAway : List BridgeAction := createPeer ++ [
  .call (.scan 1 (2 * second) (10 * second) ["pc"]), .call (.judge 1), .call (.reap 1),
  .call (.close 1), .call (.ret 1)]

/-- Session 0 turns tracing on. -/
def startTracing : List BridgeAction := [
  .frame 0 ⟨"init", 0, "", [("settings_engine", .map [("enable_tracing", .bool true)])]⟩
    fun _ => 0, .dispatch 0 0 none]

/-- Session 1 finishes the channel `dc` that it started. -/
def finishChannel : List BridgeAction := [.registerChild (.reader 1) "dc" 3,
  .readProfile (.reader 1), .registerState (.reader 1), .startSender (.reader 1),
  .setupDCCallbacks (.reader 1)]

/-- A text on the channel, from session 1. -/
def textItem : Item where
  request := ⟨0, 1, ⟨"dc:send", 4, "dc", [("data", .str "x")]⟩, true⟩
  work := ⟨[], "x", true, 4, "dc", false, 1⟩
  found := rfl
  made := rfl

/-- Session 1 sends it, up to the point at which the sender has the item. -/
def sendText : List TracedAction := [.send 1 textItem.request.msg fun _ => 4, .lookup 1, .trace 1,
  .enqueue 1, .recheck 1, .take ("dc", 0)]

/-- Session 0 finishes its `resource:delete`: the state, the channel and the PeerConnection are
closed. -/
def finishDelete : List BridgeAction :=
  [.call (.close 0), .call (.close 0), .call (.close 0), .deleted 0]

/-- The sender has taken its item when session 0 deletes the PeerConnection, and calls `DCIdx`
after that. -/
def lateSend : List TracedAction :=
  (startTracing ++ createPeer ++ startChannel ++ finishChannel).map .bridge ++ sendText ++
    (deletePeer ++ finishDelete).map .bridge ++
    [.traceSend ("dc", 0), .sent ("dc", 0) (.failed "closed"), .bridge (.exit "dc" 0)]

/-- The sender has finished, and session 0 has forgotten the profile, when it deletes the
PeerConnection. -/
def earlySend : List TracedAction :=
  (startTracing ++ createPeer ++ startChannel ++ finishChannel).map .bridge ++ sendText ++
    [.traceSend ("dc", 0), .sent ("dc", 0) .acked] ++ deletePeer.dropLast.map .bridge

/-- A condition that can be evaluated, for steps that collect nothing. -/
def Checked (w : TracedBridge) (a : TracedAction) : Prop :=
  w.collected a = [] ∧ (∀ x ∈ w.storing a, w.reg.resources.Has x.2) ∧
    ∀ h ∈ w.indexing a, w.reg.resources.Has h

instance (w : TracedBridge) (a : TracedAction) : Decidable (w.Checked a) :=
  inferInstanceAs (Decidable (_ ∧ _ ∧ _))

theorem Checked.tidy {w : TracedBridge} {a : TracedAction} (h : w.Checked a) : w.Tidy a where
  collected x hx := by
    rw [h.1] at hx
    cases hx
  stored x hx _ := h.2.1 x hx
  indexed := h.2.2

/-- `Delete` is tidy when all open sessions have forgotten what it removes. -/
theorem tidy_delete {w : TracedBridge} {s : Session} (h : ∀ x ∈ w.collected (.bridge (.delete s)),
    ∀ s', (w.bridge.handlers s').pcProfiles.get x = none) : w.Tidy (.bridge (.delete s)) where
  collected x hx s' _ hhas := hhas (h x hx s')
  stored x hx := by cases hx
  indexed x hx := by cases hx

/-- The `resource:delete` of the session that created the PeerConnection: its profile is forgotten
before, and the slot of the channel is released with it. -/
theorem tables_follow_registry_owner :
    ∃ w w', (tracedSystem plainPlatform).ReachableUnder Tidy w ∧ w.trace.dcIndex.Has "dc" ∧
      NoStale w ∧ (tracedSystem plainPlatform).step w (.bridge (.delete 0)) = some w' ∧
      ¬ w'.trace.dcIndex.Has "dc" ∧ NoStale w' := by
  let before := (tracedSystem plainPlatform).runUnder Checked (tracedSystem plainPlatform).init
    earlySend
  let after := before.bind fun w => w.step plainPlatform (.bridge (.delete 0))
  have hbefore : before.map (fun w => ((w.trace.dcIndex.get "dc").isSome,
      w.collected (.bridge (.delete 0)))) = some (true, ["dc", "pc"]) := by decide +kernel
  have hafter : after.map (fun w => w.trace.dcIndex.get "dc") = some none := by decide +kernel
  have hprofiles : ∀ s, before.map (fun w => ((w.bridge.handlers s).pcProfiles.get "dc",
      (w.bridge.handlers s).pcProfiles.get "pc")) = some (none, none)
    | 0 => by rfl
    | _ + 1 => by rfl
  obtain ⟨w, hw, hfacts⟩ := Option.map_eq_some_iff.mp hbefore
  obtain ⟨w', hw', hreleased⟩ := Option.map_eq_some_iff.mp hafter
  simp only [Prod.mk.injEq] at hfacts
  obtain ⟨hslot, hcollected⟩ := hfacts
  simp only [hw, Option.map_some, Option.some.injEq, Prod.mk.injEq] at hprofiles
  have hstep : (tracedSystem plainPlatform).step w (.bridge (.delete 0)) = some w' :=
    StepSystem.eq_some_of_bind (f := fun w => w.step plainPlatform (.bridge (.delete 0))) hw hw'
  have hreach : (tracedSystem plainPlatform).ReachableUnder Tidy w :=
    StepSystem.StepsUnder.mono (StepSystem.steps_of_runUnder hw) fun _ _ => Checked.tidy
  have hclean := (tables_follow_registry plainPlatform).1 w hreach
  have htidy : w.Tidy (.bridge (.delete 0)) := by
    refine tidy_delete fun x hx s => ?_
    rw [hcollected] at hx
    rcases List.mem_pair.mp hx with rfl | rfl
    · exact (hprofiles s).1
    · exact (hprofiles s).2
  have hclean' : NoStale w' :=
    ((tables_follow_registry plainPlatform).2 w _ w' hreach.reachable hclean hstep).mpr htidy
  exact ⟨w, w', hreach, Option.isSome_iff_ne_none.mp hslot, hclean, hstep,
    fun h => h hreleased, hclean'⟩

/-- The profile survives a `resource:delete` from another session and a `Cleanup`, and the slot
comes back after its release. All three runs end at rest. -/
theorem stale_tables :
    (∃ w, (tracedSystem plainPlatform).run (tracedSystem plainPlatform).init
      (deletedByOther.map .bridge) = some w ∧ w.AtRest ∧ w.KeepsProfile 0 "pc") ∧
    (∃ w, (tracedSystem plainPlatform).run (tracedSystem plainPlatform).init
      (sweptAway.map .bridge) = some w ∧ w.AtRest ∧ w.KeepsProfile 0 "pc") ∧
    ∃ w, (tracedSystem plainPlatform).run (tracedSystem plainPlatform).init lateSend = some w ∧
      w.AtRest ∧ w.bridge.senders = [] ∧ w.trace.dcIndex.Has "dc" ∧
      ¬ w.reg.resources.Has "dc" := by
  refine ⟨?_, ?_, ?_⟩
  · let final := (tracedSystem plainPlatform).run (tracedSystem plainPlatform).init
      (deletedByOther.map .bridge)
    have hthreads : ∀ t, final.map (fun w => w.bridge.threads t) = some .idle
      | .reader 0 => by rfl
      | .reader 1 => by rfl
      | .reader (_ + 2) => by rfl
      | .callback _ => by rfl
    have hcalls : ∀ g, final.map (fun w => w.bridge.calls.calls g) = some .idle
      | 0 | 1 | 2 => by rfl
      | _ + 3 => by rfl
    exact keepsProfile_of_map hthreads hcalls (fun _ => by rfl) (by rfl) (by rfl)
  · let final := (tracedSystem plainPlatform).run (tracedSystem plainPlatform).init
      (sweptAway.map .bridge)
    have hthreads : ∀ t, final.map (fun w => w.bridge.threads t) = some .idle
      | .reader 0 => by rfl
      | .reader (_ + 1) => by rfl
      | .callback _ => by rfl
    have hcalls : ∀ g, final.map (fun w => w.bridge.calls.calls g) = some .idle
      | 0 | 1 => by rfl
      | _ + 2 => by rfl
    exact keepsProfile_of_map hthreads hcalls (fun _ => by rfl) (by rfl) (by rfl)
  · let final := (tracedSystem plainPlatform).run (tracedSystem plainPlatform).init lateSend
    have hthreads : ∀ t, final.map (fun w => w.bridge.threads t) = some .idle
      | .reader 0 => by rfl
      | .reader 1 => by rfl
      | .reader (_ + 2) => by rfl
      | .callback _ => by rfl
    have hcalls : ∀ g, final.map (fun w => w.bridge.calls.calls g) = some .idle
      | 0 => by rfl
      | _ + 1 => by rfl
    have hsends : ∀ s, final.map (fun w => w.sends s) = some .idle
      | 0 | 1 => by rfl
      | _ + 2 => by rfl
    have hplaces : final.map (fun w => w.places) = some (Function.update (Function.update
        (Function.update (fun _ => .select) ("dc", 0) (.run textItem)) ("dc", 0)
        (.sending textItem)) ("dc", 0) .select) := by rfl
    simp only [Function.update_idem, Function.update_eq_self] at hplaces
    have hfacts : final.map (fun w => (w.bridge.senders, (w.trace.dcIndex.get "dc").isSome,
        w.reg.resources.get "dc")) = some ([], true, none) := by decide +kernel
    obtain ⟨w, hw, hw'⟩ := Option.map_eq_some_iff.mp hfacts
    simp only [Prod.mk.injEq] at hw'
    obtain ⟨hsenders, hslot, hgone⟩ := hw'
    exact ⟨w, hw, atRest_of_map hw hthreads hcalls hsends hplaces, hsenders,
      Option.isSome_iff_ne_none.mp hslot, fun h => h hgone⟩

end TracedBridge

end PionBridge.Server
