import PionBridge.Lib.Decode
import PionBridge.Proofs.Registry.Delete
import PionBridge.Server.Bridge

/-!
# `PionBridge.Proofs.Bridge.Steps`: what a step of the bridge does

`Moved` lists what one step of `bridgeSystem` can do, with the state after it. Steps that end
a request or only move on to a place that carries nothing are one case (`pass`).
`Bridge.moved` reads the list off the step function once.

Every step moves the registry part by a step of its own system or leaves it alone, so a run
of the bridge is a run of registry calls (`calls_reachable`), and the invariant of these holds
of it.
-/

set_option autoImplicit false

namespace PionBridge.Server

open PionBridge.Lib

/-- The places that carry nothing but a message, or a channel that is complete. -/
def ThreadPc.plain : ThreadPc → Bool
  | .idle | .dispatch _ | .forgetPCProfile _ | .closePC _ | .delete _ | .deleting _
  | .removeState _ | .closeDC _ | .setupDCCallbacks _ _ _ => true
  | _ => false

/-- The state that a goroutine in `stopDCSendGoroutine` still has to close. -/
def ThreadPc.closing : ThreadPc → Option StateRef
  | .closeState _ state => some state
  | _ => none

/-- Registry steps that change stamps, or end a call, and nothing else. -/
def CallAction.isQuiet : CallAction → Bool
  | .op (.touch _ _) | .op (.lookup _ _) | .ret _ => true
  | _ => false

namespace Bridge

/-- The registry part stays, or makes a quiet step. -/
def QuietCalls (w : Bridge) (calls : CallWorld) : Prop :=
  calls = w.calls ∨ ∃ b : CallAction, b.isQuiet = true ∧ w.calls.step b = some calls

/-- What one step can do. -/
inductive Moved (env : Platform) (w : Bridge) : BridgeAction → Bridge → Prop
  | free (b : CallAction) (calls : CallWorld) (hb : b.isFree = true)
      (hstep : w.calls.step b = some calls) : Moved env w (.call b) { w with calls := calls }
  | exit (handle : Handle) (state : StateRef) (hclosed : w.stateClosed state = true) :
      Moved env w (.exit handle state)
        { w with senders := w.senders.erase (handle, state) }
  | pass (a : BridgeAction) (t : Thread) (pc : ThreadPc) (calls : CallWorld)
      (out : List (Session × Message)) (hcalls : w.QuietCalls calls) (hpc : pc.plain = true)
      (hold : (w.threads t).closing = none) :
      Moved env w a ({ w with calls := calls, out := out }.goto t pc)
  | init (s : Session) (now : Int) (failure : Option String) (msg : Message) (tracing : Bool)
      (resp : Message) (h : Handler) (ht : w.threads (.reader s) = .dispatch msg)
      (hmsg : msg.type = "init") (hh : handleInit env (w.handlers s) msg = (h, tracing, resp)) :
      Moved env w (.dispatch s now failure)
        ({ w.withHandler s h with tracing := w.tracing || tracing }.reply s resp)
  | refused (s : Session) (now : Int) (err : String) (msg resp : Message)
      (profile : ApiProfile) (h : Handler) (ht : w.threads (.reader s) = .dispatch msg)
      (hh : (w.handlers s).createProfile env msg.data = .ok (profile, h)) :
      Moved env w (.dispatch s now (some err)) ((w.withHandler s h).reply s resp)
  | newPeer (s : Session) (now : Int) (msg : Message) (profile : ApiProfile) (h : Handler)
      (config : Configuration) (ht : w.threads (.reader s) = .dispatch msg)
      (hh : (w.handlers s).createProfile env msg.data = .ok (profile, h)) :
      Moved env w (.dispatch s now none)
        ({ w.withHandler s h with peers := w.peers ++ [Peer.mk profile config] }.goto (.reader s)
          (.register msg profile w.peers.length))
  | register (s : Session) (handle : Handle) (now : Int) (msg : Message)
      (profile : ApiProfile) (peer : Nat) (calls : CallWorld)
      (ht : w.threads (.reader s) = .register msg profile peer)
      (hstep : w.calls.step (.op (.register ⟨.peerConnection, peer⟩ handle now)) = some calls) :
      Moved env w (.register s handle now)
        ({ w with calls := calls }.goto (.reader s) (.setPCProfile msg handle profile peer))
  | setPCProfile (s : Session) (msg : Message) (handle : Handle) (profile : ApiProfile)
      (peer : Nat) (ht : w.threads (.reader s) = .setPCProfile msg handle profile peer) :
      Moved env w (.setPCProfile s)
        ((w.withHandler s ((w.handlers s).setPCProfile handle profile)).goto (.reader s)
          (.setupPCCallbacks msg handle peer))
  | setupPCCallbacks (s : Session) (msg : Message) (handle : Handle) (peer : Nat)
      (resp : Message) (ht : w.threads (.reader s) = .setupPCCallbacks msg handle peer) :
      Moved env w (.setupPCCallbacks s)
        ({ w with hooks := Function.update w.hooks peer (some (handle, s)) }.reply s resp)
  | lookedUp (s : Session) (now : Int) (failure : Option String) (msg : Message) (peer : Nat)
      (calls : CallWorld) (ht : w.threads (.reader s) = .dispatch msg)
      (hcalls : w.QuietCalls calls)
      (hres : calls.reg.resources.get msg.handle = some ⟨.peerConnection, peer⟩) :
      Moved env w (.dispatch s now failure)
        ({ w with calls := calls }.goto (.reader s) (.createDataChannel msg peer))
  | created (s : Session) (msg : Message) (peer : Nat) (object : ChannelObject)
      (ht : w.threads (.reader s) = .createDataChannel msg peer) :
      Moved env w (.createDataChannel s none)
        ({ w with objects := w.objects ++ [object] }.goto (.reader s)
          (.making ⟨s, some msg, msg.handle, peer, w.objects.length⟩ none none))
  | forget (s : Session) (msg : Message) (pc : ThreadPc) (hpc : pc.plain = true)
      (ht : w.threads (.reader s) = .forgetPCProfile msg) :
      Moved env w (.forgetPCProfile s)
        ((w.withHandler s ((w.handlers s).forgetPCProfile msg.handle)).goto (.reader s) pc)
  | delete (s : Session) (msg : Message) (calls : CallWorld)
      (ht : w.threads (.reader s) = .delete msg)
      (hstep : w.calls.step (.delete (readerCall s) msg.handle) = some calls) :
      Moved env w (.delete s) ({ w with calls := calls }.goto (.reader s) (.deleting msg))
  | removeState (s : Session) (msg : Message) (pc : ThreadPc) (calls : CallWorld)
      (ht : w.threads (.reader s) = .removeState msg)
      (hstep : w.calls.step (.op (.removeDCSendState msg.handle)) = some calls)
      (hpc : pc = match w.reg.lookupDCSendState msg.handle with
        | some state => .closeState msg state
        | none => .closeDC msg) :
      Moved env w (.removeState s) ({ w with calls := calls }.goto (.reader s) pc)
  | closeState (s : Session) (msg : Message) (state : StateRef)
      (ht : w.threads (.reader s) = .closeState msg state) :
      Moved env w (.closeState s)
        ({ w with stopped := w.stopped ++ [state] }.goto (.reader s) (.closeDC msg))
  | onDataChannel (n peer : Nat) (label : String) (ordered : Bool) (handle : Handle)
      (s : Session) (object : ChannelObject) (ht : w.threads (.callback n) = .idle)
      (hhook : w.hooks peer = some (handle, s)) :
      Moved env w (.onDataChannel n peer label ordered)
        ({ w with objects := w.objects ++ [object] }.goto (.callback n)
          (.making ⟨s, none, handle, peer, w.objects.length⟩ none none))
  | registerChild (t : Thread) (handle : Handle) (now : Int) (m : Making)
      (profile : Option ApiProfile) (parented : Bool) (calls : CallWorld)
      (ht : w.threads t = .making m none profile)
      (hparented : parented = (w.reg.resources.get m.parent == some ⟨.peerConnection, m.peer⟩))
      (hstep : w.calls.step
        (.op (.registerChild ⟨.dataChannel, m.channel⟩ m.parent handle now)) = some calls) :
      Moved env w (.registerChild t handle now)
        ({ w with calls := calls }.goto t (.making m (some ⟨handle, parented⟩) profile))
  | readProfile (t : Thread) (m : Making) (child : Option Child)
      (ht : w.threads t = .making m child none) :
      Moved env w (.readProfile t)
        (w.goto t (.making m child (some ((w.handlers m.session).pcProfile m.parent))))
  | registerState (t : Thread) (m : Making) (child : Child) (profile : ApiProfile)
      (pc : ThreadPc) (calls : CallWorld)
      (ht : w.threads t = .making m (some child) (some profile))
      (hstep : w.calls.step (.op (.registerDCSendState child.handle w.stateCount)) = some calls)
      (hpc : pc = if (w.reg.registerDCSendState child.handle w.stateCount).1
        then .startSender m child profile w.stateCount
        else .setupDCCallbacks m child profile) :
      Moved env w (.registerState t)
        ({ w with
          calls := calls
          stateCount := w.stateCount + 1
          channels := w.channels ++
            [ChannelStart.mk m child profile (w.handlers m.session).dcConfig] }.goto t pc)
  | startSender (t : Thread) (m : Making) (child : Child) (profile : ApiProfile)
      (state : StateRef) (ht : w.threads t = .startSender m child profile state) :
      Moved env w (.startSender t)
        ({ w with senders := w.senders ++ [(child.handle, state)] }.goto t
          (.setupDCCallbacks m child profile))

/-- The choice of a profile changes the cache and nothing else. -/
theorem createProfile_keeps {env : Platform} {h h' : Handler} {data : Data}
    {profile : ApiProfile} (hh : h.createProfile env data = .ok (profile, h')) :
    h' = { h with profiles := h'.profiles } := by
  unfold Handler.createProfile at hh
  dsimp only at hh
  split at hh
  · obtain ⟨key, -, hh⟩ := exists_of_bind_ok hh
    split at hh
    · cases hh
      rfl
    · obtain ⟨p, -, hh⟩ := exists_of_bind_ok hh
      cases hh
      rfl
  · cases hh
    rfl

theorem callStep_eq {w w' : Bridge} {b : CallAction} (h : w.callStep b = some w') :
    ∃ calls, w.calls.step b = some calls ∧ w' = { w with calls := calls } := by
  obtain ⟨calls, hstep, rfl⟩ := Option.map_eq_some_iff.mp h
  exact ⟨calls, hstep, rfl⟩

/-- `Lookup` is a quiet step. -/
theorem lookup_eq {w w' : Bridge} {msg : Message} {now : Int} (h : w.lookup msg now = some w') :
    ∃ calls, w.QuietCalls calls ∧ w' = { w with calls := calls } := by
  unfold lookup at h
  split at h
  · cases h
    exact ⟨w.calls, Or.inl rfl, rfl⟩
  · obtain ⟨calls, hstep, rfl⟩ := callStep_eq h
    exact ⟨calls, Or.inr ⟨_, rfl, hstep⟩, rfl⟩

theorem lookupPC_eq_ok {reg : Registry} {msg : Message} {obj : Nat}
    (h : lookupPC reg msg = .ok obj) :
    reg.resources.get msg.handle = some ⟨.peerConnection, obj⟩ := by
  unfold lookupPC lookupKind at h
  split at h
  · cases h
  · split at h
    · cases h
    · rename_i res hres
      split at h
      · rename_i hkind
        cases h
        rw [hres, ← hkind]
      · cases h

/-- A goroutine ends with a message. -/
theorem moved_send {env : Platform} {w : Bridge} {a : BridgeAction} {t : Thread}
    {calls : CallWorld} (s : Session) (msg : Message) (hcalls : w.QuietCalls calls)
    (hold : (w.threads t).closing = none) :
    Moved env w a (({ w with calls := calls }.goto t .idle).send s msg) :=
  .pass a t .idle calls (w.out ++ [(s, msg)]) hcalls rfl hold

/-- The end of a request. -/
theorem moved_reply {env : Platform} {w : Bridge} {a : BridgeAction} {s : Session}
    {calls : CallWorld} (resp : Message) (hcalls : w.QuietCalls calls)
    (hold : (w.threads (.reader s)).closing = none) :
    Moved env w a ({ w with calls := calls }.reply s resp) :=
  moved_send s resp hcalls hold

theorem moved_finish {env : Platform} {w : Bridge} {a : BridgeAction} {s : Session}
    {msg : Message} {failure : Option String} {calls : CallWorld}
    (hcalls : w.QuietCalls calls) (hold : (w.threads (.reader s)).closing = none) :
    Moved env w a ({ w with calls := calls }.finish s msg failure) := by
  cases failure with
  | some err => exact moved_reply _ hcalls hold
  | none => exact moved_reply _ hcalls hold

/-- A request that looks up its handle and then moves to a plain place. -/
theorem moved_lookupThen {env : Platform} {w w' : Bridge} {a : BridgeAction} {s : Session}
    {msg : Message} {now : Int} {find : Registry → Message → Except Message Nat}
    {pc : ThreadPc} (hold : (w.threads (.reader s)).closing = none) (hpc : pc.plain = true)
    (h : w.lookupThen s msg now find (fun _ w => w.goto (.reader s) pc) = some w') :
    Moved env w a w' := by
  obtain ⟨w₁, hlook, rfl⟩ := Option.map_eq_some_iff.mp h
  obtain ⟨calls, hcalls, rfl⟩ := lookup_eq hlook
  split
  · exact moved_reply _ hcalls hold
  · exact .pass a (.reader s) pc calls w.out hcalls hpc hold

/-- The dispatch of a request. -/
theorem moved_handleMessage {env : Platform} {w w' : Bridge} {s : Session} {msg : Message}
    {now : Int} {failure : Option String} (ht : w.threads (.reader s) = .dispatch msg)
    (h : w.handleMessage env s msg now failure = some w') :
    Moved env w (.dispatch s now failure) w' := by
  have hold : (w.threads (.reader s)).closing = none := by rw [ht]; rfl
  have hsame : w.QuietCalls w.calls := Or.inl rfl
  unfold handleMessage at h
  split at h
  · rename_i hmsg
    cases h
    exact .init s now failure msg _ _ _ ht hmsg rfl
  · cases h
    unfold handlePCCreate
    split
    · exact moved_reply _ hsame hold
    · rename_i profile handler hh
      split
      · exact .refused s now _ msg _ profile handler ht hh
      · exact .newPeer s now msg profile handler _ ht hh
  · obtain ⟨w₁, hlook, rfl⟩ := Option.map_eq_some_iff.mp h
    obtain ⟨calls, hcalls, rfl⟩ := lookup_eq hlook
    split
    · exact moved_reply _ hcalls hold
    · rename_i peer hpeer
      dsimp only
      split
      · exact moved_reply _ hcalls hold
      · exact .lookedUp s now failure msg peer calls ht hcalls (lookupPC_eq_ok hpeer)
  · exact moved_lookupThen hold rfl h
  · exact moved_lookupThen hold rfl h
  · split at h
    · cases h
      exact moved_reply _ hsame hold
    · obtain ⟨w₁, hlook, rfl⟩ := Option.map_eq_some_iff.mp h
      obtain ⟨calls, hcalls, rfl⟩ := lookup_eq hlook
      exact .pass _ (.reader s) _ calls w.out hcalls rfl hold
  · cases h

/-- The later places of a request. -/
theorem moved_stepRequest {env : Platform} {w w' : Bridge} {a : BridgeAction}
    (h : w.stepRequest env a = some w') : Moved env w a w' := by
  have hsame : w.QuietCalls w.calls := Or.inl rfl
  -- In each case the place of the reader decides what the step is.
  cases a <;> simp only [stepRequest, reduceCtorEq] at h
  case frame s msg clock =>
      split at h
      · rename_i ht
        have hold : (w.threads (.reader s)).closing = none := by rw [ht]; rfl
        split at h
        · split at h
          · cases h
            exact .pass _ (.reader s) _ w.calls w.out hsame rfl hold
          · obtain ⟨w₁, hcall, rfl⟩ := Option.map_eq_some_iff.mp h
            obtain ⟨calls, hstep, rfl⟩ := callStep_eq hcall
            exact .pass _ (.reader s) _ calls w.out (Or.inr ⟨_, rfl, hstep⟩) rfl hold
        · cases h
      · cases h
  case dispatch s now failure =>
      split at h
      · rename_i msg ht
        exact moved_handleMessage ht h
      · cases h
  case register s handle now =>
      split at h
      · rename_i msg profile peer ht
        obtain ⟨w₁, hcall, rfl⟩ := Option.map_eq_some_iff.mp h
        obtain ⟨calls, hstep, rfl⟩ := callStep_eq hcall
        exact .register s handle now msg profile peer calls ht hstep
      · cases h
  case setPCProfile s =>
      split at h
      · rename_i msg handle profile peer ht
        cases h
        exact .setPCProfile s msg handle profile peer ht
      · cases h
  case setupPCCallbacks s =>
      split at h
      · rename_i msg handle peer ht
        cases h
        exact .setupPCCallbacks s msg handle peer _ ht
      · cases h
  case createDataChannel s failure =>
      split at h
      · rename_i msg peer ht
        split at h
        · cases h
          exact moved_reply _ hsame (by rw [ht]; rfl)
        · cases h
          exact .created s msg peer _ ht
      · cases h
  case forgetPCProfile s =>
      split at h
      · rename_i msg ht
        cases h
        refine .forget s msg _ ?_ ht
        split <;> rfl
      · cases h
  case closePC s failure =>
      split at h
      · rename_i msg ht
        cases h
        exact moved_finish hsame (by rw [ht]; rfl)
      · cases h
  case delete s =>
      split at h
      · rename_i msg ht
        split at h
        · obtain ⟨w₁, hcall, rfl⟩ := Option.map_eq_some_iff.mp h
          obtain ⟨calls, hstep, rfl⟩ := callStep_eq hcall
          exact .delete s msg calls ht hstep
        · cases h
          exact moved_reply _ hsame (by rw [ht]; rfl)
      · cases h
  case deleted s =>
      split at h
      · rename_i msg ht
        obtain ⟨w₁, hcall, rfl⟩ := Option.map_eq_some_iff.mp h
        obtain ⟨calls, hstep, rfl⟩ := callStep_eq hcall
        exact moved_finish (Or.inr ⟨_, rfl, hstep⟩) (by rw [ht]; rfl)
      · cases h
  case removeState s =>
      split at h
      · rename_i msg ht
        obtain ⟨w₁, hcall, rfl⟩ := Option.map_eq_some_iff.mp h
        obtain ⟨calls, hstep, rfl⟩ := callStep_eq hcall
        split
        · rename_i state hget
          exact .removeState s msg _ calls ht hstep (by rw [hget])
        · rename_i hget
          exact .removeState s msg _ calls ht hstep (by rw [hget])
      · cases h
  case closeState s =>
      split at h
      · rename_i msg state ht
        cases h
        exact .closeState s msg state ht
      · cases h
  case closeDC s failure =>
      split at h
      · rename_i msg ht
        cases h
        exact moved_finish hsame (by rw [ht]; rfl)
      · cases h

/-- The making of a channel, by a request or by a callback. -/
theorem moved_stepMaking {env : Platform} {w w' : Bridge} {a : BridgeAction}
    (h : w.stepMaking env a = some w') : Moved env w a w' := by
  have hsame : w.QuietCalls w.calls := Or.inl rfl
  cases a <;> simp only [stepMaking, reduceCtorEq] at h
  case registerChild t handle now =>
      split at h
      · rename_i m profile ht
        split at h
        · cases h
        · obtain ⟨w₁, hcall, rfl⟩ := Option.map_eq_some_iff.mp h
          obtain ⟨calls, hstep, rfl⟩ := callStep_eq hcall
          exact .registerChild t handle now m profile _ calls ht rfl hstep
      · cases h
  case readProfile t =>
      split at h
      · rename_i m child ht
        split at h
        · cases h
        · cases h
          exact .readProfile t m child ht
      · cases h
  case registerState t =>
      split at h
      · rename_i m child profile ht
        split at h
        · -- The panic ends the thread.
          cases h
          unfold recovered
          split
          · exact moved_send _ _ hsame (by rw [ht]; rfl)
          · exact .pass _ t .idle w.calls w.out hsame rfl (by rw [ht]; rfl)
        · cases h
        · obtain ⟨w₁, hcall, rfl⟩ := Option.map_eq_some_iff.mp h
          obtain ⟨calls, hstep, rfl⟩ := callStep_eq hcall
          dsimp only
          split
          · rename_i hnew
            exact .registerState t m child profile _ calls ht hstep (by rw [if_pos hnew])
          · rename_i hdup
            exact .registerState t m child profile _ calls ht hstep (by rw [if_neg hdup])
      · cases h
  case startSender t =>
      split at h
      · rename_i m child profile state ht
        cases h
        exact .startSender t m child profile state ht
      · cases h
  case setupDCCallbacks t =>
      split at h
      · rename_i m child profile ht
        cases h
        unfold announce
        split
        · exact moved_send _ _ hsame (by rw [ht]; rfl)
        · exact moved_send _ _ hsame (by rw [ht]; rfl)
      · cases h

/-- The steps, in cases. -/
theorem moved {env : Platform} {w w' : Bridge} {a : BridgeAction}
    (h : w.step env a = some w') : Moved env w a w' := by
  cases a
  case call b =>
      simp only [step] at h
      split at h
      · rename_i hb
        obtain ⟨calls, hstep, rfl⟩ := callStep_eq h
        exact .free b calls hb hstep
      · cases h
  case onDataChannel n peer label ordered =>
      simp only [step] at h
      split at h
      · rename_i handle s ht hhook
        cases h
        exact .onDataChannel n peer label ordered handle s _ ht hhook
      · cases h
  case exit handle state =>
      simp only [step] at h
      split at h
      · rename_i hexit
        cases h
        exact .exit handle state hexit.2
      · cases h
  case registerChild | readProfile | registerState | startSender | setupDCCallbacks =>
      exact moved_stepMaking h
  all_goals exact moved_stepRequest h

/-- A step moves the registry part by a step of its own, or not at all. -/
theorem calls_step {env : Platform} {w w' : Bridge} {a : BridgeAction}
    (h : w.step env a = some w') :
    w'.calls = w.calls ∨ ∃ b, w.calls.step b = some w'.calls := by
  cases moved h with
  | free b calls _ hstep => exact Or.inr ⟨b, hstep⟩
  | pass _ t pc calls out hcalls =>
      rcases hcalls with rfl | ⟨b, -, hstep⟩
      · exact Or.inl rfl
      · exact Or.inr ⟨b, hstep⟩
  | lookedUp s now failure msg peer calls _ hcalls =>
      rcases hcalls with rfl | ⟨b, -, hstep⟩
      · exact Or.inl rfl
      · exact Or.inr ⟨b, hstep⟩
  | register _ _ _ _ _ _ calls _ hstep => exact Or.inr ⟨_, hstep⟩
  | delete _ _ calls _ hstep => exact Or.inr ⟨_, hstep⟩
  | removeState _ _ _ calls _ hstep => exact Or.inr ⟨_, hstep⟩
  | registerChild _ _ _ _ _ _ calls _ _ hstep => exact Or.inr ⟨_, hstep⟩
  | registerState _ _ _ _ _ calls _ hstep => exact Or.inr ⟨_, hstep⟩
  | _ => exact Or.inl rfl

/-- A run of the bridge is a run of registry calls. -/
theorem calls_reachable {env : Platform} {w : Bridge} (hw : (bridgeSystem env).Reachable w) :
    callSystem.Reachable w.calls := by
  have hinit : callSystem.Reachable (bridgeSystem env).init.calls := .refl
  refine StepSystem.Reachable.invariant (I := fun v => callSystem.Reachable v.calls) hw hinit ?_
  intro u a v _ hu hstep
  rcases calls_step hstep with heq | ⟨b, hb⟩
  · rw [heq]
    exact hu
  · exact hu.next hb

theorem callInv {env : Platform} {w : Bridge} (hw : (bridgeSystem env).Reachable w) :
    CallInv w.calls :=
  callInv_of_reachable (calls_reachable hw)

end Bridge

end PionBridge.Server
