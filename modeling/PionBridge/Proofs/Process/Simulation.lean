import PionBridge.Proofs.Process.Answers

/-!
# `PionBridge.Proofs.Process.Simulation`: a frame without interruption

`Process.lean` handles a frame in one go. `Bridge.lean` cuts the requests that create and end
resources where other goroutines come between. `processFrame_simulated` says that the two agree:
if only the reader of the session runs, the bridge ends in the state and with the response that
`processFrame` gives. A request that ends the process gives neither.

`Completes w turn` says this of the rest of a handler: from `w` the reader can run on its own until
its response is sent, and state and response are those of `turn`. There is a rule for a step before
the response and one for the step that sends it. The proof about a handler follows its body.
-/

set_option autoImplicit false

namespace PionBridge.Server

open PionBridge.Lib Registry

/-- The steps of the reader of session `s`, with the shutdown calls of its `Delete`. -/
def BridgeAction.IsOwn (s : Session) : BridgeAction → Prop
  | .frame s' _ _ | .dispatch s' _ _ | .register s' _ _ | .setPCProfile s'
  | .setupPCCallbacks s' | .createDataChannel s' _ | .forgetPCProfile s' | .closePC s' _
  | .delete s' | .deleted s' | .removeState s' | .closeState s' | .closeDC s' _ => s' = s
  | .registerChild t _ _ | .readProfile t | .registerState t | .startSender t
  | .setupDCCallbacks t => t = .reader s
  | .call (.close g) => g = readerCall s
  | _ => False

/-- A call that does not panic returns. -/
theorem Surroundings.Calm.ok {out : Surroundings} (h : out.Calm) {α : Type} (call : ForeignCall α) :
    ∃ a, out.answer call = .ok a := by
  cases hanswer : out.answer call with
  | ok a => exact ⟨a, rfl⟩
  | error text => exact absurd ⟨text, hanswer⟩ (h call)

theorem Surroundings.Calm.ne {out : Surroundings} (h : out.Calm) {α : Type} (call : ForeignCall α)
    (text : String) : out.answer call ≠ .error text :=
  fun hanswer => h call ⟨text, hanswer⟩

namespace Bridge

/-- The part of the bridge that the handlers of session `s` work on. -/
def view (w : Bridge) (s : Session) : ServerState := ⟨w.reg, w.handlers s, w.tracing⟩

/-- The session `s` handles no request. -/
structure Resting (s : Session) (w : Bridge) : Prop where
  reader : w.threads (.reader s) = .idle
  call : w.calls.calls (readerCall s) = .idle

/-- The surroundings of a frame are those of the bridge: the handle was never used, and objects and
send states are numbered in the order of their creation. -/
structure Fits (out : Surroundings) (msg : Message) (w : Bridge) : Prop where
  fresh : out.handle ∉ w.calls.world.used
  state : out.state = w.stateCount
  peer : ∀ profile config pc, out.answer (.newPeerConnection profile config) = .ok (.ok pc) →
    pc = w.peers.length
  channel : ∀ pc label init dc, label = (msg.data.str? "label").getD "" →
    out.answer (.createDataChannel pc label init) = .ok (.ok dc) →
    dc = w.objects.length ∧ out.answer (.label dc) = .ok label

/-- The reader can run on its own to the end of the request, with the result of `turn`, if that does
not end the process. -/
def Completes (env : Platform) (s : Session) (w : Bridge) (turn : Turn) : Prop :=
  ∀ msgs st, ServerState.finish turn = .sent msgs st →
    ∃ w', (bridgeSystem env).StepsUnder (fun _ => BridgeAction.IsOwn s) w w' ∧ w'.Resting s ∧
      w'.view s = st ∧ w'.out = w.out ++ msgs.map fun resp => (s, resp)

section

variable {env : Platform} {s : Session} {w w₁ : Bridge} {a : BridgeAction} {turn : Turn}

/-! ### The rules -/

theorem completes_steps
    (hsteps : (bridgeSystem env).StepsUnder (fun _ => BridgeAction.IsOwn s) w w₁)
    (hout : w₁.out = w.out) (hrest : w₁.Completes env s turn) : w.Completes env s turn := by
  intro msgs st hsent
  obtain ⟨w', hsteps', hresting, hview, hout'⟩ := hrest msgs st hsent
  rw [hout] at hout'
  exact ⟨w', hsteps.trans hsteps', hresting, hview, hout'⟩

theorem completes_step (h : w.step env a = some w₁) (ha : a.IsOwn s) (hout : w₁.out = w.out)
    (hrest : w₁.Completes env s turn) : w.Completes env s turn :=
  completes_steps (.step .refl ha h) hout hrest

theorem completes_reply {resp : Message} (h : w.step env a = some (w₁.reply s resp))
    (ha : a.IsOwn s) (hout : w₁.out = w.out) (hcall : w₁.calls.calls (readerCall s) = .idle)
    (hfinish : ServerState.finish turn = .sent [resp] (w₁.view s)) : w.Completes env s turn := by
  intro msgs st hsent
  rw [hfinish, FrameEnd.sent.injEq] at hsent
  obtain ⟨rfl, rfl⟩ := hsent
  refine ⟨w₁.reply s resp, .step .refl ha h, ⟨Function.update_self _ _ _, hcall⟩, rfl, ?_⟩
  rw [← hout]
  rfl

/-- The common end of the handlers that return. -/
theorem completes_answer {msg resp : Message} {st : ServerState}
    (h : w.step env a = some (w₁.reply s resp)) (ha : a.IsOwn s) (hout : w₁.out = w.out)
    (hcall : w₁.calls.calls (readerCall s) = .idle) (hanswers : Answers msg resp)
    (hst : st = w₁.view s) : w.Completes env s (.ret st resp) :=
  completes_reply h ha hout hcall (hst ▸ ServerState.finish_returned rfl hanswers)

theorem threads_goto_self (w : Bridge) (t : Thread) (pc : ThreadPc) :
    (w.goto t pc).threads t = pc :=
  Function.update_self _ _ _

/-- The handler of the session is replaced. -/
theorem view_withHandler (w : Bridge) (s : Session) (h : Handler) :
    (w.withHandler s h).view s = { w.view s with handler := h } := by
  simp [view, withHandler, Bridge.reg]

/-! ### Registry steps -/

/-- An operation with admissible choices is a step, and the registry is what `apply` gives. -/
theorem callStep_op (hw : WorldInv w.calls.world) (op : RegistryOp) (hatomic : op.isAtomic = true)
    (hop : op.Admissible w.calls.world) :
    ∃ calls, w.callStep (.op op) = some { w with calls := calls } ∧
      w.reg.apply op = some calls.reg ∧ calls.calls = w.calls.calls ∧
      calls.world.used = op.uses ++ w.calls.world.used ∧ WorldInv calls.world := by
  obtain ⟨r', happly, -, hstep, hw'⟩ := hw.step op hop
  refine ⟨⟨⟨r', op.uses ++ w.calls.world.used⟩, w.calls.connected, w.calls.calls, w.calls.closed,
    w.calls.registered ++ op.registration⟩, ?_, happly, rfl, rfl, hw'⟩
  simp [callStep, CallWorld.step, hatomic, hstep]

/-- The reader has a request to dispatch, and everything fits. -/
structure Ready (out : Surroundings) (s : Session) (msg : Message) (w : Bridge) : Prop where
  reader : w.threads (.reader s) = .dispatch msg
  call : w.calls.calls (readerCall s) = .idle
  world : WorldInv w.calls.world
  fits : w.Fits out msg

variable {out : Surroundings} {msg : Message}

/-- Registry steps that use no new string keep `Ready`. -/
theorem Ready.withCalls (h : w.Ready out s msg) {calls : CallWorld}
    (hcalls : calls.calls = w.calls.calls) (hused : calls.world.used = w.calls.world.used)
    (hworld : WorldInv calls.world) : Ready out s msg { w with calls := calls } where
  reader := h.reader
  call := (congrFun hcalls _).trans h.call
  world := hworld
  fits := ⟨hused ▸ h.fits.fresh, h.fits.state, h.fits.peer, h.fits.channel⟩

/-- A lookup is a step, with the registry that `ServerState.lookupThen` has after it. -/
theorem lookup_ready (hready : w.Ready out s msg) :
    ∃ calls, w.lookup msg out.now = some { w with calls := calls } ∧
      Ready out s msg { w with calls := calls } ∧
      view { w with calls := calls } s = (if msg.handle = "" then w.view s
        else { w.view s with reg := ((w.view s).reg.lookup msg.handle out.now).2 }) := by
  unfold Bridge.lookup
  split
  · exact ⟨w.calls, rfl, hready, rfl⟩
  · obtain ⟨calls, hstep, happly, hcalls, hused, hworld⟩ :=
      callStep_op hready.world (.lookup msg.handle out.now) rfl trivial
    refine ⟨calls, hstep, hready.withCalls hcalls hused hworld, ?_⟩
    have hreg : ((w.view s).reg.lookup msg.handle out.now).2 = calls.reg :=
      Option.some.inj happly
    rw [hreg]
    rfl

/-- The rule for the lookup at the start of a handler. -/
theorem completes_lookupThen (hready : w.Ready out s msg) {kind : ResourceKind} {wrong : String}
    (next : Nat → Bridge → Bridge) {rest : Nat → ServerState → Turn}
    (hdispatch : w.step env (.dispatch s out.now none)
      = w.lookupThen s msg out.now (lookupKind kind wrong) next)
    (hrest : ∀ obj w₁, w₁.Ready out s msg → w₁.out = w.out →
      lookupKind kind wrong w₁.reg msg = .ok obj →
      w.step env (.dispatch s out.now none) = some (next obj w₁) →
      w.Completes env s (rest obj (w₁.view s))) :
    w.Completes env s ((w.view s).lookupThen out msg (lookupKind kind wrong) rest) := by
  obtain ⟨calls, hlookup, hready₁, hview⟩ := lookup_ready hready
  unfold ServerState.lookupThen
  rw [← hview]
  cases hfind : lookupKind kind wrong calls.reg msg with
  | error resp =>
      have hstep : w.step env (.dispatch s out.now none)
          = some (reply { w with calls := calls } s resp) := by
        simp only [hdispatch, Bridge.lookupThen, hlookup, Option.map_some, Bridge.reg, hfind]
      simp only [view, Bridge.reg, hfind]
      exact completes_answer hstep rfl rfl hready₁.call (answers_of_lookupKind hfind).1 rfl
  | ok obj =>
      have hstep : w.step env (.dispatch s out.now none)
          = some (next obj { w with calls := calls }) := by
        simp only [hdispatch, Bridge.lookupThen, hlookup, Option.map_some, Bridge.reg, hfind]
      simp only [view, Bridge.reg, hfind]
      exact hrest obj _ hready₁ rfl hfind hstep

/-! ### Handlers -/

theorem completes_init (hready : w.Ready out s msg) (htype : msg.type = "init") :
    w.Completes env s ((w.view s).handleInit env msg) := by
  rcases hinit : handleInit env (w.handlers s) msg with ⟨h, tracing, resp⟩
  have hturn : (w.view s).handleInit env msg
      = .ret { w.view s with handler := h, tracing := w.tracing || tracing } resp := by
    simp only [ServerState.handleInit, view, hinit]
  have hanswers : Answers msg resp := by
    have hsettled : ((w.view s).handleInit env msg).Meets (ServerState.Settled False False msg) :=
      ServerState.settled_init htype
    rw [hturn] at hsettled
    exact hsettled.2.1
  have hstep : w.step env (.dispatch s 0 none)
      = some (reply { w.withHandler s h with tracing := w.tracing || tracing } s resp) := by
    simp only [step, stepRequest, hready.reader, handleMessage, htype, hinit]
  rw [hturn]
  refine completes_answer hstep rfl rfl hready.call hanswers ?_
  simp [view, withHandler, Bridge.reg]

/-- The end of the handlers that close an object. -/
theorem completes_finish {pc : ThreadPc} {closed : Except String (Except String Unit)}
    {st : ServerState} {type : String} (failing : Option String → BridgeAction)
    (hstep : ∀ failure, (w.goto (.reader s) pc).step env (failing failure)
      = some ((w.goto (.reader s) pc).finish s msg failure))
    (hown : ∀ failure, (failing failure).IsOwn s) (hcall : w.calls.calls (readerCall s) = .idle)
    (hcalm : ∀ text, closed ≠ .error text) (htype : msg.type = type) (hst : st = w.view s) :
    (w.goto (.reader s) pc).Completes env s (st.attempt msg.id msg.handle closed fun _ =>
      .ret st (ackResponse type msg.id msg.handle [])) := by
  cases closed with
  | error text => exact absurd rfl (hcalm text)
  | ok answer =>
      cases answer with
      | error err =>
          exact completes_answer (hstep (some err)) (hown _) rfl hcall (answers_error _ _ _ _) hst
      | ok u =>
          rw [← htype]
          exact completes_answer (hstep none) (hown _) rfl hcall (answers_ack _ _ rfl) hst

theorem completes_pcClose (hcalm : out.Calm) (hready : w.Ready out s msg)
    (htype : msg.type = "pc:close") :
    w.Completes env s ((w.view s).handlePCClose out msg) := by
  refine completes_lookupThen hready
    (fun _ w => w.goto (.reader s) (.forgetPCProfile msg)) ?_ ?_
  · simp only [step, stepRequest, hready.reader, handleMessage, htype]
    rfl
  intro pc w₁ hready₁ hout hfind hstep
  refine completes_step hstep rfl hout ?_
  have hforget : (w₁.goto (.reader s) (.forgetPCProfile msg)).step env (.forgetPCProfile s)
      = some (((w₁.goto (.reader s) (.forgetPCProfile msg)).withHandler s
        ((w₁.handlers s).forgetPCProfile msg.handle)).goto (.reader s) (.closePC msg)) := by
    simp only [step, stepRequest, threads_goto_self, htype, if_true]
    rfl
  refine completes_step hforget rfl rfl ?_
  obtain ⟨u, hnotify⟩ := hcalm.ok (.notifyPCClosed msg.handle)
  simp only [hnotify, Exit.deferred_ok]
  refine completes_finish (.closePC s) ?_ (fun _ => rfl) hready₁.call (hcalm.ne _) htype ?_
  · intro failure
    simp only [step, stepRequest, threads_goto_self]
  · exact (view_withHandler _ _ _).symm

theorem completes_dcClose (hcalm : out.Calm) (hready : w.Ready out s msg)
    (htype : msg.type = "dc:close") :
    w.Completes env s ((w.view s).handleDCClose out msg) := by
  refine completes_lookupThen hready (fun _ w => w.goto (.reader s) (.removeState msg)) ?_ ?_
  · simp only [step, stepRequest, hready.reader, handleMessage, htype]
    rfl
  intro dc w₁ hready₁ hout hfind hstep
  refine completes_step hstep rfl hout ?_
  obtain ⟨calls, hremove, happly, hcalls, -, -⟩ :=
    callStep_op (w := w₁.goto (.reader s) (.removeState msg)) hready₁.world
      (.removeDCSendState msg.handle) rfl trivial
  have hcall : calls.calls (readerCall s) = .idle := (congrFun hcalls _).trans hready₁.call
  have hview : { w₁.view s with reg := ((w₁.view s).reg.removeDCSendState msg.handle).2 }
      = view { w₁ with calls := calls } s := by
    rw [show ((w₁.view s).reg.removeDCSendState msg.handle).2 = calls.reg from
      Option.some.inj happly]
    rfl
  have hclose : ∀ (w₂ : Bridge) failure, (w₂.goto (.reader s) (.closeDC msg)).step env
      (.closeDC s failure) = some ((w₂.goto (.reader s) (.closeDC msg)).finish s msg failure) := by
    intro w₂ failure
    simp only [step, stepRequest, threads_goto_self]
  let w₂ : Bridge := { w₁.goto (.reader s) (.removeState msg) with calls := calls }
  -- Only a channel with a sender has a state to stop.
  cases hstate : (w₁.goto (.reader s) (.removeState msg)).reg.lookupDCSendState msg.handle with
  | none =>
      have hremoved : (w₁.goto (.reader s) (.removeState msg)).step env (.removeState s)
          = some (w₂.goto (.reader s) (.closeDC msg)) := by
        simp only [step, stepRequest, threads_goto_self, hremove, Option.map_some, hstate]
        rfl
      refine completes_step hremoved rfl rfl ?_
      exact completes_finish (.closeDC s) (hclose w₂) (fun _ => rfl) hcall (hcalm.ne _) htype hview
  | some state =>
      have hremoved : (w₁.goto (.reader s) (.removeState msg)).step env (.removeState s)
          = some (w₂.goto (.reader s) (.closeState msg state)) := by
        simp only [step, stepRequest, threads_goto_self, hremove, Option.map_some, hstate]
        rfl
      refine completes_step hremoved rfl rfl ?_
      let w₃ : Bridge := { w₂.goto (.reader s) (.closeState msg state) with
        stopped := w₂.stopped ++ [state] }
      have hstopped : (w₂.goto (.reader s) (.closeState msg state)).step env (.closeState s)
          = some (w₃.goto (.reader s) (.closeDC msg)) := by
        simp only [step, stepRequest, threads_goto_self]
        rfl
      refine completes_step hstopped rfl rfl ?_
      exact completes_finish (.closeDC s) (hclose w₃) (fun _ => rfl) hcall (hcalm.ne _) htype hview

/-- `handlePCCreate` after `NewPeerConnection`: register, set the profile, set the callbacks. -/
theorem completes_register (hcalm : out.Calm) {profile : ApiProfile} {peer : Nat} {st : ServerState}
    (ht : w.threads (.reader s) = .register msg profile peer)
    (hworld : WorldInv w.calls.world) (hfresh : out.handle ∉ w.calls.world.used)
    (hcall : w.calls.calls (readerCall s) = .idle) (htype : msg.type = "pc:create")
    (hst : st = { w.view s with
      reg := w.reg.register ⟨.peerConnection, peer⟩ out.handle out.now
      handler := (w.handlers s).setPCProfile out.handle profile }) :
    w.Completes env s (.after st (out.answer (.setupPCCallbacks peer out.handle)) fun _ =>
      .ret st (ackResponse "pc:create" msg.id out.handle
        [("handle", .str out.handle), ("state", .str "new")])) := by
  obtain ⟨calls, hregister, happly, hcalls, -, -⟩ :=
    callStep_op hworld (.register ⟨.peerConnection, peer⟩ out.handle out.now) rfl hfresh
  let w₁ : Bridge := { w with calls := calls }.goto (.reader s)
    (.setPCProfile msg out.handle profile peer)
  have hregistered : w.step env (.register s out.handle out.now) = some w₁ := by
    simp only [step, stepRequest, ht, hregister, Option.map_some]
    rfl
  refine completes_step hregistered rfl rfl ?_
  let w₂ : Bridge := (w₁.withHandler s ((w.handlers s).setPCProfile out.handle profile)).goto
    (.reader s) (.setupPCCallbacks msg out.handle peer)
  have hset : w₁.step env (.setPCProfile s) = some w₂ := by
    simp only [step, stepRequest, w₁, threads_goto_self]
    rfl
  refine completes_step hset rfl rfl ?_
  obtain ⟨u, hcallbacks⟩ := hcalm.ok (.setupPCCallbacks peer out.handle)
  rw [hcallbacks]
  let w₃ : Bridge := { w₂ with hooks := Function.update w₂.hooks peer (some (out.handle, s)) }
  have hreply : w₂.step env (.setupPCCallbacks s) = some (w₃.reply s (ackResponse "pc:create"
      msg.id out.handle [("handle", .str out.handle), ("state", .str "new")])) := by
    simp only [step, stepRequest, w₂, threads_goto_self]
    rfl
  refine completes_answer hreply rfl rfl ((congrFun hcalls _).trans hcall)
    (answers_ack _ _ htype) ?_
  have hreg : w.reg.register ⟨.peerConnection, peer⟩ out.handle out.now = calls.reg :=
    Option.some.inj happly
  rw [hst, hreg]
  exact (view_withHandler w₁ s _).symm

theorem completes_pcCreate (hcalm : out.Calm) (hready : w.Ready out s msg)
    (htype : msg.type = "pc:create") :
    w.Completes env s ((w.view s).handlePCCreate env out msg) := by
  have hdispatch : ∀ failure, w.step env (.dispatch s 0 failure)
      = some (w.handlePCCreate env s msg failure) := by
    intro failure
    simp only [step, stepRequest, hready.reader, handleMessage, htype]
  unfold ServerState.handlePCCreate
  unfold Bridge.handlePCCreate at hdispatch
  simp only [view] at hdispatch ⊢
  cases hprofile : (w.handlers s).createProfile env msg.data with
  | error err =>
      simp only [hprofile] at hdispatch
      exact completes_answer (hdispatch none) rfl rfl hready.call (answers_error _ _ _ _) rfl
  | ok made =>
      obtain ⟨profile, h⟩ := made
      simp only [hprofile] at hdispatch
      obtain ⟨answer, hanswer⟩ := hcalm.ok (.newPeerConnection profile (pcConfiguration msg.data))
      simp only [ServerState.attempt, hanswer, Exit.after]
      cases answer with
      | error err =>
          refine completes_answer (hdispatch (some err)) rfl rfl hready.call
            (answers_error _ _ _ _) ?_
          exact (view_withHandler w s h).symm
      | ok pc =>
          -- The new PeerConnection is the next object.
          obtain rfl := hready.fits.peer _ _ _ hanswer
          refine completes_step (hdispatch none) rfl rfl ?_
          refine completes_register hcalm (threads_goto_self _ _ _) hready.world
            hready.fits.fresh hready.call htype ?_
          simp [view, withHandler, goto, Bridge.reg]

variable (env) in
/-- The shutdown calls of a `Delete` of the session. -/
theorem steps_close {events : List CloseEvent}
    (hclosing : w.calls.calls (readerCall s) = .closing events []) :
    ∃ calls, (bridgeSystem env).StepsUnder (fun _ => BridgeAction.IsOwn s) w
        { w with calls := calls } ∧ calls.reg = w.reg ∧
      calls.calls (readerCall s) = .closing [] [] := by
  induction events generalizing w with
  | nil => exact ⟨w.calls, .refl, rfl, hclosing⟩
  | cons event events ih =>
      let calls : CallWorld := { w.calls.withCall (readerCall s) (.closing events []) with
        closed := w.calls.closed ++ [event] }
      have hown : BridgeAction.IsOwn s (.call (.close (readerCall s))) := rfl
      have hstep : w.step env (.call (.close (readerCall s))) = some { w with calls := calls } := by
        simp only [step, CallAction.isFree, if_true, callStep, CallWorld.step, hclosing,
          Option.map_some]
        rfl
      obtain ⟨calls', hsteps, hreg, hclosed⟩ :=
        ih (w := { w with calls := calls }) (Function.update_self _ _ _)
      exact ⟨calls', StepSystem.StepsUnder.trans (.step .refl hown hstep) hsteps, hreg, hclosed⟩

variable (env) in
/-- `Delete` after the profile is forgotten, up to the response. -/
theorem completes_delete (hcalm : out.Calm) {st : ServerState}
    (ht : w.threads (.reader s) = .delete msg) (hi : w.reg.Inv)
    (hcall : w.calls.calls (readerCall s) = .idle) (htype : msg.type = "resource:delete")
    (hst : st = w.view s) :
    ∃ deleted reg, w.reg.delete msg.handle = some (deleted, reg) ∧
      w.Completes env s ({ st with reg := reg }.afterDelete out msg deleted) := by
  subst hst
  rcases deleteLocked_spec hi msg.handle with ⟨hnone, hlocked⟩ | ⟨hhas, L, reg, hlocked, -, -⟩
  · refine ⟨.error ("handle not found: " ++ msg.handle), w.reg, by rw [delete, hlocked]; rfl, ?_⟩
    have hstep : w.step env (.delete s) = some (w.reply s (errorResponse msg.id "NOT_FOUND"
        ("handle not found: " ++ msg.handle) false msg.handle)) := by
      have hhas : ¬ w.reg.resources.Has msg.handle := by simp [GoMap.Has, hnone]
      simp only [step, stepRequest, ht, hhas, if_false]
    exact completes_answer hstep rfl rfl hcall (answers_error _ _ _ _) rfl
  · refine ⟨.ok (closeCollected (w.reg.gather L)), reg, by rw [delete, hlocked]; rfl, ?_⟩
    let calls : CallWorld := (w.calls.withReg reg).withCall (readerCall s)
      (.closing (closeCollected (w.reg.gather L)) [])
    let w₁ : Bridge := { w with calls := calls }.goto (.reader s) (.deleting msg)
    have hstep : w.step env (.delete s) = some w₁ := by
      have hdelete : w.callStep (.delete (readerCall s) msg.handle)
          = some { w with calls := calls } := by
        simp only [callStep, CallWorld.step, hcall]
        rw [show w.calls.reg.deleteLocked msg.handle = _ from hlocked]
        rfl
      simp only [step, stepRequest, ht, hhas, if_true, hdelete, Option.map_some]
      rfl
    refine completes_step hstep rfl rfl ?_
    -- The shutdown calls change nothing that the handlers see.
    obtain ⟨calls₂, hsteps, hreg, hclosed⟩ :=
      steps_close (w := w₁) env (Function.update_self _ _ _)
    refine completes_steps hsteps rfl ?_
    have hcloseAll : out.closeAll (closeCollected (w.reg.gather L)) = .ok () := by
      cases hclose : out.closeAll (closeCollected (w.reg.gather L)) with
      | ok u => rfl
      | error text =>
          obtain ⟨-, res, -, hpanics⟩ := Surroundings.closeAll_error_iff.mp ⟨text, hclose⟩
          exact absurd hpanics (hcalm _)
    let w₂ : Bridge := { w₁ with calls := calls₂.withCall (readerCall s) .idle }
    have hdeleted : step env { w₁ with calls := calls₂ } (.deleted s) = some (w₂.reply s
        (ackResponse "resource:delete" msg.id msg.handle [])) := by
      have hret : callStep { w₁ with calls := calls₂ } (.ret (readerCall s)) = some w₂ := by
        simp only [callStep, CallWorld.step, hclosed]
        rfl
      have ht₁ : w₁.threads (.reader s) = .deleting msg := threads_goto_self _ _ _
      simp only [step, stepRequest, ht₁, hret, Option.map_some, Bridge.finish, htype]
    simp only [ServerState.afterDelete, hcloseAll]
    refine completes_answer hdeleted rfl rfl (Function.update_self _ _ _) (answers_ack _ _ htype) ?_
    show _ = ServerState.mk calls₂.reg _ _
    rw [hreg]
    rfl

theorem completes_resourceDelete (hcalm : out.Calm) (hready : w.Ready out s msg)
    (htype : msg.type = "resource:delete") :
    ∃ turn, (w.view s).handleResourceDelete out msg = some turn ∧ w.Completes env s turn := by
  unfold ServerState.handleResourceDelete
  have hdispatch : w.step env (.dispatch s out.now none)
      = if msg.handle = "" then
          some (w.reply s (errorResponse msg.id "INVALID_REQUEST" "missing handle" false ""))
        else (w.lookup msg out.now).map fun w => w.goto (.reader s) (.forgetPCProfile msg) := by
    simp only [step, stepRequest, hready.reader, handleMessage, htype]
  split
  · rename_i hempty
    rw [if_pos hempty] at hdispatch
    exact ⟨_, rfl, completes_answer hdispatch rfl rfl hready.call (answers_error _ _ _ _) rfl⟩
  · rename_i hhandle
    obtain ⟨calls, hlookup, hready₁, hview⟩ := lookup_ready hready
    rw [if_neg hhandle, hlookup] at hdispatch
    rw [if_neg hhandle] at hview
    let w₁ : Bridge := { w with calls := calls }.goto (.reader s) (.forgetPCProfile msg)
    let w₂ : Bridge := (w₁.withHandler s ((w.handlers s).forgetPCProfile msg.handle)).goto
      (.reader s) (.delete msg)
    have hforget : w₁.step env (.forgetPCProfile s) = some w₂ := by
      simp only [step, stepRequest, w₁, threads_goto_self, htype]
      rfl
    have hst : { w.view s with
        reg := w₂.reg, handler := (w.handlers s).forgetPCProfile msg.handle } = w₂.view s :=
      (view_withHandler w₁ s _).symm
    obtain ⟨deleted, reg, hdelete, hcompletes⟩ := completes_delete (w := w₂) env hcalm
      (threads_goto_self _ _ _) hready₁.world.reg hready₁.call htype hst
    have hreg : ((w.view s).reg.lookup msg.handle out.now).2 = w₂.reg :=
      (congrArg ServerState.reg hview).symm
    obtain ⟨u, hnotify⟩ := hcalm.ok (.notifyPCClosed msg.handle)
    dsimp only
    rw [hreg, hdelete]
    refine ⟨_, rfl, completes_step hdispatch rfl rfl (completes_step hforget rfl rfl ?_)⟩
    -- The hook does not panic, so it does not matter whether it is called.
    simp only [hnotify, Exit.deferred_ok, ite_self]
    exact hcompletes

/-- The end of `handlePCCreateDc`: set the callbacks and respond. -/
theorem completes_announce (hcalm : out.Calm) {peer channel : Nat} {child : Child}
    {profile : ApiProfile} {label : String} {st : ServerState}
    (ht : w.threads (.reader s)
      = .setupDCCallbacks ⟨s, some msg, msg.handle, peer, channel⟩ child profile)
    (hchild : child.handle = out.handle) (hcall : w.calls.calls (readerCall s) = .idle)
    (htype : msg.type = "pc:createDc")
    (hobject : (w.objects[channel]?).map (·.label) = some label)
    (hlabel : out.answer (.label channel) = .ok label) (hst : st = w.view s) :
    w.Completes env s (.after st (out.answer (.setupDCCallbacks channel out.handle profile))
      fun _ => .after st (out.answer (.label channel)) fun dcLabel =>
        .ret st (ackResponse "pc:createDc" msg.id msg.handle
          [("dc_handle", .str out.handle), ("label", .str dcLabel),
            ("state", .str "connecting")])) := by
  have hstep : w.step env (.setupDCCallbacks (.reader s)) = some (w.reply s
      (ackResponse "pc:createDc" msg.id msg.handle [("dc_handle", .str out.handle),
        ("label", .str label), ("state", .str "connecting")])) := by
    simp only [step, stepMaking, ht, announce, hobject, hchild]
    rfl
  obtain ⟨u, hcallbacks⟩ := hcalm.ok (.setupDCCallbacks channel out.handle profile)
  simp only [hcallbacks, hlabel, Exit.after]
  exact completes_answer hstep rfl rfl hcall (answers_ack _ _ htype) hst

/-- `handlePCCreateDc` from `startDCSendGoroutine` on. -/
theorem completes_startSender (hcalm : out.Calm) {peer channel : Nat} {child : Child}
    {profile : ApiProfile} {label : String} {st : ServerState}
    (ht : w.threads (.reader s)
      = .making ⟨s, some msg, msg.handle, peer, channel⟩ (some child) (some profile))
    (hchild : child.handle = out.handle) (hworld : WorldInv w.calls.world)
    (hstate : out.state = w.stateCount)
    (hcall : w.calls.calls (readerCall s) = .idle) (htype : msg.type = "pc:createDc")
    (hobject : (w.objects[channel]?).map (·.label) = some label)
    (hlabel : out.answer (.label channel) = .ok label) (hst : st = w.view s) :
    w.Completes env s (st.startDCSendGoroutine env out channel out.handle fun st =>
      .after st (out.answer (.setupDCCallbacks channel out.handle profile)) fun _ =>
        .after st (out.answer (.label channel)) fun dcLabel =>
          .ret st (ackResponse "pc:createDc" msg.id msg.handle
            [("dc_handle", .str out.handle), ("label", .str dcLabel),
              ("state", .str "connecting")])) := by
  subst hst
  let m : Making := ⟨s, some msg, msg.handle, peer, channel⟩
  unfold ServerState.startDCSendGoroutine
  cases hmake : env.makeChan (w.view s).handler.dcConfig.sendQueueDepth with
  | outOfRange =>
      -- `make` panics, and both sides answer under the id 0.
      have hmake' : env.makeChan (w.handlers s).dcConfig.sendQueueDepth = .outOfRange := hmake
      have hstep : w.step env (.registerState (.reader s)) = some (w.reply s
          (errorResponse 0 "FATAL_PANIC" "makechan: size out of range" true "")) := by
        simp only [step, stepMaking, ht, hmake', recovered]
        rfl
      exact completes_reply hstep rfl rfl hcall (ServerState.finish_panicked rfl)
  | outOfMemory =>
      intro msgs st hsent
      cases hsent
  | made =>
      have hmake' : env.makeChan (w.handlers s).dcConfig.sendQueueDepth = .made := hmake
      obtain ⟨calls, hregister, happly, hcalls, -, -⟩ := callStep_op hworld
        (.registerDCSendState out.handle w.stateCount) rfl trivial
      have hcall₁ : calls.calls (readerCall s) = .idle := (congrFun hcalls _).trans hcall
      let w₁ : Bridge := { w with
        calls := calls
        stateCount := w.stateCount + 1
        channels := w.channels ++ [⟨m, child, profile, (w.handlers s).dcConfig⟩] }
      have hstep : w.step env (.registerState (.reader s))
          = some (if (w.reg.registerDCSendState out.handle w.stateCount).1
            then w₁.goto (.reader s) (.startSender m child profile w.stateCount)
            else w₁.goto (.reader s) (.setupDCCallbacks m child profile)) := by
        simp only [step, stepMaking, ht, hmake', hchild, hregister, Option.map_some]
        rfl
      -- A handle that has a state already gets no sender, and then pion is not called either.
      rcases hmade : w.reg.registerDCSendState out.handle w.stateCount with ⟨fresh, reg⟩
      have hview : { w.view s with reg := reg } = w₁.view s := by
        rw [show reg = calls.reg from (congrArg Prod.snd hmade).symm.trans (Option.some.inj happly)]
        rfl
      rw [hmade] at hstep
      rw [hstate, show (w.view s).reg.registerDCSendState out.handle w.stateCount = _ from hmade]
      dsimp only
      rw [hview]
      cases fresh with
      | false =>
          refine completes_step hstep rfl rfl ?_
          exact completes_announce hcalm (threads_goto_self _ _ _) hchild hcall₁ htype hobject
            hlabel rfl
      | true =>
          obtain ⟨u, hthreshold⟩ := hcalm.ok (.setBufferedAmountLowThreshold channel
            (w.view s).handler.dcConfig.bufferedAmountLowThreshold)
          obtain ⟨u', hlow⟩ := hcalm.ok (.onBufferedAmountLow channel)
          simp only [if_true, hthreshold, hlow, Exit.after]
          refine completes_step hstep rfl rfl ?_
          let w₂ : Bridge := { w₁.goto (.reader s) (.startSender m child profile w.stateCount) with
            senders := w.senders ++ [(child.handle, w.stateCount)] }
          have hstarted : (w₁.goto (.reader s) (.startSender m child profile w.stateCount)).step env
              (.startSender (.reader s))
              = some (w₂.goto (.reader s) (.setupDCCallbacks m child profile)) := by
            simp only [step, stepMaking, threads_goto_self]
            rfl
          refine completes_step hstarted rfl rfl ?_
          exact completes_announce hcalm (threads_goto_self _ _ _) hchild hcall₁ htype hobject
            hlabel rfl

/-- `handlePCCreateDc` after `CreateDataChannel`. -/
theorem completes_making (hcalm : out.Calm) {peer channel : Nat} {st : ServerState} {label : String}
    (ht : w.threads (.reader s) = .making ⟨s, some msg, msg.handle, peer, channel⟩ none none)
    (hworld : WorldInv w.calls.world) (hfresh : out.handle ∉ w.calls.world.used)
    (hparent : out.handle ≠ msg.handle) (hstate : out.state = w.stateCount)
    (hcall : w.calls.calls (readerCall s) = .idle) (htype : msg.type = "pc:createDc")
    (hobject : (w.objects[channel]?).map (·.label) = some label)
    (hlabel : out.answer (.label channel) = .ok label)
    (hst : st = { w.view s with
      reg := w.reg.registerChild ⟨.dataChannel, channel⟩ msg.handle out.handle out.now }) :
    w.Completes env s (st.startDCSendGoroutine env out channel out.handle fun st' =>
      .after st' (out.answer (.setupDCCallbacks channel out.handle
          (st.handler.pcProfile msg.handle))) fun _ =>
        .after st' (out.answer (.label channel)) fun dcLabel =>
          .ret st' (ackResponse "pc:createDc" msg.id msg.handle
            [("dc_handle", .str out.handle), ("label", .str dcLabel),
              ("state", .str "connecting")])) := by
  let m : Making := ⟨s, some msg, msg.handle, peer, channel⟩
  obtain ⟨calls, hregister, happly, hcalls, -, hworld₁⟩ := callStep_op hworld
    (.registerChild ⟨.dataChannel, channel⟩ msg.handle out.handle out.now) rfl ⟨hfresh, hparent⟩
  let child : Child :=
    ⟨out.handle, w.reg.resources.get msg.handle == some ⟨.peerConnection, peer⟩⟩
  let w₁ : Bridge := { w with calls := calls }.goto (.reader s) (.making m (some child) none)
  have hregistered : w.step env (.registerChild (.reader s) out.handle out.now) = some w₁ := by
    simp only [step, stepMaking, ht, profileFirst, Option.isNone_some, Bool.false_and,
      hregister, Option.map_some]
    rfl
  refine completes_step hregistered rfl rfl ?_
  let w₂ : Bridge := w₁.goto (.reader s)
    (.making m (some child) (some ((w.handlers s).pcProfile msg.handle)))
  have hread : w₁.step env (.readProfile (.reader s)) = some w₂ := by
    simp only [step, stepMaking, w₁, threads_goto_self]
    rfl
  refine completes_step hread rfl rfl ?_
  have hreg : w.reg.registerChild ⟨.dataChannel, channel⟩ msg.handle out.handle out.now
      = calls.reg := Option.some.inj happly
  subst hst
  rw [hreg]
  exact completes_startSender hcalm (threads_goto_self _ _ _) rfl hworld₁ hstate
    ((congrFun hcalls _).trans hcall) htype hobject hlabel rfl

theorem completes_pcCreateDc (hcalm : out.Calm) (hready : w.Ready out s msg)
    (htype : msg.type = "pc:createDc") :
    w.Completes env s ((w.view s).handlePCCreateDc env out msg) := by
  refine completes_lookupThen hready (fun peer w =>
    if (msg.data.str? "label").getD "" = "" then
      w.reply s (errorResponse msg.id "INVALID_REQUEST" "missing label" false msg.handle)
    else w.goto (.reader s) (.createDataChannel msg peer)) ?_ ?_
  · simp only [step, stepRequest, hready.reader, handleMessage, htype]
    rfl
  intro peer w₁ hready₁ hout hfind hstep
  dsimp only at hstep ⊢
  split
  · rename_i hempty
    rw [if_pos hempty] at hstep
    exact completes_answer hstep rfl hout hready₁.call (answers_error _ _ _ _) rfl
  · rename_i hlabelled
    rw [if_neg hlabelled] at hstep
    refine completes_step hstep rfl hout ?_
    obtain ⟨answer, hanswer⟩ := hcalm.ok (.createDataChannel peer ((msg.data.str? "label").getD "")
      (dcInit env msg.data))
    simp only [ServerState.attempt, hanswer, Exit.after]
    cases answer with
    | error err =>
        have hfailed : (w₁.goto (.reader s) (.createDataChannel msg peer)).step env
            (.createDataChannel s (some err)) = some ((w₁.goto (.reader s)
              (.createDataChannel msg peer)).reply s
              (errorResponse msg.id "INTERNAL_ERROR" err false msg.handle)) := by
          simp only [step, stepRequest, threads_goto_self]
        exact completes_answer hfailed rfl rfl hready₁.call (answers_error _ _ _ _) rfl
    | ok channel =>
        obtain ⟨rfl, hlabel⟩ := hready₁.fits.channel _ _ _ _ rfl hanswer
        let object : ChannelObject := ⟨(msg.data.str? "label").getD "", dcInit env msg.data⟩
        let w₂ : Bridge := { w₁.goto (.reader s) (.createDataChannel msg peer) with
          objects := w₁.objects ++ [object] }.goto (.reader s)
            (.making ⟨s, some msg, msg.handle, peer, w₁.objects.length⟩ none none)
        have hcreated : (w₁.goto (.reader s) (.createDataChannel msg peer)).step env
            (.createDataChannel s none) = some w₂ := by
          simp only [step, stepRequest, threads_goto_self]
          rfl
        refine completes_step hcreated rfl rfl ?_
        -- The parent is registered, so its handle was used, and the new one was not.
        have hparent : out.handle ≠ msg.handle := by
          intro heq
          have hhas : w₁.reg.resources.Has msg.handle := by
            simp [GoMap.Has, lookupPC_eq_ok hfind]
          exact hready₁.fits.fresh (heq ▸ hready₁.world.handles _ hhas)
        refine completes_making hcalm (threads_goto_self _ _ _) hready₁.world
          hready₁.fits.fresh hparent hready₁.fits.state hready₁.call htype ?_ hlabel rfl
        simp [w₂, goto, object]

/-! ### `processFrame` -/

variable (env) in
theorem completes_handleMessage (hcalm : out.Calm) (hready : w.Ready out s msg)
    (htype : msg.type ∈ resourceRequests) :
    ∃ turn, (w.view s).handleMessage env out msg = some turn ∧ w.Completes env s turn := by
  simp only [resourceRequests, List.mem_cons, List.not_mem_nil, or_false] at htype
  rcases htype with htype | htype | htype | htype | htype | htype <;>
    simp only [ServerState.handleMessage, htype]
  · exact ⟨_, rfl, completes_init hready htype⟩
  · exact ⟨_, rfl, completes_pcCreate hcalm hready htype⟩
  · exact ⟨_, rfl, completes_pcCreateDc hcalm hready htype⟩
  · exact ⟨_, rfl, completes_pcClose hcalm hready htype⟩
  · exact ⟨_, rfl, completes_dcClose hcalm hready htype⟩
  · exact completes_resourceDelete hcalm hready htype

end

/-- The `Touch` of a frame, and the reader has the request. -/
theorem frame_ready (env : Platform) {out : Surroundings} {s : Session} {w : Bridge} {msg : Message}
    (hworld : WorldInv w.calls.world) (hrest : w.Resting s) (hfits : w.Fits out msg)
    (htype : msg.type ∈ resourceRequests) :
    ∃ w₁, w.step env (.frame s msg out.clock) = some w₁ ∧ w₁.Ready out s msg ∧ w₁.out = w.out ∧
      (w.view s).touch out msg = some (w₁.view s) := by
  unfold ServerState.touch
  by_cases hempty : msg.handle = ""
  · refine ⟨w.goto (.reader s) (.dispatch msg), ?_,
      ⟨threads_goto_self _ _ _, hrest.call, hworld, hfits.fresh, hfits.state, hfits.peer,
        hfits.channel⟩, rfl, ?_⟩
    · simp only [step, stepRequest, hrest.reader, htype, if_true, hempty]
    · rw [if_pos hempty]
      rfl
  · obtain ⟨calls, htouch, happly, hcalls, hused, hworld₁⟩ :=
      callStep_op hworld (.touch msg.handle out.clock) rfl trivial
    refine ⟨{ w with calls := calls }.goto (.reader s) (.dispatch msg), ?_,
      ⟨threads_goto_self _ _ _, (congrFun hcalls _).trans hrest.call, hworld₁,
        hused ▸ hfits.fresh, hfits.state, hfits.peer, hfits.channel⟩, rfl, ?_⟩
    · simp only [step, stepRequest, hrest.reader, htype, if_true, hempty, if_false, htouch,
        Option.map_some]
    · have hreg : (w.view s).reg.touch msg.handle out.clock = some calls.reg := happly
      rw [if_neg hempty, hreg]
      rfl

theorem ne_send_of_resource {type : String} (htype : type ∈ resourceRequests) :
    type ≠ "dc:send" := by
  rintro rfl
  revert htype
  decide

/-- Take any state of the bridge in which the session handles no request, and a request that
creates or ends resources. If no call panics, `processFrame` answers it unless there is no memory
for the send queue, and the bridge gets to the same state with the same response when only the
reader of the session runs. The session then handles no request again. -/
theorem processFrame_simulated (env : Platform) (out : Surroundings) (s : Session) (w : Bridge)
    (msg : Message) (hw : (bridgeSystem env).Reachable w) (hrest : w.Resting s)
    (hfits : w.Fits out msg) (hcalm : out.Calm) (htype : msg.type ∈ resourceRequests)
    (hmemory : ¬ ServerState.Exhausts env out (w.view s) msg) :
    ∃ msgs w', (w.view s).processFrame env out (.ok msg) = some (.sent msgs (w'.view s)) ∧
      (bridgeSystem env).StepsUnder (fun _ => BridgeAction.IsOwn s) w w' ∧ w'.Resting s ∧
      w'.out = w.out ++ msgs.map fun resp => (s, resp) := by
  have hworld := (callInv hw).world
  obtain ⟨w₁, hframe, hready, hout, htouch⟩ := frame_ready env hworld hrest hfits htype
  obtain ⟨turn, hturn, hcompletes⟩ := completes_handleMessage env hcalm hready htype
  have hrun : (w.view s).processFrame env out (.ok msg) = some (ServerState.finish turn) := by
    simp only [ServerState.processFrame, htouch, Option.bind_some, hturn, Option.map_some]
  obtain ⟨st₁, htouch₁, hstamped⟩ :=
    ServerState.touch_stamped out msg (show (w.view s).reg.Inv from hworld.reg)
  cases htouch.symm.trans htouch₁
  -- There is memory for the queue, so the handler ends with an answer.
  obtain ⟨turn₁, hturn₁, hsettled⟩ := ServerState.settled_handleMessage env out
    (show (w₁.view s).reg.Inv from hready.world.reg) (ne_send_of_resource htype)
  cases hturn.symm.trans hturn₁
  rw [← (ServerState.panics_stamped env out msg hstamped).2] at hmemory
  obtain ⟨hdies, -⟩ | ⟨-, resp, st, hsent, -⟩ := ServerState.finish_of_settled hsettled
  · exact absurd hdies hmemory
  obtain ⟨w', hsteps, hresting, hview, hout'⟩ :=
    completes_step hframe rfl hout hcompletes _ _ hsent
  exact ⟨_, w', by rw [hrun, hsent, hview], hsteps, hresting, hout'⟩

example : newBridge.Resting 0 ∧
    newBridge.Fits (plainSurroundings "dc") ⟨"pc:createDc", 1, "pc", [("label", .str "x")]⟩ := by
  refine ⟨⟨rfl, rfl⟩, List.not_mem_nil, rfl, ?_, ?_⟩
  · intro profile config pc h
    cases h
    rfl
  · intro pc label init dc hlabel h
    cases h
    exact ⟨rfl, hlabel ▸ rfl⟩

end Bridge

end PionBridge.Server
