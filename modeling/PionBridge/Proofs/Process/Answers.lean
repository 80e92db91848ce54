import PionBridge.Proofs.Bridge.Profile
import PionBridge.Server.Process

/-!
# `PionBridge.Proofs.Process.Answers`: every request has one response

`processFrame` answers every request but `dc:send` with one message, as long as the process lives. A
handler that returns answers under the id of the request (`Answers`). A handler that panics is
answered under the id 0. A send queue that is too long for the memory ends the process, and nothing
is sent.

When a handler panics, and when it ends the process, is said in terms of the message, of the state
before it and of the answers from outside (`Panics`, `Exhausts`). `Settles panics dies msg K` is
what the rest of a handler comes to: it returns an answer to `msg`, or it panics exactly if `panics`
holds and ends the process exactly if `dies` holds, and the state that it leaves is in `K`. There is
a rule for each way to go on, and the proof about a handler follows its body. The results on refused
requests (`Refusals.lean`) use them with another `K`.
-/

set_option autoImplicit false

namespace PionBridge.Server

open PionBridge.Lib Registry

/-- The response has the id of the request, and it is its ack or an error. -/
structure Answers (msg resp : Message) : Prop where
  id : resp.id = msg.id
  type : resp.type = msg.type ++ ":ack" ∨ resp.type = "error"

theorem answers_error (msg : Message) (code text handle : String) :
    Answers msg (errorResponse msg.id code text false handle) :=
  ⟨rfl, Or.inr rfl⟩

theorem answers_ack {msg : Message} {type : String} (handle : Handle) (data : Data)
    (htype : msg.type = type) : Answers msg (ackResponse type msg.id handle data) :=
  ⟨rfl, Or.inl (by rw [htype]; rfl)⟩

/-- The call panics. -/
def Surroundings.Panics (out : Surroundings) {α : Type} (call : ForeignCall α) : Prop :=
  ∃ text, out.answer call = .error text

/-- The call returns without an error. -/
def Surroundings.Succeeds (out : Surroundings) {α : Type}
    (call : ForeignCall (Except String α)) : Prop :=
  ∃ a, out.answer call = .ok (.ok a)

/-- No call out of the bridge panics. -/
def Surroundings.Calm (out : Surroundings) : Prop :=
  ∀ {α : Type} (call : ForeignCall α), ¬ out.Panics call

/-- A call either panics or returns. -/
theorem Surroundings.or_exists_answer {out : Surroundings} {α : Type} {call : ForeignCall α}
    {p : Prop} : (out.Panics call ∨ (∃ a, out.answer call = .ok a) ∧ p) ↔ out.Panics call ∨ p := by
  unfold Panics
  cases out.answer call <;> simp

/-- `closeCollected` panics exactly when one of the `Close` calls does. -/
theorem Surroundings.closeAll_error_iff {out : Surroundings} {events : List CloseEvent} :
    (∃ text, out.closeAll events = .error text) ↔
      ∃ x res, CloseEvent.close x res ∈ events ∧ out.Panics (.close res) := by
  induction events with
  | nil => simp [closeAll]
  | cons event events ih =>
      cases event with
      | closeState handle state => simpa [closeAll] using ih
      | close handle res =>
          unfold closeAll
          cases hclose : out.answer (.close res) with
          | ok answer =>
              have hcalm : ¬ out.Panics (.close res) := by
                rintro ⟨text, htext⟩
                cases hclose.symm.trans htext
              rw [ih]
              constructor
              · rintro ⟨x, res', hmem, hpanics⟩
                exact ⟨x, res', List.mem_cons_of_mem _ hmem, hpanics⟩
              · rintro ⟨x, res', hmem, hpanics⟩
                rcases List.mem_cons.mp hmem with heq | hmem
                · cases heq
                  exact absurd hpanics hcalm
                · exact ⟨x, res', hmem, hpanics⟩
          | error text =>
              exact ⟨fun _ => ⟨handle, res, List.mem_cons_self, text, hclose⟩, fun _ => ⟨text, rfl⟩⟩

/-! ### Lookups -/

/-- `lookupPC` and `lookupDC` do not read the stamps. -/
theorem lookupKind_restamped {r r' : Registry} (h : Restamped r r') (kind : ResourceKind)
    (wrong : String) (msg : Message) :
    lookupKind kind wrong r' msg = lookupKind kind wrong r msg := by
  unfold lookupKind
  rw [h.resources]

theorem answers_of_lookupKind {kind : ResourceKind} {wrong : String} {r : Registry}
    {msg resp : Message} (h : lookupKind kind wrong r msg = .error resp) :
    Answers msg resp ∧ resp.type = "error" := by
  unfold lookupKind at h
  split at h
  · cases h
    exact ⟨answers_error _ _ _ _, rfl⟩
  · split at h
    · cases h
      exact ⟨answers_error _ _ _ _, rfl⟩
    · split at h
      · cases h
      · cases h
        exact ⟨answers_error _ _ _ _, rfl⟩

namespace ServerState

/-- The same state with other stamps in its registry. -/
def Stamped (st st' : ServerState) : Prop :=
  ∃ reg, Restamped st.reg reg ∧ st' = { st with reg := reg }

/-- The rule of a handler that starts with a lookup. Both ways on see the state with new stamps. -/
theorem meets_lookupThen {P : Ending Message → ServerState → Prop} {st : ServerState}
    {out : Surroundings} {msg : Message} {kind : ResourceKind} {wrong : String}
    {next : Nat → ServerState → Turn}
    (hok : ∀ obj st', lookupKind kind wrong st.reg msg = .ok obj → st.Stamped st' →
      (next obj st').Meets P)
    (herr : ∀ resp st', lookupKind kind wrong st.reg msg = .error resp → st.Stamped st' →
      P (.returned resp) st') :
    (st.lookupThen out msg (lookupKind kind wrong) next).Meets P := by
  have hstamped : st.Stamped (if msg.handle = "" then st
      else { st with reg := (st.reg.lookup msg.handle out.now).2 }) := by
    split
    · exact ⟨st.reg, Restamped.refl _, rfl⟩
    · exact ⟨_, lookup_restamped _ _ _, rfl⟩
  unfold lookupThen
  generalize (if msg.handle = "" then st
    else { st with reg := (st.reg.lookup msg.handle out.now).2 }) = st₁ at hstamped ⊢
  have hfind : lookupKind kind wrong st₁.reg msg = lookupKind kind wrong st.reg msg := by
    obtain ⟨reg, hreg, rfl⟩ := hstamped
    exact lookupKind_restamped hreg _ _ _
  dsimp only
  rw [hfind]
  cases hlookup : lookupKind kind wrong st.reg msg with
  | ok obj => exact hok obj st₁ hlookup hstamped
  | error resp => exact herr resp st₁ hlookup hstamped

/-- The rule of a call that returns a value or an error. -/
theorem meets_attempt {P : Ending Message → ServerState → Prop} {st : ServerState}
    {id : Int} {handle : Handle} {α : Type} {call : Except String (Except String α)}
    {next : α → Turn} (hok : ∀ a, call = .ok (.ok a) → (next a).Meets P)
    (herr : ∀ err, call = .ok (.error err) →
      P (.returned (errorResponse id "INTERNAL_ERROR" err false handle)) st)
    (hpanic : ∀ text, call = .error text → P (.panicked text) st) :
    (st.attempt id handle call next).Meets P := by
  refine Exit.meets_after ?_ hpanic
  intro answer hanswer
  cases answer with
  | ok a => exact hok a hanswer
  | error err => exact herr err hanswer

/-! ### When a handler panics or ends the process -/

section

variable (env : Platform) (out : Surroundings) (st : ServerState) (msg : Message)

/-- `pc:create`: `NewPeerConnection` or the setting of the callbacks panics. -/
def PCCreatePanics : Prop :=
  ∃ profile h, st.handler.createProfile env msg.data = .ok (profile, h) ∧
    (out.Panics (.newPeerConnection profile (pcConfiguration msg.data)) ∨
      ∃ pc, out.answer (.newPeerConnection profile (pcConfiguration msg.data)) = .ok (.ok pc) ∧
        out.Panics (.setupPCCallbacks pc out.handle))

/-- `pc:offer` and `pc:answer`. -/
def CreateDescPanics (call : Nat → ForeignCall (Except String String)) : Prop :=
  ∃ pc, lookupPC st.reg msg = .ok pc ∧ out.Panics (call pc)

/-- `pc:setLocalDesc` and `pc:setRemoteDesc`, with the call that sets the description. -/
def SetDescPanics (call : Nat → SessionDescription → ForeignCall (Except String Unit)) : Prop :=
  ∃ pc, lookupPC st.reg msg = .ok pc ∧
    ¬ ((msg.data.str? "sdp").getD "" = "" ∨ (msg.data.str? "type").getD "" = "") ∧
    let desc : SessionDescription :=
      ⟨parseSdpType ((msg.data.str? "type").getD ""), (msg.data.str? "sdp").getD ""⟩
    (out.Panics (call pc desc) ∨
      out.Succeeds (call pc desc) ∧ out.Panics (.signalingState pc))

/-- `pc:addIce`. -/
def AddIcePanics : Prop :=
  ∃ pc, lookupPC st.reg msg = .ok pc ∧ (msg.data.str? "candidate").getD "" ≠ "" ∧
    out.Panics (.addICECandidate pc ⟨(msg.data.str? "candidate").getD "",
      msg.data.str? "sdp_mid", env.uint16? msg.data "sdp_mline_index"⟩)

/-- `pc:addTransceiver`. -/
def AddTransceiverPanics : Prop :=
  ∃ pc kind direction, lookupPC st.reg msg = .ok pc ∧
    out.newRTPCodecType (out.sprint (msg.data.get "kind")) = some kind ∧
    out.newRTPTransceiverDirection (out.sprint (msg.data.get "direction")) = some direction ∧
    (out.Panics (.addTransceiverFromKind pc kind direction) ∨
      out.Succeeds (.addTransceiverFromKind pc kind direction) ∧ out.Panics (.transceivers pc))

/-- `pc:close`. The hook is called however `Close` ends. -/
def PCClosePanics : Prop :=
  ∃ pc, lookupPC st.reg msg = .ok pc ∧
    (out.Panics (.close ⟨.peerConnection, pc⟩) ∨ out.Panics (.notifyPCClosed msg.handle))

/-- `pc:createDc` gets to its send queue: the PeerConnection is found and the channel `dc` made. -/
def MakesChannel (dc : Nat) : Prop :=
  ∃ pc, lookupPC st.reg msg = .ok pc ∧ (msg.data.str? "label").getD "" ≠ "" ∧
    out.answer (.createDataChannel pc ((msg.data.str? "label").getD "") (dcInit env msg.data))
      = .ok (.ok dc)

/-- One of the calls on the new channel `dc` panics. Without a send state of the handle, the two
calls of `startDCSendGoroutine` come first. -/
def ChannelPanics (dc : Nat) : Prop :=
  (st.reg.dcSendStates.get out.handle = none ∧
    (out.Panics (.setBufferedAmountLowThreshold dc
      st.handler.dcConfig.bufferedAmountLowThreshold) ∨ out.Panics (.onBufferedAmountLow dc))) ∨
  out.Panics (.setupDCCallbacks dc out.handle (st.handler.pcProfile msg.handle)) ∨
  out.Panics (.label dc)

/-- `pc:createDc`: `CreateDataChannel`, the `make` of the send queue or a call on the channel
panics. -/
def PCCreateDcPanics : Prop :=
  (∃ pc, lookupPC st.reg msg = .ok pc ∧ (msg.data.str? "label").getD "" ≠ "" ∧
    out.Panics (.createDataChannel pc ((msg.data.str? "label").getD "") (dcInit env msg.data))) ∨
  ∃ dc, MakesChannel env out st msg dc ∧
    (env.makeChan st.handler.dcConfig.sendQueueDepth = .outOfRange ∨
      env.makeChan st.handler.dcConfig.sendQueueDepth = .made ∧ ChannelPanics out st msg dc)

/-- `pc:createDc`: there is no memory for the send queue. -/
def PCCreateDcExhausts : Prop :=
  ∃ dc, MakesChannel env out st msg dc ∧
    env.makeChan st.handler.dcConfig.sendQueueDepth = .outOfMemory

/-- `dc:setBufferedAmountLowThreshold`. -/
def SetThresholdPanics : Prop :=
  ∃ dc threshold, lookupDC st.reg msg = .ok dc ∧ env.uint64? msg.data "threshold" = some threshold ∧
    out.Panics (.setBufferedAmountLowThreshold dc threshold.toNat)

/-- `dc:close`. -/
def DCClosePanics : Prop :=
  ∃ dc, lookupDC st.reg msg = .ok dc ∧ out.Panics (.close ⟨.dataChannel, dc⟩)

/-- `resource:delete`: a `Close` in the subtree of the handle panics, or the hook for a
PeerConnection. -/
def DeletePanics : Prop :=
  msg.handle ≠ "" ∧ ∃ res, st.reg.resources.get msg.handle = some res ∧
    ((∃ x closer, st.reg.Below msg.handle x ∧ st.reg.resources.get x = some closer ∧
      closer.isCloser = true ∧ out.Panics (.close closer)) ∨
    (res.kind = .peerConnection ∧ out.Panics (.notifyPCClosed msg.handle)))

/-- The handler of the request panics. -/
def Panics : Prop :=
  match msg.type with
  | "pc:create" => PCCreatePanics env out st msg
  | "pc:offer" => CreateDescPanics out st msg .createOffer
  | "pc:answer" => CreateDescPanics out st msg .createAnswer
  | "pc:setLocalDesc" => SetDescPanics out st msg .setLocalDescription
  | "pc:setRemoteDesc" => SetDescPanics out st msg .setRemoteDescription
  | "pc:addIce" => AddIcePanics env out st msg
  | "pc:close" => PCClosePanics out st msg
  | "pc:addTransceiver" => AddTransceiverPanics out st msg
  | "pc:createDc" => PCCreateDcPanics env out st msg
  | "dc:setBufferedAmountLowThreshold" => SetThresholdPanics env out st msg
  | "dc:close" => DCClosePanics out st msg
  | "resource:delete" => DeletePanics out st msg
  | _ => False

/-- The handler of the request ends the process. -/
def Exhausts : Prop := msg.type = "pc:createDc" ∧ PCCreateDcExhausts env out st msg

end

theorem below_restamped {r r' : Registry} (h : Restamped r r') : r'.Below = r.Below := by
  unfold Below kids
  rw [h.children]

/-- The stamps do not matter for either. -/
theorem panics_stamped (env : Platform) (out : Surroundings) {st st' : ServerState} (msg : Message)
    (h : st.Stamped st') :
    (Panics env out st' msg ↔ Panics env out st msg) ∧
      (Exhausts env out st' msg ↔ Exhausts env out st msg) := by
  obtain ⟨reg, hreg, rfl⟩ := h
  have hpc : lookupPC reg msg = lookupPC st.reg msg := lookupKind_restamped hreg _ _ _
  have hdc : lookupDC reg msg = lookupDC st.reg msg := lookupKind_restamped hreg _ _ _
  constructor
  · simp only [Panics, PCCreatePanics, CreateDescPanics, SetDescPanics, AddIcePanics, PCClosePanics,
      AddTransceiverPanics, PCCreateDcPanics, MakesChannel, ChannelPanics, SetThresholdPanics,
      DCClosePanics, DeletePanics, hpc, hdc, below_restamped hreg, hreg.resources,
      hreg.dcSendStates]
  · simp only [Exhausts, PCCreateDcExhausts, MakesChannel, hpc]

/-! ### The common specification -/

/-- The rest of a handler returns an answer to `msg`, or panics exactly if `panics` holds, or ends
the process exactly if `dies` holds, and leaves a state in `K`. -/
def Settles (panics dies : Prop) (msg : Message) (K : ServerState → Prop) :
    Ending Message → ServerState → Prop
  | .returned resp, st => (¬ panics ∧ ¬ dies) ∧ Answers msg resp ∧ K st
  | .panicked _, st => (panics ∧ ¬ dies) ∧ K st
  | .died, _ => dies

section

variable {env : Platform} {out : Surroundings} {st : ServerState} {msg : Message}
  {panics dies : Prop} {K : ServerState → Prop}

theorem settles_congr {panics' dies' : Prop} {e : Turn} (hp : panics' ↔ panics)
    (hd : dies' ↔ dies) (he : e.Meets (Settles panics dies msg K)) :
    e.Meets (Settles panics' dies' msg K) := by
  rwa [propext hp, propext hd]

theorem settles_refuse {code text : String} {handle : Handle} (hst : K st) :
    (st.refuse msg.id code text handle).Meets (Settles False False msg K) :=
  ⟨⟨not_false, not_false⟩, answers_error _ _ _ _, hst⟩

theorem settles_ack {type : String} {handle : Handle} {data : Data} (htype : msg.type = type)
    (hst : K st) :
    Exit.Meets (.ret st (ackResponse type msg.id handle data)) (Settles False False msg K) :=
  ⟨⟨not_false, not_false⟩, answers_ack handle data htype, hst⟩

/-- A call panics, or it returns a value on which the rest does. -/
theorem settles_after {α : Type} {call : ForeignCall α} {next : α → Turn} {p d : α → Prop}
    (hst : K st)
    (hok : ∀ a, out.answer call = .ok a → (next a).Meets (Settles (p a) (d a) msg K)) :
    (Exit.after st (out.answer call) next).Meets
      (Settles (out.Panics call ∨ ∃ a, out.answer call = .ok a ∧ p a)
        (∃ a, out.answer call = .ok a ∧ d a) msg K) := by
  refine Exit.meets_after (fun a ha => ?_) fun text htext => ?_
  · refine settles_congr ?_ ?_ (hok a ha) <;> simp [Surroundings.Panics, ha]
  · simp [Settles, Surroundings.Panics, htext, hst]

/-- The same for a call that returns a value or an error. -/
theorem settles_attempt {α : Type} {call : ForeignCall (Except String α)} {handle : Handle}
    {next : α → Turn} {p d : α → Prop} (hst : K st)
    (hok : ∀ a, out.answer call = .ok (.ok a) → (next a).Meets (Settles (p a) (d a) msg K)) :
    (st.attempt msg.id handle (out.answer call) next).Meets
      (Settles (out.Panics call ∨ ∃ a, out.answer call = .ok (.ok a) ∧ p a)
        (∃ a, out.answer call = .ok (.ok a) ∧ d a) msg K) := by
  refine meets_attempt (fun a ha => ?_) (fun err herr => ?_) fun text htext => ?_
  · refine settles_congr ?_ ?_ (hok a ha) <;> simp [Surroundings.Panics, ha]
  · simp [Settles, Surroundings.Panics, herr, hst, answers_error]
  · simp [Settles, Surroundings.Panics, htext, hst]

/-- A handler that starts with a lookup goes on when it finds the resource. -/
theorem settles_lookupThen {kind : ResourceKind} {wrong : String}
    {next : Nat → ServerState → Turn} {p d : Nat → Prop} (hst : ∀ st', st.Stamped st' → K st')
    (hok : ∀ obj st', st.Stamped st' → (next obj st').Meets (Settles (p obj) (d obj) msg K)) :
    (st.lookupThen out msg (lookupKind kind wrong) next).Meets
      (Settles (∃ obj, lookupKind kind wrong st.reg msg = .ok obj ∧ p obj)
        (∃ obj, lookupKind kind wrong st.reg msg = .ok obj ∧ d obj) msg K) := by
  refine meets_lookupThen (fun obj st' hfind h => ?_) fun resp st' hfind h => ?_
  · refine settles_congr ?_ ?_ (hok obj st' h) <;> simp [hfind]
  · simp [Settles, hfind, (answers_of_lookupKind hfind).1, hst st' h]

/-- A check whose failure is answered with an error. -/
theorem settles_unless {bad : Prop} [Decidable bad] {code text : String} {handle : Handle}
    {e : Turn} {p d : Prop} (hst : K st) (hok : ¬ bad → e.Meets (Settles p d msg K)) :
    (if bad then st.refuse msg.id code text handle else e).Meets
      (Settles (¬ bad ∧ p) (¬ bad ∧ d) msg K) := by
  by_cases hbad : bad
  · rw [if_pos hbad]
    refine settles_congr ?_ ?_ (settles_refuse hst) <;> simp [hbad]
  · rw [if_neg hbad]
    refine settles_congr ?_ ?_ (hok hbad) <;> simp [hbad]

/-- The deferred hook, after a body that does not end the process. -/
theorem settles_deferred {e : Turn} {call : ForeignCall Unit} {p : Prop}
    (he : e.Meets (Settles p False msg K)) :
    (e.deferred (out.answer call)).Meets (Settles (p ∨ out.Panics call) False msg K) := by
  refine Exit.meets_deferred (fun hbody => ?_) fun text halive htext => ?_
  · obtain hdied | hcalm := hbody
    · unfold Exit.Meets at he
      rw [hdied] at he
      exact absurd he not_false
    · refine settles_congr ?_ Iff.rfl he
      simp [Surroundings.Panics, hcalm]
  · have hst : K e.state := by
      unfold Exit.Meets at he
      cases hresult : e.result with
      | returned resp =>
          rw [hresult] at he
          exact he.2.2
      | panicked text' =>
          rw [hresult] at he
          exact he.2
      | died => exact absurd hresult halive
    exact ⟨⟨.inr ⟨text, htext⟩, not_false⟩, hst⟩

/-! ### Requests that only look up their resource -/

/-- `pc:offer` and `pc:answer`. -/
theorem settles_createDesc (hst : ∀ st', st.Stamped st' → K st') {type : String}
    {call : Nat → ForeignCall (Except String String)} (htype : msg.type = type) :
    (handleCreateDesc out type call st msg).Meets
      (Settles (CreateDescPanics out st msg call) False msg K) := by
  refine settles_congr ?_ ?_ (settles_lookupThen hst fun pc st' h =>
    settles_attempt (hst st' h) fun _ _ => settles_ack htype (hst st' h))
  · simp [CreateDescPanics, lookupPC]
  · simp

/-- `pc:setLocalDesc` and `pc:setRemoteDesc`. -/
theorem settles_setDesc (hst : ∀ st', st.Stamped st' → K st') {type : String}
    {call : Nat → SessionDescription → ForeignCall (Except String Unit)} (htype : msg.type = type) :
    (handleSetDesc out type call st msg).Meets
      (Settles (SetDescPanics out st msg call) False msg K) := by
  refine settles_congr ?_ ?_ (settles_lookupThen hst fun pc st' h =>
    settles_unless (hst st' h) fun _ => settles_attempt (hst st' h) fun _ _ =>
      settles_after (hst st' h) fun _ _ => settles_ack htype (hst st' h))
  · simp [SetDescPanics, Surroundings.Succeeds, lookupPC]
  · simp

theorem settles_addIce (hst : ∀ st', st.Stamped st' → K st') (htype : msg.type = "pc:addIce") :
    (st.handlePCAddIce env out msg).Meets
      (Settles (AddIcePanics env out st msg) False msg K) := by
  refine settles_congr ?_ ?_ (settles_lookupThen hst fun pc st' h =>
    settles_unless (hst st' h) fun _ => settles_attempt (hst st' h) fun _ _ =>
      settles_ack htype (hst st' h))
  · simp [AddIcePanics, lookupPC]
  · simp

theorem settles_addTransceiver (hst : ∀ st', st.Stamped st' → K st')
    (htype : msg.type = "pc:addTransceiver") :
    (st.handlePCAddTransceiver out msg).Meets
      (Settles (AddTransceiverPanics out st msg) False msg K) := by
  refine settles_congr ?_ ?_ (settles_lookupThen (d := fun _ => False)
    (p := fun pc => ∃ kind direction,
      out.newRTPCodecType (out.sprint (msg.data.get "kind")) = some kind ∧
      out.newRTPTransceiverDirection (out.sprint (msg.data.get "direction")) = some direction ∧
      (out.Panics (.addTransceiverFromKind pc kind direction) ∨
        out.Succeeds (.addTransceiverFromKind pc kind direction) ∧
          out.Panics (.transceivers pc))) hst fun pc st' h => ?_)
  · simp [AddTransceiverPanics, lookupPC]
  · simp
  -- Without a kind or a direction the request is refused.
  have hK := hst st' h
  cases hkind : out.newRTPCodecType (out.sprint (msg.data.get "kind")) with
  | none => exact settles_congr (by simp) Iff.rfl (settles_refuse hK)
  | some kind =>
      cases hdirection :
          out.newRTPTransceiverDirection (out.sprint (msg.data.get "direction")) with
      | none => exact settles_congr (by simp) Iff.rfl (settles_refuse hK)
      | some direction =>
          refine settles_congr ?_ ?_ (settles_attempt hK fun _ _ =>
            settles_after hK fun _ _ => settles_ack htype hK)
          · simp [Surroundings.Succeeds]
          · simp

theorem settles_setThreshold (hst : ∀ st', st.Stamped st' → K st')
    (htype : msg.type = "dc:setBufferedAmountLowThreshold") :
    (st.handleDCSetBufferedAmountLowThreshold env out msg).Meets
      (Settles (SetThresholdPanics env out st msg) False msg K) := by
  refine settles_congr ?_ ?_ (settles_lookupThen (d := fun _ => False)
    (p := fun dc => ∃ threshold, env.uint64? msg.data "threshold" = some threshold ∧
      out.Panics (.setBufferedAmountLowThreshold dc threshold.toNat)) hst fun dc st' h => ?_)
  · simp [SetThresholdPanics, lookupDC]
  · simp
  have hK := hst st' h
  cases hthreshold : env.uint64? msg.data "threshold" with
  | none => exact settles_congr (by simp) Iff.rfl (settles_refuse hK)
  | some threshold =>
      refine settles_congr ?_ ?_ (settles_after hK fun _ _ => settles_ack htype hK) <;> simp

/-! ### Requests that change the state

Nothing is said about the state here. -/

/-- The rest of a handler, whatever state it leaves. -/
abbrev Settled (panics dies : Prop) (msg : Message) : Ending Message → ServerState → Prop :=
  Settles panics dies msg fun _ => True

theorem settled_init (htype : msg.type = "init") :
    (st.handleInit env msg).Meets (Settled False False msg) := by
  unfold handleInit Server.handleInit
  dsimp only
  split
  · exact ⟨⟨not_false, not_false⟩, answers_error _ _ _ _, trivial⟩
  · exact settles_ack htype trivial

theorem settled_pcCreate (htype : msg.type = "pc:create") :
    (st.handlePCCreate env out msg).Meets (Settled (PCCreatePanics env out st msg) False msg) := by
  unfold handlePCCreate
  cases hprofile : st.handler.createProfile env msg.data with
  | error err =>
      refine ⟨⟨?_, not_false⟩, answers_error _ _ _ _, trivial⟩
      simp [PCCreatePanics, hprofile]
  | ok chosen =>
      obtain ⟨profile, h⟩ := chosen
      refine settles_congr ?_ ?_ (settles_attempt trivial fun pc _ =>
        settles_after trivial fun _ _ => settles_ack htype trivial)
      · simp [PCCreatePanics, hprofile]
      · simp

theorem settled_pcClose (htype : msg.type = "pc:close") :
    (st.handlePCClose out msg).Meets (Settled (PCClosePanics out st msg) False msg) := by
  refine settles_congr ?_ ?_ (settles_lookupThen (d := fun _ => False)
    (p := fun pc => out.Panics (.close ⟨.peerConnection, pc⟩) ∨
      out.Panics (.notifyPCClosed msg.handle)) (fun _ _ => trivial) fun pc st' _ => ?_)
  · simp [PCClosePanics, lookupPC]
  · simp
  refine settles_deferred (settles_congr ?_ ?_ (settles_attempt trivial fun _ _ =>
    settles_ack htype trivial)) <;> simp

theorem settled_dcClose (htype : msg.type = "dc:close") :
    (st.handleDCClose out msg).Meets (Settled (DCClosePanics out st msg) False msg) := by
  refine settles_congr ?_ ?_ (settles_lookupThen (fun _ _ => trivial) fun dc st' _ =>
    settles_attempt trivial fun _ _ => settles_ack htype trivial)
  · simp [DCClosePanics, lookupDC]
  · simp

/-- `startDCSendGoroutine`: the three outcomes of `make`, and the calls on the channel before the
rest of the handler. -/
theorem settled_startDCSendGoroutine (panics : Prop) {dc : Nat} {dcHandle : Handle}
    {next : ServerState → Turn} (hnext : ∀ st', (next st').Meets (Settled panics False msg)) :
    (st.startDCSendGoroutine env out dc dcHandle next).Meets (Settled
      (env.makeChan st.handler.dcConfig.sendQueueDepth = .outOfRange ∨
        env.makeChan st.handler.dcConfig.sendQueueDepth = .made ∧
          ((st.reg.dcSendStates.get dcHandle = none ∧
            (out.Panics (.setBufferedAmountLowThreshold dc
              st.handler.dcConfig.bufferedAmountLowThreshold) ∨
            out.Panics (.onBufferedAmountLow dc))) ∨ panics))
      (env.makeChan st.handler.dcConfig.sendQueueDepth = .outOfMemory) msg) := by
  unfold startDCSendGoroutine
  cases hmake : env.makeChan st.handler.dcConfig.sendQueueDepth with
  | outOfRange => exact ⟨⟨.inl rfl, by simp⟩, trivial⟩
  | outOfMemory => exact rfl
  | made =>
      unfold registerDCSendState
      cases hstate : st.reg.dcSendStates.get dcHandle with
      | some state => exact settles_congr (by simp) (by simp) (hnext _)
      | none =>
          refine settles_congr ?_ ?_ (settles_after trivial fun _ _ =>
            settles_after trivial fun _ _ => hnext _)
          · simp [Surroundings.or_exists_answer, or_assoc]
          · simp

theorem settled_pcCreateDc (htype : msg.type = "pc:createDc") :
    (st.handlePCCreateDc env out msg).Meets (Settled (PCCreateDcPanics env out st msg)
      (PCCreateDcExhausts env out st msg) msg) := by
  refine settles_congr ?_ ?_ (settles_lookupThen (fun _ _ => trivial)
    (p := fun pc => (msg.data.str? "label").getD "" ≠ "" ∧
      (out.Panics (.createDataChannel pc ((msg.data.str? "label").getD "") (dcInit env msg.data)) ∨
        ∃ dc, out.answer (.createDataChannel pc ((msg.data.str? "label").getD "")
          (dcInit env msg.data)) = .ok (.ok dc) ∧
          (env.makeChan st.handler.dcConfig.sendQueueDepth = .outOfRange ∨
            env.makeChan st.handler.dcConfig.sendQueueDepth = .made ∧ ChannelPanics out st msg dc)))
    (d := fun pc => (msg.data.str? "label").getD "" ≠ "" ∧
      ∃ dc, out.answer (.createDataChannel pc ((msg.data.str? "label").getD "")
        (dcInit env msg.data)) = .ok (.ok dc) ∧
        env.makeChan st.handler.dcConfig.sendQueueDepth = .outOfMemory) fun pc st' h => ?_)
  · constructor
    · rintro (⟨pc, hpc, hlabel, hpanics⟩ | ⟨dc, ⟨pc, hpc, hlabel, hdc⟩, hpanics⟩)
      · exact ⟨pc, hpc, hlabel, .inl hpanics⟩
      · exact ⟨pc, hpc, hlabel, .inr ⟨dc, hdc, hpanics⟩⟩
    · rintro ⟨pc, hpc, hlabel, hpanics | ⟨dc, hdc, hpanics⟩⟩
      · exact .inl ⟨pc, hpc, hlabel, hpanics⟩
      · exact .inr ⟨dc, ⟨pc, hpc, hlabel, hdc⟩, hpanics⟩
  · constructor
    · rintro ⟨dc, ⟨pc, hpc, hlabel, hdc⟩, hmake⟩
      exact ⟨pc, hpc, hlabel, dc, hdc, hmake⟩
    · rintro ⟨pc, hpc, hlabel, dc, hdc, hmake⟩
      exact ⟨dc, ⟨pc, hpc, hlabel, hdc⟩, hmake⟩
  -- The lookup leaves the configuration and the send states.
  obtain ⟨reg, hreg, rfl⟩ := h
  refine settles_unless trivial fun _ => settles_attempt trivial fun dc _ =>
    settles_congr ?_ Iff.rfl (settled_startDCSendGoroutine
      (out.Panics (.setupDCCallbacks dc out.handle (st.handler.pcProfile msg.handle)) ∨
        out.Panics (.label dc)) fun st' => ?_)
  · have hstates : (reg.registerChild ⟨.dataChannel, dc⟩ msg.handle out.handle
        out.now).dcSendStates = st.reg.dcSendStates := hreg.dcSendStates
    rw [hstates]
    rfl
  · refine settles_congr ?_ ?_ (settles_after trivial fun _ _ => settles_after trivial fun _ _ =>
      settles_ack htype trivial)
    · simp [Surroundings.or_exists_answer]
    · simp

/-- The closers that `Delete` closes are those of the subtree. -/
theorem mem_shutdown_iff {r r' : Registry} {h : Handle} {removed : List Handle}
    {events : List CloseEvent} (hdeleted : r.SubtreeDeleted h removed events r') {x : Handle}
    {res : Resource} : CloseEvent.close x res ∈ events ↔
      r.Below h x ∧ r.resources.get x = some res ∧ res.isCloser = true := by
  rw [hdeleted.shutdown, List.mem_append, List.mem_filterMap, List.mem_filterMap]
  constructor
  · rintro (⟨y, -, hy⟩ | ⟨y, hmem, hy⟩)
    · obtain ⟨state, -, hstate⟩ := Option.map_eq_some_iff.mp hy
      cases hstate
    · obtain ⟨res', hres, hclose⟩ := Option.bind_eq_some_iff.mp hy
      split at hclose
      · rename_i hcloser
        cases hclose
        exact ⟨(hdeleted.subtree _).mp hmem, hres, hcloser⟩
      · cases hclose
  · rintro ⟨hbelow, hres, hcloser⟩
    exact Or.inr ⟨x, (hdeleted.subtree x).mpr hbelow, by simp [closerEvent, hres, hcloser]⟩

variable (out) in
/-- For a registered handle, `resource:delete` panics in a `Close` of the subtree or in the hook. -/
theorem deletePanics_iff {reg reg' : Registry} {res : Resource} {removed : List Handle}
    {events : List CloseEvent} (hreg : Restamped st.reg reg) (hhandle : msg.handle ≠ "")
    (hres : st.reg.resources.get msg.handle = some res)
    (hdeleted : reg.SubtreeDeleted msg.handle removed events reg') :
    DeletePanics out st msg ↔
      (∃ x closer, CloseEvent.close x closer ∈ events ∧ out.Panics (.close closer)) ∨
      (res.kind = .peerConnection ∧ out.Panics (.notifyPCClosed msg.handle)) := by
  have hclosers : (∃ x closer, CloseEvent.close x closer ∈ events ∧
      out.Panics (.close closer)) ↔ ∃ x closer, st.reg.Below msg.handle x ∧
      st.reg.resources.get x = some closer ∧ closer.isCloser = true ∧
      out.Panics (.close closer) := by
    simp only [mem_shutdown_iff hdeleted, below_restamped hreg, hreg.resources, and_assoc]
  simp [DeletePanics, hres, hhandle, hclosers]

theorem settled_afterDelete (htype : msg.type = "resource:delete") (events : List CloseEvent) :
    (st.afterDelete out msg (.ok events)).Meets (Settled
      (∃ x res, CloseEvent.close x res ∈ events ∧ out.Panics (.close res)) False msg) := by
  rw [← Surroundings.closeAll_error_iff]
  refine Exit.meets_after (fun _ hok => ?_) fun text htext => ?_
  · exact settles_congr (by simp [hok]) Iff.rfl (settles_ack htype trivial)
  · exact ⟨⟨⟨text, htext⟩, not_false⟩, trivial⟩

variable (out) in
theorem settled_resourceDelete (hi : st.reg.Inv) (htype : msg.type = "resource:delete") :
    ∃ turn, st.handleResourceDelete out msg = some turn ∧
      turn.Meets (Settled (DeletePanics out st msg) False msg) := by
  unfold handleResourceDelete
  split
  · rename_i hhandle
    refine ⟨_, rfl, settles_congr ?_ Iff.rfl (settles_refuse trivial)⟩
    simp [DeletePanics, hhandle]
  · rename_i hhandle
    have hreg := lookup_restamped st.reg msg.handle out.now
    have hfound : (st.reg.lookup msg.handle out.now).1 = st.reg.resources.get msg.handle := by
      unfold lookup
      cases st.reg.resources.get msg.handle <;> rfl
    dsimp only
    rw [hfound]
    generalize (st.reg.lookup msg.handle out.now).2 = reg at hreg ⊢
    have hdeletes := (hreg.inv hi).deletesSubtree msg.handle
    cases hres : st.reg.resources.get msg.handle with
    | none =>
        rw [hdeletes.1 (by rw [hreg.resources, hres])]
        refine ⟨_, rfl, settles_congr ?_ Iff.rfl (settles_refuse trivial)⟩
        simp [DeletePanics, hres]
    | some res =>
        obtain ⟨removed, events, reg', hdelete, hdeleted⟩ := hdeletes.2 (by
          rw [hreg.resources]
          simp [GoMap.Has, hres])
        have hpanics := deletePanics_iff out hreg hhandle hres hdeleted
        rw [hdelete]
        refine ⟨_, rfl, ?_⟩
        dsimp only
        -- The hook is deferred for a PeerConnection only.
        split
        · rename_i hpc
          refine settles_congr ?_ Iff.rfl (settles_deferred (settled_afterDelete htype events))
          simp [hpanics, show res.kind = .peerConnection by simpa using hpc]
        · rename_i hpc
          refine settles_congr ?_ Iff.rfl (settled_afterDelete htype events)
          simp [hpanics, show res.kind ≠ .peerConnection by simpa using hpc]

end

/-! ### `processFrame` -/

/-- Every request but `dc:send` is answered by its handler, or that panics or ends the process. -/
theorem settled_handleMessage (env : Platform) (out : Surroundings) {st : ServerState}
    {msg : Message} (hi : st.reg.Inv) (hsend : msg.type ≠ "dc:send") :
    ∃ turn, st.handleMessage env out msg = some turn ∧
      turn.Meets (Settled (Panics env out st msg) (Exhausts env out st msg) msg) := by
  have hany : ∀ st', st.Stamped st' → True := fun _ _ => trivial
  -- Only `pc:createDc` makes a send queue, so the other requests do not end the process.
  have hlives : ∀ {turn : Turn} {panics : Prop}, msg.type ≠ "pc:createDc" →
      (Panics env out st msg ↔ panics) → turn.Meets (Settled panics False msg) →
      turn.Meets (Settled (Panics env out st msg) (Exhausts env out st msg) msg) :=
    fun hne hpanics => settles_congr hpanics (iff_of_false (fun h => hne h.1) not_false)
  unfold handleMessage
  split
  case h_1 htype =>
      refine ⟨_, rfl, hlives (by simp [htype]) ?_ (settled_init htype)⟩
      simp only [Panics, htype]
      exact Iff.rfl
  case h_2 htype =>
      refine ⟨_, rfl, hlives (by simp [htype]) ?_ (settled_pcCreate htype)⟩
      simp only [Panics, htype]
  case h_3 htype =>
      refine ⟨_, rfl, hlives (by simp [htype]) ?_ (settles_createDesc hany htype)⟩
      simp only [Panics, htype]
  case h_4 htype =>
      refine ⟨_, rfl, hlives (by simp [htype]) ?_ (settles_createDesc hany htype)⟩
      simp only [Panics, htype]
  case h_5 htype =>
      refine ⟨_, rfl, hlives (by simp [htype]) ?_ (settles_setDesc hany htype)⟩
      simp only [Panics, htype]
  case h_6 htype =>
      refine ⟨_, rfl, hlives (by simp [htype]) ?_ (settles_setDesc hany htype)⟩
      simp only [Panics, htype]
  case h_7 htype =>
      refine ⟨_, rfl, hlives (by simp [htype]) ?_ (settles_addIce hany htype)⟩
      simp only [Panics, htype]
  case h_8 htype =>
      refine ⟨_, rfl, hlives (by simp [htype]) ?_ (settled_pcClose htype)⟩
      simp only [Panics, htype]
  case h_9 htype =>
      refine ⟨_, rfl, hlives (by simp [htype]) ?_ (settles_addTransceiver hany htype)⟩
      simp only [Panics, htype]
  case h_10 htype =>
      refine ⟨_, rfl, settles_congr ?_ ?_ (settled_pcCreateDc htype)⟩
      · simp only [Panics, htype]
      · simp [Exhausts, htype]
  case h_11 htype => exact absurd htype hsend
  case h_12 htype =>
      refine ⟨_, rfl, hlives (by simp [htype]) ?_ (settles_setThreshold hany htype)⟩
      simp only [Panics, htype]
  case h_13 htype =>
      refine ⟨_, rfl, hlives (by simp [htype]) ?_ (settled_dcClose htype)⟩
      simp only [Panics, htype]
  case h_14 htype =>
      obtain ⟨turn, hturn, hsettled⟩ := settled_resourceDelete out hi htype
      refine ⟨turn, hturn, hlives (by simp [htype]) ?_ hsettled⟩
      simp only [Panics, htype]
  case h_15 hothers =>
      -- An unknown type: the other cases are excluded by hypotheses.
      refine ⟨_, rfl, hlives (by simp_all) ?_ (settles_refuse trivial)⟩
      unfold Panics
      split <;> simp_all

/-- `Touch` ends, and it changes stamps only. -/
theorem touch_stamped (out : Surroundings) {st : ServerState} (msg : Message) (hi : st.reg.Inv) :
    ∃ st', st.touch out msg = some st' ∧ st.Stamped st' := by
  unfold touch
  split
  · exact ⟨st, rfl, st.reg, Restamped.refl _, rfl⟩
  · obtain ⟨reg, htouch, hreg, -⟩ := touch_spec hi msg.handle out.clock
    exact ⟨_, by rw [htouch]; rfl, reg, hreg, rfl⟩

/-- What is sent for the end of a handler that has answered. -/
theorem finish_returned {turn : Turn} {msg resp : Message} (hresult : turn.result = .returned resp)
    (hanswers : Answers msg resp) : finish turn = .sent [resp] turn.state := by
  have htype : resp.type ≠ "" := by
    rcases hanswers.type with h | h
    · intro hempty
      have hlength := congrArg String.length (h.symm.trans hempty)
      simp at hlength
    · rw [h]
      decide
  simp [finish, Exit.recover, hresult, htype]

/-- What is sent for the end of a handler that has panicked. -/
theorem finish_panicked {turn : Turn} {text : String} (hresult : turn.result = .panicked text) :
    finish turn = .sent [errorResponse 0 "FATAL_PANIC" text true ""] turn.state := by
  simp [finish, Exit.recover, hresult, errorResponse]

/-- Nothing is sent when the process is gone. -/
theorem finish_died {turn : Turn} (hresult : turn.result = .died) : finish turn = .died := by
  simp [finish, Exit.recover, hresult]

/-- The end of `processFrame` for a handler that settles. -/
theorem finish_of_settled {turn : Turn} {msg : Message} {panics dies : Prop}
    (h : turn.Meets (Settled panics dies msg)) :
    dies ∧ finish turn = .died ∨
    ¬ dies ∧ ∃ resp st', finish turn = .sent [resp] st' ∧
      (resp.type = msg.type ++ ":ack" ∨ resp.type = "error") ∧
      (resp.id = msg.id ↔ msg.id = 0 ∨ ¬ panics) := by
  unfold Exit.Meets at h
  cases hresult : turn.result with
  | returned resp =>
      rw [hresult] at h
      obtain ⟨⟨hpanics, hdies⟩, hanswers, -⟩ := h
      exact .inr ⟨hdies, resp, turn.state, finish_returned hresult hanswers, hanswers.type,
        by simp [hanswers.id, hpanics]⟩
  | panicked text =>
      rw [hresult] at h
      obtain ⟨⟨hpanics, hdies⟩, -⟩ := h
      refine .inr ⟨hdies, _, turn.state, finish_panicked hresult, Or.inr rfl, ?_⟩
      -- The id of the response is 0.
      simpa [errorResponse, hpanics] using eq_comm
  | died =>
      rw [hresult] at h
      exact .inl ⟨h, finish_died hresult⟩

/-- In every reachable registry and for every handler, a request other than `dc:send` gets exactly
one response under its id, its ack or an error, if and only if the handler does not end the process,
and does not panic or the id is 0. Exactly one response is sent, under some id, whenever the process
lives on. -/
theorem frame_answered_iff (env : Platform) (out : Surroundings) (w : CallWorld)
    (hw : callSystem.Reachable w) (h : Handler) (tracing : Bool) (msg : Message)
    (hsend : msg.type ≠ "dc:send") :
    ((∃ resp st', processFrame env out ⟨w.reg, h, tracing⟩ (.ok msg) = some (.sent [resp] st') ∧
        (resp.type = msg.type ++ ":ack" ∨ resp.type = "error") ∧ resp.id = msg.id) ↔
      ¬ Exhausts env out ⟨w.reg, h, tracing⟩ msg ∧
        (msg.id = 0 ∨ ¬ Panics env out ⟨w.reg, h, tracing⟩ msg)) ∧
    (¬ Exhausts env out ⟨w.reg, h, tracing⟩ msg → ∃ resp st',
      processFrame env out ⟨w.reg, h, tracing⟩ (.ok msg) = some (.sent [resp] st') ∧
        (resp.type = msg.type ++ ":ack" ∨ resp.type = "error")) ∧
    (Exhausts env out ⟨w.reg, h, tracing⟩ msg →
      processFrame env out ⟨w.reg, h, tracing⟩ (.ok msg) = some .died) := by
  have hi : w.reg.Inv := (callInv_of_reachable hw).world.reg
  obtain ⟨st₁, htouch, hstamped⟩ :=
    touch_stamped out msg (show (ServerState.mk w.reg h tracing).reg.Inv from hi)
  have hi₁ : st₁.reg.Inv := by
    obtain ⟨reg, hreg, rfl⟩ := hstamped
    exact hreg.inv hi
  obtain ⟨turn, hturn, hsettled⟩ := settled_handleMessage env out hi₁ hsend
  have hrun : processFrame env out ⟨w.reg, h, tracing⟩ (.ok msg) = some (finish turn) := by
    simp [processFrame, htouch, hturn]
  obtain ⟨hpanics, hdies⟩ := panics_stamped env out msg hstamped
  rw [hrun, ← hpanics, ← hdies]
  obtain ⟨hdied, hfinish⟩ | ⟨hlives, resp, st', hfinish, htype, hid⟩ := finish_of_settled hsettled
  · rw [hfinish]
    exact ⟨iff_of_false (by simp) fun h => h.1 hdied, fun h => absurd hdied h, fun _ => rfl⟩
  · rw [hfinish]
    refine ⟨?_, fun _ => ⟨resp, st', rfl, htype⟩, fun h => absurd h hlives⟩
    rw [← hid]
    constructor
    · rintro ⟨resp', st'', heq, -, hid'⟩
      cases heq
      exact ⟨hlives, hid'⟩
    · rintro ⟨-, hid'⟩
      exact ⟨resp, st', rfl, htype, hid'⟩

/-- When no call out of the bridge panics and there is room for the send queue, no handler panics or
ends the process. -/
theorem not_panics_of_calm {env : Platform} {out : Surroundings} (st : ServerState) (msg : Message)
    (hcalm : out.Calm) (hmake : env.makeChan st.handler.dcConfig.sendQueueDepth = .made) :
    ¬ Panics env out st msg ∧ ¬ Exhausts env out st msg := by
  have hnone : ∀ {α : Type} (call : ForeignCall α), ¬ out.Panics call := hcalm
  constructor
  · unfold Panics
    split <;> simp [PCCreatePanics, CreateDescPanics, SetDescPanics, AddIcePanics, PCClosePanics,
      AddTransceiverPanics, PCCreateDcPanics, ChannelPanics, SetThresholdPanics, DCClosePanics,
      DeletePanics, hnone, hmake]
  · simp [Exhausts, PCCreateDcExhausts, hmake]

end ServerState

/-- Surroundings in which no call fails. -/
def plainSurroundings (handle : Handle) : Surroundings where
  answer := fun
    | .newPeerConnection _ _ => .ok (.ok 0)
    | .setupPCCallbacks _ _ => .ok ()
    | .createOffer _ => .ok (.ok "")
    | .createAnswer _ => .ok (.ok "")
    | .setLocalDescription _ _ => .ok (.ok ())
    | .setRemoteDescription _ _ => .ok (.ok ())
    | .signalingState _ => .ok "stable"
    | .addICECandidate _ _ => .ok (.ok ())
    | .addTransceiverFromKind _ _ _ => .ok (.ok ())
    | .transceivers _ => .ok 1
    | .createDataChannel _ _ _ => .ok (.ok 0)
    | .setBufferedAmountLowThreshold _ _ => .ok ()
    | .onBufferedAmountLow _ => .ok ()
    | .setupDCCallbacks _ _ _ => .ok ()
    | .label _ => .ok "x"
    | .close _ => .ok (.ok ())
    | .notifyPCClosed _ => .ok ()
  sprint
    | some (.str s) => s
    | _ => ""
  newRTPCodecType
    | "audio" => some .audio
    | "video" => some .video
    | _ => none
  newRTPTransceiverDirection
    | "sendrecv" => some .sendrecv
    | "sendonly" => some .sendonly
    | "recvonly" => some .recvonly
    | "inactive" => some .inactive
    | _ => none
  handle := handle
  state := 0
  now := 0
  clock _ := 0

theorem plainSurroundings_calm (handle : Handle) : (plainSurroundings handle).Calm := by
  rintro α call ⟨text, htext⟩
  cases call <;> cases htext

open ServerState

/-- A PeerConnection is created in a new bridge, and the response has the id of the request. -/
theorem frame_answered_iff_create :
    ∃ resp st', processFrame plainPlatform (plainSurroundings "pc")
        ⟨callSystem.init.reg, newHandler, false⟩ (.ok ⟨"pc:create", 7, "", []⟩)
        = some (.sent [resp] st') ∧ resp.id = 7 := by
  obtain ⟨hpanics, hlives⟩ := not_panics_of_calm ⟨callSystem.init.reg, newHandler, false⟩
    ⟨"pc:create", 7, "", []⟩ (plainSurroundings_calm "pc")
    (show plainPlatform.makeChan 32 = .made from rfl)
  obtain ⟨resp, st', hrun, -, hid⟩ := (frame_answered_iff plainPlatform
    (plainSurroundings "pc") callSystem.init .refl newHandler false ⟨"pc:create", 7, "", []⟩
    (by decide)).1.mpr ⟨hlives, Or.inr hpanics⟩
  exact ⟨resp, st', hrun, hid⟩

/-- A platform that has memory for a channel of `2 ^ 20` items, and refuses more than `2 ^ 48`. -/
def boundedPlatform : Platform :=
  { plainPlatform with
    makeChan := fun n =>
      if n < 0 ∨ 2 ^ 48 < n then .outOfRange else if n ≤ 2 ^ 20 then .made else .outOfMemory }

/-- A frame on this platform, with the handle that would be generated. -/
abbrev boundedFrame (handle : Handle) (st : ServerState) (msg : Message) : Option FrameEnd :=
  processFrame boundedPlatform (plainSurroundings handle) st (.ok msg)

/-- An `init` with a queue depth. -/
def depthInit (depth : Int) : Message :=
  ⟨"init", 1, "", [("dc_config", .map [("send_queue_depth", .int .int64 depth)])]⟩

/-- An `init` that asks for a long queue is acknowledged, and so is a `pc:create`. The first request
for a DataChannel, with the id 3, then panics and is answered under the id 0 if the depth is
`2 ^ 60`. If it is `2 ^ 40`, the process ends without a response. -/
theorem long_queue_unanswered :
    (∃ st₁ st₂ st₃ ack₁ ack₂ resp,
      boundedFrame "" ⟨Registry.new, newHandler, false⟩ (depthInit (2 ^ 60))
        = some (.sent [ack₁] st₁) ∧ ack₁.type = "init:ack" ∧
      boundedFrame "pc" st₁ ⟨"pc:create", 2, "", []⟩ = some (.sent [ack₂] st₂) ∧
      ack₂.type = "pc:create:ack" ∧
      boundedFrame "dc" st₂ ⟨"pc:createDc", 3, "pc", [("label", .str "x")]⟩
        = some (.sent [resp] st₃) ∧ resp.type = "error" ∧ resp.id = 0) ∧
    ∃ st₁ st₂ ack₁ ack₂,
      boundedFrame "" ⟨Registry.new, newHandler, false⟩ (depthInit (2 ^ 40))
        = some (.sent [ack₁] st₁) ∧ ack₁.type = "init:ack" ∧
      boundedFrame "pc" st₁ ⟨"pc:create", 2, "", []⟩ = some (.sent [ack₂] st₂) ∧
      ack₂.type = "pc:create:ack" ∧
      boundedFrame "dc" st₂ ⟨"pc:createDc", 3, "pc", [("label", .str "x")]⟩ = some .died := by
  constructor
  · exact ⟨_, _, _, _, _, _, rfl, rfl, rfl, rfl, rfl, rfl, rfl⟩
  · exact ⟨_, _, _, _, rfl, rfl, rfl, rfl, rfl⟩

end PionBridge.Server
