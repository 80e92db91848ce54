import PionBridge.Proofs.Process.Answers

/-!
# `PionBridge.Proofs.Process.Refusals`: what a refused request leaves behind

A request is refused when its response is an error, a recovered panic included. `Kept` says that
everything that clients can see afterwards is as it was: the maps of the registry other than the
stamps, the configuration and the profiles of the session, and the tracing flag. The cache of built
profiles is not part of it.

Six handlers change something before their last step that can fail. `RefusedLate` says for each of
them, in terms of the state before the request, of the message and of the answers from outside, that
the change is made and a later step fails. `refused_changes_nothing_iff` shows that these are all
the cases in which a refused request does not leave everything as it was.

The proofs separate the two halves. `Finishes fails K` says of the rest of a handler that it is
refused exactly when `fails` holds, and that it stays in states in `K`, unless it ends the process.
Whether the states in `K` are changed ones is then a fact about the state alone.
-/

set_option autoImplicit false

namespace PionBridge.Server

open PionBridge.Lib Registry

/-- The call returns an error or panics. -/
def Surroundings.Fails (out : Surroundings) {α : Type}
    (call : ForeignCall (Except String α)) : Prop :=
  out.Panics call ∨ ∃ err, out.answer call = .ok (.error err)

namespace ServerState

/-- Everything that a refused request has to leave as it was. -/
structure Kept (st st' : ServerState) : Prop where
  resources : st'.reg.resources = st.reg.resources
  parent : st'.reg.parent = st.reg.parent
  children : st'.reg.children = st.reg.children
  dcSendStates : st'.reg.dcSendStates = st.reg.dcSendStates
  dcConfig : st'.handler.dcConfig = st.handler.dcConfig
  defaultProfile : st'.handler.defaultProfile = st.handler.defaultProfile
  defaultSE : st'.handler.defaultSE = st.handler.defaultSE
  defaultME : st'.handler.defaultME = st.handler.defaultME
  pcProfiles : st'.handler.pcProfiles = st.handler.pcProfiles
  tracing : st'.tracing = st.tracing

theorem Stamped.kept {st st' : ServerState} (h : st.Stamped st') : st.Kept st' := by
  obtain ⟨reg, hreg, rfl⟩ := h
  exact ⟨hreg.resources, hreg.parent, hreg.children, hreg.dcSendStates, rfl, rfl, rfl, rfl, rfl,
    rfl⟩

/-- What is kept from a state is kept from one that has kept everything. -/
theorem Kept.iff_of_kept {st st₁ st' : ServerState} (h : st.Kept st₁) :
    st.Kept st' ↔ st₁.Kept st' := by
  constructor
  · intro h'
    exact ⟨h'.resources.trans h.resources.symm, h'.parent.trans h.parent.symm,
      h'.children.trans h.children.symm, h'.dcSendStates.trans h.dcSendStates.symm,
      h'.dcConfig.trans h.dcConfig.symm, h'.defaultProfile.trans h.defaultProfile.symm,
      h'.defaultSE.trans h.defaultSE.symm, h'.defaultME.trans h.defaultME.symm,
      h'.pcProfiles.trans h.pcProfiles.symm, h'.tracing.trans h.tracing.symm⟩
  · intro h'
    exact ⟨h'.resources.trans h.resources, h'.parent.trans h.parent,
      h'.children.trans h.children, h'.dcSendStates.trans h.dcSendStates,
      h'.dcConfig.trans h.dcConfig, h'.defaultProfile.trans h.defaultProfile,
      h'.defaultSE.trans h.defaultSE, h'.defaultME.trans h.defaultME,
      h'.pcProfiles.trans h.pcProfiles, h'.tracing.trans h.tracing⟩

/-! ### The requests that fail after a change -/

section

variable (env : Platform) (out : Surroundings) (st : ServerState) (msg : Message)

/-- `init` has set the tracing flag or the configuration of the channels when the profile cannot be
built. -/
def InitLate : Prop :=
  (∃ err, buildProfile env (msg.data.map? "settings_engine") (msg.data.map? "media_engine")
    = .error err) ∧
  (asksForTracing msg.data = true ∧ st.tracing = false ∨
    applyDCConfig env st.handler.dcConfig msg.data ≠ st.handler.dcConfig)

/-- `pc:create` has registered the PeerConnection when the setting of its callbacks panics. -/
def PCCreateLate : Prop :=
  ∃ profile h pc, st.handler.createProfile env msg.data = .ok (profile, h) ∧
    out.answer (.newPeerConnection profile (pcConfiguration msg.data)) = .ok (.ok pc) ∧
    out.Panics (.setupPCCallbacks pc out.handle)

/-- `pc:createDc` has registered the DataChannel when `make` panics on the length of its send queue,
or when one of the calls on the channel panics. -/
def PCCreateDcLate : Prop :=
  ∃ dc, MakesChannel env out st msg dc ∧
    (env.makeChan st.handler.dcConfig.sendQueueDepth = .outOfRange ∨ ChannelPanics out st msg dc)

/-- `pc:close` has forgotten the profile of the PeerConnection when `Close` or the hook fails. -/
def PCCloseLate : Prop :=
  ∃ pc, lookupPC st.reg msg = .ok pc ∧ st.handler.pcProfiles.Has msg.handle ∧
    (out.Fails (.close ⟨.peerConnection, pc⟩) ∨ out.Panics (.notifyPCClosed msg.handle))

/-- `dc:close` has removed the send state when `Close` fails. -/
def DCCloseLate : Prop :=
  ∃ dc, lookupDC st.reg msg = .ok dc ∧ st.reg.dcSendStates.Has msg.handle ∧
    out.Fails (.close ⟨.dataChannel, dc⟩)

/-- `resource:delete` has forgotten a profile when the handle is not registered. It has removed the
subtree of the handle when a `Close` in it panics, or when the hook does. -/
def DeleteLate : Prop :=
  msg.handle ≠ "" ∧
  match st.reg.resources.get msg.handle with
  | none => st.handler.pcProfiles.Has msg.handle
  | some res =>
    (∃ x closer, st.reg.Below msg.handle x ∧ st.reg.resources.get x = some closer ∧
      closer.isCloser = true ∧ out.Panics (.close closer)) ∨
    (res.kind = .peerConnection ∧ out.Panics (.notifyPCClosed msg.handle))

/-- The request changes something and fails after that. -/
def RefusedLate : Prop :=
  match msg.type with
  | "init" => InitLate env st msg
  | "pc:create" => PCCreateLate env out st msg
  | "pc:createDc" => PCCreateDcLate env out st msg
  | "pc:close" => PCCloseLate out st msg
  | "dc:close" => DCCloseLate out st msg
  | "resource:delete" => DeleteLate out st msg
  | _ => False

end

/-- The stamps do not matter for it. -/
theorem refusedLate_stamped {env : Platform} {out : Surroundings} {st st' : ServerState}
    {msg : Message} (h : st.Stamped st') :
    RefusedLate env out st' msg ↔ RefusedLate env out st msg := by
  obtain ⟨reg, hreg, rfl⟩ := h
  have hpc : lookupPC reg msg = lookupPC st.reg msg := lookupKind_restamped hreg _ _ _
  have hdc : lookupDC reg msg = lookupDC st.reg msg := lookupKind_restamped hreg _ _ _
  simp only [RefusedLate, InitLate, PCCreateLate, PCCreateDcLate, MakesChannel, ChannelPanics,
    PCCloseLate, DCCloseLate, DeleteLate, hpc, hdc, below_restamped hreg, hreg.resources,
    hreg.dcSendStates]

/-! ### Verdicts -/

/-- The handler ends in an error response, or it panics. -/
def Refused : Ending Message → Prop
  | .returned resp => resp.type = "error"
  | .panicked _ => True
  | .died => False

/-- The handler ends in an ack. -/
def Acked (r : Ending Message) : Prop :=
  ∃ type id handle data, r = .returned (ackResponse type id handle data)

/-- A request is acknowledged, or everything is kept, or it is refused after a change. Nothing is
said when the process is gone. -/
inductive Verdict (late : Prop) (st : ServerState) (r : Ending Message)
    (st' : ServerState) : Prop
  | accepted (hr : Acked r) (hlate : ¬ late)
  | clean (hkept : st.Kept st') (hlate : ¬ late)
  | late (hr : Refused r) (hchanged : ¬ st.Kept st') (hlate : late)
  | died (hr : r = .died)

/-- The rest of a handler ends the process, or it is refused exactly when `fails` holds and stays in
states in `K`. -/
def Finishes (fails : Prop) (K : ServerState → Prop) (r : Ending Message)
    (st : ServerState) : Prop :=
  r = .died ∨ ((Refused r ∧ fails) ∨ (Acked r ∧ ¬ fails)) ∧ K st

section

variable {env : Platform} {out : Surroundings} {st : ServerState} {msg : Message}
  {K : ServerState → Prop} {fails : Prop}

theorem finishes_ack {type : String} {id : Int} {handle : Handle} {data : Data} (hK : K st) :
    Exit.Meets (.ret st (ackResponse type id handle data)) (Finishes False K) :=
  .inr ⟨.inr ⟨⟨type, id, handle, data, rfl⟩, not_false⟩, hK⟩

theorem finishes_refuse {id : Int} {code text : String} {handle : Handle} (hK : K st) :
    (st.refuse id code text handle).Meets (Finishes True K) :=
  .inr ⟨.inl ⟨rfl, trivial⟩, hK⟩

theorem finishes_congr {fails' : Prop} {e : Turn} (h : fails' ↔ fails)
    (he : e.Meets (Finishes fails K)) : e.Meets (Finishes fails' K) := by
  rwa [propext h]

/-- What fails in the rest is refused at the end, and a panic before it is refused too. -/
theorem finishes_after {α : Type} {call : ForeignCall α} {next : α → Turn} (hK : K st)
    (hnext : ∀ a, (next a).Meets (Finishes fails K)) :
    (Exit.after st (out.answer call) next).Meets (Finishes (out.Panics call ∨ fails) K) := by
  refine Exit.meets_after (fun a ha => ?_) fun text htext => ?_
  · refine finishes_congr ?_ (hnext a)
    simp [Surroundings.Panics, ha]
  · exact .inr ⟨.inl ⟨trivial, .inl ⟨text, htext⟩⟩, hK⟩

theorem finishes_attempt {α : Type} {call : ForeignCall (Except String α)} {id : Int}
    {handle : Handle} {next : α → Turn} (hK : K st)
    (hnext : ∀ a, (next a).Meets (Finishes False K)) :
    (st.attempt id handle (out.answer call) next).Meets (Finishes (out.Fails call) K) := by
  refine meets_attempt (fun a ha => ?_) (fun err herr => ?_) fun text htext => ?_
  · refine finishes_congr ?_ (hnext a)
    simp [Surroundings.Fails, Surroundings.Panics, ha]
  · exact .inr ⟨.inl ⟨rfl, .inr ⟨err, herr⟩⟩, hK⟩
  · exact .inr ⟨.inl ⟨trivial, .inl ⟨text, htext⟩⟩, hK⟩

theorem finishes_deferred {e : Turn} {call : ForeignCall Unit} (he : e.Meets (Finishes fails K)) :
    (e.deferred (out.answer call)).Meets (Finishes (fails ∨ out.Panics call) K) := by
  refine Exit.meets_deferred (fun hbody => ?_) fun text halive htext => ?_
  · obtain hdied | hcalm := hbody
    · exact .inl hdied
    · refine finishes_congr ?_ he
      simp [Surroundings.Panics, hcalm]
  · obtain hdied | ⟨-, hK⟩ := he
    · exact absurd hdied halive
    · exact .inr ⟨.inl ⟨trivial, .inr ⟨text, htext⟩⟩, hK⟩

/-- A request is late exactly when something has changed and the rest fails. -/
theorem verdict_of_finishes (changed : Prop) {late : Prop} {st₀ : ServerState} {e : Turn}
    (hlate : late ↔ changed ∧ fails) (hK : ∀ st', K st' → (st₀.Kept st' ↔ ¬ changed))
    (he : e.Meets (Finishes fails K)) : e.Meets (Verdict late st₀) := by
  obtain hdied | ⟨hend, hstate⟩ := he
  · exact .died hdied
  have hkept := hK e.state hstate
  rcases hend with ⟨hrefused, hfails⟩ | ⟨hacked, hfine⟩
  · by_cases hchanged : changed
    · exact .late hrefused (fun h => hkept.mp h hchanged) (hlate.mpr ⟨hchanged, hfails⟩)
    · exact .clean (hkept.mpr hchanged) fun h => hchanged (hlate.mp h).1
  · exact .accepted hacked fun h => hfine (hlate.mp h).2

/-! ### The handlers -/

theorem verdict_init : (st.handleInit env msg).Meets (Verdict (InitLate env st msg) st) := by
  have hstate : (st.handleInit env msg).state.handler.dcConfig
      = applyDCConfig env st.handler.dcConfig msg.data ∧
      (st.handleInit env msg).state.tracing = (st.tracing || asksForTracing msg.data) := by
    unfold handleInit Server.handleInit
    dsimp only
    split <;> exact ⟨rfl, rfl⟩
  unfold handleInit Server.handleInit at hstate ⊢
  dsimp only at hstate ⊢
  cases hbuild : buildProfile env (msg.data.map? "settings_engine")
      (msg.data.map? "media_engine") with
  | ok profile =>
      refine .accepted ⟨_, _, _, _, rfl⟩ ?_
      rintro ⟨⟨err, herr⟩, -⟩
      cases hbuild.symm.trans herr
  | error err =>
      rw [hbuild] at hstate
      by_cases hchange : asksForTracing msg.data = true ∧ st.tracing = false ∨
          applyDCConfig env st.handler.dcConfig msg.data ≠ st.handler.dcConfig
      · refine .late rfl ?_ ⟨⟨err, hbuild⟩, hchange⟩
        intro hkept
        rcases hchange with ⟨hasks, hoff⟩ | hconfig
        · have htracing := hkept.tracing
          rw [hstate.2, hasks, hoff] at htracing
          cases htracing
        · exact hconfig (hstate.1.symm.trans hkept.dcConfig)
      · refine .clean ?_ fun h => hchange h.2
        obtain ⟨htracing, hconfig⟩ := not_or.mp hchange
        refine ⟨rfl, rfl, rfl, rfl, hstate.1.trans (not_not.mp hconfig), rfl, rfl, rfl, rfl, ?_⟩
        refine hstate.2.trans ?_
        cases hon : st.tracing with
        | true => rfl
        | false =>
            cases hasks : asksForTracing msg.data with
            | false => rfl
            | true => exact absurd ⟨hasks, hon⟩ htracing

/-- A state in which the new handle is registered. -/
theorem not_kept_of_registered {st' : ServerState} {handle : Handle}
    (hfresh : st.reg.resources.get handle = none) (h : st'.reg.resources.Has handle) :
    ¬ st.Kept st' := by
  intro hkept
  rw [hkept.resources] at h
  exact h hfresh

theorem verdict_pcCreate (hfresh : st.reg.resources.get out.handle = none) :
    (st.handlePCCreate env out msg).Meets (Verdict (PCCreateLate env out st msg) st) := by
  unfold handlePCCreate
  cases hprofile : st.handler.createProfile env msg.data with
  | error err =>
      refine .clean ⟨rfl, rfl, rfl, rfl, rfl, rfl, rfl, rfl, rfl, rfl⟩ ?_
      rintro ⟨profile, h, pc, hok, -⟩
      cases hprofile.symm.trans hok
  | ok chosen =>
      obtain ⟨profile, h⟩ := chosen
      -- The cache is all that has changed up to `NewPeerConnection`.
      have hkept : st.Kept { st with handler := h } := by
        have hh := Bridge.createProfile_keeps hprofile
        exact ⟨rfl, rfl, rfl, rfl, by rw [hh], by rw [hh], by rw [hh], by rw [hh], by rw [hh], rfl⟩
      have hlate : PCCreateLate env out st msg ↔ ∃ pc,
          out.answer (.newPeerConnection profile (pcConfiguration msg.data)) = .ok (.ok pc) ∧
          out.Panics (.setupPCCallbacks pc out.handle) := by
        simp [PCCreateLate, hprofile]
      refine meets_attempt (fun pc hpc => ?_) (fun err herr => ?_) fun text htext => ?_
      · have hregistered : (st.reg.register ⟨.peerConnection, pc⟩ out.handle
            out.now).resources.Has out.handle := by
          simp [register, newStampLocked, GoMap.Has]
        refine verdict_of_finishes True ?_ (fun st' h => ?_)
          (finishes_after (K := fun st' => st'.reg.resources.Has out.handle) hregistered fun _ =>
            finishes_ack hregistered)
        · rw [hlate]
          simp [hpc]
        · simp [not_kept_of_registered hfresh h]
      · refine .clean hkept ?_
        rw [hlate]
        rintro ⟨pc, hpc, -⟩
        cases herr.symm.trans hpc
      · refine .clean hkept ?_
        rw [hlate]
        rintro ⟨pc, hpc, -⟩
        cases htext.symm.trans hpc

theorem finishes_startDCSendGoroutine {dc : Nat} {dcHandle : Handle} {next : ServerState → Turn}
    (hK : ∀ states, K { st with reg := { st.reg with dcSendStates := states } })
    (hnext : ∀ states,
      (next { st with reg := { st.reg with dcSendStates := states } }).Meets (Finishes fails K)) :
    (st.startDCSendGoroutine env out dc dcHandle next).Meets (Finishes
      (env.makeChan st.handler.dcConfig.sendQueueDepth = .outOfRange ∨
        (st.reg.dcSendStates.get dcHandle = none ∧
          (out.Panics (.setBufferedAmountLowThreshold dc
            st.handler.dcConfig.bufferedAmountLowThreshold) ∨
          out.Panics (.onBufferedAmountLow dc))) ∨ fails) K) := by
  unfold startDCSendGoroutine
  cases hmake : env.makeChan st.handler.dcConfig.sendQueueDepth with
  | outOfRange => exact .inr ⟨.inl ⟨trivial, .inl rfl⟩, hK st.reg.dcSendStates⟩
  | outOfMemory => exact .inl rfl
  | made =>
      unfold registerDCSendState
      cases hstate : st.reg.dcSendStates.get dcHandle with
      | some state =>
          refine finishes_congr ?_ (hnext st.reg.dcSendStates)
          simp
      | none =>
          refine finishes_congr ?_ (finishes_after (hK _) fun _ =>
            finishes_after (hK (st.reg.dcSendStates.set dcHandle out.state)) fun _ => hnext _)
          simp [or_assoc]

theorem verdict_pcCreateDc (hfresh : st.reg.resources.get out.handle = none) :
    (st.handlePCCreateDc env out msg).Meets (Verdict (PCCreateDcLate env out st msg) st) := by
  refine meets_lookupThen (fun pc st' hlookup hst => ?_) fun resp st' hlookup hst => ?_
  · have hlookup : lookupPC st.reg msg = .ok pc := hlookup
    obtain ⟨reg, hreg, rfl⟩ := hst
    dsimp only
    split
    · rename_i hlabel
      refine .clean (Stamped.kept ⟨reg, hreg, rfl⟩) ?_
      rintro ⟨_, ⟨_, -, hlabel', -⟩, -⟩
      exact hlabel' hlabel
    · rename_i hlabel
      have hkept : st.Kept { st with reg := reg } := Stamped.kept ⟨reg, hreg, rfl⟩
      refine meets_attempt (fun dc hdc => ?_) (fun err herr => ?_) fun text htext => ?_
      · have hregistered : ∀ states, ({ reg.registerChild ⟨.dataChannel, dc⟩ msg.handle out.handle
            out.now with dcSendStates := states } : Registry).resources.Has out.handle := by
          intro states
          simp [registerChild, newStampLocked, GoMap.Has]
        refine verdict_of_finishes True ?_ (fun st' h => ?_)
          (finishes_startDCSendGoroutine (K := fun st' => st'.reg.resources.Has out.handle)
            hregistered fun states => finishes_after (hregistered states) fun _ =>
              finishes_after (hregistered states) fun _ => finishes_ack (hregistered states))
        · -- `RegisterChild` leaves the send states.
          have hstates : (reg.registerChild ⟨.dataChannel, dc⟩ msg.handle out.handle
              out.now).dcSendStates = st.reg.dcSendStates := hreg.dcSendStates
          rw [hstates, or_false, true_and]
          constructor
          · rintro ⟨dc', ⟨pc', hpc', -, hdc'⟩, hfails⟩
            cases hlookup.symm.trans hpc'
            cases hdc.symm.trans hdc'
            exact hfails
          · exact fun hfails => ⟨dc, ⟨pc, hlookup, hlabel, hdc⟩, hfails⟩
        · simp [not_kept_of_registered hfresh h]
      · refine .clean hkept ?_
        rintro ⟨dc', ⟨pc', hpc', -, hdc'⟩, -⟩
        cases hlookup.symm.trans hpc'
        cases herr.symm.trans hdc'
      · refine .clean hkept ?_
        rintro ⟨dc', ⟨pc', hpc', -, hdc'⟩, -⟩
        cases hlookup.symm.trans hpc'
        cases htext.symm.trans hdc'
  · have hlookup : lookupPC st.reg msg = .error resp := hlookup
    refine .clean hst.kept ?_
    rintro ⟨dc, ⟨pc, hpc, -⟩, -⟩
    cases hlookup.symm.trans hpc

/-- Forgetting a profile changes something exactly when there is one. -/
theorem kept_forgetPCProfile {st' : ServerState} (h : st.Stamped st') (handle : Handle) :
    st.Kept { st' with handler := st'.handler.forgetPCProfile handle } ↔
      ¬ st.handler.pcProfiles.Has handle := by
  have hkept := h.kept
  obtain ⟨reg, hreg, rfl⟩ := h
  rw [← GoMap.delete_eq_self_iff]
  exact ⟨fun hforget => hforget.pcProfiles, fun hsame => { hkept with pcProfiles := hsame }⟩

theorem verdict_pcClose :
    (st.handlePCClose out msg).Meets (Verdict (PCCloseLate out st msg) st) := by
  refine meets_lookupThen (fun pc st' hlookup hst => ?_) fun resp st' hlookup hst => ?_
  · have hlookup : lookupPC st.reg msg = .ok pc := hlookup
    refine verdict_of_finishes (st.handler.pcProfiles.Has msg.handle) ?_ (fun st'' h => ?_)
      (finishes_deferred (finishes_attempt
        (K := (· = { st' with handler := st'.handler.forgetPCProfile msg.handle })) rfl fun _ =>
          finishes_ack rfl))
    · simp [PCCloseLate, hlookup]
    · rw [h]
      exact kept_forgetPCProfile hst msg.handle
  · have hlookup : lookupPC st.reg msg = .error resp := hlookup
    refine .clean hst.kept ?_
    rintro ⟨pc, hpc, -⟩
    cases hlookup.symm.trans hpc

theorem removeDCSendState_eq (r : Registry) (handle : Handle) :
    (r.removeDCSendState handle).2 = { r with dcSendStates := r.dcSendStates.delete handle } := by
  unfold removeDCSendState
  cases hstate : r.dcSendStates.get handle with
  | some state => rfl
  | none =>
      have hsame : r.dcSendStates.delete handle = r.dcSendStates :=
        GoMap.delete_eq_self_iff.mpr (not_not.mpr hstate)
      rw [hsame]

theorem verdict_dcClose :
    (st.handleDCClose out msg).Meets (Verdict (DCCloseLate out st msg) st) := by
  refine meets_lookupThen (fun dc st' hlookup hst => ?_) fun resp st' hlookup hst => ?_
  · have hlookup : lookupDC st.reg msg = .ok dc := hlookup
    refine verdict_of_finishes (st.reg.dcSendStates.Has msg.handle) ?_ (fun st'' h => ?_)
      (finishes_attempt (K := (· = { st' with reg := (st'.reg.removeDCSendState msg.handle).2 }))
        rfl fun _ => finishes_ack rfl)
    · simp [DCCloseLate, hlookup]
    · have hkept := hst.kept
      obtain ⟨reg, hreg, rfl⟩ := hst
      rw [h, removeDCSendState_eq, ← GoMap.delete_eq_self_iff, ← hreg.dcSendStates]
      refine ⟨fun hremoved => hremoved.dcSendStates.trans hreg.dcSendStates.symm, fun hsame => ?_⟩
      exact { hkept with dcSendStates := hsame.trans hreg.dcSendStates }
  · have hlookup : lookupDC st.reg msg = .error resp := hlookup
    refine .clean hst.kept ?_
    rintro ⟨dc, hdc, -⟩
    cases hlookup.symm.trans hdc

theorem finishes_afterDelete (out : Surroundings) (msg : Message) (hK : K st)
    (events : List CloseEvent) :
    (st.afterDelete out msg (.ok events)).Meets (Finishes
      (∃ x res, CloseEvent.close x res ∈ events ∧ out.Panics (.close res)) K) := by
  rw [← Surroundings.closeAll_error_iff]
  refine Exit.meets_after (fun _ hok => ?_) fun text htext => ?_
  · refine finishes_congr ?_ (finishes_ack hK)
    simp [hok]
  · exact .inr ⟨.inl ⟨trivial, text, htext⟩, hK⟩

variable (out) in
/-- With a registered handle, a late refusal is a panic. -/
theorem deleteLate_iff {res : Resource} (hres : st.reg.resources.get msg.handle = some res) :
    DeleteLate out st msg ↔ DeletePanics out st msg := by
  simp [DeleteLate, DeletePanics, hres]

/-- After `Delete` the handle itself is gone. -/
theorem not_kept_of_deleted {reg reg' : Registry} {res : Resource} {removed : List Handle}
    {events : List CloseEvent} {st' : ServerState}
    (hres : st.reg.resources.get msg.handle = some res)
    (hdeleted : reg.SubtreeDeleted msg.handle removed events reg') (hst' : st'.reg = reg') :
    ¬ st.Kept st' := by
  intro hkept
  have hroot := (hdeleted.gone msg.handle
    ((hdeleted.subtree _).mpr Relation.ReflTransGen.refl)).1
  rw [← hst', hkept.resources, hres] at hroot
  cases hroot

theorem verdict_resourceDelete (hi : st.reg.Inv) :
    ∃ turn, st.handleResourceDelete out msg = some turn ∧
      turn.Meets (Verdict (DeleteLate out st msg) st) := by
  have hkept : st.Kept st := Stamped.kept ⟨st.reg, Restamped.refl _, rfl⟩
  unfold handleResourceDelete
  split
  · rename_i hhandle
    exact ⟨_, rfl, .clean hkept fun hlate => hlate.1 hhandle⟩
  · rename_i hhandle
    have hreg := lookup_restamped st.reg msg.handle out.now
    have hstamped : st.Stamped { st with reg := (st.reg.lookup msg.handle out.now).2 } :=
      ⟨_, hreg, rfl⟩
    have hfound : (st.reg.lookup msg.handle out.now).1 = st.reg.resources.get msg.handle := by
      unfold lookup
      cases st.reg.resources.get msg.handle <;> rfl
    dsimp only
    rw [hfound]
    generalize (st.reg.lookup msg.handle out.now).2 = reg at hreg hstamped ⊢
    have hdeletes := (hreg.inv hi).deletesSubtree msg.handle
    cases hres : st.reg.resources.get msg.handle with
    | none =>
        have hlate : DeleteLate out st msg ↔ st.handler.pcProfiles.Has msg.handle := by
          simp [DeleteLate, hres, hhandle]
        rw [hdeletes.1 (by rw [hreg.resources, hres])]
        refine ⟨_, rfl, ?_⟩
        refine verdict_of_finishes (st.handler.pcProfiles.Has msg.handle) ?_ (fun st' h => ?_)
          (finishes_refuse (K := (· = { st with
            reg := reg, handler := st.handler.forgetPCProfile msg.handle })) rfl)
        · rw [hlate, and_true]
        · rw [h]
          exact kept_forgetPCProfile hstamped msg.handle
    | some res =>
        obtain ⟨removed, events, reg', hdelete, hdeleted⟩ := hdeletes.2 (by
          rw [hreg.resources]
          simp [GoMap.Has, hres])
        have hlate := (deleteLate_iff out hres).trans
          (deletePanics_iff out hreg hhandle hres hdeleted)
        have hgone : ∀ st', st' = { st with
            reg := reg', handler := st.handler.forgetPCProfile msg.handle } → ¬ st.Kept st' :=
          fun st' h => not_kept_of_deleted hres hdeleted (by rw [h])
        rw [hdelete]
        refine ⟨_, rfl, ?_⟩
        have hfinishes := finishes_afterDelete out msg (K := (· = { st with
          reg := reg', handler := st.handler.forgetPCProfile msg.handle })) rfl events
        dsimp only
        split
        · rename_i hpc
          refine verdict_of_finishes True ?_ (fun st' h => ?_) (finishes_deferred hfinishes)
          · simp [hlate, show res.kind = .peerConnection by simpa using hpc]
          · simp [hgone st' h]
        · rename_i hpc
          refine verdict_of_finishes True ?_ (fun st' h => ?_) hfinishes
          · simp [hlate, show res.kind ≠ .peerConnection by simpa using hpc]
          · simp [hgone st' h]

/-- The requests that only look up their resource keep everything. -/
theorem verdict_of_settles {e : Turn} {panics dies : Prop}
    (he : e.Meets (Settles panics dies msg st.Kept)) : e.Meets (Verdict False st) := by
  unfold Exit.Meets at he
  cases hresult : e.result with
  | returned resp =>
      rw [hresult] at he
      exact .clean he.2.2 not_false
  | panicked text =>
      rw [hresult] at he
      exact .clean he.2 not_false
  | died => exact .died hresult

/-- So does `dc:send`, whatever becomes of the message later. -/
theorem verdict_dcSend : (st.handleDCSend msg).Meets (Verdict False st) := by
  have hstate : (st.handleDCSend msg).state = st := by
    unfold handleDCSend
    split
    · rfl
    · split <;> rfl
  refine .clean ?_ not_false
  rw [hstate]
  exact Stamped.kept ⟨st.reg, Restamped.refl _, rfl⟩

/-- What each type of request leaves behind when it is refused. -/
theorem verdict_handleMessage (env : Platform) (out : Surroundings) (msg : Message)
    (hi : st.reg.Inv) (hfresh : st.reg.resources.get out.handle = none) :
    ∃ turn, st.handleMessage env out msg = some turn ∧
      turn.Meets (Verdict (RefusedLate env out st msg) st) := by
  have hkept : ∀ st', st.Stamped st' → st.Kept st' := fun _ h => h.kept
  unfold handleMessage
  split
  case h_1 htype =>
      simp only [RefusedLate, htype]
      exact ⟨_, rfl, verdict_init⟩
  case h_2 htype =>
      simp only [RefusedLate, htype]
      exact ⟨_, rfl, verdict_pcCreate hfresh⟩
  case h_3 htype =>
      simp only [RefusedLate, htype]
      exact ⟨_, rfl, verdict_of_settles (settles_createDesc hkept htype)⟩
  case h_4 htype =>
      simp only [RefusedLate, htype]
      exact ⟨_, rfl, verdict_of_settles (settles_createDesc hkept htype)⟩
  case h_5 htype =>
      simp only [RefusedLate, htype]
      exact ⟨_, rfl, verdict_of_settles (settles_setDesc hkept htype)⟩
  case h_6 htype =>
      simp only [RefusedLate, htype]
      exact ⟨_, rfl, verdict_of_settles (settles_setDesc hkept htype)⟩
  case h_7 htype =>
      simp only [RefusedLate, htype]
      exact ⟨_, rfl, verdict_of_settles (settles_addIce hkept htype)⟩
  case h_8 htype =>
      simp only [RefusedLate, htype]
      exact ⟨_, rfl, verdict_pcClose⟩
  case h_9 htype =>
      simp only [RefusedLate, htype]
      exact ⟨_, rfl, verdict_of_settles (settles_addTransceiver hkept htype)⟩
  case h_10 htype =>
      simp only [RefusedLate, htype]
      exact ⟨_, rfl, verdict_pcCreateDc hfresh⟩
  case h_11 htype =>
      simp only [RefusedLate, htype]
      exact ⟨_, rfl, verdict_dcSend⟩
  case h_12 htype =>
      simp only [RefusedLate, htype]
      exact ⟨_, rfl, verdict_of_settles (settles_setThreshold hkept htype)⟩
  case h_13 htype =>
      simp only [RefusedLate, htype]
      exact ⟨_, rfl, verdict_dcClose⟩
  case h_14 htype =>
      simp only [RefusedLate, htype]
      exact verdict_resourceDelete hi
  case h_15 =>
      have hlate : ¬ RefusedLate env out st msg := by
        unfold RefusedLate
        split <;> trivial
      exact ⟨_, rfl, .clean (Stamped.kept ⟨st.reg, Restamped.refl _, rfl⟩) hlate⟩

end

/-- A verdict decides what follows from error responses. -/
theorem Verdict.kept_iff {late : Prop} {st st' : ServerState} {turn : Turn} {resps : List Message}
    (h : turn.Meets (Verdict late st)) (hsent : finish turn = .sent resps st') :
    ((∀ resp ∈ resps, resp.type = "error") → st.Kept st') ↔ ¬ late := by
  cases hresult : turn.result with
  | died =>
      rw [finish_died hresult] at hsent
      cases hsent
  | returned resp =>
      simp only [finish, Exit.recover, hresult, FrameEnd.sent.injEq] at hsent
      obtain ⟨rfl, rfl⟩ := hsent
      cases h with
      | accepted hr hlate =>
          obtain ⟨type, id, handle, data, hr⟩ := hr
          cases hresult.symm.trans hr
          refine iff_of_true (fun herror => ?_) hlate
          -- The ack is no error.
          have htype : type ++ ":ack" = "error" :=
            herror (ackResponse type id handle data) (by simp [ackResponse])
          have hlast := congrArg (fun s : String => s.toList.getLast?) htype
          simp at hlast
      | clean hkept hlate => exact iff_of_true (fun _ => hkept) hlate
      | late hr hchanged hlate =>
          have herror : resp.type = "error" := by
            rw [hresult] at hr
            exact hr
          refine iff_of_false (fun hall => hchanged (hall ?_)) (not_not.mpr hlate)
          simp [herror]
      | died hr => cases hresult.symm.trans hr
  | panicked text =>
      rw [finish_panicked hresult, FrameEnd.sent.injEq] at hsent
      obtain ⟨rfl, rfl⟩ := hsent
      cases h with
      | accepted hr hlate =>
          obtain ⟨type, id, handle, data, hr⟩ := hr
          cases hresult.symm.trans hr
      | clean hkept hlate => exact iff_of_true (fun _ => hkept) hlate
      | late hr hchanged hlate =>
          refine iff_of_false (fun hall => hchanged (hall ?_)) (not_not.mpr hlate)
          simp [errorResponse]
      | died hr => cases hresult.symm.trans hr

/-- Every request comes to an end, and the process ends only for want of memory. -/
theorem died_or_sent (env : Platform) (out : Surroundings) {st : ServerState} {msg : Message}
    (hi : st.reg.Inv) {turn : Turn} (hturn : st.handleMessage env out msg = some turn) :
    Exhausts env out st msg ∧ finish turn = .died ∨
      ¬ Exhausts env out st msg ∧ ∃ resps st', finish turn = .sent resps st' := by
  by_cases hsend : msg.type = "dc:send"
  · refine .inr ⟨fun h => by simp [Exhausts, hsend] at h, ?_⟩
    simp only [handleMessage, hsend, Option.some.injEq] at hturn
    rw [← hturn]
    unfold handleDCSend
    split
    · exact ⟨_, _, rfl⟩
    · split <;> exact ⟨_, _, rfl⟩
  · obtain ⟨turn', hturn', hsettled⟩ := settled_handleMessage env out hi hsend
    cases hturn.symm.trans hturn'
    obtain hdied | ⟨hlives, resp, st', hfinish, -⟩ := finish_of_settled hsettled
    · exact .inl hdied
    · exact .inr ⟨hlives, _, _, hfinish⟩

/-- In every reachable registry and for every handler, a request whose responses are all errors
leaves the registry, the session and the tracing flag as they were, exactly when it does not fail
after a change. The generated handle is a new one. A request that ends the process has no
responses. -/
theorem refused_changes_nothing_iff (env : Platform) (out : Surroundings) (w : CallWorld)
    (hw : callSystem.Reachable w) (hfresh : out.handle ∉ w.world.used) (h : Handler)
    (tracing : Bool) (msg : Message) :
    (Exhausts env out ⟨w.reg, h, tracing⟩ msg ∧
      processFrame env out ⟨w.reg, h, tracing⟩ (.ok msg) = some .died) ∨
    (¬ Exhausts env out ⟨w.reg, h, tracing⟩ msg ∧
      ∃ resps st', processFrame env out ⟨w.reg, h, tracing⟩ (.ok msg) = some (.sent resps st') ∧
        (((∀ resp ∈ resps, resp.type = "error") → Kept ⟨w.reg, h, tracing⟩ st') ↔
          ¬ RefusedLate env out ⟨w.reg, h, tracing⟩ msg)) := by
  have hworld := (callInv_of_reachable hw).world
  obtain ⟨st₁, htouch, hstamped⟩ := touch_stamped out msg
    (show (ServerState.mk w.reg h tracing).reg.Inv from hworld.reg)
  have hi₁ : st₁.reg.Inv := by
    obtain ⟨reg, hreg, rfl⟩ := hstamped
    exact hreg.inv hworld.reg
  have hunused : st₁.reg.resources.get out.handle = none := by
    rw [hstamped.kept.resources]
    exact (hworld.fresh hfresh).unregistered
  obtain ⟨turn, hturn, hverdict⟩ := verdict_handleMessage env out msg hi₁ hunused
  have hrun : processFrame env out ⟨w.reg, h, tracing⟩ (.ok msg) = some (finish turn) := by
    simp [processFrame, htouch, hturn]
  rw [hrun, ← (panics_stamped env out msg hstamped).2]
  obtain ⟨hdied, hfinish⟩ | ⟨hlives, resps, st', hfinish⟩ := died_or_sent env out hi₁ hturn
  · exact .inl ⟨hdied, by rw [hfinish]⟩
  · refine .inr ⟨hlives, resps, st', by rw [hfinish], ?_⟩
    rw [← refusedLate_stamped hstamped, ← Verdict.kept_iff hverdict hfinish,
      hstamped.kept.iff_of_kept]

/-- Settings with one end of a port range only. -/
def halfRange : String × Value :=
  ("settings_engine", .map [("ephemeral_udp_port_min", .int .int64 5000)])

/-- A new session refuses the settings, and everything is as it was. -/
theorem refused_changes_nothing_iff_init :
    ∃ resp st', processFrame plainPlatform (plainSurroundings "")
        ⟨callSystem.init.reg, newHandler, false⟩ (.ok ⟨"init", 1, "", [halfRange]⟩)
        = some (.sent [resp] st') ∧ resp.type = "error" ∧
      Kept ⟨callSystem.init.reg, newHandler, false⟩ st' := by
  obtain ⟨⟨htype, -⟩, -⟩ | ⟨-, resps, st', hrun, hkept⟩ := refused_changes_nothing_iff plainPlatform
    (plainSurroundings "") callSystem.init .refl List.not_mem_nil newHandler false
    ⟨"init", 1, "", [halfRange]⟩
  · exact absurd htype (by decide)
  have hlate : ¬ RefusedLate plainPlatform (plainSurroundings "")
      ⟨callSystem.init.reg, newHandler, false⟩ ⟨"init", 1, "", [halfRange]⟩ := by
    rintro ⟨-, ⟨hasks, -⟩ | hconfig⟩
    · cases hasks
    · exact hconfig rfl
  have hresps : ∃ st'', processFrame plainPlatform (plainSurroundings "")
      ⟨callSystem.init.reg, newHandler, false⟩ (.ok ⟨"init", 1, "", [halfRange]⟩)
        = some (.sent [errorResponse 1 "INVALID_REQUEST"
          "ephemeral_udp_port_min and ephemeral_udp_port_max must be provided together" false ""]
          st'') := ⟨_, rfl⟩
  obtain ⟨st'', hresps⟩ := hresps
  rw [hrun] at hresps
  cases hresps
  refine ⟨_, st', hrun, rfl, hkept.mpr hlate ?_⟩
  intro resp hresp
  rw [List.mem_singleton.mp hresp]
  rfl

/-- The same settings with a queue depth: the `init` is refused, and the depth is set. -/
theorem refused_init_sets_depth :
    ∃ resp st', processFrame plainPlatform (plainSurroundings "")
        ⟨Registry.new, newHandler, false⟩ (.ok ⟨"init", 1, "",
          [halfRange, ("dc_config", .map [("send_queue_depth", .int .int64 64)])]⟩)
        = some (.sent [resp] st') ∧ resp.type = "error" ∧
      newHandler.dcConfig.sendQueueDepth = 32 ∧ st'.handler.dcConfig.sendQueueDepth = 64 :=
  ⟨_, _, rfl, rfl, rfl, rfl⟩

end ServerState

end PionBridge.Server
