import PionBridge.Proofs.Bridge.Profile
import PionBridge.Proofs.Settings

/-!
# `PionBridge.Proofs.Bridge.Config`: the settings that a session works with

`_sendInit` sends the settings of the application, and `handleInit` keeps what it makes of
them. `Configured` says that the session then works with exactly these settings: the setters
that were called, the tracing, and the configuration of every channel that the session makes
from there on.

All of it holds, but for the configuration of the channels. That one does not arrive, so a
session is configured exactly when the settings ask for the defaults there
(`init_configured_iff`).
-/

set_option autoImplicit false

namespace PionBridge.Dart.PionSettingsEngine

open PionBridge.Server

/-- The configuration of the channels that the settings ask for. A depth below 1 counts as not
set. -/
def channelConfig (s : PionSettingsEngine) : DCConfig where
  bufferedAmountLowThreshold :=
    ((s.dcConfig.bind (·.bufferedAmountLowThreshold)).map Int.toNat).getD
      defaultDCConfig.bufferedAmountLowThreshold
  sendQueueDepth :=
    ((s.dcConfig.bind (·.sendQueueDepth)).filter (1 ≤ ·)).getD defaultDCConfig.sendQueueDepth

/-- The settings ask for no configuration other than the default one. -/
def AsksForDefaults (s : PionSettingsEngine) : Prop :=
  (∀ n ∈ s.dcConfig.bind (·.bufferedAmountLowThreshold), n = 524288) ∧
    ∀ n ∈ s.dcConfig.bind (·.sendQueueDepth), 1 ≤ n → n = 32

theorem channelConfig_eq_default_iff (s : PionSettingsEngine) :
    s.channelConfig = defaultDCConfig ↔ s.AsksForDefaults := by
  have hthreshold : s.channelConfig.bufferedAmountLowThreshold = 524288 ↔
      ∀ n ∈ s.dcConfig.bind (·.bufferedAmountLowThreshold), n = 524288 := by
    unfold channelConfig
    cases s.dcConfig.bind (·.bufferedAmountLowThreshold) with
    | none => simp [defaultDCConfig]
    | some n =>
        simp only [Option.map_some, Option.getD_some, Option.mem_def, Option.some.injEq,
          forall_eq']
        omega
  have hdepth : s.channelConfig.sendQueueDepth = 32 ↔
      ∀ n ∈ s.dcConfig.bind (·.sendQueueDepth), 1 ≤ n → n = 32 := by
    unfold channelConfig
    cases s.dcConfig.bind (·.sendQueueDepth) with
    | none => simp [defaultDCConfig]
    | some n =>
        by_cases hn : 1 ≤ n
        · simp [Option.filter, hn]
        · simp [Option.filter, hn, defaultDCConfig]
  unfold AsksForDefaults
  rw [← hthreshold, ← hdepth]
  constructor
  · intro h
    rw [h]
    exact ⟨rfl, rfl⟩
  · rintro ⟨ht, hd⟩
    cases hc : s.channelConfig with
    | mk threshold depth =>
        rw [hc] at ht hd
        cases ht
        cases hd
        rfl

end PionBridge.Dart.PionSettingsEngine

namespace PionBridge.Server

open PionBridge.Lib
open PionBridge.Dart (Msgpack PionSettingsEngine PionMediaEngine)

namespace Bridge

/-- The step handles an `init` request of the session. -/
def Inits (w : Bridge) (s : Session) : BridgeAction → Prop
  | .dispatch s' _ _ => s' = s ∧ ∃ msg, w.threads (.reader s) = .dispatch msg ∧ msg.type = "init"
  | _ => False

/-- Every channel that the session makes from here on has the configuration `cfg`, up to the
next `init` of the session. -/
def LaterChannels (env : Platform) (w : Bridge) (s : Session) (cfg : DCConfig) : Prop :=
  ∀ v, (bridgeSystem env).StepsUnder (fun u a => ¬ u.Inits s a) w v →
    ∀ c ∈ v.channels.drop w.channels.length, c.making.session = s → c.cfg = cfg

/-- After an `init` that took it from `w` to `w'`, the session works with the settings `se`. -/
structure Configured (env : Platform) (w w' : Bridge) (s : Session) (se : PionSettingsEngine) :
    Prop where
  settings : (w'.handlers s).defaultProfile.settings = se.engine
  detach : (w'.handlers s).defaultProfile.detach = (se.detachDataChannels == some true)
  /-- The limit of `readDetached` is kept as an `int`. -/
  maxMessageSize : (w'.handlers s).defaultProfile.maxMessageSize =
    env.wrap .int (se.sctpMaxMessageSize.getD 0)
  tracing : w'.tracing = (w.tracing || se.enableTracing == some true)
  dcConfig : (w'.handlers s).dcConfig = se.channelConfig
  channels : w'.LaterChannels env s se.channelConfig

/-! ### The configuration along a run -/

/-- A new channel gets the configuration of its session's handler. -/
theorem channels_step {env : Platform} {w w' : Bridge} {a : BridgeAction}
    (h : w.step env a = some w') :
    ∃ new, w'.channels = w.channels ++ new ∧
      ∀ c ∈ new, c.cfg = (w.handlers c.making.session).dcConfig := by
  cases moved h with
  | registerState t m child profile pc calls =>
      refine ⟨[ChannelStart.mk m child profile (w.handlers m.session).dcConfig], rfl, ?_⟩
      intro c hc
      cases List.mem_singleton.mp hc
      rfl
  | _ => exact ⟨[], (List.append_nil _).symm, by simp⟩

/-- A handler that replaces one with the same configuration. -/
theorem dcConfig_withHandler {w : Bridge} {s : Session} {h : Handler}
    (hh : h.dcConfig = (w.handlers s).dcConfig) (s' : Session) :
    ((w.withHandler s h).handlers s').dcConfig = (w.handlers s').dcConfig := by
  by_cases hs : s' = s
  · subst hs
    simpa [withHandler] using hh
  · simp [withHandler, hs]

/-- Only `init` changes the configuration of a session. -/
theorem dcConfig_step {env : Platform} {w w' : Bridge} {a : BridgeAction} {s : Session}
    (hC : ¬ w.Inits s a) (h : w.step env a = some w') :
    (w'.handlers s).dcConfig = (w.handlers s).dcConfig := by
  cases moved h with
  | init s' now failure msg tracing resp handler ht hmsg =>
      have hne : s ≠ s' := by
        rintro rfl
        exact hC ⟨rfl, msg, ht, hmsg⟩
      show ((w.withHandler s' handler).handlers s).dcConfig = _
      simp [withHandler, hne]
  | refused s' now err msg resp profile handler ht hh =>
      exact dcConfig_withHandler (by rw [createProfile_keeps hh]) s
  | newPeer s' now msg profile handler config ht hh =>
      exact dcConfig_withHandler (by rw [createProfile_keeps hh]) s
  | setPCProfile s' msg handle profile peer =>
      exact dcConfig_withHandler (h := (w.handlers s').setPCProfile handle profile) rfl s
  | forget s' msg pc =>
      exact dcConfig_withHandler (h := (w.handlers s').forgetPCProfile msg.handle) rfl s
  | _ => rfl

/-- The run lemma. -/
theorem laterChannels_dcConfig (env : Platform) (w : Bridge) (s : Session) :
    w.LaterChannels env s (w.handlers s).dcConfig := by
  intro v hv
  -- The new channels are the ones after those of `w`, and the configuration stays.
  obtain ⟨-, new, hnew, hcfg⟩ : (v.handlers s).dcConfig = (w.handlers s).dcConfig ∧
      ∃ new, v.channels = w.channels ++ new ∧
        ∀ c ∈ new, c.making.session = s → c.cfg = (w.handlers s).dcConfig := by
    refine StepSystem.StepsUnder.invariant (I := fun v =>
      (v.handlers s).dcConfig = (w.handlers s).dcConfig ∧
        ∃ new, v.channels = w.channels ++ new ∧
          ∀ c ∈ new, c.making.session = s → c.cfg = (w.handlers s).dcConfig) hv ?_ ?_
    · exact ⟨rfl, [], (List.append_nil _).symm, by simp⟩
    · rintro t a u - ⟨hsame, new, hnew, hcfg⟩ hC hstep
      obtain ⟨more, hmore, hmade⟩ := channels_step hstep
      refine ⟨(dcConfig_step hC hstep).trans hsame, new ++ more, ?_, ?_⟩
      · rw [hmore, hnew, List.append_assoc]
      · intro c hc hs
        rcases List.mem_append.mp hc with hold | hnewc
        · exact hcfg c hold hs
        · rw [hmade c hnewc, hs]
          exact hsame
  rw [hnew, List.drop_left]
  exact hcfg

end Bridge

open Bridge

/-! ### The `init` request -/

/-- An `init` that is acknowledged has built its profile. -/
theorem handleInit_ack {env : Platform} {h : Handler} {msg : Message} {data : Data}
    (hack : (handleInit env h msg).2.2 = ackResponse "init" msg.id "" data) :
    ∃ profile, buildProfile env (msg.data.map? "settings_engine")
        (msg.data.map? "media_engine") = .ok profile ∧
      (handleInit env h msg).1.defaultProfile = profile := by
  unfold handleInit at hack ⊢
  dsimp only at hack ⊢
  split at hack
  · -- An error response is no ack.
    have htype : "error" = "init" ++ ":ack" := congrArg Message.type hack
    exact absurd htype (by decide)
  · rename_i profile hprofile
    exact ⟨profile, hprofile, rfl⟩

/-- The configuration of the channels and the tracing do not depend on the answer. -/
theorem handleInit_keeps (env : Platform) (h : Handler) (msg : Message) :
    (handleInit env h msg).1.dcConfig = applyDCConfig env h.dcConfig msg.data ∧
      (handleInit env h msg).2.1 = asksForTracing msg.data := by
  unfold handleInit
  dsimp only
  split <;> exact ⟨rfl, rfl⟩

/-- The state after an `init`. -/
theorem step_init {env : Platform} {w w' : Bridge} {s : Session} {now : Int}
    {failure : Option String} {msg : Message} (hmsg : w.threads (.reader s) = .dispatch msg)
    (htype : msg.type = "init") (h : w.step env (.dispatch s now failure) = some w') :
    w'.handlers s = (handleInit env (w.handlers s) msg).1 ∧
      w'.tracing = (w.tracing || (handleInit env (w.handlers s) msg).2.1) ∧
      w'.out = w.out ++ [(s, (handleInit env (w.handlers s) msg).2.2)] := by
  have hrequest : w.stepRequest env (.dispatch s now failure) = some w' := h
  simp only [stepRequest, hmsg, handleMessage, htype] at hrequest
  cases hrequest
  simp [reply, send, goto, withHandler]

/-- A new session that acknowledges the settings works with them exactly when they ask for the
default configuration of the channels. -/
theorem init_configured_iff (env : Platform) (m : Msgpack) (w w' : Bridge) (s : Session)
    (now id : Int) (failure : Option String) (se : PionSettingsEngine)
    (me : Option PionMediaEngine) (data : Data) (hfits : se.Fits env)
    (hnew : w.handlers s = newHandler)
    (hmsg : w.threads (.reader s) = .dispatch (m.initMessage id (some se) me))
    (hstep : w.step env (.dispatch s now failure) = some w')
    (hack : w'.out = w.out ++ [(s, ackResponse "init" id "" data)]) :
    Configured env w w' s se ↔ se.AsksForDefaults := by
  obtain ⟨hhandler, htracing, hout⟩ := step_init hmsg rfl hstep
  obtain ⟨hkept, hasked⟩ := handleInit_keeps env (w.handlers s)
    (m.initMessage id (some se) me)
  rw [hout, List.append_cancel_left_eq, List.cons.injEq, Prod.mk.injEq] at hack
  obtain ⟨profile, hprofile, hdefault⟩ := handleInit_ack hack.1.2
  obtain ⟨hsettings, hdetach, hsize⟩ :=
    PionSettingsEngine.buildProfile_init m env se me hfits hprofile
  rw [← hhandler] at hkept hdefault
  -- What the handler keeps is the default.
  have hdc : (w'.handlers s).dcConfig = defaultDCConfig := by
    rw [hkept, hnew]
    exact se.applyDCConfig_init m env me defaultDCConfig
  rw [← se.channelConfig_eq_default_iff]
  constructor
  · intro h
    rw [← h.dcConfig, hdc]
  · intro h
    refine ⟨?_, ?_, ?_, ?_, hdc.trans h.symm, ?_⟩
    · rw [hdefault, hsettings]
    · rw [hdefault, hdetach]
    · rw [hdefault, hsize]
    · rw [htracing, hasked]
      exact congrArg _ (se.asksForTracing_init m me)
    · rw [h, ← hdc]
      exact laterChannels_dcConfig env w' s

/-- Every integer arrives as an `int64`. -/
def plainMsgpack : Msgpack := ⟨fun _ => .int64, fun _ _ h => h⟩

/-- Settings that a session works with: the threshold is the default one. -/
def bulkSettings : PionSettingsEngine where
  detachDataChannels := some true
  enableTracing := some true
  sctpMaxMessageSize := some 65536
  ephemeralUdpPortMin := some 5000
  ephemeralUdpPortMax := some 6000
  stunGatherTimeoutMs := some 250
  dcConfig := some { bufferedAmountLowThreshold := some 524288 }

/-- Settings that ask for a longer send queue. -/
def deepQueue : PionSettingsEngine where
  dcConfig := some { sendQueueDepth := some 64 }

theorem bulkSettings_fits : bulkSettings.Fits plainPlatform := by
  constructor <;> decide

theorem deepQueue_fits : deepQueue.Fits plainPlatform := by
  constructor <;> decide

/-- Session 0 of a new bridge has got the settings in its first request. -/
def requested (se : PionSettingsEngine) : Bridge :=
  newBridge.goto (.reader 0) (.dispatch (plainMsgpack.initMessage 1 (some se) none))

theorem requested_reachable (se : PionSettingsEngine) :
    (bridgeSystem plainPlatform).Reachable (requested se) := by
  have hrun : (bridgeSystem plainPlatform).run newBridge
      [.frame 0 (plainMsgpack.initMessage 1 (some se) none) fun _ => 0]
      = some (requested se) := rfl
  exact StepSystem.reachable_of_run hrun

/-- The settings are acknowledged, and the session works with them. -/
theorem init_configured_iff_bulk :
    ∃ w', (bridgeSystem plainPlatform).Reachable (requested bulkSettings) ∧
      (requested bulkSettings).step plainPlatform (.dispatch 0 0 none) = some w' ∧
      Configured plainPlatform (requested bulkSettings) w' 0 bulkSettings := by
  let final := (requested bulkSettings).step plainPlatform (.dispatch 0 0 none)
  have hrun : final.isSome := by rfl
  obtain ⟨w', hw'⟩ := Option.isSome_iff_exists.mp hrun
  have hout : final.map (·.out)
      = some [(0, ackResponse "init" 1 "" [("version", .str "1.0.0")])] := by rfl
  simp only [hw', Option.map_some, Option.some.injEq] at hout
  have hasks : bulkSettings.AsksForDefaults := by
    constructor <;> simp [bulkSettings]
  refine ⟨w', requested_reachable _, hw', ?_⟩
  exact (init_configured_iff plainPlatform plainMsgpack _ w' 0 0 1 none bulkSettings none _
    bulkSettings_fits rfl rfl hw' hout).mpr hasks

/-- A session acknowledges settings with a queue depth of 64 and keeps the depth 32. -/
theorem init_drops_dcConfig :
    ¬ ∀ (env : Platform) (m : Msgpack) (w w' : Bridge) (s : Session) (now id : Int)
      (failure : Option String) (se : PionSettingsEngine) (me : Option PionMediaEngine)
      (data : Data), (bridgeSystem env).Reachable w → se.Fits env → w.handlers s = newHandler →
      w.threads (.reader s) = .dispatch (m.initMessage id (some se) me) →
      w.step env (.dispatch s now failure) = some w' →
      w'.out = w.out ++ [(s, ackResponse "init" id "" data)] →
      Configured env w w' s se := by
  intro hall
  let final := (requested deepQueue).step plainPlatform (.dispatch 0 0 none)
  have hrun : final.isSome := by rfl
  obtain ⟨w', hw'⟩ := Option.isSome_iff_exists.mp hrun
  have hfacts : final.map (fun w => (w.out, (w.handlers 0).dcConfig.sendQueueDepth))
      = some ([(0, ackResponse "init" 1 "" [("version", .str "1.0.0")])], 32) := by rfl
  simp only [hw', Option.map_some, Option.some.injEq, Prod.mk.injEq] at hfacts
  obtain ⟨hout, hdepth⟩ := hfacts
  have hconfigured := hall plainPlatform plainMsgpack _ w' 0 0 1 none deepQueue none _
    (requested_reachable deepQueue) deepQueue_fits rfl rfl hw' hout
  rw [hconfigured.dcConfig] at hdepth
  exact absurd hdepth (by decide)

end PionBridge.Server
