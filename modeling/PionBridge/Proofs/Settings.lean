import PionBridge.Dart.Settings
import PionBridge.Server.Handler

/-!
# `PionBridge.Proofs.Settings`: the settings that arrive are the settings sent

Both sides type the keys of the settings by hand. `engine s` says which setters the Go side
has to call for the settings `s`, with which arguments. `apply_decodedMap` is the result for
all fields but one: when `applySettingsEngine` accepts what `toMap` wrote, the setters called are
`engine s`.

The exception is `dcConfig`. `toMap` writes it into the settings, and `handleInit` looks for
it beside them (`applyDCConfig_init`).
-/

set_option autoImplicit false

namespace PionBridge.Dart

open PionBridge.Lib
open PionBridge.Server

/-- Reading a request that was made of optional fields. -/
theorem Msgpack.get_decodedEntries (m : Msgpack) {fields : List (String × Option Value)}
    (h : (fields.map Prod.fst).Nodup) (key : String) :
    Data.get (m.decodedEntries (ofFields fields)) key
      = (fields.lookup key).join.map m.decoded := by
  show List.lookup key _ = _
  rw [m.decodedEntries_eq, lookup_map_snd, lookup_ofFields h]

namespace PionSettingsEngine

/-- A number that Dart can hold fits the type of its setter. -/
def FitsIn (env : Platform) (kind : IntKind) (v : Option Int) : Prop :=
  ∀ n ∈ v, env.Holds .int64 n ∧ env.Holds kind n

/-- A number of milliseconds fits a `time.Duration`. -/
def FitsDuration (env : Platform) (v : Option Int) : Prop :=
  ∀ n ∈ v, env.Holds .int64 n ∧ env.Holds .int64 (n * millisecond)

instance (env : Platform) (kind : IntKind) (v : Option Int) : Decidable (FitsIn env kind v) :=
  inferInstanceAs (Decidable (∀ n ∈ v, _))

instance (env : Platform) (v : Option Int) : Decidable (FitsDuration env v) :=
  inferInstanceAs (Decidable (∀ n ∈ v, _))

/-- The numbers fit the types that pion's setters take. -/
structure Fits (env : Platform) (s : PionSettingsEngine) : Prop where
  sctpMaxReceiveBufferSize : FitsIn env .uint32 s.sctpMaxReceiveBufferSize
  sctpMaxMessageSize : FitsIn env .uint32 s.sctpMaxMessageSize
  sctpMinCwnd : FitsIn env .uint32 s.sctpMinCwnd
  sctpCwndCaStep : FitsIn env .uint32 s.sctpCwndCaStep
  receiveMtu : FitsIn env .uint s.receiveMtu
  iceMaxBindingRequests : FitsIn env .uint16 s.iceMaxBindingRequests
  dtlsReplayProtectionWindow : FitsIn env .uint s.dtlsReplayProtectionWindow
  srtcpReplayProtectionWindow : FitsIn env .uint s.srtcpReplayProtectionWindow
  srtpReplayProtectionWindow : FitsIn env .uint s.srtpReplayProtectionWindow
  ephemeralUdpPortMin : FitsIn env .uint16 s.ephemeralUdpPortMin
  ephemeralUdpPortMax : FitsIn env .uint16 s.ephemeralUdpPortMax
  sctpRtoMaxMs : FitsDuration env s.sctpRtoMaxMs
  iceDisconnectedTimeoutMs : FitsDuration env s.iceDisconnectedTimeoutMs
  iceFailedTimeoutMs : FitsDuration env s.iceFailedTimeoutMs
  iceKeepaliveMs : FitsDuration env s.iceKeepaliveMs
  hostAcceptanceMinWaitMs : FitsDuration env s.hostAcceptanceMinWaitMs
  srflxAcceptanceMinWaitMs : FitsDuration env s.srflxAcceptanceMinWaitMs
  prflxAcceptanceMinWaitMs : FitsDuration env s.prflxAcceptanceMinWaitMs
  relayAcceptanceMinWaitMs : FitsDuration env s.relayAcceptanceMinWaitMs
  dtlsRetransmissionIntervalMs : FitsDuration env s.dtlsRetransmissionIntervalMs
  stunGatherTimeoutMs : FitsDuration env s.stunGatherTimeoutMs
  iceRenominationIntervalMs : FitsDuration env s.iceRenominationIntervalMs

/-- The setters to call for the settings, each with the value of its field. The meaning of
`null` is that the setter is not called. Detaching that is off, an empty host name and an
interval without renomination count as not set. -/
def engine (s : PionSettingsEngine) : SettingEngine where
  disableActiveTCP := s.disableActiveTcp
  disableCertificateFingerprintVerification := s.disableCertificateFingerprintVerification
  disableCloseByDTLS := s.disableCloseByDtls
  disableSRTCPReplayProtection := s.disableSrtcpReplayProtection
  disableSRTPReplayProtection := s.disableSrtpReplayProtection
  detachDataChannels := s.detachDataChannels == some true
  enableDataChannelBlockWrite := s.enableDataChannelBlockWrite
  enableSCTPZeroChecksum := s.enableSctpZeroChecksum
  sctpMaxReceiveBufferSize := s.sctpMaxReceiveBufferSize
  sctpMaxMessageSize := s.sctpMaxMessageSize
  sctpMinCwnd := s.sctpMinCwnd
  sctpCwndCAStep := s.sctpCwndCaStep
  receiveMTU := s.receiveMtu
  iceMaxBindingRequests := s.iceMaxBindingRequests
  dtlsReplayProtectionWindow := s.dtlsReplayProtectionWindow
  srtcpReplayProtectionWindow := s.srtcpReplayProtectionWindow
  srtpReplayProtectionWindow := s.srtpReplayProtectionWindow
  ephemeralUDPPortRange :=
    match s.ephemeralUdpPortMin, s.ephemeralUdpPortMax with
    | some lo, some hi => some (lo, hi)
    | _, _ => none
  iceTimeouts :=
    match s.iceDisconnectedTimeoutMs, s.iceFailedTimeoutMs, s.iceKeepaliveMs with
    | some disconnected, some failed, some keepalive =>
      some (disconnected * millisecond, failed * millisecond, keepalive * millisecond)
    | _, _, _ => none
  hostAcceptanceMinWait := s.hostAcceptanceMinWaitMs.map (· * millisecond)
  srflxAcceptanceMinWait := s.srflxAcceptanceMinWaitMs.map (· * millisecond)
  prflxAcceptanceMinWait := s.prflxAcceptanceMinWaitMs.map (· * millisecond)
  relayAcceptanceMinWait := s.relayAcceptanceMinWaitMs.map (· * millisecond)
  iceRenomination :=
    if s.iceRenomination = some true then
      some (s.iceRenominationIntervalMs.map (· * millisecond))
    else none
  dtlsRetransmissionInterval := s.dtlsRetransmissionIntervalMs.map (· * millisecond)
  sctpRTOMax := s.sctpRtoMaxMs.map (· * millisecond)
  stunGatherTimeout := s.stunGatherTimeoutMs.map (· * millisecond)
  multicastDNSHostName := s.multicastDnsHostName.filter (· ≠ "")
  includeLoopbackCandidate := s.includeLoopbackCandidate
  interfaceFilter := s.interfaceWhitelist.map List.toFinset

/-! ### Reading one field -/

theorem fields_nodup (s : PionSettingsEngine) : (s.fields.map Prod.fst).Nodup := by
  -- The keys do not depend on the values.
  have hkeys : s.fields.map Prod.fst = ({} : PionSettingsEngine).fields.map Prod.fst := rfl
  rw [hkeys]
  decide +kernel

section

variable (m : Msgpack) (env : Platform) {s : PionSettingsEngine} {key : String}

/-- The map as the Go side decodes it. -/
def decodedMap (s : PionSettingsEngine) : Data := m.decodedEntries s.toMap

variable {m}

theorem get_decodedMap {v : Option Value} (h : s.fields.lookup key = some v) :
    (s.decodedMap m).get key = v.map m.decoded := by
  rw [decodedMap, toMap, m.get_decodedEntries s.fields_nodup, h]
  rfl

theorem bool?_decodedMap {v : Option Bool} (h : s.fields.lookup key = some (v.map .bool)) :
    (s.decodedMap m).bool? key = v := by
  rw [Data.bool?, get_decodedMap h]
  cases v with
  | none => rfl
  | some b => simp [Msgpack.decoded]

theorem str?_decodedMap {v : Option String} (h : s.fields.lookup key = some (v.map .str)) :
    (s.decodedMap m).str? key = v := by
  rw [Data.str?, get_decodedMap h]
  cases v with
  | none => rfl
  | some t => simp [Msgpack.decoded]

theorem int?_decodedMap {v : Option Int} (h : s.fields.lookup key = some (v.map .int))
    (hv : ∀ n ∈ v, env.Holds .int64 n) : env.int? (s.decodedMap m) key = v := by
  rw [Platform.int?, get_decodedMap h]
  cases v with
  | none => rfl
  | some n =>
      have hn : env.wrap .int64 n = n := Platform.wrap_of_holds (hv n rfl)
      simp [Msgpack.decoded, Platform.toInt, Platform.toKind, hn]

/-- A number that fits reaches its setter unchanged. -/
theorem number_decodedMap {v : Option Int} {kind : IntKind}
    (h : s.fields.lookup key = some (v.map .int)) (hv : FitsIn env kind v) :
    (env.int? (s.decodedMap m) key).map (env.wrap kind) = v := by
  rw [int?_decodedMap env h fun n hn => (hv n hn).1]
  cases v with
  | none => rfl
  | some n => exact congrArg some (Platform.wrap_of_holds (hv n rfl).2)

/-- Milliseconds that fit reach their setter as the same duration. -/
theorem duration_decodedMap {v : Option Int} (h : s.fields.lookup key = some (v.map .int))
    (hv : FitsDuration env v) :
    (env.int? (s.decodedMap m) key).map env.milliseconds = v.map (· * millisecond) := by
  rw [int?_decodedMap env h fun n hn => (hv n hn).1]
  cases v with
  | none => rfl
  | some n => exact congrArg some (Platform.wrap_of_holds (hv n rfl).2)

end

/-! ### The groups of fields -/

section

variable (m : Msgpack) (env : Platform) (s : PionSettingsEngine)

/-- A list of names arrives as a list of strings. -/
theorem allowedNames_decoded (names : List String) :
    allowedNames (m.decodedItems (names.map .str)) = .ok names := by
  induction names with
  | nil => simp [Msgpack.decodedItems, allowedNames]
  | cons name names ih =>
      simp [Msgpack.decodedItems, Msgpack.decoded, allowedNames, ih, Except.map]

theorem interfaceFilter_decodedMap :
    interfaceFilter (s.decodedMap m) = .ok s.engine.interfaceFilter := by
  have hget : (s.decodedMap m).get "interface_whitelist" = _ := get_decodedMap rfl
  rw [interfaceFilter, Data.list?, hget, engine]
  cases s.interfaceWhitelist with
  | none => rfl
  | some names =>
      simp [Msgpack.decoded, allowedNames_decoded, Except.map]

theorem iceRenomination_decodedMap (hs : s.Fits env) {r : Option (Option Int)}
    (h : Server.iceRenomination env (s.decodedMap m) = .ok r) : r = s.engine.iceRenomination := by
  have hflag : (s.decodedMap m).bool? "ice_renomination" = s.iceRenomination :=
    bool?_decodedMap rfl
  have hinterval :
      (env.int? (s.decodedMap m) "ice_renomination_interval_ms").map env.milliseconds
        = s.iceRenominationIntervalMs.map (· * millisecond) :=
    duration_decodedMap env rfl hs.iceRenominationIntervalMs
  rw [Server.iceRenomination, hflag, hinterval] at h
  show r = if s.iceRenomination = some true then _ else none
  split at h
  · rename_i hon
    rw [if_pos hon]
    dsimp only at h
    split at h
    · cases h
    · cases h
      rfl
  · rename_i hoff
    cases h
    rw [if_neg hoff]

theorem iceTimeouts_decodedMap (hs : s.Fits env) {r : Option (Int × Int × Int)}
    (h : iceTimeouts env (s.decodedMap m) = .ok r) : r = s.engine.iceTimeouts := by
  have hdisc : env.int? (s.decodedMap m) "ice_disconnected_timeout_ms"
      = s.iceDisconnectedTimeoutMs :=
    int?_decodedMap env rfl fun n hn => (hs.iceDisconnectedTimeoutMs n hn).1
  have hfail : env.int? (s.decodedMap m) "ice_failed_timeout_ms" = s.iceFailedTimeoutMs :=
    int?_decodedMap env rfl fun n hn => (hs.iceFailedTimeoutMs n hn).1
  have hkeep : env.int? (s.decodedMap m) "ice_keepalive_ms" = s.iceKeepaliveMs :=
    int?_decodedMap env rfl fun n hn => (hs.iceKeepaliveMs n hn).1
  rw [iceTimeouts, hdisc, hfail, hkeep] at h
  unfold engine
  split at h
  · rename_i disc fail keep hd hf hk
    cases h
    have hd' := Platform.wrap_of_holds (hs.iceDisconnectedTimeoutMs disc hd).2
    have hf' := Platform.wrap_of_holds (hs.iceFailedTimeoutMs fail hf).2
    have hk' := Platform.wrap_of_holds (hs.iceKeepaliveMs keep hk).2
    simp [hd, hf, hk, Platform.milliseconds, hd', hf', hk']
  · rename_i hd hf hk
    cases h
    simp [hd, hf, hk]
  · cases h

theorem ephemeralUDPPortRange_decodedMap (hs : s.Fits env) {r : Option (Int × Int)}
    (h : ephemeralUDPPortRange env (s.decodedMap m) = .ok r) :
    r = s.engine.ephemeralUDPPortRange := by
  have hmin : env.int? (s.decodedMap m) "ephemeral_udp_port_min" = s.ephemeralUdpPortMin :=
    int?_decodedMap env rfl fun n hn => (hs.ephemeralUdpPortMin n hn).1
  have hmax : env.int? (s.decodedMap m) "ephemeral_udp_port_max" = s.ephemeralUdpPortMax :=
    int?_decodedMap env rfl fun n hn => (hs.ephemeralUdpPortMax n hn).1
  rw [ephemeralUDPPortRange, hmin, hmax] at h
  unfold engine
  split at h
  · rename_i lo hi hlo hhi
    have hlo' := Platform.wrap_of_holds (hs.ephemeralUdpPortMin lo hlo).2
    have hhi' := Platform.wrap_of_holds (hs.ephemeralUdpPortMax hi hhi).2
    split at h
    · cases h
    · cases h
      simp [hlo, hhi, hlo', hhi']
  · rename_i hlo hhi
    cases h
    simp [hlo, hhi]
  · cases h

/-- When the Go side accepts the settings, it calls the setters that the settings ask for. -/
theorem apply_decodedMap (hs : s.Fits env) {e : SettingEngine}
    (h : applySettingsEngine env (s.decodedMap m) = .ok e) : e = s.engine := by
  obtain ⟨ports, hports, h⟩ := exists_of_bind_ok h
  obtain ⟨timeouts, htimeouts, h⟩ := exists_of_bind_ok h
  obtain ⟨renomination, hrenomination, h⟩ := exists_of_bind_ok h
  rw [interfaceFilter_decodedMap] at h
  cases h
  apply SettingEngine.ext
  case ephemeralUDPPortRange => exact ephemeralUDPPortRange_decodedMap m env s hs hports
  case iceTimeouts => exact iceTimeouts_decodedMap m env s hs htimeouts
  case iceRenomination => exact iceRenomination_decodedMap m env s hs hrenomination
  case interfaceFilter => rfl
  case multicastDNSHostName => exact congrArg (Option.filter _) (str?_decodedMap rfl)
  case detachDataChannels => exact congrArg (· == some true) (bool?_decodedMap rfl)
  case sctpMaxReceiveBufferSize => exact number_decodedMap env rfl hs.sctpMaxReceiveBufferSize
  case sctpMaxMessageSize => exact number_decodedMap env rfl hs.sctpMaxMessageSize
  case sctpMinCwnd => exact number_decodedMap env rfl hs.sctpMinCwnd
  case sctpCwndCAStep => exact number_decodedMap env rfl hs.sctpCwndCaStep
  case receiveMTU => exact number_decodedMap env rfl hs.receiveMtu
  case iceMaxBindingRequests => exact number_decodedMap env rfl hs.iceMaxBindingRequests
  case dtlsReplayProtectionWindow =>
      exact number_decodedMap env rfl hs.dtlsReplayProtectionWindow
  case srtcpReplayProtectionWindow =>
      exact number_decodedMap env rfl hs.srtcpReplayProtectionWindow
  case srtpReplayProtectionWindow =>
      exact number_decodedMap env rfl hs.srtpReplayProtectionWindow
  case hostAcceptanceMinWait => exact duration_decodedMap env rfl hs.hostAcceptanceMinWaitMs
  case srflxAcceptanceMinWait => exact duration_decodedMap env rfl hs.srflxAcceptanceMinWaitMs
  case prflxAcceptanceMinWait => exact duration_decodedMap env rfl hs.prflxAcceptanceMinWaitMs
  case relayAcceptanceMinWait => exact duration_decodedMap env rfl hs.relayAcceptanceMinWaitMs
  case dtlsRetransmissionInterval =>
      exact duration_decodedMap env rfl hs.dtlsRetransmissionIntervalMs
  case sctpRTOMax => exact duration_decodedMap env rfl hs.sctpRtoMaxMs
  case stunGatherTimeout => exact duration_decodedMap env rfl hs.stunGatherTimeoutMs
  all_goals exact bool?_decodedMap rfl

/-! ### The `init` request -/

variable (se : Option PionSettingsEngine) (me : Option PionMediaEngine)

theorem get_initData (key : String) :
    (m.decodedEntries (initData se me)).get key
      = (List.lookup key [
          ("settings_engine", (se.map toMap).bind fun seMap =>
            if seMap.isEmpty then none else some (Value.map seMap)),
          ("media_engine", me.map fun e => .map e.toMap)]).join.map m.decoded := by
  refine m.get_decodedEntries ?_ key
  show ["settings_engine", "media_engine"].Nodup
  decide

/-- What arrives of the settings: nothing, unless they have an entry. -/
def sentSettings (se : Option PionSettingsEngine) : Option Data :=
  (se.filter fun s => !s.toMap.isEmpty).map (·.decodedMap m)

theorem sentSettings_some :
    sentSettings m (some s) = if s.toMap.isEmpty then none else some (s.decodedMap m) := by
  by_cases hempty : s.toMap.isEmpty <;> simp [sentSettings, Option.filter, hempty]

/-- The entry of the settings in a request. -/
theorem decoded_sentSettings :
    ((se.map toMap).bind fun seMap =>
      if seMap.isEmpty then none else some (Value.map seMap)).map m.decoded
      = (sentSettings m se).map .map := by
  cases se with
  | none => rfl
  | some s =>
      rw [sentSettings_some]
      show (if s.toMap.isEmpty then none else some (Value.map s.toMap)).map m.decoded = _
      split
      · rfl
      · simp [Msgpack.decoded, decodedMap]

theorem map?_of_get {data : Data} {entries : Option Data} {key : String}
    (h : data.get key = entries.map .map) : data.map? key = entries := by
  rw [Data.map?, h]
  cases entries <;> rfl

/-- The settings arrive, unless they have no entry. -/
theorem map?_settings_engine :
    (m.decodedEntries (initData se me)).map? "settings_engine" = sentSettings m se :=
  map?_of_get ((get_initData m se me _).trans (decoded_sentSettings m se))

/-- Settings without entries arrive as an empty map would. -/
theorem decodedMap_of_isEmpty (h : s.toMap.isEmpty) : s.decodedMap m = [] := by
  rw [decodedMap, List.isEmpty_iff.mp h, m.decodedEntries_eq]
  rfl

/-- The configuration of the DataChannels does not arrive: the key is looked for beside the
settings, and it is written into them. -/
theorem applyDCConfig_init (cfg : DCConfig) :
    applyDCConfig env cfg (m.decodedEntries (initData (some s) me)) = cfg := by
  have hnone : (m.decodedEntries (initData (some s) me)).map? "dc_config" = none := by
    rw [Data.map?, get_initData]
    rfl
  rw [applyDCConfig, hnone]

/-- Reading an entry of the settings: settings without entries read as missing ones. -/
theorem bind_settings_engine {α : Type} (f : Data → Option α) (hf : f [] = none) :
    ((m.decodedEntries (initData (some s) me)).map? "settings_engine").bind f
      = f (s.decodedMap m) := by
  rw [map?_settings_engine, sentSettings_some]
  split
  · rename_i hempty
    rw [decodedMap_of_isEmpty m s hempty, hf]
    rfl
  · rfl

theorem asksForTracing_init :
    asksForTracing (m.decodedEntries (initData (some s) me))
      = (s.enableTracing == some true) := by
  rw [asksForTracing, bind_settings_engine m s me _ rfl]
  have hget : (s.decodedMap m).get "enable_tracing" = _ := get_decodedMap rfl
  rw [Data.bool?, hget]
  by_cases hon : s.enableTracing = some true
  · simp [hon, Msgpack.decoded]
  · simp [hon]

/-- The profile that an accepted `init` builds. -/
theorem buildProfile_init (hs : s.Fits env) {media : Option Data} {p : ApiProfile}
    (h : buildProfile env ((m.decodedEntries (initData (some s) me)).map? "settings_engine")
      media = .ok p) :
    p.settings = s.engine ∧ p.detach = (s.detachDataChannels == some true) ∧
      p.maxMessageSize = env.wrap .int (s.sctpMaxMessageSize.getD 0) := by
  obtain ⟨settings, hsettings, h⟩ := exists_of_bind_ok h
  obtain ⟨engine, -, h⟩ := exists_of_bind_ok h
  cases h
  refine ⟨apply_decodedMap m env s hs ?_, ?_, ?_⟩
  · rw [map?_settings_engine, sentSettings_some] at hsettings
    split at hsettings
    · rename_i hempty
      rw [decodedMap_of_isEmpty m s hempty]
      cases hsettings
      rfl
    · exact ok_of_mapError_ok hsettings
  · dsimp only
    rw [bind_settings_engine m s me _ rfl, bool?_decodedMap (v := s.detachDataChannels) rfl]
    cases s.detachDataChannels with
    | none => rfl
    | some b => cases b <;> rfl
  · dsimp only
    rw [bind_settings_engine m s me _ rfl]
    have hsize : env.int? (s.decodedMap m) "sctp_max_message_size" = s.sctpMaxMessageSize :=
      int?_decodedMap env rfl fun n hn => (hs.sctpMaxMessageSize n hn).1
    rw [hsize]
    cases s.sctpMaxMessageSize with
    | none => simp [IntKind.wrap, IntKind.signed]
    | some n => rfl

end

end PionSettingsEngine

end PionBridge.Dart
