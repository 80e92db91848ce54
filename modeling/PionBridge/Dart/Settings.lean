import PionBridge.Lib.Decode
import PionBridge.Server.Platform

/-!
# `PionBridge.Dart.Settings`: settings on the Dart side (`lib/src/types.dart`, `bridge.dart`)

The settings classes with their `toMap` methods, the `init` request that `PionBridge._sendInit`
makes of them, and the `pc:create` request of `PionBridge.createPeerConnection`. Every `toMap`
writes the keys of the fields that are not null. Its keys are distinct, so the map is the list of
the entries in the order of the source.

The end of the file is the way to the Go side. `Msgpack` says that maps, lists, strings and
numbers arrive as they are. An integer may arrive in any Go integer type that holds it.
-/

set_option autoImplicit false

namespace PionBridge.Dart

open PionBridge.Lib
open PionBridge.Server (IntKind Data Message)

/-- A value that Dart puts into a request. -/
inductive Value
  | bool (b : Bool)
  | int (n : Int)
  | str (s : String)
  | list (items : List Value)
  | map (entries : List (String × Value))

/-- `PionDCConfig`. -/
structure PionDCConfig where
  bufferedAmountLowThreshold : Option Int := none
  sendQueueDepth : Option Int := none

/-- `PionDCConfig.toMap`. -/
def PionDCConfig.toMap (c : PionDCConfig) : List (String × Value) :=
  ofFields [
    ("buffered_amount_low_threshold", c.bufferedAmountLowThreshold.map .int),
    ("send_queue_depth", c.sendQueueDepth.map .int)]

/-- `PionSettingsEngine`. -/
structure PionSettingsEngine where
  disableActiveTcp : Option Bool := none
  disableCertificateFingerprintVerification : Option Bool := none
  disableCloseByDtls : Option Bool := none
  disableSrtcpReplayProtection : Option Bool := none
  disableSrtpReplayProtection : Option Bool := none
  detachDataChannels : Option Bool := none
  enableDataChannelBlockWrite : Option Bool := none
  enableSctpZeroChecksum : Option Bool := none
  enableTracing : Option Bool := none
  sctpMaxReceiveBufferSize : Option Int := none
  sctpMaxMessageSize : Option Int := none
  sctpMinCwnd : Option Int := none
  sctpCwndCaStep : Option Int := none
  receiveMtu : Option Int := none
  iceMaxBindingRequests : Option Int := none
  dtlsReplayProtectionWindow : Option Int := none
  srtcpReplayProtectionWindow : Option Int := none
  srtpReplayProtectionWindow : Option Int := none
  ephemeralUdpPortMin : Option Int := none
  ephemeralUdpPortMax : Option Int := none
  sctpRtoMaxMs : Option Int := none
  iceDisconnectedTimeoutMs : Option Int := none
  iceFailedTimeoutMs : Option Int := none
  iceKeepaliveMs : Option Int := none
  hostAcceptanceMinWaitMs : Option Int := none
  srflxAcceptanceMinWaitMs : Option Int := none
  prflxAcceptanceMinWaitMs : Option Int := none
  relayAcceptanceMinWaitMs : Option Int := none
  dtlsRetransmissionIntervalMs : Option Int := none
  stunGatherTimeoutMs : Option Int := none
  iceRenomination : Option Bool := none
  iceRenominationIntervalMs : Option Int := none
  multicastDnsHostName : Option String := none
  interfaceWhitelist : Option (List String) := none
  includeLoopbackCandidate : Option Bool := none
  dcConfig : Option PionDCConfig := none

namespace PionSettingsEngine

/-- The `dc_config` entry: a configuration without entries is left out. -/
def dcConfigMap (s : PionSettingsEngine) : Option Value :=
  (s.dcConfig.map PionDCConfig.toMap).bind fun dcMap =>
    if dcMap.isEmpty then none else some (.map dcMap)

/-- The keys of `toMap`, each with the value that is written unless it is null. -/
def fields (s : PionSettingsEngine) : List (String × Option Value) := [
  ("disable_active_tcp", s.disableActiveTcp.map .bool),
  ("disable_certificate_fingerprint_verification",
    s.disableCertificateFingerprintVerification.map .bool),
  ("disable_close_by_dtls", s.disableCloseByDtls.map .bool),
  ("disable_srtcp_replay_protection", s.disableSrtcpReplayProtection.map .bool),
  ("disable_srtp_replay_protection", s.disableSrtpReplayProtection.map .bool),
  ("detach_data_channels", s.detachDataChannels.map .bool),
  ("enable_data_channel_block_write", s.enableDataChannelBlockWrite.map .bool),
  ("enable_sctp_zero_checksum", s.enableSctpZeroChecksum.map .bool),
  ("enable_tracing", if s.enableTracing = some true then some (.bool true) else none),
  ("sctp_max_receive_buffer_size", s.sctpMaxReceiveBufferSize.map .int),
  ("sctp_max_message_size", s.sctpMaxMessageSize.map .int),
  ("sctp_min_cwnd", s.sctpMinCwnd.map .int),
  ("sctp_cwnd_ca_step", s.sctpCwndCaStep.map .int),
  ("receive_mtu", s.receiveMtu.map .int),
  ("ice_max_binding_requests", s.iceMaxBindingRequests.map .int),
  ("dtls_replay_protection_window", s.dtlsReplayProtectionWindow.map .int),
  ("srtcp_replay_protection_window", s.srtcpReplayProtectionWindow.map .int),
  ("srtp_replay_protection_window", s.srtpReplayProtectionWindow.map .int),
  ("ephemeral_udp_port_min", s.ephemeralUdpPortMin.map .int),
  ("ephemeral_udp_port_max", s.ephemeralUdpPortMax.map .int),
  ("ice_disconnected_timeout_ms", s.iceDisconnectedTimeoutMs.map .int),
  ("ice_failed_timeout_ms", s.iceFailedTimeoutMs.map .int),
  ("ice_keepalive_ms", s.iceKeepaliveMs.map .int),
  ("sctp_rto_max_ms", s.sctpRtoMaxMs.map .int),
  ("host_acceptance_min_wait_ms", s.hostAcceptanceMinWaitMs.map .int),
  ("srflx_acceptance_min_wait_ms", s.srflxAcceptanceMinWaitMs.map .int),
  ("prflx_acceptance_min_wait_ms", s.prflxAcceptanceMinWaitMs.map .int),
  ("relay_acceptance_min_wait_ms", s.relayAcceptanceMinWaitMs.map .int),
  ("dtls_retransmission_interval_ms", s.dtlsRetransmissionIntervalMs.map .int),
  ("stun_gather_timeout_ms", s.stunGatherTimeoutMs.map .int),
  ("ice_renomination", s.iceRenomination.map .bool),
  ("ice_renomination_interval_ms", s.iceRenominationIntervalMs.map .int),
  ("multicast_dns_host_name", s.multicastDnsHostName.map .str),
  ("interface_whitelist", s.interfaceWhitelist.map fun names => .list (names.map .str)),
  ("include_loopback_candidate", s.includeLoopbackCandidate.map .bool),
  ("dc_config", s.dcConfigMap)]

/-- `PionSettingsEngine.toMap`. -/
def toMap (s : PionSettingsEngine) : List (String × Value) := ofFields s.fields

end PionSettingsEngine

/-- `PionMediaEngine`. -/
structure PionMediaEngine where
  videoCodecs : List String := []
  audioCodecs : List String := []
  nackIntervalMs : Option Int := none

/-- `PionMediaEngine.toMap`. -/
def PionMediaEngine.toMap (m : PionMediaEngine) : List (String × Value) :=
  ofFields [
    ("video_codecs", some (.list (m.videoCodecs.map .str))),
    ("audio_codecs", some (.list (m.audioCodecs.map .str))),
    ("nack_interval_ms", m.nackIntervalMs.map .int)]

/-- The data of the request that `_sendInit` sends. Settings without entries are left out. -/
def initData (se : Option PionSettingsEngine) (me : Option PionMediaEngine) :
    List (String × Value) :=
  ofFields [
    ("settings_engine", (se.map PionSettingsEngine.toMap).bind fun seMap =>
      if seMap.isEmpty then none else some (.map seMap)),
    ("media_engine", me.map fun m => .map m.toMap)]

/-- `IceServer`. -/
structure IceServer where
  urls : List String
  username : Option String := none
  credential : Option String := none

/-- `IceServer.toMap`. -/
def IceServer.toMap (s : IceServer) : List (String × Value) :=
  ofFields [
    ("urls", some (.list (s.urls.map .str))),
    ("username", s.username.map .str),
    ("credential", s.credential.map .str)]

/-- The arguments of `createPeerConnection`, with their defaults. -/
structure CreateCall where
  settingsEngine : Option PionSettingsEngine := none
  mediaEngine : Option PionMediaEngine := none
  iceServers : Option (List IceServer) := none
  bundlePolicy : String := "balanced"
  rtcpMuxPolicy : String := "require"
  iceTransportPolicy : String := "all"

/-- The fields of the request that `createPeerConnection` sends. Settings without entries are left
out, as in `_sendInit`. -/
def CreateCall.fields (c : CreateCall) : List (String × Option Value) := [
  ("settings_engine", (c.settingsEngine.map PionSettingsEngine.toMap).bind fun perPC =>
    if perPC.isEmpty then none else some (.map perPC)),
  ("media_engine", c.mediaEngine.map fun m => .map m.toMap),
  ("ice_servers", some (.list ((c.iceServers.getD []).map fun s => .map s.toMap))),
  ("bundle_policy", some (.str c.bundlePolicy)),
  ("rtcp_mux_policy", some (.str c.rtcpMuxPolicy)),
  ("ice_transport_policy", some (.str c.iceTransportPolicy))]

/-- The data of that request. -/
def CreateCall.data (c : CreateCall) : List (String × Value) := ofFields c.fields

/-! ### On the wire -/

/-- What msgpack does to an integer: it arrives in a type that holds it, on every target. -/
structure Msgpack where
  kind : Int → IntKind
  holds : ∀ word n, IntKind.int64.Holds word n → (kind n).Holds word n

namespace Msgpack

variable (m : Msgpack)

mutual

/-- The value that the Go side decodes. -/
def decoded : Value → Server.Value
  | .bool b => .bool b
  | .int n => .int (m.kind n) n
  | .str s => .str s
  | .list items => .list (decodedItems items)
  | .map entries => .map (decodedEntries entries)

def decodedItems : List Value → List Server.Value
  | [] => []
  | v :: items => decoded v :: decodedItems items

def decodedEntries : List (String × Value) → Data
  | [] => []
  | (key, v) :: entries => (key, decoded v) :: decodedEntries entries

end

theorem decodedEntries_eq (entries : List (String × Value)) :
    m.decodedEntries entries = entries.map fun e => (e.1, m.decoded e.2) := by
  induction entries with
  | nil => simp [decodedEntries]
  | cons e entries ih =>
      obtain ⟨key, v⟩ := e
      simp [decodedEntries, ih]

/-- The `init` message as the Go side decodes it. -/
def initMessage (id : Int) (se : Option PionSettingsEngine) (me : Option PionMediaEngine) :
    Message :=
  ⟨"init", id, "", m.decodedEntries (initData se me)⟩

/-- The `pc:create` message as the Go side decodes it. -/
def createMessage (id : Int) (c : CreateCall) : Message :=
  ⟨"pc:create", id, "", m.decodedEntries c.data⟩

end Msgpack

end PionBridge.Dart
