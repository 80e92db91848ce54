import Mathlib.Data.Finset.Dedup
import PionBridge.Server.Platform

/-!
# `PionBridge.Server.SettingsEngine`: decoding of settings (`settings_engine.go`)

`applySettingsEngine` reads a `settings_engine` map and calls pion's setters. A
`SettingEngine` here records the arguments of these calls, one field for each setter, under
the setter's name without its `Set`. A field is `none` when its setter was not called. The
source starts from the zero engine at its only call, and so does the model.

Integer arguments are values of the type that the setter takes. Durations are `time.Duration`
values, in nanoseconds.
-/

set_option autoImplicit false

namespace PionBridge.Server

/-- The setters called on a `webrtc.SettingEngine`, with their arguments. -/
@[ext]
structure SettingEngine where
  disableActiveTCP : Option Bool := none
  disableCertificateFingerprintVerification : Option Bool := none
  disableCloseByDTLS : Option Bool := none
  disableSRTCPReplayProtection : Option Bool := none
  disableSRTPReplayProtection : Option Bool := none
  /-- The setter has no argument. -/
  detachDataChannels : Bool := false
  enableDataChannelBlockWrite : Option Bool := none
  enableSCTPZeroChecksum : Option Bool := none
  sctpMaxReceiveBufferSize : Option Int := none
  sctpMaxMessageSize : Option Int := none
  sctpMinCwnd : Option Int := none
  sctpCwndCAStep : Option Int := none
  receiveMTU : Option Int := none
  iceMaxBindingRequests : Option Int := none
  dtlsReplayProtectionWindow : Option Int := none
  srtcpReplayProtectionWindow : Option Int := none
  srtpReplayProtectionWindow : Option Int := none
  ephemeralUDPPortRange : Option (Int × Int) := none
  /-- Disconnected timeout, failed timeout, keepalive interval. -/
  iceTimeouts : Option (Int × Int × Int) := none
  hostAcceptanceMinWait : Option Int := none
  srflxAcceptanceMinWait : Option Int := none
  prflxAcceptanceMinWait : Option Int := none
  relayAcceptanceMinWait : Option Int := none
  /-- The inner option is the `WithRenominationInterval` option. -/
  iceRenomination : Option (Option Int) := none
  dtlsRetransmissionInterval : Option Int := none
  sctpRTOMax : Option Int := none
  stunGatherTimeout : Option Int := none
  multicastDNSHostName : Option String := none
  includeLoopbackCandidate : Option Bool := none
  /-- The filter accepts the names of the set. -/
  interfaceFilter : Option (Finset String) := none
  deriving DecidableEq

/-- `%T` of a decoded value. -/
def Value.goType : Value → String
  | .nil => "<nil>"
  | .bool _ => "bool"
  | .int .int _ => "int"
  | .int .int8 _ => "int8"
  | .int .int16 _ => "int16"
  | .int .int32 _ => "int32"
  | .int .int64 _ => "int64"
  | .int .uint _ => "uint"
  | .int .uint8 _ => "uint8"
  | .int .uint16 _ => "uint16"
  | .int .uint32 _ => "uint32"
  | .int .uint64 _ => "uint64"
  | .float32 _ => "float32"
  | .float64 _ => "float64"
  | .str _ => "string"
  | .bin _ => "[]uint8"
  | .list _ => "[]interface \x7b\x7d"
  | .map _ => "map[string]interface \x7b\x7d"

section

variable (env : Platform) (cfg : Data)

/-- The first `switch`: both ports or none. -/
def ephemeralUDPPortRange : Except String (Option (Int × Int)) :=
  match env.int? cfg "ephemeral_udp_port_min", env.int? cfg "ephemeral_udp_port_max" with
  | some portMin, some portMax =>
    match env.setEphemeralUDPPortRange (env.wrap .uint16 portMin)
        (env.wrap .uint16 portMax) with
    | some err => .error ("invalid ephemeral UDP port range [" ++ toString portMin ++ ", " ++
        toString portMax ++ "]: " ++ err)
    | none => .ok (some (env.wrap .uint16 portMin, env.wrap .uint16 portMax))
  | none, none => .ok none
  | _, _ =>
    .error "ephemeral_udp_port_min and ephemeral_udp_port_max must be provided together"

/-- The second `switch`: all three timeouts or none. -/
def iceTimeouts : Except String (Option (Int × Int × Int)) :=
  match env.int? cfg "ice_disconnected_timeout_ms", env.int? cfg "ice_failed_timeout_ms",
      env.int? cfg "ice_keepalive_ms" with
  | some discMs, some failMs, some keepMs =>
    .ok (some (env.milliseconds discMs, env.milliseconds failMs, env.milliseconds keepMs))
  | none, none, none => .ok none
  | _, _, _ =>
    .error ("ice_disconnected_timeout_ms, ice_failed_timeout_ms, and ice_keepalive_ms must " ++
      "all be provided together")

/-- Automatic renomination, with the interval if there is one. -/
def iceRenomination : Except String (Option (Option Int)) :=
  match cfg.bool? "ice_renomination" with
  | some true =>
    let interval := (env.int? cfg "ice_renomination_interval_ms").map env.milliseconds
    match env.setICERenomination interval with
    | some err => .error ("ice_renomination_interval_ms: " ++ err)
    | none => .ok (some interval)
  | _ => .ok none

/-- The loop over the raw entries of the whitelist. -/
def allowedNames : List Value → Except String (List String)
  | [] => .ok []
  | .str name :: items => (allowedNames items).map (name :: ·)
  | item :: _ =>
    .error ("interface_whitelist entries must be strings, got " ++ item.goType)

/-- The interface filter. A value that is not a list is skipped. -/
def interfaceFilter : Except String (Option (Finset String)) :=
  match cfg.list? "interface_whitelist" with
  | some raw => (allowedNames raw).map fun names => some names.toFinset
  | none => .ok none

/-- `applySettingsEngine`, on the zero engine. -/
def applySettingsEngine : Except String SettingEngine := do
  let ports ← ephemeralUDPPortRange env cfg
  let timeouts ← iceTimeouts env cfg
  let renomination ← iceRenomination env cfg
  let filter ← interfaceFilter cfg
  return {
    disableActiveTCP := cfg.bool? "disable_active_tcp"
    disableCertificateFingerprintVerification :=
      cfg.bool? "disable_certificate_fingerprint_verification"
    disableCloseByDTLS := cfg.bool? "disable_close_by_dtls"
    disableSRTCPReplayProtection := cfg.bool? "disable_srtcp_replay_protection"
    disableSRTPReplayProtection := cfg.bool? "disable_srtp_replay_protection"
    detachDataChannels := cfg.bool? "detach_data_channels" == some true
    enableDataChannelBlockWrite := cfg.bool? "enable_data_channel_block_write"
    enableSCTPZeroChecksum := cfg.bool? "enable_sctp_zero_checksum"
    sctpMaxReceiveBufferSize :=
      (env.int? cfg "sctp_max_receive_buffer_size").map (env.wrap .uint32)
    sctpMaxMessageSize := (env.int? cfg "sctp_max_message_size").map (env.wrap .uint32)
    sctpMinCwnd := (env.int? cfg "sctp_min_cwnd").map (env.wrap .uint32)
    sctpCwndCAStep := (env.int? cfg "sctp_cwnd_ca_step").map (env.wrap .uint32)
    receiveMTU := (env.int? cfg "receive_mtu").map (env.wrap .uint)
    iceMaxBindingRequests := (env.int? cfg "ice_max_binding_requests").map (env.wrap .uint16)
    dtlsReplayProtectionWindow :=
      (env.int? cfg "dtls_replay_protection_window").map (env.wrap .uint)
    srtcpReplayProtectionWindow :=
      (env.int? cfg "srtcp_replay_protection_window").map (env.wrap .uint)
    srtpReplayProtectionWindow :=
      (env.int? cfg "srtp_replay_protection_window").map (env.wrap .uint)
    ephemeralUDPPortRange := ports
    iceTimeouts := timeouts
    hostAcceptanceMinWait := (env.int? cfg "host_acceptance_min_wait_ms").map env.milliseconds
    srflxAcceptanceMinWait := (env.int? cfg "srflx_acceptance_min_wait_ms").map env.milliseconds
    prflxAcceptanceMinWait := (env.int? cfg "prflx_acceptance_min_wait_ms").map env.milliseconds
    relayAcceptanceMinWait := (env.int? cfg "relay_acceptance_min_wait_ms").map env.milliseconds
    iceRenomination := renomination
    dtlsRetransmissionInterval :=
      (env.int? cfg "dtls_retransmission_interval_ms").map env.milliseconds
    sctpRTOMax := (env.int? cfg "sctp_rto_max_ms").map env.milliseconds
    stunGatherTimeout := (env.int? cfg "stun_gather_timeout_ms").map env.milliseconds
    multicastDNSHostName := (cfg.str? "multicast_dns_host_name").filter (· ≠ "")
    includeLoopbackCandidate := cfg.bool? "include_loopback_candidate"
    interfaceFilter := filter }

end

end PionBridge.Server
