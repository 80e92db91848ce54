import PionBridge.Server.DCSend
import PionBridge.Server.MediaEngine
import PionBridge.Server.SettingsEngine

/-!
# `PionBridge.Server.Handler`: the state of a session and its profiles (`handler.go`)

The `Handler` of one session: its DataChannel configuration, the default profile with the
payloads it was built from, the cache of profiles and the map from PeerConnections to the
profiles they were created with. A profile is the `webrtc.API` of a pair of payloads, given by
the settings and the codecs it was made with, beside the two settings that the bridge acts on
itself.

Here are the parts of the handlers that work on this state and on the message alone: all of
`handleInit`, and the choice of the profile, the configuration and the options in
`handlePCCreate` and `handlePCCreateDc`.
-/

set_option autoImplicit false

namespace PionBridge.Server

open PionBridge.Lib

/-- `apiProfile`. The API is what it was built from. -/
structure ApiProfile where
  settings : SettingEngine := {}
  media : Option MediaEngine := none
  detach : Bool := false
  maxMessageSize : Int := 0
  deriving DecidableEq

/-- The errors of `buildProfile` and `profileFor`. `media` is a `mediaEngineError`. -/
inductive ProfileError
  | plain (err : String)
  | media (err : String)

/-- `err.Error()`. -/
def ProfileError.text : ProfileError → String
  | .plain err => err
  | .media err => "media_engine: " ++ err

/-- `profileErrorCode`. -/
def ProfileError.code : ProfileError → String
  | .plain _ => "INVALID_REQUEST"
  | .media _ => "INVALID_MEDIA_ENGINE"

/-- The response for an error of a profile. -/
def profileErrorResponse (id : Int) (err : ProfileError) : Message :=
  errorResponse id err.code err.text false ""

/-- `Handler`. The registry and `sendEvent` belong to the system around it. -/
structure Handler where
  dcConfig : DCConfig
  defaultProfile : ApiProfile
  defaultSE : Option Data
  defaultME : Option Data
  profiles : GoMap String ApiProfile
  pcProfiles : GoMap Handle ApiProfile

/-- `NewHandlerWithConfig`. -/
def newHandlerWithConfig (cfg : DCConfig) : Handler := ⟨cfg, {}, none, none, ∅, ∅⟩

/-- `NewHandler`. -/
def newHandler : Handler := newHandlerWithConfig defaultDCConfig

section

variable (env : Platform)

/-- The part of `buildProfile` that applies the settings. -/
def profileSettings : Option Data → Except ProfileError SettingEngine
  | some cfg => (applySettingsEngine env cfg).mapError .plain
  | none => .ok {}

/-- The part of `buildProfile` that builds the media engine. -/
def profileMedia : Option Data → Except ProfileError (Option MediaEngine)
  | some media => ((buildMediaEngine env media).mapError .media).map some
  | none => .ok none

/-- `buildProfile`. -/
def buildProfile (cfg media : Option Data) : Except ProfileError ApiProfile := do
  let settings ← profileSettings env cfg
  let engine ← profileMedia env media
  return {
    settings := settings
    media := engine
    detach := (cfg.bind fun cfg => cfg.bool? "detach_data_channels").getD false
    maxMessageSize :=
      ((cfg.bind fun cfg => env.int? cfg "sctp_max_message_size").map (env.wrap .int)).getD 0 }

namespace Handler

/-- `profileFor`: the profile, and the handler with its cache. -/
def profileFor (h : Handler) (cfg media : Option Data) :
    Except ProfileError (ApiProfile × Handler) := do
  let key ← (env.profileKey cfg media).mapError .plain
  match h.profiles.get key with
  | some p => .ok (p, h)
  | none =>
    -- A profile that fails to build is not cached.
    let p ← buildProfile env cfg media
    .ok (p, { h with profiles := h.profiles.set key p })

/-- `setPCProfile`. -/
def setPCProfile (h : Handler) (pcHandle : Handle) (p : ApiProfile) : Handler :=
  { h with pcProfiles := h.pcProfiles.set pcHandle p }

/-- `forgetPCProfile`. -/
def forgetPCProfile (h : Handler) (pcHandle : Handle) : Handler :=
  { h with pcProfiles := h.pcProfiles.delete pcHandle }

/-- `pcProfile`. -/
def pcProfile (h : Handler) (pcHandle : Handle) : ApiProfile :=
  (h.pcProfiles.get pcHandle).getD h.defaultProfile

/-- The part of `handlePCCreate` that chooses the profile. An absent payload is the session's
own, unless both are absent. -/
def createProfile (h : Handler) (data : Data) : Except ProfileError (ApiProfile × Handler) :=
  let pcSE := data.map? "settings_engine"
  let pcME := data.map? "media_engine"
  if pcSE.isSome || pcME.isSome then
    h.profileFor env (pcSE.or h.defaultSE) (pcME.or h.defaultME)
  else .ok (h.defaultProfile, h)

end Handler

/-- The part of `handleInit` that reads `dc_config`. -/
def applyDCConfig (cfg : DCConfig) (data : Data) : DCConfig :=
  match data.map? "dc_config" with
  | none => cfg
  | some dc => {
      bufferedAmountLowThreshold :=
        ((env.uint64? dc "buffered_amount_low_threshold").map Int.toNat).getD
          cfg.bufferedAmountLowThreshold
      -- A depth under 1 is ignored.
      sendQueueDepth :=
        (((env.int? dc "send_queue_depth").filter (1 ≤ ·)).map (env.wrap .int)).getD
          cfg.sendQueueDepth }

/-- The part of `handleInit` that reads `enable_tracing`. -/
def asksForTracing (data : Data) : Bool :=
  ((data.map? "settings_engine").bind fun cfg => cfg.bool? "enable_tracing").getD false

/-- `handleInit`: the handler, whether `StartTracing` was called, and the response. -/
def handleInit (h : Handler) (msg : Message) : Handler × Bool × Message :=
  let tracing := asksForTracing msg.data
  let h := { h with dcConfig := applyDCConfig env h.dcConfig msg.data }
  let se := msg.data.map? "settings_engine"
  let me := msg.data.map? "media_engine"
  match buildProfile env se me with
  -- The tracer and the DataChannel configuration stay as they were set above.
  | .error err => (h, tracing, profileErrorResponse msg.id err)
  | .ok profile =>
    ({ h with defaultProfile := profile, defaultSE := se, defaultME := me }, tracing,
      ackResponse "init" msg.id "" [("version", .str "1.0.0")])

end

/-! ### Options of `pc:create` and `pc:createDc` -/

/-- `webrtc.ICEServer`. -/
structure ICEServer where
  urls : List String := []
  username : String := ""
  credential : Option String := none
  deriving DecidableEq

inductive BundlePolicy
  | unset | balanced | maxCompat | maxBundle
  deriving DecidableEq

inductive RTCPMuxPolicy
  | unset | negotiate | require
  deriving DecidableEq

inductive ICETransportPolicy
  | all | relay
  deriving DecidableEq

/-- `webrtc.Configuration`. The zero value of the transport policy is `all`. -/
structure Configuration where
  iceServers : List ICEServer := []
  bundlePolicy : BundlePolicy := .unset
  rtcpMuxPolicy : RTCPMuxPolicy := .unset
  iceTransportPolicy : ICETransportPolicy := .all
  deriving DecidableEq

/-- One entry of `ice_servers`. An entry that is not a map is skipped. -/
def iceServer : Value → Option ICEServer
  | .map srv => some {
      urls := match Data.get srv "urls" with
        | some (.list items) => items.filterMap fun
          | .str s => some s
          | _ => none
        | some (.str s) => [s]
        | _ => []
      username := (Data.str? srv "username").getD ""
      credential := Data.str? srv "credential" }
  | _ => none

/-- The configuration that `handlePCCreate` reads. An unknown policy is skipped. -/
def pcConfiguration (data : Data) : Configuration where
  iceServers := ((data.list? "ice_servers").getD []).filterMap iceServer
  bundlePolicy := match data.str? "bundle_policy" with
    | some "balanced" => .balanced
    | some "max-compat" => .maxCompat
    | some "max-bundle" => .maxBundle
    | _ => .unset
  rtcpMuxPolicy := match data.str? "rtcp_mux_policy" with
    | some "negotiate" => .negotiate
    | some "require" => .require
    | _ => .unset
  iceTransportPolicy := match data.str? "ice_transport_policy" with
    | some "relay" => .relay
    | _ => .all

/-- `webrtc.DataChannelInit`, as far as `handlePCCreateDc` fills it. -/
structure DataChannelInit where
  ordered : Option Bool := none
  maxRetransmits : Option Int := none
  maxPacketLifeTime : Option Int := none
  deriving DecidableEq

/-- The options that `handlePCCreateDc` reads. -/
def dcInit (env : Platform) (data : Data) : DataChannelInit :=
  match data.map? "options" with
  | none => {}
  | some opts => {
      ordered := opts.bool? "ordered"
      maxRetransmits := env.uint16? opts "max_retransmits"
      maxPacketLifeTime := env.uint16? opts "max_packet_lifetime_ms" }

end PionBridge.Server
