import PionBridge.Server.Handler

/-!
# `PionBridge.Proofs.Cache.Lookups`: what a profile is made from

`buildProfile` reads its two payloads through lookups: a flag, a number or a string under a key, or
a list of names. Two payloads on which these lookups agree build the same profile, or neither
builds one (`toOption_buildProfile`). Which error comes out is not compared.

The names of codecs are compared only as far as there is such a codec, since an unknown name makes
the whole payload fail.
-/

set_option autoImplicit false

namespace PionBridge.Server

/-! ### Results without their errors -/

section

variable {ε α β : Type}

theorem toOption_bind (x : Except ε α) (f : α → Except ε β) :
    (x >>= f).toOption = x.toOption.bind fun a => (f a).toOption := by
  cases x <;> rfl

theorem toOption_mapError {ε' : Type} (f : ε → ε') (x : Except ε α) :
    (x.mapError f).toOption = x.toOption := by
  cases x <;> rfl

theorem toOption_map (f : α → β) (x : Except ε α) : (x.map f).toOption = x.toOption.map f := by
  cases x <;> rfl

end

/-! ### Settings -/

/-- The keys at which `applySettingsEngine` reads a flag. -/
def flagKeys : List String := [
  "disable_active_tcp", "disable_certificate_fingerprint_verification", "disable_close_by_dtls",
  "disable_srtcp_replay_protection", "disable_srtp_replay_protection", "detach_data_channels",
  "enable_data_channel_block_write", "enable_sctp_zero_checksum", "ice_renomination",
  "include_loopback_candidate"]

/-- The keys at which it reads a number. -/
def numberKeys : List String := [
  "sctp_max_receive_buffer_size", "sctp_max_message_size", "sctp_min_cwnd", "sctp_cwnd_ca_step",
  "receive_mtu", "ice_max_binding_requests", "dtls_replay_protection_window",
  "srtcp_replay_protection_window", "srtp_replay_protection_window", "ephemeral_udp_port_min",
  "ephemeral_udp_port_max", "ice_disconnected_timeout_ms", "ice_failed_timeout_ms",
  "ice_keepalive_ms", "host_acceptance_min_wait_ms", "srflx_acceptance_min_wait_ms",
  "prflx_acceptance_min_wait_ms", "relay_acceptance_min_wait_ms", "ice_renomination_interval_ms",
  "dtls_retransmission_interval_ms", "sctp_rto_max_ms", "stun_gather_timeout_ms"]

section

variable {env : Platform} {c c' : Data}

variable (env c c') in
/-- The lookups of `applySettingsEngine` agree. -/
structure SameSettings : Prop where
  flags : ∀ key ∈ flagKeys, c.bool? key = c'.bool? key
  numbers : ∀ key ∈ numberKeys, env.int? c key = env.int? c' key
  hostName : (c.str? "multicast_dns_host_name").filter (· ≠ "")
    = (c'.str? "multicast_dns_host_name").filter (· ≠ "")
  whitelist : (interfaceFilter c).toOption = (interfaceFilter c').toOption

theorem SameSettings.ephemeralUDPPortRange (h : SameSettings env c c') :
    ephemeralUDPPortRange env c = ephemeralUDPPortRange env c' := by
  unfold Server.ephemeralUDPPortRange
  rw [h.numbers "ephemeral_udp_port_min" (by decide),
    h.numbers "ephemeral_udp_port_max" (by decide)]

theorem SameSettings.iceTimeouts (h : SameSettings env c c') :
    iceTimeouts env c = iceTimeouts env c' := by
  unfold Server.iceTimeouts
  rw [h.numbers "ice_disconnected_timeout_ms" (by decide),
    h.numbers "ice_failed_timeout_ms" (by decide), h.numbers "ice_keepalive_ms" (by decide)]

theorem SameSettings.iceRenomination (h : SameSettings env c c') :
    iceRenomination env c = iceRenomination env c' := by
  unfold Server.iceRenomination
  rw [h.flags "ice_renomination" (by decide),
    h.numbers "ice_renomination_interval_ms" (by decide)]

theorem toOption_applySettingsEngine (h : SameSettings env c c') :
    (applySettingsEngine env c).toOption = (applySettingsEngine env c').toOption := by
  have hflag := h.flags
  have hnumber := h.numbers
  simp only [flagKeys, numberKeys, List.forall_mem_cons] at hflag hnumber
  unfold applySettingsEngine
  -- Only the whitelist can fail with different errors, and they are gone.
  simp only [toOption_bind, h.ephemeralUDPPortRange, h.iceTimeouts, h.iceRenomination,
    h.whitelist, h.hostName, hflag, hnumber]

end

/-! ### Codecs -/

/-- There is such a video codec. -/
def isVideoCodec (name : String) : Bool := (videoCodecDefs name.toUpper).isSome

/-- The names in a list of names, if all of them are known. -/
def knownNames (known : String → Bool) (v : Option Value) : Option (List String) :=
  (stringList v).toOption.filter fun names => names.all known

section

variable {env : Platform} {m m' : Data}

variable (env m m') in
/-- The lookups of `buildMediaEngine` agree. -/
structure SameCodecs : Prop where
  video : knownNames isVideoCodec (m.get "video_codecs")
    = knownNames isVideoCodec (m'.get "video_codecs")
  audio : knownNames foldsToOpus (m.get "audio_codecs")
    = knownNames foldsToOpus (m'.get "audio_codecs")
  interval : env.int? m "nack_interval_ms" = env.int? m' "nack_interval_ms"

/-- An unknown video codec is refused. -/
theorem registerVideo_of_unknown {names : List String} (h : names.all isVideoCodec = false)
    (codecs : List Codec) : (registerVideo env codecs names).toOption = none := by
  induction names generalizing codecs with
  | nil => cases h
  | cons name names ih =>
      unfold registerVideo
      cases hdef : videoCodecDefs name.toUpper with
      | none => rfl
      | some d =>
          -- This name is known, so the unknown one comes later.
          have hrest : names.all isVideoCodec = false := by
            rw [List.all_cons, isVideoCodec, hdef] at h
            exact h
          dsimp only
          rw [toOption_bind]
          cases (registerCodecs env codecs d.codecs).toOption with
          | none => rfl
          | some codecs => exact ih hrest codecs

/-- An unknown audio codec is refused. -/
theorem registerAudio_of_unknown {names : List String} (h : names.all foldsToOpus = false)
    (codecs : List Codec) : (registerAudio env codecs names).toOption = none := by
  induction names generalizing codecs with
  | nil => cases h
  | cons name names ih =>
      unfold registerAudio
      split
      · rename_i hname
        have hrest : names.all foldsToOpus = false := by
          rw [List.all_cons, hname] at h
          exact h
        rw [toOption_bind]
        cases (registerCodecs env codecs [opusCodec]).toOption with
        | none => rfl
        | some codecs => exact ih hrest codecs
      · rfl

/-- A list of names matters only if all of them are known. -/
theorem bind_knownNames {known : String → Bool} {v : Option Value} {β : Type}
    {f : List String → Option β} (hf : ∀ names, names.all known = false → f names = none) :
    (stringList v).toOption.bind f = (knownNames known v).bind f := by
  unfold knownNames
  cases (stringList v).toOption with
  | none => rfl
  | some names =>
      cases hall : names.all known with
      | true => rw [Option.filter_some, hall, if_pos rfl]
      | false =>
          rw [Option.filter_some, hall, if_neg Bool.false_ne_true]
          exact hf names hall

theorem toOption_buildMediaEngine (h : SameCodecs env m m') :
    (buildMediaEngine env m).toOption = (buildMediaEngine env m').toOption := by
  have hinterval : nackInterval env m = nackInterval env m' := by
    unfold nackInterval
    rw [h.interval]
  unfold buildMediaEngine labelError
  simp only [toOption_bind, toOption_mapError, hinterval]
  -- The names go into the rest only through the codecs that they register.
  have hvideo : ∀ (v : Option Value) (f : List Codec → Option MediaEngine),
      ((stringList v).toOption.bind fun names => (registerVideo env [] names).toOption.bind f)
        = (knownNames isVideoCodec v).bind fun names =>
          (registerVideo env [] names).toOption.bind f := by
    intro v f
    exact bind_knownNames fun names hnames => by rw [registerVideo_of_unknown hnames]; rfl
  have haudio : ∀ (codecs : List Codec) (v : Option Value) (f : List Codec → Option MediaEngine),
      ((stringList v).toOption.bind fun names => (registerAudio env codecs names).toOption.bind f)
        = (knownNames foldsToOpus v).bind fun names =>
          (registerAudio env codecs names).toOption.bind f := by
    intro codecs v f
    exact bind_knownNames fun names hnames => by rw [registerAudio_of_unknown hnames]; rfl
  simp only [hvideo, haudio, h.video, h.audio]

end

/-! ### Profiles -/

/-- Payloads on which all lookups agree build the same profile, or none. -/
theorem toOption_buildProfile {env : Platform} {cfg cfg' media media' : Option Data}
    (hcfg : Option.Rel (SameSettings env) cfg cfg')
    (hmedia : Option.Rel (SameCodecs env) media media') :
    (buildProfile env cfg media).toOption = (buildProfile env cfg' media').toOption := by
  have hengine : (profileMedia env media).toOption = (profileMedia env media').toOption := by
    cases hmedia with
    | none => rfl
    | some h =>
        simp only [profileMedia, toOption_map, toOption_mapError, toOption_buildMediaEngine h]
  unfold buildProfile
  simp only [toOption_bind, hengine]
  cases hcfg with
  | none => rfl
  | some h =>
      simp only [profileSettings, toOption_mapError, toOption_applySettingsEngine h,
        Option.bind_some, h.flags "detach_data_channels" (by decide),
        h.numbers "sctp_max_message_size" (by decide)]

end PionBridge.Server
