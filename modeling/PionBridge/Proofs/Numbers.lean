import PionBridge.Lib.Decode
import PionBridge.Server.Inbound
import PionBridge.Server.Process

/-!
# `PionBridge.Proofs.Numbers`: numbers of a request on their way to pion

A number of a request has one of Go's integer types. `toInt`, `toUint64` and `toUint16` convert it,
and most settings are converted once more, to the type of pion's setter or to a `time.Duration`.
No conversion checks the range.

Every conversion keeps the number modulo a power of two. So the number that gets to pion is the sent
one, times the unit of the setting, wrapped once to the type of the setter (`wrap_mul_wrap`), and
it means what was sent exactly when that type holds it (`wrap_eq_iff`). `numericSettings` lists the
settings with their types and units. `NumberLaws` has the numbers of the other requests beside
them.

A range of ports is checked by pion after the conversion, so a range above 65535 can pass the check
(`PortLaw`). The limit of `readDetached` is taken before the conversion to `uint32` that pion's
limit goes through, and the two differ for every size out of that range.
-/

set_option autoImplicit false

namespace PionBridge.Server

open PionBridge.Lib

/-! ### Conversions -/

namespace Platform

variable {env : Platform} {kind : IntKind} {n : Int}

/-- No type has more than 64 bits, so a multiple of `2 ^ 64` is lost in each of them. -/
theorem wrap_add_mul (env : Platform) (kind : IntKind) (n k : Int) :
    env.wrap kind (n + 2 ^ 64 * k) = env.wrap kind n := by
  unfold wrap IntKind.wrap
  cases hs : kind.signed with
  | true =>
      obtain hw | hw | hw | hw := kind.width_cases env.word <;>
        simp only [hw, if_true, Int.bmod_def] <;> omega
  | false =>
      obtain hw | hw | hw | hw := kind.width_cases env.word <;>
        simp only [hw, Bool.false_eq_true, if_false] <;> omega

theorem int64_wrap_eq (env : Platform) (n : Int) : ∃ k, env.wrap .int64 n = n + 2 ^ 64 * k := by
  simp only [wrap, IntKind.wrap, IntKind.signed, IntKind.width, if_true, Int.bmod_def]
  split
  · exact ⟨-(n / 2 ^ 64), by omega⟩
  · exact ⟨-(n / 2 ^ 64) - 1, by omega⟩

/-- A conversion through `int64` before a multiplication changes nothing. -/
theorem wrap_mul_wrap (env : Platform) (kind : IntKind) (n unit : Int) :
    env.wrap kind (env.wrap .int64 n * unit) = env.wrap kind (n * unit) := by
  obtain ⟨k, hk⟩ := int64_wrap_eq env n
  have hmul : env.wrap .int64 n * unit = n * unit + 2 ^ 64 * (k * unit) := by
    rw [hk, Int.add_mul, Int.mul_assoc]
  rw [hmul, wrap_add_mul]

theorem wrap_wrap (env : Platform) (kind : IntKind) (n : Int) :
    env.wrap kind (env.wrap .int64 n) = env.wrap kind n := by
  have h := wrap_mul_wrap env kind n 1
  rwa [Int.mul_one, Int.mul_one] at h

theorem holds_wrap (env : Platform) (kind : IntKind) (n : Int) :
    env.Holds kind (env.wrap kind n) := by
  unfold Holds IntKind.Holds wrap IntKind.wrap
  cases hs : kind.signed with
  | true =>
      obtain hw | hw | hw | hw := kind.width_cases env.word <;>
        simp only [hw, if_true, Int.bmod_def] <;> omega
  | false =>
      obtain hw | hw | hw | hw := kind.width_cases env.word <;>
        simp only [hw, Bool.false_eq_true, if_false] <;> omega

/-- A conversion is exact exactly on the values of its type. -/
theorem wrap_eq_iff : env.wrap kind n = n ↔ env.Holds kind n := by
  constructor
  · intro h
    rw [← h]
    exact holds_wrap env kind n
  · exact wrap_of_holds

/-- A value of any type has at most 64 bits. -/
theorem bounds_of_holds (h : env.Holds kind n) : -2 ^ 63 ≤ n ∧ n < 2 ^ 64 := by
  unfold Holds IntKind.Holds at h
  cases hs : kind.signed with
  | true =>
      obtain hw | hw | hw | hw := kind.width_cases env.word <;>
        simp only [hs, hw, if_true] at h <;> omega
  | false =>
      obtain hw | hw | hw | hw := kind.width_cases env.word <;>
        simp only [hs, hw, Bool.false_eq_true, if_false] at h <;> omega

end Platform

variable {env : Platform} {cfg : Data} {media : Option Data} {key : String} {kind : IntKind}
  {v : Int}

theorem int?_of_get (env : Platform) (h : cfg.get key = some (.int kind v)) :
    env.int? cfg key = some (env.wrap .int64 v) := by
  rw [Platform.int?, h]
  rfl

theorem uint16?_of_get (env : Platform) (h : cfg.get key = some (.int kind v)) :
    env.uint16? cfg key = some (env.wrap .uint16 v) := by
  rw [Platform.uint16?, h]
  rfl

theorem uint64?_of_get (env : Platform) (h : cfg.get key = some (.int kind v)) :
    env.uint64? cfg key = some (env.wrap .uint64 v) := by
  rw [Platform.uint64?, h]
  rfl

/-! ### Settings -/

/-- A number of `settings_engine`: its key, the type that pion's setter takes, the unit of the key
in that of the setter, and what the setter was given. -/
structure NumericSetting where
  key : String
  kind : IntKind
  unit : Int
  given : SettingEngine → Option Int

/-- The numbers of `settings_engine`. -/
def numericSettings : List NumericSetting := [
  ⟨"sctp_max_receive_buffer_size", .uint32, 1, (·.sctpMaxReceiveBufferSize)⟩,
  ⟨"sctp_max_message_size", .uint32, 1, (·.sctpMaxMessageSize)⟩,
  ⟨"sctp_min_cwnd", .uint32, 1, (·.sctpMinCwnd)⟩,
  ⟨"sctp_cwnd_ca_step", .uint32, 1, (·.sctpCwndCAStep)⟩,
  ⟨"receive_mtu", .uint, 1, (·.receiveMTU)⟩,
  ⟨"ice_max_binding_requests", .uint16, 1, (·.iceMaxBindingRequests)⟩,
  ⟨"dtls_replay_protection_window", .uint, 1, (·.dtlsReplayProtectionWindow)⟩,
  ⟨"srtcp_replay_protection_window", .uint, 1, (·.srtcpReplayProtectionWindow)⟩,
  ⟨"srtp_replay_protection_window", .uint, 1, (·.srtpReplayProtectionWindow)⟩,
  ⟨"host_acceptance_min_wait_ms", .int64, millisecond, (·.hostAcceptanceMinWait)⟩,
  ⟨"srflx_acceptance_min_wait_ms", .int64, millisecond, (·.srflxAcceptanceMinWait)⟩,
  ⟨"prflx_acceptance_min_wait_ms", .int64, millisecond, (·.prflxAcceptanceMinWait)⟩,
  ⟨"relay_acceptance_min_wait_ms", .int64, millisecond, (·.relayAcceptanceMinWait)⟩,
  ⟨"dtls_retransmission_interval_ms", .int64, millisecond, (·.dtlsRetransmissionInterval)⟩,
  ⟨"sctp_rto_max_ms", .int64, millisecond, (·.sctpRTOMax)⟩,
  ⟨"stun_gather_timeout_ms", .int64, millisecond, (·.stunGatherTimeout)⟩,
  ⟨"ephemeral_udp_port_min", .uint16, 1, (·.ephemeralUDPPortRange.map (·.1))⟩,
  ⟨"ephemeral_udp_port_max", .uint16, 1, (·.ephemeralUDPPortRange.map (·.2))⟩,
  ⟨"ice_disconnected_timeout_ms", .int64, millisecond, (·.iceTimeouts.map (·.1))⟩,
  ⟨"ice_failed_timeout_ms", .int64, millisecond, (·.iceTimeouts.map (·.2.1))⟩,
  ⟨"ice_keepalive_ms", .int64, millisecond, (·.iceTimeouts.map (·.2.2))⟩,
  ⟨"ice_renomination_interval_ms", .int64, millisecond, (·.iceRenomination.join)⟩]

/-- `x` is what the setter gets for the value of the key in the map. -/
def NumericSetting.Converts (n : NumericSetting) (env : Platform) (cfg : Data) (x : Int) : Prop :=
  ∃ m, env.int? cfg n.key = some m ∧ x = env.wrap n.kind (m * n.unit)

theorem converts_number {given : SettingEngine → Option Int} {x : Int}
    (h : (env.int? cfg key).map (env.wrap kind) = some x) :
    NumericSetting.Converts ⟨key, kind, 1, given⟩ env cfg x := by
  obtain ⟨m, hm, rfl⟩ := Option.map_eq_some_iff.mp h
  refine ⟨m, hm, ?_⟩
  rw [Int.mul_one]

theorem converts_duration {given : SettingEngine → Option Int} {x : Int}
    (h : (env.int? cfg key).map env.milliseconds = some x) :
    NumericSetting.Converts ⟨key, .int64, millisecond, given⟩ env cfg x := by
  obtain ⟨m, hm, rfl⟩ := Option.map_eq_some_iff.mp h
  exact ⟨m, hm, rfl⟩

/-- The two ports that pion was given. -/
theorem ports_given {range : Option (Int × Int)} {a b : Int}
    (h : ephemeralUDPPortRange env cfg = .ok range) (hrange : range = some (a, b)) :
    (env.int? cfg "ephemeral_udp_port_min").map (env.wrap .uint16) = some a ∧
      (env.int? cfg "ephemeral_udp_port_max").map (env.wrap .uint16) = some b ∧
      env.setEphemeralUDPPortRange a b = none := by
  subst hrange
  unfold ephemeralUDPPortRange at h
  split at h
  · rename_i portMin portMax hmin hmax
    split at h
    · cases h
    · rename_i hset
      cases h
      rw [hmin, hmax]
      exact ⟨rfl, rfl, hset⟩
  · cases h
  · cases h

/-- The three timeouts that pion was given. -/
theorem timeouts_given {timeouts : Option (Int × Int × Int)} {a b c : Int}
    (h : iceTimeouts env cfg = .ok timeouts) (htimeouts : timeouts = some (a, b, c)) :
    (env.int? cfg "ice_disconnected_timeout_ms").map env.milliseconds = some a ∧
      (env.int? cfg "ice_failed_timeout_ms").map env.milliseconds = some b ∧
      (env.int? cfg "ice_keepalive_ms").map env.milliseconds = some c := by
  subst htimeouts
  unfold iceTimeouts at h
  split at h
  · rename_i discMs failMs keepMs hdisc hfail hkeep
    cases h
    rw [hdisc, hfail, hkeep]
    exact ⟨rfl, rfl, rfl⟩
  · cases h
  · cases h

/-- The interval that pion was given. Without `ice_renomination` it is not read. -/
theorem interval_given {renomination : Option (Option Int)} {x : Int}
    (h : iceRenomination env cfg = .ok renomination) (hx : renomination = some (some x)) :
    (env.int? cfg "ice_renomination_interval_ms").map env.milliseconds = some x := by
  subst hx
  unfold iceRenomination at h
  split at h
  · dsimp only at h
    split at h
    · cases h
    · injection h with h
      injection h
  · cases h

/-- What pion gets for a number is a conversion of the value of its key. -/
theorem converts_of_apply {se : SettingEngine} {n : NumericSetting} {x : Int}
    (hn : n ∈ numericSettings) (h : applySettingsEngine env cfg = .ok se)
    (hx : n.given se = some x) : n.Converts env cfg x := by
  obtain ⟨ports, hports, h⟩ := exists_of_bind_ok h
  obtain ⟨timeouts, htimeouts, h⟩ := exists_of_bind_ok h
  obtain ⟨renomination, hrenomination, h⟩ := exists_of_bind_ok h
  obtain ⟨filter, -, h⟩ := exists_of_bind_ok h
  cases h
  -- In the order of the list: nine plain numbers, seven durations, and the rest.
  simp only [numericSettings, List.mem_cons, List.not_mem_nil, or_false] at hn
  obtain rfl | rfl | rfl | rfl | rfl | rfl | rfl | rfl | rfl | hn := hn
  iterate 9 exact converts_number hx
  obtain rfl | rfl | rfl | rfl | rfl | rfl | rfl | hn := hn
  iterate 7 exact converts_duration hx
  -- The ports, the timeouts and the interval have a part of the state of their own.
  obtain rfl | rfl | hn := hn
  · obtain ⟨⟨a, b⟩, hrange, rfl⟩ := Option.map_eq_some_iff.mp hx
    exact converts_number (ports_given hports hrange).1
  · obtain ⟨⟨a, b⟩, hrange, rfl⟩ := Option.map_eq_some_iff.mp hx
    exact converts_number (ports_given hports hrange).2.1
  obtain rfl | rfl | rfl | rfl := hn
  · obtain ⟨⟨a, b, c⟩, hgiven, rfl⟩ := Option.map_eq_some_iff.mp hx
    exact converts_duration (timeouts_given htimeouts hgiven).1
  · obtain ⟨⟨a, b, c⟩, hgiven, rfl⟩ := Option.map_eq_some_iff.mp hx
    exact converts_duration (timeouts_given htimeouts hgiven).2.1
  · obtain ⟨⟨a, b, c⟩, hgiven, rfl⟩ := Option.map_eq_some_iff.mp hx
    exact converts_duration (timeouts_given htimeouts hgiven).2.2
  · exact converts_duration (interval_given hrenomination (Option.join_eq_some_iff.mp hx))

/-- A number that a setter gets means the one that was sent exactly when the type of the setter
holds it. -/
theorem setting_exact_iff {se : SettingEngine} {n : NumericSetting} {x : Int}
    (hn : n ∈ numericSettings) (hget : cfg.get n.key = some (.int kind v))
    (h : applySettingsEngine env cfg = .ok se) (hx : n.given se = some x) :
    x = v * n.unit ↔ env.Holds n.kind (v * n.unit) := by
  obtain ⟨m, hm, rfl⟩ := converts_of_apply hn h hx
  cases (int?_of_get env hget).symm.trans hm
  rw [Platform.wrap_mul_wrap, Platform.wrap_eq_iff]

theorem buildProfile_ok {p : ApiProfile} (h : buildProfile env (some cfg) media = .ok p) :
    applySettingsEngine env cfg = .ok p.settings ∧ p.maxMessageSize =
      ((env.int? cfg "sctp_max_message_size").map (env.wrap .int)).getD 0 := by
  obtain ⟨settings, hsettings, h⟩ := exists_of_bind_ok h
  obtain ⟨engine, -, h⟩ := exists_of_bind_ok h
  cases h
  exact ⟨ok_of_mapError_ok hsettings, rfl⟩

/-! ### Handlers with the number that they hand over -/

namespace ServerState

/-- `handlePCAddIce`, with the index of the media line that it hands to pion. -/
def addIceWith (out : Surroundings) (index : Option Int) (st : ServerState) (msg : Message) :
    Turn :=
  st.lookupThen out msg lookupPC fun pc st =>
    let candidate := (msg.data.str? "candidate").getD ""
    if candidate = "" then st.refuse msg.id "INVALID_REQUEST" "missing candidate" msg.handle
    else
      st.attempt msg.id msg.handle
        (out.answer (.addICECandidate pc ⟨candidate, msg.data.str? "sdp_mid", index⟩)) fun _ =>
          .ret st (ackResponse "pc:addIce" msg.id msg.handle [])

theorem handlePCAddIce_eq (env : Platform) (out : Surroundings) (st : ServerState)
    (msg : Message) : st.handlePCAddIce env out msg =
      st.addIceWith out (env.uint16? msg.data "sdp_mline_index") msg := rfl

/-- `handleDCSetBufferedAmountLowThreshold`, with the threshold that it hands to pion. -/
def setThresholdWith (out : Surroundings) (threshold : Nat) (st : ServerState) (msg : Message) :
    Turn :=
  st.lookupThen out msg lookupDC fun dc st =>
    .after st (out.answer (.setBufferedAmountLowThreshold dc threshold)) fun _ =>
      .ret st (ackResponse "dc:setBufferedAmountLowThreshold" msg.id msg.handle [])

theorem handleDCSetBufferedAmountLowThreshold_eq (env : Platform) (out : Surroundings)
    (st : ServerState) (msg : Message) {threshold : Int}
    (h : env.uint64? msg.data "threshold" = some threshold) :
    st.handleDCSetBufferedAmountLowThreshold env out msg =
      st.setThresholdWith out threshold.toNat msg := by
  simp only [handleDCSetBufferedAmountLowThreshold, setThresholdWith, h]

end ServerState

open ServerState

/-! ### The laws -/

/-- What becomes of the number `v` of the type `kind` at each of its places. Where a request is
answered with an error, or the number is not read, there is nothing to say. -/
structure NumberLaws (env : Platform) (kind : IntKind) (v : Int) : Prop where
  /-- The settings of `init` and `pc:create`. -/
  settings : ∀ n ∈ numericSettings, ∀ cfg media p x, cfg.get n.key = some (.int kind v) →
    buildProfile env (some cfg) media = .ok p → n.given p.settings = some x →
      (x = v * n.unit ↔ env.Holds n.kind (v * n.unit))
  /-- The limit of `readDetached`, and the size that pion was given. -/
  limit : ∀ cfg media p, cfg.get "sctp_max_message_size" = some (.int kind v) →
    buildProfile env (some cfg) media = .ok p →
      (p.settings.sctpMaxMessageSize = some v ∧ p.maxMessageSize = v ↔
        env.Holds .uint32 v ∧ env.Holds .int v) ∧
      (env.Holds .uint32 v → env.Holds .int v →
        (readLimit p.maxMessageSize : Int) = if v = 0 then 1073741823 else v)
  /-- `dc_config`, with the configuration before the `init`. -/
  lowThreshold : ∀ old data dc, data.map? "dc_config" = some dc →
    dc.get "buffered_amount_low_threshold" = some (.int kind v) →
      (((applyDCConfig env old data).bufferedAmountLowThreshold : Int) = v ↔
        env.Holds .uint64 v)
  /-- A depth of 1 or more is stored, and any other is ignored. The check is made on an `int64`. -/
  queueDepth : ∀ data dc, data.map? "dc_config" = some dc →
    dc.get "send_queue_depth" = some (.int kind v) →
      ((∀ old, (applyDCConfig env old data).sendQueueDepth = v ∨
        (applyDCConfig env old data).sendQueueDepth = old.sendQueueDepth) ↔
        (1 ≤ v ∧ v < 2 ^ 63 → env.Holds .int v))
  /-- The options of `pc:createDc`. -/
  maxRetransmits : ∀ data opts, data.map? "options" = some opts →
    opts.get "max_retransmits" = some (.int kind v) →
      ((dcInit env data).maxRetransmits = some v ↔ env.Holds .uint16 v)
  maxPacketLifeTime : ∀ data opts, data.map? "options" = some opts →
    opts.get "max_packet_lifetime_ms" = some (.int kind v) →
      ((dcInit env data).maxPacketLifeTime = some v ↔ env.Holds .uint16 v)
  /-- `pc:addIce`. -/
  mLineIndex : ∀ out st msg, msg.data.get "sdp_mline_index" = some (.int kind v) →
    ∃ x, handlePCAddIce env out st msg = addIceWith out (some x) st msg ∧
      (x = v ↔ env.Holds .uint16 v)
  /-- `dc:setBufferedAmountLowThreshold`. -/
  threshold : ∀ out st msg, msg.data.get "threshold" = some (.int kind v) →
    ∃ x : Nat, handleDCSetBufferedAmountLowThreshold env out st msg =
        setThresholdWith out x st msg ∧ (x = v ↔ env.Holds .uint64 v)

/-- Two numbers that are accepted as a range of ports are one exactly when both are `uint16` values.
pion checks the order of the two that it is given. -/
def PortLaw (env : Platform) : Prop :=
  (∀ a b, env.setEphemeralUDPPortRange a b = none → a ≤ b) →
  ∀ cfg media p kind₁ portMin kind₂ portMax,
    cfg.get "ephemeral_udp_port_min" = some (.int kind₁ portMin) →
    cfg.get "ephemeral_udp_port_max" = some (.int kind₂ portMax) →
    buildProfile env (some cfg) media = .ok p →
      (0 ≤ portMin ∧ portMin ≤ portMax ∧ portMax ≤ 65535 ↔
        env.Holds .uint16 portMin ∧ env.Holds .uint16 portMax)

theorem uint16_holds_iff {n : Int} : env.Holds .uint16 n ↔ 0 ≤ n ∧ n ≤ 65535 := by
  show (0 ≤ n ∧ n < 2 ^ 16) ↔ _
  omega

theorem uint64_toNat_iff {n : Int} :
    ((env.wrap .uint64 n).toNat : Int) = n ↔ env.Holds .uint64 n := by
  have hnonneg : 0 ≤ env.wrap .uint64 n := (Platform.holds_wrap env .uint64 n).1
  rw [Int.toNat_of_nonneg hnonneg, Platform.wrap_eq_iff]

/-- On the way through `int64`, a number of any type stays the same or becomes negative. -/
theorem int64_wrap_cases (hv : env.Holds kind v) :
    env.wrap .int64 v = v ∧ v < 2 ^ 63 ∨ env.wrap .int64 v < 0 ∧ 2 ^ 63 ≤ v := by
  have hbounds := Platform.bounds_of_holds hv
  simp only [IntKind.wrap, IntKind.signed, IntKind.width, if_true, Int.bmod_def]
  omega

/-- The parts of accepted settings that are read elsewhere too. -/
theorem parts_of_apply {se : SettingEngine} (h : applySettingsEngine env cfg = .ok se) :
    ephemeralUDPPortRange env cfg = .ok se.ephemeralUDPPortRange ∧ se.sctpMaxMessageSize =
      (env.int? cfg "sctp_max_message_size").map (env.wrap .uint32) := by
  obtain ⟨ports, hports, h⟩ := exists_of_bind_ok h
  obtain ⟨timeouts, -, h⟩ := exists_of_bind_ok h
  obtain ⟨renomination, -, h⟩ := exists_of_bind_ok h
  obtain ⟨filter, -, h⟩ := exists_of_bind_ok h
  cases h
  exact ⟨hports, rfl⟩

/-- pion and `readDetached` both get the size that was sent if it is a value of `uint32` and of
`int`. On 64 bits `int` has all values of `uint32`. -/
theorem limit_iff {p : ApiProfile}
    (hget : cfg.get "sctp_max_message_size" = some (.int kind v))
    (h : buildProfile env (some cfg) media = .ok p) :
    (p.settings.sctpMaxMessageSize = some v ∧ p.maxMessageSize = v ↔
        env.Holds .uint32 v ∧ env.Holds .int v) ∧
      (env.Holds .uint32 v → env.Holds .int v →
        (readLimit p.maxMessageSize : Int) = if v = 0 then 1073741823 else v) := by
  obtain ⟨happly, hsize⟩ := buildProfile_ok h
  have hgiven := (parts_of_apply happly).2
  rw [int?_of_get env hget, Option.map_some, Platform.wrap_wrap] at hgiven hsize
  rw [Option.getD_some] at hsize
  refine ⟨?_, fun huint hint => ?_⟩
  · rw [hgiven, hsize, Option.some.injEq, Platform.wrap_eq_iff, Platform.wrap_eq_iff]
  · have hrange : 0 ≤ v ∧ v < 2 ^ 32 := huint
    have hsame : p.maxMessageSize = v := hsize.trans (Platform.wrap_of_holds hint)
    rw [hsame, readLimit]
    split <;> split <;> omega

/-- What becomes of a queue depth, with the configuration before. -/
theorem sendQueueDepth_eq (hv : env.Holds kind v) (old : DCConfig) {data dc : Data}
    (hdc : data.map? "dc_config" = some dc)
    (hget : dc.get "send_queue_depth" = some (.int kind v)) :
    (applyDCConfig env old data).sendQueueDepth =
      if 1 ≤ v ∧ v < 2 ^ 63 then env.wrap .int v else old.sendQueueDepth := by
  simp only [applyDCConfig, hdc, int?_of_get env hget]
  -- The check is made on the converted value, and a number that was changed is negative.
  by_cases hpos : 1 ≤ env.wrap .int64 v
  · have hrange : 1 ≤ v ∧ v < 2 ^ 63 := by
      obtain ⟨hsame, hlt⟩ | ⟨hneg, -⟩ := int64_wrap_cases hv <;> omega
    simp only [Option.filter, hpos, decide_true, if_true, Option.map_some, Option.getD_some,
      Platform.wrap_wrap, if_pos hrange]
  · have hrange : ¬ (1 ≤ v ∧ v < 2 ^ 63) := by
      obtain ⟨hsame, hlt⟩ | ⟨hneg, hle⟩ := int64_wrap_cases hv <;> omega
    rw [if_neg hrange]
    simp [Option.filter, hpos]

/-- A depth is stored as it is or ignored, unless it is positive and too large for `int`. -/
theorem queueDepth_iff (hv : env.Holds kind v) {data dc : Data}
    (hdc : data.map? "dc_config" = some dc)
    (hget : dc.get "send_queue_depth" = some (.int kind v)) :
    (∀ old, (applyDCConfig env old data).sendQueueDepth = v ∨
      (applyDCConfig env old data).sendQueueDepth = old.sendQueueDepth) ↔
      (1 ≤ v ∧ v < 2 ^ 63 → env.Holds .int v) := by
  simp only [sendQueueDepth_eq hv _ hdc hget]
  by_cases hrange : 1 ≤ v ∧ v < 2 ^ 63
  · simp only [if_pos hrange]
    refine ⟨fun hall _ => ?_, fun hholds _ => .inl (Platform.wrap_of_holds (hholds hrange))⟩
    -- A configuration whose depth is another one tells stored from ignored.
    obtain heq | heq := hall { defaultDCConfig with sendQueueDepth := env.wrap .int v + 1 }
    · exact Platform.wrap_eq_iff.mp heq
    · dsimp only at heq
      omega
  · simp only [if_neg hrange]
    exact iff_of_true (fun _ => .inr trivial) fun h => absurd h hrange

/-- A range that pion accepts is a range of ports exactly when no port was wrapped. -/
theorem portLaw (env : Platform) : PortLaw env := by
  intro hpion cfg media p kind₁ portMin kind₂ portMax hmin hmax hbuild
  have hrange := (parts_of_apply (buildProfile_ok hbuild).1).1
  simp only [ephemeralUDPPortRange, int?_of_get env hmin, int?_of_get env hmax,
    Platform.wrap_wrap] at hrange
  split at hrange
  · cases hrange
  · rename_i hset
    have hle := hpion _ _ hset
    constructor
    · rw [uint16_holds_iff, uint16_holds_iff]
      omega
    · intro hin
      rw [Platform.wrap_of_holds hin.1, Platform.wrap_of_holds hin.2] at hle
      rw [uint16_holds_iff, uint16_holds_iff] at hin
      omega

/-- For every number of any type, on every platform: the settings, options and arguments that it
becomes mean the number that was sent exactly when the type of the place holds it, in the unit of
the place. A queue depth is stored as it is or ignored, unless it is positive and `int` does not
hold it, which there is on 32 bits only. -/
theorem numbers_exact_iff (env : Platform) (kind : IntKind) (v : Int) (hv : env.Holds kind v) :
    NumberLaws env kind v ∧ PortLaw env := by
  refine ⟨⟨?_, ?_, ?_, ?_, ?_, ?_, ?_, ?_⟩, portLaw env⟩
  · intro n hn cfg media p x hget hbuild hx
    exact setting_exact_iff hn hget (buildProfile_ok hbuild).1 hx
  · intro cfg media p hget hbuild
    exact limit_iff hget hbuild
  · intro old data dc hdc hget
    simp only [applyDCConfig, hdc, uint64?_of_get env hget]
    exact uint64_toNat_iff
  · intro data dc hdc hget
    exact queueDepth_iff hv hdc hget
  · intro data opts hopts hget
    simp only [dcInit, hopts, uint16?_of_get env hget, Option.some.injEq]
    exact Platform.wrap_eq_iff
  · intro data opts hopts hget
    simp only [dcInit, hopts, uint16?_of_get env hget, Option.some.injEq]
    exact Platform.wrap_eq_iff
  · intro out st msg hget
    refine ⟨env.wrap .uint16 v, ?_, Platform.wrap_eq_iff⟩
    rw [handlePCAddIce_eq, uint16?_of_get env hget]
  · intro out st msg hget
    refine ⟨(env.wrap .uint64 v).toNat, ?_, uint64_toNat_iff⟩
    exact handleDCSetBufferedAmountLowThreshold_eq env out st msg (uint64?_of_get env hget)

/-- A pion that accepts what the bridge gives it, apart from a range of ports in the wrong order, on
a target of the word size. -/
def orderedPlatform (word : WordSize) : Platform where
  word := word
  overflow _ _ := 0
  makeChan n := if 0 ≤ n then .made else .outOfRange
  profileKey _ _ := .ok ""
  quote s := s
  setEphemeralUDPPortRange a b := if a ≤ b then none else some "invalid port"
  setICERenomination _ := none
  registerCodec codecs c := .ok (if c ∈ codecs then codecs else codecs ++ [c])
  registerInterceptors _ _ := none

/-- The profile of settings with one or two numbers, and nothing else. -/
def profileOf (word : WordSize) (cfg : Data) : Option ApiProfile :=
  (buildProfile (orderedPlatform word) (some cfg) none).toOption

/-- The depth that a new session has after a `dc_config` with one. -/
def depthOf (word : WordSize) (depth : Int) : Int :=
  (applyDCConfig (orderedPlatform word) defaultDCConfig
    [("dc_config", .map [("send_queue_depth", .int .int64 depth)])]).sendQueueDepth

/-- An MTU in range, and a range of ports. -/
theorem numbers_exact_iff_mtu :
    (∃ p, profileOf .w32 [("receive_mtu", .int .int64 1200)] = some p ∧
      p.settings.receiveMTU = some 1200) ∧
    (orderedPlatform .w32).Holds .uint16 5000 ∧ (orderedPlatform .w32).Holds .uint16 5100 := by
  let cfg : Data := [("ephemeral_udp_port_min", .int .int64 5000),
    ("ephemeral_udp_port_max", .int .int64 5100)]
  let mtu : ApiProfile := { settings := { receiveMTU := some 1200 } }
  let ports : ApiProfile := { settings := { ephemeralUDPPortRange := some (5000, 5100) } }
  obtain ⟨laws, portLaw⟩ := numbers_exact_iff (orderedPlatform .w32) .int64 1200 (by decide)
  constructor
  · have hx := (laws.settings ⟨"receive_mtu", .uint, 1, (·.receiveMTU)⟩
      (List.mem_of_getElem? (rfl : numericSettings[4]? = some _))
      [("receive_mtu", .int .int64 1200)] none mtu 1200 rfl rfl rfl).mpr (by decide)
    exact ⟨mtu, rfl, congrArg some hx⟩
  · have hpion : ∀ a b, (orderedPlatform .w32).setEphemeralUDPPortRange a b = none → a ≤ b := by
      intro a b hnone
      by_contra hlt
      simp [orderedPlatform, hlt] at hnone
    exact (portLaw hpion cfg none ports .int64 5000 .int64 5100 rfl rfl rfl).mp (by decide)

/-- Numbers out of range are accepted, on every target: 65541 binding requests become 5, the ports
65537 and 65538 become 1 and 2, a message size of 2 ^ 32 becomes 0 for pion, a timeout of
9223372036855 ms becomes negative, and -1 becomes the largest number of its type. On 32 bits a queue
depth of 2 ^ 32 + 1 becomes 1, an MTU of 2 ^ 32 + 1200 becomes 1200, and a message size of 2 ^ 31 is
given to pion as it is and leaves `readDetached` with the default limit. -/
theorem wrapped_numbers :
    (∀ word,
      (profileOf word [("ice_max_binding_requests", .int .int64 65541)]).map
        (·.settings.iceMaxBindingRequests) = some (some 5) ∧
      (profileOf word [("ephemeral_udp_port_min", .int .int64 65537),
        ("ephemeral_udp_port_max", .int .int64 65538)]).map
        (·.settings.ephemeralUDPPortRange) = some (some (1, 2)) ∧
      (profileOf word [("sctp_max_message_size", .int .int64 4294967296)]).map
        (·.settings.sctpMaxMessageSize) = some (some 0) ∧
      (profileOf word [("sctp_rto_max_ms", .int .int64 9223372036855)]).map
        (·.settings.sctpRTOMax) = some (some (-9223372036854551616)) ∧
      (dcInit (orderedPlatform word)
        [("options", .map [("max_retransmits", .int .int64 (-1))])]).maxRetransmits = some 65535 ∧
      (applyDCConfig (orderedPlatform word) defaultDCConfig [("dc_config",
        .map [("buffered_amount_low_threshold", .int .int64 (-1))])]).bufferedAmountLowThreshold
        = 18446744073709551615) ∧
    (profileOf .w64 [("sctp_max_message_size", .int .int64 4294967296)]).map
      (fun p => readLimit p.maxMessageSize) = some 4294967296 ∧
    depthOf .w64 4294967297 = 4294967297 ∧ depthOf .w32 4294967297 = 1 ∧
    (profileOf .w32 [("receive_mtu", .int .int64 4294968496)]).map
      (·.settings.receiveMTU) = some (some 1200) ∧
    (profileOf .w32 [("sctp_max_message_size", .int .int64 2147483648)]).map
      (fun p => (p.settings.sctpMaxMessageSize, readLimit p.maxMessageSize))
      = some (some 2147483648, 1073741823) := by
  refine ⟨fun word => ?_, rfl, rfl, rfl, rfl, rfl⟩
  cases word <;> exact ⟨rfl, rfl, rfl, rfl, rfl, rfl⟩

end PionBridge.Server
