import Mathlib.Data.Set.Countable
import Mathlib.Logic.Equiv.List
import Mathlib.Tactic.DeriveCountable
import PionBridge.Lib.Memo
import PionBridge.Proofs.Bridge.Config
import PionBridge.Server.Payload

/-!
# `PionBridge.Proofs.Bridge.Override`: settings of one connection

`createPeerConnection` takes settings and codecs for one PeerConnection, and what is not passed is
the session's. The Dart side leaves settings without entries out of the request, and the Go side
takes what is missing from the last `init` that it accepted. In between stands the cache of
profiles, whose key is the JSON text of the two payloads.

`override_law_iff` is the result for a whole session: any requests before the `init`, any requests
and failed `init`s after it, and everything that other sessions do. The PeerConnection is made from
the payloads that were passed and from the session's for the others, unless settings without
entries were passed and the session's settings make a difference.

The session's requests come from the Dart side here. Their payloads are the maps that `toMap`
writes, and `Keyed` says that `json.Marshal` has a text for each of them and tells them apart.
-/

set_option autoImplicit false

namespace PionBridge.Server

open PionBridge.Lib PionBridge.Dart PionBridge.Dart.PionSettingsEngine

/-! ### Payloads -/

section

variable (m : Msgpack)

/-- The wire form of settings. -/
def wireSettings (se : Option PionSettingsEngine) : Option Data := se.map (·.decodedMap m)

/-- The wire form of codecs. -/
def wireMedia (me : Option PionMediaEngine) : Option Data :=
  me.map fun e => m.decodedEntries e.toMap

/-- The payloads that the Dart side can send. -/
def payloads : Set (Option Data × Option Data) :=
  Set.range fun p : Option PionSettingsEngine × Option PionMediaEngine =>
    (wireSettings m p.1, wireMedia m p.2)

/-- Settings that are sent are the wire form of some settings. -/
theorem sentSettings_eq (se : Option PionSettingsEngine) :
    sentSettings m se = wireSettings m (se.filter fun s => !s.toMap.isEmpty) := rfl

theorem mem_payloads (se : Option PionSettingsEngine) (me : Option PionMediaEngine) :
    (wireSettings m se, wireMedia m me) ∈ payloads m := ⟨(se, me), rfl⟩

/-- The entry of the codecs in a request. -/
theorem decoded_media (me : Option PionMediaEngine) :
    (me.map fun e => Dart.Value.map e.toMap).map m.decoded = (wireMedia m me).map .map := by
  cases me with
  | none => rfl
  | some e => simp [wireMedia, Msgpack.decoded]

theorem map?_init_media (se : Option PionSettingsEngine) (me : Option PionMediaEngine) :
    (m.decodedEntries (initData se me)).map? "media_engine" = wireMedia m me :=
  map?_of_get ((get_initData m se me _).trans (decoded_media m me))

theorem get_createData (c : CreateCall) (key : String) :
    (m.decodedEntries c.data).get key = (c.fields.lookup key).join.map m.decoded := by
  refine m.get_decodedEntries ?_ key
  show ["settings_engine", "media_engine", "ice_servers", "bundle_policy", "rtcp_mux_policy",
    "ice_transport_policy"].Nodup
  decide

theorem map?_create_settings (c : CreateCall) :
    (m.decodedEntries c.data).map? "settings_engine" = sentSettings m c.settingsEngine :=
  map?_of_get ((get_createData m c _).trans (decoded_sentSettings m c.settingsEngine))

theorem map?_create_media (c : CreateCall) :
    (m.decodedEntries c.data).map? "media_engine" = wireMedia m c.mediaEngine :=
  map?_of_get ((get_createData m c _).trans (decoded_media m c.mediaEngine))

end

/-! ### Profiles -/

section

variable (env : Platform) (m : Msgpack)

/-- The text of a payload, and the error of `profileFor`. -/
def profileText (x : Option Data × Option Data) : Except ProfileError String :=
  (env.profileKey x.1 x.2).mapError .plain

/-- `profileFor` is a request to the cache. -/
theorem profileFor_eq (h : Handler) (cfg media : Option Data) :
    h.profileFor env cfg media
      = (memo (profileText env) (fun x => buildProfile env x.1 x.2) h.profiles (cfg, media)).map
        fun r => (r.1, { h with profiles := r.2 }) := by
  unfold Handler.profileFor memo profileText
  dsimp only
  cases (env.profileKey cfg media).mapError ProfileError.plain with
  | error err => rfl
  | ok key =>
      simp only [bind, Except.bind]
      cases h.profiles.get key with
      | some p => rfl
      | none => cases buildProfile env cfg media <;> rfl

/-- Settings without entries are no settings. -/
theorem buildProfile_nil (media : Option Data) :
    buildProfile env (some []) media = buildProfile env none media := rfl

/-- It does not matter for a profile whether settings without entries were sent. -/
theorem buildProfile_sentSettings (se : Option PionSettingsEngine) (media : Option Data) :
    buildProfile env (sentSettings m se) media = buildProfile env (wireSettings m se) media := by
  cases se with
  | none => rfl
  | some s =>
      rw [sentSettings_some]
      show _ = buildProfile env (some (s.decodedMap m)) media
      split
      · rename_i hempty
        rw [decodedMap_of_isEmpty m s hempty, buildProfile_nil]
      · rfl

end

namespace Bridge

/-! ### What a step does to the settings of a session -/

theorem handlers_lookupThen {w w' : Bridge} {s : Session} {msg : Message} {now : Int}
    {find : Registry → Message → Except Message Nat} {next : Nat → Bridge → Bridge}
    (h : w.lookupThen s msg now find next = some w')
    (hnext : ∀ obj v, (next obj v).handlers = v.handlers) : w'.handlers = w.handlers := by
  obtain ⟨v, hv, rfl⟩ := Option.map_eq_some_iff.mp h
  obtain ⟨calls, -, rfl⟩ := lookup_eq hv
  split
  · rfl
  · exact hnext _ _

/-- Only `init` and `pc:create` change the handler when they are dispatched. -/
theorem handlers_handleMessage {env : Platform} {w w' : Bridge} {s : Session} {msg : Message}
    {now : Int} {failure : Option String} (h : w.handleMessage env s msg now failure = some w') :
    (msg.type = "init" ∧
      w'.handlers = Function.update w.handlers s (handleInit env (w.handlers s) msg).1) ∨
    (msg.type = "pc:create" ∧ ∃ profile handler,
      (w.handlers s).createProfile env msg.data = .ok (profile, handler) ∧
      w'.handlers = Function.update w.handlers s handler) ∨
    w'.handlers = w.handlers := by
  unfold handleMessage at h
  split at h
  case h_1 htype =>
      cases h
      exact Or.inl ⟨htype, rfl⟩
  case h_2 htype =>
      cases h
      unfold handlePCCreate
      cases hprofile : (w.handlers s).createProfile env msg.data with
      | error err => exact Or.inr (Or.inr rfl)
      | ok chosen =>
          refine Or.inr (Or.inl ⟨htype, chosen.1, chosen.2, rfl, ?_⟩)
          cases failure <;> rfl
  case h_3 =>
      refine Or.inr (Or.inr (handlers_lookupThen h fun _ _ => ?_))
      split <;> rfl
  case h_4 => exact Or.inr (Or.inr (handlers_lookupThen h fun _ _ => rfl))
  case h_5 => exact Or.inr (Or.inr (handlers_lookupThen h fun _ _ => rfl))
  case h_6 =>
      split at h
      · cases h
        exact Or.inr (Or.inr rfl)
      · obtain ⟨v, hv, rfl⟩ := Option.map_eq_some_iff.mp h
        obtain ⟨calls, -, rfl⟩ := lookup_eq hv
        exact Or.inr (Or.inr rfl)
  case h_7 => cases h

/-- What a step does to the profiles of session `s`: nothing, an `init`, or a `pc:create`. -/
inductive Handled (env : Platform) (w : Bridge) (s : Session) (h : Handler) : BridgeAction → Prop
  | same (a : BridgeAction) (hsame : h.defaultProfile = (w.handlers s).defaultProfile ∧
      h.defaultSE = (w.handlers s).defaultSE ∧ h.defaultME = (w.handlers s).defaultME ∧
      h.profiles = (w.handlers s).profiles) : Handled env w s h a
  | init (now : Int) (failure : Option String) (msg : Message)
      (ht : w.threads (.reader s) = .dispatch msg) (htype : msg.type = "init")
      (hh : h = (handleInit env (w.handlers s) msg).1) : Handled env w s h (.dispatch s now failure)
  | create (now : Int) (failure : Option String) (msg : Message) (profile : ApiProfile)
      (ht : w.threads (.reader s) = .dispatch msg) (htype : msg.type = "pc:create")
      (hh : (w.handlers s).createProfile env msg.data = .ok (profile, h)) :
      Handled env w s h (.dispatch s now failure)

/-- A handler whose map of PeerConnections has changed. -/
theorem handled_withHandler {env : Platform} {w : Bridge} {s s' : Session}
    {pcProfiles : GoMap Handle ApiProfile} (a : BridgeAction) :
    Handled env w s
      ((w.withHandler s' { w.handlers s' with pcProfiles := pcProfiles }).handlers s) a := by
  refine .same a ?_
  by_cases hs : s = s'
  · subst hs
    simp [withHandler]
  · simp [withHandler, hs]

theorem handled_dispatch {env : Platform} {w w' : Bridge} {s s' : Session} {now : Int}
    {failure : Option String} (h : w.step env (.dispatch s' now failure) = some w') :
    Handled env w s (w'.handlers s) (.dispatch s' now failure) := by
  have hrequest : w.stepRequest env (.dispatch s' now failure) = some w' := h
  unfold stepRequest at hrequest
  dsimp only at hrequest
  split at hrequest
  case h_2 => cases hrequest
  case h_1 msg ht =>
      by_cases hs : s = s'
      · subst hs
        rcases handlers_handleMessage hrequest with
          ⟨htype, hh⟩ | ⟨htype, profile, handler, hprofile, hh⟩ | hh
        · exact .init now failure msg ht htype (by rw [hh, Function.update_self])
        · exact .create now failure msg profile ht htype
            (by rw [hh, Function.update_self, hprofile])
        · exact .same _ (by simp [hh])
      · -- A request of another session writes to that session's handler only.
        have hsame : w'.handlers s = w.handlers s := by
          rcases handlers_handleMessage hrequest with ⟨-, hh⟩ | ⟨-, _, handler, -, hh⟩ | hh
          · rw [hh, Function.update_of_ne hs]
          · rw [hh, Function.update_of_ne hs]
          · rw [hh]
        exact .same _ (by simp [hsame])

theorem handled {env : Platform} {w w' : Bridge} {a : BridgeAction} (s : Session)
    (h : w.step env a = some w') : Handled env w s (w'.handlers s) a := by
  cases moved h with
  | init | refused | newPeer | lookedUp => exact handled_dispatch h
  -- These two write to the map of PeerConnections, which no later `pc:create` reads.
  | setPCProfile | forget => exact handled_withHandler _
  | _ => exact .same _ ⟨rfl, rfl, rfl, rfl⟩

/-! ### Runs -/

/-- The `init` and `pc:create` requests of session `s` are made by the Dart side. -/
def DartRequests (m : Msgpack) (s : Session) (w : Bridge) : BridgeAction → Prop
  | .dispatch s' _ _ => s' = s → ∀ msg, w.threads (.reader s) = .dispatch msg →
      (msg.type = "init" → ∃ id se me, msg = m.initMessage id se me) ∧
      (msg.type = "pc:create" → ∃ id c, msg = m.createMessage id c)
  | _ => True

/-- The step is an `init` of session `s` whose profile can be built. -/
def AcceptsInit (env : Platform) (s : Session) (w : Bridge) : BridgeAction → Prop
  | .dispatch s' _ _ => s' = s ∧ ∃ msg profile, w.threads (.reader s) = .dispatch msg ∧
      msg.type = "init" ∧ buildProfile env (msg.data.map? "settings_engine")
        (msg.data.map? "media_engine") = .ok profile
  | _ => False

/-- The last `init` that the handler accepted had the payloads `se` and `me`. -/
structure Accepted (env : Platform) (m : Msgpack) (se : Option PionSettingsEngine)
    (me : Option PionMediaEngine) (h : Handler) : Prop where
  profile : buildProfile env (sentSettings m se) (wireMedia m me) = .ok h.defaultProfile
  settings : h.defaultSE = sentSettings m se
  media : h.defaultME = wireMedia m me

/-- The payloads of a session are ones of the Dart side, those in its cache included. -/
structure DartInv (env : Platform) (m : Msgpack) (h : Handler) : Prop where
  payload : (h.defaultSE, h.defaultME) ∈ payloads m
  cache : Memo.Sound (profileText env) (fun x => buildProfile env x.1 x.2) (payloads m) h.profiles

section

variable {env : Platform} {m : Msgpack} {h h' : Handler}

/-- What `handlePCCreate` looks up in the cache. -/
theorem DartInv.mem_payloads (hinv : DartInv env m h) (c : CreateCall) :
    ((sentSettings m c.settingsEngine).or h.defaultSE, (wireMedia m c.mediaEngine).or h.defaultME)
      ∈ payloads m := by
  obtain ⟨⟨se, me⟩, hpayload⟩ := hinv.payload
  obtain ⟨hse, hme⟩ := Prod.mk.injEq .. ▸ hpayload
  -- Settings without entries are not sent, so they are not part of the payload.
  refine ⟨((c.settingsEngine.filter fun s => !s.toMap.isEmpty).or se, c.mediaEngine.or me), ?_⟩
  rw [← hse, ← hme, sentSettings_eq]
  simp [wireSettings, wireMedia, Option.map_or]

/-- The profile that a request of the Dart side gets. -/
theorem map_fst_createProfile (hkeyed : Memo.Keyed (profileText env) (payloads m))
    (hinv : DartInv env m h) {se : Option PionSettingsEngine} {me : Option PionMediaEngine}
    (hacc : Accepted env m se me h) (c : CreateCall) :
    (h.createProfile env (m.decodedEntries c.data)).map Prod.fst
      = buildProfile env ((sentSettings m c.settingsEngine).or (sentSettings m se))
        ((wireMedia m c.mediaEngine).or (wireMedia m me)) := by
  have hmem := hinv.mem_payloads c
  unfold Handler.createProfile
  rw [map?_create_settings, map?_create_media]
  dsimp only
  split
  · -- The cache is sound for the payloads of the Dart side, and their texts differ.
    have hcached := Memo.map_fst_memo hkeyed hinv.cache hmem
    rw [hacc.settings, hacc.media] at hcached ⊢
    rw [profileFor_eq, ← hcached]
    generalize memo (profileText env) _ _ _ = answer
    cases answer <;> rfl
  · -- Without payloads of its own the connection gets the default profile.
    rename_i hnone
    obtain ⟨hse, hme⟩ : sentSettings m c.settingsEngine = none ∧
        wireMedia m c.mediaEngine = none := by
      simpa using hnone
    rw [hse, hme, Option.none_or, Option.none_or, hacc.profile]
    rfl

/-- A request of the Dart side keeps the cache sound. -/
theorem DartInv.create (hinv : DartInv env m h) {c : CreateCall} {profile : ApiProfile}
    (hh : h.createProfile env (m.decodedEntries c.data) = .ok (profile, h')) :
    DartInv env m h' := by
  have hkeeps := createProfile_keeps hh
  refine ⟨by rw [hkeeps]; exact hinv.payload, ?_⟩
  unfold Handler.createProfile at hh
  rw [map?_create_settings, map?_create_media] at hh
  dsimp only at hh
  split at hh
  · rw [profileFor_eq] at hh
    cases hmemo : memo (profileText env) (fun x => buildProfile env x.1 x.2) h.profiles
        ((sentSettings m c.settingsEngine).or h.defaultSE,
          (wireMedia m c.mediaEngine).or h.defaultME) with
    | error err =>
        rw [hmemo] at hh
        cases hh
    | ok r =>
        rw [hmemo] at hh
        cases hh
        exact hinv.cache.memo (hinv.mem_payloads c) hmemo
  · cases hh
    exact hinv.cache

/-- The handler after an `init` of the Dart side. -/
theorem handleInit_cases (env : Platform) (h : Handler) (id : Int)
    (se : Option PionSettingsEngine) (me : Option PionMediaEngine) :
    ((handleInit env h (m.initMessage id se me)).1.profiles = h.profiles) ∧
    (Accepted env m se me (handleInit env h (m.initMessage id se me)).1 ∨
      (∃ err, buildProfile env (sentSettings m se) (wireMedia m me) = .error err) ∧
      (handleInit env h (m.initMessage id se me)).1.defaultProfile = h.defaultProfile ∧
      (handleInit env h (m.initMessage id se me)).1.defaultSE = h.defaultSE ∧
      (handleInit env h (m.initMessage id se me)).1.defaultME = h.defaultME) := by
  have hse : (m.initMessage id se me).data.map? "settings_engine" = sentSettings m se :=
    map?_settings_engine m se me
  have hme : (m.initMessage id se me).data.map? "media_engine" = wireMedia m me :=
    map?_init_media m se me
  unfold handleInit
  dsimp only
  rw [hse, hme]
  cases hbuild : buildProfile env (sentSettings m se) (wireMedia m me) with
  | ok profile => exact ⟨rfl, Or.inl ⟨hbuild, rfl, rfl⟩⟩
  | error err => exact ⟨rfl, Or.inr ⟨⟨err, rfl⟩, rfl, rfl, rfl⟩⟩

end

/-- The step lemma for the payloads. -/
theorem DartInv.step {env : Platform} {m : Msgpack} {w w' : Bridge} {s : Session}
    {a : BridgeAction} (hinv : DartInv env m (w.handlers s)) (hC : w.DartRequests m s a)
    (h : w.step env a = some w') : DartInv env m (w'.handlers s) := by
  cases handled s h with
  | same _ hsame =>
      obtain ⟨-, hse, hme, hprofiles⟩ := hsame
      exact ⟨by rw [hse, hme]; exact hinv.payload, by rw [hprofiles]; exact hinv.cache⟩
  | init now failure msg ht htype hh =>
      obtain ⟨id, se, me, rfl⟩ := (hC rfl msg ht).1 htype
      obtain ⟨hprofiles, hcases⟩ := handleInit_cases (m := m) env (w.handlers s) id se me
      rw [← hh] at hprofiles hcases
      -- `handleInit` does not clear the cache, whether or not it accepts the payloads.
      refine ⟨?_, by rw [hprofiles]; exact hinv.cache⟩
      rcases hcases with hacc | ⟨-, -, hse, hme⟩
      · rw [hacc.settings, hacc.media, sentSettings_eq]
        exact Server.mem_payloads m _ _
      · rw [hse, hme]
        exact hinv.payload
  | create now failure msg profile ht htype hh =>
      obtain ⟨id, c, rfl⟩ := (hC rfl msg ht).2 htype
      exact hinv.create hh

/-- The step lemma for the session's configuration: an `init` that fails leaves it. -/
theorem Accepted.step {env : Platform} {m : Msgpack} {w w' : Bridge} {s : Session}
    {a : BridgeAction} {se : Option PionSettingsEngine} {me : Option PionMediaEngine}
    (hacc : Accepted env m se me (w.handlers s)) (hC : w.DartRequests m s a)
    (hfails : ¬ w.AcceptsInit env s a) (h : w.step env a = some w') :
    Accepted env m se me (w'.handlers s) := by
  obtain ⟨hprofile, hse, hme⟩ : (w'.handlers s).defaultProfile = (w.handlers s).defaultProfile ∧
      (w'.handlers s).defaultSE = (w.handlers s).defaultSE ∧
      (w'.handlers s).defaultME = (w.handlers s).defaultME := by
    cases handled s h with
    | same _ hsame => exact ⟨hsame.1, hsame.2.1, hsame.2.2.1⟩
    | init now failure msg ht htype hh =>
        obtain ⟨id, se', me', rfl⟩ := (hC rfl msg ht).1 htype
        obtain ⟨-, hcases⟩ := handleInit_cases (m := m) env (w.handlers s) id se' me'
        rw [← hh] at hcases
        rcases hcases with hacc' | ⟨-, hsame⟩
        · -- The payloads of an accepted `init` build a profile, and the condition excludes that.
          refine absurd ⟨rfl, _, (w'.handlers s).defaultProfile, ht, rfl, ?_⟩ hfails
          rw [← hacc'.profile, ← map?_settings_engine m se' me', ← map?_init_media m se' me']
          rfl
        · exact hsame
    | create now failure msg profile ht htype hh =>
        rw [createProfile_keeps hh]
        exact ⟨rfl, rfl, rfl⟩
  exact ⟨hprofile ▸ hacc.profile, hse.trans hacc.settings, hme.trans hacc.media⟩

/-- The run lemma for the payloads. -/
theorem dartInv_of_reachable {env : Platform} {m : Msgpack} {s : Session} {w : Bridge}
    (hw : (bridgeSystem env).ReachableUnder (DartRequests m s) w) :
    DartInv env m (w.handlers s) := by
  have hnew : DartInv env m newHandler := ⟨⟨(none, none), rfl⟩, Memo.sound_empty⟩
  refine StepSystem.StepsUnder.invariant (I := fun w => DartInv env m (w.handlers s)) hw hnew ?_
  intro t a u _ hinv hC hstep
  exact hinv.step hC hstep

/-- The run lemma for the session's configuration. -/
theorem accepted_of_steps {env : Platform} {m : Msgpack} {s : Session} {w w' : Bridge}
    {se : Option PionSettingsEngine} {me : Option PionMediaEngine}
    (hacc : Accepted env m se me (w.handlers s))
    (hrun : (bridgeSystem env).StepsUnder
      (fun u a => u.DartRequests m s a ∧ ¬ u.AcceptsInit env s a) w w') :
    Accepted env m se me (w'.handlers s) := by
  refine hrun.invariant (I := fun w => Accepted env m se me (w.handlers s)) hacc ?_
  intro t a u _ hacc hC hstep
  exact hacc.step hC.1 hC.2 hstep

/-- An `init` that is acknowledged is accepted. -/
theorem accepted_of_ack {env : Platform} {m : Msgpack} {h : Handler} {id : Int}
    {se : Option PionSettingsEngine} {me : Option PionMediaEngine} {data : Data}
    (hack : (handleInit env h (m.initMessage id se me)).2.2 = ackResponse "init" id "" data) :
    Accepted env m se me (handleInit env h (m.initMessage id se me)).1 := by
  rcases (handleInit_cases env h id se me).2 with hacc | ⟨⟨err, herr⟩, -⟩
  · exact hacc
  · obtain ⟨profile, hprofile, -⟩ := handleInit_ack hack
    have hbuild : buildProfile env (sentSettings m se) (wireMedia m me) = .ok profile := by
      rw [← hprofile, ← map?_settings_engine m se me, ← map?_init_media m se me]
      rfl
    cases herr.symm.trans hbuild

/-! ### The law -/

/-- The PeerConnection that a profile gives, if there is one. -/
def madePeers (profile : Except ProfileError ApiProfile) (data : Data) : List Peer :=
  profile.toOption.toList.map fun p => ⟨p, pcConfiguration data⟩

theorem peers_create {env : Platform} {w w' : Bridge} {s : Session} {msg : Message} {now : Int}
    (htype : msg.type = "pc:create") (ht : w.threads (.reader s) = .dispatch msg)
    (h : w.step env (.dispatch s now none) = some w') :
    w'.peers = w.peers ++
      madePeers (((w.handlers s).createProfile env msg.data).map Prod.fst) msg.data := by
  have hrequest : w.stepRequest env (.dispatch s now none) = some w' := h
  simp only [stepRequest, ht, handleMessage, htype] at hrequest
  cases hrequest
  unfold handlePCCreate
  cases (w.handlers s).createProfile env msg.data with
  | error err => exact (List.append_nil _).symm
  | ok chosen => rfl

end Bridge

/-- The law: the payloads that were passed, and the session's for those that were not. -/
def overrideProfile (env : Platform) (m : Msgpack) (se : Option PionSettingsEngine)
    (me : Option PionMediaEngine) (c : CreateCall) : Except ProfileError ApiProfile :=
  buildProfile env (wireSettings m (c.settingsEngine.or se)) (wireMedia m (c.mediaEngine.or me))

/-- Settings that are accepted leave the errors to the codecs. -/
theorem buildProfile_eq_error_iff {env : Platform} {cfg media : Option Data}
    {settings : SettingEngine} (hs : profileSettings env cfg = .ok settings)
    {err : ProfileError} :
    buildProfile env cfg media = .error err ↔ profileMedia env media = .error err := by
  unfold buildProfile
  rw [hs]
  cases profileMedia env media with
  | error err' =>
      constructor
      · intro h
        cases h
        rfl
      · intro h
        cases h
        rfl
  | ok engine => exact ⟨nofun, nofun⟩

/-- Profiles of two settings that are accepted are the same when the same PeerConnections are
made of them. -/
theorem madePeers_inj {env : Platform} {cfg cfg' media : Option Data}
    {settings settings' : SettingEngine} (hs : profileSettings env cfg = .ok settings)
    (hs' : profileSettings env cfg' = .ok settings') {data : Data} :
    Bridge.madePeers (buildProfile env cfg media) data
      = Bridge.madePeers (buildProfile env cfg' media) data ↔
    buildProfile env cfg media = buildProfile env cfg' media := by
  refine ⟨fun h => ?_, fun h => by rw [h]⟩
  cases hp : buildProfile env cfg media with
  | error err =>
      -- The error is one of the codecs, which both have.
      have hmedia := (buildProfile_eq_error_iff hs).mp hp
      exact ((buildProfile_eq_error_iff hs').mpr hmedia).symm
  | ok p =>
      cases hp' : buildProfile env cfg' media with
      | error err =>
          rw [hp, hp'] at h
          cases h
      | ok p' =>
          rw [hp, hp'] at h
          cases h
          rfl

/-- The profile that is chosen against the one of the law. -/
theorem madePeers_override_iff {env : Platform} {m : Msgpack} {se : Option PionSettingsEngine}
    {settings : SettingEngine} (hs : profileSettings env (sentSettings m se) = .ok settings)
    (me : Option PionMediaEngine) (c : CreateCall) (data : Data) :
    Bridge.madePeers (buildProfile env ((sentSettings m c.settingsEngine).or (sentSettings m se))
        (wireMedia m (c.mediaEngine.or me))) data
      = Bridge.madePeers (overrideProfile env m se me c) data ↔
    ∀ s' ∈ c.settingsEngine, s'.toMap.isEmpty = true →
      buildProfile env (wireSettings m se) (wireMedia m (c.mediaEngine.or me))
        = buildProfile env none (wireMedia m (c.mediaEngine.or me)) := by
  unfold overrideProfile
  generalize wireMedia m (c.mediaEngine.or me) = media
  cases c.settingsEngine with
  | none =>
      refine iff_of_true ?_ (by simp)
      have hsent : sentSettings m none = none := rfl
      rw [hsent, Option.none_or, Option.none_or, buildProfile_sentSettings]
  | some s' =>
      have hwire : wireSettings m ((some s').or se) = some (s'.decodedMap m) := rfl
      rw [sentSettings_some, hwire]
      by_cases hempty : s'.toMap.isEmpty = true
      · -- The settings are left out, and the session's take their place.
        rw [if_pos hempty, Option.none_or, decodedMap_of_isEmpty m s' hempty, buildProfile_nil,
          madePeers_inj hs rfl, buildProfile_sentSettings]
        exact ⟨fun h _ _ _ => h, fun h => h s' rfl hempty⟩
      · rw [if_neg hempty, Option.some_or]
        refine iff_of_true rfl fun s'' hs'' hempty' => ?_
        cases hs''
        exact absurd hempty' hempty

open Bridge

/-- Let an `init` of session `s` with the settings `se` and the codecs `me` be acknowledged, and let
every later `init` of the session fail. Then `createPeerConnection` makes its PeerConnection
from the payloads that were passed and from those of the session for the others, exactly when
settings without entries were not passed, or the session's settings build the same profile as no
settings. -/
theorem override_law_iff (env : Platform) (m : Msgpack) (s : Session)
    (hkeyed : Memo.Keyed (profileText env) (payloads m)) (w₀ w₁ w w' : Bridge)
    (se : Option PionSettingsEngine) (me : Option PionMediaEngine) (id₀ now₀ : Int)
    (failure₀ : Option String) (ackData : Data)
    (hw₀ : (bridgeSystem env).ReachableUnder (DartRequests m s) w₀)
    (hinit : w₀.threads (.reader s) = .dispatch (m.initMessage id₀ se me))
    (hstep₀ : w₀.step env (.dispatch s now₀ failure₀) = some w₁)
    (hack : w₁.out = w₀.out ++ [(s, ackResponse "init" id₀ "" ackData)])
    (hrun : (bridgeSystem env).StepsUnder
      (fun u a => u.DartRequests m s a ∧ ¬ u.AcceptsInit env s a) w₁ w)
    (c : CreateCall) (id now : Int)
    (hcreate : w.threads (.reader s) = .dispatch (m.createMessage id c))
    (hstep : w.step env (.dispatch s now none) = some w') :
    w'.peers = w.peers ++ madePeers (overrideProfile env m se me c) (m.decodedEntries c.data) ↔
      ∀ s' ∈ c.settingsEngine, s'.toMap.isEmpty = true →
        buildProfile env (wireSettings m se) (wireMedia m (c.mediaEngine.or me))
          = buildProfile env none (wireMedia m (c.mediaEngine.or me)) := by
  -- The `init` was accepted, and at the request the session still has what it set.
  obtain ⟨hhandler, -, hout⟩ := step_init hinit rfl hstep₀
  have hresp : (handleInit env (w₀.handlers s) (m.initMessage id₀ se me)).2.2
      = ackResponse "init" id₀ "" ackData := by
    rw [hout] at hack
    simpa using hack
  have hacc₁ : Accepted env m se me (w₁.handlers s) := hhandler ▸ accepted_of_ack hresp
  have hacc := accepted_of_steps hacc₁ hrun
  have hdart₀ : w₀.DartRequests m s (.dispatch s now₀ failure₀) := by
    intro _ msg hmsg
    cases hinit.symm.trans hmsg
    exact ⟨fun _ => ⟨id₀, se, me, rfl⟩, fun htype =>
      absurd (show "init" = "pc:create" from htype) (by decide)⟩
  have hreach : (bridgeSystem env).ReachableUnder (DartRequests m s) w :=
    (StepSystem.StepsUnder.step hw₀ hdart₀ hstep₀).trans (hrun.mono fun _ _ h => h.1)
  have hinv := dartInv_of_reachable hreach
  have hmedia : (wireMedia m c.mediaEngine).or (wireMedia m me)
      = wireMedia m (c.mediaEngine.or me) := by
    simp [wireMedia, Option.map_or]
  have hchosen := map_fst_createProfile hkeyed hinv hacc c
  rw [hmedia] at hchosen
  obtain ⟨settings, hsettings, -⟩ := exists_of_bind_ok hacc.profile
  have hdata : (m.createMessage id c).data = m.decodedEntries c.data := rfl
  rw [peers_create rfl hcreate hstep, List.append_cancel_left_eq, hdata, hchosen]
  exact madePeers_override_iff hsettings me c _

/-! ### Platforms that tell the payloads apart -/

instance countable_string : Countable String := by
  have hchar : Function.Injective Char.toNat := fun _ _ h => Char.ext (UInt32.toNat_inj.mp h)
  have : Countable Char := hchar.countable
  have hlist : Function.Injective String.toList := fun _ _ h => String.ext h
  exact hlist.countable

deriving instance Countable for PionDCConfig

deriving instance Countable for PionSettingsEngine

deriving instance Countable for PionMediaEngine

/-- Settings with a message size, as msgpack decodes them. -/
def sizeOnly : RawPayload :=
  (some [(utf8Bytes "sctp_max_message_size", .int .int64 65536)], none)

/-- `json.Marshal` of these settings. -/
theorem marshal_sizeOnly (form : Replacement) :
    sizeOnly.marshal form = .ok "[\x7b\"sctp_max_message_size\":65536\x7d,null]" := by
  cases form <;> decide +kernel

/-- The payload is the one of these settings. -/
def isSizeOnly : Option Data × Option Data → Bool
  | (some [("sctp_max_message_size", .int .int64 65536)], none) => true
  | _ => false

/-- The plain platform with the text of `json.Marshal` for these settings, and for every other
payload a text of its own, by a number of the payload. -/
def numberedPlatform (number : Option Data × Option Data → Nat) : Platform :=
  { plainPlatform with
    profileKey := fun cfg media =>
      if isSizeOnly (cfg, media) then sizeOnly.marshal .escaped
      else .ok (String.ofList (List.replicate (number (cfg, media)) 'x')) }

theorem eq_of_isSizeOnly {x : Option Data × Option Data} (h : isSizeOnly x = true) :
    x = (some [("sctp_max_message_size", .int .int64 65536)], none) := by
  unfold isSizeOnly at h
  split at h
  · rfl
  · cases h

theorem profileText_numbered (number : Option Data × Option Data → Nat)
    (x : Option Data × Option Data) : profileText (numberedPlatform number) x = .ok
      (if isSizeOnly x then "[\x7b\"sctp_max_message_size\":65536\x7d,null]"
        else String.ofList (List.replicate (number x) 'x')) := by
  show (if isSizeOnly x then sizeOnly.marshal .escaped
    else .ok (String.ofList (List.replicate (number x) 'x'))).mapError ProfileError.plain = _
  rw [marshal_sizeOnly]
  split <;> rfl

/-- The texts of the numbers are not that of `json.Marshal`. -/
theorem ofList_replicate_ne (n : Nat) :
    String.ofList (List.replicate n 'x') ≠ "[\x7b\"sctp_max_message_size\":65536\x7d,null]" := by
  intro h
  have hmem : '[' ∈ (String.ofList (List.replicate n 'x')).toList := by
    rw [h]
    decide
  rw [String.toList_ofList] at hmem
  exact absurd (List.eq_of_mem_replicate hmem) (by decide)

/-- There are texts enough for all payloads of the Dart side. -/
theorem exists_keyed (m : Msgpack) :
    ∃ number, Memo.Keyed (profileText (numberedPlatform number)) (payloads m) := by
  obtain ⟨number, hnumber⟩ := Set.countable_iff_exists_injOn.mp
    (Set.countable_range fun p : Option PionSettingsEngine × Option PionMediaEngine =>
      (wireSettings m p.1, wireMedia m p.2))
  refine ⟨number, fun x _ => ⟨_, profileText_numbered number x⟩, ?_⟩
  intro x hx y hy heq
  rw [profileText_numbered, profileText_numbered] at heq
  have htext := Except.ok.inj heq
  by_cases hsx : isSizeOnly x = true <;> by_cases hsy : isSizeOnly y = true
  · rw [eq_of_isSizeOnly hsx, eq_of_isSizeOnly hsy]
  · rw [if_pos hsx, if_neg hsy] at htext
    exact absurd htext.symm (ofList_replicate_ne _)
  · rw [if_neg hsx, if_pos hsy] at htext
    exact absurd htext (ofList_replicate_ne _)
  · -- The text of any other payload is as long as its number is large.
    rw [if_neg hsx, if_neg hsy] at htext
    have hlength := congrArg String.length htext
    rw [String.length_ofList, String.length_ofList, List.length_replicate,
      List.length_replicate] at hlength
    exact hnumber hx hy hlength

section

variable (number : Option Data × Option Data → Nat)

/-- Settings with detached channels. -/
def detached : PionSettingsEngine where
  detachDataChannels := some true

/-- Session 0 after an `init` with detached channels. -/
def detachedSession : Bridge :=
  ((requested detached).step (numberedPlatform number) (.dispatch 0 0 none)).getD newBridge

/-- The same session with a `pc:create` to dispatch. -/
def creating (c : CreateCall) : Bridge :=
  (detachedSession number).goto (.reader 0) (.dispatch (plainMsgpack.createMessage 2 c))

theorem requested_under : (bridgeSystem (numberedPlatform number)).ReachableUnder
    (DartRequests plainMsgpack 0) (requested detached) := by
  have hstep : (bridgeSystem (numberedPlatform number)).step newBridge
      (.frame 0 (plainMsgpack.initMessage 1 (some detached) none) fun _ => 0)
      = some (requested detached) := rfl
  refine .step .refl ?_ hstep
  trivial

theorem steps_creating (c : CreateCall) :
    (bridgeSystem (numberedPlatform number)).StepsUnder
      (fun u a => u.DartRequests plainMsgpack 0 a ∧ ¬ u.AcceptsInit (numberedPlatform number) 0 a)
      (detachedSession number) (creating number c) := by
  have hstep : (bridgeSystem (numberedPlatform number)).step (detachedSession number)
      (.frame 0 (plainMsgpack.createMessage 2 c) fun _ => 0) = some (creating number c) := rfl
  refine .step .refl ⟨?_, ?_⟩ hstep
  · trivial
  · exact id

end

/-- A session with detached channels creates a PeerConnection with settings of its own. The key of
its profile is the text of `json.Marshal`. -/
theorem override_law_iff_settings :
    ∃ (number : Option Data × Option Data → Nat) (c : CreateCall) (w' : Bridge),
      (numberedPlatform number).profileKey (wireSettings plainMsgpack c.settingsEngine) none
        = sizeOnly.marshal .escaped ∧
      (creating number c).step (numberedPlatform number) (.dispatch 0 0 none) = some w' ∧
      w'.peers = (creating number c).peers ++ madePeers
        (overrideProfile (numberedPlatform number) plainMsgpack (some detached) none c)
        (plainMsgpack.decodedEntries c.data) ∧
      w'.peers.map (fun p => (p.profile.detach, p.profile.maxMessageSize)) = [(false, 65536)] := by
  obtain ⟨number, hkeyed⟩ := exists_keyed plainMsgpack
  let c : CreateCall := { settingsEngine := some { sctpMaxMessageSize := some 65536 } }
  let created := (creating number c).step (numberedPlatform number) (.dispatch 0 0 none)
  have hstep : created = some (created.getD newBridge) := rfl
  -- The size goes through `int64` and `int`, which both hold it.
  have hwrap : ∀ kind ∈ [IntKind.int64, .int],
      (numberedPlatform number).wrap kind 65536 = 65536 := by
    intro kind hkind
    exact (by decide : ∀ kind ∈ [IntKind.int64, .int], kind.wrap .w64 65536 = 65536) kind hkind
  have hsize : (created.getD newBridge).peers.map
      (fun p => (p.profile.detach, p.profile.maxMessageSize)) = [(false,
        (numberedPlatform number).wrap .int ((numberedPlatform number).wrap .int64 65536))] := rfl
  rw [hwrap .int64 (by simp), hwrap .int (by simp)] at hsize
  refine ⟨number, c, created.getD newBridge, rfl, hstep, ?_, hsize⟩
  refine (override_law_iff (numberedPlatform number) plainMsgpack 0 hkeyed _ _ _ _ (some detached)
    none 1 0 none _ (requested_under number) rfl rfl rfl (steps_creating number c) c 2 0 rfl
    hstep).mpr ?_
  intro s' hs' hempty
  cases hs'
  exact absurd hempty (by decide)

/-- Settings without entries are passed to a session with detached channels. The PeerConnection
should have pion's defaults and has the session's settings. -/
theorem empty_settings_not_sent :
    ¬ ∀ (env : Platform) (m : Msgpack) (s : Session)
      (_ : Memo.Keyed (profileText env) (payloads m)) (w₀ w₁ w w' : Bridge)
      (se : Option PionSettingsEngine) (me : Option PionMediaEngine) (id₀ now₀ : Int)
      (failure₀ : Option String) (ackData : Data)
      (_ : (bridgeSystem env).ReachableUnder (DartRequests m s) w₀)
      (_ : w₀.threads (.reader s) = .dispatch (m.initMessage id₀ se me))
      (_ : w₀.step env (.dispatch s now₀ failure₀) = some w₁)
      (_ : w₁.out = w₀.out ++ [(s, ackResponse "init" id₀ "" ackData)])
      (_ : (bridgeSystem env).StepsUnder
        (fun u a => u.DartRequests m s a ∧ ¬ u.AcceptsInit env s a) w₁ w)
      (c : CreateCall) (id now : Int)
      (_ : w.threads (.reader s) = .dispatch (m.createMessage id c))
      (_ : w.step env (.dispatch s now none) = some w'),
      w'.peers = w.peers ++ madePeers (overrideProfile env m se me c)
        (m.decodedEntries c.data) := by
  intro hlaw
  obtain ⟨number, hkeyed⟩ := exists_keyed plainMsgpack
  let c : CreateCall := { settingsEngine := some {} }
  let created := (creating number c).step (numberedPlatform number) (.dispatch 0 0 none)
  have hstep : created = some (created.getD newBridge) := rfl
  have hpeers := hlaw (numberedPlatform number) plainMsgpack 0 hkeyed _ _ _ _ (some detached)
    none 1 0 none _ (requested_under number) rfl rfl rfl (steps_creating number c) c 2 0 rfl hstep
  -- The session's settings detach, and pion's defaults do not.
  have hdetach : [true] = [false] :=
    congrArg (List.map fun p : Peer => p.profile.detach) hpeers
  exact absurd hdetach (by decide)

end PionBridge.Server
