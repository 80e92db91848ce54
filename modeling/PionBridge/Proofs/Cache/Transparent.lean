import PionBridge.Proofs.Bridge.Override
import PionBridge.Proofs.Cache.Legible

/-!
# `PionBridge.Proofs.Cache.Transparent`: whether the profile cache can be seen

`profileFor` keeps a profile under the JSON text of the payloads that it was built from. The cache
cannot be seen if every request gives what `buildProfile` gives, whatever was requested before.

This is so as long as all payloads are legible (`transparent_of_legible`). It is not so for all
payloads that msgpack can decode (`not_transparent_for_all`). A slice of bytes has the text of
its base 64, bytes that are not part of UTF-8 all become U+FFFD, and a large float has the text of
another integer. Then the second of two requests gets the profile of the first. And a payload with a
NaN or an infinity has no text, so it is refused even where nothing reads the number.

In general the cache cannot be seen exactly if payloads with the same text build the same and a
payload without a text does not build.
-/

set_option autoImplicit false

namespace PionBridge.Server

open PionBridge.Lib

/-! ### Payloads -/

theorem plainKey_of_mem_flagKeys : ∀ key ∈ flagKeys, PlainKey key := by decide +kernel

theorem plainKey_of_mem_numberKeys : ∀ key ∈ numberKeys, PlainKey key := by decide +kernel

section

variable {env : Platform}

variable (env) in
/-- The numbers and the names in the settings can be told from their text. -/
structure LegibleSettings (cfg : RawData) : Prop where
  numbers : ∀ key ∈ numberKeys, ∀ v ∈ RawData.get cfg key, LegibleNumber env v
  hostName : ∀ v ∈ RawData.get cfg "multicast_dns_host_name", v = .bin [] ∨ LegibleName v
  whitelist : ∀ items ∈ (RawData.get cfg "interface_whitelist").bind RawValue.items,
    ∀ v ∈ items, LegibleName v

variable (env) in
/-- The interval and the names of the codecs can be told from their text. -/
structure LegibleCodecs (media : RawData) : Prop where
  interval : ∀ v ∈ RawData.get media "nack_interval_ms", LegibleNumber env v
  audio : ∀ items ∈ (RawData.get media "audio_codecs").bind RawValue.items,
    ∀ v ∈ items, LegibleCodec foldsToOpus v

variable (env) in
/-- What `buildProfile` reads can be told from the text, and without a text it fails. -/
structure Legible (x : RawPayload) : Prop where
  text : ∀ e, x.json = .error e → x.built env = none
  settings : ∀ cfg ∈ x.1, LegibleSettings env cfg
  codecs : ∀ media ∈ x.2, LegibleCodecs env media

theorem Agree.int?_eq {data data' : RawData} (h : Agree (.map data) (.map data')) {key : String}
    (hkey : PlainKey key) (hv : ∀ v ∈ RawData.get data key, LegibleNumber env v)
    (hv' : ∀ v ∈ RawData.get data' key, LegibleNumber env v) :
    env.int? (RawValue.decodedEntries data) key = env.int? (RawValue.decodedEntries data') key := by
  rw [hkey.int?_eq, hkey.int?_eq]
  refine bind_eq_of_rel ?_ (h.get hkey)
  intro v hget v' hget' hagree
  exact hagree.toInt_eq (hv v hget) (hv' v' hget')

theorem Agree.whitelist_eq {cfg cfg' : RawData} (h : Agree (.map cfg) (.map cfg'))
    (hc : LegibleSettings env cfg) (hc' : LegibleSettings env cfg') :
    (interfaceFilter (RawValue.decodedEntries cfg)).toOption
      = (interfaceFilter (RawValue.decodedEntries cfg')).toOption := by
  have hkey : PlainKey "interface_whitelist" := by decide
  have hrel := rel_bind (fun _ _ hagree => hagree.reading.items) (h.get hkey)
  have hnames := hc.whitelist
  have hnames' := hc'.whitelist
  unfold interfaceFilter
  rw [hkey.list?_eq, hkey.list?_eq]
  generalize (RawData.get cfg _).bind RawValue.items = raw at hrel hnames ⊢
  generalize (RawData.get cfg' _).bind RawValue.items = raw' at hrel hnames' ⊢
  cases hrel with
  | none =>
      -- What is not a list is skipped.
      rfl
  | some hitems =>
      simp only [Option.map_some, toOption_map, toOption_allowedNames]
      rw [strings_eq hitems (hnames _ rfl) (hnames' _ rfl)]

theorem Agree.settings {cfg cfg' : RawData} (h : Agree (.map cfg) (.map cfg'))
    (hc : LegibleSettings env cfg) (hc' : LegibleSettings env cfg') :
    SameSettings env (RawValue.decodedEntries cfg) (RawValue.decodedEntries cfg') where
  flags := by
    intro key hmem
    have hkey := plainKey_of_mem_flagKeys key hmem
    rw [hkey.bool?_eq, hkey.bool?_eq]
    exact bind_eq_of_rel (fun _ _ _ _ hagree => hagree.reading.flag) (h.get hkey)
  numbers := by
    intro key hmem
    have hkey := plainKey_of_mem_numberKeys key hmem
    exact h.int?_eq hkey (hc.numbers key hmem) (hc'.numbers key hmem)
  hostName := by
    have hkey : PlainKey "multicast_dns_host_name" := by decide
    rw [hkey.str?_eq, hkey.str?_eq, filter_bind, filter_bind]
    refine bind_eq_of_rel ?_ (h.get hkey)
    intro v hget v' hget' hagree
    exact hagree.name_filter_eq (hc.hostName v hget) (hc'.hostName v' hget')
  whitelist := h.whitelist_eq hc hc'

theorem Agree.codecs {media media' : RawData} (h : Agree (.map media) (.map media'))
    (hm : LegibleCodecs env media) (hm' : LegibleCodecs env media') :
    SameCodecs env (RawValue.decodedEntries media) (RawValue.decodedEntries media') where
  video := h.knownNames_eq (by decide) (fun _ => plainKey_of_isVideoCodec)
    (fun _ _ v _ => legibleCodec_isVideoCodec v) (fun _ _ v _ => legibleCodec_isVideoCodec v)
  audio := h.knownNames_eq (by decide) (fun _ => plainKey_of_foldsToOpus) hm.audio hm'.audio
  interval := h.int?_eq (by decide) hm.interval hm'.interval

/-- Legible payloads with the same text build the same profile, or none. -/
theorem Legible.built_eq {form : Replacement} {x y : RawPayload} {k : String}
    (hx : Legible env x) (hy : Legible env y) (hkx : x.marshal form = .ok k)
    (hky : y.marshal form = .ok k) : x.built env = y.built env := by
  obtain ⟨hcfg, hmedia⟩ := agree_of_marshal hkx hky
  apply toOption_buildProfile
  · apply rel_map
    refine rel_mono ?_ hcfg
    intro cfg hc cfg' hc' hagree
    exact hagree.settings (hx.settings cfg hc) (hy.settings cfg' hc')
  · apply rel_map
    refine rel_mono ?_ hmedia
    intro media hm media' hm' hagree
    exact hagree.codecs (hx.codecs media hm) (hy.codecs media' hm')

end

/-! ### Requests to the cache -/

section

variable (env : Platform)

/-- The key of a payload. -/
def payloadText (x : RawPayload) : Except ProfileError String := profileText env x.decoded

/-- What is built from a payload. -/
def payloadProfile (x : RawPayload) : Except ProfileError ApiProfile :=
  buildProfile env x.decoded.1 x.decoded.2

theorem serve_eq (h : Handler) (x : RawPayload) :
    h.serve env x = ((Memo.serve (payloadText env) (payloadProfile env) h.profiles x).1,
      { h with
        profiles := (Memo.serve (payloadText env) (payloadProfile env) h.profiles x).2 }) := by
  have hmemo : memo (payloadText env) (payloadProfile env) h.profiles x
      = memo (profileText env) (fun y => buildProfile env y.1 y.2) h.profiles x.decoded := rfl
  unfold Handler.serve Memo.serve
  rw [profileFor_eq, hmemo]
  cases memo (profileText env) (fun y => buildProfile env y.1 y.2) h.profiles x.decoded <;> rfl

theorem profiles_serveAll (h : Handler) (calls : List RawPayload) :
    (h.serveAll env calls).profiles
      = Memo.serveAll (payloadText env) (payloadProfile env) h.profiles calls := by
  induction calls generalizing h with
  | nil => rfl
  | cons x calls ih =>
      show ((h.serve env x).2.serveAll env calls).profiles
        = Memo.serveAll _ _ (Memo.serve _ _ _ _).2 _
      rw [ih, serve_eq]

theorem transparent_iff_memo (calls : List RawPayload) (x : RawPayload) :
    Transparent env calls x ↔
      (Memo.serve (payloadText env) (payloadProfile env)
        (Memo.serveAll (payloadText env) (payloadProfile env) ∅ calls) x).1 = x.built env := by
  unfold Transparent
  rw [serve_eq, profiles_serveAll]
  rfl

variable {env} {form : Replacement} (h : env.Marshals form)

include h

theorem payloadText_eq (x : RawPayload) :
    payloadText env x = (x.marshal form).mapError ProfileError.plain := by
  unfold payloadText profileText
  rw [h x]

theorem payloadText_eq_ok_iff (x : RawPayload) (k : String) :
    payloadText env x = .ok k ↔ x.marshal form = .ok k := by
  rw [payloadText_eq h]
  cases x.marshal form with
  | ok k' => simp [Except.mapError]
  | error e => simp [Except.mapError]

/-- When requests for payloads of `D` cannot see the cache. -/
theorem transparent_iff_of_marshals (D : Set RawPayload) :
    (∀ calls, (∀ y ∈ calls, y ∈ D) → ∀ x ∈ D, Transparent env calls x) ↔
      (∀ x ∈ D, ∀ e, x.marshal form = .error e → x.built env = none) ∧
      ∀ x ∈ D, ∀ y ∈ D, ∀ k, x.marshal form = .ok k → y.marshal form = .ok k →
        x.built env = y.built env := by
  simp only [transparent_iff_memo]
  refine Iff.trans Memo.transparent_iff ?_
  constructor
  · intro hsep
    constructor
    · intro x hx e he
      refine hsep.total x hx ?_
      rw [payloadText_eq h, he]
      rfl
    · intro x hx y hy k hkx hky
      exact hsep.apart x hx y hy k ((payloadText_eq_ok_iff h x k).mpr hkx)
        ((payloadText_eq_ok_iff h y k).mpr hky)
  · intro ⟨htotal, hapart⟩
    constructor
    · intro x hx hnone
      rw [payloadText_eq h] at hnone
      cases he : x.marshal form with
      | error e => exact htotal x hx e he
      | ok k =>
          rw [he] at hnone
          cases hnone
    · intro x hx y hy k hkx hky
      exact hapart x hx y hy k ((payloadText_eq_ok_iff h x k).mp hkx)
        ((payloadText_eq_ok_iff h y k).mp hky)

end

/-! ### The result -/

theorem json_error_of_marshal {form : Replacement} {x : RawPayload} {e : String}
    (h : x.marshal form = .error e) : x.json = .error e := by
  unfold RawPayload.marshal at h
  cases hj : x.json with
  | error e' =>
      rw [hj] at h
      cases h
      rfl
  | ok j =>
      rw [hj] at h
      cases h

/-- The cache cannot be seen by requests for legible payloads. For any other set of payloads, it
cannot be seen exactly if the texts tell apart what is built differently. -/
theorem transparent_of_legible {env : Platform} {form : Replacement} (h : env.Marshals form) :
    (∀ calls x, (∀ y ∈ calls, Legible env y) → Legible env x → Transparent env calls x) ∧
      ∀ D : Set RawPayload,
        (∀ calls, (∀ y ∈ calls, y ∈ D) → ∀ x ∈ D, Transparent env calls x) ↔
          (∀ x ∈ D, ∀ e, x.marshal form = .error e → x.built env = none) ∧
          ∀ x ∈ D, ∀ y ∈ D, ∀ k, x.marshal form = .ok k → y.marshal form = .ok k →
            x.built env = y.built env := by
  refine ⟨?_, transparent_iff_of_marshals h⟩
  intro calls x hcalls hx
  refine (transparent_iff_of_marshals h {y | Legible env y}).mpr ⟨?_, ?_⟩ calls hcalls x hx
  · intro y hy e he
    exact hy.text e (json_error_of_marshal he)
  · intro y hy z hz k hky hkz
    exact hy.built_eq hz hky hkz

/-! ### A platform with the texts of `json.Marshal` -/

open Classical in
/-- The plain platform with the texts of `json.Marshal` as keys. -/
noncomputable def jsonPlatform (form : Replacement) : Platform :=
  { plainPlatform with
    profileKey := fun cfg media =>
      if h : ∃ x : RawPayload, x.decoded = (cfg, media) then h.choose.marshal form else .ok "" }

theorem marshals_jsonPlatform (form : Replacement) : (jsonPlatform form).Marshals form := by
  intro x
  have hx : ∃ y : RawPayload, y.decoded = (x.decoded.1, x.decoded.2) := ⟨x, rfl⟩
  have hkey : (jsonPlatform form).profileKey x.decoded.1 x.decoded.2 = hx.choose.marshal form :=
    dif_pos hx
  rw [hkey, decoded_injective hx.choose_spec]

/-- A payload with one setting. -/
def oneSetting (key : String) (v : RawValue) : RawPayload := (some [(utf8Bytes key, v)], none)

theorem eq_of_get_oneSetting {key key' : String} {v v' : RawValue}
    (h : v' ∈ RawData.get [(utf8Bytes key, v)] key') : v' = v := by
  unfold RawData.get at h
  rw [lookup_cons_eq_ite] at h
  split at h
  · exact (Option.some.inj h).symm
  · cases h

theorem legible_oneSetting {env : Platform} {v : RawValue}
    (hjson : v.json.toOption.isSome = true) (hnumber : LegibleNumber env v)
    (hname : LegibleName v) (hitems : v.items = none) (key : String) :
    Legible env (oneSetting key v) where
  text := by
    intro e he
    cases hj : v.json with
    | error e' =>
        rw [hj] at hjson
        cases hjson
    | ok j =>
        simp [oneSetting, RawPayload.json, RawPayload.part, RawValue.json, RawValue.jsonEntries,
          sortEntries, insertEntry, RawValue.member, hj, collect, Except.map, bind, Except.bind,
          pure, Except.pure] at he
  settings := by
    intro cfg hcfg
    cases hcfg
    constructor
    · intro key' _ v' hv'
      rw [eq_of_get_oneSetting hv']
      exact hnumber
    · intro v' hv'
      rw [eq_of_get_oneSetting hv']
      exact .inr hname
    · intro items hi
      obtain ⟨v', hv', hlist⟩ := Option.bind_eq_some_iff.mp hi
      rw [eq_of_get_oneSetting hv', hitems] at hlist
      cases hlist
  codecs := by
    intro media hmedia
    cases hmedia

/-- An MTU that is a float, after the same MTU as an integer and a name. It is served the profile of
the integer. -/
theorem transparent_of_legible_mtu :
    Transparent (jsonPlatform .escaped)
      [oneSetting "receive_mtu" (.int .int64 1500),
        oneSetting "multicast_dns_host_name" (.str (utf8Bytes "a.local"))]
      (oneSetting "receive_mtu" (.float64 0x4097700000000000)) ∧
    (oneSetting "receive_mtu" (.float64 0x4097700000000000)).marshal .escaped
      = (oneSetting "receive_mtu" (.int .int64 1500)).marshal .escaped := by
  constructor
  · apply (transparent_of_legible (marshals_jsonPlatform .escaped)).1
    · rw [List.forall_mem_cons, List.forall_mem_singleton]
      constructor
      · exact legible_oneSetting (by decide) (legible_int _ _ _) trivial rfl _
      · have hname : LegibleName (.str (utf8Bytes "a.local")) := ⟨"a.local", rfl⟩
        exact legible_oneSetting (by decide +kernel) (fun n hn => by cases hn) hname rfl _
    · have hnumber := legible_float64 (jsonPlatform .escaped) 0x4097700000000000 (by decide)
      exact legible_oneSetting (by decide +kernel) hnumber trivial rfl _
  · decide +kernel

/-- If two payloads have the same text and do not build the same, the second gets what was built
from the first. -/
theorem not_transparent_of_collision {env : Platform} {form : Replacement}
    (h : env.Marshals form) {x y : RawPayload} (hsame : x.marshal form = y.marshal form)
    (htext : (y.marshal form).toOption ≠ none) (hbuilt : y.built env ≠ none)
    (hne : x.built env ≠ y.built env) : ¬ Transparent env [y] x := by
  rw [transparent_iff_memo]
  intro htransparent
  cases hk : y.marshal form with
  | error e =>
      rw [hk] at htext
      exact htext rfl
  | ok k =>
      have hy := (payloadText_eq_ok_iff h y k).mpr hk
      have hx := (payloadText_eq_ok_iff h x k).mpr (hsame.trans hk)
      cases hb : payloadProfile env y with
      | error e =>
          apply hbuilt
          show (payloadProfile env y).toOption = none
          rw [hb]
          rfl
      | ok p =>
          apply hne
          rw [← htransparent, Memo.fst_serve_after hy hb hx]
          show some p = (payloadProfile env y).toOption
          rw [hb]
          rfl

/-- A payload without a text is refused. -/
theorem not_transparent_of_error {env : Platform} {form : Replacement} (h : env.Marshals form)
    {x : RawPayload} (htext : (x.marshal form).toOption = none) (hbuilt : x.built env ≠ none) :
    ¬ Transparent env [] x := by
  rw [transparent_iff_memo]
  intro htransparent
  cases hk : x.marshal form with
  | ok k =>
      rw [hk] at htext
      cases htext
  | error e =>
      have hx : payloadText env x = .error (.plain e) := by
        rw [payloadText_eq h, hk]
        rfl
      rw [Memo.serve_of_error hx] at htransparent
      exact hbuilt htransparent.symm

/-- The cache can be seen. The host name `YQ==` gets the profile of the byte `a`, an interface with
the byte FF in its name that of FE, the buffer size 2^31 as a `float32` that of 2147483600. A NaN
is refused under a key that nothing reads. -/
theorem not_transparent_for_all :
    (jsonPlatform .escaped).Marshals .escaped ∧
    ¬ Transparent (jsonPlatform .escaped)
      [oneSetting "multicast_dns_host_name" (.bin [0x61])]
      (oneSetting "multicast_dns_host_name" (.str (utf8Bytes "YQ=="))) ∧
    ¬ Transparent (jsonPlatform .escaped)
      [oneSetting "interface_whitelist" (.list [.str [0xFE]])]
      (oneSetting "interface_whitelist" (.list [.str [0xFF]])) ∧
    ¬ Transparent (jsonPlatform .escaped)
      [oneSetting "sctp_max_receive_buffer_size" (.int .int64 2147483600)]
      (oneSetting "sctp_max_receive_buffer_size" (.float32 0x4F000000)) ∧
    ¬ Transparent (jsonPlatform .escaped) []
      (oneSetting "comment" (.float64 0x7FF8000000000000)) := by
  have hmarshals := marshals_jsonPlatform .escaped
  refine ⟨hmarshals, ?_, ?_, ?_, ?_⟩
  · exact not_transparent_of_collision hmarshals (by decide +kernel) (by decide +kernel)
      (by decide +kernel) (by decide +kernel)
  · exact not_transparent_of_collision hmarshals (by decide +kernel) (by decide +kernel)
      (by decide +kernel) (by decide +kernel)
  · exact not_transparent_of_collision hmarshals (by decide +kernel) (by decide +kernel)
      (by decide +kernel) (by decide +kernel)
  · exact not_transparent_of_error hmarshals (by decide +kernel) (by decide +kernel)

end PionBridge.Server
