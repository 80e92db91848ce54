import PionBridge.Server.Platform

/-!
# `PionBridge.Server.MediaEngine`: codecs of a session (`media_engine.go`)

`buildMediaEngine` registers the codecs that a `media_engine` payload names, in the order
given, and the interceptors with the NACK interval. A `MediaEngine` here is the list of the
codecs registered, with the interval.

A video codec name is compared after `strings.ToUpper`, and `opus` with `strings.EqualFold`.
Both follow Unicode. No character outside ASCII has `V`, `P` or `A` as its upper case, so the
upper case of ASCII letters decides the video names. The long s (U+017F) folds to `s`.
-/

set_option autoImplicit false

namespace PionBridge.Server

/-- A `webrtc.MediaEngine` with its interceptors: the codecs in order of registration, and the
NACK interval if one was given. -/
structure MediaEngine where
  codecs : List Codec
  nackInterval : Option Int
  deriving DecidableEq

/-- An entry of `videoCodecDefs`. -/
structure VideoCodecDef where
  mime : String
  pt : Nat
  rtx : Nat
  fmtp : String

/-- `videoCodecDefs`. -/
def videoCodecDefs : String → Option VideoCodecDef
  | "VP8" => some ⟨"video/VP8", 96, 97, ""⟩
  | "VP9" => some ⟨"video/VP9", 98, 99, "profile-id=0"⟩
  | "AV1" => some ⟨"video/AV1", 45, 46, ""⟩
  | _ => none

/-- `videoFeedback`. -/
def videoFeedback : List RTCPFeedback :=
  [⟨"goog-remb", ""⟩, ⟨"ccm", "fir"⟩, ⟨"nack", ""⟩, ⟨"nack", "pli"⟩]

/-- The two codecs registered for a video name: the codec and its RTX companion. -/
def VideoCodecDef.codecs (d : VideoCodecDef) : List Codec :=
  [{ mimeType := d.mime, clockRate := 90000, sdpFmtpLine := d.fmtp,
     rtcpFeedback := videoFeedback, payloadType := d.pt, kind := .video },
   { mimeType := "video/rtx", clockRate := 90000, sdpFmtpLine := "apt=" ++ toString d.pt,
     payloadType := d.rtx, kind := .video }]

/-- The codec registered for `opus`. -/
def opusCodec : Codec where
  mimeType := "audio/opus"
  clockRate := 48000
  channels := 2
  sdpFmtpLine := "minptime=10;useinbandfec=1"
  payloadType := 111
  kind := .audio

/-- `strings.EqualFold(name, "opus")`. -/
def foldsToOpus (name : String) : Bool :=
  name.toList.map (fun c => if c = 'ſ' then 's' else c.toLower) == ['o', 'p', 'u', 's']

/-- The loop of `stringList`. -/
def stringItems : List Value → Except String (List String)
  | [] => .ok []
  | .str s :: items => (stringItems items).map (s :: ·)
  | _ :: _ => .error "must be a list of strings"

/-- `stringList`. A missing entry and `nil` give no names. -/
def stringList : Option Value → Except String (List String)
  | none | some .nil => .ok []
  | some (.list items) => stringItems items
  | some _ => .error "must be a list of strings"

/-- An error with a text before it, `fmt.Errorf("label: %w", err)`. -/
def labelError {α : Type} (label : String) : Except String α → Except String α :=
  Except.mapError (label ++ ": " ++ ·)

section

variable (env : Platform)

/-- Calls of `RegisterCodec`, one after the other. -/
def registerCodecs (codecs : List Codec) : List Codec → Except String (List Codec)
  | [] => .ok codecs
  | c :: cs =>
    match env.registerCodec codecs c with
    | .error err => .error err
    | .ok codecs => registerCodecs codecs cs

/-- The loop over the video names. -/
def registerVideo (codecs : List Codec) : List String → Except String (List Codec)
  | [] => .ok codecs
  | name :: names =>
    match videoCodecDefs name.toUpper with
    | none => .error ("unknown video codec " ++ env.quote name)
    | some d => do
      let codecs ← registerCodecs env codecs d.codecs
      registerVideo codecs names

/-- The loop over the audio names. -/
def registerAudio (codecs : List Codec) : List String → Except String (List Codec)
  | [] => .ok codecs
  | name :: names =>
    if foldsToOpus name then do
      let codecs ← registerCodecs env codecs [opusCodec]
      registerAudio codecs names
    else .error ("unknown audio codec " ++ env.quote name)

/-- The NACK interval: a number must be positive. -/
def nackInterval (cfg : Data) : Except String (Option Int) :=
  match env.int? cfg "nack_interval_ms" with
  | some ms =>
    if ms ≤ 0 then .error "nack_interval_ms must be positive"
    else .ok (some (env.milliseconds ms))
  | none => .ok none

/-- `buildMediaEngine`. -/
def buildMediaEngine (cfg : Data) : Except String MediaEngine := do
  let video ← labelError "video_codecs" (stringList (cfg.get "video_codecs"))
  let codecs ← registerVideo env [] video
  let audio ← labelError "audio_codecs" (stringList (cfg.get "audio_codecs"))
  let codecs ← registerAudio env codecs audio
  let interval ← nackInterval env cfg
  match env.registerInterceptors codecs interval with
  | some err => .error err
  | none => .ok ⟨codecs, interval⟩

end

end PionBridge.Server
