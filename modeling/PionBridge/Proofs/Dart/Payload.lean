import PionBridge.Dart.Inbound
import PionBridge.Proofs.Dart.Events.Delivery
import PionBridge.Proofs.Detached

/-!
# `PionBridge.Proofs.Dart.Payload`: what the application is given for a message of pion

The two ways from pion write the same event, up to nil for an empty slice, and `_route` reads an
absent payload as no bytes. So a binary message always arrives as it was sent. A text message
arrives as it was sent if and only if its bytes are UTF-8 without a byte order mark at the front. If
they are not UTF-8, decoding the frame throws, and `handleFrame` swallows it. A byte order mark is
discarded.

`pledged` is what a listener was given together with what it will be given for the events that
wait. A broadcast appends to it, and handing events over leaves it as it is, so it is what the
listener has received once nothing waits.
-/

set_option autoImplicit false

namespace PionBridge.Dart

open PionBridge.Lib PionBridge.Server EventWorld

/-! ### From pion to the wire -/

/-- The way of a message: `OnMessage`, where an empty payload may be a nil slice, or `readDetached`,
with the buffer that the messages before have left. -/
inductive InboundPath
  | attached (isNil : Bool)
  | detached (maxMessageSize : Int) (buf : ReadBuffer (readLimit maxMessageSize))

namespace InboundPath

/-- The events for a message. -/
def events (dcHandle : String) (m : Incoming) : InboundPath → List WireEvent
  | .attached isNil =>
    [onMessage dcHandle (if isNil ∧ m.bytes = [] then none else some m.bytes) m.isString]
  | .detached _ buf => ((readMessage dcHandle buf m).map (·.2)).toList

/-- The message is within the limit. -/
def Admits (m : Incoming) : InboundPath → Prop
  | .attached _ => True
  | .detached maxMessageSize _ => m.bytes.length ≤ readLimit maxMessageSize

end InboundPath

/-- The value of the payload: a text, nil for an empty slice, or the bytes. -/
def payloadValue (m : Incoming) (isNil : Bool) : WireValue :=
  if m.isString then .str m.bytes else if isNil then .nil else .bin m.bytes

/-- Either way there is one event, and its payload is nil only for an empty message. -/
theorem InboundPath.events_eq (dcHandle : String) (m : Incoming) (path : InboundPath)
    (h : path.Admits m) : ∃ isNil, (isNil = true → m.bytes = []) ∧
      path.events dcHandle m = [⟨"event:dataChannelMessage", dcHandle,
        [("type", .text "message"), ("is_binary", .bool !m.isString),
          ("data", payloadValue m isNil)]⟩] := by
  cases path with
  | attached isNil =>
      refine ⟨isNil && decide (m.bytes = []), by simp, ?_⟩
      unfold InboundPath.events onMessage payloadValue
      cases m.isString with
      | true =>
          by_cases hnil : isNil = true ∧ m.bytes = []
          · simp [hnil]
          · simp [hnil]
      | false =>
          by_cases hnil : isNil = true ∧ m.bytes = []
          · simp [hnil, WireValue.slice]
          · have hand : (isNil && decide (m.bytes = [])) = false := by
              simpa using hnil
            simp [hnil, hand, WireValue.slice]
  | detached maxMessageSize buf =>
      obtain ⟨buf', heq⟩ := readMessage_eq dcHandle buf m h
      refine ⟨decide (m.bytes = []), by simp, ?_⟩
      show ((readMessage dcHandle buf m).map (·.2)).toList = _
      rw [heq]
      unfold readEvent payloadValue
      cases m.isString with
      | true => simp
      | false =>
          by_cases hnil : m.bytes = []
          · simp [hnil, WireValue.slice]
          · simp [hnil, WireValue.slice]

/-! ### From the wire to the dispatcher -/

section
variable {decodeStr : List UInt8 → Option String} {c : BridgeConnection} {h : String}

/-- Bytes without a mark are left as they are, and only those. -/
theorem dropBom_eq_self_iff (bytes : List UInt8) : dropBom bytes = bytes ↔ ¬ utf8Bom <+: bytes := by
  unfold dropBom
  by_cases hbom : utf8Bom <+: bytes
  · rw [if_pos hbom]
    refine iff_of_false (fun heq => ?_) (not_not_intro hbom)
    have hle : utf8Bom.length ≤ bytes.length := hbom.length_le
    have hlen := congrArg List.length heq
    rw [List.length_drop] at hlen
    simp only [utf8Bom, List.length_cons, List.length_nil] at hle hlen
    omega
  · rw [if_neg hbom]
    exact iff_of_true rfl hbom

/-- The bytes of a text begin with a byte order mark. -/
def HasBom (s : String) : Prop := utf8Bom <+: s.toUTF8.data.toList

instance (s : String) : Decidable (HasBom s) :=
  inferInstanceAs (Decidable (utf8Bom <+: s.toUTF8.data.toList))

/-- A text of the server arrives as it is, unless it has a mark. -/
theorem decodeText_eq (hdecode : DartUtf8 decodeStr) {s : String} (hs : ¬ HasBom s) :
    decodeText decodeStr s = some s :=
  (hdecode _ s).mpr ((dropBom_eq_self_iff _).mpr hs).symm

/-- The event that `_route` is given when the payload is decoded. -/
def messageEvent (h : String) (isBinary : Bool) (payload : Decoded) : Event :=
  ⟨"event:dataChannelMessage", 0, some h,
    [("type", .str "message"), ("is_binary", .bool isBinary), ("data", payload)]⟩

/-- The frame of a message is passed on if its payload can be decoded, and dropped otherwise. -/
theorem eventsFrom_message (hdecode : DartUtf8 decodeStr) (hh : h ≠ "") (hbom : ¬ HasBom h)
    (c : BridgeConnection) (isBinary : Bool) (value : WireValue) :
    c.eventsFrom decodeStr ⟨"event:dataChannelMessage", h,
      [("type", .text "message"), ("is_binary", .bool isBinary), ("data", value)]⟩ =
      ((decodeValue decodeStr value).map (messageEvent h isBinary)).toList := by
  have htext : decodeValue decodeStr (.text "message") = some (.str "message") := by
    show (decodeText decodeStr "message").map Decoded.str = _
    rw [decodeText_eq hdecode (by decide)]
    rfl
  have hframe : deserialize decodeStr ⟨"event:dataChannelMessage", h,
      [("type", .text "message"), ("is_binary", .bool isBinary), ("data", value)]⟩ =
      (decodeValue decodeStr value).map fun payload =>
        .map [("type", .str "event:dataChannelMessage"), ("id", .int 0), ("handle", .str h),
          ("data", .map [("type", .str "message"), ("is_binary", .bool isBinary),
            ("data", payload)])] := by
    -- The type and the keys are literals without a mark.
    have htype := decodeText_eq hdecode (s := "event:dataChannelMessage") (by decide)
    have hkeyType := decodeText_eq hdecode (s := "type") (by decide)
    have hkeyBinary := decodeText_eq hdecode (s := "is_binary") (by decide)
    have hkeyData := decodeText_eq hdecode (s := "data") (by decide)
    unfold deserialize
    simp only [htype, decodeText_eq hdecode hbom, hkeyType, hkeyBinary, hkeyData, List.mapM_cons,
      List.mapM_nil, htext]
    cases decodeValue decodeStr value with
    | none => simp [decodeValue]
    | some payload => simp [decodeValue, hh]
  unfold BridgeConnection.eventsFrom
  rw [hframe]
  cases decodeValue decodeStr value with
  | none => simp [BridgeConnection.handleFrame]
  | some payload =>
      have hmsg : WsMessage.fromDecoded [("type", .str "event:dataChannelMessage"),
          ("id", .int 0), ("handle", .str h), ("data", .map [("type", .str "message"),
            ("is_binary", .bool isBinary), ("data", payload)])]
          = some (messageEvent h isBinary payload) := rfl
      have hevent : ¬ (isAck (messageEvent h isBinary payload).type ∨
          (messageEvent h isBinary payload).type = "error") := by
        show ¬ (isAck "event:dataChannelMessage" ∨ "event:dataChannelMessage" = "error")
        decide
      simp only [Option.map_some, BridgeConnection.handleFrame, hmsg, if_neg hevent]
      simp [BridgeConnection.onMessage]

end

/-! ### From the dispatcher to the listener -/

namespace EventWorld

variable {toStr : Decoded → String} {s s' : EventWorld} {h : String} {w k : Nat} {v : Wrapper}

/-- What the listener `k` of `onMessage` was given, and what it will be given for the events that
wait. -/
def pledged (toStr : Decoded → String) (s : EventWorld) (w k : Nat) (v : Wrapper) : List Payload :=
  ((v.streams .message).controller.subs k).flow
    ++ (s.dispatcher.sub v.source w).queue.filterMap fun msg =>
      eventOf toStr v.kind .message ⟨msg, 0⟩

/-- A data channel makes no wrappers. -/
theorem eventOf_child (type : StreamType) (msg : Event) (child : Nat) :
    eventOf toStr .dataChannel type ⟨msg, child⟩ = eventOf toStr .dataChannel type ⟨msg, 0⟩ := rfl

/-- A broadcast for the handle of a wrapper. -/
theorem pledged_broadcast {msg : Event} (toStr : Decoded → String) (k : Nat) (hs : HandleInv h s)
    (hfirst : s.First h w v) (hmsg : msg.handle = some h) :
    (s.broadcast msg).First h w v ∧ (s.broadcast msg).pledged toStr w k v =
      s.pledged toStr w k v ++ (eventOf toStr v.kind .message ⟨msg, 0⟩).toList := by
  obtain ⟨hentry, hlistens, -⟩ := hs.served w v hfirst
  refine ⟨hfirst, ?_⟩
  have hqueue : ((s.broadcast msg).dispatcher.sub v.source w).queue
      = (s.dispatcher.sub v.source w).queue ++ [msg] := by
    unfold EventWorld.broadcast EventDispatcher.sub
    dsimp only
    rw [EventDispatcher.broadcast_listened hs.isOpen hmsg hentry,
      EventDispatcher.withController_self]
    have hmem : w ∈ (s.dispatcher.controllers v.source).controller.active := hlistens
    simp [Controller.add, Controller.addAll, hmem, Subscription.push]
  unfold pledged
  rw [hqueue, List.filterMap_append, ← List.append_assoc]
  cases he : eventOf toStr v.kind .message ⟨msg, 0⟩ <;> simp [he]

/-- The stream of a wrapper with a listener relays. -/
theorem relays_of_active {type : StreamType} (hv : v.StreamInv toStr)
    (hk : k ∈ (v.streams type).controller.active) :
    (v.streams type).pending = none ∧ (v.streams type).controller.closed = false := by
  obtain ⟨hbuffers, hrelays⟩ := hv type
  cases hopened : v.opened type with
  | none =>
      rw [(hbuffers hopened).idle] at hk
      cases hk
  | some m => exact ⟨(hrelays m hopened).2.pending, (hrelays m hopened).2.isOpen⟩

/-- Routing an event leaves what a listener is pledged as it is. -/
theorem pledged_route (hw : s.WorldInv toStr) (hv : s.wrappers w = some v)
    (hopen : v.disposed = false) (hkind : v.kind = .dataChannel)
    (hk : k ∈ (v.streams .message).controller.active) (hstep : s.step toStr (.route w) = some s') :
    ∃ v', s'.wrappers w = some v' ∧ v'.disposed = false ∧ v'.kind = .dataChannel ∧
      k ∈ (v'.streams .message).controller.active ∧
      s'.pledged toStr w k v' = s.pledged toStr w k v := by
  obtain ⟨v₀, msg, d, hv₀, hdeliver, hcases⟩ := route_eq hw.known hstep
  cases hv.symm.trans hv₀
  obtain rfl : s' = s.taken toStr d w v msg := by
    rcases hcases with heq | ⟨hpc, -⟩
    · exact heq
    · cases hkind.symm.trans hpc
  obtain ⟨-, -, -, -, -, -, hflow, hgot, -⟩ := EventDispatcher.deliver_frame hdeliver
  obtain ⟨hkind', -, hdisposed, hsource, -⟩ := v.took_fields toStr s.created msg
  have hactive := (kept_took toStr v s.created msg).active .message
  refine ⟨v.took toStr s.created msg, by simp [taken], hdisposed.trans hopen, hkind'.trans hkind,
    by rw [hactive]; exact hk, ?_⟩
  -- The event leaves the queue of the wrapper and goes on the queue of the listener.
  have hqueue : (s.dispatcher.sub v.source w).queue = msg :: (d.sub v.source w).queue := by
    have hsame : (d.sub v.source w).got ++ (d.sub v.source w).queue
        = (s.dispatcher.sub v.source w).got ++ (s.dispatcher.sub v.source w).queue :=
      hflow v.source w
    rw [hgot, List.append_assoc] at hsame
    exact (List.append_cancel_left hsame).symm
  have hstream : (((v.took toStr s.created msg).streams .message).controller.subs k).flow
      = ((v.streams .message).controller.subs k).flow
        ++ (eventOf toStr v.kind .message ⟨msg, 0⟩).toList := by
    rw [Wrapper.streams_took, hkind, eventOf_child]
    cases eventOf toStr .dataChannel .message ⟨msg, 0⟩ with
    | none => simp
    | some payload =>
        obtain ⟨hpending, hclosed⟩ := relays_of_active (hw.streams w v hv hopen) hk
        dsimp only
        unfold BufferedBroadcast.add
        rw [hpending]
        dsimp only
        rw [if_neg (by simp [hclosed])]
        exact Controller.flow_addAll hk
  unfold pledged
  rw [hstream, hsource, hkind', hqueue, List.append_assoc]
  congr 1
  show _ ++ (d.sub v.source w).queue.filterMap _ = _
  cases he : eventOf toStr v.kind .message ⟨msg, 0⟩ <;> simp [he]

/-- Handing an event to a listener leaves what the listener is pledged as it is. -/
theorem pledged_deliver (hv : s.wrappers w = some v) (hopen : v.disposed = false)
    (hkind : v.kind = .dataChannel) (hk : k ∈ (v.streams .message).controller.active)
    (hstep : s.step toStr (.deliver w .message k) = some s') :
    ∃ v', s'.wrappers w = some v' ∧ v'.disposed = false ∧ v'.kind = .dataChannel ∧
      k ∈ (v'.streams .message).controller.active ∧
      s'.pledged toStr w k v' = s.pledged toStr w k v := by
  obtain ⟨v₀, hv₀, hmap⟩ := Option.bind_eq_some_iff.mp hstep
  cases hv.symm.trans hv₀
  obtain ⟨b, hb, rfl⟩ := Option.map_eq_some_iff.mp hmap
  obtain ⟨-, -, hactive, -, hflow⟩ := BufferedBroadcast.deliver_eq hb
  have hstream : (v.withStream .message fun _ => b).streams .message = b := by
    simp [Wrapper.withStream]
  refine ⟨v.withStream .message fun _ => b, by simp [withWrapper, hv], hopen, hkind, ?_, ?_⟩
  · rw [hstream, hactive]
    exact hk
  · unfold pledged
    rw [hstream, hflow]
    rfl

/-- Handing events over leaves what a listener is pledged as it is. -/
theorem pledged_steps (hw : s.WorldInv toStr) (hv : s.wrappers w = some v)
    (hopen : v.disposed = false) (hkind : v.kind = .dataChannel)
    (hk : k ∈ (v.streams .message).controller.active)
    (hsteps : (eventSystem toStr).StepsUnder
      (fun _ a => a = .route w ∨ a = .deliver w .message k) s s') :
    ∃ v', s'.wrappers w = some v' ∧ s'.pledged toStr w k v' = s.pledged toStr w k v := by
  have hrun : s'.WorldInv toStr ∧ ∃ v', s'.wrappers w = some v' ∧ v'.disposed = false ∧
      v'.kind = .dataChannel ∧ k ∈ (v'.streams .message).controller.active ∧
      s'.pledged toStr w k v' = s.pledged toStr w k v := by
    refine hsteps.invariant (I := fun t => t.WorldInv toStr ∧ ∃ v', t.wrappers w = some v' ∧
      v'.disposed = false ∧ v'.kind = .dataChannel ∧
      k ∈ (v'.streams .message).controller.active ∧
      t.pledged toStr w k v' = s.pledged toStr w k v) ⟨hw, v, hv, hopen, hkind, hk, rfl⟩ ?_
    rintro t a u - ⟨hworld, v₁, hv₁, hopen₁, hkind₁, hk₁, hpl⟩ ha hstep
    refine ⟨hworld.step hstep, ?_⟩
    have hnext : ∃ v', u.wrappers w = some v' ∧ v'.disposed = false ∧ v'.kind = .dataChannel ∧
        k ∈ (v'.streams .message).controller.active ∧
        u.pledged toStr w k v' = t.pledged toStr w k v₁ := by
      rcases ha with rfl | rfl
      · exact pledged_route hworld hv₁ hopen₁ hkind₁ hk₁ hstep
      · exact pledged_deliver hv₁ hopen₁ hkind₁ hk₁ hstep
    obtain ⟨v', hv', hopen', hkind', hk', hpl'⟩ := hnext
    exact ⟨v', hv', hopen', hkind', hk', hpl'.trans hpl⟩
  obtain ⟨-, v', hv', -, -, -, hpl⟩ := hrun
  exact ⟨v', hv', hpl⟩

/-- What a listener is pledged arrives. -/
theorem pledged_arrives (hs : (eventSystem toStr).ReachableUnder (Quiet h) s)
    (hfirst : s.First h w v) (hkind : v.kind = .dataChannel)
    (hk : k ∈ (v.streams .message).controller.active) :
    ∃ s' v', (eventSystem toStr).StepsUnder
        (fun _ a => a = .route w ∨ a = .deliver w .message k) s s' ∧ s'.wrappers w = some v' ∧
      ((v'.streams .message).controller.subs k).got = s.pledged toStr w k v := by
  obtain ⟨hworld, hhandle⟩ := inv_of_reachable hs
  have hkept := (hhandle.served w v hfirst).kept
  obtain ⟨s₁, v₁, hsteps₁, hfirst₁, -, -, hempty₁⟩ := exists_routes _ hs hfirst rfl
  obtain ⟨s₂, v₂, hsteps₂, hfirst₂, hdisp₂, hsource₂, -, -, hempty₂⟩ :=
    exists_deliveries toStr .message k _ hfirst₁ rfl
  have hsteps : (eventSystem toStr).StepsUnder
      (fun _ a => a = .route w ∨ a = .deliver w .message k) s s₂ :=
    StepSystem.StepsUnder.trans (hsteps₁.mono fun _ _ ha => Or.inl ha)
      (hsteps₂.mono fun _ _ ha => Or.inr ha)
  obtain ⟨v', hv', hpl⟩ := pledged_steps hworld hfirst.1 hkept hkind hk hsteps
  cases hfirst₂.1.symm.trans hv'
  refine ⟨s₂, v₂, hsteps, hfirst₂.1, ?_⟩
  rw [← hpl]
  unfold pledged Subscription.flow
  rw [hempty₂, hdisp₂, hsource₂, hempty₁]
  simp

end EventWorld

/-! ### From pion to the application -/

/-- The bytes are the UTF-8 encoding of a text. -/
def IsUtf8 (bytes : List UInt8) : Prop := ∃ t : String, t.toUTF8.data.toList = bytes

/-- A message that is decoded to its own bytes: a binary one, or a text in UTF-8 without a byte
order mark at the front. -/
def IsPlain (m : Incoming) : Prop :=
  m.isString = true → IsUtf8 m.bytes ∧ ¬ utf8Bom <+: m.bytes

/-- Only a text can fail to decode, and not a plain one. -/
theorem not_plain_of_decode {decodeStr : List UInt8 → Option String} (hdecode : DartUtf8 decodeStr)
    {m : Incoming} {isNil : Bool} (hvalue : decodeValue decodeStr (payloadValue m isNil) = none) :
    ¬ IsPlain m := by
  unfold payloadValue at hvalue
  split at hvalue
  · rename_i htext
    intro hplain
    obtain ⟨⟨t, ht⟩, hbom⟩ := hplain htext
    have hsome := (hdecode m.bytes t).mpr (ht.trans ((dropBom_eq_self_iff _).mpr hbom).symm)
    cases (Option.map_eq_none_iff.mp hvalue).symm.trans hsome
  · split at hvalue <;> cases hvalue

/-- What is decoded are the bytes of the message, if and only if the message is plain. -/
theorem messageBytes_of_decode {decodeStr : List UInt8 → Option String}
    (hdecode : DartUtf8 decodeStr) {m : Incoming} {isNil : Bool}
    (hnil : isNil = true → m.bytes = []) {payload : Decoded}
    (hvalue : decodeValue decodeStr (payloadValue m isNil) = some payload) :
    messageBytes payload = m.bytes ↔ IsPlain m := by
  unfold payloadValue at hvalue
  split at hvalue
  · rename_i htext
    obtain ⟨t, ht, rfl⟩ := Option.map_eq_some_iff.mp hvalue
    have hbytes : messageBytes (.str t) = dropBom m.bytes := (hdecode m.bytes t).mp ht
    rw [hbytes, dropBom_eq_self_iff]
    refine ⟨fun hbom _ => ⟨⟨t, ?_⟩, hbom⟩, fun hplain => (hplain htext).2⟩
    exact hbytes.trans ((dropBom_eq_self_iff _).mpr hbom)
  · rename_i hbinary
    have hplain : IsPlain m := fun htext => absurd htext hbinary
    refine iff_of_true ?_ hplain
    split at hvalue
    · rename_i hisNil
      cases hvalue
      exact (hnil hisNil).symm
    · cases hvalue
      rfl

/-- A listener of `onMessage` of the wrapper of the handle `h` is given one message for a message of
pion, with its bytes and its kind, if and only if the message is binary, or its bytes are UTF-8 and
do not begin with a byte order mark. This holds on either way and for every message within the
limit. The handle is a UUID in the code. Here it is any text that is not empty and has no mark. -/
theorem inbound_payload_iff (toStr : Decoded → String) (decodeStr : List UInt8 → Option String)
    (hdecode : DartUtf8 decodeStr) (h : String) (hh : h ≠ "") (hbom : ¬ HasBom h)
    (c : BridgeConnection) (s : EventWorld) (hs : (eventSystem toStr).ReachableUnder (Quiet h) s)
    (w k : Nat) (v : Wrapper) (hfirst : s.First h w v) (hkind : v.kind = .dataChannel)
    (hk : k ∈ (v.streams .message).controller.active) (path : InboundPath) (m : Incoming)
    (hm : path.Admits m) :
    let s₁ := (receiveAll decodeStr (path.events h m) (c, s)).2
    (∃ s' v', (eventSystem toStr).StepsUnder
        (fun _ a => a = .route w ∨ a = .deliver w .message k) s₁ s' ∧ s'.wrappers w = some v' ∧
      ((v'.streams .message).controller.subs k).got = s₁.pledged toStr w k v) ∧
    (s₁.pledged toStr w k v = s.pledged toStr w k v ++ [.message m.bytes !m.isString] ↔
      (m.isString = true → IsUtf8 m.bytes ∧ ¬ utf8Bom <+: m.bytes)) := by
  obtain ⟨isNil, hnil, hevents⟩ := path.events_eq h m hm
  have hworld : (receiveAll decodeStr (path.events h m) (c, s)).2 =
      ((decodeValue decodeStr (payloadValue m isNil)).map
        (messageEvent h !m.isString)).toList.foldl EventWorld.broadcast s := by
    rw [hevents, ← eventsFrom_message hdecode hh hbom c]
    rfl
  intro s₁
  have hworld : s₁ = _ := hworld
  clear_value s₁
  subst hworld
  cases hvalue : decodeValue decodeStr (payloadValue m isNil) with
  | none =>
      -- Nothing is passed on.
      refine ⟨pledged_arrives hs hfirst hkind hk,
        iff_of_false ?_ (not_plain_of_decode hdecode hvalue)⟩
      intro heq
      have hlen := congrArg List.length heq
      simp at hlen
  | some payload =>
      have hpayload := messageBytes_of_decode hdecode hnil hvalue
      let msg : Event := messageEvent h (!m.isString) payload
      obtain ⟨-, hhandle⟩ := inv_of_reachable hs
      have hmsg : msg.handle = some h := rfl
      obtain ⟨hfirst₁, hpl⟩ := pledged_broadcast toStr k hhandle hfirst hmsg
      have hquiet : Quiet h s (.broadcast msg) := trivial
      have hstep : s.step toStr (.broadcast msg) = some (s.broadcast msg) := rfl
      have hs₁ : (eventSystem toStr).ReachableUnder (Quiet h) (s.broadcast msg) :=
        .step hs hquiet hstep
      refine ⟨pledged_arrives hs₁ hfirst₁ hkind hk, ?_⟩
      -- The listener is pledged the decoded bytes.
      have hgiven : (s.broadcast msg).pledged toStr w k v = s.pledged toStr w k v ++
          [.message (messageBytes payload) !m.isString] := by
        rw [hpl, hkind]
        rfl
      show (s.broadcast msg).pledged toStr w k v = _ ↔ IsPlain m
      rw [hgiven, List.append_cancel_left_eq, ← hpayload]
      simp

/-- The decoder of `dart:convert`, by way of Lean's own strings. -/
def utf8Decode (bytes : List UInt8) : Option String := String.fromUTF8? ⟨(dropBom bytes).toArray⟩

theorem dartUtf8_utf8Decode : DartUtf8 utf8Decode := by
  intro bytes s
  unfold utf8Decode String.fromUTF8?
  have hbytes : s.toUTF8.data.toList = dropBom bytes ↔
      s.toByteArray = ⟨(dropBom bytes).toArray⟩ := by
    constructor
    · intro heq
      rw [← heq]
      rfl
    · intro heq
      show s.toByteArray.data.toList = dropBom bytes
      rw [heq]
  rw [hbytes]
  split
  · rename_i hvalid
    rw [Option.some.injEq, ← String.toByteArray_inj]
    exact eq_comm
  · rename_i hinvalid
    refine iff_of_false nofun fun heq => hinvalid ?_
    rw [← heq]
    exact s.isValidUTF8

/-- A world with a channel "dc" and a listener of its messages. -/
theorem exists_listening :
    ∃ s v, (eventSystem fun _ => "").ReachableUnder (Quiet "dc") s ∧ s.First "dc" 0 v ∧
      v.kind = .dataChannel ∧ 0 ∈ (v.streams .message).controller.active ∧
      s.pledged (fun _ => "") 0 0 v = [] := by
  let acts : List EventAction := [.construct .dataChannel "dc" none, .listen 0 .message]
  let final := (eventSystem fun _ => "").run (eventSystem fun _ => "").init acts
  have hrun : final.isSome := by rfl
  obtain ⟨s, hs⟩ := Option.isSome_iff_exists.mp hrun
  have hreach : (eventSystem fun _ => "").ReachableUnder (Quiet "dc") s := by
    refine StepSystem.steps_of_run ?_ hs
    simp only [acts, List.forall_mem_cons]
    exact ⟨fun _ => trivial, fun _ => trivial, by simp⟩
  have hwrapper : ∃ v, s.wrappers 0 = some v := by
    have hsome : final.map (fun s => (s.wrappers 0).isSome) = some true := by rfl
    simp only [hs, Option.map_some, Option.some.injEq] at hsome
    exact Option.isSome_iff_exists.mp hsome
  obtain ⟨v, hv⟩ := hwrapper
  have hfacts : final.map (fun s => (s.wrappers 0).map fun v => (v.handle, v.kind,
      (v.streams .message).controller.active, s.pledged (fun _ => "") 0 0 v))
      = some (some ("dc", .dataChannel, [0], [])) := by rfl
  simp only [hs, hv, Option.map_some, Option.some.injEq, Prod.mk.injEq] at hfacts
  obtain ⟨hhandle, hkind, hactive, hpledged⟩ := hfacts
  refine ⟨s, v, hreach, ⟨hv, hhandle, fun _ _ _ _ => Nat.zero_le _⟩, hkind, ?_, hpledged⟩
  rw [hactive]
  exact List.mem_singleton_self 0

/-- An empty binary message on a detached channel. -/
theorem inbound_payload_iff_empty :
    ∃ s v, (eventSystem fun _ => "").ReachableUnder (Quiet "dc") s ∧
      (receiveAll utf8Decode (InboundPath.events "dc" ⟨[], false⟩
        (.detached 0 (.new (readLimit_pos 0)))) (.new, s)).2.pledged (fun _ => "") 0 0 v
        = [.message [] true] := by
  obtain ⟨s, v, hs, hfirst, hkind, hk, hnone⟩ := exists_listening
  have hiff := (inbound_payload_iff (fun _ => "") utf8Decode dartUtf8_utf8Decode "dc" (by decide)
    (by decide) .new s hs 0 0 v hfirst hkind hk (.detached 0 (.new (readLimit_pos 0))) ⟨[], false⟩
    (Nat.zero_le _)).2
  have hone := hiff.mpr nofun
  rw [hnone] at hone
  exact ⟨s, v, hs, hone⟩

/-- What the listener of such a world is pledged for one message. -/
theorem pledged_receive {s : EventWorld} {v : Wrapper}
    (hs : (eventSystem fun _ => "").ReachableUnder (Quiet "dc") s) (hfirst : s.First "dc" 0 v)
    (hkind : v.kind = .dataChannel) (path : InboundPath) {bytes : List UInt8}
    (hpath : path.Admits ⟨bytes, true⟩) :
    (receiveAll utf8Decode (path.events "dc" ⟨bytes, true⟩) (.new, s)).2.pledged (fun _ => "") 0 0 v
      =
      s.pledged (fun _ => "") 0 0 v ++
        ((utf8Decode bytes).map fun t => Payload.message t.toUTF8.data.toList false).toList := by
  obtain ⟨isNil, -, hevents⟩ := path.events_eq "dc" ⟨bytes, true⟩ hpath
  rw [hevents]
  show ((BridgeConnection.eventsFrom utf8Decode .new _).foldl EventWorld.broadcast s).pledged
    _ 0 0 v = _
  rw [eventsFrom_message dartUtf8_utf8Decode (by decide) (by decide)]
  show ((((utf8Decode bytes).map Decoded.str).map _).toList.foldl EventWorld.broadcast s).pledged
    _ 0 0 v = _
  cases utf8Decode bytes with
  | none => simp
  | some t =>
      obtain ⟨-, hhandle⟩ := inv_of_reachable hs
      have hpl := (pledged_broadcast (fun _ => "") 0 hhandle hfirst
        (show (messageEvent "dc" false (.str t)).handle = some "dc" from rfl)).2
      rw [hkind] at hpl
      exact hpl

/-- A text message with the byte `0xff` never arrives, and one with a byte order mark and an `A`
arrives as an `A`. -/
theorem text_message_lost :
    ∃ s v, (eventSystem fun _ => "").ReachableUnder (Quiet "dc") s ∧ s.First "dc" 0 v ∧
      v.kind = .dataChannel ∧ 0 ∈ (v.streams .message).controller.active ∧
      DartUtf8 utf8Decode ∧
      (∀ path : InboundPath, path.Admits ⟨[0xFF], true⟩ →
        (receiveAll utf8Decode (path.events "dc" ⟨[0xFF], true⟩) (.new, s)).2.pledged
          (fun _ => "") 0 0 v = []) ∧
      ∀ path : InboundPath, path.Admits ⟨[0xEF, 0xBB, 0xBF, 0x41], true⟩ →
        (receiveAll utf8Decode (path.events "dc" ⟨[0xEF, 0xBB, 0xBF, 0x41], true⟩)
          (.new, s)).2.pledged (fun _ => "") 0 0 v = [.message [0x41] false] := by
  obtain ⟨s, v, hs, hfirst, hkind, hk, hnone⟩ := exists_listening
  refine ⟨s, v, hs, hfirst, hkind, hk, dartUtf8_utf8Decode, fun path hpath => ?_,
    fun path hpath => ?_⟩
  · rw [pledged_receive hs hfirst hkind path hpath, hnone,
      show utf8Decode [0xFF] = none by decide]
    rfl
  · rw [pledged_receive hs hfirst hkind path hpath, hnone,
      show utf8Decode [0xEF, 0xBB, 0xBF, 0x41] = some "A" by decide]
    rfl

end PionBridge.Dart
