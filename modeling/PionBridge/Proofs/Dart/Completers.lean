import PionBridge.Dart.Completers
import PionBridge.Proofs.Dart.Connection

/-!
# `PionBridge.Proofs.Dart.Completers`: failing calls and the table of pending requests

Two updates of `_pendingRequests` are not paired with the step that belongs to them. A call that
throws after its entry was made leaves the entry (`requestCall_threw_iff`), and `failPending` later
completes its completer, whose future nobody holds. An error frame with a field of the wrong type
removes the entry of its request, and the completer stays open (`handleFrame_drops_iff`).

`TableInv` says which entries there are: those of the calls that returned a future, and those of the
calls that threw.
-/

set_option autoImplicit false

namespace PionBridge.Dart

open PionBridge.Lib

namespace BridgeConnection

variable {s s' : BridgeConnection}

/-! ### Calls of `request` -/

/-- A call that hands its frame over is the `request` of `Connection.lean`. -/
theorem requestCall_sent (type : String) (handle : Option String) (data : List (String × Value))
    (hconn : s.connected = true) :
    s.request type handle data = some (s.requestCall .sent type handle data).1 := by
  simp only [request, requestCall, register, hconn, if_true]

/-- A call that throws leaves the table as it is exactly when it throws at the check. -/
theorem requestCall_threw_iff {handOver : HandOver} {type : String} {handle : Option String}
    {data : List (String × Value)} (h : (s.requestCall handOver type handle data).2 = .threw) :
    (s.requestCall handOver type handle data).1.pendingRequests = s.pendingRequests ↔
      s.connected = false := by
  cases hconn : s.connected with
  | false => simp [requestCall, hconn]
  | true =>
      cases handOver with
      | sent => simp [requestCall, hconn] at h
      | encodeThrows | sendThrows => simp [requestCall, hconn, register]

/-! ### Frames -/

/-- No error frame for a pending request has a field of the wrong type. -/
def Readable (s : BridgeConnection) (decoded : Option Decoded) : Prop :=
  ∀ entries msg, decoded = some (.map entries) → WsMessage.fromDecoded entries = some msg →
    msg.type = "error" → msg.id ∈ s.pendingRequests → (PionException.fromWsMessage msg).isSome

theorem settle_pendingRequests (s : BridgeConnection) (id : Int) (o : Outcome) :
    (s.settle id o).pendingRequests = s.pendingRequests := by
  unfold settle
  split
  · rfl
  · rfl

/-- An answer takes the entry with its id out, whether it can be read or not. -/
theorem handleAnswer_pendingRequests (s : BridgeConnection) (msg : WsMessage Decoded) :
    (s.handleAnswer msg).pendingRequests = s.pendingRequests.erase msg.id := by
  unfold handleAnswer
  split
  · split
    · exact settle_pendingRequests ..
    · rfl
  · rename_i hgone
    rw [List.erase_of_not_mem hgone]
    split
    · rfl
    · rfl

/-- What a frame does to the table: nothing, or it takes the entry of an answer out. -/
theorem handleFrame_cases (s : BridgeConnection) (decoded : Option Decoded) :
    ((s.handleFrame decoded).pendingRequests = s.pendingRequests ∧
      (∀ entries msg, decoded = some (.map entries) → WsMessage.fromDecoded entries = some msg →
        ¬ (isAck msg.type ∨ msg.type = "error"))) ∨
    ∃ entries msg, decoded = some (.map entries) ∧ WsMessage.fromDecoded entries = some msg ∧
      (isAck msg.type ∨ msg.type = "error") ∧
      (s.handleFrame decoded).pendingRequests = s.pendingRequests.erase msg.id ∧
      s.frameCompletes decoded = s.answerCompletes msg := by
  match decoded with
  | some (.map entries) =>
      cases hmsg : WsMessage.fromDecoded entries with
      | none =>
          refine .inl ⟨?_, ?_⟩
          · simp only [handleFrame, hmsg]
          · rintro entries' msg ⟨⟩ hmsg'
            cases hmsg.symm.trans hmsg'
      | some msg =>
          by_cases hanswer : isAck msg.type ∨ msg.type = "error"
          · refine .inr ⟨entries, msg, rfl, hmsg, hanswer, ?_, ?_⟩
            · simp only [handleFrame, hmsg, if_pos hanswer]
              exact handleAnswer_pendingRequests s msg
            · simp only [frameCompletes, hmsg, if_pos hanswer]
          · refine .inl ⟨?_, ?_⟩
            · simp only [handleFrame, hmsg, if_neg hanswer, onMessage]
            · rintro entries' msg' ⟨⟩ hmsg'
              cases hmsg.symm.trans hmsg'
              exact hanswer
  | none | some .null | some (.bool _) | some (.int _) | some (.double _) | some (.str _)
  | some (.bytes _) | some (.list _) =>
      refine .inl ⟨rfl, ?_⟩
      rintro entries msg ⟨⟩

/-- An answer is read if it is an ack, or an error with fields of the right types. -/
theorem answerOf_isSome {msg : WsMessage Decoded} :
    (answerOf msg).isSome ↔ (msg.type = "error" → (PionException.fromWsMessage msg).isSome) := by
  unfold answerOf
  by_cases herr : msg.type = "error"
  · simp [herr]
  · simp [herr]

/-- `handleFrame` completes the completer of every entry that it removes exactly when the frame is
readable. -/
theorem handleFrame_drops_iff (hnodup : s.pendingRequests.Nodup) (decoded : Option Decoded) :
    (∀ id ∈ s.pendingRequests, id ∉ (s.handleFrame decoded).pendingRequests →
      ∃ o, (id, o) ∈ s.frameCompletes decoded) ↔ s.Readable decoded := by
  obtain ⟨hsame, hother⟩ | ⟨entries, msg, hdec, hmsg, hanswer, herase, hcomp⟩ :=
    s.handleFrame_cases decoded
  · -- The frame is no answer: nothing is removed.
    rw [hsame]
    constructor
    · intro _ entries msg hdec hmsg herr
      exact absurd (.inr herr) (hother entries msg hdec hmsg)
    · intro _ id hid hgone
      exact absurd hid hgone
  · rw [herase, hcomp]
    constructor
    · intro hall entries' msg' hdec' hmsg' herr hmem
      cases hdec.symm.trans hdec'
      cases hmsg.symm.trans hmsg'
      obtain ⟨o, ho⟩ := hall msg.id hmem hnodup.not_mem_erase
      rw [answerCompletes, if_pos hmem] at ho
      have hsome : (answerOf msg).isSome := by
        cases hans : answerOf msg with
        | none =>
            rw [hans] at ho
            cases ho
        | some o' => rfl
      exact answerOf_isSome.mp hsome herr
    · intro hread id hid hgone
      -- The only entry that goes is that of the answer.
      have heq : id = msg.id := by
        by_contra hne
        exact hgone ((List.mem_erase_of_ne hne).mpr hid)
      subst heq
      have hsome := answerOf_isSome.mpr fun herr => hread entries msg hdec hmsg herr hid
      obtain ⟨o, ho⟩ := Option.isSome_iff_exists.mp hsome
      refine ⟨o, ?_⟩
      rw [answerCompletes, if_pos hid, ho]
      exact List.mem_singleton_self _

/-! ### The futures among the completers -/

theorem settle_timers (s : BridgeConnection) (id : Int) (o : Outcome) :
    (s.settle id o).timers = s.timers.erase id := by
  unfold settle
  split
  · rfl
  · rename_i hclosed
    exact (List.erase_of_not_mem hclosed).symm

/-- A completer that completes takes the open future of its request with it. -/
theorem settle_completions (s : BridgeConnection) (id : Int) (o : Outcome) :
    (s.settle id o).completions =
      s.completions ++ [(id, o)].filter fun c => decide (c.1 ∈ s.timers) := by
  unfold settle
  by_cases hopen : id ∈ s.timers
  · simp [hopen]
  · simp [hopen]

/-- The completers of `failPending`, one after the other. -/
theorem foldl_settle_completions (o : Outcome) {ids : List Int} (hnodup : ids.Nodup)
    (s : BridgeConnection) :
    (ids.foldl (fun s id => s.settle id o) s).completions =
      s.completions ++ (ids.map fun id => (id, o)).filter fun c => decide (c.1 ∈ s.timers) := by
  induction ids generalizing s with
  | nil => simp
  | cons id ids ih =>
      obtain ⟨hid, hrest⟩ := List.nodup_cons.mp hnodup
      rw [List.foldl_cons, ih hrest, settle_completions, settle_timers, List.map_cons,
        List.append_assoc]
      refine congrArg _ ?_
      -- Completing one request leaves the futures of the others as they are.
      have hothers : (ids.map fun id => (id, o)).filter
            (fun c => decide (c.1 ∈ s.timers.erase id)) =
          (ids.map fun id => (id, o)).filter fun c => decide (c.1 ∈ s.timers) := by
        refine List.filter_congr fun c hc => ?_
        obtain ⟨id', hid', rfl⟩ := List.mem_map.mp hc
        have hne : id' ≠ id := fun heq => hid (heq ▸ hid')
        simp [List.mem_erase_of_ne hne]
      rw [hothers, ← List.filter_append, List.singleton_append]

theorem failPending_completions (hnodup : s.pendingRequests.Nodup) (reason : String) :
    (s.failPending reason).completions =
      s.completions ++ (s.failCompletes reason).filter fun c => decide (c.1 ∈ s.timers) :=
  foldl_settle_completions (connectionLost reason) hnodup { s with pendingRequests := [] }

/-- The futures that a frame completes are those of the completers that it completes, as far as a
caller still waits for them. -/
theorem handleFrame_completions (s : BridgeConnection) (decoded : Option Decoded) :
    (s.handleFrame decoded).completions =
      s.completions ++ (s.frameCompletes decoded).filter fun c => decide (c.1 ∈ s.timers) := by
  match decoded with
  | some (.map entries) =>
      cases hmsg : WsMessage.fromDecoded entries with
      | none => simp [handleFrame, frameCompletes, hmsg]
      | some msg =>
          by_cases hanswer : isAck msg.type ∨ msg.type = "error"
          · simp only [handleFrame, frameCompletes, hmsg, if_pos hanswer]
            unfold handleAnswer answerCompletes
            by_cases hmem : msg.id ∈ s.pendingRequests
            · rw [if_pos hmem, if_pos hmem]
              cases answerOf msg with
              | none => simp
              | some o => exact settle_completions ..
            · rw [if_neg hmem, if_neg hmem]
              split
              · simp [onMessage]
              · simp
          · simp [handleFrame, frameCompletes, hmsg, if_neg hanswer, onMessage]
  | none | some .null | some (.bool _) | some (.int _) | some (.double _) | some (.str _)
  | some (.bytes _) | some (.list _) => simp [handleFrame, frameCompletes]

/-! ### The steps -/

/-- No request is made: entries go at most. -/
structure Shrunk (s s' : BridgeConnection) : Prop where
  pending : s'.pendingRequests.Sublist s.pendingRequests
  requests : s'.requests = s.requests
  next : s'.nextRequestId = s.nextRequestId

theorem Shrunk.refl (s : BridgeConnection) : Shrunk s s := ⟨List.Sublist.refl _, rfl, rfl⟩

theorem Shrunk.settle (h : Shrunk s s') (id : Int) (o : Outcome) : Shrunk s (s'.settle id o) := by
  unfold BridgeConnection.settle
  split
  · exact ⟨h.pending, h.requests, h.next⟩
  · exact h

theorem shrunk_failPending (s : BridgeConnection) (reason : String) :
    Shrunk s (s.failPending reason) := by
  -- The table is empty before the first completer completes.
  have hfold : ∀ (ids : List Int) (t : BridgeConnection), Shrunk s t →
      Shrunk s (ids.foldl (fun s id => s.settle id (connectionLost reason)) t) := by
    intro ids
    induction ids with
    | nil =>
        intro t ht
        exact ht
    | cons id ids ih =>
        intro t ht
        exact ih _ (ht.settle id _)
  have h := hfold s.pendingRequests { s with pendingRequests := [] }
    ⟨List.nil_sublist _, rfl, rfl⟩
  exact ⟨h.pending, h.requests, h.next⟩

theorem shrunk_handleAnswer (s : BridgeConnection) (msg : WsMessage Decoded) :
    Shrunk s (s.handleAnswer msg) := by
  have herase : Shrunk s { s with pendingRequests := s.pendingRequests.erase msg.id } :=
    ⟨List.erase_sublist, rfl, rfl⟩
  unfold handleAnswer
  split
  · split
    · exact herase.settle ..
    · exact herase
  · split
    · exact ⟨List.Sublist.refl _, rfl, rfl⟩
    · exact .refl s

theorem shrunk_handleFrame (s : BridgeConnection) (decoded : Option Decoded) :
    Shrunk s (s.handleFrame decoded) := by
  unfold handleFrame
  split
  · split
    · split
      · rename_i msg _ _
        have h := s.shrunk_handleAnswer msg
        exact ⟨h.pending, h.requests, h.next⟩
      · exact ⟨List.Sublist.refl _, rfl, rfl⟩
    · exact .refl s
  · exact .refl s

/-- A step makes one request with the next id, or entries go at most. -/
theorem step_cases {a : ConnectionAction} (h : s.step a = some s') :
    (s.connected = true ∧ ∃ type handle data, s' = (s.requestCall .sent type handle data).1) ∨
      Shrunk s s' := by
  cases a with
  | connect =>
      cases h
      exact .inr ⟨List.Sublist.refl _, rfl, rfl⟩
  | send type handle data =>
      simp only [BridgeConnection.step, send] at h
      split at h
      · cases h
        exact .inr ⟨List.Sublist.refl _, rfl, rfl⟩
      · cases h
  | request type handle data =>
      -- Without a connection the call throws before it makes an entry.
      have hconn : s.connected = true := by
        by_contra hconn
        simp [BridgeConnection.step, request, hconn] at h
      have heq : s.request type handle data = some s' := h
      rw [requestCall_sent type handle data hconn, Option.some.injEq] at heq
      exact .inl ⟨hconn, type, handle, data, heq.symm⟩
  | frame decoded =>
      cases h
      exact .inr (s.shrunk_handleFrame decoded)
  | timeout id =>
      simp only [BridgeConnection.step, timeout] at h
      split at h
      · cases h
        exact .inr ⟨List.erase_sublist, rfl, rfl⟩
      · cases h
  | failPending reason =>
      cases h
      exact .inr (s.shrunk_failPending reason)
  | disconnect reason =>
      cases h
      refine .inr ?_
      unfold handleDisconnect
      split
      · exact .refl s
      · have h := shrunk_failPending { s with disconnectHandled := true, connected := false } reason
        exact ⟨h.pending, h.requests, h.next⟩
  | close =>
      cases h
      have h := shrunk_failPending { s with disconnectHandled := true, connected := false }
        "Connection closed"
      exact .inr ⟨h.pending, h.requests, h.next⟩

end BridgeConnection

/-! ### The entries of the table -/

namespace CompleterWorld

open BridgeConnection

variable {w w' : CompleterWorld}

/-- Every entry is that of a call that returned, or of one that threw. -/
structure TableInv (w : CompleterWorld) : Prop where
  nodup : w.conn.pendingRequests.Nodup
  pending : ∀ id ∈ w.conn.pendingRequests, id ∈ w.conn.requests ∨ id ∈ w.thrown
  requests : ∀ id ∈ w.conn.requests, id < w.conn.nextRequestId
  thrown : ∀ id ∈ w.thrown, id < w.conn.nextRequestId
  apart : ∀ id ∈ w.thrown, id ∉ w.conn.requests

theorem TableInv.fresh (hw : w.TableInv) : w.conn.nextRequestId ∉ w.conn.pendingRequests := by
  intro hmem
  obtain hreq | hthrown := hw.pending _ hmem
  · exact absurd (hw.requests _ hreq) (Int.lt_irrefl _)
  · exact absurd (hw.thrown _ hthrown) (Int.lt_irrefl _)

theorem TableInv.shrink (hw : w.TableInv) {conn : BridgeConnection}
    (completed : List (Int × Outcome)) (h : Shrunk w.conn conn) :
    TableInv { w with conn := conn, completed := completed } where
  nodup := hw.nodup.sublist h.pending
  pending id hid := by
    show id ∈ conn.requests ∨ id ∈ w.thrown
    rw [h.requests]
    exact hw.pending id (h.pending.subset hid)
  requests := by
    show ∀ id ∈ conn.requests, id < conn.nextRequestId
    rw [h.requests, h.next]
    exact hw.requests
  thrown := by
    show ∀ id ∈ w.thrown, id < conn.nextRequestId
    rw [h.next]
    exact hw.thrown
  apart := by
    show ∀ id ∈ w.thrown, id ∉ conn.requests
    rw [h.requests]
    exact hw.apart

/-- A call of `request` gets past the check: its id joins one of the two records. -/
theorem TableInv.register (hw : w.TableInv) {conn : BridgeConnection} (thrown : List Int)
    (completed : List (Int × Outcome))
    (hpending : conn.pendingRequests = w.conn.pendingRequests ++ [w.conn.nextRequestId])
    (hnext : conn.nextRequestId = w.conn.nextRequestId + 1)
    (hrecord : conn.requests = w.conn.requests ++ [w.conn.nextRequestId] ∧ thrown = w.thrown ∨
      conn.requests = w.conn.requests ∧ thrown = w.thrown ++ [w.conn.nextRequestId]) :
    TableInv ⟨conn, thrown, completed⟩ := by
  have hids : ∀ id, id ∈ conn.requests ∨ id ∈ thrown ↔
      (id ∈ w.conn.requests ∨ id ∈ w.thrown) ∨ id = w.conn.nextRequestId := by
    intro id
    obtain ⟨hreq, hthr⟩ | ⟨hreq, hthr⟩ := hrecord
    · rw [hreq, hthr, List.mem_append, List.mem_singleton]
      tauto
    · rw [hreq, hthr, List.mem_append, List.mem_singleton]
      tauto
  have hbound : ∀ id, id ∈ conn.requests ∨ id ∈ thrown → id < conn.nextRequestId := by
    intro id hid
    rw [hnext]
    obtain (hold | hold) | rfl := (hids id).mp hid
    · have := hw.requests id hold
      omega
    · have := hw.thrown id hold
      omega
    · omega
  refine ⟨?_, ?_, fun id hid => hbound id (.inl hid), fun id hid => hbound id (.inr hid), ?_⟩
  · show conn.pendingRequests.Nodup
    rw [hpending]
    exact List.nodup_append.mpr ⟨hw.nodup, List.nodup_singleton _, fun id hid id' hid' => by
      rw [List.mem_singleton.mp hid']
      exact fun heq => hw.fresh (heq ▸ hid)⟩
  · intro id hid
    show id ∈ conn.requests ∨ id ∈ thrown
    have hid' : id ∈ w.conn.pendingRequests ++ [w.conn.nextRequestId] := hpending ▸ hid
    rw [hids]
    obtain hold | hnew := List.mem_append.mp hid'
    · exact .inl (hw.pending id hold)
    · exact .inr (List.mem_singleton.mp hnew)
  · intro id hthrown hreq
    obtain ⟨hr, ht⟩ | ⟨hr, ht⟩ := hrecord
    · have hold : id ∈ w.thrown := ht ▸ hthrown
      obtain hreq' | hnew := List.mem_append.mp (hr ▸ hreq : id ∈ w.conn.requests ++ _)
      · exact hw.apart id hold hreq'
      · have := hw.thrown id hold
        rw [List.mem_singleton.mp hnew] at this
        omega
    · have hold : id ∈ w.conn.requests := hr ▸ hreq
      obtain hthrown' | hnew := List.mem_append.mp (ht ▸ hthrown : id ∈ w.thrown ++ _)
      · exact hw.apart id hthrown' hold
      · have := hw.requests id hold
        rw [List.mem_singleton.mp hnew] at this
        omega

/-- A call that hands its frame over. -/
theorem TableInv.returned (hw : w.TableInv) (hconn : w.conn.connected = true) (type : String)
    (handle : Option String) (data : List (String × Value)) (completed : List (Int × Outcome)) :
    TableInv { w with
      conn := (w.conn.requestCall .sent type handle data).1, completed := completed } := by
  refine hw.register w.thrown completed ?_ ?_ (.inl ⟨?_, rfl⟩)
  · simp [requestCall, hconn, BridgeConnection.register]
  · simp [requestCall, hconn, BridgeConnection.register]
  · simp [requestCall, hconn]

/-- The step lemma. -/
theorem TableInv.step (hw : w.TableInv) {a : CompleterAction} (h : w.step a = some w') :
    w'.TableInv := by
  cases a with
  | request handOver type handle data =>
      cases hconn : w.conn.connected with
      | false =>
          simp only [CompleterWorld.step, requestCall, hconn, Bool.false_eq_true, if_false,
            List.append_nil, Option.some.injEq] at h
          exact h ▸ hw
      | true =>
          cases handOver with
          | sent =>
              simp only [CompleterWorld.step, requestCall, hconn, if_true, Option.some.injEq] at h
              subst h
              have hret := hw.returned hconn type handle data w.completed
              simpa only [requestCall, hconn, if_true] using hret
          | encodeThrows | sendThrows =>
              simp only [CompleterWorld.step, requestCall, hconn, if_true, Option.some.injEq] at h
              subst h
              exact hw.register _ w.completed rfl rfl (.inr ⟨rfl, rfl⟩)
  | other a =>
      obtain ⟨conn, hconn, rfl⟩ := Option.map_eq_some_iff.mp h
      obtain ⟨hopen, type, handle, data, rfl⟩ | hshrunk := step_cases hconn
      · exact hw.returned hopen type handle data _
      · exact hw.shrink _ hshrunk

/-- The run lemma. -/
theorem tableInv_of_reachable (hw : completerSystem.Reachable w) : w.TableInv := by
  refine hw.invariant ?_ fun _ _ _ _ hinv hstep => hinv.step hstep
  constructor <;> simp [completerSystem, BridgeConnection.new]

/-- A future completes with its completer, or by its timer. -/
theorem completions_step (hnodup : w.conn.pendingRequests.Nodup) {a : ConnectionAction}
    {conn : BridgeConnection} (h : w.conn.step a = some conn) :
    ∀ c ∈ conn.completions, c ∈ w.conn.completions ∨ c ∈ w.conn.completes a ∨
      c.2 = operationTimeout := by
  -- What is new among the completions is a part of `completes`.
  have hpart : ∀ (l : List (Int × Outcome)) (p : Int × Outcome → Bool),
      conn.completions = w.conn.completions ++ l.filter p → ∀ c ∈ conn.completions,
        c ∈ w.conn.completions ∨ c ∈ l ∨ c.2 = operationTimeout := by
    intro l p heq c hc
    rw [heq] at hc
    obtain hold | hnew := List.mem_append.mp hc
    · exact .inl hold
    · exact .inr (.inl (List.mem_of_mem_filter hnew))
  cases a with
  | connect =>
      cases h
      exact fun c hc => .inl hc
  | send type handle data =>
      simp only [BridgeConnection.step, send] at h
      split at h
      · cases h
        exact fun c hc => .inl hc
      · cases h
  | request type handle data =>
      simp only [BridgeConnection.step, request] at h
      split at h
      · cases h
        exact fun c hc => .inl hc
      · cases h
  | frame decoded =>
      cases h
      exact hpart _ _ (handleFrame_completions w.conn decoded)
  | timeout id =>
      simp only [BridgeConnection.step, timeout] at h
      split at h
      · cases h
        intro c hc
        obtain hold | hnew := List.mem_append.mp hc
        · exact .inl hold
        · rw [List.mem_singleton.mp hnew]
          exact .inr (.inr rfl)
      · cases h
  | failPending reason =>
      cases h
      exact hpart _ _ (failPending_completions hnodup reason)
  | disconnect reason =>
      cases h
      simp only [handleDisconnect, completes] at hpart ⊢
      split
      · exact fun c hc => .inl hc
      · rename_i hopen
        rw [if_neg hopen] at hpart
        exact hpart _ _ (failPending_completions
          (s := { w.conn with disconnectHandled := true, connected := false }) hnodup reason)
  | close =>
      cases h
      exact hpart _ _ (failPending_completions
        (s := { w.conn with disconnectHandled := true, connected := false }) hnodup _)

/-- A call of `request` completes nothing. -/
theorem completions_request {handOver : HandOver} {type : String} {handle : Option String}
    {data : List (String × Value)} (h : w.step (.request handOver type handle data) = some w') :
    w'.conn.completions = w.conn.completions ∧ w'.completed = w.completed := by
  have hsame : (w.conn.requestCall handOver type handle data).1.completions =
      w.conn.completions := by
    unfold requestCall
    split
    · cases handOver <;> rfl
    · rfl
  simp only [CompleterWorld.step] at h
  split at h
  · rename_i conn hcall
    cases h
    rw [hcall] at hsame
    exact ⟨hsame, rfl⟩
  · rename_i conn id hcall
    cases h
    rw [hcall] at hsame
    exact ⟨hsame, rfl⟩

/-- Every completion of a future in a run is that of a completer, or a timeout. -/
theorem completions_of_reachable (hw : completerSystem.Reachable w) :
    ∀ c ∈ w.conn.completions, c ∈ w.completed ∨ c.2 = operationTimeout := by
  refine hw.invariant (I := fun w => ∀ c ∈ w.conn.completions,
    c ∈ w.completed ∨ c.2 = operationTimeout) (fun c hc => by cases hc) ?_
  intro t a u ht hinv hstep c hc
  cases a with
  | request handOver type handle data =>
      obtain ⟨hsame, hrecord⟩ := completions_request hstep
      rw [hrecord]
      exact hinv c (hsame ▸ hc)
  | other a =>
      obtain ⟨conn, hconn, rfl⟩ := Option.map_eq_some_iff.mp hstep
      obtain hold | hnew | htimeout :=
        completions_step (tableInv_of_reachable ht).nodup hconn c hc
      · obtain hdone | htimeout := hinv c hold
        · exact .inl (List.mem_append_left _ hdone)
        · exact .inr htimeout
      · exact .inl (List.mem_append_right _ hnew)
      · exact .inr htimeout

/-- `failPending` completes a completer whose future nobody holds exactly when the entry of a call
that threw is still there. -/
theorem failCompletes_held_iff (hw : w.TableInv) (reason : String) :
    (∀ c ∈ w.conn.failCompletes reason, c.1 ∈ w.conn.requests) ↔
      ∀ id ∈ w.thrown, id ∉ w.conn.pendingRequests := by
  have hmem : ∀ id, id ∈ w.conn.pendingRequests ↔
      (id, connectionLost reason) ∈ w.conn.failCompletes reason := by
    intro id
    simp [failCompletes]
  constructor
  · intro hheld id hthrown hpending
    exact hw.apart id hthrown (hheld _ ((hmem id).mp hpending))
  · intro hgone c hc
    obtain ⟨id, hid, rfl⟩ := List.mem_map.mp hc
    exact (hw.pending id hid).resolve_right fun hthrown => hgone id hthrown hid

end CompleterWorld

open CompleterWorld

/-- In every state of a connection: a call of `request` that throws leaves the table as it is
exactly when the connection is not open; a frame completes the completer of every entry that it
removes exactly when it is no error with an unreadable field for a pending request; and
`failPending` completes futures that a caller holds and no others exactly when no entry of a call
that threw is left. -/
theorem pending_table_intact_iff (w : CompleterWorld) (hw : completerSystem.Reachable w) :
    (∀ handOver type handle data,
      (w.conn.requestCall handOver type handle data).2 = .threw →
      ((w.conn.requestCall handOver type handle data).1.pendingRequests =
        w.conn.pendingRequests ↔ w.conn.connected = false)) ∧
    (∀ decoded, (∀ id ∈ w.conn.pendingRequests,
        id ∉ (w.conn.handleFrame decoded).pendingRequests →
          ∃ o, (id, o) ∈ w.conn.frameCompletes decoded) ↔ w.conn.Readable decoded) ∧
    ∀ reason, (∀ c ∈ w.conn.failCompletes reason, c.1 ∈ w.conn.requests) ↔
      ∀ id ∈ w.thrown, id ∉ w.conn.pendingRequests := by
  have hinv := tableInv_of_reachable hw
  refine ⟨?_, ?_, ?_⟩
  · intro handOver type handle data hthrew
    exact BridgeConnection.requestCall_threw_iff hthrew
  · intro decoded
    exact BridgeConnection.handleFrame_drops_iff hinv.nodup decoded
  · intro reason
    exact failCompletes_held_iff hinv reason

/-- The world after `connect`, a call that throws in `serialize`, and one that is sent. -/
def thrownWorld : CompleterWorld :=
  let acts := [.other .connect, .request .encodeThrows "dc:send" none [],
    .request .sent "dc:send" none []]
  (completerSystem.run completerSystem.init acts).getD completerSystem.init

theorem thrownWorld_reachable : completerSystem.Reachable thrownWorld := by
  have hrun : completerSystem.run completerSystem.init [.other .connect,
      .request .encodeThrows "dc:send" none [], .request .sent "dc:send" none []] =
      some thrownWorld := rfl
  exact StepSystem.reachable_of_run hrun

/-- The error frame for the second call, with a number for its code. -/
def numberCode : Option Decoded :=
  some (.map [("type", .str "error"), ("id", .int 2), ("data", .map [("code", .int 7)])])

/-- The same frame with a text for its code. -/
def textCode : Option Decoded :=
  some (.map [("type", .str "error"), ("id", .int 2), ("data", .map [("code", .str "NOT_FOUND")])])

/-- In that world a readable error frame completes the request that it answers. -/
theorem pending_table_intact_text : completerSystem.Reachable thrownWorld ∧
    ∀ id ∈ thrownWorld.conn.pendingRequests,
      id ∉ (thrownWorld.conn.handleFrame textCode).pendingRequests →
        ∃ o, (id, o) ∈ thrownWorld.conn.frameCompletes textCode := by
  refine ⟨thrownWorld_reachable,
    ((pending_table_intact_iff thrownWorld thrownWorld_reachable).2.1 textCode).mpr ?_⟩
  rintro entries msg ⟨⟩ ⟨⟩ - -
  rfl

/-- A call that threw has left its entry, `failPending` completes it though nobody holds its future,
and the error frame with a number for its code removes the second entry and completes nothing. -/
theorem thrown_call_leaves_entry :
    thrownWorld.conn.pendingRequests = [1, 2] ∧ thrownWorld.conn.requests = [2] ∧
    (thrownWorld.conn.failCompletes "closed").map (·.1) = [1, 2] ∧
    (thrownWorld.conn.handleFrame numberCode).pendingRequests = [1] ∧
    thrownWorld.conn.frameCompletes numberCode = [] :=
  ⟨rfl, rfl, rfl, rfl, rfl⟩

end PionBridge.Dart
