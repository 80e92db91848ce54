import Mathlib.Data.List.Nodup
import PionBridge.Dart.Connection

/-!
# `PionBridge.Proofs.Dart.Connection`: every request is answered once, by its own answer

The purpose of the correlation is a function of the log: a request completes with the first thing
after it in the log that is about it (`outcomeOf`). The answer has to bear its id, the timer has to
be its own, and `failPending` is about everybody.

`CorrInv` says that the connection computes this function, and that the map of completers and the
timers both hold the requests that are still open. A step that logs an entry completes the open
requests that the entry is about and no other (`Resolved`), whichever of the sources it comes from.
-/

set_option autoImplicit false

namespace PionBridge.Dart

open PionBridge.Lib

/-! ### The outcome of a request, from the log -/

/-- What an entry completes an open request with. -/
def LogEntry.resolves (id : Int) : LogEntry → Option Outcome
  | .sent _ => none
  | .answered id' o => if id' = id then some o else none
  | .timedOut id' => if id' = id then some operationTimeout else none
  | .failed reason => some (connectionLost reason)

/-- The first entry after the request that is about it. -/
def outcomeOf (id : Int) : List LogEntry → Option Outcome
  | [] => none
  | .sent id' :: rest =>
    if id' = id then rest.findSome? (LogEntry.resolves id) else outcomeOf id rest
  | .answered _ _ :: rest | .timedOut _ :: rest | .failed _ :: rest => outcomeOf id rest

theorem outcomeOf_cons_of_ne {id : Int} {e : LogEntry} (h : e ≠ .sent id) (rest : List LogEntry) :
    outcomeOf id (e :: rest) = outcomeOf id rest := by
  cases e with
  | sent id' =>
      have hne : id' ≠ id := fun heq => h (by rw [heq])
      simp [outcomeOf, hne]
  | _ => rfl

/-- One more entry counts for a request that is open. -/
theorem outcomeOf_append {id : Int} {log : List LogEntry} (h : .sent id ∈ log) (e : LogEntry) :
    outcomeOf id (log ++ [e]) = (outcomeOf id log).or (e.resolves id) := by
  induction log with
  | nil => cases h
  | cons x log ih =>
      by_cases hx : x = .sent id
      · subst hx
        simp only [List.cons_append, outcomeOf, if_true, List.findSome?_append]
        cases log.findSome? (LogEntry.resolves id) <;> simp [List.findSome?]
        cases e.resolves id <;> rfl
      · have hmem : .sent id ∈ log := (List.mem_cons.mp h).resolve_left (Ne.symm hx)
        rw [List.cons_append, outcomeOf_cons_of_ne hx, outcomeOf_cons_of_ne hx, ih hmem]

/-- A request that comes last is open. -/
theorem outcomeOf_append_sent {id : Int} {log : List LogEntry} (h : .sent id ∉ log) :
    outcomeOf id (log ++ [.sent id]) = none := by
  induction log with
  | nil => simp [outcomeOf]
  | cons x log ih =>
      have hx : x ≠ .sent id := fun heq => h (heq ▸ List.mem_cons_self)
      rw [List.cons_append, outcomeOf_cons_of_ne hx]
      exact ih fun hmem => h (List.mem_cons_of_mem _ hmem)

namespace BridgeConnection

/-- The completions of one request. -/
def completionsOf (s : BridgeConnection) (id : Int) : List Outcome :=
  s.completions.filterMap fun c => if c.1 = id then some c.2 else none

/-- The invariant of the runs. -/
structure CorrInv (s : BridgeConnection) : Prop where
  next : 0 < s.nextRequestId
  ids : ∀ id ∈ s.requests, 0 < id ∧ id < s.nextRequestId
  nodup : s.requests.Nodup
  sent : ∀ id, LogEntry.sent id ∈ s.log ↔ id ∈ s.requests
  timers_nodup : s.timers.Nodup
  pending : s.pendingRequests = s.timers
  opened : ∀ id, id ∈ s.timers ↔ id ∈ s.requests ∧ s.completionsOf id = []
  known : ∀ id, s.completionsOf id ≠ [] → id ∈ s.requests
  outcome : ∀ id ∈ s.requests, s.completionsOf id = (outcomeOf id s.log).toList

/-! ### The steps that complete requests -/

/-- `s'` is `s` after the entry `e`: the open requests that `e` is about have completed. -/
structure Resolved (s : BridgeConnection) (e : LogEntry) (s' : BridgeConnection) : Prop where
  log : s'.log = s.log ++ [e]
  requests : s'.requests = s.requests
  next : s'.nextRequestId = s.nextRequestId
  timers : s'.timers = s.timers.filter fun id => (e.resolves id).isNone
  pending : s'.pendingRequests = s'.timers
  completions : ∀ id, s'.completionsOf id =
    s.completionsOf id ++ if id ∈ s.timers then (e.resolves id).toList else []

/-- Such a step keeps the invariant. An open request has no completion yet, so its first one is
that of the entry, and a completed request keeps the one it has. -/
theorem CorrInv.resolved {s s' : BridgeConnection} (hs : s.CorrInv) {e : LogEntry}
    (he : ∀ id, e ≠ .sent id) (h : Resolved s e s') : s'.CorrInv := by
  have hsent : ∀ id, LogEntry.sent id ∈ s'.log ↔ id ∈ s.requests := by
    intro id
    rw [h.log, List.mem_append, List.mem_singleton, ← hs.sent id]
    constructor
    · rintro (hmem | heq)
      · exact hmem
      · exact absurd heq.symm (he id)
    · exact Or.inl
  have hknown : ∀ id, s'.completionsOf id ≠ [] → id ∈ s.requests := by
    intro id hne
    rw [h.completions] at hne
    by_cases hopen : id ∈ s.timers
    · exact ((hs.opened id).mp hopen).1
    · rw [if_neg hopen, List.append_nil] at hne
      exact hs.known id hne
  refine ⟨by rw [h.next]; exact hs.next, by rw [h.requests, h.next]; exact hs.ids,
    by rw [h.requests]; exact hs.nodup, by rw [h.requests]; exact hsent,
    by rw [h.timers]; exact hs.timers_nodup.filter _, h.pending, ?_,
    by rw [h.requests]; exact hknown, ?_⟩
  · intro id
    rw [h.timers, List.mem_filter, h.requests, h.completions]
    constructor
    · rintro ⟨hopen, hnone⟩
      obtain ⟨hreq, hempty⟩ := (hs.opened id).mp hopen
      rw [hempty, if_pos hopen, Option.isNone_iff_eq_none.mp hnone]
      exact ⟨hreq, rfl⟩
    · rintro ⟨hreq, hempty⟩
      obtain ⟨hbefore, hnew⟩ := List.append_eq_nil_iff.mp hempty
      have hopen : id ∈ s.timers := (hs.opened id).mpr ⟨hreq, hbefore⟩
      rw [if_pos hopen] at hnew
      refine ⟨hopen, ?_⟩
      cases hr : e.resolves id with
      | none => rfl
      | some o =>
          rw [hr] at hnew
          cases hnew
  · intro id hreq
    rw [h.requests] at hreq
    rw [h.completions, h.log, outcomeOf_append ((hs.sent id).mpr hreq), hs.outcome id hreq]
    by_cases hopen : id ∈ s.timers
    · have hempty := hs.outcome id hreq
      rw [((hs.opened id).mp hopen).2] at hempty
      rw [if_pos hopen]
      cases ho : outcomeOf id s.log with
      | none => rfl
      | some o =>
          rw [ho] at hempty
          cases hempty
    · rw [if_neg hopen, List.append_nil]
      cases ho : outcomeOf id s.log with
      | none =>
          have hempty := hs.outcome id hreq
          rw [ho] at hempty
          exact absurd ((hs.opened id).mpr ⟨hreq, hempty⟩) hopen
      | some o => rfl

/-- One request completes, by an entry that is about no other. -/
theorem resolved_settle {s : BridgeConnection} (hs : s.CorrInv) {id : Int} {o : Outcome}
    (hopen : id ∈ s.timers) {e : LogEntry}
    (he : ∀ id', e.resolves id' = if id = id' then some o else none) :
    Resolved s e { s with
      pendingRequests := s.pendingRequests.erase id
      timers := s.timers.erase id
      completions := s.completions ++ [(id, o)]
      log := s.log ++ [e] } where
  log := rfl
  requests := rfl
  next := rfl
  timers := by
    show s.timers.erase id = _
    rw [hs.timers_nodup.erase_eq_filter]
    refine List.filter_congr fun id' _ => ?_
    rw [he]
    by_cases hid : id = id'
    · simp [hid]
    · simp [hid, Ne.symm hid]
  pending := by
    show s.pendingRequests.erase id = s.timers.erase id
    rw [hs.pending]
  completions id' := by
    show (s.completions ++ [(id, o)]).filterMap _ = _
    rw [List.filterMap_append]
    refine congrArg _ ?_
    rw [he]
    by_cases hid : id = id'
    · subst hid
      simp [hopen]
    · simp [hid]

/-- An entry that is about none of the open requests. -/
theorem resolved_of_none {s : BridgeConnection} (hs : s.CorrInv) {e : LogEntry}
    (he : ∀ id ∈ s.timers, e.resolves id = none) {s' : BridgeConnection}
    (hlog : s'.log = s.log ++ [e]) (hreq : s'.requests = s.requests)
    (hnext : s'.nextRequestId = s.nextRequestId) (htimers : s'.timers = s.timers)
    (hpend : s'.pendingRequests = s.pendingRequests)
    (hcomp : s'.completions = s.completions) : Resolved s e s' where
  log := hlog
  requests := hreq
  next := hnext
  timers := by
    rw [htimers, List.filter_eq_self.mpr]
    intro id hid
    rw [he id hid]
    rfl
  pending := by rw [hpend, htimers, hs.pending]
  completions id := by
    unfold completionsOf
    rw [hcomp]
    by_cases hid : id ∈ s.timers
    · simp [hid, he id hid]
    · simp [hid]

/-- `failPending` completes its completers one by one. -/
theorem foldl_settle (o : Outcome) :
    ∀ (ids : List Int) (s : BridgeConnection), s.timers = ids →
      ids.foldl (fun s id => s.settle id o) s =
        { s with timers := [], completions := s.completions ++ ids.map fun id => (id, o) } := by
  intro ids
  induction ids with
  | nil =>
      intro s hs
      rw [List.foldl_nil, List.map_nil, List.append_nil, ← hs]
  | cons id ids ih =>
      intro s hs
      have hstep : s.settle id o =
          { s with timers := ids, completions := s.completions ++ [(id, o)] } := by
        unfold settle
        rw [if_pos (by rw [hs]; exact List.mem_cons_self), hs, List.erase_cons_head]
      rw [List.foldl_cons, hstep, ih _ rfl]
      simp

theorem filterMap_same {ids : List Int} (hnodup : ids.Nodup) (o : Outcome) (id : Int) :
    (ids.map fun id => (id, o)).filterMap (fun c => if c.1 = id then some c.2 else none) =
      if id ∈ ids then [o] else [] := by
  induction ids with
  | nil => rfl
  | cons x ids ih =>
      obtain ⟨hx, hrest⟩ := List.nodup_cons.mp hnodup
      by_cases hid : x = id
      · subst hid
        simp [ih hrest, hx]
      · have hid' : ¬ id = x := fun heq => hid heq.symm
        simp [ih hrest, hid, hid']

theorem resolved_failPending {s : BridgeConnection} (hs : s.CorrInv) (reason : String) :
    Resolved s (.failed reason) (s.failPending reason) := by
  have heq : s.failPending reason = { s with
      pendingRequests := [], timers := []
      completions := s.completions ++ s.timers.map fun id => (id, connectionLost reason)
      log := s.log ++ [.failed reason] } := by
    unfold failPending
    rw [hs.pending, foldl_settle (connectionLost reason) s.timers { s with pendingRequests := [] }
      rfl]
  rw [heq]
  refine ⟨rfl, rfl, rfl, ?_, rfl, fun id => ?_⟩
  · simp [LogEntry.resolves]
  · show (s.completions ++ _).filterMap _ = _
    rw [List.filterMap_append, filterMap_same hs.timers_nodup]
    rfl

/-! ### All steps -/

/-- The frames that the invariant asks for. Of the frames that can be decoded, only an error whose
fields have the wrong types is left out. -/
def WellFormed (_ : BridgeConnection) : ConnectionAction → Prop
  | .frame (some (.map entries)) =>
      ∀ msg, WsMessage.fromDecoded entries = some msg → (answerOf msg).isSome
  | _ => True

/-- A frame that answers completes the request with its id, if that is open. -/
theorem resolved_answer {s : BridgeConnection} (hs : s.CorrInv) (msg : WsMessage Decoded)
    {o : Outcome} (ho : answerOf msg = some o) :
    Resolved s (.answered msg.id o)
      { s.handleAnswer msg with log := s.log ++ [.answered msg.id o] } := by
  have hother : msg.id ∉ s.timers →
      ∀ id ∈ s.timers, (LogEntry.answered msg.id o).resolves id = none := by
    intro hclosed id hid
    have hne : msg.id ≠ id := fun heq => hclosed (heq ▸ hid)
    simp [LogEntry.resolves, hne]
  by_cases hopen : msg.id ∈ s.timers
  · have heq : s.handleAnswer msg = { s with
        pendingRequests := s.pendingRequests.erase msg.id
        timers := s.timers.erase msg.id
        completions := s.completions ++ [(msg.id, o)] } := by
      unfold handleAnswer
      rw [if_pos (by rw [hs.pending]; exact hopen), ho]
      simp [settle, hopen]
    rw [heq]
    exact resolved_settle hs hopen fun id' => rfl
  · have hgone : msg.id ∉ s.pendingRequests := by rwa [hs.pending]
    unfold handleAnswer
    rw [if_neg hgone]
    split
    · exact resolved_of_none hs (hother hopen) rfl rfl rfl rfl rfl rfl
    · exact resolved_of_none hs (hother hopen) rfl rfl rfl rfl rfl rfl

/-- A step that touches none of what the invariant reads. -/
theorem CorrInv.same {s s' : BridgeConnection} (hs : s.CorrInv)
    (h1 : s'.nextRequestId = s.nextRequestId) (h2 : s'.requests = s.requests)
    (h3 : s'.log = s.log) (h4 : s'.timers = s.timers)
    (h5 : s'.pendingRequests = s.pendingRequests) (h6 : s'.completions = s.completions) :
    s'.CorrInv := by
  have hcomp : ∀ id, s'.completionsOf id = s.completionsOf id := by
    intro id
    unfold completionsOf
    rw [h6]
  refine ⟨by rw [h1]; exact hs.next, by rw [h1, h2]; exact hs.ids, by rw [h2]; exact hs.nodup,
    by rw [h2, h3]; exact hs.sent, by rw [h4]; exact hs.timers_nodup,
    by rw [h4, h5]; exact hs.pending, fun id => ?_, fun id => ?_, fun id => ?_⟩
  · rw [h2, h4, hcomp]
    exact hs.opened id
  · rw [h2, hcomp]
    exact hs.known id
  · rw [h2, h3, hcomp]
    exact hs.outcome id

/-- A request gets an id that nobody had. -/
theorem CorrInv.request {s s' : BridgeConnection} (hs : s.CorrInv) {type : String}
    {handle : Option String} {data : List (String × Value)}
    (h : s.request type handle data = some s') : s'.CorrInv := by
  unfold BridgeConnection.request at h
  split at h
  · cases h
    have hnew : s.nextRequestId ∉ s.requests := by
      intro hmem
      have := (hs.ids _ hmem).2
      omega
    have hfresh : s.completionsOf s.nextRequestId = [] := by
      by_contra hne
      exact hnew (hs.known _ hne)
    have hmem : ∀ id, id ∈ s.requests ++ [s.nextRequestId] ↔
        id ∈ s.requests ∨ id = s.nextRequestId := by simp
    refine ⟨?_, ?_, ?_, ?_, ?_, ?_, ?_, ?_, ?_⟩
    · show 0 < s.nextRequestId + 1
      have := hs.next
      omega
    · intro id hid
      show 0 < id ∧ id < s.nextRequestId + 1
      rcases (hmem id).mp hid with hold | rfl
      · have := hs.ids id hold
        omega
      · have := hs.next
        omega
    · exact List.nodup_append.mpr ⟨hs.nodup, List.nodup_singleton _, fun a ha b hb heq =>
        hnew (by rw [← List.mem_singleton.mp hb, ← heq]; exact ha)⟩
    · intro id
      show .sent id ∈ s.log ++ [.sent s.nextRequestId] ↔ id ∈ s.requests ++ [s.nextRequestId]
      simp [hs.sent id]
    · refine List.nodup_append.mpr
        ⟨hs.timers_nodup, List.nodup_singleton _, fun a ha b hb heq => ?_⟩
      rw [List.mem_singleton.mp hb] at heq
      exact hnew (heq ▸ ((hs.opened a).mp ha).1)
    · show s.pendingRequests ++ _ = s.timers ++ _
      rw [hs.pending]
    · intro id
      show id ∈ s.timers ++ [s.nextRequestId] ↔
        id ∈ s.requests ++ [s.nextRequestId] ∧ s.completionsOf id = []
      rw [List.mem_append, List.mem_singleton, hmem, hs.opened id]
      constructor
      · rintro (⟨hold, hempty⟩ | rfl)
        · exact ⟨Or.inl hold, hempty⟩
        · exact ⟨Or.inr rfl, hfresh⟩
      · rintro ⟨hold | rfl, hempty⟩
        · exact Or.inl ⟨hold, hempty⟩
        · exact Or.inr rfl
    · intro id hne
      exact (hmem id).mpr (Or.inl (hs.known id hne))
    · intro id hid
      show s.completionsOf id = (outcomeOf id (s.log ++ [.sent s.nextRequestId])).toList
      rcases (hmem id).mp hid with hold | rfl
      · rw [outcomeOf_append ((hs.sent id).mpr hold), hs.outcome id hold]
        simp [LogEntry.resolves]
      · rw [hfresh, outcomeOf_append_sent fun hin => hnew ((hs.sent _).mp hin)]
        rfl
  · cases h

/-- The step lemma. -/
theorem CorrInv.step {s s' : BridgeConnection} {a : ConnectionAction} (hs : s.CorrInv)
    (hC : s.WellFormed a) (h : s.step a = some s') : s'.CorrInv := by
  cases a with
  | connect =>
      cases h
      exact hs.same rfl rfl rfl rfl rfl rfl
  | send type handle data =>
      simp only [BridgeConnection.step, BridgeConnection.send] at h
      split at h
      · cases h
        exact hs.same rfl rfl rfl rfl rfl rfl
      · cases h
  | request type handle data => exact hs.request h
  | frame decoded =>
      cases h
      unfold handleFrame
      split
      · rename_i entries
        split
        · rename_i msg hmsg
          split
          · obtain ⟨o, ho⟩ := Option.isSome_iff_exists.mp (hC msg hmsg)
            rw [ho]
            exact hs.resolved (fun id => by simp) (resolved_answer hs msg ho)
          · exact hs.same rfl rfl rfl rfl rfl rfl
        · exact hs
      · exact hs
  | timeout id =>
      simp only [BridgeConnection.step, BridgeConnection.timeout] at h
      split at h
      · rename_i hopen
        cases h
        exact hs.resolved (fun id => by simp) (resolved_settle hs hopen fun _ => rfl)
      · cases h
  | failPending reason =>
      cases h
      exact hs.resolved (fun id => by simp) (resolved_failPending hs reason)
  | disconnect reason =>
      cases h
      unfold handleDisconnect
      split
      · exact hs
      · have hdown : CorrInv { s with disconnectHandled := true, connected := false } :=
          hs.same rfl rfl rfl rfl rfl rfl
        exact hdown.resolved (fun id => by simp) (resolved_failPending hdown reason)
  | close =>
      cases h
      have hdown : CorrInv { s with disconnectHandled := true, connected := false } :=
        hs.same rfl rfl rfl rfl rfl rfl
      exact hdown.resolved (fun id => by simp) (resolved_failPending hdown _)

/-- The run lemma. -/
theorem corrInv_of_reachable {s : BridgeConnection}
    (hs : connectionSystem.ReachableUnder WellFormed s) : s.CorrInv := by
  refine StepSystem.StepsUnder.invariant hs ?_ fun _ _ _ _ hinv hC hstep => hinv.step hC hstep
  constructor <;> simp [connectionSystem, BridgeConnection.new, completionsOf]

/-- A frame completes no request but the one with its id, whatever else is in it. -/
theorem completionsOf_handleFrame {s : BridgeConnection} {entries : List (String × Decoded)}
    {msg : WsMessage Decoded} (hmsg : WsMessage.fromDecoded entries = some msg) {id : Int}
    (hid : id ≠ msg.id) :
    (s.handleFrame (some (.map entries))).completionsOf id = s.completionsOf id := by
  have hne : ¬ msg.id = id := fun heq => hid heq.symm
  unfold handleFrame
  simp only [hmsg]
  split
  · unfold handleAnswer
    split
    · cases answerOf msg with
      | none => rfl
      | some o =>
          simp only [settle]
          split
          · simp [completionsOf, hne]
          · rfl
    · split <;> rfl
  · rfl

end BridgeConnection

open BridgeConnection

/-- In every run of a connection: the ids of the requests are distinct and not 0; a request has
completed once, with what comes first about it in the log, or not at all if nothing has come yet;
the map of completers holds exactly the requests that have not completed; only requests complete;
and a frame completes no request with another id. -/
theorem request_correlation (s : BridgeConnection)
    (hs : connectionSystem.ReachableUnder WellFormed s) :
    s.requests.Nodup ∧ 0 ∉ s.requests ∧
    (∀ id ∈ s.requests, s.completionsOf id = (outcomeOf id s.log).toList) ∧
    (∀ id, id ∈ s.pendingRequests ↔ id ∈ s.requests ∧ s.completionsOf id = []) ∧
    (∀ id, s.completionsOf id ≠ [] → id ∈ s.requests) ∧
    ∀ entries msg s', WsMessage.fromDecoded entries = some msg →
      s.step (.frame (some (.map entries))) = some s' →
      ∀ id, id ≠ msg.id → s'.completionsOf id = s.completionsOf id := by
  have hinv := corrInv_of_reachable hs
  refine ⟨hinv.nodup, ?_, hinv.outcome, ?_, hinv.known, ?_⟩
  · intro hzero
    have := (hinv.ids 0 hzero).1
    omega
  · intro id
    rw [hinv.pending]
    exact hinv.opened id
  · intro entries msg s' hmsg hstep id hid
    cases hstep
    exact completionsOf_handleFrame hmsg hid

/-- The second of two requests is acked twice. The first one times out, and its error comes
late. -/
theorem request_correlation_late :
    ∃ s, connectionSystem.ReachableUnder WellFormed s ∧ s.requests = [1, 2] ∧
      s.completionsOf 1 = [operationTimeout] ∧
      s.completionsOf 2 = [.data [("handle", .str "pc")]] ∧ s.pendingRequests = [] := by
  let ack (data : String) : ConnectionAction := .frame (some (.map [("type", .str "pc:create:ack"),
    ("id", .int 2), ("data", .map [("handle", .str data)])]))
  let error : ConnectionAction := .frame (some (.map [("type", .str "error"), ("id", .int 1),
    ("data", .map [("code", .str "INTERNAL_ERROR"), ("message", .str "late")])]))
  let acts : List ConnectionAction := [.connect, .request "init" none [],
    .request "pc:create" none [], ack "pc", ack "other", .timeout 1, error]
  let final := connectionSystem.run connectionSystem.init acts
  have hrun : final.isSome := by rfl
  obtain ⟨s, hs⟩ := Option.isSome_iff_exists.mp hrun
  have hacts : ∀ a ∈ acts, ∀ s, WellFormed s a := by
    simp only [acts, List.forall_mem_cons]
    refine ⟨fun _ => trivial, fun _ => trivial, fun _ => trivial, fun _ msg hmsg => ?_,
      fun _ msg hmsg => ?_, fun _ => trivial, fun _ msg hmsg => ?_, by simp⟩ <;>
    · cases hmsg
      rfl
  have hreach := StepSystem.steps_of_run hacts hs
  have hfacts : final.map (fun s => (s.requests, s.pendingRequests, outcomeOf 1 s.log,
      outcomeOf 2 s.log))
      = some ([1, 2], [], some operationTimeout, some (.data [("handle", .str "pc")])) := by rfl
  simp only [hs, Option.map_some, Option.some.injEq, Prod.mk.injEq] at hfacts
  obtain ⟨hreq, hpend, hfirst, hsecond⟩ := hfacts
  obtain ⟨-, -, houtcome, -⟩ := request_correlation s hreach
  refine ⟨s, hreach, hreq, ?_, ?_, hpend⟩
  · rw [houtcome 1 (by simp [hreq]), hfirst]
    rfl
  · rw [houtcome 2 (by simp [hreq]), hsecond]
    rfl

end PionBridge.Dart
