import PionBridge.Server.Inbound

/-!
# `PionBridge.Proofs.Detached`: the read loop of a detached channel

A turn of the loop takes one message, grows the buffer, or returns. The messages that were sent and
those that are still to come are the messages of the channel up to the first one over the limit
(`ReadInv.flow`), so nothing is lost and the close comes last.

The buffer never shrinks and never passes the limit. With each short read it doubles or reaches the
limit, so there are at most `log2` of the limit and one more between two messages, and the loop
returns.
-/

set_option autoImplicit false

namespace PionBridge.Server

open PionBridge.Lib

/-! ### The events -/

/-- The messages that the loop is going to send. -/
def admitted (limit : Nat) (incoming : List Incoming) : List Incoming :=
  incoming.takeWhile fun m => m.bytes.length ≤ limit

/-- The bytes and the kind of a message, read from its event. A nil slice has no bytes. -/
def WireEvent.message? (event : WireEvent) : Option Incoming :=
  match event.data.lookup "is_binary", event.data.lookup "data" with
  | some (.bool true), some .nil => some ⟨[], false⟩
  | some (.bool true), some (.bin bytes) => some ⟨bytes, false⟩
  | some (.bool false), some (.str bytes) => some ⟨bytes, true⟩
  | _, _ => none

/-- The event of a message has its exact bytes and its kind. -/
theorem message?_readEvent (dcHandle : String) (m : Incoming) :
    (readEvent dcHandle m).message? = some m := by
  obtain ⟨bytes, isString⟩ := m
  cases isString with
  | true => rfl
  | false =>
      cases bytes with
      | nil => rfl
      | cons b rest => rfl

/-! ### The loop as one function -/

/-- The buffer grows until the message fits. -/
theorem readMessage_eq {limit : Nat} (dcHandle : String) (buf : ReadBuffer limit) (m : Incoming)
    (h : m.bytes.length ≤ limit) :
    ∃ buf', readMessage dcHandle buf m = some (buf', readEvent dcHandle m) := by
  fun_induction readMessage dcHandle buf m with
  | case1 buf hfits => exact ⟨buf, rfl⟩
  | case2 buf hshort hlt hgrow ih => exact ih
  | case3 buf hshort hfull => omega

/-- A message over the limit ends the loop. -/
theorem readMessage_eq_none {limit : Nat} (dcHandle : String) (buf : ReadBuffer limit)
    (m : Incoming) (h : limit < m.bytes.length) : readMessage dcHandle buf m = none := by
  fun_induction readMessage dcHandle buf m with
  | case1 buf hfits =>
      have := buf.le
      omega
  | case2 buf hshort hlt hgrow ih => exact ih
  | case3 buf hshort hfull => rfl

/-- Whatever the buffer is, the loop sends the messages up to the first one over the limit. -/
theorem readLoop_eq {limit : Nat} (dcHandle : String) (buf : ReadBuffer limit)
    (incoming : List Incoming) : readLoop dcHandle buf incoming =
      (admitted limit incoming).map (readEvent dcHandle) ++ [closeEvent dcHandle] := by
  induction incoming generalizing buf with
  | nil => rfl
  | cons m rest ih =>
      by_cases hfits : m.bytes.length ≤ limit
      · obtain ⟨buf', hread⟩ := readMessage_eq dcHandle buf m hfits
        simp only [readLoop, hread, ih buf', admitted, List.takeWhile_cons, decide_eq_true hfits,
          if_true, List.map_cons, List.cons_append]
      · have hread := readMessage_eq_none dcHandle buf m (Nat.lt_of_not_le hfits)
        simp only [readLoop, hread, admitted, List.takeWhile_cons, decide_eq_false hfits,
          Bool.false_eq_true, if_false, List.map_nil, List.nil_append]

theorem readDetached_eq (dcHandle : String) (maxMessageSize : Int) (incoming : List Incoming) :
    readDetached dcHandle maxMessageSize incoming =
      (admitted (readLimit maxMessageSize) incoming).map (readEvent dcHandle) ++
        [closeEvent dcHandle] :=
  readLoop_eq dcHandle _ incoming

/-! ### The loop turn by turn -/

namespace ReadState

variable {dcHandle : String} {limit : Nat} {incoming : List Incoming} {s s' : ReadState}

/-- What one turn can do. -/
inductive Turned (dcHandle : String) (limit : Nat) (s : ReadState) : ReadState → Prop
  | ended (hqueue : s.queue = []) : Turned dcHandle limit s (s.finish dcHandle)
  | message (m : Incoming) (rest : List Incoming) (hqueue : s.queue = m :: rest)
      (hfits : m.bytes.length ≤ s.buf) :
      Turned dcHandle limit s
        { s with queue := rest, sent := s.sent ++ [readEvent dcHandle m], short := 0 }
  | short (hlt : s.buf < limit) :
      Turned dcHandle limit s { s with buf := min limit (2 * s.buf), short := s.short + 1 }
  | tooLong (m : Incoming) (rest : List Incoming) (hqueue : s.queue = m :: rest)
      (hlong : s.buf < m.bytes.length) (hfull : limit ≤ s.buf) :
      Turned dcHandle limit s (s.finish dcHandle)

theorem turned (h : s.turn dcHandle limit = some s') :
    s.returned = false ∧ Turned dcHandle limit s s' := by
  unfold turn at h
  split at h
  · cases h
  · rename_i hrun
    refine ⟨by simpa using hrun, ?_⟩
    split at h
    · rename_i hqueue
      cases h
      exact .ended hqueue
    · rename_i m rest hqueue
      split at h
      · rename_i hfits
        cases h
        exact .message m rest hqueue hfits
      · rename_i hlong
        split at h
        · rename_i hlt
          cases h
          exact .short hlt
        · rename_i hfull
          cases h
          exact .tooLong m rest hqueue (Nat.lt_of_not_le hlong) (Nat.le_of_not_lt hfull)

/-- What holds between two reads. The events sent so far and those of the messages in the queue are
the events of the channel, and the buffer has doubled with each short read unless it is full. -/
structure ReadInv (dcHandle : String) (limit : Nat) (incoming : List Incoming) (s : ReadState) :
    Prop where
  pos : 1 ≤ s.buf
  le : s.buf ≤ limit
  doubled : 2 ^ s.short ≤ s.buf ∨ s.buf = limit ∧ 2 ^ s.short < 2 * limit
  flow : s.returned = false →
    s.sent ++ (admitted limit s.queue).map (readEvent dcHandle) =
      (admitted limit incoming).map (readEvent dcHandle)
  ended : s.returned = true →
    s.sent = (admitted limit incoming).map (readEvent dcHandle) ++ [closeEvent dcHandle]

/-- The loop returns where no message in the queue is going to be sent. -/
theorem ReadInv.finish (hs : ReadInv dcHandle limit incoming s) (hrun : s.returned = false)
    (hqueue : admitted limit s.queue = []) :
    ReadInv dcHandle limit incoming (s.finish dcHandle) := by
  refine ⟨hs.pos, hs.le, hs.doubled, fun hopen => ?_, fun _ => ?_⟩
  · cases hopen
  · have hflow := hs.flow hrun
    rw [hqueue, List.map_nil, List.append_nil] at hflow
    show s.sent ++ [closeEvent dcHandle] = _
    rw [hflow]

/-- The step lemma. -/
theorem ReadInv.turn (hs : ReadInv dcHandle limit incoming s)
    (h : s.turn dcHandle limit = some s') : ReadInv dcHandle limit incoming s' := by
  have hpos := hs.pos
  have hle := hs.le
  obtain ⟨hrun, hturned⟩ := turned h
  have hflow := hs.flow hrun
  cases hturned with
  | ended hqueue => exact hs.finish hrun (by rw [hqueue]; rfl)
  | message m rest hqueue hfits =>
      have hhead : admitted limit s.queue = m :: admitted limit rest := by
        rw [hqueue]
        exact List.takeWhile_cons_of_pos (by simp; omega)
      refine ⟨hpos, hle, .inl hpos, fun _ => ?_, fun hret => ?_⟩
      · rw [hhead, List.map_cons] at hflow
        simpa using hflow
      · cases hrun.symm.trans hret
  | short hlt =>
      refine ⟨?_, Nat.min_le_left .., ?_, fun _ => hflow, fun hret => ?_⟩
      · show 1 ≤ min limit (2 * s.buf)
        omega
      · -- The buffer was not full, so the short reads before have doubled it.
        have hdoubled : 2 ^ s.short ≤ s.buf := by
          have := hs.doubled
          omega
        show 2 ^ (s.short + 1) ≤ min limit (2 * s.buf) ∨
          min limit (2 * s.buf) = limit ∧ 2 ^ (s.short + 1) < 2 * limit
        rw [Nat.pow_succ]
        omega
      · cases hrun.symm.trans hret
  | tooLong m rest hqueue hlong hfull =>
      refine hs.finish hrun ?_
      rw [hqueue]
      exact List.takeWhile_cons_of_neg (by simp; omega)

/-- The turns that are left: each one takes a message, grows the buffer, or returns. -/
def turnsLeft (limit : Nat) (s : ReadState) : Nat :=
  if s.returned then 0 else s.queue.length + (limit - s.buf) + 1

theorem turnsLeft_lt (hs : ReadInv dcHandle limit incoming s)
    (h : s.turn dcHandle limit = some s') : s'.turnsLeft limit < s.turnsLeft limit := by
  have hpos := hs.pos
  obtain ⟨hrun, hturned⟩ := turned h
  have hleft : s.turnsLeft limit = s.queue.length + (limit - s.buf) + 1 := by
    simp [turnsLeft, hrun]
  rw [hleft]
  cases hturned with
  | ended | tooLong =>
      show 0 < _
      omega
  | message m rest hqueue hfits =>
      simp only [turnsLeft, hrun, hqueue, Bool.false_eq_true, if_false, List.length_cons]
      omega
  | short hlt =>
      simp only [turnsLeft, hrun, Bool.false_eq_true, if_false]
      omega

variable (dcHandle limit) in
/-- A loop that has not returned has another turn. -/
theorem exists_turn (hrun : s.returned = false) : ∃ t, s.turn dcHandle limit = some t := by
  unfold turn
  rw [hrun, if_neg Bool.false_ne_true]
  split
  · exact ⟨_, rfl⟩
  · split
    · exact ⟨_, rfl⟩
    · split
      · exact ⟨_, rfl⟩
      · exact ⟨_, rfl⟩

end ReadState

open ReadState

section
variable {dcHandle : String} {maxMessageSize : Int} {incoming : List Incoming} {s : ReadState}

/-- The run lemma. -/
theorem readInv_of_reachable (hs : (readSystem dcHandle maxMessageSize incoming).Reachable s) :
    s.ReadInv dcHandle (readLimit maxMessageSize) incoming := by
  refine hs.invariant ?_ fun _ _ _ _ hinv hstep => hinv.turn hstep
  have hlimit := readLimit_pos maxMessageSize
  refine ⟨?_, Nat.min_le_left .., .inl ?_, fun _ => rfl, fun hret => ?_⟩
  · show 1 ≤ min (readLimit maxMessageSize) 65536
    omega
  · show 1 ≤ min (readLimit maxMessageSize) 65536
    omega
  · cases hret

/-- The loop returns after the turns that are left, or earlier. -/
theorem exists_returned (hs : s.ReadInv dcHandle (readLimit maxMessageSize) incoming) :
    ∃ n ≤ s.turnsLeft (readLimit maxMessageSize), ∃ t,
      (readSystem dcHandle maxMessageSize incoming).run s (List.replicate n ()) = some t ∧
        t.returned = true := by
  -- The induction is on the turns that are left.
  generalize hleft : s.turnsLeft (readLimit maxMessageSize) = k
  induction k using Nat.strongRecOn generalizing s with
  | ind k ih =>
      cases hrun : s.returned with
      | true => exact ⟨0, Nat.zero_le k, s, rfl, hrun⟩
      | false =>
          obtain ⟨t, ht⟩ := exists_turn dcHandle (readLimit maxMessageSize) hrun
          have hlt := turnsLeft_lt hs ht
          obtain ⟨n, hn, u, hu, hret⟩ := ih _ (hleft ▸ hlt) (hs.turn ht) rfl
          refine ⟨n + 1, by omega, u, ?_, hret⟩
          have hstep : (readSystem dcHandle maxMessageSize incoming).step s () = some t := ht
          rw [List.replicate_succ, StepSystem.run, hstep, Option.bind_some]
          exact hu

end

/-- The detached read loop sends one event for each message before the first one over the limit,
with its exact bytes and kind, and then the close. It returns, its buffer stays between 1 and the
limit, and the short reads between two messages are bounded. -/
theorem readDetached_loses_nothing (dcHandle : String) (maxMessageSize : Int)
    (incoming : List Incoming) :
    (∀ s, (readSystem dcHandle maxMessageSize incoming).Reachable s →
      1 ≤ s.buf ∧ s.buf ≤ readLimit maxMessageSize ∧
      2 ^ s.short < 2 * readLimit maxMessageSize ∧
      (s.returned = true → s.sent = readDetached dcHandle maxMessageSize incoming)) ∧
    (∃ n ≤ incoming.length + readLimit maxMessageSize, ∃ s,
      (readSystem dcHandle maxMessageSize incoming).run
        (readSystem dcHandle maxMessageSize incoming).init (List.replicate n ()) = some s ∧
      s.returned = true) ∧
    readDetached dcHandle maxMessageSize incoming =
      (incoming.takeWhile fun m => m.bytes.length ≤ readLimit maxMessageSize).map
        (readEvent dcHandle) ++ [closeEvent dcHandle] ∧
    ∀ m, (readEvent dcHandle m).type = "event:dataChannelMessage" ∧
      (readEvent dcHandle m).handle = dcHandle ∧ (readEvent dcHandle m).message? = some m := by
  refine ⟨fun s hs => ?_, ?_, readDetached_eq .., fun m => ⟨rfl, rfl, message?_readEvent ..⟩⟩
  · have hinv := readInv_of_reachable hs
    have hle := hinv.le
    refine ⟨hinv.pos, hle, ?_, fun hret => ?_⟩
    · have := hinv.pos
      have := hinv.doubled
      omega
    · rw [hinv.ended hret, readDetached_eq]
  · have hinit : (readSystem dcHandle maxMessageSize incoming).Reachable
        (readSystem dcHandle maxMessageSize incoming).init := .refl
    obtain ⟨n, hn, s, hrun, hret⟩ := exists_returned (readInv_of_reachable hinit)
    refine ⟨n, ?_, s, hrun, hret⟩
    have hleft : (readSystem dcHandle maxMessageSize incoming).init.turnsLeft
        (readLimit maxMessageSize) = incoming.length +
          (readLimit maxMessageSize - min (readLimit maxMessageSize) 65536) + 1 := rfl
    have hlimit := readLimit_pos maxMessageSize
    omega

end PionBridge.Server
