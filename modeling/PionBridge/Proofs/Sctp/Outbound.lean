import PionBridge.Proofs.Sctp.Sending

/-!
# `PionBridge.Proofs.Sctp.Outbound`: every step of the sender

A SACK, a timer or a retransmission leaves the messages alone: it takes chunks out of the queue in
flight or marks them, and never touches the data of one that is not acknowledged (`Sender.Keeps`,
`handleSack_keeps`). With the writes (`Sending.write`) and what is gathered (`Sending.gather`) that
is all the sender does.
-/

set_option autoImplicit false

namespace PionBridge.Sctp

open PionBridge.Lib ReceiveWindow

/-! ### Chunks in flight -/

/-- A chunk in flight later: it has its data until it is acknowledged. -/
def InflightChunk.Evolves (c c' : InflightChunk) : Prop :=
  (c'.acked = false → c.acked = false ∧ c'.chunk = c.chunk) ∧
    ((c.acked = true → c.retransmit = false) → c'.acked = true → c'.retransmit = false)

/-- What the invariants read of a chunk in flight. -/
def InflightChunk.key (c : InflightChunk) : PayloadData × Bool := (c.chunk, c.acked)

/-- Other marks and counters for a chunk in flight. An acknowledged chunk is not marked for a
retransmission. -/
structure InflightChunk.Remarked (c c' : InflightChunk) : Prop where
  key : c'.key = c.key
  unmarked : (c.acked = true → c.retransmit = false) → c.acked = true → c'.retransmit = false

/-- The chunks of a queue later: some are gone. -/
def Thinned (cs cs' : List InflightChunk) : Prop := ∀ c' ∈ cs', ∃ c ∈ cs, c.Evolves c'

section Thinned

variable {cs cs' cs'' : List InflightChunk} {c c' c'' : InflightChunk}

/-- A chunk that no step has touched is a later form of itself. -/
theorem InflightChunk.Evolves.refl (c : InflightChunk) : c.Evolves c :=
  ⟨fun h => ⟨h, rfl⟩, fun h => h⟩

/-- Steps compose. The second clause is an implication between the marks, so it passes through a
chunk that was acknowledged on the way. -/
theorem InflightChunk.Evolves.trans (h : c.Evolves c') (h' : c'.Evolves c'') : c.Evolves c'' := by
  constructor
  · -- not acknowledged at the end, so not acknowledged in between
    intro hc
    obtain ⟨hacked, hchunk⟩ := h'.1 hc
    obtain ⟨hacked', hchunk'⟩ := h.1 hacked
    exact ⟨hacked', hchunk.trans hchunk'⟩
  · exact fun hc => h'.2 (h.2 hc)

/-- A chunk whose marks stay as they are. -/
theorem InflightChunk.Remarked.refl (c : InflightChunk) : c.Remarked c := ⟨rfl, fun h => h⟩

/-- Marks that are set one after the other. -/
theorem InflightChunk.Remarked.trans (h : c.Remarked c') (h' : c'.Remarked c'') :
    c.Remarked c'' := by
  refine ⟨h'.key.trans h.key, ?_⟩
  intro hmark hacked
  have hacked' : c'.acked = true := (congrArg Prod.snd h.key).trans hacked
  exact h'.unmarked (fun _ => h.unmarked hmark hacked) hacked'

/-- Marks are one of the things that happen to a chunk on its way. -/
theorem InflightChunk.Remarked.evolves (h : c.Remarked c') : c.Evolves c' := by
  have hacked : c'.acked = c.acked := congrArg Prod.snd h.key
  refine ⟨fun hc => ⟨hacked ▸ hc, congrArg Prod.fst h.key⟩, ?_⟩
  exact fun hmark hc => h.unmarked hmark (hacked ▸ hc)

/-- A step that leaves the queue as it is loses no chunk. -/
theorem Thinned.refl (cs : List InflightChunk) : Thinned cs cs :=
  fun c hc => ⟨c, hc, .refl c⟩

/-- A chunk that is still there after two steps was there before the first one: the chunk between is
the one `h'` names. -/
theorem Thinned.trans (h : Thinned cs cs') (h' : Thinned cs' cs'') : Thinned cs cs'' := by
  intro c'' hc''
  obtain ⟨c', hc', he'⟩ := h' c'' hc''
  obtain ⟨c, hc, he⟩ := h c' hc'
  exact ⟨c, hc, he.trans he'⟩

/-- When every chunk keeps its place, none is gone. -/
theorem thinned_of_forall₂ (h : List.Forall₂ InflightChunk.Evolves cs cs') : Thinned cs cs' := by
  induction h with
  | nil => exact .refl []
  | cons he _ ih =>
      intro c' hc'
      rcases List.mem_cons.mp hc' with rfl | hmem
      · exact ⟨_, List.mem_cons_self, he⟩
      · obtain ⟨c, hc, he'⟩ := ih c' hmem
        exact ⟨c, List.mem_cons_of_mem _ hc, he'⟩

/-- Changing the chunk with one TSN keeps the others, so only that chunk has to be looked at. It is
the one `q.get t` finds, which is what a caller knows about it. -/
theorem forall₂_modify {R : InflightChunk → InflightChunk → Prop} (hR : ∀ c, R c c)
    {f : InflightChunk → InflightChunk} {q : PayloadQueue} {t : TSN}
    (hf : ∀ c, q.get t = some c → R c (f c)) : List.Forall₂ R q.chunks (q.modify t f).chunks := by
  have hsame : List.Forall₂ R q.chunks q.chunks := List.forall₂_same.mpr fun c _ => hR c
  unfold PayloadQueue.modify
  split
  · exact hsame
  · rename_i i hindex
    refine List.forall₂_iff_get.mpr ⟨(List.length_modify ..).symm, ?_⟩
    intro j hj hj'
    rw [List.get_eq_getElem, List.get_eq_getElem, List.getElem_modify]
    split
    · -- the place that is changed holds the chunk with the TSN `t`
      rename_i hij
      subst hij
      apply hf
      unfold PayloadQueue.get
      rw [hindex, Option.bind_some, List.getElem?_eq_getElem hj]
    · exact hR _

/-- An acknowledged chunk loses its data. `Evolves` asks for the data only of a chunk that is not
acknowledged, and the mark for a retransmission is cleared in the same step. -/
theorem thinned_markAsAcked (q : PayloadQueue) (t : TSN) :
    Thinned q.chunks (q.markAsAcked t).1.chunks := by
  unfold PayloadQueue.markAsAcked
  split
  · exact .refl _
  · apply thinned_of_forall₂
    apply forall₂_modify .refl
    intro c _
    refine ⟨fun h => ?_, fun _ _ => rfl⟩
    -- the chunk is marked now, so `acked = false` is impossible
    cases h

/-- `pop` takes the first chunk of the queue, if it has the TSN that is asked for, and leaves the
rest. -/
theorem thinned_pop {q q' : PayloadQueue} {t : TSN} (h : q.pop t = some (c, q')) :
    Thinned q.chunks q'.chunks := by
  unfold PayloadQueue.pop at h
  split at h
  · rename_i x rest hq
    split at h
    · cases h
      intro c' hc'
      exact ⟨c', hq ▸ List.mem_cons_of_mem _ hc', .refl c'⟩
    · cases h
  · cases h

/-- A chunk in flight stays a piece of a message that was begun: its data is the same while it can
still be sent. -/
theorem Flies.evolves {o : Outbox} {n : Nat} (h : Flies o n c) (he : c.Evolves c') :
    Flies o n c' := by
  constructor
  · intro hc
    obtain ⟨hacked, hchunk⟩ := he.1 hc
    exact hchunk ▸ h.1 hacked
  · exact he.2 h.2

/-- Sending again changes the marks only. By induction on the queue; whether a chunk is due decides
if the budget shrinks, so `count` varies. -/
theorem remarked_resend (due : InflightChunk → Bool) {sent : InflightChunk → InflightChunk}
    (hsent : ∀ c : InflightChunk, c.Remarked (sent c)) (count : Nat) (cs : List InflightChunk) :
    List.Forall₂ InflightChunk.Remarked cs (Sender.resend due sent count cs).1 := by
  induction cs generalizing count with
  | nil => cases count <;> exact .nil
  | cons c cs ih =>
      cases count with
      | zero => exact List.forall₂_same.mpr fun c _ => .refl c
      | succ count =>
          unfold Sender.resend
          split
          · exact .cons (hsent c) (ih count)
          · exact .cons (.refl c) (ih (count + 1))

/-- What is sent again are chunks of the queue that are due. -/
theorem mem_resend {due : InflightChunk → Bool} {sent : InflightChunk → InflightChunk} {count : Nat}
    {cs : List InflightChunk} {p : PayloadData} (h : p ∈ (Sender.resend due sent count cs).2) :
    ∃ c ∈ cs, due c = true ∧ p = c.chunk := by
  induction cs generalizing count with
  | nil => cases count <;> cases h
  | cons c cs ih =>
      have hrest {count : Nat} (h : p ∈ (Sender.resend due sent count cs).2) :
          ∃ c' ∈ c :: cs, due c' = true ∧ p = c'.chunk := by
        obtain ⟨x, hx, hd⟩ := ih h
        exact ⟨x, List.mem_cons_of_mem _ hx, hd⟩
      cases count with
      | zero => cases h
      | succ count =>
          unfold Sender.resend at h
          split at h
          · rename_i hdue
            rcases List.mem_cons.mp h with rfl | hmem
            · exact ⟨c, List.mem_cons_self, hdue, rfl⟩
            · exact hrest hmem
          · exact hrest h

end Thinned

/-! ### Steps that leave the messages alone -/

/-- The messages and their numbers are the same, and the chunks in flight are later ones. -/
structure Sender.Keeps (s s' : Sender) : Prop where
  pending : s'.pendingQueue = s.pendingQueue
  next : s'.myNextTSN = s.myNextTSN
  payload : s'.maxPayloadSize = s.maxPayloadSize
  streams : s'.streams.map (fun st => (st.streamIdentifier, st.sequenceNumber)) =
    s.streams.map fun st => (st.streamIdentifier, st.sequenceNumber)
  flight : Thinned s.inflightQueue.chunks s'.inflightQueue.chunks

namespace Sender

variable {s s' s'' : Sender}

/-- A step that returns the sender as it got it: most of the early returns below. -/
theorem Keeps.refl (s : Sender) : s.Keeps s := ⟨rfl, rfl, rfl, rfl, .refl _⟩

/-- One field after the other, the queue in flight by `Thinned.trans`. -/
theorem Keeps.trans (h : s.Keeps s') (h' : s'.Keeps s'') : s.Keeps s'' :=
  { pending := h'.pending.trans h.pending
    next := h'.next.trans h.next
    payload := h'.payload.trans h.payload
    streams := h'.streams.trans h.streams
    flight := h.flight.trans h'.flight }

/-! Steps that only change marks and windows. -/

/-- Nothing is acknowledged, written or sent for the first time. -/
structure Quiet (s s' : Sender) : Prop where
  point : s'.cumulativeTSNAckPoint = s.cumulativeTSNAckPoint
  pending : s'.pendingQueue = s.pendingQueue
  next : s'.myNextTSN = s.myNextTSN
  payload : s'.maxPayloadSize = s.maxPayloadSize
  streams : s'.streams = s.streams
  nBytes : s'.inflightQueue.nBytes = s.inflightQueue.nBytes
  chunks : List.Forall₂ InflightChunk.Remarked s.inflightQueue.chunks s'.inflightQueue.chunks

/-- A step that returns the sender as it got it. With another state or window instead, the fields
are the same. -/
theorem Quiet.refl (s : Sender) : s.Quiet s :=
  ⟨rfl, rfl, rfl, rfl, rfl, rfl, List.forall₂_same.mpr fun c _ => .refl c⟩

/-- One field after the other, and the marks of each chunk in turn. -/
theorem Quiet.trans (h : s.Quiet s') (h' : s'.Quiet s'') : s.Quiet s'' where
  point := h'.point.trans h.point
  pending := h'.pending.trans h.pending
  next := h'.next.trans h.next
  payload := h'.payload.trans h.payload
  streams := h'.streams.trans h.streams
  nBytes := h'.nBytes.trans h.nBytes
  chunks := by
    have hlen := h.chunks.length_eq
    refine List.forall₂_iff_get.mpr ⟨hlen.trans h'.chunks.length_eq, ?_⟩
    intro k hk hk''
    exact (h.chunks.get hk (hlen ▸ hk)).trans (h'.chunks.get (hlen ▸ hk) hk'')

/-- Such a step leaves the messages alone. -/
theorem Quiet.keeps (h : s.Quiet s') : s.Keeps s' where
  pending := h.pending
  next := h.next
  payload := h.payload
  streams := by rw [h.streams]
  flight := thinned_of_forall₂ (h.chunks.imp fun _ _ hc => hc.evolves)

/-- And it leaves what the invariants read of the chunks in flight. -/
theorem Quiet.keys (h : s.Quiet s') : s'.inflightQueue.chunks.map InflightChunk.key =
    s.inflightQueue.chunks.map InflightChunk.key := by
  have hkeys := List.forall₂_map_left_iff.mpr (List.forall₂_map_right_iff.mpr
    (h.chunks.imp fun c c' hc => (hc.key : c'.key = c.key).symm))
  rw [List.forall₂_eq_eq_eq] at hkeys
  exact hkeys.symm

/-- Marking the chunk with one TSN, as RACK, the tail loss probe and the missing reports do. The
bytes in flight are the same, because only `markAsAcked` and `pop` subtract from them. -/
theorem quiet_modify {t : TSN} {f : InflightChunk → InflightChunk}
    (hf : ∀ c, s.inflightQueue.get t = some c → c.Remarked (f c)) :
    s.Quiet { s with inflightQueue := s.inflightQueue.modify t f } := by
  have hbytes : (s.inflightQueue.modify t f).nBytes = s.inflightQueue.nBytes := by
    unfold PayloadQueue.modify
    split <;> rfl
  exact { Quiet.refl s with nBytes := hbytes, chunks := forall₂_modify .refl hf }

/-- When T3 expires every chunk that is not acknowledged is marked, and the window shrinks to one
MTU. -/
theorem onT3Timeout_quiet (s : Sender) : s.Quiet s.onT3Timeout := by
  have hmark : List.Forall₂ InflightChunk.Remarked s.inflightQueue.chunks
      s.inflightQueue.markAllToRetrasmit.chunks := by
    apply List.forall₂_map_right_iff.mpr
    refine List.forall₂_same.mpr fun c _ => ?_
    split
    · exact .refl c
    · rename_i hc
      exact ⟨rfl, fun _ h => absurd h hc⟩
  unfold onT3Timeout
  dsimp only
  split
  · exact { Quiet.refl s with chunks := hmark }
  · exact { Quiet.refl s with chunks := hmark }

/-- RACK or the tail loss probe marks a chunk as lost. An acknowledged chunk is never marked, which
is why `Evolves` may ask that an acknowledged chunk is not sent again. -/
theorem markLost_quiet (s : Sender) (t : TSN) : s.Quiet (s.markLost t) := by
  unfold markLost
  split
  · exact .refl s
  · rename_i c hget
    split
    · exact .refl s
    · rename_i hacked
      apply quiet_modify
      intro c' hget'
      rw [hget] at hget'
      cases hget'
      exact ⟨rfl, fun _ h => absurd h hacked⟩

/-- `Shutdown` changes the state of the association and nothing else. -/
theorem shutdown_quiet (s : Sender) : s.Quiet s.shutdown := by
  unfold shutdown
  split <;> exact { Quiet.refl s with }

/-- A SHUTDOWN of the peer acknowledges nothing: `handleShutdown` does not read the cumulative TSN
of the chunk. What is in flight is still retransmitted until it is acknowledged. -/
theorem handleShutdown_quiet (s : Sender) : s.Quiet s.handleShutdown := by
  unfold handleShutdown
  split <;> exact { Quiet.refl s with }

/-- What is retransmitted keeps its place in the queue, and its mark is cleared. The bytes were
counted when the chunk was sent first. -/
theorem getDataPacketsToRetransmit_quiet (s : Sender) (count : Nat) :
    s.Quiet (s.getDataPacketsToRetransmit count).1 := by
  refine { Quiet.refl s with chunks := remarked_resend _ ?_ count s.inflightQueue.chunks }
  exact fun c => ⟨rfl, fun _ _ => rfl⟩

/-- A fast retransmission sends a chunk that was reported missing three times, once. It counts the
sending and leaves the other marks. -/
theorem gatherOutboundFastRetransmissionPackets_quiet (s : Sender) (count : Nat) :
    s.Quiet (s.gatherOutboundFastRetransmissionPackets count).1 := by
  unfold gatherOutboundFastRetransmissionPackets
  split
  · exact .refl s
  · refine { Quiet.refl s with chunks := remarked_resend _ ?_ count s.inflightQueue.chunks }
    exact fun c => ⟨rfl, fun h => h⟩

/-- What a fast retransmission sends is in flight and not acknowledged. That is a test of the source
here; for `getDataPacketsToRetransmit` it follows from the marks. -/
theorem mem_gatherOutboundFastRetransmissionPackets {count : Nat} {p : PayloadData}
    (h : p ∈ (s.gatherOutboundFastRetransmissionPackets count).2) :
    ∃ c ∈ s.inflightQueue.chunks, c.acked = false ∧ p = c.chunk := by
  unfold gatherOutboundFastRetransmissionPackets at h
  split at h
  · cases h
  · obtain ⟨c, hc, hdue, hp⟩ := mem_resend h
    rw [Bool.and_eq_true, Bool.not_eq_true'] at hdue
    exact ⟨c, hc, hdue.1, hp⟩

/-- A missing report counts up `missIndicator`. Entering fast recovery changes the congestion window
and the exit point. -/
theorem reportMissing_quiet (s : Sender) (htna t : TSN) (c : InflightChunk) :
    s.Quiet (s.reportMissing htna t c) := by
  have hmark := quiet_modify (s := s) (t := t)
    (f := fun c => { c with missIndicator := c.missIndicator + 1 }) fun c _ => ⟨rfl, fun h => h⟩
  unfold reportMissing
  split
  · dsimp only
    split
    · exact { hmark with }
    · exact hmark
  · exact .refl s

/-- The loop over the TSNs that a SACK skips. It fails at a TSN that is not in flight, with the
reports made before it. -/
theorem missingLoop_quiet (htna maxTSN : TSN) (fuel : Nat) (t : TSN) (s : Sender) :
    s.Quiet (leftBy (missingLoop htna maxTSN fuel t s)) := by
  induction fuel generalizing t s with
  | zero => exact .refl s
  | succ fuel ih =>
      unfold missingLoop
      split
      · split
        · exact .refl s
        · rename_i c _
          exact (reportMissing_quiet s htna t c).trans (ih (t + 1#32) _)
      · exact .refl s

/-- With nothing left in flight a shutdown goes on to its next state. -/
theorem postprocessSack_quiet (s : Sender) : s.Quiet s.postprocessSack := by
  unfold postprocessSack
  split
  · exact .refl s
  · split <;> exact { Quiet.refl s with }

/-- A step after a function that may fail is not taken when it has failed. -/
theorem leftBy_map_quiet {x : Except (SackError × Sender) Sender} {f : Sender → Sender}
    (h : s.Quiet (leftBy x)) (hf : ∀ t : Sender, t.Quiet (f t)) : s.Quiet (leftBy (x.map f)) := by
  cases x with
  | error e => exact h
  | ok s1 => exact h.trans (hf s1)

/-- Counting the missing chunks, and what follows it. The flag that asks for a fast retransmission
is set only when no report has failed. -/
theorem fastRetransmission_quiet (s : Sender) (sack : SelectiveAck) (htna : TSN)
    (advanced : Bool) :
    s.Quiet (leftBy ((s.processFastRetransmission sack htna advanced).map postprocessSack)) := by
  have hcount : s.Quiet (leftBy (s.countMissing sack htna advanced)) := by
    unfold countMissing
    split
    · exact missingLoop_quiet _ _ _ _ s
    · exact .refl s
  refine leftBy_map_quiet (leftBy_map_quiet hcount ?_) postprocessSack_quiet
  exact fun t => { Quiet.refl t with }

/-! A SACK. -/

/-- The loop over the acknowledged TSNs only takes chunks out, up to where it ends or fails. -/
theorem popAcked_thins (exitPoint cumulativeTSNAck : TSN) (fuel : Nat) (idx : TSN) (w : AckWork) :
    Thinned w.queue.chunks
      (leftBy (popAcked exitPoint cumulativeTSNAck fuel idx w)).queue.chunks := by
  induction fuel generalizing idx w with
  | zero => exact .refl _
  | succ fuel ih =>
      unfold popAcked
      split
      · split
        · exact .refl _
        · -- the loop goes on without the first chunk
          rename_i c queue hpop
          exact (thinned_pop hpop).trans (ih (idx + 1#32) _)
      · exact .refl _

/-- One TSN of a gap block. A chunk that was acknowledged before is not touched again, and a TSN
that is not in flight ends the loop with the queue as it is. -/
theorem ackOffset_thins (cumulativeTSNAck : TSN) (w : AckWork) (i : Nat) :
    Thinned w.queue.chunks (leftBy (ackOffset cumulativeTSNAck w i)).queue.chunks := by
  unfold ackOffset
  dsimp only
  split
  · exact .refl _
  · show Thinned w.queue.chunks (AckWork.queue (if _ then _ else _)).chunks
    split
    · exact .refl _
    · exact thinned_markAsAcked _ _

/-- The gap blocks set marks, up to the first TSN that is not in flight. -/
theorem ackOffsets_thins (cumulativeTSNAck : TSN) (offsets : List Nat) (w : AckWork) :
    Thinned w.queue.chunks
      (leftBy (offsets.foldlM (ackOffset cumulativeTSNAck) w)).queue.chunks := by
  induction offsets generalizing w with
  | nil => exact .refl _
  | cons i offsets ih =>
      rw [List.foldlM_cons]
      have hfirst := ackOffset_thins cumulativeTSNAck w i
      cases hi : ackOffset cumulativeTSNAck w i with
      | error e =>
          -- the fold stops here and returns what the first offset left
          rw [hi] at hfirst
          exact hfirst
      | ok w1 =>
          rw [hi] at hfirst
          exact hfirst.trans (ih w1)

/-- Both loops of `processSelectiveAck` on the queue in flight. A failure in the first one keeps the
second one from running, and what was popped before it stays popped. -/
theorem processSelectiveAck_thins (s : Sender) (sack : SelectiveAck) :
    Thinned s.inflightQueue.chunks (leftBy (s.processSelectiveAck sack)).queue.chunks := by
  unfold processSelectiveAck
  dsimp only
  have hpopped := popAcked_thins s.fastRecoverExitPoint sack.cumulativeTSNAck
    (s.inflightQueue.size + 1) (s.cumulativeTSNAckPoint + 1#32)
    { queue := s.inflightQueue
      bytes := []
      inFastRecovery := s.inFastRecovery
      htna := sack.cumulativeTSNAck }
  split
  · -- the first loop has failed: the gap blocks are not read
    rename_i e hpop
    rw [hpop] at hpopped
    exact hpopped
  · rename_i w hpop
    rw [hpop] at hpopped
    exact hpopped.trans (ackOffsets_thins _ _ w)

/-- The bytes that a SACK releases lower `bufferedAmount` of their streams. The identifiers and the
sequence numbers, which the next messages get, are as before. -/
theorem releaseBytes_keys (streams : List SendStream) (bytes : List (StreamId × Nat)) :
    (releaseBytes streams bytes).map (fun st => (st.streamIdentifier, st.sequenceNumber)) =
      streams.map fun st => (st.streamIdentifier, st.sequenceNumber) := by
  unfold releaseBytes
  induction bytes generalizing streams with
  | nil => rfl
  | cons p bytes ih =>
      rw [List.foldl_cons, ih, List.map_map]
      apply List.map_congr_left
      intro st _
      unfold SendStream.onBufferReleased
      simp only [Function.comp_apply]
      split_ifs <;> rfl

/-- The congestion window grows by slow start or by congestion avoidance. No branch reads or writes
a queue. -/
theorem onCumulativeTSNAckPointAdvanced_keeps (s : Sender) (n : Nat) :
    s.Keeps (s.onCumulativeTSNAckPointAdvanced n) := by
  unfold onCumulativeTSNAckPointAdvanced
  dsimp only
  split_ifs <;> exact ⟨rfl, rfl, rfl, rfl, .refl _⟩

/-- The work of the two loops is put into the sender, the ack point advances and the streams are
told. Only the first of these changes the queue in flight, so the hypothesis is about the work. -/
theorem settleSack_keeps {sack : SelectiveAck} {w : AckWork}
    (h : Thinned s.inflightQueue.chunks w.queue.chunks) : s.Keeps (s.settleSack sack w) := by
  have hqueue : s.Keeps (s.withWork w) := ⟨rfl, rfl, rfl, rfl, h⟩
  unfold settleSack
  dsimp only
  split
  · have hpoint := onCumulativeTSNAckPointAdvanced_keeps
      { s.withWork w with cumulativeTSNAckPoint := sack.cumulativeTSNAck }
      (w.bytes.map Prod.snd).sum
    refine hqueue.trans (Keeps.trans ?_ (hpoint.trans ?_))
    · exact ⟨rfl, rfl, rfl, rfl, .refl _⟩
    · exact ⟨rfl, rfl, rfl, releaseBytes_keys _ _, .refl _⟩
  · exact hqueue.trans ⟨rfl, rfl, rfl, releaseBytes_keys _ _, .refl _⟩

/-- Whatever a SACK says, and whether it fails or not, it leaves the messages alone. -/
theorem handleSack_keeps (s : Sender) (sack : SelectiveAck) :
    s.Keeps (leftBy (s.handleSack sack)) := by
  have hthins := processSelectiveAck_thins s sack
  unfold handleSack
  split
  · exact .refl s
  split
  · exact .refl s
  split
  · -- an error: the chunks popped and marked so far stay so, the rest of the sender is untouched
    rename_i e w hw
    rw [hw] at hthins
    exact ⟨rfl, rfl, rfl, rfl, hthins⟩
  · rename_i w hw
    rw [hw] at hthins
    exact (settleSack_keeps hthins).trans (fastRetransmission_quiet _ _ _ _).keeps

end Sender

section Steps

variable {base size n : Nat} {written : List Message} {s s' : Sender} {o : Outbox}

/-- The frame rule for the invariant of the sender: a step that keeps the messages keeps it, with
the same outbox and the same numbers. -/
theorem Sending.keeps (h : Sending base size written s o n) (hk : s.Keeps s') :
    Sending base size written s' o n := by
  refine h.frame hk.pending hk.next hk.payload hk.streams ?_
  intro c' hc'
  obtain ⟨c, hc, he⟩ := hk.flight c' hc'
  exact (h.flight c hc).evolves he

/-- The chunks that `gatherOutbound` sends for the first time. -/
def Sender.newChunks (s : Sender) (allow : List Bool) (rtx : Nat) : List PayloadData :=
  if s.state = .established then
    ((s.getDataPacketsToRetransmit rtx).1.popPendingDataChunksToSend allow).2.1
  else []

/-- Everything that is gathered is a piece of a message that was begun, with its number, and what is
new gets the next numbers. -/
theorem Sending.gather (hsize : size < 2 ^ 32) (h : Sending base size written s o n)
    (allow : List Bool) (rtx fast : Nat) :
    let n' := n + (s.newChunks allow rtx).length
    ∃ o', Sending base size written (s.gatherOutbound allow rtx fast).1 o' n' ∧
      Grows o n o' n' ∧ ∀ c ∈ (s.gatherOutbound allow rtx fast).2.1, o'.Sends n' c := by
  -- retransmissions come first, and they add nothing to the numbers
  have hrtx := h.keeps (Sender.getDataPacketsToRetransmit_quiet s rtx).keeps
  have hrtxOut : ∀ p ∈ (s.getDataPacketsToRetransmit rtx).2, o.Sends n p := by
    intro p hp
    obtain ⟨c, hc, hmark, rfl⟩ := mem_resend hp
    cases hacked : c.acked with
    | false => exact (h.flight c hc).1 hacked
    | true =>
        -- an acknowledged chunk has lost its data, but it is not marked either
        rw [(h.flight c hc).2 hacked] at hmark
        cases hmark
  have hfast {s1 : Sender} {o1 : Outbox} {n1 : Nat} (h1 : Sending base size written s1 o1 n1) :
      ∀ p ∈ (s1.gatherOutboundFastRetransmissionPackets fast).2, o1.Sends n1 p := by
    intro p hp
    obtain ⟨c, hc, hacked, rfl⟩ := Sender.mem_gatherOutboundFastRetransmissionPackets hp
    exact (h1.flight c hc).1 hacked
  -- once a shutdown has begun nothing new is sent
  have hclosing : ∃ o', Sending base size written ((s.getDataPacketsToRetransmit rtx).1
        |>.gatherOutboundFastRetransmissionPackets fast).1 o' n ∧
      Grows o n o' n ∧
        ∀ c ∈ (s.getDataPacketsToRetransmit rtx).2 ++
          ((s.getDataPacketsToRetransmit rtx).1.gatherOutboundFastRetransmissionPackets fast).2,
          o'.Sends n c := by
    refine ⟨o, hrtx.keeps (Sender.gatherOutboundFastRetransmissionPackets_quiet _ fast).keeps,
      Grows.refl o n, ?_⟩
    intro c hc
    rcases List.mem_append.mp hc with hc | hc
    · exact hrtxOut c hc
    · exact hfast hrtx c hc
  unfold Sender.gatherOutbound Sender.newChunks
  cases s.state with
  | established =>
      obtain ⟨o1, h1, hg1, hc1⟩ := hrtx.moves (hrtx.popPending hsize allow)
      refine ⟨o1, h1.keeps ?_, hg1, ?_⟩
      · exact (Sender.gatherOutboundFastRetransmissionPackets_quiet _ fast).keeps
      intro c hc
      rcases List.mem_append.mp hc with hc | hc
      · rcases List.mem_append.mp hc with hc | hc
        · exact (hrtxOut c hc).grows hg1
        · exact hc1 c hc
      · exact hfast h1 c hc
  | shutdownPending => exact hclosing
  | shutdownSent => exact hclosing
  | shutdownReceived => exact hclosing
  | closed => exact ⟨o, h, Grows.refl o n, by simp⟩
  | cookieWait => exact ⟨o, h, Grows.refl o n, by simp⟩
  | cookieEchoed => exact ⟨o, h, Grows.refl o n, by simp⟩
  | shutdownAckSent => exact ⟨o, h, Grows.refl o n, by simp⟩

/-! ### Streams and writes -/

/-- A stream that is found is one of the sender, under the identifier that was looked up. -/
theorem mem_of_findStream {si : StreamId} {st : SendStream} (h : s.findStream si = some st) :
    st ∈ s.streams ∧ st.streamIdentifier = si := by
  refine ⟨List.mem_of_find?_eq_some h, ?_⟩
  have hsi := List.find?_some h
  exact eq_of_beq hsi

/-- Putting a stream back replaces the one with its identifier, so the identifiers are the same in
the same order. -/
theorem ids_putStream (s : Sender) (st : SendStream) :
    (s.putStream st).streams.map SendStream.streamIdentifier =
      s.streams.map SendStream.streamIdentifier := by
  unfold Sender.putStream
  rw [List.map_map]
  apply List.map_congr_left
  intro st' _
  simp only [Function.comp_apply]
  split
  · rename_i heq
    exact (eq_of_beq heq).symm
  · rfl

/-- A stream put twice is as put once. -/
theorem putStream_putStream (s : Sender) {st st' : SendStream}
    (h : st'.streamIdentifier = st.streamIdentifier) :
    (s.putStream st).putStream st' = s.putStream st' := by
  unfold Sender.putStream
  simp only [List.map_map]
  congr 1
  apply List.map_congr_left
  intro x _
  simp only [Function.comp_apply, h]
  split_ifs <;> simp_all

/-- Putting back a stream that was found changes nothing. -/
theorem putStream_self (hd : (s.streams.map SendStream.streamIdentifier).Nodup) {st : SendStream}
    (hst : st ∈ s.streams) : s.putStream st = s := by
  have hmap : s.streams.map (fun st' => if st'.streamIdentifier == st.streamIdentifier then st
      else st') = s.streams := by
    conv_rhs => rw [← List.map_id s.streams]
    apply List.map_congr_left
    intro st' hst'
    split
    · rename_i heq
      exact List.inj_on_of_nodup_map hd hst hst' (eq_of_beq heq).symm
    · rfl
  unfold Sender.putStream
  rw [hmap]

/-- A write that is refused changes nothing. -/
theorem writeSCTP_error (hd : (s.streams.map SendStream.streamIdentifier).Nodup) {si : StreamId}
    {payload : List UInt8} {ppi : PPI} {e : Sender.WriteError}
    (h : s.writeSCTP si payload ppi = (s', .error e)) : s' = s := by
  unfold Sender.writeSCTP at h
  split at h
  · cases h
    rfl
  split at h
  · cases h
    rfl
  · rename_i st hfind
    simp only at h
    split at h
    · cases h
    · -- the stream was changed before the association refused, and is rolled back
      cases h
      rw [rollback_packetize, putStream_putStream, putStream_self hd (mem_of_findStream hfind).1]
      rfl

/-- The chunks of what was written so far and of one more write. -/
theorem chunkCount_append (size : Nat) (ms ms' : List Message) :
    chunkCount size (ms ++ ms') = chunkCount size ms + chunkCount size ms' := by
  unfold chunkCount
  rw [List.map_append, List.sum_append]

/-- A new stream begins with sequence number zero. That is the number of its ordered messages,
because nothing can be written to a stream before it is opened (`Sending.opened`). -/
theorem Sending.openStream (h : Sending base size written s o n) (si : StreamId) :
    Sending base size written (s.openStream si) o n := by
  unfold Sender.openStream
  split
  · exact h
  · rename_i hfind
    have hnew : si ∉ s.streams.map SendStream.streamIdentifier := by
      intro hmem
      obtain ⟨st, hst, heq⟩ := List.mem_map.mp hmem
      have := List.find?_eq_none.mp hfind st hst
      simp [heq] at this
    exact
      { h with
        streams := by
          intro st hst
          rcases List.mem_append.mp hst with hold | hst
          · exact h.streams st hold
          · rw [List.mem_singleton.mp hst]
            -- nothing was written to the stream yet
            have hnone : Link.ordered si written = [] := by
              rw [Link.ordered, List.filter_eq_nil_iff]
              intro m hm hsi
              simp only [Bool.and_eq_true, beq_iff_eq] at hsi
              exact hnew (hsi.1 ▸ h.opened m hm)
            show 0#16 = ssn (Link.ordered si written).length
            rw [hnone]
            rfl
        distinct := by
          rw [List.map_append, List.nodup_append]
          refine ⟨h.distinct, by simp, ?_⟩
          intro x hx y hy heq
          have hy : y = si := List.mem_singleton.mp hy
          exact hnew (hy ▸ heq ▸ hx)
        opened := by
          intro m hm
          rw [List.map_append]
          exact List.mem_append_left _ (h.opened m hm) }

/-- A stream may be made ordered or unordered between two writes. The sequence number stays: it
counts the ordered messages that were written. -/
theorem Sending.setReliabilityParams (h : Sending base size written s o n) {st : SendStream}
    (hst : st ∈ s.streams) (unordered : Bool) :
    Sending base size written (s.putStream (st.setReliabilityParams unordered)) o n := by
  refine h.frame rfl rfl rfl ?_ h.flight
  unfold Sender.putStream
  rw [List.map_map]
  apply List.map_congr_left
  intro st' hst'
  simp only [Function.comp_apply]
  split
  · rename_i heq
    rw [List.inj_on_of_nodup_map h.distinct hst' hst (eq_of_beq heq)]
    rfl
  · rfl

/-- A message leaves as many chunks as it was cut into. -/
theorem Sent.length_outs (m : Sent) : m.outs.length = m.len := by
  simp [Sent.outs]

/-- What is written to a stream counts for that stream only. -/
theorem length_ordered_write (si : StreamId) (msg : Message) :
    (Link.ordered si (written ++ [msg])).length =
      (Link.ordered si written).length + if msg.si = si ∧ msg.unordered = false then 1 else 0 := by
  rw [Link.ordered_append, List.length_append, Link.ordered_singleton]
  split <;> rfl

/-- The messages with one that was cut are the ones that were written. -/
theorem Tracks.add (hsize : 0 < size) (h : Tracks size written o.line) (si : StreamId)
    (unordered : Bool) (payload : List UInt8) (ppi : PPI) :
    Tracks size (written ++ [{ si, unordered, data := payload, ppi }])
      (o.add
        (Sent.ofWrite size si unordered (Link.ordered si written).length payload ppi)).line := by
  by_cases hlen :
      (Sent.ofWrite size si unordered (Link.ordered si written).length payload ppi).len = 0
  · -- an empty message has no chunks: it is written, and nothing is sent for it
    have hnil := (Sent.len_ofWrite_eq_zero hsize ..).mp hlen
    have hsame : o.add (Sent.ofWrite size si unordered (Link.ordered si written).length payload
        ppi) = o := if_pos hlen
    rw [hsame]
    exact h.write_empty hnil
  · have hmessage : (Sent.ofWrite size si unordered (Link.ordered si written).length payload
        ppi).message = { si, unordered, data := payload, ppi } := by
      unfold Sent.message
      rw [Sent.data_ofWrite hsize]
      rfl
    rw [Outbox.line_add o hlen, ← hmessage]
    exact h.write (Sent.cut_ofWrite hsize _ _ _ _ _ hlen) rfl

/-- `sendPayloadData` refuses in every state but the established one. When it accepts, the chunks go
to the end of the pending queue in their order. -/
theorem sendPayloadData_ok {cs : List PayloadData} (h : s.sendPayloadData cs = .ok s') :
    s' = { s with pendingQueue := cs.foldl PendingQueue.push s.pendingQueue } := by
  unfold Sender.sendPayloadData at h
  split at h
  · cases h
  · cases h
    rfl

/-- What a write that is taken does: the message is cut, and the stream counts its bytes. -/
theorem writeSCTP_ok (hsize : 0 < s.maxPayloadSize) {si : StreamId} {payload : List UInt8}
    {ppi : PPI} {len : Nat} (hw : s.writeSCTP si payload ppi = (s', .ok len)) :
    ∃ st seq seq' u, s.findStream si = some st ∧
      s' =
        { s.putStream
            { st with
              sequenceNumber := seq'
              bufferedAmount := st.bufferedAmount + payload.length } with
          pendingQueue := (Sent.ofWrite s.maxPayloadSize si u seq payload ppi).outs.foldl
            PendingQueue.push s.pendingQueue } := by
  unfold Sender.writeSCTP at hw
  split at hw
  · cases hw
  split at hw
  · cases hw
  rename_i st hfind
  -- `packetize_eq` wants the sequence number as the residue of a count
  have hseq : st.sequenceNumber = ssn st.sequenceNumber.toNat := by
    unfold ssn
    rw [BitVec.ofNat_toNat, BitVec.setWidth_eq]
  have hpack := packetize_eq hsize st payload ppi hseq
  simp only at hpack
  rw [hpack] at hw
  dsimp only at hw
  split at hw
  · rename_i s1 hok
    cases hw
    obtain ⟨-, rfl⟩ := mem_of_findStream hfind
    exact ⟨st, _, _, _, hfind, sendPayloadData_ok hok⟩
  · cases hw

/-- A write that is taken adds its message. -/
theorem Sending.write (hsize : 0 < size) (h : Sending base size written s o n) {si : StreamId}
    {payload : List UInt8} {ppi : PPI} {len : Nat}
    (hw : s.writeSCTP si payload ppi = (s', .ok len)) :
    ∃ o', Sending base size
        (written ++ [{ si, unordered := ppi != payloadTypeWebRTCDCEP &&
            (s.findStream si).any SendStream.unordered, data := payload, ppi }]) s' o' n ∧
      Grows o n o' n := by
  unfold Sender.writeSCTP at hw
  split at hw
  · cases hw
  split at hw
  · cases hw
  rename_i st hfind
  obtain ⟨hst, rfl⟩ := mem_of_findStream hfind
  rw [hfind, Option.any_some]
  have hpack := packetize_eq hsize st payload ppi (h.streams st hst)
  simp only at hpack
  rw [h.payload, hpack] at hw
  generalize hu : (ppi != payloadTypeWebRTCDCEP && st.unordered) = u at hw hpack ⊢
  dsimp only at hw
  split at hw
  · rename_i s1 hok
    cases hw
    rw [sendPayloadData_ok hok]
    generalize hm : Sent.ofWrite size st.streamIdentifier u
      (Link.ordered st.streamIdentifier written).length payload ppi = m
    have hgrows : Grows o n (o.add m) n := by
      refine ⟨Nat.le_refl n, [], ?_, by simp⟩
      rw [List.append_nil]
      unfold Outbox.add
      split <;> rfl
    refine ⟨o.add m, ?_, hgrows⟩
    exact
      { queues := by
          rw [foldl_push_policy]
          exact h.queues.add m
        counted := h.counted.foldl_push _
        sorted := h.sorted.add m
        numbered := h.numbered.add m
        tracks := hm ▸ h.tracks.add hsize _ u payload ppi
        next := h.next
        payload := h.payload
        streams := by
          intro x hx
          obtain ⟨y, hy, rfl⟩ := List.mem_map.mp hx
          rw [length_ordered_write]
          -- the count goes up exactly for an ordered message of this stream
          by_cases hid : y.streamIdentifier = st.streamIdentifier
          · rw [if_pos (beq_iff_eq.mpr hid)]
            cases u <;> simp
          · rw [if_neg (by simpa using hid), if_neg fun hboth => hid hboth.1.symm]
            exact h.streams y hy
        distinct := by
          rw [ids_putStream]
          exact h.distinct
        opened := by
          intro x hx
          rw [ids_putStream]
          rcases List.mem_append.mp hx with hold | hnew
          · exact h.opened x hold
          · rw [List.mem_singleton.mp hnew]
            exact List.mem_map_of_mem hst
        room := by
          -- the pending queue grows by as many chunks as the message was cut into
          have hroom := h.room
          have hcount : m.len = (payload.length + size - 1) / size := by
            rw [← hm]
            exact length_pieces hsize (Nat.le_refl _)
          show n + (m.outs.foldl PendingQueue.push s.pendingQueue).policy.all.length = _
          rw [foldl_push_policy, (all_foldl_push _ _).length_eq, List.length_append,
            Sent.length_outs, chunkCount_append]
          simp only [chunkCount, List.map_cons, List.map_nil, List.sum_cons, List.sum_nil]
            at hroom ⊢
          omega
        flight := fun c hc => (h.flight c hc).grows hgrows }
  · cases hw

end Steps

end PionBridge.Sctp
