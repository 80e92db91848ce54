import PionBridge.Proofs.Sctp.Flight

/-!
# `PionBridge.Proofs.Sctp.Acks`: no chunk is let go before the receiver has it

Over every run of a link the SACKs that travel are honest, so `handleSack` fails on none of them,
and each chunk that was ever sent is still in flight with its data or was accepted by the receiver
(`chunks_kept_until_accepted`). That is about reliable streams and TSNs that do not wrap. A gap
block behind the wrap is not found in the queue, and `handleSack` fails (`sack_over_wrap_fails`).
The error is logged and the association goes on, but the SACK has released nothing.
-/

set_option autoImplicit false

namespace PionBridge.Sctp

open PionBridge.Lib ReceiveWindow

/-! ### The receiver's SACKs -/

theorem Separated.mem {lo : Nat} {blocks : List (Nat × Nat)} (h : Separated lo blocks)
    {b : Nat × Nat} (hb : b ∈ blocks) : lo ≤ b.1 ∧ b.1 ≤ b.2 := by
  induction blocks generalizing lo with
  | nil => cases hb
  | cons x rest ih =>
      rcases List.mem_cons.mp hb with rfl | hb
      · exact ⟨h.1, h.2.1⟩
      · have := ih h.2.2 hb
        have hx := h.1
        have hx' := h.2.1
        omega

/-- A SACK reports numbers that were accepted. -/
theorem Receives.honest {base span n : Nat} {begun : List Sent} {a : Receiver} {x : Intake}
    (h : Receives base span begun n a x) (hspan : span < 2 ^ 16) :
    Honest base x.accepted x.window.cum a.createSelectiveAckChunk.2 := by
  have hsmall : x.window.size < 2 ^ 16 := by
    rw [h.size]
    exact hspan
  have hwords := h.holds.words
  have hcovers := h.covers
  refine ⟨h.holds.cum, hcovers.bounds.1, ?_, ?_⟩
  · exact fun j hlo hhi => (hcovers.accepted j).mpr (.inl ⟨hlo, hhi⟩)
  · intro b hb
    have hb : b ∈ a.payloadQueue.getGapAckBlocks (Receiver.maxSackEntries a.mtu) := hb
    have hspan : b.span ∈ (a.payloadQueue.getGapAckBlocks
        (Receiver.maxSackEntries a.mtu)).map GapAckBlock.span := List.mem_map_of_mem hb
    obtain ⟨hstart, hle⟩ := Separated.mem (separated_spans h.holds hsmall _) hspan
    have hreceived (d : Nat) (hlo : b.start.toNat ≤ d) (hhi : d ≤ b.stop.toNat) :
        x.window.cum + d ∈ x.window.received :=
      received_of_covered h.holds hsmall _ ⟨b.span, hspan, hlo, hhi⟩
    have hlast : x.window.cum + b.stop.toNat ≤ x.window.cum + x.window.size :=
      (h.holds.inside _ (hreceived _ hle (Nat.le_refl _))).2
    refine ⟨hstart, hle, by omega, ?_⟩
    exact fun d hlo hhi => (hcovers.accepted _).mpr (.inr (hreceived d hlo hhi))

theorem span_lt (cfg : LinkConfig) : cfg.span < 2 ^ 16 := by
  have hsize := (size_new_getMaxTSNOffset cfg.maxReceiveBufferSize).2
  show ((getMaxTSNOffset cfg.maxReceiveBufferSize).toNat + 63) / 64 * 64 < 2 ^ 16
  omega

/-! ### The sender's steps -/

theorem Sender.writeSCTP_marks (s : Sender) (si : StreamId) (payload : List UInt8) (ppi : PPI) :
    s.Marks (s.writeSCTP si payload ppi).1 := by
  unfold Sender.writeSCTP
  split
  · exact .refl s
  split
  · exact .refl s
  dsimp only
  split
  · rename_i s1 hok
    rw [sendPayloadData_ok hok]
    exact ⟨rfl, rfl⟩
  · exact ⟨rfl, rfl⟩

theorem Sender.openStream_marks (s : Sender) (si : StreamId) : s.Marks (s.openStream si) := by
  unfold Sender.openStream
  split <;> exact ⟨rfl, rfl⟩

/-- Chunks that are moved join the queue in flight. -/
theorem Flight.moves {base n a : Nat} {accepted : Finset Nat} {s s' : Sender}
    {out : List PayloadData} (hm : s.Moves out s') (hnext : s.myNextTSN = tsn n)
    (hpoint : s.cumulativeTSNAckPoint = tsn a)
    (h : Flight base n accepted a s.inflightQueue.chunks) :
    s'.cumulativeTSNAckPoint = tsn a ∧
      Flight base (n + out.length) accepted a s'.inflightQueue.chunks := by
  induction hm generalizing n with
  | refl s => exact ⟨hpoint, h⟩
  | @move s s' c out rwnd _ _ _ ih =>
      have hnext' : s.myNextTSN + 1#32 = tsn (n + 1) := by
        rw [hnext]
        exact (tsn_add n 1).symm
      have := ih hnext' hpoint (h.push hnext rfl)
      rwa [Nat.add_assoc, Nat.add_comm 1] at this

/-! ### The link -/

/-- What is acknowledged was accepted, in the queue in flight and in the SACKs that travel. -/
structure Acks (base n : Nat) (accepted : Finset Nat) (l : Link) : Prop where
  flight : ∃ a, l.sender.cumulativeTSNAckPoint = tsn a ∧
    Flight base n accepted a l.sender.inflightQueue.chunks
  sacks : ∀ sack ∈ l.sacks, ∃ c, c < n ∧ Honest base accepted c sack
  failure : l.failure = none

section Acks

variable {cfg : LinkConfig} {l l' : Link} {o : Outbox} {n : Nat} {x : Intake}
  {accepted : Finset Nat}

theorem Acks.mono {base : Nat} {accepted' : Finset Nat} (h : Acks base n accepted l)
    (hsub : accepted ⊆ accepted') : Acks base n accepted' l := by
  obtain ⟨a, hpoint, hflight⟩ := h.flight
  refine ⟨⟨a, hpoint, hflight.mono hsub⟩, ?_, h.failure⟩
  intro sack hsack
  obtain ⟨c, hc, hhonest⟩ := h.sacks sack hsack
  exact ⟨c, hc, hhonest.mono hsub⟩

theorem Acks.marks {base : Nat} (h : Acks base n accepted l) {s : Sender}
    (hm : l.sender.Marks s) : Acks base n accepted { l with sender := s } := by
  obtain ⟨a, hpoint, hflight⟩ := h.flight
  exact { h with flight := ⟨a, hm.point.trans hpoint, hflight.congr hm.keys⟩ }

/-- What is sent is in flight. -/
theorem Acks.gather (h : Acks cfg.base n x.accepted l) (hc : Carries cfg l o n x)
    (allow : List Bool) (rtx fast : Nat) :
    Acks cfg.base (n + (l.sender.newChunks allow rtx).length) x.accepted
      (l.gather allow rtx fast) := by
  obtain ⟨a, hpoint, hflight⟩ := h.flight
  have hsacks {k : Nat} : ∀ sack ∈ l.sacks, ∃ c, c < n + k ∧
      Honest cfg.base x.accepted c sack := by
    intro sack hsack
    obtain ⟨c, hcn, hhonest⟩ := h.sacks sack hsack
    exact ⟨c, by omega, hhonest⟩
  have hrtx := Sender.getDataPacketsToRetransmit_quiet l.sender rtx
  have hsame (s : Sender) (hm : l.sender.Marks s) :
      ∃ a, s.cumulativeTSNAckPoint = tsn a ∧
        Flight cfg.base (n + 0) x.accepted a s.inflightQueue.chunks :=
    ⟨a, hm.point.trans hpoint, hflight.congr hm.keys⟩
  refine ⟨?_, hsacks, h.failure⟩
  show ∃ a, (l.sender.gatherOutbound allow rtx fast).1.cumulativeTSNAckPoint = tsn a ∧ _
  unfold Link.gather Sender.gatherOutbound Sender.newChunks
  cases l.sender.state with
  | established =>
      have hsend := hc.sending.keeps (Sender.getDataPacketsToRetransmit_quiet l.sender rtx).keeps
      obtain ⟨hp, hf⟩ := Flight.moves (hsend.popPending (BitVec.isLt _) allow) hsend.next
        (hrtx.point.trans hpoint) (hflight.congr hrtx.keys)
      have hfast := Sender.gatherOutboundFastRetransmissionPackets_quiet
        ((l.sender.getDataPacketsToRetransmit rtx).1.popPendingDataChunksToSend allow).1 fast
      exact ⟨a, hfast.point.trans hp, hf.congr hfast.keys⟩
  | shutdownPending =>
      exact hsame _
        (hrtx.trans (Sender.gatherOutboundFastRetransmissionPackets_quiet _ fast)).marks
  | shutdownSent =>
      exact hsame _
        (hrtx.trans (Sender.gatherOutboundFastRetransmissionPackets_quiet _ fast)).marks
  | shutdownReceived =>
      exact hsame _
        (hrtx.trans (Sender.gatherOutboundFastRetransmissionPackets_quiet _ fast)).marks
  | closed => exact hsame _ (.refl _)
  | cookieWait => exact hsame _ (.refl _)
  | cookieEchoed => exact hsame _ (.refl _)
  | shutdownAckSent => exact hsame _ (.refl _)

/-- A SACK that travels arrives. -/
theorem Acks.deliverSack (hl : Lap cfg.base n) (h : Acks cfg.base n accepted l)
    (hacc : ∀ j ∈ accepted, j < n) {sack : SelectiveAck} (hsack : sack ∈ l.sacks) :
    Acks cfg.base n accepted (l.deliverSack sack) := by
  obtain ⟨a, hpoint, hflight⟩ := h.flight
  obtain ⟨c, hc, hhonest⟩ := h.sacks sack hsack
  obtain ⟨s', a', hok, hpoint', hflight'⟩ :=
    Sender.handleSack_ok hl hflight hpoint hhonest hacc hc
  unfold Link.deliverSack
  rw [hok]
  exact { h with flight := ⟨a', hpoint', hflight'⟩ }

/-- Every event keeps the chunks that were not accepted. -/
theorem acks_step {e : LinkEvent} (hstep : l.step e = some l') (hc : Carries cfg l o n x)
    (hl : Lap cfg.base n) (h : Acks cfg.base n x.accepted l) :
    Acks cfg.base (n + l.newCount e) x.accepted l' := by
  have hacc : ∀ j ∈ x.accepted, j < n := fun j hj => hc.receives.covers.lt hj
  cases e with
  | openStream si =>
      cases hstep
      exact h.marks (Sender.openStream_marks _ si)
  | setReliabilityParams si unordered =>
      obtain ⟨st, -, rfl⟩ := Option.map_eq_some_iff.mp hstep
      exact h.marks ⟨rfl, rfl⟩
  | write si payload ppi =>
      cases hstep
      have hmarks := Sender.writeSCTP_marks l.sender si payload ppi
      unfold Link.write
      split
      · rename_i s len hw
        rw [hw] at hmarks
        exact { h.marks hmarks with }
      · rename_i s err hw
        rw [hw] at hmarks
        exact h.marks hmarks
  | shutdown =>
      cases hstep
      exact h.marks (Sender.shutdown_quiet _).marks
  | gather allow rtx fast =>
      cases hstep
      exact h.gather hc allow rtx fast
  | t3Timeout =>
      cases hstep
      exact h.marks (Sender.onT3Timeout_quiet _).marks
  | markLost t =>
      cases hstep
      exact h.marks (Sender.markLost_quiet _ t).marks
  | peerShutdown =>
      cases hstep
      exact h.marks (Sender.handleShutdown_quiet _).marks
  | deliver j =>
      obtain ⟨c, -, rfl⟩ := Option.map_eq_some_iff.mp hstep
      exact { h with }
  | deliverSack j =>
      obtain ⟨sack, hsack, rfl⟩ := Option.map_eq_some_iff.mp hstep
      exact h.deliverSack hl hacc (List.mem_of_getElem? hsack)
  | receiverOpen si =>
      cases hstep
      exact { h with }
  | receiverAccept =>
      cases hstep
      exact { h with }
  | receiverState state =>
      cases hstep
      exact { h with }
  | read si len =>
      cases hstep
      unfold Link.read
      dsimp only
      split <;> exact { h with }
  | sack =>
      cases hstep
      refine { h with sacks := ?_ }
      intro sack hsack
      rcases List.mem_append.mp hsack with hold | hnew
      · exact h.sacks sack hold
      · rw [List.mem_singleton.mp hnew]
        exact ⟨x.window.cum, hc.receives.covers.bounds.2, hc.receives.honest (span_lt cfg)⟩

/-- The TSNs of what was written do not wrap. -/
theorem Carries.lap (hc : Carries cfg l o n x) (hroom : cfg.Room l.written)
    (hwrap : cfg.initialTSN.toNat + chunkCount cfg.maxPayloadSize l.written < 2 ^ 32) :
    Lap cfg.base n := by
  have hn := hc.sending.room
  have hle := hc.sending.numbered.base_le
  have hcount := hroom.1
  have hbase : cfg.base % 2 ^ 32 = cfg.initialTSN.toNat := by
    have : tsn cfg.base = cfg.initialTSN := by
      unfold LinkConfig.base tsn
      rw [BitVec.ofNat_add, BitVec.ofNat_toNat, BitVec.setWidth_eq, BitVec.sub_add_cancel]
    rw [← this, toNat_tsn]
  exact ⟨by omega, by omega⟩

/-- The run lemma. The room is for what was written up to its end. -/
theorem acks_of_reachable (hmtu : 28 < cfg.mtu.toNat)
    (hl : (linkSystem cfg).ReachableUnder (fun l _ => l.InReach) l) (hroom : cfg.Room l.written)
    (hwrap : cfg.initialTSN.toNat + chunkCount cfg.maxPayloadSize l.written < 2 ^ 32) :
    ∃ o n x, Carries cfg l o n x ∧ Acks cfg.base n x.accepted l := by
  refine StepSystem.StepsUnder.invariant
    (I := fun l => cfg.Room l.written →
      cfg.initialTSN.toNat + chunkCount cfg.maxPayloadSize l.written < 2 ^ 32 →
      ∃ o n x, Carries cfg l o n x ∧ Acks cfg.base n x.accepted l) hl ?_ ?_ hroom hwrap
  · intro _ _
    refine ⟨_, _, _, carries_init cfg, ?_⟩
    refine ⟨⟨(cfg.initialTSN - 1#32).toNat, ?_, ?_⟩, (fun sack hsack => by cases hsack), rfl⟩
    · show cfg.initialTSN - 1#32 = tsn (cfg.initialTSN - 1#32).toNat
      unfold tsn
      rw [BitVec.ofNat_toNat, BitVec.setWidth_eq]
    · exact
        { base_le := Nat.le_refl _
          length := rfl
          tsns := fun k c hk => by cases hk
          acked := fun k c hk => by cases hk
          below := fun j hlo hhi => by
            unfold LinkConfig.base at hlo
            omega }
  · intro t e u _ hi hreach hstep hroom hwrap
    obtain ⟨ms, hms⟩ := written_step hstep
    rw [hms, chunkCount_append] at hwrap
    have hbefore := (hms ▸ hroom).before
    obtain ⟨o, n, x, hc, ha⟩ := hi hbefore (by omega)
    have hlap := hc.lap hbefore (by omega)
    obtain ⟨o', x', hc', hsub⟩ := carries_step hmtu hstep hreach hroom hc
    exact ⟨o', _, x', hc', (acks_step hstep hc hlap ha).mono hsub⟩

end Acks

/-- In every run without a wrap of the TSNs `handleSack` fails on no SACK of the receiver, in
whatever order and however often they arrive. And each chunk that was ever sent is still in flight
at the sender, with its data and not acknowledged, or the receiver has it: it is behind the
cumulative TSN or among those that arrived early. -/
theorem chunks_kept_until_accepted (cfg : LinkConfig) (hmtu : 28 < cfg.mtu.toNat) {l : Link}
    (hl : (linkSystem cfg).ReachableUnder (fun l _ => l.InReach) l) (hroom : cfg.Room l.written)
    (hwrap : cfg.initialTSN.toNat + chunkCount cfg.maxPayloadSize l.written < 2 ^ 32) :
    l.failure = none ∧
      ∀ c ∈ l.wire,
        (∃ f ∈ l.sender.inflightQueue.chunks, f.acked = false ∧ f.chunk = c) ∨
          sna32LTE c.tsn l.receiver.payloadQueue.cumulativeTSN = true ∨
          l.receiver.payloadQueue.hasChunk c.tsn = true := by
  obtain ⟨o, n, x, hc, ha⟩ := acks_of_reachable hmtu hl hroom hwrap
  refine ⟨ha.failure, ?_⟩
  intro c hwire
  have hlap := hc.lap hroom hwrap
  have hnear := hlap.near
  have hrange := hc.range hroom
  obtain ⟨m, hm, i, hi, hlt, rfl⟩ := hc.wire c hwire
  have hlow := hrange.low m hm
  have hcovers := hc.receives.covers
  have hbounds := hcovers.bounds
  -- what was accepted is in the receiver's queue
  have haccepted (hmem : m.start + i ∈ x.accepted) :
      sna32LTE (m.sent i).tsn l.receiver.payloadQueue.cumulativeTSN = true ∨
        l.receiver.payloadQueue.hasChunk (m.sent i).tsn = true := by
    show sna32LTE (tsn (m.start + i)) _ = true ∨ l.receiver.payloadQueue.hasChunk (tsn _) = true
    rcases (hcovers.accepted _).mp hmem with ⟨-, hle⟩ | hin
    · left
      rw [hc.receives.holds.cum, sna32LTE_tsn (by omega) (by omega)]
      exact decide_eq_true hle
    · right
      have hcum := (hc.receives.holds.inside _ hin).1
      rw [hc.receives.holds.hasChunk, offset_of_near (by omega) (by omega), if_pos hcum.le,
        Nat.add_sub_cancel' hcum.le]
      exact decide_eq_true hin
  obtain ⟨a, -, hflight⟩ := ha.flight
  have hlength := hflight.length
  have habase := hflight.base_le
  by_cases hpassed : m.start + i ≤ a
  · exact .inr (haccepted (hflight.below _ (by omega) hpassed))
  · have hk : m.start + i - (a + 1) < l.sender.inflightQueue.chunks.length := by omega
    have hget := List.getElem?_eq_getElem hk
    have hplace : a + 1 + (m.start + i - (a + 1)) = m.start + i := by omega
    generalize l.sender.inflightQueue.chunks[m.start + i - (a + 1)] = f at hget
    have hmem := List.mem_of_getElem? hget
    cases hacked : f.acked with
    | true =>
        have := hflight.acked _ f hget hacked
        exact .inr (haccepted (hplace ▸ this))
    | false =>
        -- the chunk in flight is the one with this number
        obtain ⟨m', hm', i', hi', hlt', hchunk⟩ := (hc.sending.flight f hmem).1 hacked
        have htsn := hflight.tsns _ f hget
        rw [hchunk, hplace] at htsn
        have hlow' := hrange.low m' hm'
        have hsame : m'.start + i' = m.start + i := by
          refine (tsn_inj (by omega) (by omega)).mp ?_
          exact htsn
        have hmm := Sent.eq_of_shared hrange.apart hm' hm hi' hi hsame
        subst hmm
        have hii : i' = i := by omega
        exact .inl ⟨f, hmem, hacked, hii ▸ hchunk⟩

/-- A message in three pieces. The last piece arrives, then a SACK, then the others: the SACK
acknowledges the last piece only. -/
theorem first_chunks_kept_until_accepted :
    ∃ l, (linkSystem smallLink).ReachableUnder (fun l _ => l.InReach) l ∧
      smallLink.Room l.written ∧
      l.sender.inflightQueue.chunks.map InflightChunk.acked = [false, false, true] ∧
      ∀ c ∈ l.wire,
        (∃ f ∈ l.sender.inflightQueue.chunks, f.acked = false ∧ f.chunk = c) ∨
          sna32LTE c.tsn l.receiver.payloadQueue.cumulativeTSN = true ∨
          l.receiver.payloadQueue.hasChunk c.tsn = true := by
  let events : List LinkEvent :=
    [.openStream 1, .write 1 [1, 2, 3, 4, 5, 6, 7, 8, 9] 51, .gather [] 0 0, .deliver 2, .sack,
      .deliver 1, .deliverSack 0, .t3Timeout, .gather [] 1 0]
  have hrun : ((linkSystem smallLink).runUnder (fun l _ => l.InReach) (Link.init smallLink)
      events).map (fun l => (l.sender.inflightQueue.chunks.map InflightChunk.acked,
        decide (smallLink.Room l.written),
        decide (smallLink.initialTSN.toNat +
          chunkCount smallLink.maxPayloadSize l.written < 2 ^ 32))) =
        some ([false, false, true], true, true) := by
    decide +kernel
  obtain ⟨l, hreach, hend⟩ := StepSystem.exists_of_runUnder hrun
  simp only [Prod.mk.injEq, decide_eq_true_eq] at hend
  obtain ⟨hacked, hroom, hwrap⟩ := hend
  exact ⟨l, hreach, hroom, hacked,
    (chunks_kept_until_accepted smallLink (by decide) hreach hroom hwrap).2⟩

/-! ### Behind the wrap -/

/-- Acknowledging a number does not move the chunks. -/
theorem tsn_ackOffset {cum : TSN} {w w' : Sender.AckWork} {d : Nat}
    (h : Sender.ackOffset cum w d = .ok w') :
    w'.queue.chunks.map (fun c => c.chunk.tsn) = w.queue.chunks.map fun c => c.chunk.tsn := by
  unfold Sender.ackOffset at h
  simp only at h
  split at h
  · cases h
  · cases h
    split
    · rfl
    · show (w.queue.markAsAcked _).1.chunks.map _ = _
      unfold PayloadQueue.markAsAcked
      split
      · rfl
      · unfold PayloadQueue.modify
        dsimp only
        split
        · rfl
        · apply List.ext_getElem
          · simp
          · intro k h1 h2
            rw [List.getElem_map, List.getElem_map, List.getElem_modify]
            split <;> rfl

/-- An offset that leads to a plain smaller TSN than the first one in flight is not found. -/
theorem ackOffsets_error {cum head : TSN} (offsets : List Nat) {w : Sender.AckWork}
    (hhead : (w.queue.chunks.map fun c => c.chunk.tsn).head? = some head) {d : Nat}
    (hd : d ∈ offsets) (hwrap : cum + BitVec.ofNat 32 d < head) :
    ∃ e w', offsets.foldlM (Sender.ackOffset cum) w = .error (e, w') := by
  induction offsets generalizing w with
  | nil => cases hd
  | cons i offsets ih =>
      rw [List.foldlM_cons]
      cases hi : Sender.ackOffset cum w i with
      | error e => exact ⟨e.1, e.2, rfl⟩
      | ok w' =>
          rcases List.mem_cons.mp hd with rfl | hd
          · -- the first comparison of `get` is one of plain numbers
            have hnone : w.queue.get (cum + BitVec.ofNat 32 d) = none := by
              unfold PayloadQueue.get PayloadQueue.index
              cases hq : w.queue.chunks with
              | nil => rfl
              | cons c rest =>
                  rw [hq] at hhead
                  have hc : c.chunk.tsn = head := by simpa using hhead
                  simp only [hc, hwrap, true_or, if_true, Option.bind_none]
            unfold Sender.ackOffset at hi
            simp only [hnone] at hi
            cases hi
          · exact ih (tsn_ackOffset hi ▸ hhead) hd

/-- `handleSack` fails on a SACK for the sender's cumulative TSN when one of its gap blocks reports
a TSN that is a smaller number than the first TSN in flight. The peer sends one whenever the first
chunk in flight is lost before a wrap of the TSNs and one behind the wrap arrives. The association
goes on with the cumulative TSN and the amounts of its streams as they were. -/
theorem sack_over_wrap_fails (s : Sender) (sack : SelectiveAck) (hstate : s.state.processes = true)
    (hcum : sack.cumulativeTSNAck = s.cumulativeTSNAckPoint) {first : InflightChunk}
    (hfirst : s.inflightQueue.chunks.head? = some first) {b : GapAckBlock}
    (hb : b ∈ sack.gapAckBlocks) {d : Nat} (hlo : b.start.toNat ≤ d) (hhi : d ≤ b.stop.toNat)
    (hwrap : sack.cumulativeTSNAck + BitVec.ofNat 32 d < first.chunk.tsn) :
    ∃ e s', s.handleSack sack = .error (e, s') ∧ s'.state = s.state ∧
      s'.cumulativeTSNAckPoint = s.cumulativeTSNAckPoint ∧ s'.streams = s.streams := by
  have hoffset : d ∈ sack.gapAckBlocks.flatMap Sender.blockOffsets := by
    refine List.mem_flatMap.mpr ⟨b, hb, List.mem_append_left _ ?_⟩
    rw [List.mem_range'_1]
    omega
  have hnotLTE : sna32LTE (s.cumulativeTSNAckPoint + 1#32) s.cumulativeTSNAckPoint = false := by
    have h := serialLTE_base_iff (a := s.cumulativeTSNAckPoint) (m := 1) (show 0 < 32 by omega)
      (by omega)
    rw [← Bool.not_eq_true]
    intro hle
    rcases h.mp hle with h | h
    · omega
    · exact absurd h (by decide)
  have hself : sna32GT s.cumulativeTSNAckPoint s.cumulativeTSNAckPoint = false := by
    rw [← Bool.not_eq_true]
    intro hgt
    have := (serialGT_iff (show 0 < 32 by omega) _ _).mp hgt
    rw [ahead_self] at this
    omega
  have hhead : (s.inflightQueue.chunks.map fun c => c.chunk.tsn).head? =
      some first.chunk.tsn := by
    rw [List.head?_map, hfirst]
    rfl
  obtain ⟨e, w, he⟩ := ackOffsets_error (sack.gapAckBlocks.flatMap Sender.blockOffsets)
    (w := { queue := s.inflightQueue
            bytes := []
            inFastRecovery := s.inFastRecovery
            htna := sack.cumulativeTSNAck }) hhead hoffset hwrap
  have hprocess : s.processSelectiveAck sack = .error (e, w) := by
    unfold Sender.processSelectiveAck Sender.popAcked
    simp only [hcum, hnotLTE, Bool.false_eq_true, if_false]
    rw [hcum] at he
    exact he
  -- the error comes before the cumulative TSN moves and the bytes are released
  refine ⟨e, s.withWork w, ?_, rfl, rfl, rfl⟩
  unfold Sender.handleSack
  rw [hstate, hcum, hself, hprocess]
  rfl

/-- A link whose second chunk gets the TSN 0. It arrives and the first one is lost. -/
theorem second_chunk_over_wrap_fails :
    ∃ l, (linkSystem { smallLink with initialTSN := 4294967295 }).Reachable l ∧
      ∃ sack ∈ l.sacks, ∃ e s', l.sender.handleSack sack = .error (e, s') ∧
        s'.cumulativeTSNAckPoint = 4294967294 := by
  let cfg : LinkConfig := { smallLink with initialTSN := 4294967295 }
  let sack : SelectiveAck :=
    { cumulativeTSNAck := 4294967294
      advertisedReceiverWindowCredit := 4092
      gapAckBlocks := [⟨2, 2⟩]
      duplicateTSN := [] }
  have hrun : ((linkSystem cfg).runUnder (fun _ _ => True) (Link.init cfg)
      [.openStream 1, .write 1 [1, 2, 3, 4, 5, 6, 7, 8] 51, .gather [] 0 0, .deliver 1, .sack]).map
        (fun l => (l.sender.state, l.sender.cumulativeTSNAckPoint,
          l.sender.inflightQueue.chunks.head?.map (fun c => c.chunk.tsn), l.sacks)) =
      some (.established, 4294967294, some 4294967295, [sack]) := by
    decide +kernel
  obtain ⟨l, hreach, hend⟩ := StepSystem.exists_of_runUnder hrun
  simp only [Prod.mk.injEq] at hend
  obtain ⟨hstate, hpoint, hhead, hsacks⟩ := hend
  obtain ⟨first, hfirst, htsn⟩ := Option.map_eq_some_iff.mp hhead
  refine ⟨l, hreach, sack, by rw [hsacks]; exact List.mem_singleton.mpr rfl, ?_⟩
  obtain ⟨e, s', herror, -, hsame, -⟩ := sack_over_wrap_fails l.sender sack (by rw [hstate]; rfl)
    hpoint.symm hfirst (b := ⟨2, 2⟩) (List.mem_singleton.mpr rfl) (d := 2) (by decide) (by decide)
    (by rw [htsn]; decide)
  exact ⟨e, s', herror, hsame.trans hpoint⟩

end PionBridge.Sctp
