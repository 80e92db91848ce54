import Mathlib.Data.List.Perm.Subperm
import PionBridge.Proofs.Sctp.Intake
import PionBridge.Proofs.Sctp.Outbound

/-!
# `PionBridge.Proofs.Sctp.Delivery`: what was written is what is read

The two halves of a link together (`Carries`): what travels are pieces of messages that were begun,
and what was read are messages that have arrived whole. Every event keeps this (`carries_step`),
whatever the network loses, repeats or reorders. So the ordered messages of a stream are read in the
order in which they were written, and each unordered message is read at most once, all with their
data (`messages_arrive_as_written`).

Three things are assumed. The numbers of the chunks lie in half of the range of the TSNs. The
receiver's window does not alias over a wrap. And no stream has more than 32768 ordered messages
that were written and not read, since sequence numbers have 16 bits.
-/

set_option autoImplicit false

namespace PionBridge.Sctp

open PionBridge.Lib ReceiveWindow

/-- The number of the first chunk. -/
def LinkConfig.base (cfg : LinkConfig) : Nat := (cfg.initialTSN - 1#32).toNat + 1

/-- The size of the receiver's window. -/
def LinkConfig.span (cfg : LinkConfig) : Nat :=
  (ReceiveWindow.new (getMaxTSNOffset cfg.maxReceiveBufferSize)).size

/-- The chunks of the messages have room in half of the range of the TSNs, and the window is level
where they are. -/
def LinkConfig.Room (cfg : LinkConfig) (written : List Message) : Prop :=
  chunkCount cfg.maxPayloadSize written < 2 ^ 31 ∧
    (cfg.span ∣ 2 ^ 32 ∨
      cfg.base + chunkCount cfg.maxPayloadSize written + cfg.span < 2 ^ 32)

instance (cfg : LinkConfig) (written : List Message) : Decidable (cfg.Room written) :=
  inferInstanceAs (Decidable (_ ∧ _))

/-- At most 32768 ordered messages of a stream were written and not read. -/
def Link.InReach (l : Link) : Prop :=
  ∀ m ∈ l.written,
    (Link.ordered m.si l.written).length ≤ (Link.ordered m.si l.delivered).length + 2 ^ 15

instance (l : Link) : Decidable l.InReach :=
  inferInstanceAs (Decidable (∀ m ∈ l.written, _))

/-! ### The numbers of the sender -/

section Range

variable {base span size n : Nat} {written : List Message} {s : Sender} {o : Outbox} {m : Sent}

/-- The numbers of a message that was begun are among those of what was written. -/
theorem Sending.stop_le (h : Sending base size written s o n) (hm : m ∈ o.begun) :
    m.stop ≤ base + chunkCount size written := by
  have hroom := h.room
  rcases h.numbered.high m hm with hle | ⟨k, hk⟩
  · omega
  · have hn := (h.numbered.current m k hk).2
    have hrest : (o.rest m.unordered).length = m.len - k := by
      unfold Outbox.rest
      rw [hk]
      simp
    have hqueue := congrArg List.length (h.queues.queue m.unordered)
    rw [List.length_append, hrest] at hqueue
    have hall : (s.pendingQueue.policy.queue m.unordered).length ≤
        s.pendingQueue.policy.all.length := by
      unfold MessagePolicy.all
      rw [List.length_append]
      cases m.unordered <;> omega
    unfold Sent.stop
    omega

/-- What was begun is part of the line of its kind. -/
theorem Outbox.mem_line (hm : m ∈ o.begun) : m.unplaced ∈ o.line m.unordered :=
  List.mem_map_of_mem (List.mem_append_left _ (List.mem_filter.mpr ⟨hm, by simp⟩))

theorem Sending.planned (h : Sending base size written s o n)
    (hroom : chunkCount size written < 2 ^ 31) (si : StreamId) :
    Planned si (planOf si o.begun) := by
  have hseqs : o.begun.Pairwise fun m m' =>
      m.unordered = false → m'.unordered = false → m.si = m'.si → m.seq < m'.seq := by
    have hline := h.tracks.seqs
    unfold Outbox.line at hline
    rw [List.pairwise_map] at hline
    have hbegun := List.pairwise_filter.mp (List.pairwise_append.mp hline).1
    refine hbegun.imp ?_
    intro m m' hlt ho ho' hsi
    exact hlt (by simp [ho]) (by simp [ho']) hsi
  exact
    { apart := h.numbered.apart.filter _
      seqs := by
        unfold planOf
        rw [List.pairwise_filter]
        refine hseqs.imp ?_
        intro m m' hlt hm hm' ho ho'
        exact hlt ho ho' ((eq_of_beq hm).trans (eq_of_beq hm').symm)
      pieces := fun m hm => (h.tracks.cut _ _ (Outbox.mem_line (mem_planOf.mp hm).1)).2.1
      stream := fun m hm => (mem_planOf.mp hm).2
      near := by
        intro m hm m' hm'
        have hstop := h.stop_le (mem_planOf.mp hm).1
        have hlow := h.numbered.low m' (mem_planOf.mp hm').1
        omega }

theorem Sending.range (h : Sending base size written s o n)
    (hroom : chunkCount size written < 2 ^ 31)
    (hlevel : span ∣ 2 ^ 32 ∨ base + chunkCount size written + span < 2 ^ 32) :
    Range base span o.begun n := by
  have hn := h.room
  exact
    { apart := h.numbered.apart
      low := h.numbered.low
      planned := h.planned hroom
      near := by omega
      level := hlevel.imp_right fun hlt => by omega }

end Range

/-! ### The sender's events -/

theorem maxPayloadSize_pos {cfg : LinkConfig} (hmtu : 28 < cfg.mtu.toNat) :
    0 < cfg.maxPayloadSize := by
  unfold LinkConfig.maxPayloadSize
  rw [BitVec.toNat_sub]
  have := cfg.mtu.isLt
  simp [commonHeaderSize, chunkHeaderSize, payloadDataHeaderSize]
  omega

/-- The number of chunks that an event sends for the first time. -/
def Link.newCount (l : Link) : LinkEvent → Nat
  | .gather allow rtx _ => (l.sender.newChunks allow rtx).length
  | _ => 0

section Events

variable {cfg : LinkConfig} {l l' : Link} {o : Outbox} {n : Nat}

/-- Every event keeps what the sender holds, and what travels was sent. -/
theorem sending_step (hmtu : 28 < cfg.mtu.toNat) {e : LinkEvent} (hstep : l.step e = some l')
    (h : Sending cfg.base cfg.maxPayloadSize l.written l.sender o n)
    (hwire : ∀ c ∈ l.wire, o.Sends n c) :
    ∃ o', Sending cfg.base cfg.maxPayloadSize l'.written l'.sender o' (n + l.newCount e) ∧
      Grows o n o' (n + l.newCount e) ∧ ∀ c ∈ l'.wire, o'.Sends (n + l.newCount e) c := by
  have hsame {k : Link} (hk : Sending cfg.base cfg.maxPayloadSize k.written k.sender o n)
      (hw : k.wire = l.wire) :
      ∃ o', Sending cfg.base cfg.maxPayloadSize k.written k.sender o' n ∧
        Grows o n o' n ∧ ∀ c ∈ k.wire, o'.Sends n c :=
    ⟨o, hk, .refl o n, hw ▸ hwire⟩
  cases e with
  | openStream si =>
      cases hstep
      exact hsame (h.openStream si) rfl
  | setReliabilityParams si unordered =>
      obtain ⟨st, hst, rfl⟩ := Option.map_eq_some_iff.mp hstep
      exact hsame (h.setReliabilityParams (mem_of_findStream hst).1 unordered) rfl
  | write si payload ppi =>
      cases hstep
      unfold Link.write
      split
      · rename_i s len hw
        obtain ⟨o', hs, hg⟩ := h.write (maxPayloadSize_pos hmtu) hw
        exact ⟨o', hs, hg, fun c hc => (hwire c hc).grows hg⟩
      · rename_i s err hw
        rw [writeSCTP_error h.distinct hw]
        exact hsame h rfl
  | shutdown =>
      cases hstep
      exact hsame (h.keeps (Sender.shutdown_quiet _).keeps) rfl
  | gather allow rtx fast =>
      cases hstep
      obtain ⟨o', hs, hg, hout⟩ := h.gather (BitVec.isLt _) allow rtx fast
      refine ⟨o', hs, hg, ?_⟩
      intro c hc
      rcases List.mem_append.mp hc with hold | hnew
      · exact (hwire c hold).grows hg
      · exact hout c hnew
  | t3Timeout =>
      cases hstep
      exact hsame (h.keeps (Sender.onT3Timeout_quiet _).keeps) rfl
  | markLost t =>
      cases hstep
      exact hsame (h.keeps (Sender.markLost_quiet _ t).keeps) rfl
  | peerShutdown =>
      cases hstep
      exact hsame (h.keeps (Sender.handleShutdown_quiet _).keeps) rfl
  | deliver j =>
      obtain ⟨c, -, rfl⟩ := Option.map_eq_some_iff.mp hstep
      exact hsame h rfl
  | deliverSack j =>
      -- whatever the SACK says, and whether it fails or not
      obtain ⟨sack, -, rfl⟩ := Option.map_eq_some_iff.mp hstep
      have hkeeps := Sender.handleSack_keeps l.sender sack
      unfold Link.deliverSack
      split
      · rename_i s hok
        rw [hok] at hkeeps
        exact hsame (h.keeps hkeeps) rfl
      · rename_i e s herror
        rw [herror] at hkeeps
        exact hsame (h.keeps hkeeps) rfl
  | receiverOpen si =>
      cases hstep
      exact hsame h rfl
  | receiverAccept =>
      cases hstep
      exact hsame h rfl
  | receiverState state =>
      cases hstep
      exact hsame h rfl
  | read si len =>
      cases hstep
      unfold Link.read
      dsimp only
      split <;> exact hsame h rfl
  | sack =>
      cases hstep
      exact hsame h rfl

/-- At the start nothing is sent. -/
theorem sending_init (cfg : LinkConfig) :
    Sending cfg.base cfg.maxPayloadSize [] (Link.init cfg).sender Outbox.empty cfg.base := by
  have hbase : tsn cfg.base = cfg.initialTSN := by
    unfold LinkConfig.base tsn
    rw [BitVec.ofNat_add, BitVec.ofNat_toNat, BitVec.setWidth_eq, BitVec.sub_add_cancel]
  exact
    { queues := queues_empty
      counted := ⟨rfl, rfl⟩
      sorted :=
        { waiting := fun _ m hm => by cases hm
          current := fun _ _ h => by cases h }
      numbered :=
        { base_le := Nat.le_refl _
          apart := List.Pairwise.nil
          low := fun m hm => by cases hm
          high := fun m hm => by cases hm
          current := fun _ _ h => by cases h
          all := fun j hlo hhi => by omega }
      tracks :=
        { cut := fun _ m hm => by cases hm
          ordered := fun m hm => by cases hm
          seqs := List.Pairwise.nil
          unordered := List.Perm.nil }
      next := hbase.symm
      payload := rfl
      streams := fun st hst => by cases hst
      distinct := List.nodup_nil
      opened := fun m hm => by cases hm
      room := rfl
      flight := fun c hc => by cases hc }

end Events

/-! ### The link -/

/-- The sender has the outbox `o` with the next number `n`, the receiver the intake `x`. -/
structure Carries (cfg : LinkConfig) (l : Link) (o : Outbox) (n : Nat) (x : Intake) : Prop where
  sending : Sending cfg.base cfg.maxPayloadSize l.written l.sender o n
  receives : Receives cfg.base cfg.span o.begun n l.receiver x
  wire : ∀ c ∈ l.wire, o.Sends n c
  delivered : ∀ si, (l.delivered.filter fun m => m.si == si) =
    (x.boxes si).read.map Sent.message

section Carries

variable {cfg : LinkConfig} {l : Link} {o : Outbox} {n : Nat} {x : Intake}

theorem Carries.range (h : Carries cfg l o n x) (hroom : cfg.Room l.written) :
    Range cfg.base cfg.span o.begun n :=
  h.sending.range hroom.1 hroom.2

/-- The sender does a step. -/
theorem Carries.advance (h : Carries cfg l o n x) {l' : Link} {o' : Outbox} {n' : Nat}
    (hs : Sending cfg.base cfg.maxPayloadSize l'.written l'.sender o' n') (hg : Grows o n o' n')
    (hroom : cfg.Room l'.written) (hwire : ∀ c ∈ l'.wire, o'.Sends n' c)
    (hreceiver : l'.receiver = l.receiver) (hdelivered : l'.delivered = l.delivered) :
    Carries cfg l' o' n' x := by
  obtain ⟨new, hbegun, hnew⟩ := hg.begun
  have hrange := hs.range hroom.1 hroom.2
  exact
    { sending := hs
      receives := by
        rw [hbegun] at hrange ⊢
        rw [hreceiver]
        exact h.receives.grow hrange hg.le hnew
      wire := hwire
      delivered := hdelivered ▸ h.delivered }

/-- The ordered messages that were read. -/
theorem Carries.ordered_delivered (h : Carries cfg l o n x) (si : StreamId) :
    Link.ordered si l.delivered =
      ((x.boxes si).read.filter fun m => !m.unordered).map Sent.message := by
  have hfilter : Link.ordered si l.delivered =
      (l.delivered.filter fun m => m.si == si).filter fun m => !m.unordered := by
    unfold Link.ordered
    rw [List.filter_filter]
    exact List.filter_congr fun m _ => Bool.and_comm _ _
  rw [hfilter, h.delivered, List.filter_map]
  rfl

theorem Carries.unordered_delivered (h : Carries cfg l o n x) (si : StreamId) :
    Link.unordered si l.delivered =
      ((x.boxes si).read.filter fun m => m.unordered).map Sent.message := by
  have hfilter : Link.unordered si l.delivered =
      (l.delivered.filter fun m => m.si == si).filter fun m => m.unordered := by
    unfold Link.unordered
    rw [List.filter_filter]
    exact List.filter_congr fun m _ => Bool.and_comm _ _
  rw [hfilter, h.delivered, List.filter_map]
  rfl

/-- The place of the next ordered message is the number of those that were read. -/
theorem Carries.next_eq (h : Carries cfg l o n x) (si : StreamId) :
    (x.boxes si).next = (Link.ordered si l.delivered).length := by
  have hplaces := congrArg List.length (h.receives.sound si).in_order
  rw [List.length_map, List.length_range] at hplaces
  rw [h.ordered_delivered, List.length_map, hplaces]

/-- A message that was begun was written, at its place if it is ordered. -/
theorem Carries.written_at (h : Carries cfg l o n x) {m : Sent} (hm : m ∈ o.begun)
    (ho : m.unordered = false) : (Link.ordered m.si l.written)[m.seq]? = some m.message :=
  h.sending.tracks.ordered m.unplaced (ho ▸ Outbox.mem_line hm)

/-- The sequence numbers of what is on the way are near. -/
theorem Carries.near (h : Carries cfg l o n x) (hreach : l.InReach) {m : Sent} (hm : m ∈ o.begun)
    (ho : m.unordered = false) : m.seq < (x.boxes m.si).next + 2 ^ 15 := by
  obtain ⟨hlt, hget⟩ := List.getElem?_eq_some_iff.mp (h.written_at hm ho)
  have hmem : m.message ∈ Link.ordered m.si l.written := hget ▸ List.getElem_mem hlt
  have hle := hreach m.message (List.mem_filter.mp hmem).1
  rw [h.next_eq]
  exact Nat.lt_of_lt_of_le hlt hle

/-- A chunk that travels arrives. -/
theorem Carries.deliver (h : Carries cfg l o n x) (hroom : cfg.Room l.written) (hreach : l.InReach)
    {c : PayloadData} (hc : c ∈ l.wire) :
    ∃ y, Carries cfg { l with receiver := l.receiver.handleData c.onWire } o n y ∧
      x.accepted ⊆ y.accepted := by
  obtain ⟨m, hm, i, hi, hlt, rfl⟩ := h.wire c hc
  rw [Sent.onWire_sent]
  obtain ⟨y, hy, hnext⟩ := h.receives.handleData (h.range hroom) hm hi hlt (h.near hreach hm)
  rcases hnext.rest with ⟨haccepted, hboxes⟩ | ⟨haccepted, hboxes⟩
  · refine ⟨y, { h with receives := hy, delivered := ?_ }, haccepted ▸ Finset.Subset.refl _⟩
    intro si
    rw [h.delivered, hboxes]
  · refine ⟨y, { h with receives := hy, delivered := ?_ }, haccepted ▸ Finset.subset_insert _ _⟩
    intro si
    rw [h.delivered, hboxes]
    unfold Intake.arrive
    dsimp only
    split <;> rfl

/-- What a read of the inbox gives. -/
theorem Inbox.take_cases {si : StreamId} {plan : List Sent} {b : Inbox} (hp : Planned si plan)
    (hs : b.Sound plan) (len : Nat) :
    (∃ m ∈ plan, (b.take plan len).1.read = b.read ++ [m] ∧
      (b.take plan len).2 = .message m.data m.ppi ∧ m.unordered = !b.queued.isEmpty) ∨
    ((b.take plan len).1 = b ∧ ∀ data ppi, (b.take plan len).2 ≠ .message data ppi) := by
  unfold Inbox.take
  split
  · rename_i _ m rest hq
    have hm : m ∈ b.queued := hq ▸ List.mem_cons_self
    split
    · exact .inr ⟨rfl, fun _ _ h => by cases h⟩
    · refine .inl ⟨m, hs.mem_plan m (List.mem_append_left _ hm), rfl, rfl, ?_⟩
      rw [hs.queued_unordered m hm, hq]
      rfl
  · rename_i m hq hr
    obtain ⟨hm, ho, -⟩ := (ready_eq_some_iff hp).mp hr
    split
    · exact .inr ⟨rfl, fun _ _ h => by cases h⟩
    · refine .inl ⟨m, hm, rfl, rfl, ?_⟩
      rw [ho, hq]
      rfl
  · exact .inr ⟨rfl, fun _ _ h => by cases h⟩

/-- The application reads. -/
theorem Carries.read (h : Carries cfg l o n x) (hroom : cfg.Room l.written) (si : StreamId)
    (len : Nat) : ∃ y, Carries cfg (l.read si len) o n y ∧ y.accepted = x.accepted := by
  unfold Link.read
  cases hfind : l.receiver.findStream si with
  | none =>
      refine ⟨x, ?_, rfl⟩
      have hnone : l.receiver.readSCTP si len = (l.receiver, .tryAgain) := by
        unfold Receiver.readSCTP
        rw [hfind]
      simp only [hnone]
      exact h
  | some r =>
      have hrange := h.range hroom
      obtain ⟨hread, hresult⟩ := h.receives.readSCTP hrange hfind len
      obtain ⟨hr, hsi⟩ := mem_of_findQueue hfind
      have hqueued : (x.boxes si).queued.isEmpty = r.unordered.isEmpty := by
        have hassembles := h.receives.assembles r hr
        rw [hassembles.unordered, hsi, List.isEmpty_map]
      have hp := hrange.planned si
      rcases Inbox.take_cases hp (h.receives.sound si) len with
        ⟨m, hm, htaken, hmessage, hkind⟩ | ⟨hsame, hnone⟩
      · have hpair : l.receiver.readSCTP si len =
            ((l.receiver.readSCTP si len).1, .message m.data m.ppi) :=
          Prod.ext rfl (hresult.trans hmessage)
        have hm' : Message.mk si ((some r).any fun r => !r.unordered.isEmpty) m.data m.ppi =
            m.message := by
          rw [Option.any_some, ← hqueued, ← hkind, ← (mem_planOf.mp hm).2]
          rfl
        rw [hpair]
        dsimp only
        rw [hm']
        refine ⟨_, { h with receives := hread, delivered := ?_ }, rfl⟩
        intro si'
        show (l.delivered ++ [m.message]).filter (fun m => m.si == si') = _
        rw [List.filter_append, h.delivered si']
        dsimp only
        by_cases heq : si' = si
        · subst heq
          rw [if_pos rfl, htaken, List.map_append]
          have hsi' : m.message.si = si' := (mem_planOf.mp hm).2
          simp [hsi']
        · have hsi' : m.message.si ≠ si' := fun hsi' => heq (hsi' ▸ (mem_planOf.mp hm).2)
          rw [if_neg heq]
          simp [hsi']
      · dsimp only
        split
        · rename_i receiver data ppi hpair
          rw [hpair] at hresult
          exact absurd hresult.symm (hnone data ppi)
        · rename_i receiver result _ hpair
          rw [hpair] at hread
          refine ⟨_, { h with receives := hread, delivered := ?_ }, rfl⟩
          intro si'
          rw [h.delivered si']
          dsimp only
          by_cases heq : si' = si
          · subst heq
            rw [if_pos rfl, hsame]
          · rw [if_neg heq]

theorem Carries.receiverOpen (h : Carries cfg l o n x) (si : StreamId) :
    Carries cfg { l with receiver := l.receiver.openStream si } o n x :=
  { h with receives := (h.receives.getOrCreateStream si false).1 }

end Carries

/-! ### Runs -/

/-- Events add to what was written. -/
theorem written_step {l l' : Link} {e : LinkEvent} (h : l.step e = some l') :
    ∃ ms, l'.written = l.written ++ ms := by
  have hsame {k : Link} (hk : k.written = l.written) : ∃ ms, k.written = l.written ++ ms :=
    ⟨[], by rw [hk, List.append_nil]⟩
  cases e with
  | write si payload ppi =>
      cases h
      unfold Link.write
      split
      · exact ⟨_, rfl⟩
      · exact hsame rfl
  | read si len =>
      cases h
      unfold Link.read
      dsimp only
      split <;> exact hsame rfl
  | setReliabilityParams si unordered =>
      obtain ⟨st, -, rfl⟩ := Option.map_eq_some_iff.mp h
      exact hsame rfl
  | deliver j =>
      obtain ⟨c, -, rfl⟩ := Option.map_eq_some_iff.mp h
      exact hsame rfl
  | deliverSack j =>
      obtain ⟨sack, -, rfl⟩ := Option.map_eq_some_iff.mp h
      unfold Link.deliverSack
      split <;> exact hsame rfl
  | openStream si => cases h; exact hsame rfl
  | shutdown => cases h; exact hsame rfl
  | gather allow rtx fast => cases h; exact hsame rfl
  | t3Timeout => cases h; exact hsame rfl
  | markLost t => cases h; exact hsame rfl
  | peerShutdown => cases h; exact hsame rfl
  | receiverOpen si => cases h; exact hsame rfl
  | receiverAccept => cases h; exact hsame rfl
  | receiverState state => cases h; exact hsame rfl
  | sack => cases h; exact hsame rfl

/-- Room for what was written later is room for what was written before. -/
theorem LinkConfig.Room.before {cfg : LinkConfig} {ms ms' : List Message}
    (h : cfg.Room (ms ++ ms')) : cfg.Room ms := by
  unfold LinkConfig.Room at h ⊢
  rw [chunkCount_append] at h
  exact ⟨by omega, h.2.imp_right fun hlt => by omega⟩

/-- Every event keeps what the two ends carry. -/
theorem carries_step {cfg : LinkConfig} (hmtu : 28 < cfg.mtu.toNat) {l l' : Link} {e : LinkEvent}
    (hstep : l.step e = some l') (hreach : l.InReach) (hroom : cfg.Room l'.written) {o : Outbox}
    {n : Nat} {x : Intake} (h : Carries cfg l o n x) :
    ∃ o' x', Carries cfg l' o' (n + l.newCount e) x' ∧ x.accepted ⊆ x'.accepted := by
  have hsub : x.accepted ⊆ x.accepted := Finset.Subset.refl _
  have hbefore : cfg.Room l.written := by
    obtain ⟨ms, hms⟩ := written_step hstep
    rw [hms] at hroom
    exact hroom.before
  obtain ⟨o', hs, hg, hw⟩ := sending_step hmtu hstep h.sending h.wire
  have hadvance := h.advance hs hg hroom hw
  cases e with
  | openStream si =>
      cases hstep
      exact ⟨o', x, hadvance rfl rfl, hsub⟩
  | setReliabilityParams si unordered =>
      obtain ⟨st, -, rfl⟩ := Option.map_eq_some_iff.mp hstep
      exact ⟨o', x, hadvance rfl rfl, hsub⟩
  | write si payload ppi =>
      cases hstep
      refine ⟨o', x, hadvance ?_ ?_, hsub⟩
      · unfold Link.write
        split <;> rfl
      · unfold Link.write
        split <;> rfl
  | shutdown =>
      cases hstep
      exact ⟨o', x, hadvance rfl rfl, hsub⟩
  | gather allow rtx fast =>
      cases hstep
      exact ⟨o', x, hadvance rfl rfl, hsub⟩
  | t3Timeout =>
      cases hstep
      exact ⟨o', x, hadvance rfl rfl, hsub⟩
  | markLost t =>
      cases hstep
      exact ⟨o', x, hadvance rfl rfl, hsub⟩
  | peerShutdown =>
      cases hstep
      exact ⟨o', x, hadvance rfl rfl, hsub⟩
  | deliver j =>
      obtain ⟨c, hc, rfl⟩ := Option.map_eq_some_iff.mp hstep
      obtain ⟨y, hy, hmore⟩ := h.deliver hbefore hreach (List.mem_of_getElem? hc)
      exact ⟨o, y, hy, hmore⟩
  | deliverSack j =>
      obtain ⟨sack, -, rfl⟩ := Option.map_eq_some_iff.mp hstep
      refine ⟨o', x, hadvance ?_ ?_, hsub⟩
      · unfold Link.deliverSack
        split <;> rfl
      · unfold Link.deliverSack
        split <;> rfl
  | receiverOpen si =>
      cases hstep
      exact ⟨o, x, h.receiverOpen si, hsub⟩
  | receiverAccept =>
      cases hstep
      exact ⟨o, x, { h with receives := { h.receives with } }, hsub⟩
  | receiverState state =>
      cases hstep
      exact ⟨o, x, { h with receives := { h.receives with } }, hsub⟩
  | read si len =>
      cases hstep
      obtain ⟨y, hy, hsame⟩ := h.read hbefore si len
      exact ⟨o, y, hy, hsame ▸ hsub⟩
  | sack =>
      cases hstep
      exact ⟨o, _, { h with receives := h.receives.createSelectiveAckChunk }, hsub⟩

/-- At the start nothing is carried. -/
theorem carries_init (cfg : LinkConfig) :
    Carries cfg (Link.init cfg) Outbox.empty cfg.base
      (Intake.init ((ReceiveWindow.new (getMaxTSNOffset cfg.maxReceiveBufferSize)).init
        (cfg.initialTSN - 1#32))) := by
  obtain ⟨hpos, hsmall⟩ := size_new_getMaxTSNOffset cfg.maxReceiveBufferSize
  have hnone : ∀ m ∈ ([] : List Sent), m.arrived (∅ : Finset Nat) = [] := by simp
  have hfresh (si : StreamId) : Inbox.empty.Fresh (planOf si []) :=
    { next := rfl, queued := rfl, read := rfl, arrived := hnone }
  have hplanned (si : StreamId) : Planned si (planOf si []) :=
    { apart := List.Pairwise.nil
      seqs := List.Pairwise.nil
      pieces := fun m hm => by cases hm
      stream := fun m hm => by cases hm
      near := fun m hm => by cases hm }
  exact
    { sending := sending_init cfg
      receives :=
        { holds := (holds_new hpos (by omega)).init _
          size := rfl
          covers :=
            { accepted := by
                intro j
                show j ∈ (∅ : Finset Nat) ↔ (cfg.base ≤ j ∧
                  j ≤ (cfg.initialTSN - 1#32).toNat) ∨ j ∈ (∅ : Finset Nat)
                have hempty : j ∉ (∅ : Finset Nat) := Finset.notMem_empty j
                simp only [hempty, false_iff, or_false, LinkConfig.base]
                omega
              bounds := ⟨Nat.le_refl _, Nat.lt_succ_self _⟩
              below := fun j hj => absurd hj (Finset.notMem_empty _) }
          received := fun _ => rfl
          sound := fun si => (hfresh si).sound (hplanned si)
          assembles := fun r hr => by cases hr
          distinct := List.nodup_nil
          closed := fun si _ => hfresh si }
      wire := fun c hc => by cases hc
      delivered := fun _ => rfl }

/-- In every run with room the two ends carry what was written. -/
theorem carries_of_reachable {cfg : LinkConfig} (hmtu : 28 < cfg.mtu.toNat) {l : Link}
    (hl : (linkSystem cfg).ReachableUnder (fun l _ => l.InReach) l) (hroom : cfg.Room l.written) :
    ∃ o n x, Carries cfg l o n x := by
  refine StepSystem.StepsUnder.invariant
    (I := fun l => cfg.Room l.written → ∃ o n x, Carries cfg l o n x) hl
    (fun _ => ⟨_, _, _, carries_init cfg⟩) ?_ hroom
  intro t e u _ hi hreach hstep hroom
  obtain ⟨ms, hms⟩ := written_step hstep
  obtain ⟨o, n, x, h⟩ := hi (hms ▸ hroom).before
  obtain ⟨o', x', h', -⟩ := carries_step hmtu hstep hreach hroom h
  exact ⟨o', _, x', h'⟩

/-! ### What is read -/

section Read

variable {cfg : LinkConfig} {l : Link} {o : Outbox} {n : Nat} {x : Intake}

/-- The ordered messages that were read are the first ones that were written. -/
theorem Carries.ordered_prefix (h : Carries cfg l o n x) (si : StreamId) :
    Link.ordered si l.delivered <+: Link.ordered si l.written := by
  have hs := h.receives.sound si
  have hplaces := hs.in_order
  rw [h.ordered_delivered]
  have htake : ((x.boxes si).read.filter fun m => !m.unordered).map Sent.message =
      (Link.ordered si l.written).take (x.boxes si).next := by
    apply List.ext_getElem?
    intro k
    have hk := congrArg (fun ks : List Nat => ks[k]?) hplaces
    simp only [List.getElem?_map] at hk
    rw [List.getElem?_map, List.getElem?_take]
    cases hm : ((x.boxes si).read.filter fun m => !m.unordered)[k]? with
    | none =>
        rw [hm, Option.map_none] at hk
        have hle : (x.boxes si).next ≤ k := by
          simpa using List.getElem?_eq_none_iff.mp hk.symm
        rw [if_neg (by omega)]
        rfl
    | some m =>
        rw [hm, Option.map_some] at hk
        obtain ⟨hlt, hseq⟩ := List.getElem?_eq_some_iff.mp hk.symm
        rw [List.length_range] at hlt
        rw [List.getElem_range] at hseq
        obtain ⟨hread, ho⟩ := List.mem_filter.mp (List.mem_of_getElem? hm)
        obtain ⟨hbegun, hsi⟩ := mem_planOf.mp (hs.mem_plan m (List.mem_append_right _ hread))
        have hat := h.written_at hbegun (by simpa using ho)
        rw [if_pos hlt, hseq, ← hsi, hat]
        rfl
  rw [htake]
  exact List.take_prefix _ _

/-- No empty message is read. -/
theorem Carries.data_ne_nil (h : Carries cfg l o n x) {si : StreamId} {m : Message}
    (hm : m ∈ Link.ordered si l.delivered) : m.data ≠ [] := by
  rw [h.ordered_delivered] at hm
  obtain ⟨y, hy, rfl⟩ := List.mem_map.mp hm
  have hplan := (h.receives.sound si).mem_plan y
    (List.mem_append_right _ (List.mem_filter.mp hy).1)
  exact (h.sending.tracks.cut _ _ (Outbox.mem_line (mem_planOf.mp hplan).1)).2.data_ne_nil

/-- Each unordered message that was read was written, and read once. -/
theorem Carries.unordered_subperm (h : Carries cfg l o n x) (si : StreamId) :
    (Link.unordered si l.delivered).Subperm (Link.unordered si l.written) := by
  have hs := h.receives.sound si
  -- what was read is begun, each message once
  have hread : ((x.boxes si).read.filter fun m => m.unordered).Subperm
      ((o.begun.filter fun m => m.unordered == true).filter fun m => m.si == si) := by
    apply List.Nodup.subperm
    · exact (List.nodup_append.mp hs.nodup).2.1.filter _
    · intro m hm
      obtain ⟨hin, hu⟩ := List.mem_filter.mp hm
      obtain ⟨hbegun, hsi⟩ := mem_planOf.mp (hs.mem_plan m (List.mem_append_right _ hin))
      exact List.mem_filter.mpr
        ⟨List.mem_filter.mpr ⟨hbegun, by simpa using hu⟩, by simpa using hsi⟩
  obtain ⟨ms, hperm, hsub⟩ := hread
  -- what was begun was written
  have hline : ((o.begun.filter fun m => m.unordered == true).filter fun m => m.si == si).map
      Sent.message |>.Sublist (((o.line true).map Sent.message).filter fun m => m.si == si) := by
    unfold Outbox.line
    rw [List.map_map, List.filter_map, List.filter_append]
    exact (List.sublist_append_left _ _).map _
  have hwritten : (((o.line true).map Sent.message).filter fun m => m.si == si).Subperm
      (Link.unordered si l.written) := by
    refine ((h.sending.tracks.unordered.filter _).subperm).trans (List.Sublist.subperm ?_)
    unfold Link.unordered
    rw [List.filter_filter]
    apply List.monotone_filter_right
    intro m hm
    simp only [Bool.and_eq_true] at hm
    simp [hm.1, hm.2.1]
  rw [h.unordered_delivered]
  exact List.Subperm.trans ⟨ms.map Sent.message, hperm.map _, hsub.map _⟩
    (hline.subperm.trans hwritten)

end Read

/-- Whatever the network loses, repeats or reorders, and whatever the applications, the windows and
the timers do: the ordered messages of a stream are read in the order in which they were written,
with their data and none left out, and none is read behind an empty one. Each unordered message is
read at most as often as it was written. -/
theorem messages_arrive_as_written (cfg : LinkConfig) (hmtu : 28 < cfg.mtu.toNat) {l : Link}
    (hl : (linkSystem cfg).ReachableUnder (fun l _ => l.InReach) l) (hroom : cfg.Room l.written)
    (si : StreamId) :
    Link.ordered si l.delivered <+:
        (Link.ordered si l.written).takeWhile (fun m => !m.data.isEmpty) ∧
      (Link.unordered si l.delivered).Subperm (Link.unordered si l.written) := by
  obtain ⟨o, n, x, h⟩ := carries_of_reachable hmtu hl hroom
  refine ⟨?_, h.unordered_subperm si⟩
  obtain ⟨later, hlater⟩ := h.ordered_prefix si
  have hdata : ∀ m ∈ Link.ordered si l.delivered, (!m.data.isEmpty) = true := by
    intro m hm
    simpa using h.data_ne_nil hm
  rw [← hlater, List.takeWhile_append_of_pos hdata]
  exact List.prefix_append _ _

/-- A link with small packets. -/
def smallLink : LinkConfig :=
  { initialTSN := 100
    mtu := 32
    maxMessageSize := 65536
    minCwnd := 0
    cwndCAStep := 0
    maxReceiveBufferSize := 4096
    receiverMtu := 1228 }

/-- A message in two pieces and an unordered one. The pieces arrive in another order and one of them
twice, and both messages are read. -/
theorem two_messages_arrive_as_written :
    ∃ l, (linkSystem smallLink).ReachableUnder (fun l _ => l.InReach) l ∧
      smallLink.Room l.written ∧
      l.delivered = [⟨1, true, [6], 53⟩, ⟨1, false, [1, 2, 3, 4, 5], 51⟩] ∧
      Link.ordered 1 l.delivered <+:
        (Link.ordered 1 l.written).takeWhile fun m => !m.data.isEmpty := by
  let events : List LinkEvent :=
    [.openStream 1, .write 1 [1, 2, 3, 4, 5] 51, .setReliabilityParams 1 true, .write 1 [6] 53,
      .gather [] 0 0, .deliver 2, .deliver 0, .sack, .deliver 2, .deliverSack 0, .deliver 1,
      .read 1 100, .read 1 100]
  have hrun : ((linkSystem smallLink).runUnder (fun l _ => l.InReach) (Link.init smallLink)
      events).map (fun l => (l.delivered, decide (smallLink.Room l.written))) =
        some ([⟨1, true, [6], 53⟩, ⟨1, false, [1, 2, 3, 4, 5], 51⟩], true) := by
    decide +kernel
  obtain ⟨l, hreach, hend⟩ := StepSystem.exists_of_runUnder hrun
  obtain ⟨hdelivered, hroom⟩ := Prod.mk.injEq .. ▸ hend
  have hroom : smallLink.Room l.written := of_decide_eq_true hroom
  exact ⟨l, hreach, hroom, hdelivered,
    (messages_arrive_as_written smallLink (by decide) hreach hroom 1).1⟩

end PionBridge.Sctp
