import PionBridge.Proofs.Sctp.Outbox

/-!
# `PionBridge.Proofs.Sctp.Sending`: what the sender does with the messages

The invariant of the sending half (`Sending`) has two parts. The messages of the outbox are the ones
that were written, cut into pieces (`Tracks`), and those that were begun have the numbers up to the
next TSN (`Outbox.Numbered`). A write adds a message (`Sending.write`), a move to the chunks in
flight gives the next number to the next piece (`Sending.move`), and so everything that
`gatherOutbound` sends is a piece of a message that was begun, with its own number
(`Sending.gather`).
-/

set_option autoImplicit false

namespace PionBridge.Sctp

open PionBridge.Lib ReceiveWindow

namespace Sent

/-- The chunk of the piece `i` as it is sent. -/
def sent (m : Sent) (i : Nat) : PayloadData := { m.out i with tsn := tsn (m.start + i) }

/-- It arrives as the chunk of that piece. -/
theorem onWire_sent (m : Sent) (i : Nat) : (m.sent i).onWire = m.chunk i := rfl

def message (m : Sent) : Message :=
  { si := m.si, unordered := m.unordered, data := m.data, ppi := m.ppi }

/-- The message before it has numbers. -/
def unplaced (m : Sent) : Sent := { m with start := 0 }

/-- There are pieces, and each of them has data and fits into a packet. -/
def Cut (size : Nat) (m : Sent) : Prop := 0 < m.len ∧ ∀ p ∈ m.pieces, p ≠ [] ∧ p.length ≤ size

theorem Cut.data_ne_nil {size : Nat} {m : Sent} (h : m.Cut size) : m.data ≠ [] := by
  intro hnil
  obtain ⟨p, hp⟩ := List.exists_mem_of_length_pos h.1
  exact (h.2 p hp).1 (List.flatten_eq_nil_iff.mp hnil p hp)

theorem cut_ofWrite {size : Nat} (hsize : 0 < size) (si : StreamId) (unordered : Bool) (seq : Nat)
    (payload : List UInt8) (ppi : PPI)
    (hlen : (ofWrite size si unordered seq payload ppi).len ≠ 0) :
    (ofWrite size si unordered seq payload ppi).Cut size :=
  ⟨Nat.pos_of_ne_zero hlen, pieces_bounds hsize⟩

/-- Only an empty message has no pieces. -/
theorem len_ofWrite_eq_zero {size : Nat} (hsize : 0 < size) (si : StreamId) (unordered : Bool)
    (seq : Nat) (payload : List UInt8) (ppi : PPI) :
    (ofWrite size si unordered seq payload ppi).len = 0 ↔ payload = [] := by
  unfold len
  rw [List.length_eq_zero_iff]
  exact pieces_eq_nil_iff hsize (Nat.le_refl _)

end Sent

/-! ### The counters of the pending queue -/

/-- All chunks of the queue. -/
def MessagePolicy.all (q : MessagePolicy) : List PayloadData := q.queue true ++ q.queue false

/-- The counters count the chunks and their bytes. -/
structure Counted (q : PendingQueue) : Prop where
  chunks : q.nChunks = q.policy.all.length
  bytes : q.nBytes = numBytes q.policy.all

namespace MessagePolicy

variable {q q' : MessagePolicy} {c : PayloadData}

theorem all_push (q : MessagePolicy) (c : PayloadData) : (q.push c).all.Perm (c :: q.all) := by
  unfold all
  rw [queue_push, queue_push]
  cases c.unordered with
  | true =>
      simp only [if_true, Bool.false_eq_true, if_false, List.append_assoc, List.singleton_append]
      exact List.perm_middle
  | false =>
      simp only [Bool.true_eq_false, if_false, if_true, ← List.append_assoc]
      exact List.perm_append_singleton c _

theorem all_popFrom {u : Bool} (h : (q.queue u).head? = some c) :
    q.all.Perm (c :: (q.popFrom u).1.all) := by
  obtain ⟨cs, hcs⟩ := List.head?_eq_some_iff.mp h
  unfold all
  rw [queue_popFrom, queue_popFrom]
  cases u with
  | true =>
      simp only [if_true, Bool.false_eq_true, if_false, hcs, List.tail_cons, List.cons_append]
      exact List.Perm.refl _
  | false =>
      simp only [Bool.true_eq_false, if_false, if_true, hcs, List.tail_cons]
      exact List.perm_middle

/-- A pop that succeeds takes the chunk out. -/
theorem all_pop (h : q.pop c = (q', .ok ())) : q.all.Perm (c :: q'.all) := by
  unfold pop at h
  split at h
  · unfold popSelected at h
    simp only [popFrom_snd] at h
    split at h
    · cases h
    · rename_i hfirst
      cases h
      exact all_popFrom (not_not.mp hfirst)
  · split at h
    · cases h
    · unfold popNewSelection at h
      simp only [popFrom_snd] at h
      split at h
      · cases h
      · rename_i hfirst
        split at h
        · cases h
          exact all_popFrom (not_not.mp hfirst)
        · cases h
          exact all_popFrom (not_not.mp hfirst)

end MessagePolicy

theorem numBytes_perm {cs cs' : List PayloadData} (h : cs.Perm cs') : numBytes cs = numBytes cs' :=
  (h.map _).sum_nat

theorem Counted.push {q : PendingQueue} (h : Counted q) (c : PayloadData) : Counted (q.push c) := by
  have hperm := MessagePolicy.all_push q.policy c
  constructor
  · show q.nChunks + 1 = ((q.policy.push c).all.length : Int)
    rw [hperm.length_eq, h.chunks, List.length_cons]
    omega
  · show q.nBytes + c.userData.length = (numBytes (q.policy.push c).all : Int)
    rw [numBytes_perm hperm, h.bytes]
    simp [numBytes]
    omega

theorem Counted.foldl_push {q : PendingQueue} (h : Counted q) (cs : List PayloadData) :
    Counted (cs.foldl PendingQueue.push q) := by
  induction cs generalizing q with
  | nil => exact h
  | cons c cs ih => exact ih (h.push c)

theorem all_foldl_push (q : MessagePolicy) (cs : List PayloadData) :
    (cs.foldl MessagePolicy.push q).all.Perm (cs ++ q.all) := by
  induction cs generalizing q with
  | nil => exact List.Perm.refl _
  | cons c cs ih =>
      refine (ih (q.push c)).trans ?_
      exact ((MessagePolicy.all_push q c).append_left cs).trans List.perm_middle

theorem Counted.pop {q : PendingQueue} (h : Counted q) {c : PayloadData} {p : MessagePolicy}
    (hpop : q.policy.pop c = (p, .ok ())) : (q.pop c).1.policy = p ∧ Counted (q.pop c).1 := by
  have hperm := MessagePolicy.all_pop hpop
  have hq : q.pop c =
      ({ nBytes := if q.nBytes - c.userData.length < 0 then 0 else q.nBytes - c.userData.length
         nChunks := q.nChunks - 1
         policy := p }, .ok ()) := by
    unfold PendingQueue.pop
    rw [hpop]
  rw [hq]
  refine ⟨rfl, ?_, ?_⟩
  · show q.nChunks - 1 = (p.all.length : Int)
    rw [h.chunks, hperm.length_eq, List.length_cons]
    omega
  · have hbytes : numBytes q.policy.all = c.userData.length + numBytes p.all := by
      rw [numBytes_perm hperm]
      simp [numBytes]
    show (if q.nBytes - c.userData.length < 0 then 0 else q.nBytes - c.userData.length) =
      (numBytes p.all : Int)
    rw [h.bytes, hbytes]
    omega

/-! ### The messages and what was written -/

/-- The number of chunks of some messages. -/
def chunkCount (size : Nat) (ms : List Message) : Nat :=
  (ms.map fun m => (m.data.length + size - 1) / size).sum

/-- The messages of a kind, those that were begun before those that wait. -/
def Outbox.line (o : Outbox) (u : Bool) : List Sent :=
  ((o.begun.filter fun m => m.unordered == u) ++ o.waiting u).map Sent.unplaced

/-- The messages of the two kinds are the ones that were written, but for empty ones. -/
structure Tracks (size : Nat) (written : List Message) (line : Bool → List Sent) : Prop where
  cut : ∀ u, ∀ m ∈ line u, m.unordered = u ∧ m.Cut size
  ordered : ∀ m ∈ line false, (Link.ordered m.si written)[m.seq]? = some m.message
  seqs : (line false).Pairwise fun m m' => m.si = m'.si → m.seq < m'.seq
  unordered : ((line true).map Sent.message).Perm
    (written.filter fun m => m.unordered && !m.data.isEmpty)

theorem Link.ordered_append (si : StreamId) (ms ms' : List Message) :
    Link.ordered si (ms ++ ms') = Link.ordered si ms ++ Link.ordered si ms' :=
  List.filter_append ..

theorem Link.ordered_singleton (si : StreamId) (m : Message) :
    Link.ordered si [m] = if m.si = si ∧ m.unordered = false then [m] else [] := by
  unfold Link.ordered
  by_cases hsi : m.si = si
  · cases hu : m.unordered <;> simp [hsi, hu]
  · simp [hsi]

section Tracks

variable {size : Nat} {written : List Message} {line : Bool → List Sent}

/-- What was written stays at its place. -/
theorem Tracks.ordered_append (h : Tracks size written line) (msg : Message) {m : Sent}
    (hm : m ∈ line false) :
    (Link.ordered m.si (written ++ [msg]))[m.seq]? = some m.message := by
  have hget := h.ordered m hm
  obtain ⟨hlt, -⟩ := List.getElem?_eq_some_iff.mp hget
  rw [Link.ordered_append, List.getElem?_append_left hlt, hget]

/-- An empty message leaves no trace but its place among the ordered ones. -/
theorem Tracks.write_empty (h : Tracks size written line) {msg : Message} (hmsg : msg.data = []) :
    Tracks size (written ++ [msg]) line :=
  { cut := h.cut
    ordered := fun _ hm => h.ordered_append msg hm
    seqs := h.seqs
    unordered := by
      rw [List.filter_append]
      simpa [hmsg] using h.unordered }

/-- A message is written. -/
theorem Tracks.write (h : Tracks size written line) {m : Sent} (hcut : m.Cut size)
    (hseq : m.seq = (Link.ordered m.si written).length) :
    Tracks size (written ++ [m.message])
      fun u => if u = m.unordered then line u ++ [m] else line u := by
  constructor
  · intro u x hx
    by_cases hu : u = m.unordered
    · rw [if_pos hu] at hx
      rcases List.mem_append.mp hx with hold | hnew
      · exact h.cut u x hold
      · rw [List.mem_singleton.mp hnew]
        exact ⟨hu.symm, hcut⟩
    · rw [if_neg hu] at hx
      exact h.cut u x hx
  · intro x hx
    by_cases hu : false = m.unordered
    · rw [if_pos hu] at hx
      rcases List.mem_append.mp hx with hold | hnew
      · exact h.ordered_append m.message hold
      · rw [List.mem_singleton.mp hnew, hseq, Link.ordered_append, Link.ordered_singleton,
          if_pos ⟨rfl, hu.symm⟩, List.getElem?_append_right (Nat.le_refl _), Nat.sub_self]
        rfl
    · rw [if_neg hu] at hx
      exact h.ordered_append m.message hx
  · by_cases hu : false = m.unordered
    · rw [if_pos hu, List.pairwise_append]
      refine ⟨h.seqs, List.pairwise_singleton _ _, ?_⟩
      intro x hx y hy hsi
      rw [List.mem_singleton.mp hy] at hsi ⊢
      obtain ⟨hlt, -⟩ := List.getElem?_eq_some_iff.mp (h.ordered x hx)
      rw [hseq, ← hsi]
      exact hlt
    · rw [if_neg hu]
      exact h.seqs
  · have hdata : m.message.data.isEmpty = false := by
      rw [List.isEmpty_eq_false_iff]
      exact hcut.data_ne_nil
    rw [List.filter_append]
    by_cases hu : true = m.unordered
    · rw [if_pos hu, List.map_append]
      have hmsg : [m.message].filter (fun m => m.unordered && !m.data.isEmpty) = [m.message] := by
        simp [hdata, show m.message.unordered = true from hu.symm]
      rw [hmsg]
      exact h.unordered.append_right _
    · rw [if_neg hu]
      have hmsg : [m.message].filter (fun m => m.unordered && !m.data.isEmpty) = [] := by
        have hordered : m.message.unordered = false := Bool.eq_false_iff.mpr (Ne.symm hu)
        simp [hordered]
      rw [hmsg, List.append_nil]
      exact h.unordered

end Tracks

/-! ### Numbers -/

/-- The messages that were begun have the numbers from `base` up to `n`. -/
structure Outbox.Numbered (base n : Nat) (o : Outbox) : Prop where
  base_le : base ≤ n
  apart : o.begun.Pairwise fun m m' => m.stop ≤ m'.start
  low : ∀ m ∈ o.begun, base ≤ m.start
  high : ∀ m ∈ o.begun, m.stop ≤ n ∨ ∃ k, o.current = some (m, k)
  current : ∀ m k, o.current = some (m, k) → m ∈ o.begun ∧ m.start + k = n
  all : ∀ j, base ≤ j → j < n → ∃ m ∈ o.begun, ∃ i < m.len, j = m.start + i

/-- The chunk is a piece of a message that was begun, with a number below `n`. -/
def Outbox.Sends (o : Outbox) (n : Nat) (c : PayloadData) : Prop :=
  ∃ m ∈ o.begun, ∃ i < m.len, m.start + i < n ∧ c = m.sent i

/-- Messages were begun from the number `n` on. -/
structure Grows (o : Outbox) (n : Nat) (o' : Outbox) (n' : Nat) : Prop where
  le : n ≤ n'
  begun : ∃ new, o'.begun = o.begun ++ new ∧ ∀ m ∈ new, n ≤ m.start

section Numbers

variable {o o' o'' : Outbox} {base n n' n'' k : Nat} {m : Sent}

theorem Grows.refl (o : Outbox) (n : Nat) : Grows o n o n :=
  ⟨Nat.le_refl n, [], (List.append_nil _).symm, by simp⟩

theorem Grows.trans (h : Grows o n o' n') (h' : Grows o' n' o'' n'') : Grows o n o'' n'' := by
  obtain ⟨new, hnew, hle⟩ := h.begun
  obtain ⟨new', hnew', hle'⟩ := h'.begun
  refine ⟨Nat.le_trans h.le h'.le, new ++ new', ?_, ?_⟩
  · rw [hnew', hnew, List.append_assoc]
  · intro m hm
    rcases List.mem_append.mp hm with hm | hm
    · exact hle m hm
    · exact Nat.le_trans h.le (hle' m hm)

theorem Outbox.Sends.grows {c : PayloadData} (hs : o.Sends n c) (h : Grows o n o' n') :
    o'.Sends n' c := by
  obtain ⟨m, hm, i, hi, hlt, hc⟩ := hs
  obtain ⟨new, hnew, -⟩ := h.begun
  exact ⟨m, hnew ▸ List.mem_append_left _ hm, i, hi, Nat.lt_of_lt_of_le hlt h.le, hc⟩

/-- The piece `k` of the last message gets the number `n`. -/
theorem Outbox.numbered_goOn (hbase : base ≤ n)
    (hapart : o.begun.Pairwise fun m m' => m.stop ≤ m'.start) (hlow : ∀ x ∈ o.begun, base ≤ x.start)
    (hdone : ∀ x ∈ o.begun, x ≠ m → x.stop ≤ n)
    (hall : ∀ j, base ≤ j → j < n → ∃ x ∈ o.begun, ∃ i < x.len, j = x.start + i)
    (hm : m ∈ o.begun) (hk : k < m.len) (hn : m.start + k = n) :
    (o.goOn m k).Numbered base (n + 1) := by
  constructor
  · exact Nat.le_succ_of_le hbase
  · exact hapart
  · exact hlow
  · intro x hx
    by_cases hxm : x = m
    · subst hxm
      unfold Outbox.goOn Sent.stop
      by_cases hlast : k + 1 = x.len
      · exact .inl (by omega)
      · exact .inr ⟨k + 1, by simp [hlast]⟩
    · exact .inl (Nat.le_succ_of_le (hdone x hx hxm))
  · intro x j hx
    obtain ⟨rfl, rfl, -⟩ := Outbox.current_goOn hx
    exact ⟨hm, by omega⟩
  · intro j hlo hhi
    by_cases hj : j = n
    · exact ⟨m, hm, k, hk, by omega⟩
    · exact hall j hlo (by omega)

/-- The piece that comes next gets the number `n`. -/
theorem Outbox.Numbered.next (h : o.Numbered base n) (hs : o.Sorted)
    (hnext : o.next n = some (m, k, o')) :
    o'.Numbered base (n + 1) ∧ m ∈ o'.begun ∧ k < m.len ∧ m.start + k = n ∧
      Grows o n o' (n + 1) := by
  unfold Outbox.next at hnext
  split at hnext
  · rename_i m' k' hc
    cases hnext
    obtain ⟨hm, hn⟩ := h.current m k hc
    have hk := (hs.current m k hc).2
    have hdone : ∀ x ∈ o.begun, x ≠ m → x.stop ≤ n := by
      intro x hx hne
      rcases h.high x hx with hle | ⟨j, hj⟩
      · exact hle
      · rw [hc] at hj
        cases hj
        exact absurd rfl hne
    exact ⟨Outbox.numbered_goOn h.base_le h.apart h.low hdone h.all hm hk hn, hm, hk, hn,
      Nat.le_succ n, [], (List.append_nil _).symm, by simp⟩
  · rename_i hc
    obtain ⟨x, hx, heq⟩ := Option.map_eq_some_iff.mp hnext
    cases heq
    have hlen : 0 < x.len := by
      rcases Option.or_eq_some_iff.mp hx with h | ⟨-, h⟩
      · exact (hs.waiting _ x (List.mem_of_head? h)).2
      · exact (hs.waiting _ x (List.mem_of_head? h)).2
    -- between two messages everything that was begun is finished
    have hdone : ∀ y ∈ o.begun, y.stop ≤ n := by
      intro y hy
      rcases h.high y hy with hle | ⟨j, hj⟩
      · exact hle
      · rw [hc] at hj
        cases hj
    have hmem {y : Sent} (hy : y ∈ o.begun ++ [{ x with start := n }]) :
        y ∈ o.begun ∨ y = { x with start := n } := by simpa using hy
    refine ⟨Outbox.numbered_goOn h.base_le ?_ ?_ ?_ ?_ (by simp) hlen rfl, by simp [begin, goOn],
      hlen, rfl, Nat.le_succ n, _, rfl, by simp⟩
    · rw [List.pairwise_append]
      refine ⟨h.apart, List.pairwise_singleton _ _, ?_⟩
      intro y hy z hz
      rw [List.mem_singleton.mp hz]
      exact hdone y hy
    · intro y hy
      rcases hmem hy with hy | rfl
      · exact h.low y hy
      · exact h.base_le
    · intro y hy hne
      rcases hmem hy with hy | heq
      · exact hdone y hy
      · exact absurd heq hne
    · intro j hlo hhi
      obtain ⟨y, hy, i, hi, hj⟩ := h.all j hlo hhi
      exact ⟨y, List.mem_append_left _ hy, i, hi, hj⟩

/-- Beginning a message moves it, without its numbers nothing changes. -/
theorem Outbox.line_next (hs : o.Sorted) (hnext : o.next n = some (m, k, o')) :
    o'.line = o.line := by
  unfold Outbox.next at hnext
  split at hnext
  · cases hnext
    rfl
  · obtain ⟨x, hx, heq⟩ := Option.map_eq_some_iff.mp hnext
    cases heq
    -- the message is the first one of its queue
    obtain ⟨xs, hxs⟩ : ∃ xs, o.waiting x.unordered = x :: xs := by
      rcases Option.or_eq_some_iff.mp hx with h | ⟨-, h⟩
      · obtain ⟨xs, hxs⟩ := List.head?_eq_some_iff.mp h
        exact ⟨xs, (hs.waiting _ x (List.mem_of_head? h)).1 ▸ hxs⟩
      · obtain ⟨xs, hxs⟩ := List.head?_eq_some_iff.mp h
        exact ⟨xs, (hs.waiting _ x (List.mem_of_head? h)).1 ▸ hxs⟩
    funext u
    unfold Outbox.line
    rw [Outbox.waiting_begin]
    show (((o.begun ++ [{ x with start := n }]).filter fun m : Sent => m.unordered == u) ++
      _).map _ = _
    rw [List.filter_append]
    by_cases hu : u = x.unordered
    · subst hu
      rw [if_pos rfl, hxs]
      simp [Sent.unplaced]
    · have hother : [({ x with start := n } : Sent)].filter (fun m => m.unordered == u) = [] := by
        simp [Ne.symm hu]
      rw [if_neg hu, hother, List.append_nil]

/-- A new message is the last of its kind. -/
theorem Outbox.line_add (o : Outbox) {m : Sent} (hlen : m.len ≠ 0) :
    (o.add m).line =
      fun u => if u = m.unordered then o.line u ++ [m.unplaced] else o.line u := by
  funext u
  unfold Outbox.add Outbox.line
  rw [if_neg hlen]
  by_cases hu : u = m.unordered
  · simp [hu]
  · simp [hu]

theorem Outbox.Numbered.add (h : o.Numbered base n) (m : Sent) : (o.add m).Numbered base n := by
  unfold Outbox.add
  split
  · exact h
  · exact { h with }

end Numbers

/-! ### The sender -/

/-- A chunk in flight that is not acknowledged is a piece with its number, and one that is
acknowledged is not sent again. -/
def Flies (o : Outbox) (n : Nat) (c : InflightChunk) : Prop :=
  (c.acked = false → o.Sends n c.chunk) ∧ (c.acked = true → c.retransmit = false)

/-- The sender `s` holds the outbox `o` of what was written, and the next number is `n`. -/
structure Sending (base size : Nat) (written : List Message) (s : Sender) (o : Outbox) (n : Nat) :
    Prop where
  queues : Queues o s.pendingQueue.policy
  counted : Counted s.pendingQueue
  sorted : o.Sorted
  numbered : o.Numbered base n
  tracks : Tracks size written o.line
  next : s.myNextTSN = tsn n
  payload : s.maxPayloadSize = size
  streams : ∀ st ∈ s.streams,
    st.sequenceNumber = ssn (Link.ordered st.streamIdentifier written).length
  distinct : (s.streams.map SendStream.streamIdentifier).Nodup
  opened : ∀ m ∈ written, m.si ∈ s.streams.map SendStream.streamIdentifier
  room : n + s.pendingQueue.policy.all.length = base + chunkCount size written
  flight : ∀ c ∈ s.inflightQueue.chunks, Flies o n c

theorem Flies.grows {o o' : Outbox} {n n' : Nat} {c : InflightChunk} (h : Flies o n c)
    (hg : Grows o n o' n') : Flies o' n' c :=
  ⟨fun hc => (h.1 hc).grows hg, h.2⟩

section Sending

variable {base size n : Nat} {written : List Message} {s : Sender} {o : Outbox}

/-- What the sender's other fields are does not matter, nor what the streams count. -/
theorem Sending.frame (h : Sending base size written s o n) {s' : Sender}
    (hpending : s'.pendingQueue = s.pendingQueue) (hnext : s'.myNextTSN = s.myNextTSN)
    (hpayload : s'.maxPayloadSize = s.maxPayloadSize)
    (hstreams : s'.streams.map (fun st => (st.streamIdentifier, st.sequenceNumber)) =
      s.streams.map fun st => (st.streamIdentifier, st.sequenceNumber))
    (hflight : ∀ c ∈ s'.inflightQueue.chunks, Flies o n c) :
    Sending base size written s' o n := by
  have hids : s'.streams.map SendStream.streamIdentifier =
      s.streams.map SendStream.streamIdentifier := by
    simpa [List.map_map, Function.comp_def] using congrArg (List.map Prod.fst) hstreams
  exact
    { queues := hpending ▸ h.queues
      counted := hpending ▸ h.counted
      sorted := h.sorted
      numbered := h.numbered
      tracks := h.tracks
      next := hnext.trans h.next
      payload := hpayload.trans h.payload
      streams := by
        intro st hst
        have hmem := List.mem_map_of_mem
          (f := fun st : SendStream => (st.streamIdentifier, st.sequenceNumber)) hst
        rw [hstreams] at hmem
        obtain ⟨st', hst', heq⟩ := List.mem_map.mp hmem
        simp only [Prod.mk.injEq] at heq
        rw [← heq.1, ← heq.2]
        exact h.streams st' hst'
      distinct := hids ▸ h.distinct
      opened := hids ▸ h.opened
      room := hpending ▸ h.room
      flight := hflight }

/-- The chunk that was looked at gets the number `n`. -/
theorem Sending.move (h : Sending base size written s o n) {c : PayloadData}
    (hpeek : s.pendingQueue.peek = some c) :
    ∃ o', Sending base size written (s.movePendingDataChunkToInflightQueue c).1 o' (n + 1) ∧
      Grows o n o' (n + 1) ∧ o'.Sends (n + 1) (s.movePendingDataChunkToInflightQueue c).2 := by
  obtain ⟨hq, hpop⟩ := h.queues.next h.sorted n
  rw [show s.pendingQueue.peek = s.pendingQueue.policy.peek from rfl, hq] at hpeek
  obtain ⟨⟨m, k, o'⟩, hnext, rfl⟩ := Option.map_eq_some_iff.mp hpeek
  obtain ⟨q', hq', hqueues⟩ := hpop m k o' hnext
  obtain ⟨hnum, hm, hk, hstart, hgrows⟩ := h.numbered.next h.sorted hnext
  obtain ⟨hpolicy, hcounted⟩ := h.counted.pop hq'
  have hperm := (MessagePolicy.all_pop hq').length_eq
  have hroom := h.room
  have hsent : o'.Sends (n + 1) { m.out k with tsn := s.myNextTSN } := by
    refine ⟨m, hm, k, hk, by omega, ?_⟩
    rw [h.next, ← hstart]
    rfl
  refine ⟨o', ?_, hgrows, hsent⟩
  exact
    { queues := by
        show Queues o' (s.pendingQueue.pop (m.out k)).1.policy
        rw [hpolicy]
        exact hqueues
      counted := hcounted
      sorted := h.sorted.next hnext
      numbered := hnum
      tracks := by
        rw [Outbox.line_next h.sorted hnext]
        exact h.tracks
      next := by
        show s.myNextTSN + 1#32 = tsn (n + 1)
        rw [h.next]
        exact (tsn_add n 1).symm
      payload := h.payload
      streams := h.streams
      distinct := h.distinct
      opened := h.opened
      room := by
        show n + 1 + (s.pendingQueue.pop (m.out k)).1.policy.all.length = _
        rw [hpolicy]
        rw [List.length_cons] at hperm
        omega
      flight := by
        intro c hc
        rcases List.mem_append.mp hc with hold | hnew
        · exact (h.flight c hold).grows hgrows
        · rw [List.mem_singleton.mp hnew]
          exact ⟨fun _ => hsent, fun hacked => by cases hacked⟩ }

/-- What is looked at leaves the pending queue. -/
theorem Sending.all_pop (h : Sending base size written s o n) {c : PayloadData}
    (hpeek : s.pendingQueue.peek = some c) :
    s.pendingQueue.policy.all.Perm (c :: (s.pendingQueue.pop c).1.policy.all) := by
  obtain ⟨hq, hpop⟩ := h.queues.next h.sorted n
  rw [show s.pendingQueue.peek = s.pendingQueue.policy.peek from rfl, hq] at hpeek
  obtain ⟨⟨m, k, o'⟩, hnext, rfl⟩ := Option.map_eq_some_iff.mp hpeek
  obtain ⟨q', hq', -⟩ := hpop m k o' hnext
  rw [(h.counted.pop hq').1]
  exact MessagePolicy.all_pop hq'

/-- What is looked at has data and fits into a packet. -/
theorem Sending.peek_bounds (h : Sending base size written s o n) {c : PayloadData}
    (hpeek : s.pendingQueue.peek = some c) : 0 < c.userData.length ∧ c.userData.length ≤ size := by
  obtain ⟨hq, -⟩ := h.queues.next h.sorted n
  rw [show s.pendingQueue.peek = s.pendingQueue.policy.peek from rfl, hq] at hpeek
  obtain ⟨⟨m, k, o'⟩, hnext, rfl⟩ := Option.map_eq_some_iff.mp hpeek
  obtain ⟨-, hm, hk, -⟩ := h.numbered.next h.sorted hnext
  have hline : m.unplaced ∈ o.line m.unordered := by
    rw [← Outbox.line_next h.sorted hnext]
    exact List.mem_map_of_mem (List.mem_append_left _ (List.mem_filter.mpr ⟨hm, by simp⟩))
  have hpiece : m.pieces.getD k [] ∈ m.pieces := by
    rw [List.getD_eq_getElem?_getD, List.getElem?_eq_getElem hk]
    exact List.getElem_mem hk
  obtain ⟨hne, hle⟩ := (h.tracks.cut _ _ hline).2.2 _ hpiece
  exact ⟨List.length_pos_iff.mpr hne, hle⟩

/-! ### Sending chunk after chunk -/

/-- Chunks are looked at and moved, one after the other, while they fit into a packet. -/
inductive Sender.Moves : Sender → List PayloadData → Sender → Prop
  | refl (s : Sender) : Moves s [] s
  | move {s s' : Sender} {c : PayloadData} {out : List PayloadData} (rwnd : BitVec 32)
      (hpeek : s.pendingQueue.peek = some c)
      (hfits : commonHeaderSize + c.chunkSizeInPacket ≤ s.mtu.toNat)
      (h : Moves ({ s with rwnd }.movePendingDataChunkToInflightQueue c).1 out s') :
      Moves s (({ s with rwnd }.movePendingDataChunkToInflightQueue c).2 :: out) s'

/-- What is moved gets the next numbers. -/
theorem Sending.moves (h : Sending base size written s o n) {out : List PayloadData} {s' : Sender}
    (hm : s.Moves out s') :
    ∃ o', Sending base size written s' o' (n + out.length) ∧ Grows o n o' (n + out.length) ∧
      ∀ c ∈ out, o'.Sends (n + out.length) c := by
  induction hm generalizing o n with
  | refl s => exact ⟨o, h, Grows.refl o n, by simp⟩
  | @move s s' c out rwnd hpeek _ _ ih =>
      have hframe : Sending base size written { s with rwnd } o n :=
        h.frame rfl rfl rfl rfl h.flight
      obtain ⟨o1, h1, hg1, hsent⟩ := hframe.move hpeek
      obtain ⟨o2, h2, hg2, hout⟩ := ih h1
      rw [Nat.add_assoc, Nat.add_comm 1] at h2 hg2 hout
      refine ⟨o2, h2, hg1.trans hg2, ?_⟩
      intro c hc
      rcases List.mem_cons.mp hc with rfl | hc
      · exact hsent.grows hg2
      · exact hout c hc

/-- The loop moves chunks. -/
theorem Sending.popLoop (hsize : size < 2 ^ 32) (allow : List Bool) (fuel : Nat)
    {l : Sender.SendLoop} (h : Sending base size written l.sender o n)
    (hbytes : l.bytesInPacket = 0 ∨ commonHeaderSize ≤ l.bytesInPacket) :
    ∃ out, l.sender.Moves out (Sender.popLoop allow fuel l).sender ∧
      (Sender.popLoop allow fuel l).chunks = l.chunks ++ out := by
  induction fuel generalizing l o n with
  | zero => exact ⟨[], .refl _, (List.append_nil _).symm⟩
  | succ fuel ih =>
      have hstop : ∃ out, l.sender.Moves out l.sender ∧ l.chunks = l.chunks ++ out :=
        ⟨[], .refl _, (List.append_nil _).symm⟩
      have hsend {c : PayloadData} (hpeek : l.sender.pendingQueue.peek = some c)
          (hfits : commonHeaderSize + c.chunkSizeInPacket ≤ l.sender.mtu.toNat) {b : Nat}
          (hb : commonHeaderSize ≤ b) :
          ∃ out, l.sender.Moves out (Sender.popLoop allow fuel (l.send c b)).sender ∧
            (Sender.popLoop allow fuel (l.send c b)).chunks = l.chunks ++ out := by
        have hframe : Sending base size written
            { l.sender with rwnd := l.sender.rwnd - BitVec.ofNat 32 c.userData.length } o n :=
          h.frame rfl rfl rfl rfl h.flight
        obtain ⟨o1, h1, -, -⟩ := hframe.move hpeek
        obtain ⟨out, hmoves, hchunks⟩ := ih (l := l.send c b) h1 (.inr hb)
        refine ⟨_, .move _ hpeek hfits hmoves, ?_⟩
        rw [hchunks]
        exact List.append_assoc ..
      unfold Sender.popLoop
      split
      · exact hstop
      · rename_i c hpeek
        obtain ⟨hpos, hle⟩ := h.peek_bounds hpeek
        have hlen : BitVec.ofNat 32 c.userData.length ≠ 0 := by
          intro hzero
          have := congrArg BitVec.toNat hzero
          rw [BitVec.toNat_ofNat, Nat.mod_eq_of_lt (by omega)] at this
          exact absurd (show c.userData.length = 0 from this) (by omega)
        simp only [hlen, if_false]
        split
        · exact hstop
        split
        · exact hstop
        split
        · split
          · exact hstop
          split
          · exact hstop
          · exact hsend hpeek (by omega) (by omega)
        · split
          · exact ih (l := { l with bytesInPacket := 0 }) h (.inl rfl)
          split
          · exact hstop
          · exact hsend hpeek (by omega) (by omega)

theorem Sending.popPending (hsize : size < 2 ^ 32) (h : Sending base size written s o n)
    (allow : List Bool) :
    s.Moves (s.popPendingDataChunksToSend allow).2.1 (s.popPendingDataChunksToSend allow).1 := by
  unfold Sender.popPendingDataChunksToSend
  split
  · exact .refl s
  · obtain ⟨out, hmoves, hchunks⟩ := Sending.popLoop hsize allow
      (2 * s.pendingQueue.size.toNat + 2)
      (l := { sender := s, chunks := [], sisToReset := [], bytesInPacket := 0, asked := 0 }) h
      (.inl rfl)
    rw [List.nil_append] at hchunks
    dsimp only
    rw [hchunks]
    split
    · exact hmoves
    rename_i hprobe
    split
    · exact hmoves
    · rename_i c hpeek
      split
      · rename_i hfits
        have hnone : out = [] := by
          rw [Bool.or_eq_true, not_or] at hprobe
          simpa using hprobe.1
        subst hnone
        -- the probe follows a loop that moved nothing
        generalize (Sender.popLoop allow (2 * s.pendingQueue.size.toNat + 2)
          { sender := s, chunks := [], sisToReset := [], bytesInPacket := 0, asked := 0 }).sender
            = s1 at hmoves hpeek hfits
        cases hmoves
        exact .move s.rwnd hpeek hfits.2.1 (.refl _)
      · exact hmoves

end Sending

end PionBridge.Sctp
