import PionBridge.Proofs.Sctp.Delivery

/-!
# `PionBridge.Proofs.Sctp.Flight`: chunks in flight and acknowledgements

The queue in flight holds the numbers behind the cumulative TSN one after the other, and what is
marked as acknowledged has been accepted by the receiver (`Flight`). A SACK of the receiver reports
accepted numbers only (`Honest`), however old it is. So handling it finds every chunk it looks for
(`handleSack_ok`).

`payloadQueue.get` compares TSNs as plain numbers. Therefore the TSNs of the run must not wrap
(`Lap`). The runs are in `Proofs.Sctp.Acks`.
-/

set_option autoImplicit false

namespace PionBridge.Sctp

open PionBridge.Lib ReceiveWindow

/-- The numbers from `base` to `n` lie in half of the range of the TSNs and do not wrap. -/
structure Lap (base n : Nat) : Prop where
  near : n < base + 2 ^ 31
  flat : base / 2 ^ 32 = n / 2 ^ 32

/-- On a lap the TSNs compare as the numbers they stand for. `payloadQueue.get` uses this plain
comparison, where the rest of the code uses serial numbers. -/
theorem Lap.tsn_lt {base n i j : Nat} (h : Lap base n) (hi : base ≤ i ∧ i ≤ n)
    (hj : base ≤ j ∧ j ≤ n) : tsn i < tsn j ↔ i < j := by
  have hflat := h.flat
  -- both numbers lie on the lap of `base`, so the residues compare as the numbers do
  have hi' : i / 2 ^ 32 = base / 2 ^ 32 := by
    have h1 : base / 2 ^ 32 ≤ i / 2 ^ 32 := Nat.div_le_div_right hi.1
    have h2 : i / 2 ^ 32 ≤ n / 2 ^ 32 := Nat.div_le_div_right hi.2
    omega
  have hj' : j / 2 ^ 32 = base / 2 ^ 32 := by
    have h1 : base / 2 ^ 32 ≤ j / 2 ^ 32 := Nat.div_le_div_right hj.1
    have h2 : j / 2 ^ 32 ≤ n / 2 ^ 32 := Nat.div_le_div_right hj.2
    omega
  rw [BitVec.lt_def, toNat_tsn, toNat_tsn]
  omega

/-- Serial numbers compare as the numbers they stand for when these are less than half of the range
apart. `sna32LT_tsn` is the strict form. -/
theorem sna32LTE_tsn {a b : Nat} (hab : a < b + 2 ^ 31) (hba : b < a + 2 ^ 31) :
    sna32LTE (tsn a) (tsn b) = decide (a ≤ b) := by
  have h := serialLTE_add (0#32) (m := a) (n := b) (show 0 < 32 by omega) hab hba
  rwa [BitVec.zero_add, BitVec.zero_add] at h

/-- The same for the test by which `handleSack` drops a SACK that is too old. -/
theorem sna32GT_tsn {a b : Nat} (hab : a < b + 2 ^ 31) (hba : b < a + 2 ^ 31) :
    sna32GT (tsn a) (tsn b) = decide (b < a) := by
  have h := serialGT_add (0#32) (m := a) (n := b) (show 0 < 32 by omega) hab hba
  rwa [BitVec.zero_add, BitVec.zero_add] at h

/-! ### The queue in flight -/

/-- The queue holds the numbers behind `a` up to `n`, and what is acknowledged was accepted. -/
structure Flight (base n : Nat) (accepted : Finset Nat) (a : Nat) (cs : List InflightChunk) :
    Prop where
  base_le : base ≤ a + 1
  length : a + 1 + cs.length = n
  tsns : ∀ k c, cs[k]? = some c → c.chunk.tsn = tsn (a + 1 + k)
  acked : ∀ k c, cs[k]? = some c → c.acked = true → a + 1 + k ∈ accepted
  below : ∀ j, base ≤ j → j ≤ a → j ∈ accepted

section Flight

variable {base n a k : Nat} {accepted : Finset Nat} {cs cs' : List InflightChunk}
  {q : PayloadQueue}

/-- The invariant reads the chunk and the mark `acked` only. So the counters and marks of the
retransmissions may change without it. -/
theorem Flight.congr (h : Flight base n accepted a cs)
    (hk : cs'.map InflightChunk.key = cs.map InflightChunk.key) : Flight base n accepted a cs' := by
  -- at each place the old queue has a chunk with the same key
  have hget {k : Nat} {c' : InflightChunk} (hc' : cs'[k]? = some c') :
      ∃ c, cs[k]? = some c ∧ c.key = c'.key := by
    have hat := congrArg (fun ks : List (PayloadData × Bool) => ks[k]?) hk
    simp only [List.getElem?_map, hc', Option.map_some] at hat
    exact Option.map_eq_some_iff.mp hat.symm
  have hlen := congrArg List.length hk
  rw [List.length_map, List.length_map] at hlen
  exact
    { base_le := h.base_le
      length := hlen ▸ h.length
      tsns := by
        intro k c' hc'
        obtain ⟨c, hc, hkey⟩ := hget hc'
        exact (congrArg (fun p => p.1.tsn) hkey).symm.trans (h.tsns k c hc)
      acked := by
        intro k c' hc' hacked
        obtain ⟨c, hc, hkey⟩ := hget hc'
        exact h.acked k c hc ((congrArg Prod.snd hkey).trans hacked)
      below := h.below }

/-- A chunk that is sent joins the queue. -/
theorem Flight.push (h : Flight base n accepted a cs) {c : InflightChunk}
    (ht : c.chunk.tsn = tsn n) (hc : c.acked = false) :
    Flight base (n + 1) accepted a (cs ++ [c]) := by
  have hlength := h.length
  -- a place of the longer queue is an old one or the last
  have hget {k : Nat} {c' : InflightChunk} (hc' : (cs ++ [c])[k]? = some c') :
      cs[k]? = some c' ∨ (a + 1 + k = n ∧ c' = c) := by
    rcases Nat.lt_or_ge k cs.length with hk | hk
    · rw [List.getElem?_append_left hk] at hc'
      exact .inl hc'
    · rw [List.getElem?_append_right hk] at hc'
      obtain ⟨hlt, heq⟩ := List.getElem?_eq_some_iff.mp hc'
      rw [List.length_singleton] at hlt
      exact .inr ⟨by omega, by simpa using heq.symm⟩
  exact
    { base_le := h.base_le
      length := by
        rw [List.length_append, List.length_singleton]
        omega
      tsns := by
        intro k c' hc'
        rcases hget hc' with hold | ⟨hn, rfl⟩
        · exact h.tsns k c' hold
        · rw [ht, hn]
      acked := by
        intro k c' hc' hacked
        rcases hget hc' with hold | ⟨-, rfl⟩
        · exact h.acked k c' hold hacked
        · rw [hc] at hacked
          cases hacked
      below := h.below }

/-- The first chunk leaves the queue. -/
theorem Flight.tail {c : InflightChunk} (h : Flight base n accepted a (c :: cs))
    (ha : a + 1 ∈ accepted) : Flight base n accepted (a + 1) cs :=
  { base_le := Nat.le_succ_of_le h.base_le
    length := by
      have := h.length
      rw [List.length_cons] at this
      omega
    tsns := by
      intro k c' hc'
      rw [h.tsns (k + 1) c' (by simpa using hc')]
      congr 1
      omega
    acked := by
      intro k c' hc' hacked
      have := h.acked (k + 1) c' (by simpa using hc') hacked
      rwa [show a + 1 + 1 + k = a + 1 + (k + 1) by omega]
    below := by
      intro j hlo hhi
      by_cases hj : j = a + 1
      · exact hj ▸ ha
      · exact h.below j hlo (by omega) }

/-- The receiver accepts more chunks. What was accepted before stays accepted. -/
theorem Flight.mono {accepted' : Finset Nat} (h : Flight base n accepted a cs)
    (hsub : accepted ⊆ accepted') : Flight base n accepted' a cs :=
  { h with
    acked := fun k c hc hacked => hsub (h.acked k c hc hacked)
    below := fun j hlo hhi => hsub (h.below j hlo hhi) }

/-- A number of the queue is found at its place. -/
theorem Flight.index (hl : Lap base n) (h : Flight base n accepted a q.chunks)
    (hk : k < q.chunks.length) : q.index (tsn (a + 1 + k)) = some k := by
  have hlength := h.length
  have hbase := h.base_le
  have hnear := hl.near
  unfold PayloadQueue.index
  split
  · rename_i hnil
    rw [hnil] at hk
    cases hk
  · rename_i c rest hcs
    have hc : c.chunk.tsn = tsn (a + 1) := h.tsns 0 c (by rw [hcs]; rfl)
    have hdiff : (tsn (a + 1 + k) - tsn (a + 1)).toNat = k := by
      rw [tsn_add (a + 1) k, BitVec.add_comm, BitVec.add_sub_cancel, BitVec.toNat_ofNat,
        Nat.mod_eq_of_lt (by omega)]
    -- the plain comparison of the source; without a wrap it is the one of the numbers
    have hnot : ¬(tsn (a + 1 + k) < tsn (a + 1) ∨ q.chunks.length ≤ k) := by
      rw [hl.tsn_lt ⟨by omega, by omega⟩ ⟨by omega, by omega⟩]
      omega
    rw [hc, hdiff, if_neg hnot]

/-- With its place known, the chunk is found. Every lookup that `handleSack` makes goes through
here, and none of them fails. -/
theorem Flight.get (hl : Lap base n) (h : Flight base n accepted a q.chunks)
    (hk : k < q.chunks.length) : q.get (tsn (a + 1 + k)) = some q.chunks[k] := by
  unfold PayloadQueue.get
  rw [h.index hl hk, Option.bind_some, List.getElem?_eq_getElem hk]

end Flight

/-! ### Steps that acknowledge nothing -/

/-- Nothing is acknowledged, and no chunk is new. -/
structure Sender.Marks (s s' : Sender) : Prop where
  point : s'.cumulativeTSNAckPoint = s.cumulativeTSNAckPoint
  keys : s'.inflightQueue.chunks.map InflightChunk.key =
    s.inflightQueue.chunks.map InflightChunk.key

/-- A step that returns the sender as it got it. -/
theorem Sender.Marks.refl (s : Sender) : s.Marks s := ⟨rfl, rfl⟩

/-- A write may change the streams and the pending queue too, and `Quiet` does not allow that. -/
theorem Sender.Quiet.marks {s s' : Sender} (h : s.Quiet s') : s.Marks s' := ⟨h.point, h.keys⟩

/-! ### SACKs -/

/-- The SACK reports accepted numbers only, those up to `c` and those of its blocks. -/
structure Honest (base : Nat) (accepted : Finset Nat) (c : Nat) (sack : SelectiveAck) : Prop where
  cum : sack.cumulativeTSNAck = tsn c
  base_le : base ≤ c + 1
  below : ∀ j, base ≤ j → j ≤ c → j ∈ accepted
  blocks : ∀ b ∈ sack.gapAckBlocks, 0 < b.start.toNat ∧ b.start.toNat ≤ b.stop.toNat ∧
    b.stop.toNat < 65535 ∧ ∀ d, b.start.toNat ≤ d → d ≤ b.stop.toNat → c + d ∈ accepted

/-- A SACK stays honest while the receiver accepts more. So one that was sent long ago may still be
handled, in any order with the others. -/
theorem Honest.mono {base c : Nat} {accepted accepted' : Finset Nat} {sack : SelectiveAck}
    (h : Honest base accepted c sack) (hsub : accepted ⊆ accepted') :
    Honest base accepted' c sack :=
  { h with
    below := fun j hlo hhi => hsub (h.below j hlo hhi)
    blocks := fun b hb =>
      ⟨(h.blocks b hb).1, (h.blocks b hb).2.1, (h.blocks b hb).2.2.1,
        fun d hlo hhi => hsub ((h.blocks b hb).2.2.2 d hlo hhi)⟩ }

/-- The offsets of a gap block lie between its ends. The exception is a block up to 65535, where the
16-bit counter of the source goes on at zero; no block of the receiver ends there. -/
theorem mem_blockOffsets {b : GapAckBlock} (hstop : b.stop.toNat < 65535) {d : Nat}
    (hd : d ∈ Sender.blockOffsets b) : b.start.toNat ≤ d ∧ d ≤ b.stop.toNat := by
  unfold Sender.blockOffsets at hd
  have hlast : b.stop ≠ 65535#16 := fun heq => by
    rw [heq] at hstop
    exact absurd hstop (by decide)
  rw [if_neg hlast, List.append_nil, List.mem_range'_1] at hd
  omega

namespace Sender

variable {base n a c : Nat} {accepted : Finset Nat}

/-- The chunks up to the cumulative TSN are popped. -/
theorem popAcked_ok (hl : Lap base n) (exitPoint : TSN) (fuel : Nat) {w : AckWork}
    (h : Flight base n accepted a w.queue.chunks) (hac : a ≤ c) (hcn : c < n) (hfuel : c - a < fuel)
    (hbelow : ∀ j, base ≤ j → j ≤ c → j ∈ accepted) :
    ∃ w', popAcked exitPoint (tsn c) fuel (tsn (a + 1)) w = .ok w' ∧
      Flight base n accepted c w'.queue.chunks ∧ w'.htna = w.htna := by
  have hbase := h.base_le
  have hnear := hl.near
  -- on the fuel; the queue begins one number later after each pop, so `a` and `w` vary
  induction fuel generalizing a w with
  | zero => omega
  | succ fuel ih =>
      unfold popAcked
      rw [sna32LTE_tsn (by omega) (by omega)]
      by_cases hlt : a + 1 ≤ c
      · -- the next chunk is the first of the queue
        obtain ⟨x, rest, hq⟩ : ∃ x rest, w.queue.chunks = x :: rest := by
          cases hq : w.queue.chunks with
          | nil =>
              have := h.length
              rw [hq, List.length_nil] at this
              omega
          | cons x rest => exact ⟨x, rest, rfl⟩
        have hx : x.chunk.tsn = tsn (a + 1) := h.tsns 0 x (by rw [hq]; rfl)
        have hpop : w.queue.pop (tsn (a + 1)) =
            some (x, { chunks := rest, nBytes := w.queue.nBytes - x.chunk.userData.length }) := by
          unfold PayloadQueue.pop
          rw [hq]
          simp only [hx, if_true]
        rw [if_pos (decide_eq_true hlt), hpop]
        dsimp only
        rw [show tsn (a + 1) + 1#32 = tsn (a + 1 + 1) from (tsn_add _ 1).symm]
        exact ih (a := a + 1) (Flight.tail (hq ▸ h) (hbelow _ (by omega) hlt)) hlt (by omega)
          (by omega)
      · -- everything up to the cumulative TSN is gone
        have hca : c = a := by omega
        rw [if_neg (by simpa using hlt)]
        exact ⟨w, rfl, hca ▸ h, rfl⟩

/-- A number behind the cumulative TSN is acknowledged. -/
theorem ackOffset_ok (hl : Lap base n) {w : AckWork} (h : Flight base n accepted c w.queue.chunks)
    {d i : Nat} (hd : 0 < d) (hmem : c + d ∈ accepted) (hlt : c + d < n) (hi : c ≤ i ∧ i < n)
    (hhtna : w.htna = tsn i) :
    ∃ w', ackOffset (tsn c) w d = .ok w' ∧ Flight base n accepted c w'.queue.chunks ∧
      ∃ i', c ≤ i' ∧ i' < n ∧ w'.htna = tsn i' := by
  have hlength := h.length
  have hk : d - 1 < w.queue.chunks.length := by omega
  have ht : tsn c + BitVec.ofNat 32 d = tsn (c + 1 + (d - 1)) := by
    rw [← tsn_add]
    congr 1
    omega
  have hget := h.get hl hk
  unfold ackOffset
  simp only [ht, hget]
  -- `htna` moves to the TSN of this chunk or stays
  have hnext (w' : AckWork) (hw' : w'.htna = tsn i) :
      ∃ i', c ≤ i' ∧ i' < n ∧
        (if sna32LT w'.htna (tsn (c + 1 + (d - 1))) then tsn (c + 1 + (d - 1)) else w'.htna) =
          tsn i' := by
    split
    · exact ⟨c + 1 + (d - 1), by omega, by omega, rfl⟩
    · exact ⟨i, hi.1, hi.2, hw'⟩
  by_cases hacked : w.queue.chunks[d - 1].acked = true
  · rw [if_pos hacked]
    exact ⟨_, rfl, h, hnext w hhtna⟩
  · rw [if_neg hacked]
    refine ⟨_, rfl, ?_, hnext _ hhtna⟩
    -- the chunk lets its data go
    show Flight base n accepted c (w.queue.markAsAcked (tsn (c + 1 + (d - 1)))).1.chunks
    have hchunks : (w.queue.markAsAcked (tsn (c + 1 + (d - 1)))).1.chunks =
        w.queue.chunks.modify (d - 1) fun c =>
          { c with
            acked := true
            retransmit := false
            chunk := { c.chunk with userData := [] } } := by
      unfold PayloadQueue.markAsAcked
      rw [hget]
      unfold PayloadQueue.modify
      simp only [h.index hl hk]
    rw [hchunks]
    exact
      { base_le := h.base_le
        length := by rw [List.length_modify, h.length]
        tsns := by
          intro k x hx
          rw [List.getElem?_modify] at hx
          obtain ⟨y, hy, rfl⟩ := Option.map_eq_some_iff.mp hx
          split
          · exact h.tsns k y hy
          · exact h.tsns k y hy
        acked := by
          intro k x hx hxa
          rw [List.getElem?_modify] at hx
          obtain ⟨y, hy, rfl⟩ := Option.map_eq_some_iff.mp hx
          by_cases hkd : d - 1 = k
          · subst hkd
            rwa [show c + 1 + (d - 1) = c + d by omega]
          · simp only [hkd, if_false] at hxa
            exact h.acked k y hy hxa
        below := h.below }

/-- All offsets of the gap blocks, one after the other. `htna` stays the TSN of a number that was
sent, which the reports of missing chunks need later. -/
theorem ackOffsets_ok (hl : Lap base n) (offsets : List Nat) {w : AckWork}
    (h : Flight base n accepted c w.queue.chunks)
    (hoffsets : ∀ d ∈ offsets, 0 < d ∧ c + d ∈ accepted) (hacc : ∀ j ∈ accepted, j < n) {i : Nat}
    (hi : c ≤ i ∧ i < n) (hhtna : w.htna = tsn i) :
    ∃ w', offsets.foldlM (ackOffset (tsn c)) w = .ok w' ∧
      Flight base n accepted c w'.queue.chunks ∧ ∃ i', c ≤ i' ∧ i' < n ∧ w'.htna = tsn i' := by
  induction offsets generalizing w i with
  | nil => exact ⟨w, rfl, h, i, hi.1, hi.2, hhtna⟩
  | cons d offsets ih =>
      obtain ⟨hd, hmem⟩ := hoffsets d (by simp)
      obtain ⟨w1, hw1, h1, i1, hlo, hhi, hhtna1⟩ :=
        ackOffset_ok hl h hd hmem (hacc _ hmem) hi hhtna
      obtain ⟨w2, hw2, h2⟩ :=
        ih h1 (fun d' hd' => hoffsets d' (by simp [hd'])) ⟨hlo, hhi⟩ hhtna1
      refine ⟨w2, ?_, h2⟩
      rw [List.foldlM_cons, hw1]
      exact hw2

/-- The missing numbers before `i` are counted. -/
theorem missingLoop_ok (hl : Lap base n) (htna : TSN) (fuel : Nat) {s : Sender} {i j : Nat}
    (h : Flight base n accepted c s.inflightQueue.chunks) (hj : c < j) (hji : j ≤ i + 1)
    (hin : i < n) (hfuel : i - j < fuel) :
    ∃ s', missingLoop htna (tsn i) fuel (tsn j) s = .ok s' := by
  have hbase := h.base_le
  have hnear := hl.near
  induction fuel generalizing j s with
  | zero => omega
  | succ fuel ih =>
      unfold missingLoop
      rw [sna32LT_tsn (by omega) (by omega)]
      by_cases hlt : j < i
      · -- `j` is behind the cumulative TSN and below `n`, so it is in flight
        have hlength := h.length
        have hk : j - (c + 1) < s.inflightQueue.chunks.length := by omega
        have hget := h.get hl hk
        rw [show c + 1 + (j - (c + 1)) = j by omega] at hget
        rw [if_pos (decide_eq_true hlt), hget]
        have hmark := reportMissing_quiet s htna (tsn j) s.inflightQueue.chunks[j - (c + 1)]
        obtain ⟨s', hs'⟩ := ih (j := j + 1) (h.congr hmark.keys) (by omega) (by omega) (by omega)
        refine ⟨s', ?_⟩
        rw [← hs', tsn_add j 1]
      · rw [if_neg (by simpa using hlt)]
        exact ⟨s, rfl⟩

/-- The SACK is processed, and the queue begins behind its cumulative TSN. -/
theorem processSelectiveAck_ok (hl : Lap base n) {s : Sender} {sack : SelectiveAck}
    (h : Flight base n accepted a s.inflightQueue.chunks)
    (hpoint : s.cumulativeTSNAckPoint = tsn a) (hs : Honest base accepted c sack)
    (hacc : ∀ j ∈ accepted, j < n) (hac : a ≤ c) (hcn : c < n) :
    ∃ w, s.processSelectiveAck sack = .ok w ∧ Flight base n accepted c w.queue.chunks ∧
      ∃ i, c ≤ i ∧ i < n ∧ w.htna = tsn i := by
  have hlength := h.length
  unfold processSelectiveAck
  rw [hs.cum, hpoint, show tsn a + 1#32 = tsn (a + 1) from (tsn_add a 1).symm]
  obtain ⟨w1, hw1, h1, hhtna⟩ := popAcked_ok hl s.fastRecoverExitPoint (s.inflightQueue.size + 1)
    (w := { queue := s.inflightQueue
            bytes := []
            inFastRecovery := s.inFastRecovery
            htna := tsn c }) h hac hcn (by unfold PayloadQueue.size; omega) hs.below
  dsimp only
  rw [hw1]
  -- every offset of every block was accepted, because the SACK is honest
  refine ackOffsets_ok hl _ h1 ?_ hacc ⟨Nat.le_refl c, hcn⟩ hhtna
  intro d hd
  obtain ⟨b, hb, hd⟩ := List.mem_flatMap.mp hd
  obtain ⟨hstart, -, hstop, hblock⟩ := hs.blocks b hb
  obtain ⟨hlo, hhi⟩ := mem_blockOffsets hstop hd
  exact ⟨by omega, hblock d hlo hhi⟩

/-- What settling a SACK leaves: the queue is the one the loops left, and the ack point is the
cumulative TSN if that is ahead. The congestion window is the only thing the advance changes. -/
theorem settleSack_point (s : Sender) (sack : SelectiveAck) (w : AckWork) :
    (s.settleSack sack w).inflightQueue = w.queue ∧
      (s.settleSack sack w).cumulativeTSNAckPoint =
        if sna32LT s.cumulativeTSNAckPoint sack.cumulativeTSNAck then sack.cumulativeTSNAck
        else s.cumulativeTSNAckPoint := by
  have hadvanced (s : Sender) (k : Nat) :
      (s.onCumulativeTSNAckPointAdvanced k).inflightQueue = s.inflightQueue ∧
        (s.onCumulativeTSNAckPointAdvanced k).cumulativeTSNAckPoint = s.cumulativeTSNAckPoint := by
    unfold onCumulativeTSNAckPointAdvanced
    dsimp only
    split_ifs <;> exact ⟨rfl, rfl⟩
  unfold settleSack withWork
  dsimp only
  split
  · exact hadvanced _ _
  · exact ⟨rfl, rfl⟩

/-- Handling a SACK of the receiver does not fail. -/
theorem handleSack_ok (hl : Lap base n) {s : Sender} {sack : SelectiveAck}
    (h : Flight base n accepted a s.inflightQueue.chunks)
    (hpoint : s.cumulativeTSNAckPoint = tsn a) (hs : Honest base accepted c sack)
    (hacc : ∀ j ∈ accepted, j < n) (hcn : c < n) :
    ∃ s' a', s.handleSack sack = .ok s' ∧ s'.cumulativeTSNAckPoint = tsn a' ∧
      Flight base n accepted a' s'.inflightQueue.chunks := by
  have hbase := h.base_le
  have hlength := h.length
  have hcbase := hs.base_le
  have hnear := hl.near
  unfold handleSack
  split
  · -- no SACK is read in this state
    exact ⟨s, a, rfl, hpoint, h⟩
  rw [hpoint, hs.cum, sna32GT_tsn (by omega) (by omega), sna32LT_tsn (by omega) (by omega)]
  split
  · -- an older SACK is dropped
    exact ⟨s, a, rfl, hpoint, h⟩
  rename_i hold
  have hac : a ≤ c := by simpa using hold
  obtain ⟨w, hw, hflight, i, hci, hin, hhtna⟩ :=
    processSelectiveAck_ok hl h hpoint hs hacc hac hcn
  rw [hw]
  dsimp only
  obtain ⟨hqueue, hnew⟩ := settleSack_point s sack w
  rw [hpoint, hs.cum, sna32LT_tsn (by omega) (by omega)] at hnew
  have hpoint' : (s.settleSack sack w).cumulativeTSNAckPoint = tsn c := by
    rw [hnew]
    split
    · rfl
    · rename_i hsame
      have : c = a := by
        have : ¬a < c := by simpa using hsame
        omega
      rw [this]
  have hflight' : Flight base n accepted c (s.settleSack sack w).inflightQueue.chunks :=
    hqueue ▸ hflight
  -- the numbers up to the highest one that was acknowledged are all in the queue
  obtain ⟨s1, hs1⟩ : ∃ s1,
      (s.settleSack sack w).countMissing sack w.htna (decide (a < c)) = .ok s1 := by
    unfold countMissing
    have hlength' := hflight'.length
    have hloop {i : Nat} (hci : c ≤ i) (hin : i < n) :=
      missingLoop_ok hl w.htna ((s.settleSack sack w).inflightQueue.size + 1) (i := i) (j := c + 1)
        hflight' (Nat.lt_succ_self c) (by omega) hin (by unfold PayloadQueue.size; omega)
    split
    · rw [hs.cum, show tsn c + 1#32 = tsn (c + 1) from (tsn_add c 1).symm, hhtna]
      dsimp only
      rw [hhtna] at hloop
      split
      · exact hloop hci hin
      split
      · exact hloop (Nat.le_refl c) hcn
      · -- in fast recovery the reports go up to the end of the last block
        rename_i b hb
        obtain ⟨hstart, hle, hstop, hblock⟩ := hs.blocks b (List.mem_of_getLast? hb)
        have hwide : b.stop.setWidth 32 = BitVec.ofNat 32 b.stop.toNat := by
          apply BitVec.eq_of_toNat_eq
          rw [BitVec.toNat_setWidth, BitVec.toNat_ofNat]
        rw [hwide, ← tsn_add]
        exact hloop (by omega) (hacc _ (hblock _ hle (Nat.le_refl _)))
    · exact ⟨_, rfl⟩
  obtain ⟨s2, hs2⟩ : ∃ s2, ((s.settleSack sack w).processFastRetransmission sack w.htna
      (decide (a < c))).map postprocessSack = .ok s2 := by
    unfold processFastRetransmission
    rw [hs1]
    exact ⟨_, rfl⟩
  have hquiet := fastRetransmission_quiet (s.settleSack sack w) sack w.htna (decide (a < c))
  rw [hs2] at hquiet
  exact ⟨s2, c, hs2, hquiet.point.trans hpoint', hflight'.congr hquiet.keys⟩

end Sender

end PionBridge.Sctp
