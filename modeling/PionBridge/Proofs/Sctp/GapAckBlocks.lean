import PionBridge.Lib.Runs
import PionBridge.Proofs.Sctp.ReceivePayloadQueue

/-!
# `PionBridge.Proofs.Sctp.GapAckBlocks`: the blocks of a SACK

`getGapAckBlocks` reads the ring a word at a time and stops at a number of blocks. The blocks it
returns are the first ones of the maximal runs of TSNs that have arrived behind the cumulative TSN
(`getGapAckBlocks_eq`). So a SACK never reports a TSN that has not arrived, and reports every one
that has when the bound is not reached (`gap_blocks_report_received`).
-/

set_option autoImplicit false

namespace PionBridge.Sctp

open PionBridge.Lib ReceiveWindow

variable {q : ReceivePayloadQueue} {w : ReceiveWindow}

/-! ### One word -/

/-- The bits of a word from the one of `n` on, as bits of the ring. -/
theorem word_shift_bit (q : ReceivePayloadQueue) (n : Nat) {k : Nat} (hk : n % 64 + k < 64) :
    (q.word (tsn n) >>> ((tsn n).toNat % 64)).getLsbD k =
      ringBit q.tsnBitmask ((n + k) % 2 ^ 32) := by
  have hn : (tsn n).toNat = n % 2 ^ 32 := toNat_tsn n
  have hplace : (n + k) % 2 ^ 32 % 64 = n % 2 ^ 32 % 64 + k := by omega
  have hword : (n + k) % 2 ^ 32 / 64 = n % 2 ^ 32 / 64 := by omega
  unfold ringBit ringIndex ReceivePayloadQueue.word
  rw [BitVec.getLsbD_ushiftRight, hn, hplace, hword]
  rfl

/-- The place of a TSN in its word. -/
theorem toNat_tsn_mod (n : Nat) : (tsn n).toNat % 64 = n % 64 := by
  rw [toNat_tsn]
  omega

/-- The first bit of a word from the one of `n` on that is set. -/
theorem firstNonZero_spec (q : ReceivePayloadQueue) (n : Nat) :
    ∃ i, getFirstNonZeroBit (q.word (tsn n)) (n % 64) 64 =
        (i + n % 64, decide (i + n % 64 < 64)) ∧
      (∀ k < i, n % 64 + k < 64 → ringBit q.tsnBitmask ((n + k) % 2 ^ 32) = false) ∧
      (i + n % 64 < 64 → ringBit q.tsnBitmask ((n + i) % 2 ^ 32) = true) := by
  refine ⟨trailingZeros (q.word (tsn n) >>> ((tsn n).toNat % 64)), ?_, ?_, ?_⟩
  · unfold getFirstNonZeroBit
    rw [toNat_tsn_mod]
  · intro k hk hlt
    rw [← word_shift_bit q n hlt]
    exact getLsbD_of_lt_trailingZeros hk
  · intro hlt
    rw [← word_shift_bit q n (by omega)]
    exact getLsbD_trailingZeros (by omega)

/-- The first bit of a word from the one of `n` on that is not set. -/
theorem firstZero_spec (q : ReceivePayloadQueue) (n : Nat) :
    ∃ i, getFirstZeroBit (q.word (tsn n)) (n % 64) 64 =
        (i + n % 64, decide (i + n % 64 < 64)) ∧
      (∀ k < i, n % 64 + k < 64 → ringBit q.tsnBitmask ((n + k) % 2 ^ 32) = true) ∧
      (i + n % 64 < 64 → ringBit q.tsnBitmask ((n + i) % 2 ^ 32) = false) := by
  -- the shift of the complement, bit by bit
  have hbit (k : Nat) (hk : n % 64 + k < 64) :
      (~~~(q.word (tsn n)) >>> ((tsn n).toNat % 64)).getLsbD k =
        !ringBit q.tsnBitmask ((n + k) % 2 ^ 32) := by
    rw [← word_shift_bit q n hk, BitVec.getLsbD_ushiftRight, BitVec.getLsbD_ushiftRight,
      BitVec.getLsbD_not, toNat_tsn_mod]
    simp [hk]
  refine ⟨trailingZeros (~~~(q.word (tsn n)) >>> ((tsn n).toNat % 64)), ?_, ?_, ?_⟩
  · unfold getFirstZeroBit getFirstNonZeroBit
    rw [toNat_tsn_mod]
  · intro k hk hlt
    have hzero := getLsbD_of_lt_trailingZeros hk
    rw [hbit k hlt] at hzero
    simpa using hzero
  · intro hlt
    have hone :=
      getLsbD_trailingZeros (v := ~~~(q.word (tsn n)) >>> ((tsn n).toNat % 64)) (by omega)
    rw [hbit _ (by omega)] at hone
    simpa using hone

/-! ### The scan -/

/-- The offsets of a run from the cumulative TSN, as a block of a SACK. -/
def ReceiveWindow.block (w : ReceiveWindow) (b : Nat × Nat) : GapAckBlock :=
  { start := BitVec.ofNat 16 (b.1 - w.cum), stop := BitVec.ofNat 16 (b.2 - w.cum) }

/-- Whether a number has arrived. -/
def ReceiveWindow.has (w : ReceiveWindow) (n : Nat) : Bool := decide (n ∈ w.received)

/-- The runs of TSNs from `n` on. -/
def ReceiveWindow.runsFrom (w : ReceiveWindow) (n : Nat) : List (Nat × Nat) :=
  runs w.has n (w.last + 1 - n)

theorem Holds.ringBit_eq (h : Holds q w) {n : Nat} (hn : w.cum < n ∧ n ≤ w.last) :
    ringBit q.tsnBitmask (n % 2 ^ 32) = w.has n := by
  have hle := last_le h.inside
  exact h.bits n hn.1 (by rw [← h.words]; omega)

/-- The offset of a TSN of the window in 16 bits. -/
theorem Holds.offset16 (h : Holds q w) {n : Nat} (hn : w.cum ≤ n ∧ n ≤ w.cum + w.size) :
    (tsn n - q.cumulativeTSN).setWidth 16 = BitVec.ofNat 16 (n - w.cum) := by
  have hsmall := h.small
  have hoff : w.offset (tsn n) = n - w.cum := by
    rw [show n = w.cum + (n - w.cum) by omega, offset_tsn (by omega)]
    omega
  apply BitVec.eq_of_toNat_eq
  rw [BitVec.toNat_setWidth, h.cum, BitVec.toNat_ofNat]
  show w.offset (tsn n) % 2 ^ 16 = _
  rw [hoff]

/-- The comparisons with the last TSN, for the numbers up to one word behind it. -/
theorem Holds.lte_tail (h : Holds q w) (hsmall : w.size + 64 < 2 ^ 31) {n : Nat}
    (hn : w.cum ≤ n ∧ n ≤ w.last + 64) :
    sna32LTE (tsn n) q.tailTSN = decide (n ≤ w.last) ∧
      sna32GT (tsn n) q.tailTSN = decide (w.last < n) := by
  have hle := last_le h.inside
  have hcum := cum_le_last w
  have hn' : tsn n = tsn w.cum + BitVec.ofNat 32 (n - w.cum) := by
    rw [← tsn_add, show w.cum + (n - w.cum) = n by omega]
  have htail : q.tailTSN = tsn w.cum + BitVec.ofNat 32 (w.last - w.cum) := by
    rw [h.tail, ← tsn_add, show w.cum + (w.last - w.cum) = w.last by omega]
  have hlte := serialLTE_add (tsn w.cum) (m := n - w.cum) (n := w.last - w.cum)
    (show 0 < 32 by omega) (by omega) (by omega)
  have hgt := serialGT_add (tsn w.cum) (m := n - w.cum) (n := w.last - w.cum)
    (show 0 < 32 by omega) (by omega) (by omega)
  rw [hn', htail]
  refine ⟨hlte.trans ?_, hgt.trans ?_⟩
  · rw [Bool.eq_iff_iff, decide_eq_true_eq, decide_eq_true_eq]
    omega
  · rw [Bool.eq_iff_iff, decide_eq_true_eq, decide_eq_true_eq]
    omega

/-- A turn that looks for the start of a block: the scan goes on at the first TSN that has arrived,
or at the next word. -/
theorem findBlockStart_spec (h : Holds q w) {n : Nat} (hn : w.cum < n ∧ n ≤ w.last)
    (hlast : w.has w.last = true) (s : ReceivePayloadQueue.GapScan) (hs : s.tsn = tsn n) :
    (∃ i, n + i ≤ w.last ∧ (∀ k < i, w.has (n + k) = false) ∧ w.has (n + i) = true ∧
      q.findBlockStart s =
        { s with
          tsn := tsn (n + i)
          start := BitVec.ofNat 16 (n + i - w.cum)
          findEnd := true }) ∨
    (∃ i, 0 < i ∧ n + i ≤ w.last ∧ (∀ k < i, w.has (n + k) = false) ∧
      q.findBlockStart s = { s with tsn := tsn (n + i) }) := by
  have hle := last_le h.inside
  obtain ⟨i, heq, hzeros, hone⟩ := firstNonZero_spec q n
  have hoff := toNat_tsn_mod n
  have hlt (k : Nat) (hk : n + k ≤ w.last) :
      ringBit q.tsnBitmask ((n + k) % 2 ^ 32) = w.has (n + k) :=
    h.ringBit_eq ⟨by omega, hk⟩
  -- the last TSN has arrived, so the search does not pass it
  have hstops (hpast : w.last - n < i) (hword : n % 64 + (w.last - n) < 64) : False := by
    have hz := hzeros (w.last - n) hpast hword
    rw [hlt _ (by omega), show n + (w.last - n) = w.last by omega, hlast] at hz
    cases hz
  by_cases hfound : i + n % 64 < 64
  · left
    have hi : n + i ≤ w.last := Nat.le_of_not_lt fun hpast => hstops (by omega) (by omega)
    refine ⟨i, hi, ?_, ?_, ?_⟩
    · intro k hk
      rw [← hlt k (by omega)]
      exact hzeros k hk (by omega)
    · rw [← hlt i hi]
      exact hone hfound
    · have hcur : tsn n + BitVec.ofNat 32 (i + n % 64 - n % 64) = tsn (n + i) := by
        rw [Nat.add_sub_cancel, tsn_add]
      have hstart := h.offset16 (n := n + i) ⟨by omega, by omega⟩
      unfold ReceivePayloadQueue.findBlockStart
      simp only [hs, hoff, heq, hfound, decide_true, hcur, hstart]
  · right
    have hi : n + (64 - n % 64) ≤ w.last :=
      Nat.le_of_not_lt fun hpast => hstops (by omega) (by omega)
    refine ⟨64 - n % 64, by omega, hi, ?_, ?_⟩
    · intro k hk
      rw [← hlt k (by omega)]
      exact hzeros k (by omega) (by omega)
    · unfold ReceivePayloadQueue.findBlockStart
      simp only [hs, hoff, heq, hfound, decide_false, tsn_add]

/-- A turn that looks for the end of a block: the scan goes on at the first TSN that is missing, or
at the next word. -/
theorem findBlockEnd_spec (h : Holds q w) (hsmall : w.size + 64 < 2 ^ 31) {n : Nat}
    (hn : w.cum < n ∧ n ≤ w.last) (s : ReceivePayloadQueue.GapScan) (hs : s.tsn = tsn n) :
    ∃ i, (∀ k < i, n + k ≤ w.last → w.has (n + k) = true) ∧ i ≤ 64 ∧
      ((n + i ≤ w.last → w.has (n + i) = false) ∧
        q.findBlockEnd s =
          { s with
            tsn := tsn (n + i)
            findEnd := false
            blocks := if n + i ≤ w.last then
                s.blocks ++
                  [{ start := s.start, stop := (tsn (n + i) - 1#32 - q.cumulativeTSN).setWidth 16 }]
              else s.blocks } ∨
      0 < i ∧ q.findBlockEnd s = { s with tsn := tsn (n + i) }) := by
  have hle := last_le h.inside
  obtain ⟨i, heq, hones, hzero⟩ := firstZero_spec q n
  have hoff := toNat_tsn_mod n
  have hbit (k : Nat) (hk : n + k ≤ w.last) :
      ringBit q.tsnBitmask ((n + k) % 2 ^ 32) = w.has (n + k) :=
    h.ringBit_eq ⟨by omega, hk⟩
  by_cases hfound : i + n % 64 < 64
  · refine ⟨i, ?_, by omega, .inl ⟨?_, ?_⟩⟩
    · intro k hk hkl
      rw [← hbit k hkl]
      exact hones k hk (by omega)
    · intro hil
      rw [← hbit i hil]
      exact hzero hfound
    · have hcur : tsn n + BitVec.ofNat 32 (i + n % 64 - n % 64) = tsn (n + i) := by
        rw [Nat.add_sub_cancel, tsn_add]
      unfold ReceivePayloadQueue.findBlockEnd
      simp only [hs, hoff, heq, hfound, decide_true, hcur,
        (h.lte_tail hsmall (show w.cum ≤ n + i ∧ n + i ≤ w.last + 64 by omega)).1,
        decide_eq_true_eq]
  · refine ⟨64 - n % 64, ?_, by omega, .inr ⟨by omega, ?_⟩⟩
    · intro k hk hkl
      rw [← hbit k hkl]
      exact hones k (by omega) (by omega)
    · unfold ReceivePayloadQueue.findBlockEnd
      simp only [hs, hoff, heq, hfound, decide_false, tsn_add]

/-- The runs from a TSN on, up to the last one, when nothing before `n` has arrived. -/
theorem ReceiveWindow.runsFrom_skip {n i : Nat} (hi : n + i ≤ w.last)
    (hmiss : ∀ k < i, w.has (n + k) = false) : w.runsFrom n = w.runsFrom (n + i) := by
  unfold ReceiveWindow.runsFrom
  rw [runs_skip (show i ≤ w.last + 1 - n by omega) hmiss]
  congr 1
  omega

/-- A run that ends before a missing TSN is the first one. -/
theorem ReceiveWindow.runsFrom_block {a n : Nat} (han : a < n) (hn : n ≤ w.last)
    (hhas : ∀ k, a ≤ k → k < n → w.has k = true) (hend : w.has n = false) :
    w.runsFrom a = (a, n - 1) :: w.runsFrom n := by
  have hblock := @runs_block w.has a (w.last + 1 - a) (n - 1 - a)
    (by omega) (fun k hk => hhas (a + k) (by omega) (by omega))
    (.inr (by rw [show a + (n - 1 - a) + 1 = n by omega]; exact hend))
  unfold ReceiveWindow.runsFrom
  rw [hblock, show a + (n - 1 - a) = n - 1 by omega, show n - 1 + 1 = n by omega]
  congr 2
  omega

/-- A run up to the last TSN is the only one. -/
theorem ReceiveWindow.runsFrom_tail {a : Nat} (ha : a ≤ w.last)
    (hhas : ∀ k, a ≤ k → k ≤ w.last → w.has k = true) : w.runsFrom a = [(a, w.last)] := by
  have hblock := @runs_block w.has a (w.last + 1 - a) (w.last - a)
    (by omega) (fun k hk => hhas (a + k) (by omega) (by omega)) (.inl (by omega))
  unfold ReceiveWindow.runsFrom
  rw [hblock, show a + (w.last - a) = w.last by omega,
    show w.last + 1 - a - (w.last - a) - 1 = 0 by omega, runs]

/-- The runs that a scan still has to report: those from the TSN it looks at, or from the start of
the block it is in. -/
structure Scanning (w : ReceiveWindow) (s : ReceivePayloadQueue.GapScan) (n a : Nat) : Prop where
  tsn : s.tsn = tsn n
  inside : w.cum < n ∧ n ≤ w.last
  from_eq : s.findEnd = false → a = n
  start : s.findEnd = true → s.start = BitVec.ofNat 16 (a - w.cum)
  after : w.cum < a ∧ a ≤ n
  run : ∀ k, a ≤ k → k < n → w.has k = true
  nonempty : s.findEnd = true → a < n ∨ w.has n = true

/-- The turns a scan can still take: one for each TSN, and one more to change what it looks for. -/
def ReceiveWindow.turns (w : ReceiveWindow) (findEnd : Bool) (n : Nat) : Nat :=
  2 * (w.last + 1 - n) + if findEnd = w.has n then 0 else 1

theorem ReceiveWindow.turns_lt {e f : Bool} {n n' : Nat} (h : n < n') (hn : n' ≤ w.last) :
    w.turns f n' < w.turns e n := by
  unfold ReceiveWindow.turns
  split <;> split <;> omega

/-- A turn that finds what it looks for, here or further on, leaves fewer. -/
theorem ReceiveWindow.turns_switch {e : Bool} {n i : Nat} (hn : n + i ≤ w.last)
    (hhas : w.has (n + i) = !e) : w.turns (!e) (n + i) < w.turns e n := by
  rcases Nat.eq_zero_or_pos i with hzero | hpos
  · subst hzero
    rw [Nat.add_zero] at hhas ⊢
    unfold ReceiveWindow.turns
    rw [hhas]
    simp
  · exact w.turns_lt (by omega) hn

/-- The blocks a scan ends with: what it has, and the runs it still has to report. -/
def ReceiveWindow.report (w : ReceiveWindow) (m : Nat) (blocks : List GapAckBlock) (a : Nat) :
    List GapAckBlock :=
  blocks ++ ((w.runsFrom a).take (m - blocks.length)).map w.block

/-- A scan with enough fuel reports its runs. -/
def Reports (q : ReceivePayloadQueue) (w : ReceiveWindow) (m fuel : Nat) : Prop :=
  ∀ (s : ReceivePayloadQueue.GapScan) (n a : Nat), Scanning w s n a →
    w.turns s.findEnd n < fuel → q.gapScan m s fuel = w.report m s.blocks a

section Scan

variable {m fuel n a : Nat} {s : ReceivePayloadQueue.GapScan}

/-- A turn that looks for a start leaves the runs to report as they are. -/
theorem gapScan_findBlockStart (h : Holds q w) (hlast : w.has w.last = true)
    (hrest : Reports q w m fuel) (hs : Scanning w s n a) (hfind : s.findEnd = false)
    (hfuel : w.turns false n ≤ fuel) :
    q.gapScan m (q.findBlockStart s) fuel = w.report m s.blocks a := by
  have hin := hs.inside
  have han := hs.from_eq hfind
  subst han
  rcases findBlockStart_spec h hs.inside hlast s hs.tsn with
    ⟨i, hi, hmiss, hhas, heq⟩ | ⟨i, hpos, hi, hmiss, heq⟩
  · -- the start of a block: the scan looks for its end from there
    have hnext : Scanning w (q.findBlockStart s) (a + i) (a + i) := by
      rw [heq]
      exact ⟨rfl, ⟨by omega, hi⟩, by simp, fun _ => rfl, ⟨by omega, Nat.le_refl _⟩,
        fun k h1 h2 => by omega, fun _ => .inr hhas⟩
    have hturns : w.turns true (a + i) < fuel :=
      Nat.lt_of_lt_of_le (w.turns_switch (e := false) hi hhas) hfuel
    rw [hrest _ _ _ hnext (by rw [heq]; exact hturns), ReceiveWindow.report,
      ReceiveWindow.report, ReceiveWindow.runsFrom_skip hi hmiss, heq]
  · have hnext : Scanning w (q.findBlockStart s) (a + i) (a + i) := by
      rw [heq]
      exact ⟨rfl, ⟨by omega, hi⟩, fun _ => rfl, by simp [hfind], ⟨by omega, Nat.le_refl _⟩,
        fun k h1 h2 => by omega, by simp [hfind]⟩
    have hturns := w.turns_lt (e := false) (f := s.findEnd) (show a < a + i by omega) hi
    rw [hrest _ _ _ hnext (by rw [heq]; exact Nat.lt_of_lt_of_le hturns hfuel),
      ReceiveWindow.report, ReceiveWindow.report, ReceiveWindow.runsFrom_skip hi hmiss, heq]

/-- A turn that looks for an end either reports the first run or leaves the runs as they are. -/
theorem gapScan_findBlockEnd (h : Holds q w) (hsmall : w.size + 64 < 2 ^ 31)
    (hrest : Reports q w m fuel) (hs : Scanning w s n a) (hfind : s.findEnd = true)
    (hfuel : w.turns true n ≤ fuel) (hroom : s.blocks.length < m) :
    (if sna32GT (q.findBlockEnd s).tsn q.tailTSN then
        (q.findBlockEnd s).blocks ++
          [{ start := s.start, stop := (q.tailTSN - q.cumulativeTSN).setWidth 16 }]
      else q.gapScan m (q.findBlockEnd s) fuel) = w.report m s.blocks a := by
  have hin := hs.inside
  have hle := last_le h.inside
  have hstart := hs.start hfind
  have hafter := hs.after
  have hne := hs.nonempty hfind
  obtain ⟨i, hrun, hi64, hcase⟩ := findBlockEnd_spec h hsmall hs.inside s hs.tsn
  have htsn : (q.findBlockEnd s).tsn = tsn (n + i) := by
    rcases hcase with ⟨_, heq⟩ | ⟨_, heq⟩ <;> rw [heq]
  have hhas (k : Nat) (h1 : a ≤ k) (h2 : k < n + i) (h3 : k ≤ w.last) : w.has k = true := by
    by_cases hk : k < n
    · exact hs.run k h1 hk
    · have := hrun (k - n) (by omega) (by omega)
      rwa [show n + (k - n) = k by omega] at this
  rw [htsn, (h.lte_tail hsmall ⟨by omega, by omega⟩).2]
  by_cases hpast : w.last < n + i
  · -- the block goes on to the last TSN
    have hblocks : (q.findBlockEnd s).blocks = s.blocks := by
      rcases hcase with ⟨_, heq⟩ | ⟨_, heq⟩
      · rw [heq, if_neg (by omega)]
      · rw [heq]
    rw [if_pos (decide_eq_true hpast), hblocks, ReceiveWindow.report,
      ReceiveWindow.runsFrom_tail (by omega) fun k h1 h2 => hhas k h1 (by omega) h2,
      h.tail, h.offset16 ⟨cum_le_last w, hle⟩, hstart,
      show m - s.blocks.length = m - s.blocks.length - 1 + 1 by omega]
    simp [ReceiveWindow.block]
  · rw [if_neg (by simp [hpast])]
    rcases hcase with ⟨hmiss, heq⟩ | ⟨hpos, heq⟩
    · -- the end of the block: it is the first run
      have hmiss := hmiss (by omega)
      have han : a < n + i := by
        rcases Nat.eq_zero_or_pos i with hzero | hpos
        · subst hzero
          rcases hne with hlt | hn
          · omega
          · rw [Nat.add_zero, hn] at hmiss
            cases hmiss
        · omega
      have hstop : (tsn (n + i) - 1#32 - q.cumulativeTSN).setWidth 16 =
          BitVec.ofNat 16 (n + i - 1 - w.cum) := by
        have hprev : tsn (n + i) - 1#32 = tsn (n + i - 1) := by
          obtain ⟨l, hl⟩ : ∃ l, n + i = l + 1 := ⟨n + i - 1, by omega⟩
          rw [hl, tsn_add, BitVec.add_sub_cancel, Nat.add_sub_cancel]
        rw [hprev]
        exact h.offset16 ⟨by omega, by omega⟩
      have hnext : Scanning w (q.findBlockEnd s) (n + i) (n + i) := by
        rw [heq]
        exact ⟨rfl, ⟨by omega, by omega⟩, fun _ => rfl, by simp, ⟨by omega, Nat.le_refl _⟩,
          fun k h1 h2 => by omega, by simp⟩
      have hturns : w.turns false (n + i) < fuel :=
        Nat.lt_of_lt_of_le (w.turns_switch (e := true) (by omega) hmiss) hfuel
      rw [hrest _ _ _ hnext (by rw [heq]; exact hturns), ReceiveWindow.report,
        ReceiveWindow.report,
        ReceiveWindow.runsFrom_block han (by omega) (fun k h1 h2 => hhas k h1 h2 (by omega)) hmiss,
        heq]
      simp only [if_pos (show n + i ≤ w.last by omega), hstop, hstart]
      rw [show m - s.blocks.length = m - s.blocks.length - 1 + 1 by omega, List.take_succ_cons,
        List.map_cons, List.length_append, List.length_singleton, List.append_assoc]
      rfl
    · -- the end of the word
      have hnext : Scanning w (q.findBlockEnd s) (n + i) a := by
        rw [heq]
        exact ⟨rfl, ⟨by omega, by omega⟩, by simp [hfind], fun _ => hstart,
          ⟨by omega, by omega⟩, fun k h1 h2 => hhas k h1 h2 (by omega), fun _ => .inl (by omega)⟩
      have hturns := w.turns_lt (e := true) (f := s.findEnd) (show n < n + i by omega) (by omega)
      rw [hrest _ _ _ hnext (by rw [heq]; exact Nat.lt_of_lt_of_le hturns hfuel), heq]

end Scan

/-- By induction on the turns left: every turn either reports the first run or brings the scan
nearer to its end. -/
theorem gapScan_reports (h : Holds q w) (hsmall : w.size + 64 < 2 ^ 31)
    (hlast : w.has w.last = true) (m fuel : Nat) : Reports q w m fuel := by
  induction fuel with
  | zero =>
      intro s n a _ hfuel
      omega
  | succ fuel ih =>
      intro s n a hs hfuel
      have hin := hs.inside
      rw [ReceivePayloadQueue.gapScan]
      have hcond : sna32LTE s.tsn q.tailTSN = true := by
        rw [hs.tsn, (h.lte_tail hsmall ⟨by omega, by omega⟩).1]
        exact decide_eq_true hs.inside.2
      by_cases hroom : s.blocks.length < m
      · rw [if_pos ⟨hcond, by exact_mod_cast hroom⟩]
        cases hfind : s.findEnd with
        | false =>
            rw [if_neg (by simp)]
            rw [hfind] at hfuel
            exact gapScan_findBlockStart h hlast ih hs hfind (by omega)
        | true =>
            rw [if_pos rfl]
            rw [hfind] at hfuel
            exact gapScan_findBlockEnd h hsmall ih hs hfind (by omega) hroom
      · rw [if_neg (by rintro ⟨_, hlt⟩; exact hroom (by exact_mod_cast hlt)),
          ReceiveWindow.report, show m - s.blocks.length = 0 by omega]
        simp

/-- The blocks are the first `maxBlocks` runs of TSNs behind the cumulative TSN. -/
theorem getGapAckBlocks_eq (h : Holds q w) (hsmall : w.size + 64 < 2 ^ 31) (maxBlocks : Int) :
    q.getGapAckBlocks maxBlocks =
      ((w.runsFrom (w.cum + 1)).take maxBlocks.toNat).map w.block := by
  have hle := last_le h.inside
  unfold ReceivePayloadQueue.getGapAckBlocks
  by_cases hempty : w.received = ∅
  · rw [if_pos (.inl (h.chunkSize_eq_zero.mpr hempty)), ReceiveWindow.runsFrom,
      last_of_empty hempty, Nat.sub_self, runs, List.take_nil, List.map_nil]
  · by_cases hnone : maxBlocks ≤ 0
    · rw [if_pos (.inr hnone), Int.toNat_of_nonpos hnone, List.take_zero, List.map_nil]
    · rw [if_neg (by rw [h.chunkSize_eq_zero]; simp [hempty, hnone])]
      have hmem := last_mem h.inside (Finset.nonempty_iff_ne_empty.mpr hempty)
      have hlt := (h.inside _ hmem).1
      have hdist : (q.tailTSN - q.cumulativeTSN).toNat = w.last - w.cum := by
        have hoff := offset_tsn (w := w) (d := w.last - w.cum) (by have := h.small; omega)
        rw [show w.cum + (w.last - w.cum) = w.last by omega] at hoff
        rw [h.tail, h.cum]
        exact hoff
      have hscan := gapScan_reports h hsmall (decide_eq_true hmem) maxBlocks.toNat
        (2 * (w.last - w.cum) + 2)
        { tsn := q.cumulativeTSN + 1#32, findEnd := false, start := 0, blocks := [] }
        (w.cum + 1) (w.cum + 1)
        ⟨by rw [h.cum, tsn_add], ⟨by omega, by omega⟩, fun _ => rfl, by simp,
          ⟨by omega, Nat.le_refl _⟩, fun k h1 h2 => by omega, by simp⟩
        (by
          unfold ReceiveWindow.turns
          split <;> omega)
      rw [Int.toNat_of_nonneg (by omega)] at hscan
      rw [hdist, hscan, ReceiveWindow.report, List.nil_append, List.length_nil, Nat.sub_zero]

/-! ### What the blocks say -/

/-- The offsets of a block. -/
def GapAckBlock.span (b : GapAckBlock) : Nat × Nat := (b.start.toNat, b.stop.toNat)

/-- The offsets of a run. -/
def shiftRun (cum : Nat) (b : Nat × Nat) : Nat × Nat := (b.1 - cum, b.2 - cum)

theorem separated_shift {cum lo : Nat} {bs : List (Nat × Nat)} (h : Separated (cum + lo) bs) :
    Separated lo (bs.map (shiftRun cum)) := by
  induction bs generalizing lo with
  | nil => trivial
  | cons b bs ih =>
      have hlo : cum + lo ≤ b.1 := h.1
      have hle : b.1 ≤ b.2 := h.2.1
      refine ⟨?_, ?_, ih ?_⟩
      · show lo ≤ b.1 - cum
        omega
      · show b.1 - cum ≤ b.2 - cum
        omega
      · rw [show cum + (b.2 - cum + 2) = b.2 + 2 by omega]
        exact h.2.2

theorem covered_shift {cum d lo : Nat} {bs : List (Nat × Nat)} (h : Separated (cum + lo) bs) :
    Covered (bs.map (shiftRun cum)) d ↔ Covered bs (cum + d) := by
  induction bs generalizing lo with
  | nil => simp [Covered]
  | cons b bs ih =>
      have hlo : cum + lo ≤ b.1 := h.1
      have hle : b.1 ≤ b.2 := h.2.1
      have hrest : Separated (cum + (b.2 - cum + 2)) bs := by
        rw [show cum + (b.2 - cum + 2) = b.2 + 2 by omega]
        exact h.2.2
      have hspan : ((shiftRun cum b).1 ≤ d ∧ d ≤ (shiftRun cum b).2) ↔
          (b.1 ≤ cum + d ∧ cum + d ≤ b.2) := by
        show (b.1 - cum ≤ d ∧ d ≤ b.2 - cum) ↔ _
        omega
      rw [List.map_cons, covered_cons, covered_cons, ih hrest, hspan]

theorem separated_runsFrom (w : ReceiveWindow) :
    Separated (w.cum + 1) (w.runsFrom (w.cum + 1)) := separated_runs _ _

/-- The runs of a window end within it. -/
theorem run_le_last {b : Nat × Nat} (hb : b ∈ w.runsFrom (w.cum + 1)) :
    b.1 ≤ b.2 ∧ b.2 ≤ w.last := by
  have hle : b.1 ≤ b.2 := separated_le (separated_runsFrom w) b hb
  have hcov : Covered (w.runsFrom (w.cum + 1)) b.2 := ⟨b, hb, hle, Nat.le_refl _⟩
  have := (covered_runs.mp hcov).2.1
  have := cum_le_last w
  omega
where
  /-- Each run goes up. -/
  separated_le {lo : Nat} {bs : List (Nat × Nat)} (h : Separated lo bs) :
      ∀ b ∈ bs, b.1 ≤ b.2 := by
    induction bs generalizing lo with
    | nil => simp
    | cons c cs ih =>
        intro b hb
        rcases List.mem_cons.mp hb with heq | hmem
        · exact heq ▸ h.2.1
        · exact ih h.2.2 b hmem

/-- In a window of less than 65536 TSNs the blocks hold the offsets of the runs. -/
theorem spans_getGapAckBlocks (h : Holds q w) (hsmall : w.size < 2 ^ 16) (maxBlocks : Int) :
    (q.getGapAckBlocks maxBlocks).map GapAckBlock.span =
      ((w.runsFrom (w.cum + 1)).take maxBlocks.toNat).map (shiftRun w.cum) := by
  rw [getGapAckBlocks_eq h (by omega), List.map_map]
  apply List.map_congr_left
  intro b hb
  have hb := run_le_last (List.mem_of_mem_take hb)
  have hle := last_le h.inside
  show ((BitVec.ofNat 16 (b.1 - w.cum)).toNat, (BitVec.ofNat 16 (b.2 - w.cum)).toNat) =
    (b.1 - w.cum, b.2 - w.cum)
  rw [BitVec.toNat_ofNat, BitVec.toNat_ofNat, Nat.mod_eq_of_lt (by omega),
    Nat.mod_eq_of_lt (by omega)]

/-- The TSNs that have arrived are the ones the runs cover. -/
theorem covered_runsFrom (h : w.Inside) {d : Nat} :
    Covered (w.runsFrom (w.cum + 1)) (w.cum + d) ↔ w.cum + d ∈ w.received := by
  unfold ReceiveWindow.runsFrom
  rw [covered_runs, ReceiveWindow.has, decide_eq_true_eq]
  constructor
  · exact fun hcov => hcov.2.2
  · intro hmem
    have hlo := (h _ hmem).1
    have hhi := le_last hmem
    exact ⟨hlo, by omega, hmem⟩

section Blocks

variable (h : Holds q w) (hsmall : w.size < 2 ^ 16) (maxBlocks : Int)
include h hsmall

theorem separated_spans :
    Separated 1 ((q.getGapAckBlocks maxBlocks).map GapAckBlock.span) := by
  rw [spans_getGapAckBlocks h hsmall]
  exact separated_shift ((separated_runsFrom w).take _)

/-- A TSN that a block reports has arrived. -/
theorem received_of_covered {d : Nat}
    (hd : Covered ((q.getGapAckBlocks maxBlocks).map GapAckBlock.span) d) :
    w.cum + d ∈ w.received := by
  rw [spans_getGapAckBlocks h hsmall, covered_shift ((separated_runsFrom w).take _)] at hd
  exact (covered_runsFrom h.inside).mp hd.of_take

/-- With blocks to spare every TSN that has arrived is reported. -/
theorem covered_of_received (hspare : ((q.getGapAckBlocks maxBlocks).length : Int) < maxBlocks)
    {d : Nat} (hd : w.cum + d ∈ w.received) :
    Covered ((q.getGapAckBlocks maxBlocks).map GapAckBlock.span) d := by
  have hall : (w.runsFrom (w.cum + 1)).take maxBlocks.toNat = w.runsFrom (w.cum + 1) := by
    apply List.take_of_length_le
    rw [getGapAckBlocks_eq h (by omega), List.length_map, List.length_take] at hspare
    omega
  rw [spans_getGapAckBlocks h hsmall, hall,
    covered_shift (separated_runsFrom w)]
  exact (covered_runsFrom h.inside).mpr hd

end Blocks

theorem length_getGapAckBlocks_le (h : Holds q w) (hsmall : w.size + 64 < 2 ^ 31)
    (maxBlocks : Int) : (q.getGapAckBlocks maxBlocks).length ≤ maxBlocks.toNat := by
  rw [getGapAckBlocks_eq h hsmall, List.length_map, List.length_take]
  omega

/-- A smaller bound gives the first blocks. -/
theorem getGapAckBlocks_take (h : Holds q w) (hsmall : w.size + 64 < 2 ^ 31) {less maxBlocks : Int}
    (hle : less ≤ maxBlocks) :
    q.getGapAckBlocks less = (q.getGapAckBlocks maxBlocks).take less.toNat := by
  rw [getGapAckBlocks_eq h hsmall, getGapAckBlocks_eq h hsmall, ← List.map_take, List.take_take,
    Nat.min_eq_left (by omega)]

/-- The window of an association is not empty, and rounded up to whole words of the ring it has
fewer than 2^16 TSNs, so the offsets of its gap blocks fit their 16 bits. -/
theorem size_new_getMaxTSNOffset (maxReceiveBufferSize : BitVec 32) :
    0 < (getMaxTSNOffset maxReceiveBufferSize).toNat ∧
      (getMaxTSNOffset maxReceiveBufferSize).toNat + 63 < 2 ^ 16 := by
  unfold getMaxTSNOffset minTSNOffset maxTSNOffset
  rw [BitVec.toNat_ofNat]
  omega

theorem size_call (w : ReceiveWindow) (c : ReceiveCall) : (w.call c).size = w.size := by
  cases c with
  | init t => rfl
  | push t =>
      show (w.push t).size = w.size
      unfold ReceiveWindow.push
      split_ifs <;> rfl
  | pop force =>
      show (w.pop force).size = w.size
      unfold ReceiveWindow.pop
      split_ifs <;> rfl
  | advanceCumulativeTSN t =>
      show (w.advance t).size = w.size
      unfold ReceiveWindow.advance
      split_ifs <;> rfl
  | popDuplicates => rfl

theorem size_calls (w : ReceiveWindow) (cs : List ReceiveCall) : (w.calls cs).size = w.size := by
  induction cs generalizing w with
  | nil => rfl
  | cons c cs ih => exact (ih (w.call c)).trans (size_call w c)

/-- After any sequence of calls in which the window stays level, the gap blocks of the queue of an
association are at most `maxBlocks`, go up with a missing TSN between one and the next, and report
only TSNs that have arrived. They report all of those when there are fewer blocks than allowed, and
a smaller bound drops the last blocks only. -/
theorem gap_blocks_report_received (maxReceiveBufferSize : BitVec 32) (cs : List ReceiveCall)
    (hl : (ReceiveWindow.new (getMaxTSNOffset maxReceiveBufferSize)).Levels cs)
    (maxBlocks : Int) :
    let q := (newReceivePayloadQueue (getMaxTSNOffset maxReceiveBufferSize)).calls cs
    let w := (ReceiveWindow.new (getMaxTSNOffset maxReceiveBufferSize)).calls cs
    let blocks := q.getGapAckBlocks maxBlocks
    blocks.length ≤ maxBlocks.toNat ∧
      Separated 1 (blocks.map GapAckBlock.span) ∧
      (∀ d, Covered (blocks.map GapAckBlock.span) d → w.cum + d ∈ w.received) ∧
      ((blocks.length : Int) < maxBlocks →
        ∀ d, w.cum + d ∈ w.received → Covered (blocks.map GapAckBlock.span) d) ∧
      ∀ less ≤ maxBlocks, q.getGapAckBlocks less = blocks.take less.toNat := by
  intro q w blocks
  obtain ⟨hpos, hsize⟩ := size_new_getMaxTSNOffset maxReceiveBufferSize
  have h : Holds q w := (holds_new hpos (by omega)).calls hl
  have hsmall : w.size < 2 ^ 16 := by
    rw [size_calls]
    show (_ + 63) / 64 * 64 < _
    omega
  exact ⟨length_getGapAckBlocks_le h (by omega) maxBlocks, separated_spans h hsmall maxBlocks,
    fun d hd => received_of_covered h hsmall maxBlocks hd,
    fun hspare d hd => covered_of_received h hsmall maxBlocks hspare hd,
    fun less hle => getGapAckBlocks_take h (by omega) hle⟩

/-- Three runs behind TSN 100 and room for two of them. -/
theorem gap_blocks_report_two_runs :
    let cs := [.init 100, .push 102, .push 103, .push 105, .push 200]
    (ReceiveWindow.new (getMaxTSNOffset 1048576)).Levels cs ∧
      ((newReceivePayloadQueue (getMaxTSNOffset 1048576)).calls cs).getGapAckBlocks 2 =
        (((newReceivePayloadQueue (getMaxTSNOffset 1048576)).calls cs).getGapAckBlocks 3).take
          2 := by
  intro cs
  have hl : (ReceiveWindow.new (getMaxTSNOffset 1048576)).Levels cs := by decide +kernel
  obtain ⟨-, -, -, -, htake⟩ := gap_blocks_report_received 1048576 cs hl 3
  exact ⟨hl, htake 2 (by decide)⟩

end PionBridge.Sctp
