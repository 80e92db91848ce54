import Mathlib.Data.Finset.Max
import PionBridge.Sctp.ReceivePayloadQueue

/-!
# `PionBridge.Proofs.Sctp.ReceivePayloadQueue`: the ring holds a set of TSNs

The abstract queue is a `ReceiveWindow`: the cumulative TSN as a number that never wraps, and the
finite set of the numbers behind it that have arrived. `Holds q w` relates the ring to it. Every
call keeps the relation (`Holds.call`), so that after any sequence of calls the queue answers
`hasChunk`, `canPush`, `size` and `getLastTSNReceived` as the set does (`queue_is_window`).

The ring can be read as a set only while no two TSNs of the window share a bit (`Level`). They do
share one when the window reaches over the wrap of the TSNs and the number of bits is not a power
of two (`wrapped_tsn_taken_for_received`).
-/

set_option autoImplicit false

namespace PionBridge.Sctp

open PionBridge.Lib

/-! ### The abstract queue -/

/-- The cumulative TSN `cum`, the TSNs behind it that have arrived and how far behind it they may
be, and the duplicates to report. The numbers count up without a wrap, and `n` stands for the TSN
`n % 2 ^ 32`. -/
structure ReceiveWindow where
  cum : Nat
  received : Finset Nat
  dups : List TSN
  size : Nat

namespace ReceiveWindow

/-- The TSN of a number. -/
def tsn (n : Nat) : TSN := BitVec.ofNat 32 n

/-- How far the TSN is ahead of the cumulative TSN. -/
def offset (w : ReceiveWindow) (t : TSN) : Nat := ahead (tsn w.cum) t

/-- The last number that has arrived, or `cum`. -/
def last (w : ReceiveWindow) : Nat :=
  (insert w.cum w.received).max' (Finset.insert_nonempty _ _)

def init (w : ReceiveWindow) (t : TSN) : ReceiveWindow :=
  { w with cum := t.toNat, received := ∅, dups := [] }

/-- A TSN inside the window is recorded when it is new. Other TSNs are duplicates, but for those
too far ahead. -/
def push (w : ReceiveWindow) (t : TSN) : ReceiveWindow :=
  if w.size < w.offset t ∧ w.offset t ≤ w.size + 2 ^ 31 then w
  else if 0 < w.offset t ∧ w.offset t ≤ w.size ∧ w.cum + w.offset t ∉ w.received then
    { w with received := insert (w.cum + w.offset t) w.received }
  else { w with dups := w.dups ++ [t] }

def pop (w : ReceiveWindow) (force : Bool) : ReceiveWindow :=
  if w.cum + 1 ∈ w.received ∨ force then
    { w with cum := w.cum + 1, received := w.received.erase (w.cum + 1) }
  else w

/-- A TSN less than half of the range ahead becomes the cumulative TSN. -/
def advance (w : ReceiveWindow) (t : TSN) : ReceiveWindow :=
  if w.offset t < 2 ^ 31 then
    { w with
      cum := w.cum + w.offset t
      received := w.received.filter fun n => w.cum + w.offset t < n }
  else w

def call (w : ReceiveWindow) : ReceiveCall → ReceiveWindow
  | .init t => w.init t
  | .push t => w.push t
  | .pop force => w.pop force
  | .advanceCumulativeTSN t => w.advance t
  | .popDuplicates => { w with dups := [] }

/-- Everything that has arrived lies in the window. -/
def Inside (w : ReceiveWindow) : Prop := ∀ n ∈ w.received, w.cum < n ∧ n ≤ w.cum + w.size

/-- No two numbers of the window share a bit of the ring: its size divides the range of the TSNs,
or it does not reach over a wrap. -/
def Level (w : ReceiveWindow) : Prop :=
  w.size ∣ 2 ^ 32 ∨ w.cum / 2 ^ 32 = (w.cum + w.size) / 2 ^ 32

instance (w : ReceiveWindow) : Decidable w.Level :=
  inferInstanceAs (Decidable (_ ∨ _))

theorem le_last {w : ReceiveWindow} {n : Nat} (h : n ∈ w.received) : n ≤ w.last :=
  Finset.le_max' _ _ (Finset.mem_insert_of_mem h)

theorem cum_le_last (w : ReceiveWindow) : w.cum ≤ w.last :=
  Finset.le_max' _ _ (Finset.mem_insert_self _ _)

theorem last_eq_cum_or_mem (w : ReceiveWindow) : w.last = w.cum ∨ w.last ∈ w.received :=
  Finset.mem_insert.mp (Finset.max'_mem _ _)

theorem last_of_empty {w : ReceiveWindow} (h : w.received = ∅) : w.last = w.cum := by
  rcases last_eq_cum_or_mem w with heq | hmem
  · exact heq
  · rw [h] at hmem
    exact absurd hmem (Finset.notMem_empty _)

theorem last_mem {w : ReceiveWindow} (hin : w.Inside) (h : w.received.Nonempty) :
    w.last ∈ w.received := by
  rcases last_eq_cum_or_mem w with heq | hmem
  · obtain ⟨n, hn⟩ := h
    have hle := le_last hn
    have hlt := (hin n hn).1
    omega
  · exact hmem

theorem last_le {w : ReceiveWindow} (hin : w.Inside) : w.last ≤ w.cum + w.size := by
  rcases last_eq_cum_or_mem w with heq | hmem
  · omega
  · exact (hin _ hmem).2

/-- What the last number is. -/
theorem last_eq {w : ReceiveWindow} {n : Nat} (hn : n = w.cum ∨ n ∈ w.received) (hcum : w.cum ≤ n)
    (hle : ∀ m ∈ w.received, m ≤ n) : w.last = n := by
  apply le_antisymm
  · rcases last_eq_cum_or_mem w with heq | hmem
    · omega
    · exact hle _ hmem
  · rcases hn with heq | hmem
    · exact heq ▸ cum_le_last w
    · exact le_last hmem

theorem tsn_add (m n : Nat) : tsn (m + n) = tsn m + BitVec.ofNat 32 n := BitVec.ofNat_add ..

theorem toNat_tsn (n : Nat) : (tsn n).toNat = n % 2 ^ 32 := BitVec.toNat_ofNat ..

/-- A TSN is the one of its offset. -/
theorem tsn_cum_add_offset (w : ReceiveWindow) (t : TSN) : tsn (w.cum + w.offset t) = t := by
  rw [tsn_add]
  exact add_ahead _ _

theorem offset_tsn {w : ReceiveWindow} {d : Nat} (hd : d < 2 ^ 32) :
    w.offset (tsn (w.cum + d)) = d := by
  rw [tsn_add]
  exact ahead_add _ hd

/-- Two level windows of one size that overlap lie in one level interval. -/
theorem Level.union {w w' : ReceiveWindow} (h : w.Level) (h' : w'.Level) (hsize : w'.size = w.size)
    (hle : w.cum ≤ w'.cum) (hover : w'.cum ≤ w.cum + w.size) :
    w.size ∣ 2 ^ 32 ∨ w.cum / 2 ^ 32 = (w'.cum + w.size) / 2 ^ 32 := by
  unfold Level at h h'
  rw [hsize] at h'
  omega

end ReceiveWindow

open ReceiveWindow

/-! ### What the ring stands for -/

/-- The bits of the numbers of the window from `cum` on are those of the set. -/
def Shows (ws : List (BitVec 64)) (cum : Nat) (received : Finset Nat) : Prop :=
  ∀ n, cum < n → n ≤ cum + 64 * ws.length →
    ringBit ws (n % 2 ^ 32) = decide (n ∈ received)

/-- The queue `q` stands for the window `w`. -/
structure Holds (q : ReceivePayloadQueue) (w : ReceiveWindow) : Prop where
  words : w.size = 64 * q.tsnBitmask.length
  maxTSNOffset : q.maxTSNOffset = BitVec.ofNat 32 w.size
  pos : 0 < w.size
  small : w.size < 2 ^ 31
  cum : q.cumulativeTSN = tsn w.cum
  inside : w.Inside
  bits : Shows q.tsnBitmask w.cum w.received
  count : q.chunkSize = w.received.card
  tail : q.tailTSN = tsn w.last
  dups : q.dupTSN = w.dups

namespace Holds

variable {q : ReceivePayloadQueue} {w : ReceiveWindow}

theorem length_pos (h : Holds q w) : 0 < q.tsnBitmask.length := by
  have := h.pos
  have := h.words
  omega

/-- The queue is empty when the set is. -/
theorem chunkSize_eq_zero (h : Holds q w) : q.chunkSize = 0 ↔ w.received = ∅ := by
  rw [h.count, Int.natCast_eq_zero, Finset.card_eq_zero]

/-- The comparison with the cumulative TSN, by the offset. -/
theorem lte_cum (h : Holds q w) (t : TSN) :
    sna32LTE t q.cumulativeTSN = true ↔ w.offset t = 0 ∨ 2 ^ 31 < w.offset t := by
  have hbase := serialLTE_base_iff (tsn w.cum) (by omega) (ahead_lt (tsn w.cum) t)
  rw [add_ahead] at hbase
  rw [h.cum]
  exact hbase

/-- The comparison with a number of the window, by the offset. -/
theorem gt_tsn (h : Holds q w) (t : TSN) {l : Nat} (hl : l ≤ w.size) :
    sna32GT t (tsn (w.cum + l)) = true ↔ l < w.offset t ∧ w.offset t ≤ l + 2 ^ 31 := by
  have hsmall := h.small
  have hbase := serialGT_add_iff (tsn w.cum) (by omega) (ahead_lt (tsn w.cum) t)
    (show l < 2 ^ (32 - 1) by omega)
  rw [add_ahead, ← tsn_add] at hbase
  exact hbase

/-- The comparison with the last TSN. -/
theorem gt_tail (h : Holds q w) (t : TSN) :
    sna32GT t q.tailTSN = true ↔
      w.last < w.cum + w.offset t ∧ w.cum + w.offset t ≤ w.last + 2 ^ 31 := by
  have hcum := cum_le_last w
  have hlast := last_le h.inside
  have hl : w.last = w.cum + (w.last - w.cum) := by omega
  rw [h.tail, hl, h.gt_tsn t (by omega)]
  omega

/-- The comparison with the end of the window. -/
theorem gt_window (h : Holds q w) (t : TSN) :
    sna32GT t (q.cumulativeTSN + q.maxTSNOffset) = true ↔
      w.size < w.offset t ∧ w.offset t ≤ w.size + 2 ^ 31 := by
  rw [h.cum, h.maxTSNOffset, ← tsn_add]
  exact h.gt_tsn t le_rfl

theorem hasChunk (h : Holds q w) (t : TSN) :
    q.hasChunk t = decide (w.cum + w.offset t ∈ w.received) := by
  have hlt : w.offset t < 2 ^ 32 := ahead_lt _ _
  have hsmall := h.small
  rw [Bool.eq_iff_iff, decide_eq_true_eq]
  unfold ReceivePayloadQueue.hasChunk
  split
  · rename_i hout
    -- a TSN that is refused by the three tests is not in the set
    have hnot : w.cum + w.offset t ∉ w.received := by
      intro hmem
      have hin := h.inside _ hmem
      rcases hout with hempty | hlow | hhigh
      · rw [h.chunkSize_eq_zero.mp hempty] at hmem
        exact absurd hmem (Finset.notMem_empty _)
      · have := (h.lte_cum t).mp hlow
        omega
      · have := (h.gt_tail t).mp hhigh
        have := le_last hmem
        omega
    simp [hnot]
  · rename_i hin
    rw [not_or, not_or, h.lte_cum, h.gt_tail] at hin
    have hlast := last_le h.inside
    have hcum := cum_le_last w
    have hwin : 0 < w.offset t ∧ w.offset t ≤ w.size := by omega
    have hbit := h.bits (w.cum + w.offset t) (by omega) (by rw [← h.words]; omega)
    rw [← toNat_tsn, tsn_cum_add_offset] at hbit
    rw [and_bit_ne_zero _ (Nat.mod_lt _ (by omega))]
    show ringBit q.tsnBitmask t.toNat = true ↔ _
    rw [hbit, decide_eq_true_eq]

theorem canPush (h : Holds q w) (t : TSN) :
    q.canPush t = decide (0 < w.offset t ∧ w.offset t ≤ w.size ∧
      w.cum + w.offset t ∉ w.received) := by
  have hsmall := h.small
  have hlt : w.offset t < 2 ^ 32 := ahead_lt _ _
  unfold ReceivePayloadQueue.canPush
  rw [Bool.eq_iff_iff, Bool.not_eq_true', ← Bool.not_eq_true, Bool.or_eq_true, Bool.or_eq_true,
    h.lte_cum, h.gt_window, h.hasChunk, decide_eq_true_eq, decide_eq_true_eq]
  constructor
  · intro hno
    exact ⟨by omega, by omega, fun hmem => hno (.inl (.inl hmem))⟩
  · rintro ⟨hpos, hle, hmem⟩ hyes
    rcases hyes with (hyes | hyes) | hyes
    · exact hmem hyes
    · omega
    · omega

end Holds

/-! ### What the changes of the ring do to the set -/

section Shows

variable {ws : List (BitVec 64)} {cum : Nat} {received : Finset Nat}

/-- Two numbers of a level window have the same bit only if they are equal. -/
theorem bit_eq_iff {size : Nat} (hlevel : size ∣ 2 ^ 32 ∨ cum / 2 ^ 32 = (cum + size) / 2 ^ 32)
    {m n : Nat} (hm : cum < m ∧ m ≤ cum + size) (hn : cum < n ∧ n ≤ cum + size) :
    m % 2 ^ 32 % size = n % 2 ^ 32 % size ↔ m = n := by
  rw [wrap_mod_iff hlevel ⟨hm.1.le, hm.2⟩ ⟨hn.1.le, hn.2⟩]
  constructor
  · intro h
    exact eq_of_mod_eq h (by omega) (by omega)
  · intro h
    rw [h]

theorem Shows.insert (hws : 0 < ws.length)
    (hlevel : 64 * ws.length ∣ 2 ^ 32 ∨ cum / 2 ^ 32 = (cum + 64 * ws.length) / 2 ^ 32)
    (h : Shows ws cum received) {m : Nat} (hm : cum < m ∧ m ≤ cum + 64 * ws.length) :
    Shows (ringModify ws (m % 2 ^ 32) fun v => v ||| 1#64 <<< (m % 2 ^ 32 % 64)) cum
      (insert m received) := by
  intro n hlo hhi
  rw [length_ringModify] at hhi
  rw [ringBit_setBit hws, h n hlo hhi, Bool.eq_iff_iff]
  simp only [Bool.or_eq_true, decide_eq_true_eq, Finset.mem_insert,
    bit_eq_iff hlevel ⟨hlo, hhi⟩ hm]

/-- The window moves on by `d`. A new number shares its bit with one that is left behind, so those
bits have to be clear. -/
theorem Shows.advance {d : Nat} (hd : d ≤ 64 * ws.length)
    (hlevel : 64 * ws.length ∣ 2 ^ 32 ∨ cum / 2 ^ 32 = (cum + d + 64 * ws.length) / 2 ^ 32)
    (h : Shows ws cum received) (hpassed : ∀ n ∈ received, cum + d < n)
    (hin : ∀ n ∈ received, n ≤ cum + 64 * ws.length) : Shows ws (cum + d) received := by
  intro n hlo hhi
  by_cases hnew : n ≤ cum + 64 * ws.length
  · exact h n (by omega) hnew
  · obtain ⟨m, hm⟩ : ∃ m, n = m + 64 * ws.length := ⟨n - 64 * ws.length, by omega⟩
    have hshare : n % 2 ^ 32 % (64 * ws.length) = m % 2 ^ 32 % (64 * ws.length) := by
      rw [wrap_mod_iff hlevel ⟨by omega, by omega⟩ ⟨by omega, by omega⟩, hm, Nat.add_mod_right]
    have hout : n ∉ received := fun hmem => hnew (hin n hmem)
    have hback : m ∉ received := by
      intro hmem
      have hlt := hpassed m hmem
      omega
    rw [ringBit_congr hshare, h m (by omega) (by omega)]
    simp [hback, hout]

theorem Shows.erase (hws : 0 < ws.length)
    (hlevel : 64 * ws.length ∣ 2 ^ 32 ∨ cum / 2 ^ 32 = (cum + 64 * ws.length) / 2 ^ 32)
    (h : Shows ws cum received) {m : Nat} (hm : cum < m ∧ m ≤ cum + 64 * ws.length) :
    Shows (ringModify ws (m % 2 ^ 32) fun v => v &&& ~~~(1#64 <<< (m % 2 ^ 32 % 64))) cum
      (received.erase m) := by
  intro n hlo hhi
  rw [length_ringModify] at hhi
  rw [ringBit_clearBit hws, h n hlo hhi, Bool.eq_iff_iff]
  simp only [Bool.and_eq_true, Bool.not_eq_true', decide_eq_false_iff_not, decide_eq_true_eq,
    Finset.mem_erase, bit_eq_iff hlevel ⟨hlo, hhi⟩ hm, ne_eq]

/-- One word is cleared, from the bit of `a` on for `k` bits. -/
theorem Shows.clearWord (hws : 0 < ws.length)
    (hlevel : 64 * ws.length ∣ 2 ^ 32 ∨ cum / 2 ^ 32 = (cum + 64 * ws.length) / 2 ^ 32)
    (h : Shows ws cum received) {a k : Nat} (hk : a % 2 ^ 32 % 64 + k ≤ 64) (ha : cum < a)
    (hak : a + k ≤ cum + 64 * ws.length + 1) :
    Shows (ringModify ws (a % 2 ^ 32) fun v => v &&& ~~~bitsMask k (a % 2 ^ 32 % 64)) cum
      (received.filter fun n => ¬ (a ≤ n ∧ n < a + k)) := by
  intro n hlo hhi
  rw [length_ringModify] at hhi
  -- no TSN of a word is behind a wrap
  have hplace (i : Nat) (hi : i < k) : a % 2 ^ 32 + i = (a + i) % 2 ^ 32 := by omega
  have hshare : (∃ i < k, n % 2 ^ 32 % (64 * ws.length) = (a % 2 ^ 32 + i) % (64 * ws.length)) ↔
      a ≤ n ∧ n < a + k := by
    constructor
    · rintro ⟨i, hi, heq⟩
      rw [hplace i hi, bit_eq_iff hlevel ⟨hlo, hhi⟩ ⟨by omega, by omega⟩] at heq
      omega
    · rintro ⟨hle, hlt⟩
      refine ⟨n - a, by omega, ?_⟩
      rw [hplace _ (by omega)]
      congr 2
      omega
  rw [ringBit_clearBits hws hk, h n hlo hhi, Bool.eq_iff_iff]
  simp only [Bool.and_eq_true, Bool.not_eq_true', decide_eq_false_iff_not, decide_eq_true_eq,
    Finset.mem_filter, hshare]
  exact and_comm

/-- The bits that are cleared are those of the numbers that leave the set. -/
theorem Shows.popCount_word (h : Shows ws cum received) {a k : Nat}
    (hk : a % 2 ^ 32 % 64 + k ≤ 64) (ha : cum < a) (hak : a + k ≤ cum + 64 * ws.length + 1) :
    popCount (ws.getD (ringIndex ws.length (a % 2 ^ 32)) 0 &&& bitsMask k (a % 2 ^ 32 % 64)) =
      (received.filter fun n => a ≤ n ∧ n < a + k).card := by
  rw [popCount_and_bitsMask ws hk]
  apply Finset.card_bij (fun i _ => a + i)
  · intro i hi
    obtain ⟨hik, hbit⟩ := Finset.mem_filter.mp hi
    have hik : i < k := Finset.mem_range.mp hik
    have hplace : a % 2 ^ 32 + i = (a + i) % 2 ^ 32 := by omega
    rw [hplace, h (a + i) (by omega) (by omega), decide_eq_true_eq] at hbit
    exact Finset.mem_filter.mpr ⟨hbit, by omega⟩
  · intro i _ j _ hij
    omega
  · intro n hn
    obtain ⟨hmem, hle, hlt⟩ := Finset.mem_filter.mp hn
    refine ⟨n - a, ?_, by omega⟩
    have hplace : a % 2 ^ 32 + (n - a) = n % 2 ^ 32 := by omega
    rw [Finset.mem_filter, Finset.mem_range, hplace, h n (by omega) (by omega)]
    exact ⟨by omega, decide_eq_true hmem⟩

theorem shows_zero (ws : List (BitVec 64)) (c : Nat) : Shows (ws.map fun _ => 0) c ∅ := by
  intro n _ _
  unfold ringBit
  rw [List.getD_eq_getElem?_getD, List.getElem?_map]
  cases ws[ringIndex (ws.map fun _ => (0 : BitVec 64)).length (n % 2 ^ 32)]? with
  | none => simp
  | some v => simp

end Shows

/-! ### The calls -/

/-- What the loop of `clearTSNRange` leaves as it is. -/
theorem clearLoop_frame (q : ReceivePayloadQueue) (t : TSN) (remaining fuel : Nat) :
    ∃ ws c, q.clearLoop t remaining fuel = { q with tsnBitmask := ws, chunkSize := c } := by
  induction fuel generalizing q t remaining with
  | zero => exact ⟨_, _, rfl⟩
  | succ fuel ih =>
      unfold ReceivePayloadQueue.clearLoop
      split
      · exact ⟨_, _, rfl⟩
      · obtain ⟨ws, c, heq⟩ := ih (q.clearBits t (min remaining (64 - t.toNat % 64)))
          (t + BitVec.ofNat 32 (min remaining (64 - t.toNat % 64)))
          (remaining - min remaining (64 - t.toNat % 64))
        exact ⟨ws, c, heq⟩

/-- One turn takes the numbers of one word out of the set. -/
theorem clearBits_shows {q : ReceivePayloadQueue} {cum a k : Nat} {received : Finset Nat}
    (hws : 0 < q.tsnBitmask.length)
    (hlevel : 64 * q.tsnBitmask.length ∣ 2 ^ 32 ∨
      cum / 2 ^ 32 = (cum + 64 * q.tsnBitmask.length) / 2 ^ 32)
    (hk : a % 2 ^ 32 % 64 + k ≤ 64) (ha : cum < a)
    (hak : a + k ≤ cum + 64 * q.tsnBitmask.length + 1)
    (h : Shows q.tsnBitmask cum received) (hcount : q.chunkSize = received.card) :
    Shows (q.clearBits (tsn a) k).tsnBitmask cum
        (received.filter fun n => ¬ (a ≤ n ∧ n < a + k)) ∧
      (q.clearBits (tsn a) k).chunkSize =
        (received.filter fun n => ¬ (a ≤ n ∧ n < a + k)).card := by
  have ht : (tsn a).toNat = a % 2 ^ 32 := toNat_tsn a
  have hcleared := h.popCount_word hk ha hak
  have hsplit := Finset.card_filter_add_card_filter_not (s := received)
    (fun n => a ≤ n ∧ n < a + k)
  unfold ReceivePayloadQueue.clearBits ReceivePayloadQueue.word
  rw [ht]
  refine ⟨h.clearWord hws hlevel hk ha hak, ?_⟩
  show q.chunkSize - (popCount _ : Int) = _
  rw [hcleared, hcount]
  omega

/-- The loop of `clearTSNRange` takes the numbers from `a` on out of the set, as many as it is told
to. The induction is on the turns. -/
theorem clearLoop_shows {q : ReceivePayloadQueue} {cum a remaining : Nat} {received : Finset Nat}
    (fuel : Nat) (hfuel : remaining ≤ fuel) (hws : 0 < q.tsnBitmask.length)
    (hlevel : 64 * q.tsnBitmask.length ∣ 2 ^ 32 ∨
      cum / 2 ^ 32 = (cum + 64 * q.tsnBitmask.length) / 2 ^ 32)
    (ha : cum < a) (hrem : a + remaining ≤ cum + 64 * q.tsnBitmask.length + 1)
    (h : Shows q.tsnBitmask cum received) (hcount : q.chunkSize = received.card) :
    (q.clearLoop (tsn a) remaining fuel).tsnBitmask.length = q.tsnBitmask.length ∧
      Shows (q.clearLoop (tsn a) remaining fuel).tsnBitmask cum
        (received.filter fun n => ¬ (a ≤ n ∧ n < a + remaining)) ∧
      (q.clearLoop (tsn a) remaining fuel).chunkSize =
        (received.filter fun n => ¬ (a ≤ n ∧ n < a + remaining)).card := by
  -- nothing is left to do
  have hdone : remaining = 0 →
      (received.filter fun n => ¬ (a ≤ n ∧ n < a + remaining)) = received := by
    intro hzero
    exact Finset.filter_true_of_mem fun n _ => by omega
  induction fuel generalizing q a remaining received with
  | zero =>
      rw [hdone (by omega)]
      exact ⟨rfl, h, hcount⟩
  | succ fuel ih =>
      unfold ReceivePayloadQueue.clearLoop
      split
      · rename_i hzero
        rw [hdone hzero]
        exact ⟨rfl, h, hcount⟩
      · rename_i hpos
        have ht : (tsn a).toNat = a % 2 ^ 32 := toNat_tsn a
        generalize hk : min remaining (64 - (tsn a).toNat % 64) = k
        rw [ht] at hk
        have hturn := clearBits_shows hws hlevel (by omega) ha (by omega) h hcount (k := k)
        have hlen : (q.clearBits (tsn a) k).tsnBitmask.length = q.tsnBitmask.length := by
          simp [ReceivePayloadQueue.clearBits]
        have hboth : ((received.filter fun n => ¬ (a ≤ n ∧ n < a + k)).filter fun n =>
            ¬ (a + k ≤ n ∧ n < a + k + (remaining - k))) =
            received.filter fun n => ¬ (a ≤ n ∧ n < a + remaining) := by
          rw [Finset.filter_filter]
          exact Finset.filter_congr fun n _ => by omega
        rw [← hlen] at hws hlevel hrem
        have hrest := @ih _ (a + k) (remaining - k) _ (by omega) hws hlevel (by omega) (by omega)
          hturn.1 hturn.2 (fun hzero => Finset.filter_true_of_mem fun n _ => by omega)
        rw [hboth, hlen, tsn_add] at hrest
        exact hrest

namespace Holds

variable {q : ReceivePayloadQueue} {w : ReceiveWindow}

/-- The level condition, for the ring of the queue. -/
theorem level (h : Holds q w) (hl : w.Level) : 64 * q.tsnBitmask.length ∣ 2 ^ 32 ∨
    w.cum / 2 ^ 32 = (w.cum + 64 * q.tsnBitmask.length) / 2 ^ 32 := by
  rw [← h.words]
  exact hl

theorem init (h : Holds q w) (t : TSN) : Holds (q.init t) (w.init t) where
  words := by simpa [ReceivePayloadQueue.init, ReceiveWindow.init] using h.words
  maxTSNOffset := h.maxTSNOffset
  pos := h.pos
  small := h.small
  cum := by simp [ReceivePayloadQueue.init, ReceiveWindow.init, tsn]
  inside := fun n hn => absurd hn (Finset.notMem_empty _)
  bits := shows_zero _ _
  count := rfl
  tail := by
    rw [last_of_empty (by rfl)]
    simp [ReceivePayloadQueue.init, ReceiveWindow.init, tsn]
  dups := rfl

/-- A new TSN of the window is recorded. -/
theorem insert (h : Holds q w) (hl : w.Level) {n : Nat} (hn : w.cum < n ∧ n ≤ w.cum + w.size)
    (hnew : n ∉ w.received) :
    Holds
      { q with
        tsnBitmask := ringModify q.tsnBitmask (n % 2 ^ 32) fun v =>
          v ||| 1#64 <<< (n % 2 ^ 32 % 64)
        chunkSize := q.chunkSize + 1
        tailTSN := tsn (max n w.last) }
      { w with received := insert n w.received } where
  words := by simpa using h.words
  maxTSNOffset := h.maxTSNOffset
  pos := h.pos
  small := h.small
  cum := h.cum
  inside := by
    intro m hm
    rcases Finset.mem_insert.mp hm with heq | hold
    · exact heq ▸ hn
    · exact h.inside m hold
  bits := h.bits.insert h.length_pos (h.level hl) (by rwa [← h.words])
  count := by
    show q.chunkSize + 1 = _
    rw [Finset.card_insert_of_notMem hnew, h.count]
    omega
  tail := by
    have hcum := cum_le_last w
    show tsn (max n w.last) = _
    congr 1
    symm
    apply last_eq
    · rcases last_eq_cum_or_mem w with heq | hold
      · have hmax : max n w.last = n := by omega
        rw [hmax]
        exact .inr (Finset.mem_insert_self _ _)
      · rcases max_choice n w.last with hmax | hmax
        · rw [hmax]
          exact .inr (Finset.mem_insert_self _ _)
        · rw [hmax]
          exact .inr (Finset.mem_insert_of_mem hold)
    · show w.cum ≤ _
      omega
    · intro m hm
      rcases Finset.mem_insert.mp hm with heq | hold
      · omega
      · exact le_max_of_le_right (le_last hold)
  dups := h.dups

theorem push (h : Holds q w) (hl : w.Level) (t : TSN) : Holds (q.push t).1 (w.push t) := by
  have hsmall := h.small
  have hlast := last_le h.inside
  have hcum := cum_le_last w
  unfold ReceivePayloadQueue.push ReceiveWindow.push
  by_cases hfar : w.size < w.offset t ∧ w.offset t ≤ w.size + 2 ^ 31
  · rw [if_pos ((h.gt_window t).mpr hfar), if_pos hfar]
    exact h
  · have hlt : w.offset t < 2 ^ 32 := ahead_lt _ _
    rw [if_neg fun hgt => hfar ((h.gt_window t).mp hgt), if_neg hfar]
    by_cases hmem : w.cum + w.offset t ∈ w.received
    · have hdup : (sna32LTE t q.cumulativeTSN || q.hasChunk t) = true := by
        rw [Bool.or_eq_true, h.hasChunk, decide_eq_true_eq]
        exact .inr hmem
      rw [if_pos hdup, if_neg fun hnew => hnew.2.2 hmem]
      exact { h with dups := by rw [h.dups] }
    · by_cases hwin : 0 < w.offset t ∧ w.offset t ≤ w.size
      · have hfresh : ¬ (sna32LTE t q.cumulativeTSN || q.hasChunk t) = true := by
          rw [Bool.or_eq_true, h.lte_cum, h.hasChunk, decide_eq_true_eq, not_or]
          exact ⟨by omega, hmem⟩
        have ht : t.toNat = (w.cum + w.offset t) % 2 ^ 32 := by
          rw [← toNat_tsn, tsn_cum_add_offset]
        -- the new TSN is the last one if it is behind the old one
        have htail : (if sna32GT t q.tailTSN then t else q.tailTSN) =
            tsn (max (w.cum + w.offset t) w.last) := by
          by_cases hgt : sna32GT t q.tailTSN = true
          · have hbehind := (h.gt_tail t).mp hgt
            rw [if_pos hgt, max_eq_left (by omega), tsn_cum_add_offset]
          · have hbehind : ¬ (w.last < w.cum + w.offset t ∧ w.cum + w.offset t ≤ w.last + 2 ^ 31) :=
              fun hle => hgt ((h.gt_tail t).mpr hle)
            rw [if_neg hgt, max_eq_right (by omega), h.tail]
        rw [if_neg hfresh, htail, if_pos ⟨hwin.1, hwin.2, hmem⟩, ht]
        exact h.insert hl (by omega) hmem
      · have hdup : (sna32LTE t q.cumulativeTSN || q.hasChunk t) = true := by
          rw [Bool.or_eq_true, h.lte_cum]
          left
          omega
        rw [if_pos hdup, if_neg fun hnew => hwin ⟨hnew.1, hnew.2.1⟩]
        exact { h with dups := by rw [h.dups] }

/-- The cumulative TSN moves on by `d`. What stays of the window lies behind it, and the ring and
the counter show just that. -/
theorem move (h : Holds q w) (hl : w.Level) {d : Nat} {c : Int} {received : Finset Nat}
    {ws : List (BitVec 64)} {tail : TSN} (hd : d ≤ w.size)
    (hl' : Level { w with cum := w.cum + d }) (hsub : received ⊆ w.received)
    (hgt : ∀ n ∈ received, w.cum + d < n) (hlen : ws.length = q.tsnBitmask.length)
    (hbits : Shows ws w.cum received) (hcount : c = (received.card : Int))
    (htail : tail = tsn (ReceiveWindow.last { w with cum := w.cum + d, received })) :
    Holds
      { q with
        tsnBitmask := ws
        chunkSize := c
        cumulativeTSN := tsn (w.cum + d)
        tailTSN := tail }
      { w with cum := w.cum + d, received } where
  words := by
    rw [hlen]
    exact h.words
  maxTSNOffset := h.maxTSNOffset
  pos := h.pos
  small := h.small
  cum := rfl
  inside := by
    intro n hn
    have hin := h.inside n (hsub hn)
    show w.cum + d < n ∧ n ≤ w.cum + d + w.size
    exact ⟨hgt n hn, by omega⟩
  bits := by
    have hover := hl.union hl' rfl (show w.cum ≤ w.cum + d by omega)
      (show w.cum + d ≤ w.cum + w.size by omega)
    rw [h.words, ← hlen] at hover
    refine hbits.advance ?_ hover hgt fun n hn => ?_
    · rw [hlen, ← h.words]
      exact hd
    · rw [hlen, ← h.words]
      exact (h.inside n (hsub hn)).2
  count := hcount
  tail := htail
  dups := h.dups

/-- The next TSN is there and leaves the set. -/
theorem next (h : Holds q w) (hl : w.Level)
    (hl' : Level { w with cum := w.cum + 1, received := w.received.erase (w.cum + 1) })
    (hmem : w.cum + 1 ∈ w.received) :
    Holds
      { q with
        tsnBitmask := ringModify q.tsnBitmask ((w.cum + 1) % 2 ^ 32) fun v =>
          v &&& ~~~(1#64 <<< ((w.cum + 1) % 2 ^ 32 % 64))
        chunkSize := q.chunkSize - 1
        cumulativeTSN := tsn (w.cum + 1) }
      { w with cum := w.cum + 1, received := w.received.erase (w.cum + 1) } := by
  refine h.move hl h.pos hl' (Finset.erase_subset _ _) ?_ (length_ringModify ..) ?_ ?_ ?_
  · intro n hn
    obtain ⟨hne, hold⟩ := Finset.mem_erase.mp hn
    have hin := h.inside n hold
    omega
  · have hpos := h.pos
    exact h.bits.erase h.length_pos (h.level hl)
      (show w.cum < w.cum + 1 ∧ w.cum + 1 ≤ _ by rw [← h.words]; omega)
  · have hcard := Finset.card_pos.mpr ⟨_, hmem⟩
    rw [Finset.card_erase_of_mem hmem, h.count]
    omega
  · -- the last TSN stays the last one, or it is the one that is popped
    rw [h.tail]
    congr 1
    symm
    apply last_eq
    · rcases last_eq_cum_or_mem w with heq | hold
      · have hle := le_last hmem
        omega
      · by_cases hsame : w.last = w.cum + 1
        · exact .inl hsame
        · exact .inr (Finset.mem_erase.mpr ⟨hsame, hold⟩)
    · exact le_last hmem
    · intro m hm
      exact le_last (Finset.mem_of_mem_erase hm)

/-- The next TSN is not there and is passed over. -/
theorem skip (h : Holds q w) (hl : w.Level) (hl' : Level { w with cum := w.cum + 1 })
    (hmem : w.cum + 1 ∉ w.received) :
    Holds
      { q with
        cumulativeTSN := tsn (w.cum + 1)
        tailTSN := if q.chunkSize = 0 then tsn (w.cum + 1) else q.tailTSN }
      { w with cum := w.cum + 1 } := by
  refine h.move hl h.pos hl' (Finset.Subset.refl _) ?_ rfl h.bits h.count ?_
  · intro n hn
    have hin := h.inside n hn
    have hne : n ≠ w.cum + 1 := fun heq => hmem (heq ▸ hn)
    omega
  · by_cases hempty : w.received = ∅
    · rw [if_pos (h.chunkSize_eq_zero.mpr hempty), last_of_empty (by exact hempty)]
    · have hlast := last_mem h.inside (Finset.nonempty_iff_ne_empty.mpr hempty)
      rw [if_neg fun hzero => hempty (h.chunkSize_eq_zero.mp hzero), h.tail]
      congr 1
      symm
      exact last_eq (.inr hlast) (h.inside _ hlast).1 fun m hm => le_last hm

theorem pop (h : Holds q w) (force : Bool) (hl : w.Level) (hl' : (w.pop force).Level) :
    Holds (q.pop force).1 (w.pop force) := by
  have htsn : q.cumulativeTSN + 1#32 = tsn (w.cum + 1) := by
    rw [h.cum]
    exact (tsn_add _ _).symm
  have hnext : q.hasChunk (tsn (w.cum + 1)) = decide (w.cum + 1 ∈ w.received) := by
    rw [h.hasChunk, offset_tsn (by omega)]
  unfold ReceivePayloadQueue.pop
  unfold ReceiveWindow.pop at hl' ⊢
  simp only [htsn, hnext, toNat_tsn]
  by_cases hmem : w.cum + 1 ∈ w.received
  · simp only [hmem, true_or, decide_true, if_true] at hl' ⊢
    exact h.next hl hl' hmem
  · cases force with
    | true =>
        simp only [or_true, if_true, Finset.erase_eq_of_notMem hmem] at hl' ⊢
        simp only [hmem, decide_false, Bool.false_eq_true, if_false]
        exact h.skip hl hl' hmem
    | false =>
        simp only [hmem, decide_false, Bool.false_eq_true, or_self, if_false]
        exact h

/-- A TSN ahead of the cumulative TSN that does not cover all that has arrived. -/
theorem clear (h : Holds q w) (hl : w.Level) {d : Nat} (hd : 0 < d) (hlast : w.cum + d < w.last)
    (hl' : Level { w with cum := w.cum + d }) :
    Holds
      { q.clearLoop (tsn (w.cum + 1)) d d with
        cumulativeTSN := tsn (w.cum + d)
        tailTSN := if (q.clearLoop (tsn (w.cum + 1)) d d).chunkSize = 0 then tsn (w.cum + d)
          else (q.clearLoop (tsn (w.cum + 1)) d d).tailTSN }
      { w with
        cum := w.cum + d
        received := w.received.filter fun n => w.cum + d < n } := by
  have hle := last_le h.inside
  have hmem : w.last ∈ w.received := by
    rcases last_eq_cum_or_mem w with heq | hmem
    · omega
    · exact hmem
  have hleft : (w.received.filter fun n => ¬ (w.cum + 1 ≤ n ∧ n < w.cum + 1 + d)) =
      w.received.filter fun n => w.cum + d < n := by
    apply Finset.filter_congr
    intro n hn
    have hin := h.inside n hn
    omega
  obtain ⟨hlen, hbits, hcount⟩ := clearLoop_shows d le_rfl h.length_pos (h.level hl)
    (show w.cum < w.cum + 1 by omega) (by rw [← h.words]; omega) h.bits h.count
  rw [hleft] at hbits hcount
  obtain ⟨ws, c, hframe⟩ := clearLoop_frame q (tsn (w.cum + 1)) d d
  rw [hframe] at hlen hbits hcount ⊢
  have hstays : w.last ∈ w.received.filter fun n => w.cum + d < n :=
    Finset.mem_filter.mpr ⟨hmem, hlast⟩
  refine h.move hl (by omega) hl' (Finset.filter_subset _ _) ?_ hlen hbits hcount ?_
  · intro n hn
    exact (Finset.mem_filter.mp hn).2
  · have hne : ¬ c = 0 := by
      have hpos := Finset.card_pos.mpr ⟨_, hstays⟩
      have hc : c = _ := hcount
      omega
    show (if c = 0 then _ else q.tailTSN) = _
    rw [if_neg hne, h.tail]
    congr 1
    symm
    apply last_eq (.inr hstays) hlast.le
    intro m hm
    exact le_last (Finset.mem_filter.mp hm).1

theorem advance (h : Holds q w) (t : TSN) (hl : w.Level) (hl' : (w.advance t).Level) :
    Holds (q.advanceCumulativeTSN t) (w.advance t) := by
  have hsmall := h.small
  have hlast := last_le h.inside
  have hcum := cum_le_last w
  have ht : tsn (w.cum + w.offset t) = t := tsn_cum_add_offset w t
  have hbehind : sna32LT q.cumulativeTSN t = true ↔ 0 < w.offset t ∧ w.offset t < 2 ^ 31 := by
    rw [h.cum]
    exact serialLT_iff (by omega) _ _
  unfold ReceivePayloadQueue.advanceCumulativeTSN
  unfold ReceiveWindow.advance at hl' ⊢
  by_cases hadv : 0 < w.offset t ∧ w.offset t < 2 ^ 31
  · rw [if_neg (not_not.mpr (hbehind.mpr hadv))]
    rw [if_pos hadv.2] at hl' ⊢
    have htail : sna32LTE q.tailTSN t = true ↔ w.last ≤ w.cum + w.offset t := by
      have hcmp := serialLTE_add (tsn w.cum) (m := w.last - w.cum) (n := w.offset t)
        (show 0 < 32 by omega) (by omega) (by omega)
      rw [← tsn_add, ← tsn_add, ht, show w.cum + (w.last - w.cum) = w.last by omega] at hcmp
      rw [h.tail]
      show serialLTE (tsn w.last) t = true ↔ _
      rw [hcmp, decide_eq_true_eq]
      omega
    by_cases hall : q.chunkSize = 0 ∨ sna32LTE q.tailTSN t = true
    · -- everything is covered by the new cumulative TSN
      have hnone : (w.received.filter fun n => w.cum + w.offset t < n) = ∅ := by
        apply Finset.filter_false_of_mem
        intro n hn
        have hle := le_last hn
        rcases hall with hzero | hlte
        · rw [h.chunkSize_eq_zero.mp hzero] at hn
          exact absurd hn (Finset.notMem_empty _)
        · have := htail.mp hlte
          omega
      rw [if_pos hall, hnone]
      exact
        { words := by simpa using h.words
          maxTSNOffset := h.maxTSNOffset
          pos := h.pos
          small := h.small
          cum := ht.symm
          inside := fun n hn => absurd hn (Finset.notMem_empty _)
          bits := shows_zero _ _
          count := rfl
          tail := by
            rw [last_of_empty (by rfl)]
            exact ht.symm
          dups := h.dups }
    · rw [if_neg hall]
      have hrange : (t - (q.cumulativeTSN + 1#32) + 1#32).toNat = w.offset t := by
        have hsub : t - (q.cumulativeTSN + 1#32) + 1#32 = t - q.cumulativeTSN := by
          bv_omega
        rw [hsub, h.cum]
        rfl
      have hstart : q.cumulativeTSN + 1#32 = tsn (w.cum + 1) := by
        rw [h.cum]
        exact (tsn_add _ _).symm
      have hclear := h.clear hl hadv.1 (by
        rw [not_or, htail] at hall
        omega) hl'
      rw [ht] at hclear
      unfold ReceivePayloadQueue.clearTSNRange
      rw [hrange, hstart]
      exact hclear
  · rw [if_pos fun hlt => hadv (hbehind.mp hlt)]
    by_cases hzero : w.offset t = 0
    · have hsame : (w.received.filter fun n => w.cum + w.offset t < n) = w.received :=
        Finset.filter_true_of_mem fun n hn => by
          have := (h.inside n hn).1
          omega
      rw [if_pos (by omega), hsame, hzero]
      exact h
    · rw [if_neg (by omega)]
      exact h

/-- Every call keeps the relation. -/
theorem call (h : Holds q w) (c : ReceiveCall) (hl : w.Level) (hl' : (w.call c).Level) :
    Holds (q.call c) (w.call c) := by
  cases c with
  | init t => exact h.init t
  | push t => exact h.push hl t
  | pop force => exact h.pop force hl hl'
  | advanceCumulativeTSN t => exact h.advance t hl hl'
  | popDuplicates => exact { h with dups := rfl }

end Holds

/-! ### Sequences of calls -/

/-- The window of a new queue. -/
def ReceiveWindow.new (maxTSNOffset : BitVec 32) : ReceiveWindow :=
  { cum := 0, received := ∅, dups := [], size := (maxTSNOffset.toNat + 63) / 64 * 64 }

/-- The window is level before and after each of the calls. -/
def ReceiveWindow.Levels : ReceiveWindow → List ReceiveCall → Prop
  | w, [] => w.Level
  | w, c :: cs => w.Level ∧ Levels (w.call c) cs

instance decidableLevels (w : ReceiveWindow) (cs : List ReceiveCall) : Decidable (w.Levels cs) :=
  match cs with
  | [] => inferInstanceAs (Decidable w.Level)
  | c :: cs =>
    have := decidableLevels (w.call c) cs
    inferInstanceAs (Decidable (_ ∧ _))

/-- The queue after a sequence of calls. -/
def ReceivePayloadQueue.calls (q : ReceivePayloadQueue) (cs : List ReceiveCall) :
    ReceivePayloadQueue := cs.foldl ReceivePayloadQueue.call q

/-- The window after a sequence of calls. -/
def ReceiveWindow.calls (w : ReceiveWindow) (cs : List ReceiveCall) : ReceiveWindow :=
  cs.foldl ReceiveWindow.call w

theorem Holds.calls {q : ReceivePayloadQueue} {w : ReceiveWindow} (h : Holds q w)
    {cs : List ReceiveCall} (hl : w.Levels cs) : Holds (q.calls cs) (w.calls cs) := by
  induction cs generalizing q w with
  | nil => exact h
  | cons c cs ih =>
      have hl' : (w.call c).Level := by
        cases cs with
        | nil => exact hl.2
        | cons d ds => exact hl.2.1
      exact ih (h.call c hl.1 hl') hl.2

theorem holds_new {maxTSNOffset : BitVec 32} (hpos : 0 < maxTSNOffset.toNat)
    (hsmall : maxTSNOffset.toNat + 63 < 2 ^ 31) :
    Holds (newReceivePayloadQueue maxTSNOffset) (ReceiveWindow.new maxTSNOffset) := by
  have hsum : (maxTSNOffset + 63#32).toNat = maxTSNOffset.toNat + 63 := by
    rw [BitVec.toNat_add]
    simp
    omega
  have hrounded : ((maxTSNOffset + 63#32) / 64#32 * 64#32).toNat =
      (maxTSNOffset.toNat + 63) / 64 * 64 := by
    rw [BitVec.toNat_mul, BitVec.toNat_udiv, hsum]
    simp
    omega
  have hwords : ((maxTSNOffset + 63#32) / 64#32 * 64#32 / 64#32).toNat =
      (maxTSNOffset.toNat + 63) / 64 := by
    rw [BitVec.toNat_udiv, hrounded]
    simp
  have hzero : List.replicate ((maxTSNOffset.toNat + 63) / 64) (0 : BitVec 64) =
      (List.replicate ((maxTSNOffset.toNat + 63) / 64) (0 : BitVec 64)).map fun _ => 0 := by
    simp
  unfold newReceivePayloadQueue ReceiveWindow.new
  simp only [hwords]
  exact
    { words := by
        simp
        omega
      maxTSNOffset := by
        apply BitVec.eq_of_toNat_eq
        show _ = ((maxTSNOffset.toNat + 63) / 64 * 64) % 2 ^ 32
        rw [hrounded]
        omega
      pos := by
        show 0 < (maxTSNOffset.toNat + 63) / 64 * 64
        omega
      small := by
        show (maxTSNOffset.toNat + 63) / 64 * 64 < 2 ^ 31
        omega
      cum := rfl
      inside := fun n hn => absurd hn (Finset.notMem_empty _)
      bits := by
        show Shows (List.replicate _ 0) 0 ∅
        rw [hzero]
        exact shows_zero _ _
      count := rfl
      tail := by
        rw [last_of_empty (by rfl)]
        rfl
      dups := rfl }

/-- After any sequence of calls the queue answers as the set of TSNs does that have been pushed and
that the cumulative TSN has not passed, as long as the window stays level. -/
theorem queue_is_window (maxTSNOffset : BitVec 32) (hpos : 0 < maxTSNOffset.toNat)
    (hsmall : maxTSNOffset.toNat + 63 < 2 ^ 31) (cs : List ReceiveCall)
    (hl : (ReceiveWindow.new maxTSNOffset).Levels cs) :
    let q := (newReceivePayloadQueue maxTSNOffset).calls cs
    let w := (ReceiveWindow.new maxTSNOffset).calls cs
    w.Inside ∧
      (∀ t, q.hasChunk t = decide (w.cum + w.offset t ∈ w.received)) ∧
      (∀ t, q.canPush t = decide (0 < w.offset t ∧ w.offset t ≤ w.size ∧
        w.cum + w.offset t ∉ w.received)) ∧
      q.size = w.received.card ∧
      q.getcumulativeTSN = tsn w.cum ∧
      q.getLastTSNReceived = (if w.received = ∅ then none else some (tsn w.last)) ∧
      q.popDuplicates.2 = w.dups := by
  intro q w
  have h : Holds q w := (holds_new hpos hsmall).calls hl
  refine ⟨h.inside, h.hasChunk, h.canPush, h.count, h.cum, ?_, h.dups⟩
  unfold ReceivePayloadQueue.getLastTSNReceived
  simp only [h.chunkSize_eq_zero, h.tail]

/-- A queue of 64 bits over the wrap: a gap at 4294967294, then TSN 1. -/
theorem queue_is_window_over_wrap :
    let cs := [.init 4294967292, .push 4294967293, .push 4294967295, .push 1, .pop false, .push 1]
    (ReceiveWindow.new 64).Levels cs ∧
      ((newReceivePayloadQueue 64).calls cs).hasChunk 1 = true ∧
      ((newReceivePayloadQueue 64).calls cs).hasChunk 4294967294 = false ∧
      ((newReceivePayloadQueue 64).calls cs).popDuplicates.2 = [1] := by
  intro cs
  have hl : (ReceiveWindow.new 64).Levels cs := by decide +kernel
  obtain ⟨-, hhas, -, -, -, -, hdups⟩ := queue_is_window 64 (by decide) (by decide) cs hl
  refine ⟨hl, ?_, ?_, ?_⟩
  · rw [hhas]
    decide +kernel
  · rw [hhas]
    decide +kernel
  · rw [hdups]
    decide +kernel

/-! ### At the wrap -/

theorem push_of_behind {q : ReceivePayloadQueue} {t : TSN}
    (hwin : sna32GT t (q.cumulativeTSN + q.maxTSNOffset) = false)
    (hcum : sna32LTE t q.cumulativeTSN = false) (htail : sna32GT t q.tailTSN = true) :
    (q.push t).1 =
      { q with
        tsnBitmask := ringModify q.tsnBitmask t.toNat fun v => v ||| 1#64 <<< (t.toNat % 64)
        chunkSize := q.chunkSize + 1
        tailTSN := t } := by
  have hnot : q.hasChunk t = false := by
    simp [ReceivePayloadQueue.hasChunk, htail]
  simp [ReceivePayloadQueue.push, hwin, hcum, htail, hnot]

/-- The TSNs at the offsets `i < j < k` of an empty queue. The first and the last one arrive. If the
one between them shares its bit with the first, it is taken for received. -/
theorem hasChunk_of_shared_bit {q : ReceivePayloadQueue} {base : TSN} {S i j k : Nat}
    (hlen : S = 64 * q.tsnBitmask.length) (hmax : q.maxTSNOffset = BitVec.ofNat 32 S)
    (hS : S < 2 ^ 31) (hempty : q.chunkSize = 0) (hbase : q.cumulativeTSN = base)
    (htail : q.tailTSN = base) (hi : 0 < i) (hij : i < j) (hjk : j < k) (hk : k ≤ S)
    (hshare : (base + BitVec.ofNat 32 j).toNat % S = (base + BitVec.ofNat 32 i).toNat % S) :
    let q' := ((q.push (base + BitVec.ofNat 32 i)).1.push (base + BitVec.ofNat 32 k)).1
    q'.chunkSize = 2 ∧ q'.hasChunk (base + BitVec.ofNat 32 j) = true ∧
      q'.canPush (base + BitVec.ofNat 32 j) = false ∧
      (q'.push (base + BitVec.ofNat 32 j)).1.dupTSN = q.dupTSN ++ [base + BitVec.ofNat 32 j] := by
  have hlte (n : Nat) (hn : 0 < n ∧ n ≤ S) :
      sna32LTE (base + BitVec.ofNat 32 n) base = false := by
    rw [← Bool.not_eq_true]
    intro hle
    have := (serialLTE_base_iff base (show 0 < 32 by omega) (show n < 2 ^ 32 by omega)).mp hle
    omega
  have hgt (m n : Nat) (hm : m ≤ S) (hn : n ≤ S) :
      sna32GT (base + BitVec.ofNat 32 m) (base + BitVec.ofNat 32 n) = decide (n < m) :=
    serialGT_add base (show 0 < 32 by omega) (by omega) (by omega)
  have hgt0 : sna32GT (base + BitVec.ofNat 32 i) base = true := by
    have h0 := hgt i 0 (by omega) (by omega)
    rw [BitVec.add_zero] at h0
    rw [h0]
    simpa using hi
  have hfirst := push_of_behind (q := q) (t := base + BitVec.ofNat 32 i)
    (by rw [hbase, hmax, hgt i S (by omega) le_rfl]; simp; omega)
    (by rw [hbase]; exact hlte i (by omega)) (by rw [htail]; exact hgt0)
  have hsecond := push_of_behind (q := (q.push (base + BitVec.ofNat 32 i)).1)
    (t := base + BitVec.ofNat 32 k)
    (by simp only [hfirst, hbase, hmax]; rw [hgt k S hk le_rfl]; simp; omega)
    (by simp only [hfirst, hbase]; exact hlte k (by omega))
    (by simp only [hfirst]; rw [hgt k i hk (by omega)]; simp; omega)
  rw [hfirst] at hsecond
  rw [hfirst]
  generalize hq' : (ReceivePayloadQueue.push _ (base + BitVec.ofNat 32 k)).1 = q' at hsecond ⊢
  have hwords : 0 < q.tsnBitmask.length := by omega
  have hwin : sna32GT (base + BitVec.ofNat 32 j) (q'.cumulativeTSN + q'.maxTSNOffset) = false := by
    rw [hsecond]
    simp only [hbase, hmax]
    rw [hgt j S (by omega) le_rfl]
    simp
    omega
  have hbit : ringBit q'.tsnBitmask (base + BitVec.ofNat 32 j).toNat = true := by
    rw [hsecond]
    simp only
    rw [ringBit_setBit (by simpa using hwords), ringBit_setBit hwords, ← hlen, hshare]
    simp
  have hhas : q'.hasChunk (base + BitVec.ofNat 32 j) = true := by
    unfold ReceivePayloadQueue.hasChunk
    rw [if_neg]
    · rw [and_bit_ne_zero _ (Nat.mod_lt _ (by omega))]
      exact hbit
    · rw [hsecond]
      simp only [hbase, hempty]
      rw [hlte j (by omega), hgt j k (by omega) hk]
      simp
      omega
  refine ⟨?_, hhas, ?_, ?_⟩
  · rw [hsecond]
    simp [hempty]
  · simp [ReceivePayloadQueue.canPush, hhas]
  · have hdups : q'.dupTSN = q.dupTSN := by rw [hsecond]
    simp [ReceivePayloadQueue.push, hwin, hhas, hdups]

/-- When the number of bits of the ring does not divide the range of the TSNs, a window over the
wrap has two TSNs with one bit: after the first of them and a later TSN have arrived, the other one,
which is zero, is taken for received, and the chunk that carries it is refused as a duplicate. -/
theorem wrapped_tsn_taken_for_received (maxTSNOffset : BitVec 32) (hpos : 0 < maxTSNOffset.toNat)
    (hsmall : maxTSNOffset.toNat + 63 < 2 ^ 31)
    (hdvd : ¬ (maxTSNOffset.toNat + 63) / 64 * 64 ∣ 2 ^ 32) :
    ∃ cum a c : TSN, a ≠ 0 ∧ c ≠ 0 ∧
      let q := (newReceivePayloadQueue maxTSNOffset).calls [.init cum, .push a, .push c]
      q.size = 2 ∧ q.hasChunk 0 = true ∧ q.canPush 0 = false ∧
        (q.push 0).1.popDuplicates.2 = [0] := by
  generalize hS : (maxTSNOffset.toNat + 63) / 64 * 64 = S at hdvd
  -- the rest of the range after whole turns of the ring: the TSN `2 ^ 32 - r` has the bit of zero
  generalize hr : 2 ^ 32 % S = r
  have hrlt : r < S := hr ▸ Nat.mod_lt _ (by omega)
  have hr0 : r ≠ 0 := fun h0 => hdvd (Nat.dvd_of_mod_eq_zero (hr.trans h0))
  have hr64 : r % 64 = 0 := by
    have hdiv : 64 ∣ S := hS ▸ Nat.dvd_mul_left _ _
    rw [← hr, Nat.mod_mod_of_dvd _ hdiv]
    rfl
  have hmul : (2 ^ 32 - r) % S = 0 := Nat.mod_eq_zero_of_dvd (hr ▸ Nat.dvd_sub_mod _)
  have hbase (n : Nat) : tsn (2 ^ 32 - r - 1) + BitVec.ofNat 32 n = tsn (2 ^ 32 - r - 1 + n) :=
    (tsn_add _ _).symm
  have ha : tsn (2 ^ 32 - r - 1) + BitVec.ofNat 32 1 = tsn (2 ^ 32 - r) := by
    rw [hbase, show 2 ^ 32 - r - 1 + 1 = 2 ^ 32 - r by omega]
  have hb : tsn (2 ^ 32 - r - 1) + BitVec.ofNat 32 (r + 1) = 0 := by
    rw [hbase, show 2 ^ 32 - r - 1 + (r + 1) = 2 ^ 32 by omega]
    rfl
  have hc : tsn (2 ^ 32 - r - 1) + BitVec.ofNat 32 (r + 2) = 1 := by
    rw [hbase, show 2 ^ 32 - r - 1 + (r + 2) = 2 ^ 32 + 1 by omega]
    rfl
  have h := (holds_new hpos hsmall).init (tsn (2 ^ 32 - r - 1))
  have hshared := hasChunk_of_shared_bit (S := S) (i := 1) (j := r + 1) (k := r + 2)
    (hS.symm.trans h.words) (h.maxTSNOffset.trans (congrArg _ hS)) (by omega) rfl
    (show _ = tsn (2 ^ 32 - r - 1) from rfl) rfl (by omega) (by omega) (by omega) (by omega)
    (by
      rw [ha, hb, toNat_tsn, Nat.mod_eq_of_lt (show 2 ^ 32 - r < 2 ^ 32 by omega), hmul]
      simp)
  rw [ha, hb, hc] at hshared
  refine ⟨tsn (2 ^ 32 - r - 1), tsn (2 ^ 32 - r), 1, ?_, by decide, hshared⟩
  intro heq
  have hnat := congrArg BitVec.toNat heq
  rw [toNat_tsn, Nat.mod_eq_of_lt (show 2 ^ 32 - r < 2 ^ 32 by omega)] at hnat
  have hz : (0 : TSN).toNat = 0 := rfl
  omega

/-- The queue of an association with the default receive buffer. -/
theorem default_queue_confuses_wrapped_tsn :
    ¬ ((getMaxTSNOffset (1024 * 1024)).toNat + 63) / 64 * 64 ∣ 2 ^ 32 ∧
      ∃ cum a c : TSN, a ≠ 0 ∧ c ≠ 0 ∧
        ((newReceivePayloadQueue (getMaxTSNOffset (1024 * 1024))).calls
          [.init cum, .push a, .push c]).hasChunk 0 = true := by
  have hdvd : ¬ ((getMaxTSNOffset (1024 * 1024)).toNat + 63) / 64 * 64 ∣ 2 ^ 32 := by decide
  obtain ⟨cum, a, c, ha, hc, -, hhas, -⟩ :=
    wrapped_tsn_taken_for_received (getMaxTSNOffset (1024 * 1024)) (by decide) (by decide) hdvd
  exact ⟨hdvd, cum, a, c, ha, hc, hhas⟩

end PionBridge.Sctp
