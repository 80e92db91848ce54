import Mathlib.Algebra.GroupWithZero.Nat
import PionBridge.Lib.KeySort
import PionBridge.Proofs.Sctp.ReceivePayloadQueue
import PionBridge.Sctp.ReassemblyQueue

/-!
# `PionBridge.Proofs.Sctp.Reassembly`: what the reassembly queue stands for

The messages of one stream are known as the sender cut them (`Sent`), with absolute numbers for
their chunks and for their place among the ordered messages. The queue of the receiver is then a
function of the chunks that have arrived and the messages that have been read (`Inbox`,
`Assembles`). Here are the parts of that function: the sets of chunks of one message
(`Sent.push_set`, `Sent.isComplete_set`) and the search for a complete message among the unordered
chunks (`findComplete_eq_none`, `findComplete_eq_some`). The steps are in `Proofs.Sctp.Inbox`.
-/

set_option autoImplicit false

namespace PionBridge.Sctp

open PionBridge.Lib ReceiveWindow

/-! ### Comparisons of near numbers -/

theorem sna32LT_tsn {a b : Nat} (hab : a < b + 2 ^ 31) (hba : b < a + 2 ^ 31) :
    sna32LT (tsn a) (tsn b) = decide (a < b) := by
  have h := serialLT_add (0#32) (m := a) (n := b) (show 0 < 32 by omega) hab hba
  rwa [BitVec.zero_add, BitVec.zero_add] at h

theorem tsn_inj {a b : Nat} (hab : a < b + 2 ^ 32) (hba : b < a + 2 ^ 32) :
    tsn a = tsn b ↔ a = b := by
  constructor
  · intro h
    have hmod := congrArg BitVec.toNat h
    rw [toNat_tsn, toNat_tsn] at hmod
    omega
  · intro h
    rw [h]

/-- The stream sequence number of the ordered message at a place. -/
def ssn (seq : Nat) : SSN := BitVec.ofNat 16 seq

theorem sna16LT_ssn {a b : Nat} (hab : a < b + 2 ^ 15) (hba : b < a + 2 ^ 15) :
    sna16LT (ssn a) (ssn b) = decide (a < b) := by
  have h := serialLT_add (0#16) (m := a) (n := b) (show 0 < 16 by omega) hab hba
  rwa [BitVec.zero_add, BitVec.zero_add] at h

theorem sna16GT_ssn {a b : Nat} (hab : a < b + 2 ^ 15) (hba : b < a + 2 ^ 15) :
    sna16GT (ssn a) (ssn b) = decide (b < a) := by
  have h := serialGT_add (0#16) (m := a) (n := b) (show 0 < 16 by omega) hab hba
  rwa [BitVec.zero_add, BitVec.zero_add] at h

theorem ssn_inj {a b : Nat} (hab : a < b + 2 ^ 16) (hba : b < a + 2 ^ 16) :
    ssn a = ssn b ↔ a = b := by
  constructor
  · intro h
    have hmod := congrArg BitVec.toNat h
    unfold ssn at hmod
    rw [BitVec.toNat_ofNat, BitVec.toNat_ofNat] at hmod
    omega
  · intro h
    rw [h]

/-! ### Messages as they were sent -/

/-- A message of a stream: the number of its first chunk, its place among the ordered messages (for
an ordered one), and the data of its chunks. -/
structure Sent where
  start : Nat
  seq : Nat
  unordered : Bool
  si : StreamId
  ppi : PPI
  pieces : List (List UInt8)
deriving DecidableEq, Repr

namespace Sent

def len (m : Sent) : Nat := m.pieces.length

/-- The number behind the last chunk. -/
def stop (m : Sent) : Nat := m.start + m.len

def data (m : Sent) : List UInt8 := m.pieces.flatten

/-- The chunk of the piece `i`, as it arrives. -/
def chunk (m : Sent) (i : Nat) : PayloadData :=
  { unordered := m.unordered
    beginningFragment := i == 0
    endingFragment := i + 1 == m.len
    immediateSack := false
    tsn := tsn (m.start + i)
    streamIdentifier := m.si
    streamSequenceNumber := ssn m.seq
    messageIdentifier := 0
    fragmentSequenceNumber := 0
    payloadType := m.ppi
    userData := m.pieces.getD i []
    iData := false }

/-- The pieces that have arrived. -/
def arrived (m : Sent) (received : Finset Nat) : List Nat :=
  (List.range m.len).filter fun i => m.start + i ∈ received

def complete (m : Sent) (received : Finset Nat) : Bool :=
  (List.range m.len).all fun i => m.start + i ∈ received

def set (m : Sent) (received : Finset Nat) : ChunkSet :=
  { ssn := ssn m.seq, ppi := m.ppi, chunks := (m.arrived received).map m.chunk }

/-- The set of all chunks of an unordered message. -/
def whole (m : Sent) : ChunkSet :=
  { ssn := 0, ppi := m.ppi, chunks := (List.range m.len).map m.chunk }

variable {m : Sent} {received : Finset Nat}

theorem mem_arrived {i : Nat} :
    i ∈ m.arrived received ↔ i < m.len ∧ m.start + i ∈ received := by
  simp [arrived]

theorem sorted_arrived (m : Sent) (received : Finset Nat) :
    (m.arrived received).Pairwise (· < ·) :=
  List.pairwise_lt_range.filter _

theorem complete_iff : m.complete received = true ↔ ∀ i < m.len, m.start + i ∈ received := by
  simp [complete]

theorem complete_iff_arrived :
    m.complete received = true ↔ m.arrived received = List.range m.len := by
  rw [complete_iff, arrived, List.filter_eq_self]
  simp

/-- The pieces of a message that does not have the number of a new chunk stay as they are. -/
theorem arrived_insert_of_ne {n : Nat} (h : ∀ i < m.len, m.start + i ≠ n) :
    m.arrived (insert n received) = m.arrived received := by
  unfold arrived
  apply List.filter_congr
  intro i hi
  have hne := h i (List.mem_range.mp hi)
  simp [Finset.mem_insert, hne]

theorem complete_insert_of_ne {n : Nat} (h : ∀ i < m.len, m.start + i ≠ n) :
    m.complete (insert n received) = m.complete received := by
  rw [Bool.eq_iff_iff, complete_iff_arrived, complete_iff_arrived, arrived_insert_of_ne h]

theorem set_insert_of_ne {n : Nat} (h : ∀ i < m.len, m.start + i ≠ n) :
    m.set (insert n received) = m.set received := by
  unfold set
  rw [arrived_insert_of_ne h]

/-- A new piece joins those that have arrived. -/
theorem arrived_insert_perm {i : Nat} (hi : i < m.len) (hnew : m.start + i ∉ received) :
    (m.arrived (insert (m.start + i) received)).Perm (m.arrived received ++ [i]) := by
  apply filter_insert_perm List.nodup_range (List.mem_range.mpr hi)
  · simpa using hnew
  · intro j _
    simp only [decide_eq_true_eq, Finset.mem_insert]
    constructor
    · rintro (heq | hmem)
      · exact .inr (by omega)
      · exact .inl hmem
    · rintro (hmem | heq)
      · exact .inr hmem
      · exact .inl (by omega)

theorem isFragmented_chunk {i : Nat} (hi : i < m.len) :
    (m.chunk i).isFragmented = decide (1 < m.len) := by
  rw [Bool.eq_iff_iff]
  simp only [PayloadData.isFragmented, chunk, Bool.or_eq_true, Bool.not_eq_true',
    beq_eq_false_iff_ne, decide_eq_true_eq]
  omega

/-- The chunks of one message are sorted by their places. -/
theorem sortChunksByTSN_chunks (hlen : m.len ≤ 2 ^ 31) {xs ys : List Nat} (hperm : ys.Perm xs)
    (hsorted : ys.Pairwise (· < ·)) (hlt : ∀ x ∈ xs, x < m.len) :
    sortChunksByTSN (xs.map m.chunk) = ys.map m.chunk := by
  apply insertionSort_map_eq m.chunk id _ hperm hsorted
  intro a ha b hb
  have halt := hlt a ha
  have hblt := hlt b hb
  show a ≤ b ↔ sna32LT (tsn (m.start + b)) (tsn (m.start + a)) = false
  rw [sna32LT_tsn (by omega) (by omega), decide_eq_false_iff_not]
  omega

/-! A list of places is complete when it is all of them. -/

theorem contiguous_chunks (hlen : m.len ≤ 2 ^ 31) {x : Nat} {xs : List Nat}
    (hlt : ∀ y ∈ x :: xs, y < m.len)
    (h : contiguous (((x :: xs).map m.chunk).map PayloadData.tsn) = true) :
    x :: xs = List.range' x (xs.length + 1) := by
  induction xs generalizing x with
  | nil => rfl
  | cons y ys ih =>
      rw [List.map_cons, List.map_cons, List.map_cons, List.map_cons, contiguous, Bool.and_eq_true]
        at h
      have hx := hlt x (by simp)
      have hy := hlt y (by simp)
      have hnext : tsn (m.start + y) = tsn (m.start + x + 1) := by
        rw [tsn_add _ 1]
        exact eq_of_beq h.1
      have hxy : y = x + 1 := by
        have := (tsn_inj (by omega) (by omega)).mp hnext
        omega
      have hrest := ih (fun z hz => hlt z (by simp [hz])) h.2
      rw [List.length_cons, List.range'_succ, ← hxy, ← hrest]

theorem contiguous_range' (m : Sent) (x n : Nat) :
    contiguous (((List.range' x n).map m.chunk).map PayloadData.tsn) = true := by
  induction n generalizing x with
  | zero => rfl
  | succ n ih =>
      cases n with
      | zero => rfl
      | succ n =>
          rw [List.range'_succ, List.range'_succ, List.map_cons, List.map_cons, List.map_cons,
            List.map_cons, contiguous, Bool.and_eq_true]
          constructor
          · show (tsn (m.start + (x + 1)) == tsn (m.start + x) + 1#32) = true
            rw [← Nat.add_assoc, tsn_add _ 1]
            exact beq_self_eq_true _
          · have := ih (x + 1)
            rwa [List.range'_succ, List.map_cons, List.map_cons] at this

theorem completeBy_chunks (hpos : 0 < m.len) (hlen : m.len ≤ 2 ^ 31) {xs : List Nat}
    (hlt : ∀ x ∈ xs, x < m.len) :
    completeBy PayloadData.tsn (xs.map m.chunk) = decide (xs = List.range m.len) := by
  rw [Bool.eq_iff_iff, decide_eq_true_eq]
  constructor
  · intro h
    cases hxs : xs with
    | nil => simp [hxs, completeBy] at h
    | cons x rest =>
        subst hxs
        rw [completeBy, List.head?_map, List.getLast?_map, List.head?_cons,
          List.getLast?_eq_some_getLast (by simp)] at h
        simp only [Option.map_some, Bool.and_eq_true] at h
        obtain ⟨⟨hfirst, hlast⟩, hcont⟩ := h
        have hrange := contiguous_chunks hlen hlt hcont
        have hx : x = 0 := by simpa [chunk] using hfirst
        -- the last place is the one behind all others of the run
        have hend : (x :: rest).getLast (by simp) = rest.length := by
          have hlast' : (List.range' x (rest.length + 1)).getLast? = some (x + rest.length) := by
            simp [List.range'_concat]
          rw [← hrange, List.getLast?_eq_some_getLast (by simp)] at hlast'
          have := Option.some.inj hlast'
          omega
        rw [hend] at hlast
        have hlen' : rest.length + 1 = m.len := by simpa [chunk] using hlast
        rw [hrange, hx, hlen', List.range_eq_range']
  · intro h
    subst h
    obtain ⟨n, hn⟩ : ∃ n, m.len = n + 1 := ⟨m.len - 1, by omega⟩
    rw [completeBy, List.head?_map, List.getLast?_map]
    have hhead : (List.range m.len).head? = some 0 := by
      rw [hn, List.range_succ_eq_map]
      rfl
    have hlast : (List.range m.len).getLast? = some n := by
      rw [hn, List.range_succ]
      simp
    rw [hhead, hlast]
    simp only [Option.map_some, Bool.and_eq_true]
    refine ⟨⟨by simp [chunk], by simp [chunk, hn]⟩, ?_⟩
    rw [List.range_eq_range']
    exact contiguous_range' m 0 m.len

theorem isComplete_set (hpos : 0 < m.len) (hlen : m.len ≤ 2 ^ 31) :
    (m.set received).isComplete = m.complete received := by
  rw [ChunkSet.isComplete, set, completeBy_chunks hpos hlen fun x hx => (mem_arrived.mp hx).1,
    Bool.eq_iff_iff, decide_eq_true_eq, complete_iff_arrived]

/-- Pushing a new piece into the set of its message. -/
theorem push_set (hpos : 0 < m.len) (hlen : m.len ≤ 2 ^ 31) {i : Nat} (hi : i < m.len)
    (hnew : m.start + i ∉ received) :
    (m.set received).push (m.chunk i) =
      (m.set (insert (m.start + i) received), m.complete (insert (m.start + i) received)) := by
  have hdup : ((m.set received).chunks.any fun c => c.tsn == (m.chunk i).tsn) = false := by
    rw [← Bool.not_eq_true, List.any_eq_true]
    rintro ⟨c, hc, heq⟩
    obtain ⟨j, hj, rfl⟩ := List.mem_map.mp hc
    obtain ⟨hjlt, hjmem⟩ := mem_arrived.mp hj
    have heq : tsn (m.start + j) = tsn (m.start + i) := eq_of_beq heq
    rw [tsn_inj (by omega) (by omega)] at heq
    exact hnew (heq ▸ hjmem)
  have hsort : sortChunksByTSN ((m.set received).chunks ++ [m.chunk i]) =
      (m.set (insert (m.start + i) received)).chunks := by
    have hmap : (m.set received).chunks ++ [m.chunk i] =
        (m.arrived received ++ [i]).map m.chunk := by
      simp [set]
    rw [hmap, sortChunksByTSN_chunks hlen (arrived_insert_perm hi hnew) (sorted_arrived _ _)]
    · rfl
    · intro x hx
      rcases List.mem_append.mp hx with hold | hx
      · exact (mem_arrived.mp hold).1
      · rw [List.mem_singleton] at hx
        exact hx ▸ hi
  unfold ChunkSet.push
  rw [hdup, if_neg (by simp), hsort]
  exact Prod.ext rfl (isComplete_set hpos hlen)

end Sent

/-! ### The search for a complete unordered message -/

/-- The run that is being followed does not go on at `b` or behind it: the number after its last TSN
lies before `b`. -/
def RunBelow (lo : Nat) (run : Option (Nat × Nat × TSN)) (b : Nat) : Prop :=
  ∀ s c t, run = some (s, c, t) → ∃ n, t = tsn n ∧ lo ≤ n ∧ n + 1 < b

section Scan

variable {lo b i : Nat} {run : Option (Nat × Nat × TSN)} {m : Sent} {l : List PayloadData}

theorem RunBelow.mono {b' : Nat} (h : RunBelow lo run b) (hle : b ≤ b') : RunBelow lo run b' := by
  intro s c t hrun
  obtain ⟨n, ht, hlo, hn⟩ := h s c t hrun
  exact ⟨n, ht, hlo, by omega⟩

theorem runBelow_none (lo b : Nat) : RunBelow lo none b := fun _ _ _ h => by cases h

/-- The piece that begins a message starts a new run. -/
theorem findComplete_begin :
    findComplete i run (m.chunk 0 :: l) =
      if 0 + 1 == m.len then some (i, 1)
      else findComplete (i + 1) (some (i, 1, (m.chunk 0).tsn)) l := by
  cases run <;> rfl

/-- A piece that does not begin its message goes on with a run if its TSN is the next one. -/
theorem findComplete_piece {x : Nat} (hx : 0 < x) :
    findComplete i run (m.chunk x :: l) =
      match run with
      | none => findComplete (i + 1) none l
      | some (s, c, t) =>
        if (m.chunk x).tsn ≠ t + 1#32 then findComplete (i + 1) none l
        else if x + 1 == m.len then some (s, c + 1)
        else findComplete (i + 1) (some (s, c + 1, (m.chunk x).tsn)) l := by
  have hbegin : ¬ (m.chunk x).beginningFragment = true := by
    show ¬ (x == 0) = true
    rw [beq_iff_eq]
    omega
  cases run with
  | none => rw [findComplete, if_neg hbegin]
  | some run =>
      rw [findComplete, if_neg hbegin]
      rfl

/-- Behind the last piece of a message there is none. -/
theorem eq_nil_of_last {x : Nat} {xs : List Nat} (hlast : x + 1 = m.len)
    (hsorted : (x :: xs).Pairwise (· < ·)) (hin : ∀ y ∈ xs, y < m.len) : xs = [] := by
  apply List.eq_nil_iff_forall_not_mem.mpr
  intro y hy
  have hlt := (List.pairwise_cons.mp hsorted).1 y hy
  have := hin y hy
  omega

/-- Without the beginning of the message nothing is found. -/
theorem findComplete_lost (xs : List Nat) (hpos : ∀ x ∈ xs, 0 < x) :
    findComplete i none (xs.map m.chunk ++ l) = findComplete (i + xs.length) none l := by
  induction xs generalizing i with
  | nil => rfl
  | cons x xs ih =>
      rw [List.map_cons, List.cons_append, findComplete_piece (hpos x (by simp))]
      dsimp only
      rw [ih fun y hy => hpos y (by simp [hy])]
      rw [List.length_cons, Nat.add_assoc, Nat.add_comm 1]

/-- In a run of the first `k` pieces: the message is found if all others follow. -/
theorem findComplete_inside (hlo : lo ≤ m.start) (hstop : m.stop ≤ lo + 2 ^ 31) {s k : Nat}
    (hk : 0 < k ∧ k < m.len) (xs : List Nat) (hsorted : xs.Pairwise (· < ·))
    (hin : ∀ x ∈ xs, k ≤ x ∧ x < m.len) :
    (xs = List.range' k (m.len - k) ∧
      findComplete i (some (s, k, tsn (m.start + (k - 1)))) (xs.map m.chunk ++ l) =
        some (s, m.len)) ∨
    (xs ≠ List.range' k (m.len - k) ∧
      ∃ run', RunBelow lo run' m.stop ∧
        findComplete i (some (s, k, tsn (m.start + (k - 1)))) (xs.map m.chunk ++ l) =
          findComplete (i + xs.length) run' l) := by
  have hm : m.stop = m.start + m.len := rfl
  induction xs generalizing i k with
  | nil =>
      right
      constructor
      · obtain ⟨d, hd⟩ : ∃ d, m.len - k = d + 1 := ⟨m.len - k - 1, by omega⟩
        rw [hd, List.range'_succ]
        simp
      · refine ⟨_, ?_, rfl⟩
        intro s' c t hrun
        cases hrun
        exact ⟨m.start + (k - 1), rfl, by omega, by omega⟩
  | cons x xs ih =>
      have hx := hin x (by simp)
      have hlast : x + 1 = m.len → xs = [] := fun h =>
        eq_nil_of_last h hsorted fun y hy => (hin y (by simp [hy])).2
      rw [List.pairwise_cons] at hsorted
      have hnext : (m.chunk x).tsn = tsn (m.start + (k - 1)) + 1#32 ↔ x = k := by
        rw [← tsn_add _ 1]
        show tsn (m.start + x) = tsn (m.start + (k - 1) + 1) ↔ _
        rw [tsn_inj (by omega) (by omega)]
        omega
      rw [List.map_cons, List.cons_append, findComplete_piece (by omega)]
      dsimp only
      by_cases hxk : x = k
      · rw [if_neg (not_not.mpr (hnext.mpr hxk))]
        subst hxk
        by_cases hend : x + 1 = m.len
        · -- the last piece: nothing can follow it
          left
          rw [if_pos (beq_iff_eq.mpr hend), hend, hlast hend, show m.len - x = 1 by omega]
          exact ⟨rfl, rfl⟩
        · have hrange : List.range' x (m.len - x) =
              x :: List.range' (x + 1) (m.len - (x + 1)) := by
            rw [show m.len - x = m.len - (x + 1) + 1 by omega, List.range'_succ]
          have hih := ih (i := i + 1) (k := x + 1) (by omega) hsorted.2 fun y hy =>
            ⟨hsorted.1 y hy, (hin y (by simp [hy])).2⟩
          rw [if_neg (by simpa using hend), hrange, List.length_cons,
            show i + (xs.length + 1) = i + 1 + xs.length by omega]
          rw [show x + 1 - 1 = x by omega] at hih
          rcases hih with ⟨hxs, heq⟩ | ⟨hxs, hex⟩
          · exact .inl ⟨by rw [hxs], heq⟩
          · exact .inr ⟨fun h => hxs (List.cons.inj h).2, hex⟩
      · -- a gap: the run is lost
        right
        rw [if_pos (fun h => hxk (hnext.mp h)), findComplete_lost xs fun y hy => by
          have := hsorted.1 y hy
          omega]
        refine ⟨?_, none, runBelow_none _ _, ?_⟩
        · obtain ⟨d, hd⟩ : ∃ d, m.len - k = d + 1 := ⟨m.len - k - 1, by omega⟩
          rw [hd, List.range'_succ]
          exact fun h => hxk (List.cons.inj h).1
        · rw [List.length_cons, Nat.add_assoc, Nat.add_comm 1]

/-- The pieces of one message: it is found if all have arrived, and passed over otherwise. -/
theorem findComplete_message (hlo : lo ≤ m.start) (hstop : m.stop ≤ lo + 2 ^ 31)
    (hpos : 0 < m.len) (hrun : RunBelow lo run m.start) (xs : List Nat)
    (hsorted : xs.Pairwise (· < ·)) (hin : ∀ x ∈ xs, x < m.len) :
    (xs = List.range m.len ∧
      findComplete i run (xs.map m.chunk ++ l) = some (i, m.len)) ∨
    (xs ≠ List.range m.len ∧ ∃ run', RunBelow lo run' m.stop ∧
      findComplete i run (xs.map m.chunk ++ l) = findComplete (i + xs.length) run' l) := by
  have hm : m.stop = m.start + m.len := rfl
  have hrange : List.range m.len = 0 :: List.range' 1 (m.len - 1) := by
    obtain ⟨n, hn⟩ : ∃ n, m.len = n + 1 := ⟨m.len - 1, by omega⟩
    rw [List.range_eq_range', hn, List.range'_succ]
    rfl
  cases xs with
  | nil =>
      right
      rw [hrange]
      exact ⟨by simp, run, hrun.mono (by omega), rfl⟩
  | cons x xs =>
      have hlast : x + 1 = m.len → xs = [] := fun h =>
        eq_nil_of_last h hsorted fun y hy => hin y (by simp [hy])
      rw [List.pairwise_cons] at hsorted
      have hx := hin x (by simp)
      rw [List.map_cons, List.cons_append, hrange, List.length_cons,
        show i + (xs.length + 1) = i + 1 + xs.length by omega]
      by_cases hx0 : x = 0
      · subst hx0
        rw [findComplete_begin]
        by_cases hone : m.len = 1
        · left
          rw [if_pos (show (0 + 1 == m.len) = true by rw [hone]; rfl), hone, hlast hone.symm]
          exact ⟨rfl, rfl⟩
        · have hend : ¬ (0 + 1 == m.len) = true := by
            rw [beq_iff_eq]
            omega
          have hinside := findComplete_inside (i := i + 1) (l := l) (s := i) (k := 1) hlo
            hstop (by omega) xs hsorted.2 fun y hy =>
              ⟨hsorted.1 y hy, hin y (by simp [hy])⟩
          rw [if_neg hend]
          rcases hinside with ⟨hxs, heq⟩ | ⟨hxs, hex⟩
          · exact .inl ⟨by rw [hxs], heq⟩
          · exact .inr ⟨fun h => hxs (List.cons.inj h).2, hex⟩
      · right
        refine ⟨fun h => hx0 (List.cons.inj h).1, none, runBelow_none _ _, ?_⟩
        have hlost := findComplete_lost (m := m) (i := i + 1) (l := l) xs fun y hy => by
          have := hsorted.1 y hy
          omega
        rw [findComplete_piece (Nat.pos_of_ne_zero hx0)]
        cases run with
        | none => exact hlost
        | some run =>
            -- the run before the message does not go on inside it
            obtain ⟨s, c, t⟩ := run
            obtain ⟨n, ht, hln, hn⟩ := hrun s c t rfl
            have hgap : (m.chunk x).tsn ≠ t + 1#32 := by
              rw [ht, ← tsn_add _ 1]
              show tsn (m.start + x) ≠ tsn (n + 1)
              rw [Ne, tsn_inj (by omega) (by omega)]
              omega
            rw [← hlost]
            exact if_pos hgap

end Scan

/-! ### The messages of a stream -/

/-- The messages of the stream `si`, in the order in which they were sent. Their numbers do not
overlap and lie in half of the range of the TSNs, and the ordered ones go up in their places. -/
structure Planned (si : StreamId) (plan : List Sent) : Prop where
  apart : plan.Pairwise fun m m' => m.stop ≤ m'.start
  seqs : plan.Pairwise fun m m' => m.unordered = false → m'.unordered = false → m.seq < m'.seq
  pieces : ∀ m ∈ plan, 0 < m.len
  stream : ∀ m ∈ plan, m.si = si
  near : ∀ m ∈ plan, ∀ m' ∈ plan, m.stop ≤ m'.start + 2 ^ 31

/-- Messages with distinct numbers that share a number are one. -/
theorem Sent.eq_of_shared {ms : List Sent} (hapart : ms.Pairwise fun m m' => m.stop ≤ m'.start)
    {m m' : Sent} (hm : m ∈ ms) (hm' : m' ∈ ms) {i j : Nat} (hi : i < m.len) (hj : j < m'.len)
    (h : m.start + i = m'.start + j) : m = m' := by
  by_contra hne
  have hsymm : Std.Symm fun m m' : Sent => m.stop ≤ m'.start ∨ m'.stop ≤ m.start :=
    ⟨fun _ _ h => h.symm⟩
  have hpair : ms.Pairwise fun m m' => m.stop ≤ m'.start ∨ m'.stop ≤ m.start :=
    hapart.imp fun h => .inl h
  have := hpair.forall hm hm' hne
  unfold Sent.stop at this
  omega

namespace Planned

variable {si : StreamId} {plan : List Sent} {m m' : Sent}

theorem len_le (hp : Planned si plan) (hm : m ∈ plan) : m.len ≤ 2 ^ 31 := by
  have := hp.near m hm m hm
  unfold Sent.stop at this
  omega

theorem sublist (hp : Planned si plan) {plan' : List Sent} (h : plan'.Sublist plan) :
    Planned si plan' :=
  { apart := hp.apart.sublist h
    seqs := hp.seqs.sublist h
    pieces := fun m hm => hp.pieces m (h.mem hm)
    stream := fun m hm => hp.stream m (h.mem hm)
    near := fun m hm m' hm' => hp.near m (h.mem hm) m' (h.mem hm') }

theorem nodup (hp : Planned si plan) : plan.Nodup := by
  rw [List.nodup_iff_pairwise_ne]
  refine (List.Pairwise.and_mem.mp hp.apart).imp ?_
  rintro m m' ⟨hm, -, hle⟩ heq
  have := hp.pieces m hm
  subst heq
  unfold Sent.stop at hle
  omega

/-- Two messages that share a number are one. -/
theorem eq_of_shared (hp : Planned si plan) (hm : m ∈ plan) (hm' : m' ∈ plan) {i j : Nat}
    (hi : i < m.len) (hj : j < m'.len) (h : m.start + i = m'.start + j) : m = m' :=
  Sent.eq_of_shared hp.apart hm hm' hi hj h

theorem ne_of_other (hp : Planned si plan) (hm : m ∈ plan) (hm' : m' ∈ plan) (hne : m' ≠ m)
    {i : Nat} (hi : i < m.len) : ∀ j < m'.len, m'.start + j ≠ m.start + i :=
  fun _ hj heq => hne (hp.eq_of_shared hm' hm hj hi heq)

/-- Two ordered messages at one place are one. -/
theorem eq_of_seq (hp : Planned si plan) (hm : m ∈ plan) (hm' : m' ∈ plan)
    (ho : m.unordered = false) (ho' : m'.unordered = false) (h : m.seq = m'.seq) : m = m' := by
  by_contra hne
  have hsymm : Std.Symm fun m m' : Sent =>
      m.unordered = false → m'.unordered = false → m.seq ≠ m'.seq :=
    ⟨fun _ _ h ho ho' heq => h ho' ho heq.symm⟩
  have hpair : plan.Pairwise fun m m' =>
      m.unordered = false → m'.unordered = false → m.seq ≠ m'.seq :=
    hp.seqs.imp fun h ho ho' => Nat.ne_of_lt (h ho ho')
  exact hpair.forall hm hm' hne ho ho' h

end Planned

/-- The pieces of some messages that have arrived. -/
def places (ms : List Sent) (received : Finset Nat) : List (Sent × Nat) :=
  ms.flatMap fun m => (m.arrived received).map fun i => (m, i)

def chunkAt (p : Sent × Nat) : PayloadData := p.1.chunk p.2

theorem mem_places {ms : List Sent} {received : Finset Nat} {p : Sent × Nat} :
    p ∈ places ms received ↔ p.1 ∈ ms ∧ p.2 < p.1.len ∧ p.1.start + p.2 ∈ received := by
  obtain ⟨m, i⟩ := p
  simp only [places, List.mem_flatMap, List.mem_map, Prod.mk.injEq]
  constructor
  · rintro ⟨m', hm', j, hj, rfl, rfl⟩
    exact ⟨hm', Sent.mem_arrived.mp hj⟩
  · rintro ⟨hm, hi⟩
    exact ⟨m, hm, i, Sent.mem_arrived.mpr hi, rfl, rfl⟩

theorem places_cons (m : Sent) (ms : List Sent) (received : Finset Nat) :
    (places (m :: ms) received).map chunkAt =
      (m.arrived received).map m.chunk ++ (places ms received).map chunkAt := by
  simp [places, chunkAt, Function.comp_def]

theorem places_append (ms ms' : List Sent) (received : Finset Nat) :
    places (ms ++ ms') received = places ms received ++ places ms' received := by
  simp [places]

/-- The pieces stand in the order of their numbers. -/
theorem sorted_places {ms : List Sent} (hapart : ms.Pairwise fun m m' => m.stop ≤ m'.start)
    (received : Finset Nat) :
    (places ms received).Pairwise fun p p' => p.1.start + p.2 < p'.1.start + p'.2 := by
  induction ms with
  | nil => exact List.Pairwise.nil
  | cons m ms ih =>
      rw [List.pairwise_cons] at hapart
      show ((m.arrived received).map (fun i => (m, i)) ++ places ms received).Pairwise _
      rw [List.pairwise_append]
      refine ⟨?_, ih hapart.2, ?_⟩
      · rw [List.pairwise_map]
        exact (Sent.sorted_arrived m received).imp fun h => by
          simp only
          omega
      · intro p hp p' hp'
        obtain ⟨i, hi, rfl⟩ := List.mem_map.mp hp
        have hi := (Sent.mem_arrived.mp hi).1
        have hle := hapart.1 p'.1 (mem_places.mp hp').1
        unfold Sent.stop at hle
        simp only
        omega

section Search

variable {lo b i : Nat} {run : Option (Nat × Nat × TSN)} {received : Finset Nat}

/-- The messages that lie from `b` on within half of the range, one behind the other. -/
structure Ahead (lo b : Nat) (ms : List Sent) : Prop where
  apart : ms.Pairwise fun m m' => m.stop ≤ m'.start
  pieces : ∀ m ∈ ms, 0 < m.len
  low : ∀ m ∈ ms, b ≤ m.start
  lo_le : lo ≤ b
  high : ∀ m ∈ ms, m.stop ≤ lo + 2 ^ 31

theorem Ahead.tail {m : Sent} {ms : List Sent} (h : Ahead lo b (m :: ms)) :
    Ahead lo m.stop ms := by
  have hapart := List.pairwise_cons.mp h.apart
  have hlow := h.low m (by simp)
  have hlo := h.lo_le
  refine ⟨hapart.2, fun m' hm' => h.pieces m' (by simp [hm']), hapart.1, ?_,
    fun m' hm' => h.high m' (by simp [hm'])⟩
  unfold Sent.stop
  omega

/-- The search at the first message: it is found if it has all its pieces, and passed over if it
lacks one. -/
theorem findComplete_cons {m : Sent} {ms : List Sent} (h : Ahead lo b (m :: ms))
    (hrun : RunBelow lo run b) :
    (m.complete received = true ∧
      findComplete i run ((places (m :: ms) received).map chunkAt) = some (i, m.len)) ∨
    (m.complete received = false ∧ ∃ run', RunBelow lo run' m.stop ∧
      findComplete i run ((places (m :: ms) received).map chunkAt) =
        findComplete (i + (m.arrived received).length) run'
          ((places ms received).map chunkAt)) := by
  have hm : m ∈ m :: ms := List.mem_cons_self
  rw [places_cons, ← Bool.not_eq_true, Sent.complete_iff_arrived]
  exact findComplete_message (Nat.le_trans h.lo_le (h.low m hm)) (h.high m hm) (h.pieces m hm)
    (hrun.mono (h.low m hm)) (m.arrived received) (Sent.sorted_arrived _ _)
    fun x hx => (Sent.mem_arrived.mp hx).1

/-- Among messages that lack a piece nothing is found. -/
theorem findComplete_eq_none {ms : List Sent} (h : Ahead lo b ms) (hrun : RunBelow lo run b)
    (hopen : ∀ m ∈ ms, m.complete received = false) :
    findComplete i run ((places ms received).map chunkAt) = none := by
  induction ms generalizing b i run with
  | nil => cases run <;> rfl
  | cons m ms ih =>
      rcases findComplete_cons (i := i) h hrun with ⟨hall, -⟩ | ⟨-, run', hrun', heq⟩
      · rw [hopen m List.mem_cons_self] at hall
        cases hall
      · rw [heq]
        exact ih h.tail hrun' fun m' hm' => hopen m' (List.mem_cons_of_mem m hm')

/-- The first message without a missing piece is found. -/
theorem findComplete_eq_some {pre post : List Sent} {m : Sent} (h : Ahead lo b (pre ++ m :: post))
    (hrun : RunBelow lo run b) (hopen : ∀ m ∈ pre, m.complete received = false)
    (hm : m.complete received = true) :
    findComplete i run ((places (pre ++ m :: post) received).map chunkAt) =
      some (i + (places pre received).length, m.len) := by
  induction pre generalizing b i run with
  | nil =>
      rcases findComplete_cons (i := i) h hrun with ⟨-, heq⟩ | ⟨hnot, -⟩
      · exact heq
      · rw [hm] at hnot
        cases hnot
  | cons m' pre ih =>
      rw [List.cons_append] at h ⊢
      rcases findComplete_cons (i := i) h hrun with ⟨hall, -⟩ | ⟨-, run', hrun', heq⟩
      · rw [hopen m' List.mem_cons_self] at hall
        cases hall
      · rw [heq, ih h.tail hrun' fun m'' hm'' => hopen m'' (List.mem_cons_of_mem m' hm'')]
        simp [places, Nat.add_assoc]

end Search

/-! ### The inbox of a stream -/

/-- What the receiver of a stream has: the numbers of the chunks that have arrived, the place of the
next ordered message, the complete unordered messages that wait, and the messages that have been
read. -/
structure Inbox where
  received : Finset Nat
  next : Nat
  queued : List Sent
  read : List Sent

namespace Inbox

def empty : Inbox := { received := ∅, next := 0, queued := [], read := [] }

/-- The piece `i` of the message `m` arrives. -/
def arrive (b : Inbox) (m : Sent) (i : Nat) : Inbox :=
  let received := insert (m.start + i) b.received
  { b with
    received
    queued := if m.unordered && m.complete received then b.queued ++ [m] else b.queued }

/-- The ordered message that can be read. -/
def ready (b : Inbox) (plan : List Sent) : Option Sent :=
  plan.find? fun m => !m.unordered && m.seq == b.next && m.complete b.received

/-- The first message that waits is read. -/
def takeQueued (b : Inbox) (m : Sent) : Inbox :=
  { b with queued := b.queued.tail, read := b.read ++ [m] }

/-- The next ordered message is read. -/
def takeNext (b : Inbox) (m : Sent) : Inbox :=
  { b with next := b.next + 1, read := b.read ++ [m] }

/-- A read with a buffer of `len` bytes. -/
def take (b : Inbox) (plan : List Sent) (len : Nat) : Inbox × ReadResult :=
  match b.queued, b.ready plan with
  | m :: _, _ =>
    if len < m.data.length then (b, .shortBuffer m.data.length)
    else (b.takeQueued m, .message m.data m.ppi)
  | [], some m =>
    if len < m.data.length then (b, .shortBuffer m.data.length)
    else (b.takeNext m, .message m.data m.ppi)
  | [], none => (b, .tryAgain)

/-- An ordered message that has pieces in the queue. -/
def waiting (b : Inbox) (m : Sent) : Bool :=
  !m.unordered && decide (b.next ≤ m.seq) && !(m.arrived b.received).isEmpty

/-- An unordered message that lacks pieces. -/
def lacking (b : Inbox) (m : Sent) : Bool := m.unordered && !m.complete b.received

/-- The bytes of a message that have arrived and have not been read. -/
def held (b : Inbox) (m : Sent) : Nat :=
  if m ∈ b.read then 0
  else ((m.arrived b.received).map fun i => (m.pieces.getD i []).length).sum

end Inbox

/-- The queue `r` of the stream `si` holds what the inbox `b` says, for the messages `plan`. -/
structure Assembles (si : StreamId) (plan : List Sent) (b : Inbox) (r : ReassemblyQueue) :
    Prop where
  stream : r.si = si
  nextSSN : r.nextSSN = ssn b.next
  ordered : r.ordered = (plan.filter b.waiting).map fun m => m.set b.received
  unordered : r.unordered = b.queued.map Sent.whole
  unorderedChunks :
    r.unorderedChunks = (places (plan.filter b.lacking) b.received).map chunkAt
  plain : r.useInterleaving = false
  bytes : r.nBytes = (plan.map b.held).sum

/-- What holds for the inbox itself. -/
structure Inbox.Sound (plan : List Sent) (b : Inbox) : Prop where
  read_ordered : ∀ m ∈ plan, m.unordered = false → (m ∈ b.read ↔ m.seq < b.next)
  read_complete : ∀ m ∈ b.read, m.complete b.received = true
  queued_complete : ∀ m ∈ b.queued, m.complete b.received = true
  complete_unordered : ∀ m ∈ plan, m.unordered = true →
    (m.complete b.received = true ↔ m ∈ b.queued ∨ m ∈ b.read)
  mem_plan : ∀ m ∈ b.queued ++ b.read, m ∈ plan
  queued_unordered : ∀ m ∈ b.queued, m.unordered = true
  nodup : (b.queued ++ b.read).Nodup
  near : ∀ m ∈ plan, b.waiting m = true → m.seq < b.next + 2 ^ 15
  in_order : ((b.read.filter fun m => !m.unordered).map Sent.seq) = List.range b.next

/-! ### Copying -/

/-- The bytes of some chunks. -/
def numBytes (chunks : List PayloadData) : Nat := (chunks.map fun c => c.userData.length).sum

theorem copyChunks_eq (len : Nat) (chunks : List PayloadData) :
    copyChunks len chunks =
      (numBytes chunks, decide (len < numBytes chunks), (copyChunks len chunks).2.2) ∧
    (numBytes chunks ≤ len →
      (copyChunks len chunks).2.2 = (chunks.map PayloadData.userData).flatten) := by
  have hfold := fold len chunks 0 []
  have hzero : decide (len < 0) = false := by simp
  rw [hzero, Nat.zero_add] at hfold
  exact ⟨Prod.ext hfold.1 (Prod.ext hfold.2.1 rfl), hfold.2.2⟩
where
  /-- The state after some chunks: the flag says whether the bytes so far exceed the buffer. -/
  fold (len : Nat) (chunks : List PayloadData) (n : Nat) (out : List UInt8) :
      let f := fun (acc : Nat × Bool × List UInt8) (c : PayloadData) =>
        if len < acc.1 + c.userData.length then (acc.1 + c.userData.length, true, acc.2.2)
        else (acc.1 + c.userData.length, acc.2.1, acc.2.2 ++ c.userData)
      let acc := chunks.foldl f (n, decide (len < n), out)
      acc.1 = n + numBytes chunks ∧ acc.2.1 = decide (len < n + numBytes chunks) ∧
        (n + numBytes chunks ≤ len →
          acc.2.2 = out ++ (chunks.map PayloadData.userData).flatten) := by
    induction chunks generalizing n out with
    | nil => simp [numBytes]
    | cons c cs ih =>
        intro f
        have hbytes : n + numBytes (c :: cs) = n + c.userData.length + numBytes cs := by
          simp [numBytes]
          omega
        rw [hbytes, List.foldl_cons]
        by_cases hlt : len < n + c.userData.length
        · have hstep : f (n, decide (len < n), out) c =
              (n + c.userData.length, decide (len < n + c.userData.length), out) := by
            simp [f, hlt]
          have := ih (n + c.userData.length) out
          rw [hstep]
          refine ⟨this.1, this.2.1, fun hle => ?_⟩
          omega
        · have hstep : f (n, decide (len < n), out) c =
              (n + c.userData.length, decide (len < n + c.userData.length),
                out ++ c.userData) := by
            have hn : ¬ len < n := by omega
            simp [f, hlt, hn]
          have := ih (n + c.userData.length) (out ++ c.userData)
          rw [hstep]
          refine ⟨this.1, this.2.1, fun hle => ?_⟩
          rw [this.2.2 hle]
          simp

/-- The chunks of a whole message. -/
theorem userData_chunks (m : Sent) :
    ((List.range m.len).map m.chunk).map PayloadData.userData = m.pieces := by
  apply List.ext_getElem
  · simp [Sent.len]
  · intro i h1 h2
    simp [Sent.chunk, h2]

theorem numBytes_chunks (m : Sent) : numBytes ((List.range m.len).map m.chunk) = m.data.length := by
  have h := userData_chunks m
  unfold numBytes Sent.data
  rw [List.length_flatten, ← h, List.map_map, List.map_map, List.map_map]
  rfl

end PionBridge.Sctp
