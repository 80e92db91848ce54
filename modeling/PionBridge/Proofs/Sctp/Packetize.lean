import PionBridge.Proofs.Sctp.Reassembly
import PionBridge.Sctp.Sender

/-!
# `PionBridge.Proofs.Sctp.Packetize`: how a message is cut

`packetize` cuts a message into pieces that are not empty and give the message when they are put
together (`flatten_pieces`), and numbers them as the chunks of one message (`packetize_eq`). A write
that the association refuses leaves the stream as it was (`rollback_packetize`).
-/

set_option autoImplicit false

namespace PionBridge.Sctp

open PionBridge.Lib ReceiveWindow

/-- The pieces of a message: all but the last have `n` bytes. -/
def pieces (n : Nat) : Nat → List UInt8 → List (List UInt8)
  | 0, _ => []
  | fuel + 1, raw =>
    if raw.isEmpty then []
    else raw.take (min n raw.length) :: pieces n fuel (raw.drop (min n raw.length))

section Pieces

variable {n fuel : Nat} {raw : List UInt8}

theorem pieces_nil (n fuel : Nat) : pieces n fuel [] = [] := by
  cases fuel <;> rfl

/-- The pieces put together are the message. -/
theorem flatten_pieces (hn : 0 < n) (hfuel : raw.length ≤ fuel) :
    (pieces n fuel raw).flatten = raw := by
  induction fuel generalizing raw with
  | zero =>
      have hnil : raw = [] := List.length_eq_zero_iff.mp (by omega)
      rw [hnil]
      rfl
  | succ fuel ih =>
      rw [pieces]
      cases raw with
      | nil => rfl
      | cons x xs =>
          rw [List.length_cons] at hfuel
          rw [if_neg (by simp), List.flatten_cons,
            ih (by rw [List.length_drop, List.length_cons]; omega), List.take_append_drop]

/-- No piece is empty or longer than `n`. -/
theorem pieces_bounds (hn : 0 < n) : ∀ p ∈ pieces n fuel raw, p ≠ [] ∧ p.length ≤ n := by
  induction fuel generalizing raw with
  | zero => simp [pieces]
  | succ fuel ih =>
      rw [pieces]
      cases raw with
      | nil => simp
      | cons x xs =>
          rw [if_neg (by simp)]
          intro p hp
          rcases List.mem_cons.mp hp with heq | hmem
          · subst heq
            constructor
            · rw [Ne, List.take_eq_nil_iff, List.length_cons]
              simp
              omega
            · rw [List.length_take]
              omega
          · exact ih p hmem

/-- The number of pieces. -/
theorem length_pieces (hn : 0 < n) (hfuel : raw.length ≤ fuel) :
    (pieces n fuel raw).length = (raw.length + n - 1) / n := by
  induction fuel generalizing raw with
  | zero =>
      have hnil : raw.length = 0 := by omega
      rw [pieces, hnil, Nat.zero_add, Nat.div_eq_of_lt (by omega)]
      rfl
  | succ fuel ih =>
      rw [pieces]
      cases hraw : raw.isEmpty with
      | true =>
          have hnil : raw.length = 0 := by
            rw [List.isEmpty_iff.mp hraw]
            rfl
          rw [if_pos rfl, hnil, Nat.zero_add, Nat.div_eq_of_lt (by omega)]
          rfl
      | false =>
          have hpos : 0 < raw.length := by
            rw [List.length_pos_iff, Ne, ← List.isEmpty_iff, hraw]
            simp
          rw [if_neg (by simp), List.length_cons,
            ih (by rw [List.length_drop]; omega), List.length_drop]
          rcases Nat.le_total n raw.length with hle | hle
          · rw [Nat.min_eq_left hle,
              show raw.length + n - 1 = raw.length - n + n - 1 + n by omega,
              Nat.add_div_right _ hn]
          · rw [Nat.min_eq_right hle, Nat.sub_self, Nat.zero_add,
              Nat.div_eq_of_lt (show n - 1 < n by omega),
              show raw.length + n - 1 = raw.length - 1 + n by omega, Nat.add_div_right _ hn,
              Nat.div_eq_of_lt (show raw.length - 1 < n by omega)]

theorem pieces_eq_nil_iff (hn : 0 < n) (hfuel : raw.length ≤ fuel) :
    pieces n fuel raw = [] ↔ raw = [] := by
  constructor
  · intro h
    rw [← flatten_pieces hn hfuel, h]
    rfl
  · intro h
    rw [h]
    exact pieces_nil n fuel

end Pieces

/-- The chunks of the loop, piece by piece. -/
theorem packetizeLoop_eq {n : Nat} (hn : 0 < n) (chunk : PayloadData) (fuel : Nat)
    (raw : List UInt8) (offset : Nat) (fsn : BitVec 32) (hfuel : raw.length ≤ fuel) :
    SendStream.packetizeLoop n chunk fuel raw offset fsn =
      (pieces n fuel raw).mapIdx fun i p =>
        { chunk with
          userData := p
          beginningFragment := offset == 0 && i == 0
          endingFragment := i + 1 == (pieces n fuel raw).length
          fragmentSequenceNumber := fsn + BitVec.ofNat 32 i } := by
  induction fuel generalizing raw offset fsn with
  | zero => rfl
  | succ fuel ih =>
      rw [SendStream.packetizeLoop, pieces]
      cases hraw : raw.isEmpty with
      | true => rfl
      | false =>
          have hpos : 0 < raw.length := by
            rw [List.length_pos_iff, Ne, ← List.isEmpty_iff, hraw]
            simp
          have hrest : (raw.drop (min n raw.length)).length ≤ fuel := by
            rw [List.length_drop]
            omega
          rw [if_neg (by simp), if_neg (by simp)]
          dsimp only
          rw [ih _ _ _ hrest, List.mapIdx_cons, List.length_cons]
          -- the last piece is the one with nothing behind it
          have hlast : (raw.length - min n raw.length == 0) =
              (0 + 1 == (pieces n fuel (raw.drop (min n raw.length))).length + 1) := by
            rw [Bool.eq_iff_iff, beq_iff_eq, beq_iff_eq]
            have hnil := pieces_eq_nil_iff hn hrest
            rw [← List.length_eq_zero_iff, ← List.length_eq_zero_iff, List.length_drop] at hnil
            omega
          have hoffset : (offset + min n raw.length == 0) = false := by
            rw [beq_eq_false_iff_ne]
            omega
          have hfirst : (offset == 0 && (0 : Nat) == 0) = (offset == 0) := by simp
          rw [hlast, hfirst, BitVec.add_zero]
          congr 2
          funext i p
          have hsecond :
              (offset == 0 && i + 1 == 0) = (offset + min n raw.length == 0 && i == 0) := by
            rw [hoffset]
            simp
          have hcount : fsn + 1#32 + BitVec.ofNat 32 i = fsn + BitVec.ofNat 32 (i + 1) := by
            rw [BitVec.ofNat_add, BitVec.add_assoc, BitVec.add_comm 1#32]
          have hend : (i + 1 == (pieces n fuel (raw.drop (min n raw.length))).length) =
              (i + 1 + 1 == (pieces n fuel (raw.drop (min n raw.length))).length + 1) := by
            rw [Bool.eq_iff_iff, beq_iff_eq, beq_iff_eq]
            omega
          rw [hsecond, hcount, hend]

namespace Sent

/-- The chunk of the piece `i` before it has a TSN. -/
def out (m : Sent) (i : Nat) : PayloadData :=
  { m.chunk i with tsn := 0, fragmentSequenceNumber := BitVec.ofNat 32 i }

def outs (m : Sent) : List PayloadData := (List.range m.len).map m.out

/-- A message as a stream cuts it. -/
def ofWrite (n : Nat) (si : StreamId) (unordered : Bool) (seq : Nat) (payload : List UInt8)
    (ppi : PPI) : Sent :=
  { start := 0, seq, unordered, si, ppi, pieces := Sctp.pieces n payload.length payload }

theorem data_ofWrite {n : Nat} (hn : 0 < n) (si : StreamId) (unordered : Bool) (seq : Nat)
    (payload : List UInt8) (ppi : PPI) :
    (ofWrite n si unordered seq payload ppi).data = payload :=
  flatten_pieces hn (Nat.le_refl _)

end Sent

/-- `packetize` cuts the message and counts it. -/
theorem packetize_eq {n : Nat} (hn : 0 < n) (st : SendStream) (payload : List UInt8) (ppi : PPI)
    {seq : Nat} (hseq : st.sequenceNumber = ssn seq) :
    let unordered := ppi != payloadTypeWebRTCDCEP && st.unordered
    st.packetize false n payload ppi =
      ({ st with
          sequenceNumber := ssn (if unordered then seq else seq + 1)
          bufferedAmount := st.bufferedAmount + payload.length },
        (Sent.ofWrite n st.streamIdentifier unordered seq payload ppi).outs, unordered) := by
  intro unordered
  unfold SendStream.packetize
  simp only [Bool.not_false, Bool.false_and, Bool.true_and, if_true, Bool.false_eq_true, if_false]
  have hnext : (if !unordered then st.sequenceNumber + 1#16 else st.sequenceNumber) =
      ssn (if unordered then seq else seq + 1) := by
    cases unordered with
    | false =>
        rw [hseq]
        exact (BitVec.ofNat_add ..).symm
    | true => exact hseq
  refine Prod.ext ?_ (Prod.ext ?_ rfl)
  · simp only
    rw [← hnext]
  · simp only
    rw [packetizeLoop_eq hn _ _ _ _ _ (Nat.le_refl _)]
    apply List.ext_getElem
    · simp [Sent.outs, Sent.len, Sent.ofWrite]
    · intro i h1 h2
      simp only [List.length_mapIdx] at h1
      simp only [List.getElem_mapIdx, Sent.outs, List.getElem_map, List.getElem_range, Sent.out,
        Sent.chunk, Sent.ofWrite, Sent.len, beq_self_eq_true, Bool.true_and,
        List.getD_eq_getElem?_getD, List.getElem?_eq_getElem h1, Option.getD_some, hseq]
      simp [unordered]

/-- A refused write is taken back. -/
theorem rollback_packetize (st : SendStream) (n : Nat) (payload : List UInt8) (ppi : PPI) :
    (st.packetize false n payload ppi).1.rollback false (st.packetize false n payload ppi).2.2
      payload.length = st := by
  unfold SendStream.packetize SendStream.rollback
  cases hu : (ppi != payloadTypeWebRTCDCEP && st.unordered) with
  | false =>
      show { st with
        sequenceNumber := st.sequenceNumber + 1#16 - 1#16
        bufferedAmount := st.bufferedAmount + payload.length - payload.length } = st
      rw [BitVec.add_sub_cancel, Nat.add_sub_cancel]
  | true =>
      show { st with bufferedAmount := st.bufferedAmount + payload.length - payload.length } = st
      rw [Nat.add_sub_cancel]

end PionBridge.Sctp
