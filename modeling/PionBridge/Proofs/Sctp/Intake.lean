import PionBridge.Proofs.Sctp.GapAckBlocks
import PionBridge.Proofs.Sctp.Inbox
import PionBridge.Sctp.Link

/-!
# `PionBridge.Proofs.Sctp.Intake`: what the receiver does with the chunks

The receiving half stands for the window of TSNs, the numbers of the chunks that were accepted and
one inbox for each stream (`Intake`, `Receives`). A chunk of a message that was begun is accepted at
most once (`Receives.handleData`), a read takes the next message out of the inbox of its stream
(`Receives.readSCTP`), and the steps of the sender are seen as messages that are begun
(`Receives.grow`).
-/

set_option autoImplicit false

namespace PionBridge.Sctp

open PionBridge.Lib ReceiveWindow

/-- The messages of a stream. -/
def planOf (si : StreamId) (begun : List Sent) : List Sent := begun.filter fun m => m.si == si

theorem mem_planOf {si : StreamId} {begun : List Sent} {m : Sent} :
    m ∈ planOf si begun ↔ m ∈ begun ∧ m.si = si := by
  simp [planOf]

/-- What the receiver has. -/
structure Intake where
  window : ReceiveWindow
  accepted : Finset Nat
  boxes : StreamId → Inbox

/-- The numbers from `base` up to `n` that were accepted: those up to the cumulative TSN, and those
that the window has. -/
structure Covers (base n : Nat) (accepted : Finset Nat) (w : ReceiveWindow) : Prop where
  accepted : ∀ j, j ∈ accepted ↔ (base ≤ j ∧ j ≤ w.cum) ∨ j ∈ w.received
  bounds : base ≤ w.cum + 1 ∧ w.cum < n
  below : ∀ j ∈ w.received, j < n

/-- The receiver `a` with a window of `span` TSNs has the intake `x` of the messages `begun`, with
the numbers from `base` up to `n`. -/
structure Receives (base span : Nat) (begun : List Sent) (n : Nat) (a : Receiver) (x : Intake) :
    Prop where
  holds : Holds a.payloadQueue x.window
  size : x.window.size = span
  covers : Covers base n x.accepted x.window
  received : ∀ si, (x.boxes si).received = x.accepted
  sound : ∀ si, (x.boxes si).Sound (planOf si begun)
  assembles : ∀ r ∈ a.streams, Assembles r.si (planOf r.si begun) (x.boxes r.si) r
  distinct : (a.streams.map ReassemblyQueue.si).Nodup
  closed : ∀ si, si ∉ a.streams.map ReassemblyQueue.si → (x.boxes si).Fresh (planOf si begun)

/-- The messages that were begun have distinct numbers, and the numbers up to `n` lie in half of the
range of the TSNs, where a window of `span` TSNs is level. -/
structure Range (base span : Nat) (begun : List Sent) (n : Nat) : Prop where
  apart : begun.Pairwise fun m m' => m.stop ≤ m'.start
  low : ∀ m ∈ begun, base ≤ m.start
  planned : ∀ si, Planned si (planOf si begun)
  near : n < base + 2 ^ 31
  level : span ∣ 2 ^ 32 ∨ (base - 1) / 2 ^ 32 = (n + span) / 2 ^ 32

section Window

variable {q : ReceivePayloadQueue} {w : ReceiveWindow} {j : Nat}

/-- The offset of a number that is near. -/
theorem offset_of_near (hlo : w.cum < j + 2 ^ 31) (hhi : j < w.cum + 2 ^ 31) :
    w.offset (tsn j) = if w.cum ≤ j then j - w.cum else 2 ^ 32 - (w.cum - j) := by
  by_cases hle : w.cum ≤ j
  · rw [if_pos hle]
    have h := @offset_tsn w (j - w.cum) (by omega)
    rwa [Nat.add_sub_cancel' hle] at h
  · rw [if_neg hle]
    have h := @offset_tsn w (2 ^ 32 - (w.cum - j)) (by omega)
    have htsn : tsn (w.cum + (2 ^ 32 - (w.cum - j))) = tsn j := by
      apply BitVec.eq_of_toNat_eq
      rw [toNat_tsn, toNat_tsn]
      omega
    rwa [htsn] at h

/-- A near number can be pushed when it is in the window and new. -/
theorem canPush_of_near (h : Holds q w) (hlo : w.cum < j + 2 ^ 31) (hhi : j < w.cum + 2 ^ 31) :
    q.canPush (tsn j) = true ↔ w.cum < j ∧ j ≤ w.cum + w.size ∧ j ∉ w.received := by
  have hsmall := h.small
  rw [h.canPush, decide_eq_true_eq, offset_of_near hlo hhi]
  by_cases hle : w.cum ≤ j
  · rw [if_pos hle, Nat.add_sub_cancel' hle]
    refine and_congr (by omega) (and_congr (by omega) Iff.rfl)
  · rw [if_neg hle]
    constructor
    · rintro ⟨-, hbound, -⟩
      omega
    · rintro ⟨hbound, -, -⟩
      omega

theorem push_of_near (hsmall : w.size < 2 ^ 31) (hlo : w.cum < j) (hhi : j ≤ w.cum + w.size)
    (hnew : j ∉ w.received) : w.push (tsn j) = { w with received := insert j w.received } := by
  have hoff := @offset_of_near w j (by omega) (by omega)
  rw [if_pos hlo.le] at hoff
  unfold ReceiveWindow.push
  rw [hoff, Nat.add_sub_cancel' hlo.le, if_neg (by omega), if_pos ⟨by omega, by omega, hnew⟩]

theorem Covers.arrive {base n : Nat} {accepted : Finset Nat} (h : Covers base n accepted w)
    (hj : j < n) :
    Covers base n (insert j accepted) { w with received := insert j w.received } :=
  { accepted := by
      intro k
      show k ∈ insert j accepted ↔ _ ∨ k ∈ insert j w.received
      rw [Finset.mem_insert, Finset.mem_insert, h.accepted]
      exact or_left_comm
    bounds := h.bounds
    below := by
      intro k hk
      rcases Finset.mem_insert.mp hk with rfl | hk
      · exact hj
      · exact h.below k hk }

theorem Covers.pop {base n : Nat} {accepted : Finset Nat} (h : Covers base n accepted w) :
    Covers base n accepted (w.pop false) := by
  unfold ReceiveWindow.pop
  split
  · rename_i hnext
    have hnext : w.cum + 1 ∈ w.received := by simpa using hnext
    have hbounds := h.bounds
    have hbelow := h.below _ hnext
    refine ⟨?_, ⟨?_, hbelow⟩, fun k hk => h.below k (Finset.mem_of_mem_erase hk)⟩
    · intro k
      show k ∈ accepted ↔ (base ≤ k ∧ k ≤ w.cum + 1) ∨ k ∈ w.received.erase (w.cum + 1)
      rw [h.accepted, Finset.mem_erase]
      by_cases hk : k = w.cum + 1
      · subst hk
        simp [hnext, hbounds.1]
      · simp only [ne_eq, hk, not_false_eq_true, true_and]
        refine or_congr ?_ Iff.rfl
        omega
    · show base ≤ w.cum + 1 + 1
      omega
  · exact h

/-- A window that begins at one of the numbers is level. -/
theorem Range.window {base span n : Nat} {begun : List Sent} (hrange : Range base span begun n)
    (hsize : w.size = span) (hbounds : base ≤ w.cum + 1 ∧ w.cum < n) : w.Level := by
  have hlevel := hrange.level
  unfold ReceiveWindow.Level
  rw [hsize]
  rcases hlevel with hdvd | hflat
  · exact .inl hdvd
  · right
    have hlo : (base - 1) / 2 ^ 32 ≤ w.cum / 2 ^ 32 := Nat.div_le_div_right (by omega)
    have hmid : w.cum / 2 ^ 32 ≤ (w.cum + span) / 2 ^ 32 := Nat.div_le_div_right (by omega)
    have hhi : (w.cum + span) / 2 ^ 32 ≤ (n + span) / 2 ^ 32 := Nat.div_le_div_right (by omega)
    omega

/-- The loop that moves the cumulative TSN on keeps the numbers that were accepted. -/
theorem popLoop_covers {base span n : Nat} {begun : List Sent} (hrange : Range base span begun n)
    {accepted : Finset Nat} (fuel : Nat) (h : Holds q w) (hsize : w.size = span)
    (hc : Covers base n accepted w) :
    ∃ w', Holds (Receiver.popLoop fuel q) w' ∧ w'.size = span ∧ Covers base n accepted w' ∧
      w.cum ≤ w'.cum := by
  induction fuel generalizing q w with
  | zero => exact ⟨w, h, hsize, hc, Nat.le_refl _⟩
  | succ fuel ih =>
      have hsize' : (w.pop false).size = span := (size_call w (.pop false)).trans hsize
      have hpop := h.pop false (hrange.window hsize hc.bounds)
        (hrange.window hsize' hc.pop.bounds)
      have hcum : w.cum ≤ (w.pop false).cum := by
        unfold ReceiveWindow.pop
        split
        · exact Nat.le_succ _
        · exact Nat.le_refl _
      unfold Receiver.popLoop
      dsimp only
      split
      · obtain ⟨w', hw', hs', hc', hle⟩ := ih hpop hsize' hc.pop
        exact ⟨w', hw', hs', hc', Nat.le_trans hcum hle⟩
      · exact ⟨w.pop false, hpop, hsize', hc.pop, hcum⟩

end Window

section Receiver

variable {base span n : Nat} {begun : List Sent} {a : Receiver} {x : Intake} {si : StreamId}

/-! ### Streams -/

theorem mem_of_findQueue {r : ReassemblyQueue} (h : a.findStream si = some r) :
    r ∈ a.streams ∧ r.si = si := by
  refine ⟨List.mem_of_find?_eq_some h, ?_⟩
  have hsi := List.find?_some h
  exact eq_of_beq hsi

theorem notMem_of_findQueue (h : a.findStream si = none) :
    si ∉ a.streams.map ReassemblyQueue.si := by
  intro hmem
  obtain ⟨r, hr, heq⟩ := List.mem_map.mp hmem
  have := List.find?_eq_none.mp h r hr
  simp [heq] at this

/-- A new stream has received nothing. -/
theorem Receives.newStream (h : Receives base span begun n a x)
    (hnew : si ∉ a.streams.map ReassemblyQueue.si) {accept : List StreamId} :
    Receives base span begun n
      { a with acceptCh := accept, streams := a.streams ++ [newReassemblyQueue si] } x :=
  { h with
    assembles := by
      intro r hr
      rcases List.mem_append.mp hr with hold | hr
      · exact h.assembles r hold
      · rw [List.mem_singleton.mp hr]
        exact (h.closed si hnew).assembles si
    distinct := by
      rw [List.map_append, List.nodup_append]
      refine ⟨h.distinct, by simp, ?_⟩
      intro y hy z hz heq
      have hz : z = si := List.mem_singleton.mp hz
      exact hnew (hz ▸ heq ▸ hy)
    closed := by
      intro si' hsi'
      rw [List.map_append] at hsi'
      exact h.closed si' fun hmem => hsi' (List.mem_append_left _ hmem) }

/-- The stream that `getOrCreateStream` gives is in the table. -/
theorem Receives.getOrCreateStream (h : Receives base span begun n a x) (si : StreamId)
    (accept : Bool) :
    Receives base span begun n (a.getOrCreateStream si accept).1 x ∧
      (a.getOrCreateStream si accept).1.payloadQueue = a.payloadQueue ∧
      ∀ r, (a.getOrCreateStream si accept).2 = some r →
        r ∈ (a.getOrCreateStream si accept).1.streams ∧ r.si = si := by
  unfold Receiver.getOrCreateStream
  cases hfind : a.findStream si with
  | some r =>
      refine ⟨h, rfl, ?_⟩
      intro r' hr'
      cases hr'
      exact mem_of_findQueue hfind
  | none =>
      have hnew := notMem_of_findQueue hfind
      unfold Receiver.createStream
      cases accept with
      | false =>
          refine ⟨h.newStream hnew, rfl, ?_⟩
          intro r hr
          cases hr
          exact ⟨by simp, rfl⟩
      | true =>
          dsimp only
          rw [if_pos rfl]
          split
          · refine ⟨h.newStream hnew, rfl, ?_⟩
            intro r hr
            cases hr
            exact ⟨by simp, rfl⟩
          · refine ⟨h, rfl, ?_⟩
            intro r hr
            cases hr

theorem si_putStream (a : Receiver) (r : ReassemblyQueue) :
    (a.putStream r).streams.map ReassemblyQueue.si = a.streams.map ReassemblyQueue.si := by
  unfold Receiver.putStream
  rw [List.map_map]
  apply List.map_congr_left
  intro y _
  simp only [Function.comp_apply]
  split
  · rename_i heq
    exact (eq_of_beq heq).symm
  · rfl

/-- The streams of the table are the ones that were there, but for the one that was put. -/
theorem forall_putStream {P : ReassemblyQueue → Prop} {r : ReassemblyQueue} (hr : P r)
    (hother : ∀ y ∈ a.streams, y.si ≠ r.si → P y) : ∀ y ∈ (a.putStream r).streams, P y := by
  intro y hy
  obtain ⟨z, hz, rfl⟩ := List.mem_map.mp hy
  by_cases heq : z.si = r.si
  · rw [if_pos (beq_iff_eq.mpr heq)]
    exact hr
  · rw [if_neg (by simpa using heq)]
    exact hother z hz heq

/-- A stream of the table is changed, and the inbox with it. -/
theorem Receives.putStream (h : Receives base span begun n a x) {r r' : ReassemblyQueue} {b : Inbox}
    (hr : r ∈ a.streams) (hsi : r'.si = r.si)
    (hassembles : Assembles r.si (planOf r.si begun) b r') (hsound : b.Sound (planOf r.si begun))
    (hreceived : b.received = x.accepted) :
    Receives base span begun n (a.putStream r')
      { x with boxes := fun si => if si = r.si then b else x.boxes si } := by
  exact
    { h with
      received := by
        intro si
        simp only
        split
        · exact hreceived
        · exact h.received si
      sound := by
        intro si
        simp only
        split
        · rename_i heq
          rw [heq]
          exact hsound
        · exact h.sound si
      assembles := by
        apply forall_putStream
        · simp only [hsi, if_true]
          exact hassembles
        · intro z hz hne
          simp only [if_neg (hsi ▸ hne)]
          exact h.assembles z hz
      distinct := by
        rw [si_putStream]
        exact h.distinct
      closed := by
        intro si hsi'
        rw [si_putStream] at hsi'
        have hne : si ≠ r.si := fun heq => hsi' (heq ▸ List.mem_map_of_mem hr)
        simp only [if_neg hne]
        exact h.closed si hsi' }

/-! ### Reading -/

/-- A read takes a message out of the inbox of its stream. -/
theorem Receives.readSCTP (hrange : Range base span begun n) (h : Receives base span begun n a x)
    {r : ReassemblyQueue} (hfind : a.findStream si = some r) (len : Nat) :
    Receives base span begun n (a.readSCTP si len).1
        { x with
          boxes := fun si' =>
            if si' = si then ((x.boxes si).take (planOf si begun) len).1 else x.boxes si' } ∧
      (a.readSCTP si len).2 = ((x.boxes si).take (planOf si begun) len).2 := by
  obtain ⟨hr, rfl⟩ := mem_of_findQueue hfind
  obtain ⟨hread, hresult⟩ :=
    Assembles.read (hrange.planned r.si) (h.sound r.si) (h.assembles r hr) len
  unfold Receiver.readSCTP
  rw [hfind]
  refine ⟨?_, hresult⟩
  apply h.putStream hr hread.stream hread ((h.sound r.si).take (hrange.planned r.si) len)
  rw [← h.received r.si]
  unfold Inbox.take
  split
  · split <;> rfl
  · split <;> rfl
  · rfl

/-! ### Chunks -/

/-- The piece `i` of the message `m` is accepted. -/
def Intake.arrive (x : Intake) (m : Sent) (i : Nat) : Intake :=
  { window := { x.window with received := insert (m.start + i) x.window.received }
    accepted := insert (m.start + i) x.accepted
    boxes := fun si =>
      if si = m.si then (x.boxes si).arrive m i else (x.boxes si).note (m.start + i) }

variable {m : Sent} {i : Nat}

/-- A number of a message is none of another stream. -/
theorem Range.other_stream (hrange : Range base span begun n) (hm : m ∈ begun) (hi : i < m.len)
    (hne : si ≠ m.si) : ∀ y ∈ planOf si begun, ∀ j < y.len, y.start + j ≠ m.start + i := by
  intro y hy j hj heq
  obtain ⟨hy, hysi⟩ := mem_planOf.mp hy
  have := Sent.eq_of_shared hrange.apart hy hm hj hi heq
  exact hne (by rw [← hysi, this])

/-- A new chunk in the window goes to its stream, which takes it. -/
theorem Receives.push (hrange : Range base span begun n) (h : Receives base span begun n a x)
    (hm : m ∈ begun) (hi : i < m.len) (hlt : m.start + i < n)
    (hcum : x.window.cum < m.start + i) (hin : m.start + i ≤ x.window.cum + x.window.size)
    (hnew : m.start + i ∉ x.window.received) {r : ReassemblyQueue} (hr : r ∈ a.streams)
    (hsi : r.si = m.si) (hnear : m.unordered = false → m.seq < (x.boxes m.si).next + 2 ^ 15) :
    Receives base span begun n (a.pushPayloadDataToStream r (m.chunk i)).1 (x.arrive m i) ∧
      (a.pushPayloadDataToStream r (m.chunk i)).2 = true := by
  have hplan : m ∈ planOf r.si begun := mem_planOf.mpr ⟨hm, hsi.symm⟩
  have hfresh : m.start + i ∉ (x.boxes r.si).received := by
    rw [h.received, h.covers.accepted]
    rintro (⟨-, hle⟩ | hmem)
    · omega
    · exact hnew hmem
  have hp := hrange.planned r.si
  have hs := h.sound r.si
  obtain ⟨hpush, hok⟩ := Assembles.push hp hs hplan hi hfresh (h.assembles r hr) (hsi ▸ hnear)
  have hwindow := h.holds.push (hrange.window h.size h.covers.bounds) (tsn (m.start + i))
  rw [push_of_near h.holds.small hcum hin hnew] at hwindow
  have hresult : a.pushPayloadDataToStream r (m.chunk i) =
      ({ a with payloadQueue := (a.payloadQueue.push (tsn (m.start + i))).1 }.putStream
        (r.pushWithError (m.chunk i)).1, true) := by
    unfold Receiver.pushPayloadDataToStream
    rw [show r.pushWithError (m.chunk i) = ((r.pushWithError (m.chunk i)).1, .ok _) from
      Prod.ext rfl hok]
    rfl
  rw [hresult]
  refine ⟨?_, rfl⟩
  have hbox : (x.arrive m i).boxes m.si = (x.boxes m.si).arrive m i := if_pos rfl
  have hother {si : StreamId} (hne : si ≠ m.si) :
      (x.arrive m i).boxes si = (x.boxes si).note (m.start + i) := if_neg hne
  exact
    { holds := hwindow
      size := h.size
      covers := h.covers.arrive hlt
      received := by
        intro si
        by_cases hne : si = m.si
        · subst hne
          rw [hbox]
          show insert _ (x.boxes m.si).received = insert _ x.accepted
          rw [h.received]
        · rw [hother hne]
          show insert _ (x.boxes si).received = insert _ x.accepted
          rw [h.received]
      sound := by
        intro si
        by_cases hne : si = m.si
        · subst hne
          rw [hbox]
          exact Inbox.Sound.arrive (hsi ▸ hp) (hsi ▸ hs) (hsi ▸ hplan) hi (hsi ▸ hfresh) hnear
        · rw [hother hne]
          exact Inbox.Sound.note (hrange.other_stream hm hi hne) (h.sound si)
      assembles := by
        apply forall_putStream
        · rw [hpush.stream, hsi, hbox]
          rw [hsi] at hpush
          exact hpush
        · intro y hy hne
          rw [hpush.stream, hsi] at hne
          rw [hother hne]
          exact Assembles.note (hrange.other_stream hm hi hne) (h.assembles y hy)
      distinct := by
        rw [si_putStream]
        exact h.distinct
      closed := by
        intro si hclosed
        rw [si_putStream] at hclosed
        have hne : si ≠ m.si := fun heq => hclosed (heq ▸ hsi ▸ List.mem_map_of_mem hr)
        rw [hother hne]
        exact Inbox.Fresh.note (hrange.other_stream hm hi hne) (h.closed si hclosed) }

/-- The cumulative TSN moves on. -/
theorem Receives.handlePeerLastTSN (hrange : Range base span begun n)
    (h : Receives base span begun n a x) :
    ∃ w, Receives base span begun n a.handlePeerLastTSN { x with window := w } ∧
      x.window.cum ≤ w.cum := by
  obtain ⟨w, hw, hs, hc, hle⟩ :=
    popLoop_covers hrange (a.payloadQueue.chunkSize.toNat + 1) h.holds h.size h.covers
  exact ⟨w, { h with holds := hw, size := hs, covers := hc }, hle⟩

/-- The intake after a chunk: at most the chunk is new. -/
structure Intake.Next (x : Intake) (m : Sent) (i : Nat) (y : Intake) : Prop where
  cum : x.window.cum ≤ y.window.cum
  rest : (y.accepted = x.accepted ∧ y.boxes = x.boxes) ∨
    (y.accepted = (x.arrive m i).accepted ∧ y.boxes = (x.arrive m i).boxes)

/-- A new chunk in the window is taken, or there is no place for it. -/
theorem Receives.acceptPayloadData (hrange : Range base span begun n)
    (h : Receives base span begun n a x) (hm : m ∈ begun) (hi : i < m.len) (hlt : m.start + i < n)
    (hcum : x.window.cum < m.start + i) (hin : m.start + i ≤ x.window.cum + x.window.size)
    (hnew : m.start + i ∉ x.window.received)
    (hnear : m.unordered = false → m.seq < (x.boxes m.si).next + 2 ^ 15) :
    ∃ y, Receives base span begun n (a.acceptPayloadData (m.chunk i)).1 y ∧ x.Next m i y := by
  obtain ⟨hstream, -, hfound⟩ := h.getOrCreateStream m.si true
  have hsame : x.Next m i x := ⟨Nat.le_refl _, .inl ⟨rfl, rfl⟩⟩
  have hget : a.getOrCreateStream (m.chunk i).streamIdentifier true =
      ((a.getOrCreateStream m.si true).1, (a.getOrCreateStream m.si true).2) := rfl
  unfold Receiver.acceptPayloadData
  cases hopt : (a.getOrCreateStream m.si true).2 with
  | none =>
      rw [hget, hopt]
      exact ⟨x, hstream, hsame⟩
  | some r =>
      obtain ⟨hr, hsi⟩ := hfound r hopt
      have htaken : ∃ y, Receives base span begun n
          ((a.getOrCreateStream m.si true).1.pushPayloadDataToStream r (m.chunk i)).1 y ∧
            x.Next m i y :=
        ⟨_, (hstream.push hrange hm hi hlt hcum hin hnew hr hsi hnear).1,
          Nat.le_refl _, .inr ⟨rfl, rfl⟩⟩
      rw [hget, hopt]
      dsimp only
      split
      · exact htaken
      split
      · exact ⟨x, hstream, hsame⟩
      split
      · exact htaken
      · exact ⟨x, hstream, hsame⟩

/-- A chunk of a message that was begun is taken at most once. -/
theorem Receives.handleData (hrange : Range base span begun n)
    (h : Receives base span begun n a x) (hm : m ∈ begun) (hi : i < m.len) (hlt : m.start + i < n)
    (hnear : m.unordered = false → m.seq < (x.boxes m.si).next + 2 ^ 15) :
    ∃ y, Receives base span begun n (a.handleData (m.chunk i)) y ∧ x.Next m i y := by
  have hbase := hrange.low m hm
  have hbounds := h.covers.bounds
  have hhalf := hrange.near
  have hsame : x.Next m i x := ⟨Nat.le_refl _, .inl ⟨rfl, rfl⟩⟩
  have hmoved {a' : Receiver} {y : Intake} (h' : Receives base span begun n a' y)
      (hy : x.Next m i y) :
      ∃ z, Receives base span begun n a'.handlePeerLastTSN z ∧ x.Next m i z := by
    obtain ⟨w, hw, hle⟩ := h'.handlePeerLastTSN hrange
    exact ⟨_, hw, Nat.le_trans hy.cum hle, hy.rest⟩
  unfold Receiver.handleData
  split
  · exact ⟨x, h, hsame⟩
  split
  · rename_i hcan
    obtain ⟨hcum, hin, hnew⟩ := (canPush_of_near h.holds (by omega) (by omega)).mp hcan
    obtain ⟨y, hy, hnext⟩ := h.acceptPayloadData hrange hm hi hlt hcum hin hnew hnear
    split
    · rename_i a' heq
      rw [heq] at hy
      exact ⟨y, hy, hnext⟩
    · rename_i a' heq
      rw [heq] at hy
      exact hmoved hy hnext
  · exact hmoved h hsame

/-! ### The other steps -/

theorem Receives.createSelectiveAckChunk (h : Receives base span begun n a x) :
    Receives base span begun n a.createSelectiveAckChunk.1
      { x with window := { x.window with dups := [] } } :=
  { h with
    holds := { h.holds with dups := rfl }
    covers := ⟨h.covers.accepted, h.covers.bounds, h.covers.below⟩ }

theorem planOf_append (si : StreamId) (ms ms' : List Sent) :
    planOf si (ms ++ ms') = planOf si ms ++ planOf si ms' := List.filter_append ..

theorem Range.of_append {new : List Sent} (h : Range base span (begun ++ new) n) :
    Range base span begun n :=
  { apart := (List.pairwise_append.mp h.apart).1
    low := fun m hm => h.low m (List.mem_append_left _ hm)
    planned := fun si => (h.planned si).sublist (by
      rw [planOf_append]
      exact List.sublist_append_left _ _)
    near := h.near
    level := h.level }

/-- One more message is begun, and none of its chunks was accepted. -/
theorem Receives.later (h : Receives base span begun n a x)
    (hrange : Range base span (begun ++ [m]) n) (hnone : ∀ i < m.len, m.start + i ∉ x.accepted) :
    Receives base span (begun ++ [m]) n a x := by
  have hplan (si : StreamId) : planOf si (begun ++ [m]) =
      if m.si = si then planOf si begun ++ [m] else planOf si begun := by
    rw [planOf_append]
    by_cases hsi : m.si = si
    · simp [planOf, hsi]
    · simp [planOf, hsi]
  have hnone' (si : StreamId) : ∀ i < m.len, m.start + i ∉ (x.boxes si).received := by
    rw [h.received]
    exact hnone
  exact
    { h with
      sound := by
        intro si
        have hp := hrange.planned si
        rw [hplan] at hp ⊢
        split
        · rename_i heq
          rw [if_pos heq] at hp
          exact Inbox.Sound.later hp (hnone' si) (h.sound si)
        · exact h.sound si
      assembles := by
        intro r hr
        rw [hplan]
        split
        · exact Assembles.later (hnone' r.si) (h.assembles r hr)
        · exact h.assembles r hr
      closed := by
        intro si hclosed
        rw [hplan]
        split
        · exact Inbox.Fresh.later (hnone' si) (h.closed si hclosed)
        · exact h.closed si hclosed }

theorem Covers.lt {accepted : Finset Nat} {w : ReceiveWindow} (h : Covers base n accepted w)
    {j : Nat} (hj : j ∈ accepted) : j < n := by
  rcases (h.accepted j).mp hj with ⟨-, hle⟩ | hmem
  · exact Nat.lt_of_le_of_lt hle h.bounds.2
  · exact h.below j hmem

/-- Messages are begun from the number `n` on. -/
theorem Receives.grow (h : Receives base span begun n a x) {new : List Sent} {n' : Nat}
    (hrange : Range base span (begun ++ new) n') (hle : n ≤ n') (hnew : ∀ m ∈ new, n ≤ m.start) :
    Receives base span (begun ++ new) n' a x := by
  induction new using List.reverseRecOn with
  | nil =>
      rw [List.append_nil]
      have hbounds := h.covers.bounds
      exact
        { h with
          covers :=
            { accepted := h.covers.accepted
              bounds := ⟨hbounds.1, Nat.lt_of_lt_of_le hbounds.2 hle⟩
              below := fun j hj => Nat.lt_of_lt_of_le (h.covers.below j hj) hle } }
  | append_singleton new m ih =>
      rw [← List.append_assoc] at hrange ⊢
      apply (ih hrange.of_append fun m hm => hnew m (List.mem_append_left _ hm)).later hrange
      intro i _ hmem
      have hlt := h.covers.lt hmem
      have hstart := hnew m (by simp)
      omega

/-- Nothing has arrived. -/
def Intake.init (w : ReceiveWindow) : Intake :=
  { window := w, accepted := ∅, boxes := fun _ => Inbox.empty }

end Receiver

end PionBridge.Sctp
