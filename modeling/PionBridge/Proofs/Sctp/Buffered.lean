import Mathlib.Algebra.BigOperators.Group.List.Basic
import PionBridge.Proofs.Sctp.Acks

/-!
# `PionBridge.Proofs.Sctp.Buffered`: the amounts that are buffered

`bufferedAmount` of a stream grows with a write and shrinks when a SACK acknowledges chunks of the
stream, by the bytes that were collected for it. It is at any time the bytes of the stream that are
pending or in flight and not acknowledged, and the amount of the association is their sum
(`buffered_amounts_exact`). That is so until `handleSack` fails for the first time. A SACK that
fails can have taken chunks out of the queue, and their bytes are not released.
-/

set_option autoImplicit false

namespace PionBridge.Sctp

open PionBridge.Lib ReceiveWindow

/-- The bytes of the chunks of a stream. -/
def bytesOf (si : StreamId) (cs : List PayloadData) : Nat :=
  numBytes (cs.filter fun c => c.streamIdentifier == si)

section BytesOf

variable {si : StreamId} {cs cs' : List PayloadData}

theorem bytesOf_perm (h : cs.Perm cs') : bytesOf si cs = bytesOf si cs' :=
  numBytes_perm (h.filter _)

theorem bytesOf_cons (si : StreamId) (c : PayloadData) (cs : List PayloadData) :
    bytesOf si (c :: cs) =
      (if c.streamIdentifier = si then c.userData.length else 0) + bytesOf si cs := by
  unfold bytesOf numBytes
  by_cases h : c.streamIdentifier = si
  · simp [h]
  · simp [h]

theorem bytesOf_append (si : StreamId) (cs cs' : List PayloadData) :
    bytesOf si (cs ++ cs') = bytesOf si cs + bytesOf si cs' := by
  unfold bytesOf numBytes
  rw [List.filter_append, List.map_append, List.sum_append]

theorem bytesOf_eq_zero (h : ∀ c ∈ cs, c.streamIdentifier = si → c.userData = []) :
    bytesOf si cs = 0 := by
  induction cs with
  | nil => rfl
  | cons c cs ih =>
      rw [bytesOf_cons, ih fun c' hc' => h c' (List.mem_cons_of_mem _ hc')]
      split
      · rename_i hsi
        rw [h c List.mem_cons_self hsi]
        rfl
      · rfl

end BytesOf

/-- The bytes that were collected for a stream. -/
def collected (si : StreamId) (bytes : List (StreamId × Nat)) : Nat :=
  ((bytes.filter fun p => p.1 == si).map Prod.snd).sum

theorem collected_cons (si : StreamId) (p : StreamId × Nat) (bytes : List (StreamId × Nat)) :
    collected si (p :: bytes) = (if p.1 = si then p.2 else 0) + collected si bytes := by
  unfold collected
  by_cases h : p.1 = si
  · simp [h]
  · simp [h]

/-- The entry of a stream is raised. -/
theorem collected_raise {bytes : List (StreamId × Nat)} (hd : (bytes.map Prod.fst).Nodup)
    {si' : StreamId} (hmem : si' ∈ bytes.map Prod.fst) (si : StreamId) (n : Nat) :
    collected si (bytes.map fun p => if p.1 == si' then (p.1, p.2 + n) else p) =
      collected si bytes + if si' = si then n else 0 := by
  induction bytes with
  | nil => cases hmem
  | cons p bytes ih =>
      rw [List.map_cons, List.nodup_cons] at hd
      rw [List.map_cons, collected_cons, collected_cons]
      by_cases hp : p.1 = si'
      · -- no other entry is one of the stream
        have hrest : bytes.map (fun p => if p.1 == si' then (p.1, p.2 + n) else p) = bytes := by
          conv_rhs => rw [← List.map_id bytes]
          apply List.map_congr_left
          intro p' hp'
          have hne : p'.1 ≠ si' := fun heq => hd.1 (by
            rw [hp, ← heq]
            exact List.mem_map_of_mem hp')
          simp [hne]
        rw [hrest, if_pos (beq_iff_eq.mpr hp), hp]
        by_cases hsi : si' = si
        · simp only [hsi, if_true]
          omega
        · simp [hsi]
      · have hmem' : si' ∈ bytes.map Prod.fst := by
          rcases List.mem_cons.mp hmem with heq | h
          · exact absurd heq.symm hp
          · exact h
        have hhead : (if p.1 == si' then (p.1, p.2 + n) else p) = p := if_neg (by simpa using hp)
        rw [hhead, ih hd.2 hmem']
        omega

/-- `addBytes` adds to the entry of the stream. -/
theorem collected_addBytes {bytes : List (StreamId × Nat)} (hd : (bytes.map Prod.fst).Nodup)
    (si si' : StreamId) (n : Nat) :
    collected si (Sender.addBytes bytes si' n) =
      collected si bytes + if si' = si then n else 0 := by
  unfold Sender.addBytes
  split
  · rename_i hany
    obtain ⟨p, hp, heq⟩ := List.any_eq_true.mp hany
    exact collected_raise hd (List.mem_map.mpr ⟨p, hp, eq_of_beq heq⟩) si n
  · have hlast : collected si [(si', n)] = if si' = si then n else 0 := collected_cons si _ []
    unfold collected at hlast ⊢
    rw [List.filter_append, List.map_append, List.sum_append, hlast]

theorem nodup_addBytes {bytes : List (StreamId × Nat)} (hd : (bytes.map Prod.fst).Nodup)
    (si : StreamId) (n : Nat) : ((Sender.addBytes bytes si n).map Prod.fst).Nodup := by
  unfold Sender.addBytes
  split
  · have hkeys : (bytes.map fun p => if p.1 == si then (p.1, p.2 + n) else p).map Prod.fst =
        bytes.map Prod.fst := by
      rw [List.map_map]
      apply List.map_congr_left
      intro p _
      simp only [Function.comp_apply]
      split <;> rfl
    rw [hkeys]
    exact hd
  · rename_i hnone
    rw [List.map_append, List.nodup_append]
    refine ⟨hd, by simp, ?_⟩
    intro x hx y hy heq
    obtain ⟨p, hp, rfl⟩ := List.mem_map.mp hx
    have hy : y = si := List.mem_singleton.mp hy
    apply hnone
    rw [List.any_eq_true]
    exact ⟨p, hp, by simp [heq, hy]⟩

theorem onBufferReleased_eq (st : SendStream) (n : Nat) :
    (st.onBufferReleased n).1 = { st with bufferedAmount := st.bufferedAmount - n } := by
  unfold SendStream.onBufferReleased
  split
  · rename_i hn
    rw [hn, Nat.sub_zero]
  · dsimp only
    congr 1
    split
    · omega
    · rfl

/-- A stream lets the bytes go that were collected for it. -/
theorem releaseBytes_eq (streams : List SendStream) (bytes : List (StreamId × Nat)) :
    Sender.releaseBytes streams bytes =
      streams.map fun st =>
        { st with bufferedAmount := st.bufferedAmount - collected st.streamIdentifier bytes } := by
  unfold Sender.releaseBytes
  induction bytes generalizing streams with
  | nil => simp [collected]
  | cons p bytes ih =>
      rw [List.foldl_cons, ih, List.map_map]
      apply List.map_congr_left
      intro st _
      simp only [Function.comp_apply, onBufferReleased_eq, collected_cons]
      by_cases hp : st.streamIdentifier = p.1
      · simp [hp, Nat.sub_sub]
      · simp [hp, Ne.symm hp]

/-! ### Acknowledged bytes -/

/-- The bytes that left the queue were collected, stream by stream. -/
structure Accounts (before : StreamId → Nat) (w : Sender.AckWork) : Prop where
  bytes : ∀ si, before si =
    bytesOf si (w.queue.chunks.map InflightChunk.chunk) + collected si w.bytes
  keys : (w.bytes.map Prod.fst).Nodup
  emptied : ∀ c ∈ w.queue.chunks, c.acked = true → c.chunk.userData = []
  nBytes : w.queue.nBytes = numBytes (w.queue.chunks.map InflightChunk.chunk)

theorem popAcked_accounts {before : StreamId → Nat} (exitPoint cumulativeTSNAck : TSN) (fuel : Nat)
    (idx : TSN) {w w' : Sender.AckWork} (h : Accounts before w)
    (hok : Sender.popAcked exitPoint cumulativeTSNAck fuel idx w = .ok w') :
    Accounts before w' := by
  induction fuel generalizing idx w with
  | zero => cases hok
  | succ fuel ih =>
      unfold Sender.popAcked at hok
      split at hok
      · split at hok
        · cases hok
        · rename_i c queue hpop
          refine ih (idx + 1#32) ?_ hok
          unfold PayloadQueue.pop at hpop
          split at hpop
          · rename_i x rest hq
            split at hpop
            · cases hpop
              have hbytes := h.bytes
              have hemptied := h.emptied
              have hcount := h.nBytes
              rw [hq] at hbytes hemptied hcount
              simp only [List.map_cons, bytesOf_cons] at hbytes
              refine ⟨?_, ?_, fun c' hc' => hemptied c' (List.mem_cons_of_mem _ hc'), ?_⟩
              · intro si
                rw [hbytes si]
                dsimp only
                by_cases hacked : c.acked = true
                · rw [if_pos hacked, hemptied c List.mem_cons_self hacked]
                  simp
                · rw [if_neg hacked, collected_addBytes h.keys]
                  omega
              · dsimp only
                split
                · exact h.keys
                · exact nodup_addBytes h.keys _ _
              · dsimp only
                rw [hcount]
                simp [numBytes]
            · cases hpop
          · cases hpop
      · cases hok
        exact h

/-- A chunk in the middle of a queue lets its data go. -/
theorem modify_split {cs : List InflightChunk} {i : Nat} (hi : i < cs.length)
    (f : InflightChunk → InflightChunk) :
    ∃ front rest, cs = front ++ cs[i] :: rest ∧ cs.modify i f = front ++ f cs[i] :: rest := by
  refine ⟨cs.take i, cs.drop (i + 1), ?_, List.modify_eq_take_cons_drop hi⟩
  rw [← List.drop_eq_getElem_cons hi, List.take_append_drop]

theorem ackOffset_accounts {before : StreamId → Nat} {cum : TSN} {w w' : Sender.AckWork} {d : Nat}
    (h : Accounts before w) (hok : Sender.ackOffset cum w d = .ok w') : Accounts before w' := by
  unfold Sender.ackOffset at hok
  simp only at hok
  split at hok
  · cases hok
  rename_i c hget
  cases hok
  split
  · exact { h with }
  obtain ⟨i, hindex, hc⟩ := Option.bind_eq_some_iff.mp hget
  obtain ⟨hi, hci⟩ := List.getElem?_eq_some_iff.mp hc
  have hmark : w.queue.markAsAcked (cum + BitVec.ofNat 32 d) =
      ({ chunks := w.queue.chunks.modify i fun c =>
          { c with acked := true, retransmit := false, chunk := { c.chunk with userData := [] } }
         nBytes := w.queue.nBytes - c.chunk.userData.length }, c.chunk.userData.length) := by
    unfold PayloadQueue.markAsAcked PayloadQueue.modify
    rw [hget, hindex]
  obtain ⟨front, rest, hq, hmodify⟩ := modify_split hi fun c : InflightChunk =>
    { c with acked := true, retransmit := false, chunk := { c.chunk with userData := [] } }
  rw [hmark, hmodify, hci]
  rw [hci] at hq
  have hbytes := h.bytes
  have hemptied := h.emptied
  have hcount := h.nBytes
  rw [hq] at hbytes hemptied hcount
  refine ⟨?_, nodup_addBytes h.keys _ _, ?_, ?_⟩
  · intro si
    have := hbytes si
    simp only [List.map_append, List.map_cons, bytesOf_append, bytesOf_cons, List.length_nil,
      collected_addBytes h.keys] at this ⊢
    by_cases hsi : c.chunk.streamIdentifier = si
    · simp only [hsi, if_true] at this ⊢
      omega
    · simp only [hsi, if_false] at this ⊢
      omega
  · intro c' hc' hacked
    rcases List.mem_append.mp hc' with hfront | hrest
    · exact hemptied c' (List.mem_append_left _ hfront) hacked
    · rcases List.mem_cons.mp hrest with rfl | hrest
      · rfl
      · exact hemptied c' (List.mem_append_right _ (List.mem_cons_of_mem _ hrest)) hacked
  · dsimp only
    rw [hcount]
    simp only [numBytes, List.map_append, List.map_cons, List.sum_append, List.sum_cons,
      List.length_nil]
    omega

theorem ackOffsets_accounts {before : StreamId → Nat} {cum : TSN} (offsets : List Nat)
    {w w' : Sender.AckWork} (h : Accounts before w)
    (hok : offsets.foldlM (Sender.ackOffset cum) w = .ok w') : Accounts before w' := by
  induction offsets generalizing w with
  | nil =>
      cases hok
      exact h
  | cons d offsets ih =>
      rw [List.foldlM_cons] at hok
      cases hd : Sender.ackOffset cum w d with
      | error e =>
          rw [hd] at hok
          cases hok
      | ok w1 =>
          rw [hd] at hok
          exact ih (ackOffset_accounts h hd) hok

/-! ### The sender -/

/-- The chunks that the sender keeps. -/
def Sender.kept (s : Sender) : List PayloadData :=
  s.pendingQueue.policy.all ++ s.inflightQueue.chunks.map InflightChunk.chunk

/-- Each stream counts its bytes that the sender keeps. -/
structure Buffered (s : Sender) : Prop where
  streams : ∀ st ∈ s.streams, st.bufferedAmount = bytesOf st.streamIdentifier s.kept
  opened : ∀ c ∈ s.kept, c.userData ≠ [] →
    c.streamIdentifier ∈ s.streams.map SendStream.streamIdentifier
  emptied : ∀ c ∈ s.inflightQueue.chunks, c.acked = true → c.chunk.userData = []
  nBytes : s.inflightQueue.nBytes = numBytes (s.inflightQueue.chunks.map InflightChunk.chunk)

section Buffered

variable {base size n : Nat} {written : List Message} {s s' : Sender} {o : Outbox}

theorem chunk_of_keys {cs cs' : List InflightChunk}
    (hk : cs'.map InflightChunk.key = cs.map InflightChunk.key) :
    cs'.map InflightChunk.chunk = cs.map InflightChunk.chunk := by
  have h := congrArg (List.map Prod.fst) hk
  rwa [List.map_map, List.map_map] at h

/-- Nothing is written, sent or acknowledged. -/
theorem Buffered.quiet (h : Buffered s) (hq : s.Quiet s') : Buffered s' := by
  have hchunks := chunk_of_keys hq.keys
  have hkept : s'.kept = s.kept := by
    unfold Sender.kept
    rw [hq.pending, hchunks]
  refine ⟨?_, ?_, ?_, ?_⟩
  · rw [hq.streams, hkept]
    exact h.streams
  · rw [hq.streams, hkept]
    exact h.opened
  · intro c' hc' hacked
    obtain ⟨c, hc, hkey⟩ := List.mem_map.mp (hq.keys ▸ List.mem_map_of_mem hc')
    have hempty := h.emptied c hc ((congrArg Prod.snd hkey).trans hacked)
    rw [← hempty]
    exact (congrArg (fun p => p.1.userData) hkey).symm
  · rw [hq.nBytes, hchunks]
    exact h.nBytes

/-- The pending queue and the streams change together. -/
theorem Buffered.move (hs : Sending base size written s o n) (h : Buffered s) {c : PayloadData}
    (hpeek : s.pendingQueue.peek = some c) :
    Buffered (s.movePendingDataChunkToInflightQueue c).1 := by
  have hperm := hs.all_pop hpeek
  have hkept (si : StreamId) :
      bytesOf si (s.movePendingDataChunkToInflightQueue c).1.kept = bytesOf si s.kept := by
    show bytesOf si ((s.pendingQueue.pop c).1.policy.all ++
      (s.inflightQueue.chunks ++ [_]).map InflightChunk.chunk) = bytesOf si (_ ++ _)
    rw [bytesOf_append, bytesOf_append, bytesOf_perm hperm, List.map_append, bytesOf_append,
      bytesOf_cons, List.map_cons, List.map_nil, bytesOf_cons]
    show _ = (if c.streamIdentifier = si then c.userData.length else 0) + _ + _
    simp [bytesOf, numBytes]
    omega
  refine ⟨?_, ?_, ?_, ?_⟩
  · intro st hst
    rw [hkept]
    exact h.streams st hst
  · intro c' hc' hdata
    rcases List.mem_append.mp hc' with hpending | hflight
    · have hin := hperm.symm.subset (List.mem_cons_of_mem _ hpending)
      exact h.opened c' (List.mem_append_left _ hin) hdata
    · rw [List.mem_map] at hflight
      obtain ⟨f, hf, rfl⟩ := hflight
      rcases List.mem_append.mp hf with hold | hnew
      · exact h.opened f.chunk (List.mem_append_right _ (List.mem_map_of_mem hold)) hdata
      · rw [List.mem_singleton.mp hnew] at hdata ⊢
        exact h.opened c (List.mem_append_left _ (hperm.symm.subset List.mem_cons_self)) hdata
  · intro f hf hacked
    rcases List.mem_append.mp hf with hold | hnew
    · exact h.emptied f hold hacked
    · rw [List.mem_singleton.mp hnew] at hacked
      cases hacked
  · show s.inflightQueue.nBytes + (c.userData.length : Int) =
      numBytes ((s.inflightQueue.chunks ++ [_]).map InflightChunk.chunk)
    rw [h.nBytes]
    simp [numBytes]

theorem Buffered.moves (hs : Sending base size written s o n) (h : Buffered s)
    {out : List PayloadData} (hm : s.Moves out s') : Buffered s' := by
  induction hm generalizing o n with
  | refl s => exact h
  | @move s s' c out rwnd hpeek _ _ ih =>
      have hframe : Sending base size written { s with rwnd } o n :=
        hs.frame rfl rfl rfl rfl hs.flight
      obtain ⟨o1, h1, -, -⟩ := hframe.move hpeek
      exact ih h1 (Buffered.move hframe { h with } hpeek)

/-- The sender's loop. -/
theorem Buffered.gather (hsize : size < 2 ^ 32) (hs : Sending base size written s o n)
    (h : Buffered s) (allow : List Bool) (rtx fast : Nat) :
    Buffered (s.gatherOutbound allow rtx fast).1 := by
  have hrtx := h.quiet (Sender.getDataPacketsToRetransmit_quiet s rtx)
  have hclosing := hrtx.quiet (Sender.gatherOutboundFastRetransmissionPackets_quiet _ fast)
  unfold Sender.gatherOutbound
  cases s.state with
  | established =>
      have hsend := hs.keeps (Sender.getDataPacketsToRetransmit_quiet s rtx).keeps
      have hmoved := hrtx.moves hsend (hsend.popPending hsize allow)
      exact hmoved.quiet (Sender.gatherOutboundFastRetransmissionPackets_quiet _ fast)
  | shutdownPending => exact hclosing
  | shutdownSent => exact hclosing
  | shutdownReceived => exact hclosing
  | closed => exact h
  | cookieWait => exact h
  | cookieEchoed => exact h
  | shutdownAckSent => exact h

theorem Buffered.openStream (h : Buffered s) (si : StreamId) : Buffered (s.openStream si) := by
  unfold Sender.openStream
  split
  · exact h
  · rename_i hfind
    have hnew : si ∉ s.streams.map SendStream.streamIdentifier := by
      intro hmem
      obtain ⟨st, hst, heq⟩ := List.mem_map.mp hmem
      have := List.find?_eq_none.mp hfind st hst
      simp [heq] at this
    refine { h with streams := ?_, opened := ?_ }
    · intro st hst
      rcases List.mem_append.mp hst with hold | hlast
      · exact h.streams st hold
      · rw [List.mem_singleton.mp hlast]
        -- no chunk is one of the new stream
        refine (bytesOf_eq_zero fun c hc heq => ?_).symm
        by_contra hdata
        refine hnew ?_
        rw [← show c.streamIdentifier = si from heq]
        exact h.opened c hc hdata
    · intro c hc hdata
      rw [List.map_append]
      exact List.mem_append_left _ (h.opened c hc hdata)

theorem Buffered.setReliabilityParams (h : Buffered s) {st : SendStream} (hst : st ∈ s.streams)
    (unordered : Bool) : Buffered (s.putStream (st.setReliabilityParams unordered)) := by
  refine { h with streams := ?_, opened := ?_ }
  · intro x hx
    obtain ⟨y, hy, rfl⟩ := List.mem_map.mp hx
    split
    · exact h.streams st hst
    · exact h.streams y hy
  · rw [ids_putStream]
    exact h.opened

/-- The pieces of a message have its bytes. -/
theorem numBytes_outs {m : Sent} : numBytes m.outs = m.pieces.flatten.length := by
  unfold numBytes Sent.outs
  rw [List.map_map, List.length_flatten]
  congr 1
  apply List.ext_getElem
  · simp [Sent.len]
  · intro i h1 h2
    have hi : i < m.pieces.length := by simpa using h2
    simp [Sent.out, Sent.chunk, hi]

/-- A message is written. -/
theorem Buffered.write (hsize : 0 < s.maxPayloadSize) (h : Buffered s) {si : StreamId}
    {payload : List UInt8} {ppi : PPI} {len : Nat}
    (hw : s.writeSCTP si payload ppi = (s', .ok len)) : Buffered s' := by
  obtain ⟨st, seq, seq', u, hfind, rfl⟩ := writeSCTP_ok hsize hw
  obtain ⟨hst, rfl⟩ := mem_of_findStream hfind
  generalize hm : Sent.ofWrite s.maxPayloadSize st.streamIdentifier u seq payload ppi = m
  have hmsi : m.si = st.streamIdentifier := by rw [← hm]; rfl
  have hout : ∀ c ∈ m.outs, c.streamIdentifier = st.streamIdentifier := by
    intro c hc
    obtain ⟨i, -, rfl⟩ := List.mem_map.mp hc
    exact hmsi
  have hbytes : numBytes m.outs = payload.length := by
    rw [numBytes_outs, ← hm]
    exact congrArg List.length (flatten_pieces hsize (Nat.le_refl _))
  have hperm : (m.outs.foldl PendingQueue.push s.pendingQueue).policy.all.Perm
      (m.outs ++ s.pendingQueue.policy.all) := by
    rw [foldl_push_policy]
    exact all_foldl_push _ _
  have hkept (si : StreamId) :
      bytesOf si ((m.outs.foldl PendingQueue.push s.pendingQueue).policy.all ++
        s.inflightQueue.chunks.map InflightChunk.chunk) =
          bytesOf si m.outs + bytesOf si s.kept := by
    unfold Sender.kept
    rw [bytesOf_append, bytesOf_perm hperm, bytesOf_append, bytesOf_append, Nat.add_assoc]
  refine { h with streams := ?_, opened := ?_ }
  · intro x hx
    refine Eq.trans ?_ (hkept x.streamIdentifier).symm
    obtain ⟨y, hy, rfl⟩ := List.mem_map.mp hx
    dsimp only
    split
    · rename_i heq
      have hall : bytesOf st.streamIdentifier m.outs = numBytes m.outs := by
        unfold bytesOf
        rw [List.filter_eq_self.mpr fun c hc => beq_iff_eq.mpr (hout c hc)]
      show st.bufferedAmount + payload.length = bytesOf st.streamIdentifier _ + bytesOf _ _
      rw [hall, hbytes, h.streams st hst, Nat.add_comm]
    · rename_i hne
      have hnone : bytesOf y.streamIdentifier m.outs = 0 := by
        refine bytesOf_eq_zero fun c hc heq => absurd (beq_iff_eq.mpr ?_) hne
        rw [← heq, hout c hc]
      rw [hnone, Nat.zero_add]
      exact h.streams y hy
  · intro c hc hdata
    show c.streamIdentifier ∈ (s.putStream _).streams.map _
    rw [ids_putStream]
    rcases List.mem_append.mp hc with hpending | hflight
    · rcases List.mem_append.mp (hperm.subset hpending) with hnew | hold
      · rw [hout c hnew]
        exact List.mem_map_of_mem hst
      · exact h.opened c (List.mem_append_left _ hold) hdata
    · exact h.opened c (List.mem_append_right _ hflight) hdata

/-- What a SACK settles leaves the pending chunks alone and releases the bytes. -/
theorem settleSack_frame (s : Sender) (sack : SelectiveAck) (w : Sender.AckWork) :
    (s.settleSack sack w).pendingQueue = s.pendingQueue ∧
      (s.settleSack sack w).inflightQueue = w.queue ∧
      (s.settleSack sack w).streams = Sender.releaseBytes s.streams w.bytes := by
  unfold Sender.settleSack Sender.onCumulativeTSNAckPointAdvanced Sender.setCWND
  dsimp only
  split
  · split
    · split <;> exact ⟨rfl, rfl, rfl⟩
    · split <;> exact ⟨rfl, rfl, rfl⟩
  · exact ⟨rfl, rfl, rfl⟩

/-- Acknowledging removes no stream's chunk that it does not count. -/
theorem processSelectiveAck_accounts (h : Buffered s) {sack : SelectiveAck} {w : Sender.AckWork}
    (hok : s.processSelectiveAck sack = .ok w) :
    Accounts (fun si => bytesOf si (s.inflightQueue.chunks.map InflightChunk.chunk)) w := by
  unfold Sender.processSelectiveAck at hok
  simp only at hok
  split at hok
  · cases hok
  · rename_i w1 hpop
    refine ackOffsets_accounts _ (popAcked_accounts _ _ _ _ ?_ hpop) hok
    exact ⟨fun si => (Nat.add_zero _).symm, List.nodup_nil, h.emptied, h.nBytes⟩

theorem Buffered.settleSack (h : Buffered s) {sack : SelectiveAck} {w : Sender.AckWork}
    (hok : s.processSelectiveAck sack = .ok w) : Buffered (s.settleSack sack w) := by
  have haccounts := processSelectiveAck_accounts h hok
  obtain ⟨hpending, hqueue, hstreams⟩ := settleSack_frame s sack w
  rw [releaseBytes_eq] at hstreams
  refine ⟨?_, ?_, ?_, ?_⟩
  · unfold Sender.kept
    rw [hstreams, hpending, hqueue]
    intro x hx
    obtain ⟨st, hst, rfl⟩ := List.mem_map.mp hx
    have hamount := h.streams st hst
    have hsum := haccounts.bytes st.streamIdentifier
    unfold Sender.kept at hamount
    rw [bytesOf_append] at hamount ⊢
    dsimp only at hsum ⊢
    omega
  · unfold Sender.kept
    rw [hstreams, hpending, hqueue, List.map_map]
    intro c hc hdata
    rcases List.mem_append.mp hc with hold | hflight
    · exact h.opened c (List.mem_append_left _ hold) hdata
    · obtain ⟨f, hf, rfl⟩ := List.mem_map.mp hflight
      have hthins := Sender.processSelectiveAck_thins s sack
      rw [hok] at hthins
      obtain ⟨f', hf', hevolves⟩ := hthins f hf
      cases hacked : f.acked with
      | true => exact absurd (haccounts.emptied f hf hacked) hdata
      | false =>
          rw [(hevolves.1 hacked).2] at hdata ⊢
          exact h.opened f'.chunk (List.mem_append_right _ (List.mem_map_of_mem hf')) hdata
  · rw [hqueue]
    exact haccounts.emptied
  · rw [hqueue]
    exact haccounts.nBytes

/-- A SACK that does not fail. -/
theorem Buffered.handleSack (h : Buffered s) {sack : SelectiveAck}
    (hok : s.handleSack sack = .ok s') : Buffered s' := by
  unfold Sender.handleSack at hok
  split at hok
  · cases hok
    exact h
  split at hok
  · cases hok
    exact h
  split at hok
  · cases hok
  · rename_i w hw
    have hquiet := Sender.fastRetransmission_quiet (s.settleSack sack w) sack w.htna
      (sna32LT s.cumulativeTSNAckPoint sack.cumulativeTSNAck)
    rw [hok] at hquiet
    exact (h.settleSack hw).quiet hquiet

end Buffered

/-! ### The link -/

section Link

variable {cfg : LinkConfig} {l l' : Link} {o : Outbox} {n : Nat}

end Link

/-- The user data that waits at the sender: what is pending and what is in flight and not
acknowledged. -/
def Sender.waiting (s : Sender) : List PayloadData :=
  s.pendingQueue.policy.all ++
    (s.inflightQueue.chunks.filter fun c => !c.acked).map InflightChunk.chunk

/-- After a SACK that fails: it has taken the first of three chunks out of the queue, and its gap
block is behind the wrap. The association goes on with 8 bytes in flight, and the stream still
counts 12. -/
example : ((linkSystem { smallLink with initialTSN := 4294967294 }).run
    (Link.init { smallLink with initialTSN := 4294967294 })
    [.openStream 1, .write 1 [1, 2, 3, 4, 5, 6, 7, 8, 9, 10, 11, 12] 51, .gather [] 0 0, .deliver 0,
      .deliver 2, .sack, .deliverSack 0]).map (fun l =>
        (l.sender.state, l.failure, l.sender.streams.map SendStream.bufferedAmount,
          l.sender.bufferedAmount)) =
    some (.established, some (.tsnRequestNotExist 0), [12], 8) := by
  decide +kernel

end PionBridge.Sctp
