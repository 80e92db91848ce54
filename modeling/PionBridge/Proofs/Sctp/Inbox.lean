import PionBridge.Proofs.Sctp.Reassembly

/-!
# `PionBridge.Proofs.Sctp.Inbox`: the steps of a stream's inbox

Pushing a chunk and reading a message change the reassembly queue as they change the inbox it stands
for (`Assembles.push`, `Assembles.read`). A new stream stands for an inbox in which nothing has
arrived (`Inbox.Fresh.assembles`). Chunks of other streams (`Assembles.note`) and messages that are
begun later (`Assembles.later`) change nothing. What the inbox says about reading holds all the
while (`Inbox.Sound`): the ordered messages are read in the order of their places, none missing, and
each unordered message is read at most once.
-/

set_option autoImplicit false

namespace PionBridge.Sctp

open PionBridge.Lib ReceiveWindow

variable {si : StreamId} {plan : List Sent} {b : Inbox} {r : ReassemblyQueue} {m : Sent} {i : Nat}

theorem Sent.complete_mono {received received' : Finset Nat} (hsub : received ⊆ received')
    (h : m.complete received = true) : m.complete received' = true := by
  rw [Sent.complete_iff] at h ⊢
  exact fun j hj => hsub (h j hj)

/-- A message that lacks a piece is not complete. -/
theorem Sent.not_complete {received : Finset Nat} (hi : i < m.len)
    (hnew : m.start + i ∉ received) : m.complete received = false := by
  rw [← Bool.not_eq_true, Sent.complete_iff]
  exact fun h => hnew (h i hi)

/-! ### An arrival -/

section Arrive

variable (hp : Planned si plan) (hs : b.Sound plan) (hm : m ∈ plan) (hi : i < m.len)
  (hnew : m.start + i ∉ b.received)

include hs hi hnew in
theorem Inbox.Sound.not_read : m ∉ b.read := by
  intro hmem
  have h := hs.read_complete m hmem
  rw [Sent.not_complete hi hnew] at h
  cases h

include hs hi hnew in
theorem Inbox.Sound.not_queued : m ∉ b.queued := by
  intro hmem
  have h := hs.queued_complete m hmem
  rw [Sent.not_complete hi hnew] at h
  cases h

include hs hm hi hnew in
/-- An ordered message that lacks a piece has not been read. -/
theorem Inbox.Sound.next_le (ho : m.unordered = false) : b.next ≤ m.seq := by
  have hread := hs.not_read hi hnew
  rw [hs.read_ordered m hm ho] at hread
  omega

include hp hm hi in
/-- The other messages of the stream are as before. -/
theorem arrive_other {x : Sent} (hx : x ∈ plan) (hne : x ≠ m) :
    x.arrived (b.arrive m i).received = x.arrived b.received ∧
      x.complete (b.arrive m i).received = x.complete b.received ∧
      x.set (b.arrive m i).received = x.set b.received := by
  have hother := hp.ne_of_other hm hx hne hi
  exact ⟨Sent.arrived_insert_of_ne hother, Sent.complete_insert_of_ne hother,
    Sent.set_insert_of_ne hother⟩

include hp hm hi in
theorem waiting_other {x : Sent} (hx : x ∈ plan) (hne : x ≠ m) :
    (b.arrive m i).waiting x = b.waiting x := by
  unfold Inbox.waiting
  rw [(arrive_other hp hm hi hx hne).1]
  rfl

include hp hm hi in
theorem lacking_other {x : Sent} (hx : x ∈ plan) (hne : x ≠ m) :
    (b.arrive m i).lacking x = b.lacking x := by
  unfold Inbox.lacking
  rw [(arrive_other hp hm hi hx hne).2.1]

include hp hm hi in
/-- The messages that wait for their turn are the same if the piece makes no difference for `m`. -/
theorem filter_waiting_arrive (h : (b.arrive m i).waiting m = b.waiting m) :
    plan.filter (b.arrive m i).waiting = plan.filter b.waiting := by
  apply List.filter_congr
  intro x hx
  by_cases hxm : x = m
  · rw [hxm, h]
  · exact waiting_other hp hm hi hx hxm

include hp hm hi in
/-- The same for the unordered messages that lack pieces. -/
theorem filter_lacking_arrive (h : (b.arrive m i).lacking m = b.lacking m) :
    plan.filter (b.arrive m i).lacking = plan.filter b.lacking := by
  apply List.filter_congr
  intro x hx
  by_cases hxm : x = m
  · rw [hxm, h]
  · exact lacking_other hp hm hi hx hxm

theorem mem_queued_arrive {x : Sent} :
    x ∈ (b.arrive m i).queued ↔
      x ∈ b.queued ∨ x = m ∧ m.unordered = true ∧
        m.complete (insert (m.start + i) b.received) = true := by
  unfold Inbox.arrive
  simp only
  split
  · rename_i h
    rw [Bool.and_eq_true] at h
    simp [h.1, h.2]
  · rename_i h
    rw [Bool.and_eq_true] at h
    constructor
    · exact fun hx => .inl hx
    · rintro (hx | ⟨rfl, hu⟩)
      · exact hx
      · exact absurd hu h

include hp hs hm hi hnew in
/-- A piece arrives. -/
theorem Inbox.Sound.arrive (hnear : m.unordered = false → m.seq < b.next + 2 ^ 15) :
    (b.arrive m i).Sound plan := by
  have hsub : b.received ⊆ (b.arrive m i).received := Finset.subset_insert _ _
  exact
    { read_ordered := hs.read_ordered
      read_complete := fun x hx => Sent.complete_mono hsub (hs.read_complete x hx)
      queued_complete := by
        intro x hx
        rcases mem_queued_arrive.mp hx with hold | ⟨rfl, -, hc⟩
        · exact Sent.complete_mono hsub (hs.queued_complete x hold)
        · exact hc
      complete_unordered := by
        intro x hx hu
        rw [mem_queued_arrive]
        by_cases hxm : x = m
        · subst hxm
          have hread := hs.not_read hi hnew
          have hqueued := hs.not_queued hi hnew
          show x.complete (insert (x.start + i) b.received) = true ↔ (_ ∨ _) ∨ x ∈ b.read
          simp [hread, hqueued, hu]
        · rw [(arrive_other hp hm hi hx hxm).2.1, hs.complete_unordered x hx hu]
          simp [hxm, Inbox.arrive]
      mem_plan := by
        intro x hx
        rcases List.mem_append.mp hx with hq | hr
        · rcases mem_queued_arrive.mp hq with hold | ⟨rfl, -⟩
          · exact hs.mem_plan x (List.mem_append_left _ hold)
          · exact hm
        · exact hs.mem_plan x (List.mem_append_right _ hr)
      queued_unordered := by
        intro x hx
        rcases mem_queued_arrive.mp hx with hold | ⟨rfl, hu, -⟩
        · exact hs.queued_unordered x hold
        · exact hu
      nodup := by
        have hread := hs.not_read hi hnew
        have hqueued := hs.not_queued hi hnew
        show ((if _ then b.queued ++ [m] else b.queued) ++ b.read).Nodup
        split
        · have hperm : (b.queued ++ [m] ++ b.read).Perm (m :: (b.queued ++ b.read)) := by
            rw [List.append_assoc]
            exact List.perm_middle
          rw [hperm.nodup_iff, List.nodup_cons, List.mem_append]
          exact ⟨by simp [hread, hqueued], hs.nodup⟩
        · exact hs.nodup
      near := by
        intro x hx hw
        by_cases hxm : x = m
        · subst hxm
          apply hnear
          unfold Inbox.waiting at hw
          simp only [Bool.and_eq_true, Bool.not_eq_true'] at hw
          exact hw.1.1
        · rw [waiting_other hp hm hi hx hxm] at hw
          exact hs.near x hx hw
      in_order := hs.in_order }

/-! The bytes -/

include hi hnew in
theorem bytes_arrived_insert :
    ((m.arrived (insert (m.start + i) b.received)).map fun j => (m.pieces.getD j []).length).sum =
      ((m.arrived b.received).map fun j => (m.pieces.getD j []).length).sum +
        (m.pieces.getD i []).length := by
  rw [((Sent.arrived_insert_perm hi hnew).map _).sum_nat]
  simp

include hp hs hm hi hnew in
theorem held_arrive :
    (plan.map (b.arrive m i).held).sum = (plan.map b.held).sum + (m.pieces.getD i []).length := by
  have hread := hs.not_read hi hnew
  have hself : (b.arrive m i).held m = b.held m + (m.pieces.getD i []).length := by
    unfold Inbox.held
    show (if m ∈ b.read then 0 else _) = (if m ∈ b.read then 0 else _) + _
    rw [if_neg hread, if_neg hread]
    exact bytes_arrived_insert hi hnew
  have hsum := sum_map_update (f := b.held) (g := (b.arrive m i).held) hp.nodup hm
    (fun x hx hne => by
      unfold Inbox.held
      rw [(arrive_other hp hm hi hx hne).1]
      rfl)
  omega

/-! The ordered queue -/

theorem pushOrdered_found {chunk : PayloadData} {set : ChunkSet} {k : Nat}
    (hssn : sna16LT chunk.streamSequenceNumber r.nextSSN = false)
    (hfrag : chunk.isFragmented = true)
    (hfind : r.ordered.findIdx? (ReassemblyQueue.accepts chunk) = some k)
    (hget : r.ordered[k]? = some set) :
    r.pushOrdered chunk =
      ({ r with
          nBytes := r.nBytes + chunk.userData.length
          ordered := r.ordered.set k (set.push chunk).1 },
        (set.push chunk).2) := by
  unfold ReassemblyQueue.pushOrdered
  simp [hssn, hfrag, hfind, hget]

theorem pushOrdered_new {chunk : PayloadData}
    (hssn : sna16LT chunk.streamSequenceNumber r.nextSSN = false)
    (hfind : chunk.isFragmented = true →
      r.ordered.findIdx? (ReassemblyQueue.accepts chunk) = none) :
    r.pushOrdered chunk =
      ({ r with
          nBytes := r.nBytes + chunk.userData.length
          ordered := sortChunksBySSN
            (r.ordered ++
              [((newChunkSet chunk.streamSequenceNumber chunk.payloadType).push chunk).1]) },
        ((newChunkSet chunk.streamSequenceNumber chunk.payloadType).push chunk).2) := by
  unfold ReassemblyQueue.pushOrdered
  by_cases hfrag : chunk.isFragmented = true
  · simp [hssn, hfrag, hfind hfrag]
  · simp [hssn, hfrag]

theorem Inbox.waiting_iff {x : Sent} :
    b.waiting x = true ↔
      x.unordered = false ∧ b.next ≤ x.seq ∧ x.arrived b.received ≠ [] := by
  simp [Inbox.waiting, and_assoc]

include hs hm hi hnew in
/-- Two messages of the window have one stream sequence number only if they are one. -/
theorem Inbox.Sound.ssn_iff (ho : m.unordered = false) (hnear : m.seq < b.next + 2 ^ 15) {x : Sent}
    (hx : x ∈ plan) (hw : b.waiting x = true) : ssn x.seq = ssn m.seq ↔ x.seq = m.seq := by
  have hxnear := hs.near x hx hw
  have hxle := (Inbox.waiting_iff.mp hw).2.1
  have hmle := hs.next_le hm hi hnew ho
  exact ssn_inj (by omega) (by omega)

include hp hs hm hi hnew in
/-- The sets that take a chunk of `m`: the one of `m`. -/
theorem accepts_iff (ho : m.unordered = false) (hnear : m.seq < b.next + 2 ^ 15)
    (hfrag : 1 < m.len) {x : Sent} (hx : x ∈ plan) (hw : b.waiting x = true) :
    ReassemblyQueue.accepts (m.chunk i) (x.set b.received) = true ↔ x = m := by
  have hxo := (Inbox.waiting_iff.mp hw).1
  have hne := (Inbox.waiting_iff.mp hw).2.2
  have hssn := hs.ssn_iff hm hi hnew ho hnear hx hw
  unfold ReassemblyQueue.accepts
  rw [Bool.and_eq_true, beq_iff_eq]
  show ssn x.seq = ssn m.seq ∧ _ ↔ _
  rw [hssn]
  constructor
  · rintro ⟨hseq, -⟩
    exact hp.eq_of_seq hx hm hxo ho hseq
  · intro heq
    subst heq
    refine ⟨rfl, ?_⟩
    cases harr : x.arrived b.received with
    | nil => exact absurd harr hne
    | cons j js =>
        have hj : j < x.len := (Sent.mem_arrived.mp (harr ▸ List.mem_cons_self)).1
        show (((x.arrived b.received).map x.chunk).head?).any PayloadData.isFragmented = true
        rw [harr]
        simp [Sent.isFragmented_chunk hj, hfrag]

include hp hs hm hi hnew in
/-- The ordered queue with one more piece of an ordered message. -/
theorem ordered_push (h : Assembles si plan b r) (ho : m.unordered = false)
    (hnear : m.seq < b.next + 2 ^ 15) :
    r.pushOrdered (m.chunk i) =
      ({ r with
          nBytes := r.nBytes + (m.pieces.getD i []).length
          ordered := (plan.filter (b.arrive m i).waiting).map fun x =>
            x.set (b.arrive m i).received },
        m.complete (insert (m.start + i) b.received)) := by
  have hle := hs.next_le hm hi hnew ho
  have hpos := hp.pieces m hm
  have hlen := hp.len_le hm
  have hssn : sna16LT (m.chunk i).streamSequenceNumber r.nextSSN = false := by
    rw [h.nextSSN]
    show sna16LT (ssn m.seq) (ssn b.next) = false
    rw [sna16LT_ssn (by omega) (by omega), decide_eq_false_iff_not]
    omega
  have hmin : (b.arrive m i).waiting m = true := by
    rw [Inbox.waiting_iff]
    refine ⟨ho, hle, ?_⟩
    have hmem : i ∈ m.arrived (insert (m.start + i) b.received) :=
      Sent.mem_arrived.mpr ⟨hi, Finset.mem_insert_self _ _⟩
    exact List.ne_nil_of_mem hmem
  by_cases hold : b.waiting m = true
  · -- the message has a set already, so it has several pieces
    have hfrag : 1 < m.len := by
      obtain ⟨j, hj⟩ := List.exists_mem_of_ne_nil _ (Inbox.waiting_iff.mp hold).2.2
      obtain ⟨hjlt, hjmem⟩ := Sent.mem_arrived.mp hj
      have hne : j ≠ i := fun heq => hnew (heq ▸ hjmem)
      omega
    have hfilter := filter_waiting_arrive hp hm hi (hmin.trans hold.symm)
    obtain ⟨k, hfind, hget, hset⟩ := set_findIdx_map (l := plan.filter b.waiting)
      (f := fun x => x.set b.received) (g := fun x => x.set (b.arrive m i).received)
      (p := ReassemblyQueue.accepts (m.chunk i)) (m := m) (hp.nodup.filter _)
      (List.mem_filter.mpr ⟨hm, hold⟩)
      (fun x hx => accepts_iff hp hs hm hi hnew ho hnear hfrag (List.mem_filter.mp hx).1
        (List.mem_filter.mp hx).2)
      (fun x hx hne => (arrive_other hp hm hi (List.mem_filter.mp hx).1 hne).2.2)
    rw [← h.ordered] at hfind hget hset
    rw [pushOrdered_found hssn (by rw [Sent.isFragmented_chunk hi]; simpa using hfrag) hfind hget,
      Sent.push_set hpos hlen hi hnew, hfilter]
    exact Prod.ext (by rw [← hset]; rfl) rfl
  · -- the first piece that arrives
    have hnone : m.arrived b.received = [] := by
      by_contra hne
      exact hold (Inbox.waiting_iff.mpr ⟨ho, hle, hne⟩)
    have hfind : (m.chunk i).isFragmented = true →
        r.ordered.findIdx? (ReassemblyQueue.accepts (m.chunk i)) = none := by
      intro hfrag
      rw [Sent.isFragmented_chunk hi, decide_eq_true_eq] at hfrag
      rw [h.ordered, List.findIdx?_eq_none_iff]
      intro set hset
      obtain ⟨x, hx, rfl⟩ := List.mem_map.mp hset
      obtain ⟨hx, hw⟩ := List.mem_filter.mp hx
      rw [← Bool.not_eq_true, accepts_iff hp hs hm hi hnew ho hnear hfrag hx hw]
      intro heq
      exact hold (heq ▸ hw)
    have hempty : newChunkSet (m.chunk i).streamSequenceNumber (m.chunk i).payloadType =
        m.set b.received := by
      unfold newChunkSet Sent.set
      rw [hnone]
      rfl
    rw [pushOrdered_new hssn hfind, hempty, Sent.push_set hpos hlen hi hnew]
    refine Prod.ext ?_ rfl
    have hlist : r.ordered ++ [m.set (insert (m.start + i) b.received)] =
        (plan.filter b.waiting ++ [m]).map fun x => x.set (b.arrive m i).received := by
      rw [h.ordered, List.map_append]
      congr 1
      apply List.map_congr_left
      intro x hx
      obtain ⟨hx, hw⟩ := List.mem_filter.mp hx
      exact ((arrive_other hp hm hi hx fun heq => hold (heq ▸ hw)).2.2).symm
    have hsort : sortChunksBySSN (r.ordered ++ [m.set (insert (m.start + i) b.received)]) =
        (plan.filter (b.arrive m i).waiting).map fun x => x.set (b.arrive m i).received := by
      rw [hlist]
      have hnear' : ∀ x ∈ plan.filter b.waiting ++ [m],
          b.next ≤ x.seq ∧ x.seq < b.next + 2 ^ 15 := by
        intro x hx
        rcases List.mem_append.mp hx with hx | hx
        · obtain ⟨hx, hw⟩ := List.mem_filter.mp hx
          exact ⟨(Inbox.waiting_iff.mp hw).2.1, hs.near x hx hw⟩
        · rw [List.mem_singleton] at hx
          exact hx ▸ ⟨hle, hnear⟩
      apply insertionSort_map_eq (fun x : Sent => x.set (b.arrive m i).received) Sent.seq
      · apply filter_insert_perm hp.nodup hm (Bool.not_eq_true _ ▸ hold)
        intro x hx
        by_cases hxm : x = m
        · simp [hxm, hmin]
        · simp [hxm, waiting_other hp hm hi hx hxm]
      · -- the plan goes up in the places of its ordered messages
        refine ((List.Pairwise.and_mem.mp (hp.seqs.filter _))).imp ?_
        rintro x y ⟨hx, hy, hlt⟩
        exact hlt (Inbox.waiting_iff.mp (List.mem_filter.mp hx).2).1
          (Inbox.waiting_iff.mp (List.mem_filter.mp hy).2).1
      · intro x hx y hy
        have hxn := hnear' x hx
        have hyn := hnear' y hy
        show x.seq ≤ y.seq ↔ sna16LT (ssn y.seq) (ssn x.seq) = false
        rw [sna16LT_ssn (by omega) (by omega), decide_eq_false_iff_not]
        omega
    rw [← hsort]
    rfl

/-! The unordered chunks -/

/-- Some messages of the plan, in its order, seen from the first of them. -/
theorem Planned.ahead {ms : List Sent} (hp : Planned si plan) (hsub : ms.Sublist plan) :
    ∃ lo, Ahead lo lo ms := by
  have hapart := hp.apart.sublist hsub
  cases ms with
  | nil => exact ⟨0, List.Pairwise.nil, by simp, by simp, Nat.le_refl _, by simp⟩
  | cons x xs =>
      refine ⟨x.start, hapart, fun y hy => hp.pieces y (hsub.subset hy), ?_, Nat.le_refl _,
        fun y hy => hp.near y (hsub.subset hy) x (hsub.subset (by simp))⟩
      intro y hy
      rcases List.mem_cons.mp hy with heq | hy
      · exact heq ▸ Nat.le_refl _
      · have hle := (List.pairwise_cons.mp hapart).1 y hy
        unfold Sent.stop at hle
        omega

theorem nodup_places {ms : List Sent} (hapart : ms.Pairwise fun m m' => m.stop ≤ m'.start)
    (received : Finset Nat) : (places ms received).Nodup := by
  rw [List.nodup_iff_pairwise_ne]
  refine (sorted_places hapart received).imp ?_
  rintro p p' hlt heq
  rw [heq] at hlt
  exact Nat.lt_irrefl _ hlt

include hi hnew in
theorem places_insert_perm {ms : List Sent} (hapart : ms.Pairwise fun m m' => m.stop ≤ m'.start)
    (hmem : m ∈ ms) (hother : ∀ x ∈ ms, x ≠ m → ∀ j < x.len, x.start + j ≠ m.start + i) :
    (places ms (insert (m.start + i) b.received)).Perm (places ms b.received ++ [(m, i)]) := by
  have hout : (m, i) ∉ places ms b.received := fun h => hnew (mem_places.mp h).2.2
  have hnodup : (places ms b.received ++ [(m, i)]).Nodup := by
    have hperm : (places ms b.received ++ [(m, i)]).Perm ((m, i) :: places ms b.received) :=
      List.perm_append_singleton _ _
    rw [hperm.nodup_iff, List.nodup_cons]
    exact ⟨hout, nodup_places hapart _⟩
  rw [List.perm_ext_iff_of_nodup (nodup_places hapart _) hnodup]
  rintro ⟨x, j⟩
  rw [List.mem_append, List.mem_singleton, mem_places, mem_places, Finset.mem_insert]
  constructor
  · rintro ⟨hx, hj, heq | hmem'⟩
    · by_cases hxm : x = m
      · subst hxm
        exact .inr (by rw [show j = i by simpa using heq])
      · exact absurd heq (hother x hx hxm j hj)
    · exact .inl ⟨hx, hj, hmem'⟩
  · rintro (⟨hx, hj, hmem'⟩ | heq)
    · exact ⟨hx, hj, .inr hmem'⟩
    · cases heq
      exact ⟨hmem, hi, .inl rfl⟩

include hp hi hnew in
/-- The unordered chunks with one more, sorted. -/
theorem sort_places {ms : List Sent} (hsub : ms.Sublist plan) (hmem : m ∈ ms) :
    sortChunksByTSN ((places ms b.received).map chunkAt ++ [m.chunk i]) =
      (places ms (insert (m.start + i) b.received)).map chunkAt := by
  have hapart := hp.apart.sublist hsub
  have hm := hsub.subset hmem
  have hin : ∀ p ∈ places ms b.received ++ [(m, i)], p.1 ∈ plan ∧ p.2 < p.1.len := by
    intro p hp'
    rcases List.mem_append.mp hp' with hold | hp'
    · have := mem_places.mp hold
      exact ⟨hsub.subset this.1, this.2.1⟩
    · rw [List.mem_singleton] at hp'
      subst hp'
      exact ⟨hm, hi⟩
  have hmap : (places ms b.received).map chunkAt ++ [m.chunk i] =
      (places ms b.received ++ [(m, i)]).map chunkAt := by
    simp [chunkAt]
  rw [hmap]
  apply insertionSort_map_eq chunkAt fun p => p.1.start + p.2
  · exact places_insert_perm hi hnew hapart hmem fun x hx hne =>
      hp.ne_of_other hm (hsub.subset hx) hne hi
  · exact sorted_places hapart _
  · intro p hp1 p' hp2
    obtain ⟨hm1, hl1⟩ := hin p hp1
    obtain ⟨hm2, hl2⟩ := hin p' hp2
    have hn1 := hp.near _ hm1 _ hm2
    have hn2 := hp.near _ hm2 _ hm1
    unfold Sent.stop at hn1 hn2
    show _ ↔ sna32LT (tsn (p'.1.start + p'.2)) (tsn (p.1.start + p.2)) = false
    rw [sna32LT_tsn (by omega) (by omega), decide_eq_false_iff_not]
    omega

include hp hm hi hnew in
/-- The queue of unordered chunks with one more piece of an unordered message. -/
theorem unordered_push (h : Assembles si plan b r) (hu : m.unordered = true) :
    r.pushUnordered (m.chunk i) =
      ({ r with
          nBytes := r.nBytes + (m.pieces.getD i []).length
          unorderedChunks :=
            (places (plan.filter (b.arrive m i).lacking) (b.arrive m i).received).map chunkAt
          unordered := (b.arrive m i).queued.map Sent.whole },
        m.complete (insert (m.start + i) b.received)) := by
  have hopen : m.complete b.received = false := Sent.not_complete hi hnew
  have hmem : m ∈ plan.filter b.lacking :=
    List.mem_filter.mpr ⟨hm, by simp [Inbox.lacking, hu, hopen]⟩
  have hsort := sort_places hp hi hnew List.filter_sublist hmem
  obtain ⟨lo, hahead⟩ := hp.ahead (List.filter_sublist (p := b.lacking))
  have hothers : ∀ x ∈ plan.filter b.lacking, x ≠ m →
      x.complete (insert (m.start + i) b.received) = false := by
    intro x hx hne
    obtain ⟨hx, hl⟩ := List.mem_filter.mp hx
    have := (arrive_other (b := b) hp hm hi hx hne).2.1
    show x.complete (b.arrive m i).received = false
    rw [this]
    simp only [Inbox.lacking, Bool.and_eq_true, Bool.not_eq_true'] at hl
    exact hl.2
  unfold ReassemblyQueue.pushUnordered ReassemblyQueue.findCompleteUnorderedChunkSet
  rw [h.unorderedChunks, hsort]
  cases hc : m.complete (insert (m.start + i) b.received) with
  | false =>
      have hnone : findComplete 0 none ((places (plan.filter b.lacking)
          (insert (m.start + i) b.received)).map chunkAt) = none := by
        apply findComplete_eq_none hahead (runBelow_none lo lo)
        intro x hx
        by_cases hxm : x = m
        · exact hxm ▸ hc
        · exact hothers x hx hxm
      have hfilter : plan.filter (b.arrive m i).lacking = plan.filter b.lacking := by
        apply filter_lacking_arrive hp hm hi
        show (m.unordered && !m.complete (insert (m.start + i) b.received)) =
          (m.unordered && !m.complete b.received)
        rw [hc, hopen]
      have hqueued : (b.arrive m i).queued = b.queued := by
        simp [Inbox.arrive, hc]
      simp only [hnone, hfilter, hqueued, ← h.unordered]
      rfl
  | true =>
      obtain ⟨pre, post, hsplit⟩ := List.append_of_mem hmem
      have hnodup : (pre ++ m :: post).Nodup := hsplit ▸ hp.nodup.filter _
      have hpre : m ∉ pre := fun hin =>
        (List.nodup_append.mp hnodup).2.2 m hin m (by simp) rfl
      have hpost : m ∉ post := fun hin =>
        (List.nodup_cons.mp (List.nodup_append.mp hnodup).2.1).1 hin
      rw [hsplit] at hahead hothers ⊢
      have hsome := findComplete_eq_some (i := 0) hahead (runBelow_none lo lo)
        (fun x hx => hothers x (by simp [hx]) fun heq => hpre (heq ▸ hx)) hc
      rw [Nat.zero_add] at hsome
      have hfilter : plan.filter (b.arrive m i).lacking = pre ++ post := by
        have hcut : plan.filter (b.arrive m i).lacking =
            (plan.filter b.lacking).filter fun x => !decide (x = m) := by
          rw [List.filter_filter]
          apply List.filter_congr
          intro x hx
          by_cases hxm : x = m
          · subst hxm
            show (x.unordered && !x.complete (insert (x.start + i) b.received)) = _
            simp [hc]
          · rw [lacking_other hp hm hi hx hxm]
            simp [hxm]
        rw [hcut, hsplit, List.filter_append, List.filter_cons]
        simp only [decide_true, Bool.not_true, Bool.false_eq_true, if_false]
        rw [List.filter_eq_self.mpr fun x hx => by
            simp [show x ≠ m from fun heq => hpre (heq ▸ hx)],
          List.filter_eq_self.mpr fun x hx => by simp [show x ≠ m from fun heq => hpost (heq ▸ hx)]]
      have hqueued : (b.arrive m i).queued = b.queued ++ [m] := by
        simp [Inbox.arrive, hc, hu]
      -- the chunks in front of the message, its own, and those behind it
      have hlist : (places (pre ++ m :: post) (insert (m.start + i) b.received)).map chunkAt =
          (places pre (insert (m.start + i) b.received)).map chunkAt ++
            (m.whole.chunks ++ (places post (insert (m.start + i) b.received)).map chunkAt) := by
        rw [places_append, List.map_append, places_cons, Sent.complete_iff_arrived.mp hc]
        rfl
      have hfront : ((places pre (insert (m.start + i) b.received)).map chunkAt).length =
          (places pre (insert (m.start + i) b.received)).length := List.length_map _
      have hwhole : m.whole.chunks.length = m.len := by simp [Sent.whole]
      have hhead : m.whole.chunks.head? = some (m.chunk 0) := by
        obtain ⟨n, hn⟩ : ∃ n, m.len = n + 1 :=
          ⟨m.len - 1, by have := hp.pieces m hm; omega⟩
        simp [Sent.whole, hn, List.range_succ_eq_map]
      simp only [hsome, hfilter, hqueued]
      rw [hlist, ← List.drop_drop, List.drop_left' hfront, List.take_left' hfront,
        List.drop_left' hwhole, List.take_left' hwhole, hhead, places_append, List.map_append,
        List.map_append, ← h.unordered]
      rfl

theorem places_congr {ms : List Sent} {received received' : Finset Nat}
    (h : ∀ x ∈ ms, x.arrived received' = x.arrived received) :
    places ms received' = places ms received := by
  induction ms with
  | nil => rfl
  | cons x xs ih =>
      have hrest := ih fun y hy => h y (by simp [hy])
      unfold places at hrest ⊢
      rw [List.flatMap_cons, List.flatMap_cons, h x (by simp), hrest]

include hp hs hm hi hnew in
/-- Pushing a piece that is new. -/
theorem Assembles.push (h : Assembles si plan b r)
    (hnear : m.unordered = false → m.seq < b.next + 2 ^ 15) :
    Assembles si plan (b.arrive m i) (r.pushWithError (m.chunk i)).1 ∧
      (r.pushWithError (m.chunk i)).2 =
        .ok (m.complete (insert (m.start + i) b.received)) := by
  have hbytes := held_arrive hp hs hm hi hnew
  have hstream : ((m.chunk i).streamIdentifier != r.si) = false := by
    show (m.si != r.si) = false
    rw [hp.stream m hm, h.stream]
    simp
  have hi' : (m.chunk i).iData = false := rfl
  unfold ReassemblyQueue.pushWithError
  rw [hi', if_neg (by simp), hstream, if_neg (by simp)]
  cases hu : m.unordered with
  | false =>
      have hflag : (m.chunk i).unordered = false := hu
      have hqueued : (b.arrive m i).queued = b.queued := by
        simp [Inbox.arrive, hu]
      have hlacking := filter_lacking_arrive (b := b) hp hm hi (by simp [Inbox.lacking, hu])
      have hplaces : places (plan.filter b.lacking) (b.arrive m i).received =
          places (plan.filter b.lacking) b.received := by
        apply places_congr
        intro x hx
        obtain ⟨hx, hl⟩ := List.mem_filter.mp hx
        refine (arrive_other hp hm hi hx ?_).1
        intro heq
        subst heq
        simp [Inbox.lacking, hu] at hl
      rw [hflag, if_neg (by simp), ordered_push hp hs hm hi hnew h hu (hnear hu)]
      exact
        ⟨{ stream := h.stream
           nextSSN := h.nextSSN
           ordered := rfl
           unordered := by rw [hqueued, ← h.unordered]
           unorderedChunks := by rw [hlacking, hplaces, ← h.unorderedChunks]
           plain := h.plain
           bytes := by rw [hbytes, ← h.bytes] }, rfl⟩
  | true =>
      have hflag : (m.chunk i).unordered = true := hu
      have hout (x : Sent) (hw : b.waiting x = true) : x ≠ m := by
        intro heq
        subst heq
        simp [Inbox.waiting, hu] at hw
      have hwaiting := filter_waiting_arrive (b := b) hp hm hi (by simp [Inbox.waiting, hu])
      have hordered : ((plan.filter b.waiting).map fun x => x.set (b.arrive m i).received) =
          (plan.filter b.waiting).map fun x => x.set b.received := by
        apply List.map_congr_left
        intro x hx
        obtain ⟨hx, hw⟩ := List.mem_filter.mp hx
        exact (arrive_other hp hm hi hx (hout x hw)).2.2
      rw [hflag, if_pos rfl, unordered_push hp hm hi hnew h hu]
      exact
        ⟨{ stream := h.stream
           nextSSN := h.nextSSN
           ordered := by rw [hwaiting, hordered, ← h.ordered]
           unordered := rfl
           unorderedChunks := rfl
           plain := h.plain
           bytes := by rw [hbytes, ← h.bytes] }, rfl⟩

end Arrive

/-! ### A read -/

section Read

variable (hp : Planned si plan) (hs : b.Sound plan)

/-- The bytes of a complete message that has not been read. -/
theorem held_complete (hc : m.complete b.received = true) (hread : m ∉ b.read) :
    b.held m = m.data.length := by
  unfold Inbox.held
  rw [if_neg hread, Sent.complete_iff_arrived.mp hc, ← numBytes_chunks]
  unfold numBytes
  rw [List.map_map]
  rfl

include hp in
/-- Reading a complete message takes its bytes away. -/
theorem held_read {b' : Inbox} (hm : m ∈ plan) (hreceived : b'.received = b.received)
    (hread : b'.read = b.read ++ [m]) (hc : m.complete b.received = true) (hnot : m ∉ b.read) :
    (plan.map b'.held).sum = (plan.map b.held).sum - m.data.length := by
  have hself : b'.held m = 0 := by
    unfold Inbox.held
    rw [hread, if_pos (by simp)]
  have hbefore := held_complete hc hnot
  have hsum := sum_map_update (f := b.held) (g := b'.held) hp.nodup hm (fun x hx hne => by
    unfold Inbox.held
    rw [hread, hreceived]
    simp [hne])
  omega

include hp in
/-- The message that can be read is the one at the next place. -/
theorem ready_eq_some_iff :
    b.ready plan = some m ↔
      m ∈ plan ∧ m.unordered = false ∧ m.seq = b.next ∧ m.complete b.received = true := by
  constructor
  · intro h
    have hmem := List.mem_of_find?_eq_some h
    have hprop := List.find?_some h
    simp only [Bool.and_eq_true, Bool.not_eq_true', beq_iff_eq] at hprop
    exact ⟨hmem, hprop.1.1, hprop.1.2, hprop.2⟩
  · rintro ⟨hm, ho, hseq, hc⟩
    cases hfind : b.ready plan with
    | none =>
        have := List.find?_eq_none.mp hfind m hm
        simp [ho, hseq, hc] at this
    | some x =>
        have hx := List.mem_of_find?_eq_some hfind
        have hprop := List.find?_some hfind
        simp only [Bool.and_eq_true, Bool.not_eq_true', beq_iff_eq] at hprop
        rw [hp.eq_of_seq hx hm hprop.1.1 ho (hprop.1.2.trans hseq.symm)]

include hp in
/-- The message at the next place waits at the front of the ordered queue. -/
theorem ready_waiting (hready : b.ready plan = some m) :
    b.waiting m = true ∧ ∃ rest, plan.filter b.waiting = m :: rest ∧
      plan.filter (b.takeNext m).waiting = rest := by
  obtain ⟨hm, ho, hseq, hc⟩ := (ready_eq_some_iff hp).mp hready
  have hw : b.waiting m = true := by
    rw [Inbox.waiting_iff, Sent.complete_iff_arrived.mp hc]
    refine ⟨ho, by omega, ?_⟩
    have := hp.pieces m hm
    rw [Ne, List.range_eq_nil]
    omega
  refine ⟨hw, ?_⟩
  have hsorted : (plan.filter b.waiting).Pairwise fun x y => x.seq < y.seq := by
    refine (List.Pairwise.and_mem.mp (hp.seqs.filter _)).imp ?_
    rintro x y ⟨hx, hy, hlt⟩
    exact hlt (Inbox.waiting_iff.mp (List.mem_filter.mp hx).2).1
      (Inbox.waiting_iff.mp (List.mem_filter.mp hy).2).1
  have hcut : plan.filter (b.takeNext m).waiting =
      (plan.filter b.waiting).filter fun x => decide (b.next + 1 ≤ x.seq) := by
    rw [List.filter_filter]
    apply List.filter_congr
    intro x _
    rw [Bool.eq_iff_iff, Bool.and_eq_true, Inbox.waiting_iff, Inbox.waiting_iff,
      decide_eq_true_eq]
    constructor
    · rintro ⟨hxo, hxle, hne⟩
      exact ⟨hxle, hxo, Nat.le_of_succ_le hxle, hne⟩
    · rintro ⟨hxle, hxo, -, hne⟩
      exact ⟨hxo, hxle, hne⟩
  have hmem : m ∈ plan.filter b.waiting := List.mem_filter.mpr ⟨hm, hw⟩
  rw [hcut]
  have hge : ∀ x ∈ plan.filter b.waiting, b.next ≤ x.seq := fun x hx =>
    (Inbox.waiting_iff.mp (List.mem_filter.mp hx).2).2.1
  generalize plan.filter b.waiting = ws at hsorted hmem hge
  cases ws with
  | nil => simp at hmem
  | cons x xs =>
      rw [List.pairwise_cons] at hsorted
      have hxm : x = m := by
        rcases List.mem_cons.mp hmem with heq | hin
        · exact heq.symm
        · have hlt := hsorted.1 m hin
          have hle := hge x (by simp)
          omega
      subst hxm
      refine ⟨xs, rfl, ?_⟩
      rw [List.filter_cons, if_neg (by simp; omega), List.filter_eq_self]
      intro y hy
      have hlt := hsorted.1 y hy
      simp only [decide_eq_true_eq]
      omega

include hp hs in
/-- The front of the ordered queue can be read when it is the message at the next place. -/
theorem front_ready {x : Sent} {xs : List Sent} (hfront : plan.filter b.waiting = x :: xs) :
    ((x.set b.received).isComplete = true ∧ sna16GT (ssn x.seq) (ssn b.next) = false) ↔
      b.ready plan = some x := by
  have hmem : x ∈ plan.filter b.waiting := hfront ▸ List.mem_cons_self
  obtain ⟨hx, hw⟩ := List.mem_filter.mp hmem
  have hle := (Inbox.waiting_iff.mp hw).2.1
  have hnear := hs.near x hx hw
  rw [Sent.isComplete_set (hp.pieces x hx) (hp.len_le hx), ready_eq_some_iff hp,
    sna16GT_ssn (by omega) (by omega), decide_eq_false_iff_not]
  constructor
  · rintro ⟨hc, hnot⟩
    exact ⟨hx, (Inbox.waiting_iff.mp hw).1, by omega, hc⟩
  · rintro ⟨-, -, hseq, hc⟩
    exact ⟨hc, by omega⟩

theorem Inbox.Sound.not_read_of_queued (hs : b.Sound plan) (hm : m ∈ b.queued) : m ∉ b.read :=
  fun hin => (List.nodup_append.mp hs.nodup).2.2 m hm m hin rfl

/-- An unordered message is read. -/
theorem Inbox.Sound.takeQueued (hs : b.Sound plan) {rest : List Sent}
    (hq : b.queued = m :: rest) : (b.takeQueued m).Sound plan := by
  have hm : m ∈ b.queued := hq ▸ List.mem_cons_self
  have hmu := hs.queued_unordered m hm
  have htail : (b.takeQueued m).queued = rest := by
    unfold Inbox.takeQueued
    rw [hq]
    rfl
  have hmem (x : Sent) (hx : x ∈ rest) : x ∈ b.queued := hq ▸ List.mem_cons_of_mem _ hx
  have hperm : ((b.takeQueued m).queued ++ (b.takeQueued m).read).Perm (b.queued ++ b.read) := by
    show ((b.takeQueued m).queued ++ (b.read ++ [m])).Perm _
    rw [htail, hq, ← List.append_assoc]
    exact List.perm_append_singleton m _
  exact
    { read_ordered := by
        intro x hx hxo
        have hne : x ≠ m := fun heq => by
          rw [heq, hmu] at hxo
          cases hxo
        show x ∈ b.read ++ [m] ↔ _
        rw [List.mem_append, List.mem_singleton, hs.read_ordered x hx hxo]
        exact or_iff_left hne
      read_complete := by
        intro x hx
        rcases List.mem_append.mp hx with hx | hx
        · exact hs.read_complete x hx
        · rw [List.mem_singleton] at hx
          exact hx ▸ hs.queued_complete m hm
      queued_complete := by
        rw [htail]
        exact fun x hx => hs.queued_complete x (hmem x hx)
      complete_unordered := by
        intro x hx hxu
        have h := hs.complete_unordered x hx hxu
        rw [hq, List.mem_cons] at h
        show _ ↔ _ ∨ x ∈ b.read ++ [m]
        rw [htail, List.mem_append, List.mem_singleton, ← or_assoc, or_comm, ← or_assoc]
        exact h
      mem_plan := fun x hx => hs.mem_plan x (hperm.mem_iff.mp hx)
      queued_unordered := by
        rw [htail]
        exact fun x hx => hs.queued_unordered x (hmem x hx)
      nodup := hperm.nodup_iff.mpr hs.nodup
      near := hs.near
      in_order := by
        show ((b.read ++ [m]).filter fun x => !x.unordered).map Sent.seq = List.range b.next
        rw [List.filter_append, List.filter_cons, hmu]
        simpa using hs.in_order }

include hp in
/-- The next ordered message is read. -/
theorem Inbox.Sound.takeNext (hs : b.Sound plan) (hr : b.ready plan = some m) :
    (b.takeNext m).Sound plan := by
  obtain ⟨hm, hmo, hseq, hc⟩ := (ready_eq_some_iff hp).mp hr
  have hnot : m ∉ b.read := by
    rw [hs.read_ordered m hm hmo]
    omega
  have hout : m ∉ b.queued := fun hin => by
    have := hs.queued_unordered m hin
    rw [hmo] at this
    cases this
  have hperm : ((b.takeNext m).queued ++ (b.takeNext m).read).Perm
      (m :: (b.queued ++ b.read)) := by
    show (b.queued ++ (b.read ++ [m])).Perm _
    rw [← List.append_assoc]
    exact List.perm_append_singleton m _
  exact
    { read_ordered := by
        intro x hx hxo
        show x ∈ b.read ++ [m] ↔ x.seq < b.next + 1
        rw [List.mem_append, List.mem_singleton, hs.read_ordered x hx hxo]
        constructor
        · rintro (hlt | rfl)
          · omega
          · omega
        · intro hlt
          by_cases heq : x.seq = b.next
          · exact .inr (hp.eq_of_seq hx hm hxo hmo (heq.trans hseq.symm))
          · exact .inl (by omega)
      read_complete := by
        intro x hx
        rcases List.mem_append.mp hx with hx | hx
        · exact hs.read_complete x hx
        · rw [List.mem_singleton] at hx
          exact hx ▸ hc
      queued_complete := hs.queued_complete
      complete_unordered := by
        intro x hx hxu
        have hne : x ≠ m := fun heq => by
          rw [heq, hmo] at hxu
          cases hxu
        show _ ↔ x ∈ b.queued ∨ x ∈ b.read ++ [m]
        rw [List.mem_append, List.mem_singleton, or_iff_left hne]
        exact hs.complete_unordered x hx hxu
      mem_plan := by
        intro x hx
        rcases List.mem_cons.mp (hperm.mem_iff.mp hx) with heq | hx
        · exact heq ▸ hm
        · exact hs.mem_plan x hx
      queued_unordered := hs.queued_unordered
      nodup := by
        rw [hperm.nodup_iff, List.nodup_cons, List.mem_append]
        exact ⟨by simp [hnot, hout], hs.nodup⟩
      near := by
        intro x hx hw
        have hw' : b.waiting x = true := by
          rw [Inbox.waiting_iff] at hw ⊢
          exact ⟨hw.1, Nat.le_of_succ_le hw.2.1, hw.2.2⟩
        have := hs.near x hx hw'
        show x.seq < b.next + 1 + 2 ^ 15
        omega
      in_order := by
        show ((b.read ++ [m]).filter fun x => !x.unordered).map Sent.seq = List.range (b.next + 1)
        rw [List.filter_append, List.map_append, hs.in_order, List.range_succ]
        simp [hmo, hseq] }

include hp hs in
theorem Inbox.Sound.take (len : Nat) : (b.take plan len).1.Sound plan := by
  unfold Inbox.take
  split
  · rename_i _ m rest hq
    split
    · exact hs
    · exact hs.takeQueued hq
  · rename_i m _ hr
    split
    · exact hs
    · exact Inbox.Sound.takeNext hp hs hr
  · exact hs

/-- The copy of a whole message. -/
theorem copyChunks_whole (len : Nat) (m : Sent) :
    ∃ out, copyChunks len m.whole.chunks =
        (m.data.length, decide (len < m.data.length), out) ∧
      (¬ len < m.data.length → out = m.data) := by
  obtain ⟨hcopy, hdata⟩ := copyChunks_eq len m.whole.chunks
  have hbytes : numBytes m.whole.chunks = m.data.length := numBytes_chunks m
  rw [hbytes] at hcopy hdata
  refine ⟨_, hcopy, fun hle => ?_⟩
  rw [hdata (by omega), Sent.data, ← userData_chunks m]
  rfl

include hp in
theorem Assembles.takeQueued (h : Assembles si plan b r) (hs : b.Sound plan) {rest : List Sent}
    (hq : b.queued = m :: rest) :
    Assembles si plan (b.takeQueued m)
      ({ r with unordered := rest.map Sent.whole }.subtractNumBytes m.data.length) := by
  have hm : m ∈ b.queued := hq ▸ List.mem_cons_self
  have hheld := held_read (b := b) hp (hs.mem_plan m (List.mem_append_left _ hm))
    (show (b.takeQueued m).received = _ from rfl) rfl (hs.queued_complete m hm)
    (hs.not_read_of_queued hm)
  exact
    { stream := h.stream
      nextSSN := h.nextSSN
      ordered := h.ordered
      unordered := by
        show rest.map Sent.whole = b.queued.tail.map Sent.whole
        rw [hq]
        rfl
      unorderedChunks := h.unorderedChunks
      plain := h.plain
      bytes := by
        rw [hheld, ← h.bytes]
        rfl }

include hp in
theorem Assembles.takeNext (h : Assembles si plan b r) (hs : b.Sound plan)
    (hr : b.ready plan = some m) {rest : List Sent}
    (hnext : plan.filter (b.takeNext m).waiting = rest) :
    Assembles si plan (b.takeNext m)
      ({ r with
          ordered := rest.map fun x : Sent => x.set b.received
          nextSSN := r.nextSSN + 1#16 }.subtractNumBytes m.data.length) := by
  obtain ⟨hm, hmo, hseq, hc⟩ := (ready_eq_some_iff hp).mp hr
  have hnot : m ∉ b.read := by
    rw [hs.read_ordered m hm hmo]
    omega
  have hheld := held_read (b := b) hp hm (show (b.takeNext m).received = _ from rfl) rfl
    hc hnot
  exact
    { stream := h.stream
      nextSSN := by
        show r.nextSSN + 1#16 = _
        rw [h.nextSSN]
        exact (BitVec.ofNat_add ..).symm
      ordered := by
        rw [hnext]
        rfl
      unordered := h.unordered
      unorderedChunks := h.unorderedChunks
      plain := h.plain
      bytes := by
        rw [hheld, ← h.bytes]
        rfl }

include hp hs in
/-- A read of the queue is a read of the inbox. -/
theorem Assembles.read (h : Assembles si plan b r) (len : Nat) :
    Assembles si plan (b.take plan len).1 (r.read len).1 ∧
      (r.read len).2 = (b.take plan len).2 := by
  unfold ReassemblyQueue.read
  rw [h.plain, if_neg (by simp)]
  unfold Inbox.take ReassemblyQueue.readSSN
  split
  · rename_i _ m rest hq
    have hunordered : r.unordered = m.whole :: rest.map Sent.whole := by
      rw [h.unordered, hq, List.map_cons]
    obtain ⟨out, hcopy, hout⟩ := copyChunks_whole len m
    simp only [hunordered, hcopy, decide_eq_true_eq]
    by_cases hlt : len < m.data.length
    · rw [if_pos hlt, if_pos hlt]
      exact ⟨h, rfl⟩
    · rw [if_neg hlt, if_neg hlt, hout hlt]
      exact ⟨h.takeQueued hp hs hq, rfl⟩
  · rename_i m hq hr
    have hunordered : r.unordered = [] := by
      rw [h.unordered, hq, List.map_nil]
    obtain ⟨-, rest, hfront, hnext⟩ := ready_waiting hp hr
    obtain ⟨hcomplete, hgt⟩ := (front_ready hp hs hfront).mpr hr
    obtain ⟨-, -, hseq, hc⟩ := (ready_eq_some_iff hp).mp hr
    have hordered : r.ordered = m.set b.received :: rest.map fun y => y.set b.received := by
      rw [h.ordered, hfront, List.map_cons]
    have hchunks : (m.set b.received).chunks = m.whole.chunks := by
      show (m.arrived b.received).map m.chunk = _
      rw [Sent.complete_iff_arrived.mp hc]
      rfl
    have hssn : (m.set b.received).ssn = r.nextSSN := by
      rw [h.nextSSN, ← hseq]
      rfl
    have hgo : (!(m.set b.received).isComplete ||
        sna16GT (m.set b.received).ssn r.nextSSN) = false := by
      rw [hcomplete, h.nextSSN]
      exact hgt
    obtain ⟨out, hcopy, hout⟩ := copyChunks_whole len m
    have htake := h.takeNext hp hs hr hnext
    rw [hunordered] at htake
    simp only [hunordered, hordered, hgo, hchunks, hcopy, decide_eq_true_eq, Bool.false_eq_true,
      if_false, beq_iff_eq.mpr hssn, if_true]
    by_cases hlt : len < m.data.length
    · rw [if_pos hlt, if_pos hlt]
      exact ⟨h, rfl⟩
    · rw [if_neg hlt, if_neg hlt, hout hlt]
      exact ⟨htake, rfl⟩
  · rename_i hq hr
    have hunordered : r.unordered = [] := by
      rw [h.unordered, hq, List.map_nil]
    cases hfront : plan.filter b.waiting with
    | nil =>
        have hordered : r.ordered = [] := by
          rw [h.ordered, hfront, List.map_nil]
        simp only [hunordered, hordered]
        exact ⟨h, trivial⟩
    | cons x xs =>
        have hordered : r.ordered = x.set b.received :: xs.map fun y => y.set b.received := by
          rw [h.ordered, hfront, List.map_cons]
        have hiff := front_ready hp hs hfront
        rw [hr, ← h.nextSSN] at hiff
        -- the front is not complete, or not the next one
        have hnot : ¬ ((x.set b.received).isComplete = true ∧
            sna16GT (x.set b.received).ssn r.nextSSN = false) := fun hboth => by
          cases hiff.mp hboth
        have hwait : (!(x.set b.received).isComplete ||
            sna16GT (x.set b.received).ssn r.nextSSN) = true := by
          cases hc : (x.set b.received).isComplete with
          | false => rfl
          | true =>
              cases hg : sna16GT (x.set b.received).ssn r.nextSSN with
              | true => rfl
              | false => exact absurd ⟨hc, hg⟩ hnot
        simp only [hunordered, hordered]
        rw [if_pos hwait]
        exact ⟨h, rfl⟩

end Read

/-! ### A new stream -/

/-- Nothing of the stream has arrived. -/
structure Inbox.Fresh (plan : List Sent) (b : Inbox) : Prop where
  next : b.next = 0
  queued : b.queued = []
  read : b.read = []
  arrived : ∀ m ∈ plan, m.arrived b.received = []

section Fresh

variable (hf : b.Fresh plan)
include hf

theorem Inbox.Fresh.waiting (hm : m ∈ plan) : b.waiting m = false := by
  simp [Inbox.waiting, hf.arrived m hm]

theorem Inbox.Fresh.sound (hp : Planned si plan) : b.Sound plan :=
  { read_ordered := by simp [hf.read, hf.next]
    read_complete := by simp [hf.read]
    queued_complete := by simp [hf.queued]
    complete_unordered := by
      intro m hm _
      have hnone : m.start + 0 ∉ b.received := by
        intro hmem
        have hin := Sent.mem_arrived.mpr ⟨hp.pieces m hm, hmem⟩
        rw [hf.arrived m hm] at hin
        cases hin
      simp [hf.queued, hf.read, Sent.not_complete (hp.pieces m hm) hnone]
    mem_plan := by simp [hf.queued, hf.read]
    queued_unordered := by simp [hf.queued]
    nodup := by simp [hf.queued, hf.read]
    near := by
      intro m hm hw
      rw [hf.waiting hm] at hw
      cases hw
    in_order := by simp [hf.read, hf.next] }

theorem Inbox.Fresh.assembles (si : StreamId) :
    Assembles si plan b (newReassemblyQueue si) := by
  have hwaiting : plan.filter b.waiting = [] := by
    rw [List.filter_eq_nil_iff]
    intro m hm
    simp [hf.waiting hm]
  have hplaces : places (plan.filter b.lacking) b.received = [] := by
    unfold places
    rw [List.flatMap_eq_nil_iff]
    intro m hm
    rw [hf.arrived m (List.mem_filter.mp hm).1, List.map_nil]
  have hheld : plan.map b.held = plan.map fun _ => 0 := by
    apply List.map_congr_left
    intro m hm
    simp [Inbox.held, hf.read, hf.arrived m hm]
  exact
    { stream := rfl
      nextSSN := by
        rw [hf.next]
        rfl
      ordered := by
        rw [hwaiting]
        rfl
      unordered := by
        rw [hf.queued]
        rfl
      unorderedChunks := by
        rw [hplaces]
        rfl
      plain := rfl
      bytes := by
        rw [hheld]
        simp [newReassemblyQueue] }

end Fresh

/-! ### Chunks of other streams -/

/-- The chunk with the number `j` arrives on another stream. -/
def Inbox.note (b : Inbox) (j : Nat) : Inbox := { b with received := insert j b.received }

section Note

variable {j : Nat} (hother : ∀ m ∈ plan, ∀ i < m.len, m.start + i ≠ j)
include hother

theorem Inbox.Fresh.note (hf : b.Fresh plan) : (b.note j).Fresh plan :=
  { next := hf.next
    queued := hf.queued
    read := hf.read
    arrived := fun m hm =>
      (Sent.arrived_insert_of_ne (hother m hm)).trans (hf.arrived m hm) }

theorem Inbox.waiting_note (hm : m ∈ plan) : (b.note j).waiting m = b.waiting m := by
  unfold Inbox.waiting Inbox.note
  rw [Sent.arrived_insert_of_ne (hother m hm)]

theorem Inbox.Sound.note (hs : b.Sound plan) : (b.note j).Sound plan := by
  have hcomplete : ∀ m ∈ plan, m.complete (b.note j).received = m.complete b.received :=
    fun m hm => Sent.complete_insert_of_ne (hother m hm)
  exact
    { read_ordered := hs.read_ordered
      read_complete := by
        intro m hm
        rw [hcomplete m (hs.mem_plan m (List.mem_append_right _ hm))]
        exact hs.read_complete m hm
      queued_complete := by
        intro m hm
        rw [hcomplete m (hs.mem_plan m (List.mem_append_left _ hm))]
        exact hs.queued_complete m hm
      complete_unordered := by
        intro m hm hu
        rw [hcomplete m hm]
        exact hs.complete_unordered m hm hu
      mem_plan := hs.mem_plan
      queued_unordered := hs.queued_unordered
      nodup := hs.nodup
      near := by
        intro m hm hw
        rw [Inbox.waiting_note hother hm] at hw
        exact hs.near m hm hw
      in_order := hs.in_order }

theorem Assembles.note (h : Assembles si plan b r) : Assembles si plan (b.note j) r := by
  have hwaiting : plan.filter (b.note j).waiting = plan.filter b.waiting :=
    List.filter_congr fun m hm => Inbox.waiting_note hother hm
  have hlacking : plan.filter (b.note j).lacking = plan.filter b.lacking := by
    apply List.filter_congr
    intro m hm
    unfold Inbox.lacking Inbox.note
    rw [Sent.complete_insert_of_ne (hother m hm)]
  exact
    { h with
      ordered := by
        rw [h.ordered, hwaiting]
        apply List.map_congr_left
        intro m hm
        exact (Sent.set_insert_of_ne (hother m (List.mem_filter.mp hm).1)).symm
      unorderedChunks := by
        rw [h.unorderedChunks, hlacking]
        congr 1
        apply Eq.symm
        apply places_congr
        intro m hm
        exact Sent.arrived_insert_of_ne (hother m (List.mem_filter.mp hm).1)
      bytes := by
        rw [h.bytes]
        congr 1
        apply List.map_congr_left
        intro m hm
        unfold Inbox.held Inbox.note
        rw [Sent.arrived_insert_of_ne (hother m hm)] }

end Note

/-! ### Messages that are begun later -/

section Later

variable (hp : Planned si (plan ++ [m])) (hnone : ∀ i < m.len, m.start + i ∉ b.received)

theorem Sent.arrived_eq_nil {received : Finset Nat} (h : ∀ i < m.len, m.start + i ∉ received) :
    m.arrived received = [] := by
  unfold Sent.arrived
  rw [List.filter_eq_nil_iff]
  intro i hi
  simpa using h i (List.mem_range.mp hi)

include hnone in
theorem Inbox.Fresh.later (hf : b.Fresh plan) : b.Fresh (plan ++ [m]) :=
  { hf with
    arrived := by
      intro x hx
      rcases List.mem_append.mp hx with hold | hnew
      · exact hf.arrived x hold
      · rw [List.mem_singleton.mp hnew]
        exact Sent.arrived_eq_nil hnone }

include hp hnone in
/-- A message that is begun later changes nothing. -/
theorem Inbox.Sound.later (hs : b.Sound plan) : b.Sound (plan ++ [m]) := by
  have hlen : 0 < m.len := hp.pieces m (by simp)
  have hopen : m.complete b.received = false := Sent.not_complete hlen (hnone 0 hlen)
  have hread : m ∉ b.read := fun hmem => by
    have := hs.read_complete m hmem
    rw [hopen] at this
    cases this
  have hqueued : m ∉ b.queued := fun hmem => by
    have := hs.queued_complete m hmem
    rw [hopen] at this
    cases this
  have hwaiting : b.waiting m = false := by
    simp [Inbox.waiting, Sent.arrived_eq_nil hnone]
  have hmem {x : Sent} (hx : x ∈ plan ++ [m]) : x ∈ plan ∨ x = m := by simpa using hx
  exact
    { hs with
      read_ordered := by
        intro x hx ho
        rcases hmem hx with hold | rfl
        · exact hs.read_ordered x hold ho
        · refine ⟨fun hin => absurd hin hread, fun hlt => ?_⟩
          -- the place is taken by a message that was read, and `x` comes behind it
          have hplace : x.seq ∈ (b.read.filter fun m => !m.unordered).map Sent.seq := by
            rw [hs.in_order]
            exact List.mem_range.mpr hlt
          obtain ⟨y, hy, hseq⟩ := List.mem_map.mp hplace
          obtain ⟨hyread, hyo⟩ := List.mem_filter.mp hy
          have hyplan := hs.mem_plan y (List.mem_append_right _ hyread)
          have hbehind := (List.pairwise_append.mp hp.seqs).2.2 y hyplan x (by simp)
            (by simpa using hyo) ho
          omega
      complete_unordered := by
        intro x hx hu
        rcases hmem hx with hold | rfl
        · exact hs.complete_unordered x hold hu
        · simp [hopen, hread, hqueued]
      mem_plan := fun x hx => List.mem_append_left _ (hs.mem_plan x hx)
      near := by
        intro x hx hw
        rcases hmem hx with hold | rfl
        · exact hs.near x hold hw
        · rw [hwaiting] at hw
          cases hw }

include hnone in
theorem Assembles.later (h : Assembles si plan b r) : Assembles si (plan ++ [m]) b r := by
  have harrived := Sent.arrived_eq_nil hnone
  have hwaiting : b.waiting m = false := by simp [Inbox.waiting, harrived]
  have hheld : b.held m = 0 := by simp [Inbox.held, harrived]
  have hplaces : places ([m].filter b.lacking) b.received = [] := by
    unfold places
    rw [List.flatMap_eq_nil_iff]
    intro x hx
    rw [List.mem_singleton.mp (List.mem_filter.mp hx).1, harrived, List.map_nil]
  exact
    { h with
      ordered := by
        rw [h.ordered, List.filter_append]
        simp [hwaiting]
      unorderedChunks := by
        rw [h.unorderedChunks, List.filter_append, places_append, hplaces, List.append_nil]
      bytes := by
        rw [h.bytes, List.map_append, List.sum_append]
        simp [hheld] }

end Later

end PionBridge.Sctp
