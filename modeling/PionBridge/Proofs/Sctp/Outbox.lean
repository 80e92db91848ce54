import PionBridge.Proofs.Sctp.Packetize
import PionBridge.Sctp.Link

/-!
# `PionBridge.Proofs.Sctp.Outbox`: what the pending queue stands for

The two queues of chunks stand for two queues of messages and one message that is being sent
(`Outbox`, `Queues`). What is looked at is the next piece of that message, or the first piece of the
next one, and popping it never fails (`Queues.next`). So the chunks of a message get TSNs one behind
the other, whatever is written meanwhile.
-/

set_option autoImplicit false

namespace PionBridge.Sctp

open PionBridge.Lib ReceiveWindow

/-- One of the two queues. -/
def MessagePolicy.queue (q : MessagePolicy) (unordered : Bool) : List PayloadData :=
  if unordered then q.unorderedQueue else q.orderedQueue

/-- The messages of a sender: those that were begun, in the order of their numbers, the last of them
with the number of its pieces that are sent if it is not finished, and those that wait in each
queue. -/
structure Outbox where
  begun : List Sent
  current : Option (Sent × Nat)
  waiting : Bool → List Sent

namespace Outbox

def empty : Outbox := { begun := [], current := none, waiting := fun _ => [] }

/-- The pieces of the current message that are not sent, if they are in the given queue. -/
def rest (o : Outbox) (unordered : Bool) : List PayloadData :=
  match o.current with
  | none => []
  | some (m, k) => if m.unordered = unordered then ((List.range m.len).drop k).map m.out else []

/-- The current message is the piece `k` further. -/
def goOn (o : Outbox) (m : Sent) (k : Nat) : Outbox :=
  { o with current := if k + 1 = m.len then none else some (m, k + 1) }

/-- The first message that waits is begun at the number `n`. -/
def begin (o : Outbox) (n : Nat) (m : Sent) : Outbox :=
  goOn
    { o with
      begun := o.begun ++ [{ m with start := n }]
      waiting := fun u => if u = m.unordered then (o.waiting u).tail else o.waiting u }
    { m with start := n } 0

/-- The message and the piece that is sent next, with the number `n`. -/
def next (o : Outbox) (n : Nat) : Option (Sent × Nat × Outbox) :=
  match o.current with
  | some (m, k) => some (m, k, o.goOn m k)
  | none =>
    ((o.waiting true).head?.or (o.waiting false).head?).map fun m =>
      ({ m with start := n }, 0, o.begin n m)

/-- A message that was cut waits to be begun. One without chunks is gone. -/
def add (o : Outbox) (m : Sent) : Outbox :=
  if m.len = 0 then o
  else { o with waiting := fun u => if u = m.unordered then o.waiting u ++ [m] else o.waiting u }

/-- The messages are not empty and wait in their queues. -/
structure Sorted (o : Outbox) : Prop where
  waiting : ∀ u, ∀ m ∈ o.waiting u, m.unordered = u ∧ 0 < m.len
  current : ∀ m k, o.current = some (m, k) → 0 < k ∧ k < m.len

end Outbox

/-- The queues hold the messages of the outbox. -/
structure Queues (o : Outbox) (q : MessagePolicy) : Prop where
  queue : ∀ u, q.queue u = o.rest u ++ (o.waiting u).flatMap Sent.outs
  selected : q.selected = o.current.isSome
  which : ∀ m k, o.current = some (m, k) → q.unorderedIsSelected = m.unordered

variable {o : Outbox} {q : MessagePolicy} {m : Sent} {i n : Nat}

theorem Sent.drop_outs (h : i < m.len) :
    ((List.range m.len).drop i).map m.out =
      m.out i :: ((List.range m.len).drop (i + 1)).map m.out := by
  rw [List.drop_eq_getElem_cons (by simpa using h), List.map_cons, List.getElem_range]

theorem Sent.endingFragment_out (m : Sent) (k : Nat) :
    (m.out k).endingFragment = decide (k + 1 = m.len) := by
  rw [Bool.eq_iff_iff, decide_eq_true_eq]
  exact beq_iff_eq

namespace MessagePolicy

theorem queue_push (q : MessagePolicy) (c : PayloadData) (u : Bool) :
    (q.push c).queue u = if u = c.unordered then q.queue u ++ [c] else q.queue u := by
  unfold push queue
  cases u <;> cases c.unordered <;> simp

theorem popFrom_snd (q : MessagePolicy) (u : Bool) : (q.popFrom u).2 = (q.queue u).head? := by
  cases u <;> rfl

theorem queue_popFrom (q : MessagePolicy) (u v : Bool) :
    (q.popFrom v).1.queue u = if u = v then (q.queue u).tail else q.queue u := by
  cases u <;> cases v <;> rfl

/-- Popping touches the queues only. -/
theorem popFrom_frame (q : MessagePolicy) (u : Bool) :
    (q.popFrom u).1.selected = q.selected ∧
      (q.popFrom u).1.unorderedIsSelected = q.unorderedIsSelected := by
  cases u <;> exact ⟨rfl, rfl⟩

theorem peek_eq (q : MessagePolicy) :
    q.peek = if q.selected then (q.queue q.unorderedIsSelected).head?
      else (q.queue true).head?.or (q.queue false).head? := by
  unfold peek
  cases q.unorderedIsSelected <;> rfl

/-- Inside a message the first chunk of its queue is popped. -/
theorem pop_of_selected {c : PayloadData} (hsel : q.selected = true)
    (hfirst : (q.queue q.unorderedIsSelected).head? = some c) :
    q.pop c =
      ({ (q.popFrom q.unorderedIsSelected).1 with selected := !c.endingFragment }, .ok ()) := by
  have hkeep := (popFrom_frame q q.unorderedIsSelected).1
  unfold pop popSelected
  simp only [popFrom_snd, hfirst, hsel, hkeep, ne_eq, not_true_eq_false, if_false, if_true]
  cases c.endingFragment <;> rfl

/-- Between messages a first piece is popped, and selects its queue if more pieces follow. -/
theorem pop_of_begin {c : PayloadData} (hsel : q.selected = false)
    (hbegin : c.beginningFragment = true) (hfirst : (q.queue c.unordered).head? = some c) :
    q.pop c =
      ({ (q.popFrom c.unordered).1 with
          selected := !c.endingFragment
          unorderedIsSelected :=
            if c.endingFragment then q.unorderedIsSelected else c.unordered }, .ok ()) := by
  obtain ⟨hkeep, hwhich⟩ := popFrom_frame q c.unordered
  unfold pop popNewSelection
  simp only [popFrom_snd, hfirst, hsel, hbegin, Bool.false_eq_true, if_false, Bool.not_true, ne_eq,
    not_true_eq_false]
  cases hend : c.endingFragment with
  | false => simp
  | true =>
      simp only [if_true, Bool.not_true]
      rw [← hsel, ← hkeep, ← hwhich]

end MessagePolicy

/-! ### Pushing -/

theorem queues_empty : Queues Outbox.empty newMessagePolicy :=
  { queue := fun u => by cases u <;> rfl, selected := rfl, which := fun _ _ h => by cases h }

/-- The chunks of a message enter their queue one behind the other. -/
theorem queue_foldl_push (q : MessagePolicy) (chunks : List PayloadData) (u v : Bool)
    (h : ∀ c ∈ chunks, c.unordered = v) :
    (chunks.foldl MessagePolicy.push q).queue u =
      if u = v then q.queue u ++ chunks else q.queue u := by
  induction chunks generalizing q with
  | nil => simp
  | cons c cs ih =>
      have hc := h c (by simp)
      rw [List.foldl_cons, ih _ fun c' hc' => h c' (by simp [hc']), MessagePolicy.queue_push, hc]
      by_cases huv : u = v
      · simp [huv]
      · simp [huv]

theorem foldl_push_frame (q : MessagePolicy) (chunks : List PayloadData) :
    (chunks.foldl MessagePolicy.push q).selected = q.selected ∧
      (chunks.foldl MessagePolicy.push q).unorderedIsSelected = q.unorderedIsSelected := by
  induction chunks generalizing q with
  | nil => exact ⟨rfl, rfl⟩
  | cons c cs ih =>
      rw [List.foldl_cons, (ih _).1, (ih _).2]
      unfold MessagePolicy.push
      split <;> exact ⟨rfl, rfl⟩

theorem foldl_push_policy (q : PendingQueue) (chunks : List PayloadData) :
    (chunks.foldl PendingQueue.push q).policy = chunks.foldl MessagePolicy.push q.policy := by
  induction chunks generalizing q with
  | nil => rfl
  | cons c cs ih => exact ih (q.push c)

theorem Queues.add (h : Queues o q) (m : Sent) :
    Queues (o.add m) (m.outs.foldl MessagePolicy.push q) := by
  have houts : ∀ c ∈ m.outs, c.unordered = m.unordered := by
    intro c hc
    obtain ⟨i, -, rfl⟩ := List.mem_map.mp hc
    rfl
  have hadd : (o.add m).current = o.current ∧ (o.add m).rest = o.rest := by
    unfold Outbox.add
    split <;> exact ⟨rfl, rfl⟩
  obtain ⟨hsel, hwhich⟩ := foldl_push_frame q m.outs
  exact
    { queue := by
        intro u
        rw [queue_foldl_push q m.outs u m.unordered houts, h.queue u, hadd.2]
        unfold Outbox.add
        by_cases hlen : m.len = 0
        · have hnil : m.outs = [] := by simp [Sent.outs, hlen]
          simp [hlen, hnil]
        · by_cases hu : u = m.unordered
          · simp [hlen, hu]
          · simp [hlen, hu]
      selected := by rw [hsel, hadd.1, h.selected]
      which := fun m' k hc => by rw [hwhich, h.which m' k (hadd.1 ▸ hc)] }

theorem Outbox.Sorted.add (hs : o.Sorted) (m : Sent) : (o.add m).Sorted := by
  unfold Outbox.add
  by_cases hlen : m.len = 0
  · rw [if_pos hlen]
    exact hs
  · rw [if_neg hlen]
    refine { waiting := ?_, current := hs.current }
    intro u x hx
    by_cases hu : u = m.unordered
    · subst hu
      have hx : x ∈ o.waiting m.unordered ∨ x = m := by simpa using hx
      rcases hx with hold | rfl
      · exact hs.waiting _ x hold
      · exact ⟨rfl, Nat.pos_of_ne_zero hlen⟩
    · exact hs.waiting u x (by simpa [hu] using hx)

/-! ### Popping -/

/-- What is left of a message behind the piece `k`. -/
theorem Outbox.rest_goOn (o : Outbox) (m : Sent) (k : Nat) (u : Bool) :
    (o.goOn m k).rest u =
      if m.unordered = u then ((List.range m.len).drop (k + 1)).map m.out else [] := by
  unfold Outbox.goOn Outbox.rest
  by_cases hlast : k + 1 = m.len
  · simp [hlast]
  · simp [hlast]

theorem Outbox.rest_begin (o : Outbox) (n : Nat) (m : Sent) (u : Bool) :
    (o.begin n m).rest u =
      if m.unordered = u then ((List.range m.len).drop 1).map m.out else [] :=
  Outbox.rest_goOn _ { m with start := n } 0 u

theorem Outbox.waiting_begin (o : Outbox) (n : Nat) (m : Sent) (u : Bool) :
    (o.begin n m).waiting u = if u = m.unordered then (o.waiting u).tail else o.waiting u := rfl

theorem Outbox.isSome_goOn (o : Outbox) (m : Sent) (k : Nat) :
    (o.goOn m k).current.isSome = !(m.out k).endingFragment := by
  rw [Sent.endingFragment_out]
  unfold Outbox.goOn
  by_cases hlast : k + 1 = m.len
  · simp [hlast]
  · simp [hlast]

theorem Outbox.current_goOn {m x : Sent} {k j : Nat} (h : (o.goOn m k).current = some (x, j)) :
    x = m ∧ j = k + 1 ∧ k + 1 ≠ m.len := by
  unfold Outbox.goOn at h
  by_cases hlast : k + 1 = m.len
  · simp [hlast] at h
  · simp only [hlast, if_false, Option.some.injEq, Prod.mk.injEq] at h
    exact ⟨h.1.symm, h.2.symm, hlast⟩

/-- The next piece of the current message. -/
theorem Queues.current (h : Queues o q) (hs : o.Sorted) {k : Nat} (hc : o.current = some (m, k)) :
    q.peek = some (m.out k) ∧
      ∃ q', q.pop (m.out k) = (q', .ok ()) ∧ Queues (o.goOn m k) q' := by
  have hk := (hs.current m k hc).2
  have hsel : q.selected = true := by
    rw [h.selected, hc]
    rfl
  have hwhich := h.which m k hc
  have hrest (u : Bool) : o.rest u =
      if m.unordered = u then m.out k :: ((List.range m.len).drop (k + 1)).map m.out else [] := by
    unfold Outbox.rest
    rw [hc]
    simp only [Sent.drop_outs hk]
  have hfirst : (q.queue q.unorderedIsSelected).head? = some (m.out k) := by
    rw [hwhich, h.queue, hrest, if_pos rfl]
    rfl
  refine ⟨?_, _, MessagePolicy.pop_of_selected hsel hfirst, ?_⟩
  · rw [MessagePolicy.peek_eq, if_pos hsel, hfirst]
  · exact
      { queue := by
          intro u
          show (q.popFrom q.unorderedIsSelected).1.queue u = _
          rw [MessagePolicy.queue_popFrom, Outbox.rest_goOn, hwhich, h.queue, hrest]
          by_cases hu : m.unordered = u
          · simp [hu, Outbox.goOn]
          · simp [hu, Ne.symm hu, Outbox.goOn]
        selected := (Outbox.isSome_goOn o m k).symm
        which := by
          intro m' k' hc'
          obtain ⟨rfl, -, -⟩ := Outbox.current_goOn hc'
          rw [← hwhich]
          exact (MessagePolicy.popFrom_frame q _).2 }

/-- The first piece of the next message. -/
theorem Queues.begin (h : Queues o q) (hs : o.Sorted) (hc : o.current = none)
    (hm : (o.waiting true).head?.or (o.waiting false).head? = some m) (n : Nat) :
    q.peek = some (m.out 0) ∧
      ∃ q', q.pop (m.out 0) = (q', .ok ()) ∧ Queues (o.begin n m) q' := by
  have hsel : q.selected = false := by
    rw [h.selected, hc]
    rfl
  have hqueue (u : Bool) : q.queue u = (o.waiting u).flatMap Sent.outs := by
    rw [h.queue u]
    unfold Outbox.rest
    rw [hc]
    rfl
  -- the message is the first of its queue, and the ordered queue waits for the other one
  obtain ⟨hfront, hlen, hfree⟩ : (∃ ms, o.waiting m.unordered = m :: ms) ∧ 0 < m.len ∧
      (m.unordered = false → o.waiting true = []) := by
    cases hu : o.waiting true with
    | cons x xs =>
        have hxm : x = m := by simpa [hu] using hm
        subst hxm
        obtain ⟨hx, hlen⟩ := hs.waiting true x (hu ▸ List.mem_cons_self)
        exact ⟨⟨xs, hx ▸ hu⟩, hlen, fun ho => by simp [hx] at ho⟩
    | nil =>
        rw [hu, List.head?_nil, Option.none_or] at hm
        obtain ⟨ms, hms⟩ := List.head?_eq_some_iff.mp hm
        obtain ⟨hx, hlen⟩ := hs.waiting false m (hms ▸ List.mem_cons_self)
        exact ⟨⟨ms, hx ▸ hms⟩, hlen, fun _ => rfl⟩
  obtain ⟨ms, hms⟩ := hfront
  have houts : m.outs = m.out 0 :: ((List.range m.len).drop 1).map m.out := by
    rw [← Sent.drop_outs hlen, List.drop_zero]
    rfl
  have hhead : (q.queue m.unordered).head? = some (m.out 0) := by
    rw [hqueue, hms, List.flatMap_cons, houts]
    rfl
  refine ⟨?_, _, MessagePolicy.pop_of_begin hsel rfl hhead, ?_⟩
  · rw [MessagePolicy.peek_eq, hsel, if_neg (by simp)]
    cases hu : m.unordered with
    | true =>
        rw [hu] at hhead
        rw [hhead, Option.some_or]
    | false =>
        rw [hu] at hhead
        rw [hhead, hqueue true, hfree hu]
        rfl
  · exact
      { queue := by
          intro u
          show (q.popFrom m.unordered).1.queue u = _
          rw [MessagePolicy.queue_popFrom, Outbox.rest_begin, Outbox.waiting_begin, hqueue]
          by_cases hu : u = m.unordered
          · subst hu
            rw [if_pos rfl, if_pos rfl, if_pos rfl, hms, List.flatMap_cons, houts]
            rfl
          · rw [if_neg hu, if_neg (Ne.symm hu), if_neg hu, List.nil_append]
        selected := (Outbox.isSome_goOn _ { m with start := n } 0).symm
        which := by
          intro m' k' hc'
          obtain ⟨rfl, -, hmore⟩ := Outbox.current_goOn hc'
          show (if (m.out 0).endingFragment then _ else m.unordered) = m.unordered
          have hend : (m.out 0).endingFragment = false := by
            rw [Sent.endingFragment_out]
            exact decide_eq_false hmore
          rw [hend]
          rfl }

/-- The queue gives the pieces in the order of the outbox, and a pop of what was looked at never
fails. -/
theorem Queues.next (h : Queues o q) (hs : o.Sorted) (n : Nat) :
    q.peek = (o.next n).map (fun x => x.1.out x.2.1) ∧
      ∀ m k o', o.next n = some (m, k, o') →
        ∃ q', q.pop (m.out k) = (q', .ok ()) ∧ Queues o' q' := by
  unfold Outbox.next
  cases hc : o.current with
  | some x =>
      obtain ⟨m, k⟩ := x
      obtain ⟨hpeek, hpop⟩ := h.current hs hc
      refine ⟨hpeek, ?_⟩
      intro m' k' o' hnext
      cases hnext
      exact hpop
  | none =>
      cases hm : (o.waiting true).head?.or (o.waiting false).head? with
      | some m =>
          obtain ⟨hpeek, hpop⟩ := h.begin hs hc hm n
          refine ⟨hpeek, ?_⟩
          intro m' k' o' hnext
          cases hnext
          exact hpop
      | none =>
          refine ⟨?_, fun m' k' o' hnext => by cases hnext⟩
          obtain ⟨hu, ho⟩ := Option.or_eq_none_iff.mp hm
          rw [List.head?_eq_none_iff] at hu ho
          rw [MessagePolicy.peek_eq, h.selected, hc, Option.isSome_none, if_neg (by simp),
            h.queue true, h.queue false, hu, ho]
          simp [Outbox.rest, hc]

theorem Outbox.Sorted.next (hs : o.Sorted) {m : Sent} {k : Nat} {o' : Outbox}
    (hnext : o.next n = some (m, k, o')) : o'.Sorted := by
  unfold Outbox.next at hnext
  split at hnext
  · rename_i m' k' hc
    cases hnext
    refine { waiting := hs.waiting, current := ?_ }
    intro x j hx
    obtain ⟨rfl, rfl, hne⟩ := Outbox.current_goOn hx
    have := hs.current x k hc
    omega
  · obtain ⟨x, hx, heq⟩ := Option.map_eq_some_iff.mp hnext
    cases heq
    have hmem : x ∈ o.waiting true ∨ x ∈ o.waiting false := by
      rcases Option.or_eq_some_iff.mp hx with h | ⟨-, h⟩
      · exact .inl (List.mem_of_head? h)
      · exact .inr (List.mem_of_head? h)
    have hlen : 0 < x.len := by
      rcases hmem with h | h
      · exact (hs.waiting _ x h).2
      · exact (hs.waiting _ x h).2
    constructor
    · intro u y hy
      apply hs.waiting u y
      have hy : y ∈ if u = x.unordered then (o.waiting u).tail else o.waiting u := hy
      split at hy
      · exact List.mem_of_mem_tail hy
      · exact hy
    · intro y j hy
      obtain ⟨rfl, rfl, hne⟩ := Outbox.current_goOn hy
      have : 1 ≠ x.len := hne
      show 0 < 0 + 1 ∧ 0 + 1 < x.len
      omega

end PionBridge.Sctp
