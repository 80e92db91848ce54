import Mathlib.Data.List.Nodup
import Mathlib.Logic.Function.Basic

/-!
# `PionBridge.Lib.Custody`: tokens that are in exactly one place

Tokens are handed from hand to hand through one queue. A token is issued to a holder, a
holder puts it into the queue, a holder with free hands takes the first one out, and a holder
settles the one it has. `Custody.Exclusive` says that every issued token is in exactly one
place: in one hand, in the queue or settled, and there once. The four moves keep it
(`Move.exclusive`), so a system whose steps are moves neither loses a token nor settles one
twice.
-/

set_option autoImplicit false

namespace PionBridge.Lib

/-- Where the tokens are. -/
structure Custody (η ι : Type) where
  issued : List ι
  hold : η → Option ι
  queue : List ι
  settled : List ι

namespace Custody

variable {η ι : Type}

/-- Every issued token is in exactly one place, and there once. -/
structure Exclusive (c : Custody η ι) : Prop where
  issued_nodup : c.issued.Nodup
  queue_nodup : c.queue.Nodup
  settled_nodup : c.settled.Nodup
  hold_inj : ∀ h h' i, c.hold h = some i → c.hold h' = some i → h = h'
  hold_queue : ∀ h i, c.hold h = some i → i ∉ c.queue
  hold_settled : ∀ h i, c.hold h = some i → i ∉ c.settled
  queue_settled : ∀ i ∈ c.queue, i ∉ c.settled
  hold_issued : ∀ h i, c.hold h = some i → i ∈ c.issued
  queue_issued : ∀ i ∈ c.queue, i ∈ c.issued
  settled_issued : ∀ i ∈ c.settled, i ∈ c.issued
  accounted : ∀ i ∈ c.issued, (∃ h, c.hold h = some i) ∨ i ∈ c.queue ∨ i ∈ c.settled

/-- With nothing issued, nothing is anywhere. -/
theorem exclusive_empty : (⟨[], fun _ => none, [], []⟩ : Custody η ι).Exclusive := by
  constructor <;> simp

/-- When no hand holds a token and the queue is empty, every issued token is settled. -/
theorem Exclusive.all_settled {c : Custody η ι} (hc : c.Exclusive)
    (hhold : ∀ h, c.hold h = none) (hqueue : c.queue = []) {i : ι} (hi : i ∈ c.issued) :
    i ∈ c.settled := by
  rcases hc.accounted i hi with ⟨h, hh⟩ | hq | hs
  · rw [hhold h] at hh
    cases hh
  · rw [hqueue] at hq
    cases hq
  · exact hs

/-! ### The moves -/

variable [DecidableEq η]

/-- The moves. -/
inductive Move (c : Custody η ι) : Custody η ι → Prop
  | stay : Move c c
  | issue (h : η) (i : ι) (hfree : c.hold h = none) (hnew : i ∉ c.issued) :
      Move c { c with issued := c.issued ++ [i], hold := Function.update c.hold h (some i) }
  | put (h : η) (i : ι) (hmine : c.hold h = some i) :
      Move c { c with hold := Function.update c.hold h none, queue := c.queue ++ [i] }
  | take (h : η) (i : ι) (rest : List ι) (hfree : c.hold h = none)
      (hqueue : c.queue = i :: rest) :
      Move c { c with hold := Function.update c.hold h (some i), queue := rest }
  | settle (h : η) (i : ι) (hmine : c.hold h = some i) :
      Move c { c with hold := Function.update c.hold h none, settled := c.settled ++ [i] }

theorem update_eq_some {f : η → Option ι} {h h' : η} {o : Option ι} {i : ι}
    (hi : Function.update f h o h' = some i) :
    (h' = h ∧ o = some i) ∨ (h' ≠ h ∧ f h' = some i) := by
  by_cases heq : h' = h
  · subst heq
    rw [Function.update_self] at hi
    exact Or.inl ⟨rfl, hi⟩
  · rw [Function.update_of_ne heq] at hi
    exact Or.inr ⟨heq, hi⟩

theorem Exclusive.issue {c : Custody η ι} (hc : c.Exclusive) {h : η} {i : ι}
    (hfree : c.hold h = none) (hnew : i ∉ c.issued) :
    Exclusive { c with issued := c.issued ++ [i], hold := Function.update c.hold h (some i) } where
  issued_nodup := by
    rw [List.nodup_append']
    refine ⟨hc.issued_nodup, List.nodup_singleton i, ?_⟩
    intro j hj hj'
    rw [List.mem_singleton] at hj'
    exact hnew (hj' ▸ hj)
  queue_nodup := hc.queue_nodup
  settled_nodup := hc.settled_nodup
  hold_inj a b j ha hb := by
    rcases update_eq_some ha with ⟨rfl, hj⟩ | ⟨-, ha'⟩ <;>
      rcases update_eq_some hb with ⟨rfl, hj'⟩ | ⟨-, hb'⟩
    · rfl
    · cases hj
      exact absurd (hc.hold_issued _ _ hb') hnew
    · cases hj'
      exact absurd (hc.hold_issued _ _ ha') hnew
    · exact hc.hold_inj a b j ha' hb'
  hold_queue a j ha := by
    rcases update_eq_some ha with ⟨-, hj⟩ | ⟨-, ha⟩
    · cases hj
      exact fun hq => hnew (hc.queue_issued _ hq)
    · exact hc.hold_queue a j ha
  hold_settled a j ha := by
    rcases update_eq_some ha with ⟨-, hj⟩ | ⟨-, ha⟩
    · cases hj
      exact fun hs => hnew (hc.settled_issued _ hs)
    · exact hc.hold_settled a j ha
  queue_settled := hc.queue_settled
  hold_issued a j ha := by
    rcases update_eq_some ha with ⟨-, hj⟩ | ⟨-, ha⟩
    · cases hj
      simp
    · exact List.mem_append_left _ (hc.hold_issued a j ha)
  queue_issued j hj := List.mem_append_left _ (hc.queue_issued j hj)
  settled_issued j hj := List.mem_append_left _ (hc.settled_issued j hj)
  accounted j hj := by
    rcases List.mem_append.mp hj with hj | hj
    · rcases hc.accounted j hj with ⟨a, ha⟩ | hrest
      · have hne : a ≠ h := by
          rintro rfl
          rw [hfree] at ha
          cases ha
        exact Or.inl ⟨a, (Function.update_of_ne hne ..).trans ha⟩
      · exact Or.inr hrest
    · rw [List.mem_singleton] at hj
      exact Or.inl ⟨h, (Function.update_self ..).trans (hj ▸ rfl)⟩

/-- A hand that gives its token away: who holds what afterwards. -/
theorem hold_of_release {c : Custody η ι} (hc : c.Exclusive) {h : η} {i : ι}
    (hmine : c.hold h = some i) {a : η} {j : ι}
    (ha : Function.update c.hold h none a = some j) : c.hold a = some j ∧ j ≠ i := by
  rcases update_eq_some ha with ⟨-, hj⟩ | ⟨hne, ha⟩
  · cases hj
  · refine ⟨ha, ?_⟩
    rintro rfl
    exact hne (hc.hold_inj _ _ _ ha hmine)

/-- The tokens that stay held after `h` gives away `i`. -/
theorem accounted_of_release {c : Custody η ι} (hc : c.Exclusive) {h : η} {i : ι}
    (hmine : c.hold h = some i) {j : ι} (hj : j ∈ c.issued) :
    j = i ∨ (∃ a, Function.update c.hold h none a = some j) ∨ j ∈ c.queue ∨ j ∈ c.settled := by
  rcases hc.accounted j hj with ⟨a, ha⟩ | hrest
  · by_cases heq : a = h
    · subst heq
      rw [hmine] at ha
      cases ha
      exact Or.inl rfl
    · exact Or.inr (Or.inl ⟨a, by rw [Function.update_of_ne heq, ha]⟩)
  · exact Or.inr (Or.inr hrest)

theorem Exclusive.put {c : Custody η ι} (hc : c.Exclusive) {h : η} {i : ι}
    (hmine : c.hold h = some i) :
    Exclusive { c with hold := Function.update c.hold h none, queue := c.queue ++ [i] } where
  issued_nodup := hc.issued_nodup
  queue_nodup := by
    rw [List.nodup_append']
    refine ⟨hc.queue_nodup, List.nodup_singleton i, ?_⟩
    intro j hj hj'
    rw [List.mem_singleton] at hj'
    exact hc.hold_queue _ _ hmine (hj' ▸ hj)
  settled_nodup := hc.settled_nodup
  hold_inj a b j ha hb :=
    hc.hold_inj a b j (hold_of_release hc hmine ha).1 (hold_of_release hc hmine hb).1
  hold_queue a j ha hq := by
    obtain ⟨ha, hne⟩ := hold_of_release hc hmine ha
    rcases List.mem_append.mp hq with hq | hq
    · exact hc.hold_queue a j ha hq
    · exact hne (List.mem_singleton.mp hq)
  hold_settled a j ha := hc.hold_settled a j (hold_of_release hc hmine ha).1
  queue_settled j hj := by
    rcases List.mem_append.mp hj with hj | hj
    · exact hc.queue_settled j hj
    · rw [List.mem_singleton.mp hj]
      exact hc.hold_settled _ _ hmine
  hold_issued a j ha := hc.hold_issued a j (hold_of_release hc hmine ha).1
  queue_issued j hj := by
    rcases List.mem_append.mp hj with hj | hj
    · exact hc.queue_issued j hj
    · rw [List.mem_singleton.mp hj]
      exact hc.hold_issued _ _ hmine
  settled_issued := hc.settled_issued
  accounted j hj := by
    rcases accounted_of_release hc hmine hj with rfl | hheld | hq | hs
    · exact Or.inr (Or.inl (by simp))
    · exact Or.inl hheld
    · exact Or.inr (Or.inl (List.mem_append_left _ hq))
    · exact Or.inr (Or.inr hs)

theorem Exclusive.settle {c : Custody η ι} (hc : c.Exclusive) {h : η} {i : ι}
    (hmine : c.hold h = some i) :
    Exclusive { c with hold := Function.update c.hold h none, settled := c.settled ++ [i] } where
  issued_nodup := hc.issued_nodup
  queue_nodup := hc.queue_nodup
  settled_nodup := by
    rw [List.nodup_append']
    refine ⟨hc.settled_nodup, List.nodup_singleton i, ?_⟩
    intro j hj hj'
    rw [List.mem_singleton] at hj'
    exact hc.hold_settled _ _ hmine (hj' ▸ hj)
  hold_inj a b j ha hb :=
    hc.hold_inj a b j (hold_of_release hc hmine ha).1 (hold_of_release hc hmine hb).1
  hold_queue a j ha := hc.hold_queue a j (hold_of_release hc hmine ha).1
  hold_settled a j ha hs := by
    obtain ⟨ha, hne⟩ := hold_of_release hc hmine ha
    rcases List.mem_append.mp hs with hs | hs
    · exact hc.hold_settled a j ha hs
    · exact hne (List.mem_singleton.mp hs)
  queue_settled j hj hs := by
    rcases List.mem_append.mp hs with hs | hs
    · exact hc.queue_settled j hj hs
    · rw [List.mem_singleton] at hs
      exact hc.hold_queue _ _ hmine (hs ▸ hj)
  hold_issued a j ha := hc.hold_issued a j (hold_of_release hc hmine ha).1
  queue_issued := hc.queue_issued
  settled_issued j hj := by
    rcases List.mem_append.mp hj with hj | hj
    · exact hc.settled_issued j hj
    · rw [List.mem_singleton.mp hj]
      exact hc.hold_issued _ _ hmine
  accounted j hj := by
    rcases accounted_of_release hc hmine hj with rfl | hheld | hq | hs
    · exact Or.inr (Or.inr (by simp))
    · exact Or.inl hheld
    · exact Or.inr (Or.inl hq)
    · exact Or.inr (Or.inr (List.mem_append_left _ hs))

theorem Exclusive.take {c : Custody η ι} (hc : c.Exclusive) {h : η} {i : ι} {rest : List ι}
    (hfree : c.hold h = none) (hqueue : c.queue = i :: rest) :
    Exclusive { c with hold := Function.update c.hold h (some i), queue := rest } := by
  have hi : i ∈ c.queue := by simp [hqueue]
  have hrest : ∀ j ∈ rest, j ∈ c.queue := fun j hj => by simp [hqueue, hj]
  have hnodup : (i :: rest).Nodup := hqueue ▸ hc.queue_nodup
  -- The hand that takes `i` is new to it, and the other hands hold other tokens.
  have hhold : ∀ a j, Function.update c.hold h (some i) a = some j →
      (a = h ∧ j = i) ∨ (c.hold a = some j ∧ j ≠ i) := by
    intro a j ha
    rcases update_eq_some ha with ⟨heq, hj⟩ | ⟨-, ha'⟩
    · cases hj
      exact Or.inl ⟨heq, rfl⟩
    · refine Or.inr ⟨ha', ?_⟩
      rintro rfl
      exact hc.hold_queue _ _ ha' hi
  refine ⟨hc.issued_nodup, hnodup.of_cons, hc.settled_nodup, ?_, ?_, ?_, ?_, ?_, ?_,
    hc.settled_issued, ?_⟩
  · intro a b j ha hb
    rcases hhold a j ha with ⟨rfl, rfl⟩ | ⟨ha, hne⟩ <;>
      rcases hhold b _ hb with ⟨rfl, hj⟩ | ⟨hb, hne'⟩
    · rfl
    · exact absurd rfl hne'
    · exact absurd hj hne
    · exact hc.hold_inj a b j ha hb
  · intro a j ha hq
    rcases hhold a j ha with ⟨-, rfl⟩ | ⟨ha, -⟩
    · exact (List.nodup_cons.mp hnodup).1 hq
    · exact hc.hold_queue a j ha (hrest j hq)
  · intro a j ha
    rcases hhold a j ha with ⟨-, rfl⟩ | ⟨ha, -⟩
    · exact hc.queue_settled j hi
    · exact hc.hold_settled a j ha
  · intro j hj
    exact hc.queue_settled j (hrest j hj)
  · intro a j ha
    rcases hhold a j ha with ⟨-, rfl⟩ | ⟨ha, -⟩
    · exact hc.queue_issued j hi
    · exact hc.hold_issued a j ha
  · intro j hj
    exact hc.queue_issued j (hrest j hj)
  · intro j hj
    rcases hc.accounted j hj with ⟨a, ha⟩ | hq | hs
    · have hne : a ≠ h := by
        rintro rfl
        rw [hfree] at ha
        cases ha
      exact Or.inl ⟨a, (Function.update_of_ne hne ..).trans ha⟩
    · rw [hqueue, List.mem_cons] at hq
      rcases hq with rfl | hq
      · exact Or.inl ⟨h, Function.update_self ..⟩
      · exact Or.inr (Or.inl hq)
    · exact Or.inr (Or.inr hs)

/-- The step lemma: the moves keep every token in exactly one place. -/
theorem Move.exclusive {c c' : Custody η ι} (hm : Move c c') (hc : c.Exclusive) :
    c'.Exclusive := by
  cases hm with
  | stay => exact hc
  | issue h i hfree hnew => exact hc.issue hfree hnew
  | put h i hmine => exact hc.put hmine
  | take h i rest hfree hqueue => exact hc.take hfree hqueue
  | settle h i hmine => exact hc.settle hmine

end Custody

end PionBridge.Lib
