import Mathlib.Data.Fintype.Card
import PionBridge.Proofs.Bridge.Trace

/-!
# `PionBridge.Proofs.Bridge.Slots`: the slots of `Trace`

`DCIdx` takes a slot from the free list, or the next one, and from the seventeenth on the last
slot, which is shared. `ReleaseDC` puts a slot on the free list unless it is the last one. Both
take any handle at any time.

`SlotInv` is what all sequences of calls keep: every slot under `nextIdx`, the last one apart, is
either free or the slot of one handle. `slot_laws` reads the properties of the allocator off it.
In particular the last slot is handed out only when the other fifteen are in use, so fifteen
handles never share one. `slots_of_traced` carries this to the bridge, where the calls come from
the requests, the senders and the registry.
-/

set_option autoImplicit false

namespace PionBridge.Server

open PionBridge.Lib

namespace PionTrace

variable {t t' : PionTrace} {h h' x : Handle} {idx : Nat}

/-- What `DCIdx` can do: it reads the slot, takes a free one or grows the counter. -/
theorem dcIdx_cases (t : PionTrace) (h : Handle) :
    (∃ idx, t.dcIndex.get h = some idx ∧ t.dcIdx h = (idx, t)) ∨
      t.dcIndex.get h = none ∧
        ((∃ idx free, t.freeIdx = free ++ [idx] ∧
            t.dcIdx h = (idx, { t with freeIdx := free, dcIndex := t.dcIndex.set h idx })) ∨
          t.freeIdx = [] ∧
            t.dcIdx h = (min t.nextIdx 15, { t with
              nextIdx := t.nextIdx + 1, dcIndex := t.dcIndex.set h (min t.nextIdx 15) })) := by
  unfold dcIdx
  cases hget : t.dcIndex.get h with
  | some idx => exact Or.inl ⟨idx, rfl, rfl⟩
  | none =>
      refine Or.inr ⟨rfl, ?_⟩
      cases hlast : t.freeIdx.getLast? with
      | some idx =>
          obtain ⟨free, hfree⟩ := List.getLast?_eq_some_iff.mp hlast
          exact Or.inl ⟨idx, free, hfree, by simp [hfree]⟩
      | none =>
          have hclamp : (if 16 ≤ t.nextIdx then 15 else t.nextIdx) = min t.nextIdx 15 := by
            split <;> omega
          exact Or.inr ⟨List.getLast?_eq_none_iff.mp hlast, by rw [hclamp]⟩

/-- What `ReleaseDC` can do. -/
theorem releaseDC_cases (t : PionTrace) (h : Handle) :
    t.dcIndex.get h = none ∧ t.releaseDC h = t ∨
      ∃ idx, t.dcIndex.get h = some idx ∧ t.releaseDC h = { t with
        dcIndex := t.dcIndex.delete h
        freeIdx := if idx < 15 then t.freeIdx ++ [idx] else t.freeIdx } := by
  unfold releaseDC
  cases hget : t.dcIndex.get h with
  | none => exact Or.inl ⟨rfl, rfl⟩
  | some idx => exact Or.inr ⟨idx, rfl, rfl⟩

/-! ### The invariant -/

/-- Every slot that has been handed out is under the counter. Of these, each one but the last is
in one place: on the free list once, or with one handle. -/
structure SlotInv (t : PionTrace) : Prop where
  bounded : ∀ h idx, t.dcIndex.get h = some idx → idx ≤ 15 ∧ idx < t.nextIdx
  apart : ∀ h h' idx, t.dcIndex.get h = some idx → t.dcIndex.get h' = some idx → idx < 15 → h = h'
  nodup : t.freeIdx.Nodup
  free : ∀ idx ∈ t.freeIdx, idx < 15 ∧ idx < t.nextIdx
  unused : ∀ idx ∈ t.freeIdx, ∀ h, t.dcIndex.get h ≠ some idx
  covered : ∀ idx, idx < 15 → idx < t.nextIdx → idx ∈ t.freeIdx ∨ ∃ h, t.dcIndex.get h = some idx

theorem slotInv_new : SlotInv new where
  bounded h idx hget := by cases (GoMap.get_empty h).symm.trans hget
  apart h h' idx hget := by cases (GoMap.get_empty h).symm.trans hget
  nodup := List.nodup_nil
  free idx hidx := by cases hidx
  unused idx hidx := by cases hidx
  covered idx _ hlt := absurd hlt (Nat.not_lt_zero idx)

/-- The last free slot goes to a handle without one. -/
theorem SlotInv.takeFree (hi : t.SlotInv) {free : List Nat} (hnew : t.dcIndex.get h = none)
    (hfree : t.freeIdx = free ++ [idx]) :
    SlotInv { t with freeIdx := free, dcIndex := t.dcIndex.set h idx } := by
  have hidx : idx ∈ t.freeIdx := by simp [hfree]
  have hnodup : free.Nodup ∧ idx ∉ free := by
    have h := hi.nodup
    rw [hfree, List.nodup_append] at h
    exact ⟨h.1, fun hmem => h.2.2 idx hmem idx (by simp) rfl⟩
  have hmem : ∀ i ∈ free, i ∈ t.freeIdx := fun i hmem => by simp [hfree, hmem]
  constructor
  · intro x i hget
    rw [GoMap.get_set] at hget
    split at hget
    · cases hget
      obtain ⟨hlast, hlt⟩ := hi.free idx hidx
      exact ⟨by omega, hlt⟩
    · exact hi.bounded x i hget
  · -- No other handle has the slot, because it was free.
    intro x y i hx hy hlt
    rw [GoMap.get_set] at hx hy
    split at hx <;> split at hy
    · rename_i hxh hyh
      rw [hxh, hyh]
    · cases hx
      exact absurd hy (hi.unused idx hidx y)
    · cases hy
      exact absurd hx (hi.unused idx hidx x)
    · exact hi.apart x y i hx hy hlt
  · exact hnodup.1
  · exact fun i hi' => hi.free i (hmem i hi')
  · intro i hi' x hget
    rw [GoMap.get_set] at hget
    split at hget
    · cases hget
      exact hnodup.2 hi'
    · exact hi.unused i (hmem i hi') x hget
  · intro i hlast hlt
    by_cases heq : i = idx
    · exact Or.inr ⟨h, by simp [heq]⟩
    · rcases hi.covered i hlast hlt with hin | ⟨x, hx⟩
      · rw [hfree, List.mem_append, List.mem_singleton] at hin
        exact Or.inl (hin.resolve_right heq)
      · refine Or.inr ⟨x, ?_⟩
        rw [GoMap.get_set_of_ne _ _ (by rintro rfl; simp [hnew] at hx)]
        exact hx

/-- The next slot, or the last one, goes to a handle without one. -/
theorem SlotInv.grow (hi : t.SlotInv) (hnew : t.dcIndex.get h = none) (hfree : t.freeIdx = []) :
    SlotInv { t with
      nextIdx := t.nextIdx + 1, dcIndex := t.dcIndex.set h (min t.nextIdx 15) } := by
  constructor
  · intro x i hget
    rw [GoMap.get_set] at hget
    show i ≤ 15 ∧ i < t.nextIdx + 1
    split at hget
    · cases hget
      omega
    · have hold := hi.bounded x i hget
      omega
  · -- Under the last slot the new one is the old counter, which no handle has yet.
    intro x y i hx hy hlt
    rw [GoMap.get_set] at hx hy
    split at hx <;> split at hy
    · rename_i hxh hyh
      rw [hxh, hyh]
    · cases hx
      have hold := hi.bounded y _ hy
      omega
    · cases hy
      have hold := hi.bounded x _ hx
      omega
    · exact hi.apart x y i hx hy hlt
  · exact hi.nodup
  · intro i hmem
    rw [hfree] at hmem
    cases hmem
  · intro i hmem
    rw [hfree] at hmem
    cases hmem
  · intro i hlast hlt
    by_cases heq : i = t.nextIdx
    · refine Or.inr ⟨h, ?_⟩
      show (t.dcIndex.set h (min t.nextIdx 15)).get h = some i
      rw [GoMap.get_set_self]
      congr 1
      omega
    · have hold : i < t.nextIdx := by
        have hlt : i < t.nextIdx + 1 := hlt
        omega
      rcases hi.covered i hlast hold with hin | ⟨x, hx⟩
      · exact Or.inl hin
      · refine Or.inr ⟨x, ?_⟩
        rw [GoMap.get_set_of_ne _ _ (by rintro rfl; simp [hnew] at hx)]
        exact hx

theorem SlotInv.dcIdx (hi : t.SlotInv) (h : Handle) : (t.dcIdx h).2.SlotInv := by
  rcases t.dcIdx_cases h with ⟨idx, -, heq⟩ | ⟨hnew, ⟨idx, free, hfree, heq⟩ | ⟨hfree, heq⟩⟩
  · rw [heq]
    exact hi
  · rw [heq]
    exact hi.takeFree hnew hfree
  · rw [heq]
    exact hi.grow hnew hfree

theorem SlotInv.releaseDC (hi : t.SlotInv) (h : Handle) : (t.releaseDC h).SlotInv := by
  rcases t.releaseDC_cases h with ⟨-, heq⟩ | ⟨idx, hget, heq⟩
  · rw [heq]
    exact hi
  · rw [heq]
    -- The free list after it: the old one, and the slot unless it is the last.
    have hmem : ∀ i, i ∈ (if idx < 15 then t.freeIdx ++ [idx] else t.freeIdx) ↔
        i ∈ t.freeIdx ∨ i = idx ∧ idx < 15 := by
      intro i
      split <;> simp [*]
    have hold : ∀ x i, (t.dcIndex.delete h).get x = some i → x ≠ h ∧ t.dcIndex.get x = some i := by
      intro x i hx
      rw [GoMap.get_delete] at hx
      split at hx
      · cases hx
      · exact ⟨‹_›, hx⟩
    constructor
    · exact fun x i hx => hi.bounded x i (hold x i hx).2
    · exact fun x y i hx hy => hi.apart x y i (hold x i hx).2 (hold y i hy).2
    · show (if idx < 15 then t.freeIdx ++ [idx] else t.freeIdx).Nodup
      split
      · refine List.nodup_append.mpr ⟨hi.nodup, by simp, ?_⟩
        rintro i hin j hj rfl
        rw [List.mem_singleton] at hj
        exact hi.unused i hin h (hj ▸ hget)
      · exact hi.nodup
    · intro i hin
      rcases (hmem i).mp hin with hin | ⟨rfl, hlt⟩
      · exact hi.free i hin
      · exact ⟨hlt, (hi.bounded h i hget).2⟩
    · -- The slot was that of `h` alone.
      intro i hin x hx
      obtain ⟨hne, hheld⟩ := hold x i hx
      rcases (hmem i).mp hin with hin | ⟨rfl, hlt⟩
      · exact hi.unused i hin x hheld
      · exact hne (hi.apart x h i hheld hget hlt)
    · intro i hlast hlt
      rcases hi.covered i hlast hlt with hin | ⟨x, hx⟩
      · exact Or.inl ((hmem i).mpr (Or.inl hin))
      · by_cases hxh : x = h
        · subst hxh
          cases hget.symm.trans hx
          exact Or.inl ((hmem idx).mpr (Or.inr ⟨rfl, hlast⟩))
        · exact Or.inr ⟨x, by rw [GoMap.get_delete_of_ne _ hxh]; exact hx⟩

/-- The step lemma. -/
theorem SlotInv.call (hi : t.SlotInv) (c : TraceCall) : (t.call c).SlotInv := by
  cases c with
  | dcIdx h => exact hi.dcIdx h
  | releaseDC h => exact hi.releaseDC h

/-- The run lemma. -/
theorem slotInv_of_reachable (ht : slotSystem.Reachable t) : t.SlotInv := by
  refine ht.invariant slotInv_new ?_
  intro t c t' _ hi hstep
  cases hstep
  exact hi.call c

/-! ### What a handle sees -/

/-- A call of `DCIdx` returns the slot that the handle has after it. -/
theorem get_dcIdx_self (t : PionTrace) (h : Handle) :
    (t.dcIdx h).2.dcIndex.get h = some (t.dcIdx h).1 := by
  rcases t.dcIdx_cases h with ⟨idx, hget, heq⟩ | ⟨-, ⟨idx, free, -, heq⟩ | ⟨-, heq⟩⟩
  · rw [heq]
    exact hget
  · rw [heq]
    exact GoMap.get_set_self _ _ _
  · rw [heq]
    exact GoMap.get_set_self _ _ _

/-- A call of `DCIdx` leaves every slot where it is. -/
theorem get_dcIdx (hget : t.dcIndex.get h = some idx) (x : Handle) :
    (t.dcIdx x).2.dcIndex.get h = some idx := by
  rcases t.dcIdx_cases x with ⟨i, -, heq⟩ | ⟨hnew, ⟨i, free, -, heq⟩ | ⟨-, heq⟩⟩
  · rw [heq]
    exact hget
  all_goals
    have hne : h ≠ x := by
      rintro rfl
      simp [hnew] at hget
    rw [heq]
    show (t.dcIndex.set x _).get h = some idx
    rw [GoMap.get_set_of_ne _ _ hne, hget]

/-- A release of another handle leaves the slot where it is. -/
theorem get_releaseDC_of_ne (hne : h ≠ x) : (t.releaseDC x).dcIndex.get h = t.dcIndex.get h := by
  rcases t.releaseDC_cases x with ⟨-, heq⟩ | ⟨i, -, heq⟩
  · rw [heq]
  · rw [heq]
    exact GoMap.get_delete_of_ne _ hne

/-- A handle keeps its slot until it is released. -/
theorem get_of_steps (ht : slotSystem.StepsUnder (fun _ c => c ≠ .releaseDC h) t t')
    (hget : t.dcIndex.get h = some idx) : t'.dcIndex.get h = some idx := by
  refine ht.invariant (I := fun u => u.dcIndex.get h = some idx) hget ?_
  intro u c v _ hu hc hstep
  cases hstep
  cases c with
  | dcIdx x => exact get_dcIdx hu x
  | releaseDC x =>
      have hne : h ≠ x := by
        rintro rfl
        exact hc rfl
      exact (get_releaseDC_of_ne hne).trans hu

theorem dcIdx_of_get (hget : t.dcIndex.get h = some idx) : t.dcIdx h = (idx, t) := by
  simp [dcIdx, hget]

/-! ### Fifteen handles -/

/-- While all slots but the last are in use, there are fifteen handles. -/
theorem SlotInv.fifteen_le_live (hi : t.SlotInv) (hfree : t.freeIdx = []) (hnext : 15 ≤ t.nextIdx) :
    15 ≤ t.live := by
  -- Each slot has a handle, and two slots have different ones.
  have hex : ∀ i : Fin 15, ∃ x, t.dcIndex.get x = some i.val := by
    intro i
    rcases hi.covered i i.isLt (by omega) with hin | hx
    · rw [hfree] at hin
      cases hin
    · exact hx
  choose holder hholder using hex
  have hinj : Function.Injective holder := by
    intro i j hij
    have hj := hholder j
    rw [← hij, hholder i] at hj
    exact Fin.ext (Option.some.inj hj)
  have hsub : Finset.univ.map ⟨holder, hinj⟩ ⊆ t.dcIndex.keys := by
    intro x hx
    obtain ⟨i, -, rfl⟩ := Finset.mem_map.mp hx
    refine GoMap.mem_keys_iff.mpr ?_
    simp [GoMap.Has, hholder]
  calc 15 = (Finset.univ.map ⟨holder, hinj⟩).card := by simp
    _ ≤ t.live := Finset.card_le_card hsub

/-- A new handle makes one more. -/
theorem live_set (hnew : t.dcIndex.get h = none) (next : Nat) (free : List Nat) :
    live ⟨t.dcIndex.set h idx, next, free⟩ = t.live + 1 := by
  have hkeys : (t.dcIndex.set h idx).keys = insert h t.dcIndex.keys := by
    ext x
    rw [GoMap.mem_keys_iff, GoMap.has_set, Finset.mem_insert, GoMap.mem_keys_iff]
  have hnot : h ∉ t.dcIndex.keys := fun hmem => GoMap.mem_keys_iff.mp hmem hnew
  show (t.dcIndex.set h idx).keys.card = t.live + 1
  rw [hkeys, Finset.card_insert_of_notMem hnot]
  rfl

/-- With at most fifteen handles at any time the counter does not pass the last slot. -/
theorem nextIdx_le_of_fewLive
    (ht : slotSystem.ReachableUnder (fun t c => (t.call c).live ≤ 15) t) : t.nextIdx ≤ 15 := by
  refine StepSystem.StepsUnder.invariant (I := fun t => t.nextIdx ≤ 15) ht (Nat.zero_le 15) ?_
  intro u c v hu hnext hfew hstep
  cases hstep
  have hi := slotInv_of_reachable (StepSystem.ReachableUnder.reachable hu)
  cases c with
  | releaseDC x =>
      rcases u.releaseDC_cases x with ⟨-, heq⟩ | ⟨i, -, heq⟩
      · exact (congrArg nextIdx heq).trans_le hnext
      · exact (congrArg nextIdx heq).trans_le hnext
  | dcIdx x =>
      rcases u.dcIdx_cases x with ⟨i, -, heq⟩ | ⟨hnew, ⟨i, free, -, heq⟩ | ⟨hfree, heq⟩⟩
      · exact (congrArg (·.2.nextIdx) heq).trans_le hnext
      · exact (congrArg (·.2.nextIdx) heq).trans_le hnext
      · -- The counter grows, so nothing was free: with 15 slots out there were 15 handles before.
        have hlive : (u.call (.dcIdx x)).live = u.live + 1 :=
          (congrArg (·.2.live) heq).trans (live_set hnew _ _)
        have hlt : u.nextIdx < 15 := by
          by_contra hge
          have hmany := hi.fifteen_le_live hfree (by omega)
          omega
        exact (congrArg (·.2.nextIdx) heq).trans_le hlt

/-! ### The allocator -/

/-- What the allocator promises in a state that it has reached. -/
structure SlotLaws (t : PionTrace) : Prop where
  assigned : ∀ h, (t.dcIdx h).1 ≤ 15
  inRange : ∀ h idx, t.dcIndex.get h = some idx → idx ≤ 15
  apart : ∀ h h' idx, t.dcIndex.get h = some idx → t.dcIndex.get h' = some idx → idx < 15 → h = h'
  freeNodup : t.freeIdx.Nodup
  free : ∀ idx ∈ t.freeIdx, idx < 15 ∧ ∀ h, t.dcIndex.get h ≠ some idx
  /-- Other calls come in between, but no release of the handle. -/
  stable : ∀ h t', t.dcIndex.Has h → slotSystem.StepsUnder (fun _ c => c ≠ .releaseDC h) t t' →
    (t'.dcIdx h).1 = (t.dcIdx h).1
  /-- After every call of the run at most 15 handles are live. -/
  alone : slotSystem.ReachableUnder (fun t c => (t.call c).live ≤ 15) t → ∀ h h' idx,
    t.dcIndex.get h = some idx → t.dcIndex.get h' = some idx → h = h'

/-- The allocator keeps its promises in every sequence of calls. -/
theorem slot_laws (t : PionTrace) (ht : slotSystem.Reachable t) : t.SlotLaws := by
  have hi := slotInv_of_reachable ht
  constructor
  · intro h
    exact ((hi.dcIdx h).bounded h _ (t.get_dcIdx_self h)).1
  · intro h idx hget
    exact (hi.bounded h idx hget).1
  · exact hi.apart
  · exact hi.nodup
  · intro idx hidx
    exact ⟨(hi.free idx hidx).1, hi.unused idx hidx⟩
  · intro h t' hhas hsteps
    obtain ⟨idx, hget⟩ := Option.ne_none_iff_exists'.mp hhas
    rw [dcIdx_of_get hget, dcIdx_of_get (get_of_steps hsteps hget)]
  · -- The counter has not passed the last slot, so no handle has it.
    intro hfew h h' idx hget hget'
    have hnext := nextIdx_le_of_fewLive hfew
    have hlt := (hi.bounded h idx hget).2
    exact hi.apart h h' idx hget hget' (by omega)

/-- A slot that was released goes to the next handle. -/
theorem slot_laws_reused :
    ∃ t, slotSystem.Reachable t ∧ t.dcIndex.get "a" = none ∧ t.dcIndex.get "b" = some 1 ∧
      t.dcIndex.get "c" = some 0 ∧ t.SlotLaws := by
  have hrun : slotSystem.run slotSystem.init
      [.dcIdx "a", .dcIdx "b", .releaseDC "a", .dcIdx "c"] = some _ := rfl
  have ht := StepSystem.reachable_of_run hrun
  exact ⟨_, ht, by decide, by decide, by decide, slot_laws _ ht⟩

end PionTrace

namespace TracedBridge

theorem slots_of_foldl_releaseDC {t : PionTrace} (ht : slotSystem.Reachable t) (hs : List Handle) :
    slotSystem.Reachable (hs.foldl PionTrace.releaseDC t) := by
  induction hs generalizing t with
  | nil => exact ht
  | cons h hs ih => exact ih (ht.next (a := .releaseDC h) rfl)

/-- The bridge uses `Trace` through the two calls only. -/
theorem slots_of_traced {env : Platform} {w : TracedBridge} (hw : (tracedSystem env).Reachable w) :
    slotSystem.Reachable w.trace := by
  have hnew : slotSystem.Reachable PionTrace.new := StepSystem.StepsUnder.refl
  refine hw.invariant (I := fun w => slotSystem.Reachable w.trace) hnew ?_
  intro w a w' _ ht hstep
  cases moved hstep with
  | bridge a b _ => exact slots_of_foldl_releaseDC ht _
  | index _ h _ _ _ _ _ htrace =>
      rw [htrace]
      exact ht.next (a := .dcIdx h) rfl
  | quiet _ _ _ _ _ _ _ htrace _ =>
      rw [htrace]
      exact ht

/-- In every run of the bridge two channels that send share the last slot only. -/
theorem traced_slots {env : Platform} {w : TracedBridge} (hw : (tracedSystem env).Reachable w) :
    w.trace.SlotInv :=
  PionTrace.slotInv_of_reachable (slots_of_traced hw)

end TracedBridge

end PionBridge.Server
