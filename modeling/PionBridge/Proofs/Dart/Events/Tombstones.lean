import PionBridge.Lib.AgingSet
import PionBridge.Proofs.Dart.Events.Dispatcher

/-!
# `PionBridge.Proofs.Dart.Events.Tombstones`: handles that are closed

A handle has a listener, a buffer or a tombstone, and at most one of the three. `listen` takes the
other two away, `unsubscribe` leaves the tombstone alone, and a broadcast makes a buffer where there
is none of the three.

The tombstones are an aging set (`Lib/AgingSet.lean`), so the one of `h` is there until 4096 other
handles got theirs since. A broadcast for `h` changes nothing in the meantime.
-/

set_option autoImplicit false

namespace PionBridge.Dart

open PionBridge.Lib

namespace EventDispatcher

variable {d d' : EventDispatcher} {h : String}

/-! ### The invariant -/

/-- The three tables are disjoint and within their bounds. -/
structure TableInv (d : EventDispatcher) : Prop where
  isOpen : d.closed = false
  listened : ∀ h, d.listeners.Has h → ¬ d.buffered.Has h ∧ h ∉ d.closedHandles
  buffered : ∀ h, d.buffered.Has h → h ∉ d.closedHandles
  bounded : ∀ h l, d.buffered.get h = some l → l.length ≤ maxBufferedPerHandle
  tombs : d.closedHandles.length ≤ maxClosedHandles
  nodup : d.closedHandles.Nodup

theorem tableInv_new : EventDispatcher.new.TableInv := by
  constructor <;> simp [EventDispatcher.new, GoMap.Has]

/-- The controllers are not in the tables. -/
theorem TableInv.withController (hd : d.TableInv) (c : Nat)
    (f : HandleController → HandleController) : (d.withController c f).TableInv :=
  ⟨hd.isOpen, hd.listened, hd.buffered, hd.bounded, hd.tombs, hd.nodup⟩

theorem length_offer {α : Type} {cap : Nat} {l : List α} (hl : l.length ≤ cap) (x : α) :
    (offer cap l x).length ≤ cap := by
  unfold offer
  split
  · rw [List.length_append, List.length_singleton]
    omega
  · exact hl

/-- A broadcast makes or fills a buffer only for a handle without a listener and a tombstone. -/
theorem TableInv.broadcast (hd : d.TableInv) (msg : Event) : (d.broadcast msg).TableInv := by
  unfold EventDispatcher.broadcast
  split
  · exact hd
  · split
    · exact hd
    · rename_i handle _
      split
      · exact hd.withController _ _
      · rename_i hnone
        split
        · exact hd
        · -- The event is buffered: its handle has neither a listener nor a tombstone.
          rename_i halive
          refine ⟨hd.isOpen, fun h hh => ?_, fun h hh => ?_, fun h l hl => ?_, hd.tombs, hd.nodup⟩
          · have hne : h ≠ handle := by
              rintro rfl
              exact hh hnone
            rw [GoMap.Has, GoMap.get_set_of_ne _ _ hne]
            exact hd.listened h hh
          · by_cases heq : h = handle
            · rw [heq]
              exact halive
            · rw [GoMap.Has, GoMap.get_set_of_ne _ _ heq] at hh
              exact hd.buffered h hh
          · by_cases heq : h = handle
            · subst heq
              rw [GoMap.get_set_self, Option.some.injEq] at hl
              subst hl
              refine length_offer ?_ msg
              cases hbuf : d.buffered.get h with
              | none => exact Nat.zero_le _
              | some l => exact hd.bounded h l hbuf
            · rw [GoMap.get_set_of_ne _ _ heq] at hl
              exact hd.bounded h l hl

theorem bounded_delete {m : GoMap String (List Event)}
    (hm : ∀ h l, m.get h = some l → l.length ≤ maxBufferedPerHandle) (a : String) :
    ∀ h l, (m.delete a).get h = some l → l.length ≤ maxBufferedPerHandle := by
  intro h l hl
  rw [GoMap.get_delete] at hl
  split at hl
  · cases hl
  · exact hm h l hl

/-- `listen` takes the buffer and the tombstone of its handle. -/
theorem TableInv.listen (hd : d.TableInv) (handle : String) : (d.listen handle).2.TableInv := by
  obtain ⟨c, -, heq⟩ | ⟨-, heq⟩ := d.listen_eq handle
  · rw [heq]
    exact hd
  · rw [heq]
    refine ⟨hd.isOpen, fun h hh => ?_, fun h hh => ?_, bounded_delete hd.bounded handle, ?_,
      hd.nodup.erase _⟩
    · by_cases hne : h = handle
      · subst hne
        exact ⟨fun hbuf => (GoMap.has_delete.mp hbuf).1 rfl, hd.nodup.not_mem_erase⟩
      · have hold : d.listeners.Has h := by
          rw [GoMap.Has, GoMap.get_set_of_ne _ _ hne] at hh
          exact hh
        obtain ⟨hbuf, hclosed⟩ := hd.listened h hold
        exact ⟨fun hbuf' => hbuf (GoMap.has_delete.mp hbuf').2,
          fun hmem => hclosed (List.mem_of_mem_erase hmem)⟩
    · exact fun hmem => hd.buffered h (GoMap.has_delete.mp hh).2 (List.mem_of_mem_erase hmem)
    · exact (List.length_erase_le).trans hd.tombs

/-- `unsubscribe` takes the listener and the buffer of its handle, and leaves the tombstone. -/
theorem unsubscribe_tables (d : EventDispatcher) (handle : String) :
    (d.unsubscribe handle).closed = d.closed ∧
      (d.unsubscribe handle).buffered = d.buffered.delete handle ∧
      (d.unsubscribe handle).closedHandles = d.tombstone handle ∧
      ∀ h, (d.unsubscribe handle).listeners.Has h ↔ h ≠ handle ∧ d.listeners.Has h := by
  unfold unsubscribe
  dsimp only
  split
  · exact ⟨rfl, rfl, rfl, fun h => GoMap.has_delete⟩
  · rename_i hnone
    refine ⟨rfl, rfl, rfl, fun h => ⟨fun hh => ⟨?_, hh⟩, fun hh => hh.2⟩⟩
    rintro rfl
    exact hh hnone

theorem TableInv.unsubscribe (hd : d.TableInv) (handle : String) :
    (d.unsubscribe handle).TableInv := by
  obtain ⟨hclosed, hbuf, htombs, hlist⟩ := d.unsubscribe_tables handle
  have hmem : ∀ h, h ≠ handle → h ∉ d.closedHandles → h ∉ d.tombstone handle := by
    intro h hne hh hmem
    exact (mem_of_mem_remember hmem).elim hh hne
  refine ⟨hclosed.trans hd.isOpen, fun h hh => ?_, fun h hh => ?_, ?_, ?_, ?_⟩
  · obtain ⟨hne, hold⟩ := (hlist h).mp hh
    obtain ⟨hnobuf, halive⟩ := hd.listened h hold
    rw [hbuf, htombs]
    exact ⟨fun hb => hnobuf (GoMap.has_delete.mp hb).2, hmem h hne halive⟩
  · rw [hbuf] at hh
    rw [htombs]
    obtain ⟨hne, hold⟩ := GoMap.has_delete.mp hh
    exact hmem h hne (hd.buffered h hold)
  · rw [hbuf]
    exact bounded_delete hd.bounded handle
  · rw [htombs]
    exact length_remember hd.tombs handle
  · rw [htombs]
    exact nodup_remember hd.nodup hd.tombs handle

/-- The step lemma. -/
theorem TableInv.call (hd : d.TableInv) (c : DispatcherCall) : (d.call c).TableInv := by
  cases c with
  | broadcast msg => exact hd.broadcast msg
  | listen handle => exact hd.listen handle
  | unsubscribe handle => exact hd.unsubscribe handle

/-- The run lemma. -/
theorem TableInv.calls (hd : d.TableInv) (cs : List DispatcherCall) : (d.calls cs).TableInv := by
  induction cs generalizing d with
  | nil => exact hd
  | cons c cs ih => exact ih (hd.call c)

/-! ### How long a tombstone stays -/

/-- The handle that gets a tombstone in a call. -/
def newlyClosed (d : EventDispatcher) : DispatcherCall → List String
  | .unsubscribe handle => newly d.closedHandles handle
  | _ => []

/-- The handles that get a tombstone in a sequence of calls. -/
def closedIn (d : EventDispatcher) : List DispatcherCall → List String
  | [] => []
  | c :: cs => d.newlyClosed c ++ closedIn (d.call c) cs

/-- A call that does not listen to `h`, while fewer than 4096 others got a tombstone since `h` got
its own. -/
theorem young_call {since : Finset String} (hd : d.TableInv) (hh : Young d.closedHandles h since)
    {c : DispatcherCall} (hc : c ≠ .listen h)
    (hfew : ((since ∪ (d.newlyClosed c).toFinset).erase h).card < maxClosedHandles) :
    Young (d.call c).closedHandles h (since ∪ (d.newlyClosed c).toFinset) := by
  have hempty : since ∪ ([] : List String).toFinset = since := Finset.union_empty since
  cases c with
  | broadcast msg =>
      show Young (d.broadcast msg).closedHandles h (since ∪ ([] : List String).toFinset)
      rw [hempty, (d.broadcast_tables msg).2]
      exact hh
  | listen handle =>
      show Young (d.listen handle).2.closedHandles h (since ∪ ([] : List String).toFinset)
      rw [hempty]
      have hne : handle ≠ h := by
        rintro rfl
        exact hc rfl
      obtain ⟨c, -, heq⟩ | ⟨-, heq⟩ := d.listen_eq handle
      · rw [heq]
        exact hh
      · rw [heq]
        exact hh.erase hne
  | unsubscribe handle =>
      show Young (d.unsubscribe handle).closedHandles h _
      rw [(d.unsubscribe_tables handle).2.2.1, tombstone_eq]
      exact hh.remember hd.nodup hd.tombs hfew

/-- A sequence of such calls. The induction is on the calls, and `since` collects the tombstones. -/
theorem young_calls {since : Finset String} (hd : d.TableInv)
    (hh : Young d.closedHandles h since) {cs : List DispatcherCall}
    (hcs : DispatcherCall.listen h ∉ cs)
    (hfew : ((since ∪ (d.closedIn cs).toFinset).erase h).card < maxClosedHandles) :
    h ∈ (d.calls cs).closedHandles := by
  induction cs generalizing d since with
  | nil => exact hh.mem
  | cons c cs ih =>
      have hsplit : since ∪ (d.closedIn (c :: cs)).toFinset =
          since ∪ (d.newlyClosed c).toFinset ∪ ((d.call c).closedIn cs).toFinset := by
        rw [closedIn, List.toFinset_append, Finset.union_assoc]
      rw [hsplit] at hfew
      have hnow : ((since ∪ (d.newlyClosed c).toFinset).erase h).card < maxClosedHandles :=
        Nat.lt_of_le_of_lt
          (Finset.card_le_card (Finset.erase_subset_erase h Finset.subset_union_left)) hfew
      have hc : c ≠ .listen h := fun heq => hcs (heq ▸ List.mem_cons_self)
      exact ih (hd.call c) (young_call hd hh hc hnow)
        (fun hmem => hcs (List.mem_cons_of_mem _ hmem)) hfew

/-- A broadcast for a handle with a tombstone. -/
theorem broadcast_of_closed (hd : d.TableInv) (hh : h ∈ d.closedHandles) {msg : Event}
    (hmsg : msg.handle = some h) : d.broadcast msg = d := by
  have hnone : d.listeners.get h = none := by
    by_contra hlisten
    exact (hd.listened h hlisten).2 hh
  unfold broadcast
  rw [if_neg (by simp [hd.isOpen]), hmsg]
  simp only [hnone, if_pos hh]

end EventDispatcher

open EventDispatcher

/-- After any sequence of calls, listeners, buffers and tombstones are of different handles, a
buffer has at most 128 events, and there are at most 4096 tombstones. A handle that gets its
tombstone then keeps it through every sequence of calls that do not listen to it and in which fewer
than 4096 other handles get theirs: a broadcast for it changes nothing. -/
theorem dispatcher_drops_late_events (before : List DispatcherCall) :
    (∀ h, (EventDispatcher.new.calls before).listeners.Has h →
      ¬ (EventDispatcher.new.calls before).buffered.Has h ∧
      h ∉ (EventDispatcher.new.calls before).closedHandles) ∧
    (∀ h, (EventDispatcher.new.calls before).buffered.Has h →
      h ∉ (EventDispatcher.new.calls before).closedHandles) ∧
    (∀ h l, (EventDispatcher.new.calls before).buffered.get h = some l → l.length ≤ 128) ∧
    (EventDispatcher.new.calls before).closedHandles.Nodup ∧
    (EventDispatcher.new.calls before).closedHandles.length ≤ 4096 ∧
    ∀ h after msg, h ∉ (EventDispatcher.new.calls before).closedHandles →
      DispatcherCall.listen h ∉ after →
      ((((EventDispatcher.new.calls before).unsubscribe h).closedIn after).toFinset.erase h).card
        < 4096 →
      msg.handle = some h →
      (((EventDispatcher.new.calls before).unsubscribe h).calls after).broadcast msg =
        ((EventDispatcher.new.calls before).unsubscribe h).calls after := by
  have hinv := tableInv_new.calls before
  refine ⟨hinv.listened, hinv.buffered, hinv.bounded, hinv.nodup, hinv.tombs, ?_⟩
  intro h after msg hopen hafter hfew hmsg
  have hunsub := hinv.unsubscribe h
  have hyoung : Young ((EventDispatcher.new.calls before).unsubscribe h).closedHandles h ∅ := by
    rw [((EventDispatcher.new.calls before).unsubscribe_tables h).2.2.1, tombstone_eq]
    exact young_remember (by decide) hopen
  refine broadcast_of_closed (hunsub.calls after) (young_calls hunsub hyoung hafter ?_) hmsg
  rw [Finset.empty_union]
  exact hfew

/-- A straggler for a handle that was closed twice, with another one closed in between. -/
theorem dispatcher_drops_late_events_straggler :
    let d := (EventDispatcher.new.unsubscribe "a").calls [.unsubscribe "b", .unsubscribe "a"]
    d.closedHandles = ["a", "b"] ∧
      d.broadcast ⟨"event:dataChannelMessage", 0, some "a", []⟩ = d := by
  intro d
  refine ⟨rfl, (dispatcher_drops_late_events []).2.2.2.2.2 "a" [.unsubscribe "b", .unsubscribe "a"]
    _ ?_ ?_ ?_ rfl⟩
  · exact List.not_mem_nil
  · simp
  · decide

end PionBridge.Dart
