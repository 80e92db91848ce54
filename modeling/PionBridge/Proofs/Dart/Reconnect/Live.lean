import PionBridge.Proofs.Dart.Reconnect.Steps

/-!
# `PionBridge.Proofs.Dart.Reconnect.Live`: the sockets of a run

A socket is alive when it is listened to and has not reported its end. Until `close()`, the alive
socket is the current one, and there is none while a chain waits for its timer or for a socket to
open (`OpenInv`). `close()` ends it, and a socket that opens later has been closed before. This
fails only for a first `connect` that is called or still waits after `close()`, and that call throws
(`Sure`).
-/

set_option autoImplicit false

namespace PionBridge.Dart

open PionBridge.Lib

namespace ReconnectingConnection

variable {cfg : ReconnectConfig} {s s' : ReconnectingConnection}

/-- The call of `connect` has no socket that is open yet. -/
def FirstWaits : FirstPc → Prop
  | .idle => True
  | .running (.connecting _) => True
  | _ => False

/-- What holds of the sockets until `close()` is called. -/
structure OpenInv (s : ReconnectingConnection) : Prop where
  waits : FirstWaits s.first → s.timers = [] ∧ s.inFlight = [] ∧ ∀ i, ¬ s.Alive i
  dialFirst : ∀ i, s.first = .running (.connecting i) → s.conn = some i
  dialAgain : ∀ i, .connecting i ∈ s.inFlight → s.conn = some i
  current : ∀ i, s.Alive i → s.conn = some i
  quiet : ∀ i, s.Alive i → s.timers = [] ∧ ∀ j, .connecting j ∉ s.inFlight
  noTeardown : ∀ i, s.first ≠ .running (.closing i) ∧ .closing i ∉ s.inFlight
  noClose : s.closing = 0

/-- The first `connect` has found, or can still find, `_closed` to be false. -/
def Sure (s : ReconnectingConnection) : Prop :=
  s.closed = false ∨ s.first = .returned ∨ s.first = .running .checked

structure LiveInv (s : ReconnectingConnection) : Prop where
  fresh : ∀ i, s.created ≤ i → (s.sockets i).listening = false
  dialed : ∀ i, s.first = .running (.connecting i) ∨ .connecting i ∈ s.inFlight → i < s.created
  isOpen : s.closed = false → s.OpenInv
  dead : s.closed = true → s.Sure → (∀ i, ¬ s.Alive i) ∧
    ∀ i, .connecting i ∈ s.inFlight → (s.sockets i).conn.disconnectHandled = true
  calls : s.Sure → s.stray = 0

theorem alive_withSocket {i j : Nat} {f : WebSocketConnection → WebSocketConnection} :
    (s.withSocket i f).Alive j ↔
      (j = i ∧ (f (s.sockets i)).Alive) ∨ (j ≠ i ∧ s.Alive j) := by
  unfold Alive withSocket
  by_cases hj : j = i
  · subst hj
    simp
  · simp [hj]

theorem alive_disconnect {i j : Nat} {reason : String}
    (h : (s.withSocket i (·.disconnect reason)).Alive j) : j ≠ i ∧ s.Alive j := by
  rcases alive_withSocket.mp h with ⟨-, h⟩ | h
  · exact absurd h (WebSocketConnection.not_alive_disconnect _ _)
  · exact h

theorem alive_close {i j : Nat} (h : (s.withSocket i .close).Alive j) : j ≠ i ∧ s.Alive j := by
  rcases alive_withSocket.mp h with ⟨-, h⟩ | h
  · exact absurd h (WebSocketConnection.not_alive_close _)
  · exact h

theorem listening_withSocket {i j : Nat} {f : WebSocketConnection → WebSocketConnection}
    (hf : ∀ c, (f c).listening = c.listening) :
    ((s.withSocket i f).sockets j).listening = (s.sockets j).listening := by
  unfold withSocket
  by_cases hj : j = i
  · subst hj
    simp [hf]
  · simp [hj]

theorem handled_withSocket {i j : Nat} {f : WebSocketConnection → WebSocketConnection}
    (hf : ∀ c, (f c).conn.disconnectHandled = true)
    (h : (s.sockets j).conn.disconnectHandled = true) :
    ((s.withSocket i f).sockets j).conn.disconnectHandled = true := by
  unfold withSocket
  by_cases hj : j = i
  · subst hj
    simp [hf]
  · simpa [hj] using h

theorem fresh_opened {i : Nat} (hs : s.LiveInv) (hi : i < s.created) (j : Nat)
    (hj : s.created ≤ j) : ((s.withSocket i .opened).sockets j).listening = false := by
  have hne : j ≠ i := by omega
  simpa [withSocket, hne] using hs.fresh j hj

/-- The counters and the record are not about the sockets. -/
theorem LiveInv.record {n k : Nat} {b : Bool} {os : List Outage} (hs : s.LiveInv) :
    { s with attempts := n, reconnecting := b, outages := os, reconnected := k }.LiveInv := by
  refine ⟨hs.fresh, hs.dialed, fun hopen => ?_, hs.dead, hs.calls⟩
  obtain ⟨h1, h2, h3, h4, h5, h6, h7⟩ := hs.isOpen hopen
  exact ⟨h1, h2, h3, h4, h5, h6, h7⟩

/-- `_scheduleReconnect` while no socket is alive. -/
theorem LiveInv.schedule (hs : s.LiveInv)
    (hidle : s.closed = false → ¬ FirstWaits s.first ∧ ∀ i, ¬ s.Alive i) :
    (s.scheduleReconnect cfg).LiveInv := by
  rcases scheduleReconnect_eq cfg s with ⟨m, -, -, heq⟩ | ⟨-, heq⟩
  · rw [heq]
    exact hs.record
  · rw [heq]
    refine ⟨hs.fresh, hs.dialed, fun hopen => ?_, hs.dead, hs.calls⟩
    obtain ⟨hfirst, hnone⟩ := hidle hopen
    obtain ⟨-, h2, h3, h4, -, h6, h7⟩ := hs.isOpen hopen
    exact ⟨fun hw => absurd hw hfirst, h2, h3, h4, fun i hi => absurd hi (hnone i), h6, h7⟩

/-- Before its check, the first `connect` can find `_closed` to be false only while it is. -/
theorem Sure.isOpen {pc : AttemptPc} (h : s.Sure) (hfirst : s.first = .running pc)
    (hpc : pc ≠ .checked) : s.closed = false := by
  rcases h with hopen | hreturned | hchecked
  · exact hopen
  · cases hfirst.symm.trans hreturned
  · cases hfirst.symm.trans hchecked
    exact absurd rfl hpc

theorem LiveInv.connect (hs : s.LiveInv) (hfirst : s.first = .idle) :
    { s with
      conn := some s.created, created := s.created + 1
      first := .running (.connecting s.created) }.LiveInv where
  fresh i hi := hs.fresh i (Nat.le_of_succ_le hi)
  dialed i hi := by
    rcases hi with hi | hi
    · cases hi
      exact Nat.lt_succ_self _
    · exact Nat.lt_succ_of_lt (hs.dialed i (Or.inr hi))
  isOpen hopen := by
    have hs := hs.isOpen hopen
    obtain ⟨htimers, hflight, hnone⟩ := hs.waits (by rw [hfirst]; trivial)
    refine ⟨fun _ => ⟨htimers, hflight, hnone⟩, fun i hi => ?_, fun i hi => ?_,
      fun i hi => absurd hi (hnone i), fun i hi => absurd hi (hnone i),
      fun i => ⟨nofun, (hs.noTeardown i).2⟩, hs.noClose⟩
    · cases hi
      rfl
    · cases hflight ▸ hi
  dead hclosed hsure := by cases hclosed.symm.trans (hsure.isOpen rfl nofun)
  calls hsure := hs.calls (Or.inl (hsure.isOpen rfl nofun))

/-- The first `connect` moves on and does not start to wait for a socket. -/
theorem LiveInv.setFirst {f : FirstPc} (hs : s.LiveInv)
    (hdial : ∀ i, f ≠ .running (.connecting i))
    (hclosing : s.closed = false → ∀ i, f ≠ .running (.closing i))
    (hwaits : FirstWaits f → s.closed = false → FirstWaits s.first)
    (hsure : { s with first := f }.Sure → s.Sure) : { s with first := f }.LiveInv where
  fresh := hs.fresh
  dialed i hi := hs.dialed i (Or.inr (hi.resolve_left (hdial i)))
  isOpen hopen := by
    have hs := hs.isOpen hopen
    exact ⟨fun hw => hs.waits (hwaits hw hopen), fun i hi => absurd hi (hdial i), hs.dialAgain,
      hs.current, hs.quiet, fun i => ⟨hclosing hopen i, (hs.noTeardown i).2⟩, hs.noClose⟩
  dead hclosed h := hs.dead hclosed (hsure h)
  calls h := hs.calls (hsure h)

/-- The socket of the first `connect` opens. -/
theorem LiveInv.openFirst {i : Nat} (hs : s.LiveInv) (hfirst : s.first = .running (.connecting i)) :
    { s.withSocket i .opened with first := .running (.opened i) }.LiveInv where
  fresh := fresh_opened hs (hs.dialed i (Or.inl hfirst))
  dialed j hj := hs.dialed j (Or.inr (hj.resolve_left nofun))
  isOpen hopen := by
    have hs := hs.isOpen hopen
    obtain ⟨htimers, hflight, hnone⟩ := hs.waits (by rw [hfirst]; trivial)
    refine ⟨nofun, nofun, hs.dialAgain, fun j hj => ?_, fun j _ => ⟨htimers, fun k hk => ?_⟩,
      fun j => ⟨nofun, (hs.noTeardown j).2⟩, hs.noClose⟩
    · rcases alive_withSocket.mp hj with ⟨rfl, -⟩ | ⟨-, hj⟩
      · exact hs.dialFirst j hfirst
      · exact absurd hj (hnone j)
    · cases hflight ▸ hk
  dead hclosed hsure := by cases hclosed.symm.trans (hsure.isOpen rfl nofun)
  calls hsure := hs.calls (Or.inl (hsure.isOpen rfl nofun))

/-- `_teardownIfClosed` after `close()`. -/
theorem LiveInv.teardown {i : Nat} (hs : s.LiveInv) (hclosed : s.closed = true) :
    (s.teardown i).LiveInv where
  fresh j hj :=
    (listening_withSocket (f := WebSocketConnection.close) fun _ => rfl).trans (hs.fresh j hj)
  dialed := hs.dialed
  isOpen hopen := by cases hclosed.symm.trans hopen
  dead _ hsure := by
    obtain ⟨hnone, hdial⟩ := hs.dead hclosed hsure
    exact ⟨fun j hj => hnone j (alive_close hj).2,
      fun j hj => handled_withSocket (fun c => c.disconnectHandled_close) (hdial j hj)⟩
  calls := hs.calls

/-- The steps of the first `connect`. -/
theorem LiveInv.first {pc : AttemptPc} {s₁ : ReconnectingConnection} {r : AttemptResult}
    (hs : s.LiveInv) (hfirst : s.first = .running pc) (h : Advanced s pc s₁ r) :
    (s₁.firstResult r).LiveInv := by
  cases h with
  | connectOk i => exact hs.openFirst hfirst
  | connectFail i =>
      refine hs.setFirst nofun (fun _ => nofun) (fun _ _ => by rw [hfirst]; trivial) ?_
      exact fun hsure => hsure.imp_right fun h => by rcases h with h | h <;> cases h
  | teardown i hclosed =>
      refine (hs.teardown hclosed).setFirst nofun (fun hopen => ?_) nofun ?_
      · cases hclosed.symm.trans hopen
      · exact fun hsure => hsure.imp_right fun h => by rcases h with h | h <;> cases h
  | checked i hopen => exact hs.setFirst nofun (fun _ => nofun) nofun fun _ => Or.inl hopen
  | finish =>
      have hdone : { s with first := .returned }.LiveInv :=
        hs.setFirst nofun (fun _ => nofun) nofun fun _ => Or.inr (Or.inr hfirst)
      exact hdone.record
  | tornDown i =>
      refine hs.setFirst nofun (fun _ => nofun) (fun _ hopen => ?_) ?_
      · exact absurd hfirst ((hs.isOpen hopen).noTeardown i).1
      · exact fun hsure => hsure.imp_right fun h => by rcases h with h | h <;> cases h
  | teardownFail i =>
      refine hs.setFirst nofun (fun _ => nofun) (fun _ hopen => ?_) ?_
      · exact absurd hfirst ((hs.isOpen hopen).noTeardown i).1
      · exact fun hsure => hsure.imp_right fun h => by rcases h with h | h <;> cases h

/-- Before `close()`, an attempt in flight or a timer comes after the first `connect` has its
socket. -/
theorem OpenInv.not_waits (hs : s.OpenInv) (h : s.timers ≠ [] ∨ s.inFlight ≠ []) :
    ¬ FirstWaits s.first := by
  intro hw
  obtain ⟨htimers, hflight, -⟩ := hs.waits hw
  exact h.elim (absurd htimers) (absurd hflight)

/-- The attempt in flight moves on or ends. -/
theorem LiveInv.setFlight {pcs : List AttemptPc} (hs : s.LiveInv) (hflight : s.inFlight ≠ [])
    (hdial : ∀ i, .connecting i ∉ pcs) (hclosing : s.closed = false → ∀ i, .closing i ∉ pcs) :
    { s with inFlight := pcs }.LiveInv where
  fresh := hs.fresh
  dialed i hi := hs.dialed i (Or.inl (hi.resolve_right (hdial i)))
  isOpen hopen := by
    have hs := hs.isOpen hopen
    exact ⟨fun hw => absurd hw (hs.not_waits (Or.inr hflight)), hs.dialFirst,
      fun i hi => absurd hi (hdial i), hs.current, fun i hi => ⟨(hs.quiet i hi).1, hdial⟩,
      fun i => ⟨(hs.noTeardown i).1, hclosing hopen i⟩, hs.noClose⟩
  dead hclosed hsure := ⟨(hs.dead hclosed hsure).1, fun i hi => absurd hi (hdial i)⟩
  calls := hs.calls

/-- The socket of an attempt opens. It is the current one, and no other is alive. After `close()`
it has been closed before. -/
theorem LiveInv.openAgain {i : Nat} (hs : s.LiveInv) (hflight : s.inFlight = [.connecting i])
    (htimers : s.timers = []) :
    { s.withSocket i .opened with inFlight := [.opened i] }.LiveInv where
  fresh := fresh_opened hs (hs.dialed i (Or.inr (by simp [hflight])))
  dialed j hj := hs.dialed j (Or.inl (hj.resolve_right (by simp)))
  isOpen hopen := by
    have hs := hs.isOpen hopen
    have hi : .connecting i ∈ s.inFlight := by simp [hflight]
    have hnone : ∀ j, ¬ s.Alive j := fun j hj => (hs.quiet j hj).2 i hi
    refine ⟨fun hw => absurd hw (hs.not_waits (Or.inr (by simp [hflight]))), hs.dialFirst, by simp,
      fun j hj => ?_, fun j _ => ⟨htimers, by simp⟩, fun j => ⟨(hs.noTeardown j).1, by simp⟩,
      hs.noClose⟩
    rcases alive_withSocket.mp hj with ⟨rfl, -⟩ | ⟨-, hj⟩
    · exact hs.dialAgain j hi
    · exact absurd hj (hnone j)
  dead hclosed hsure := by
    obtain ⟨hnone, hdial⟩ := hs.dead hclosed hsure
    refine ⟨fun j hj => ?_, by simp⟩
    rcases alive_withSocket.mp hj with ⟨rfl, -, hopen⟩ | ⟨-, hj⟩
    · cases (hdial j (by simp [hflight])).symm.trans hopen
    · exact hnone j hj
  calls := hs.calls

/-- The steps of an attempt that keep it in flight. -/
theorem LiveInv.attempt {pc pc' : AttemptPc} {s₁ : ReconnectingConnection} (hs : s.LiveInv)
    (hflight : s.inFlight = [pc]) (htimers : s.timers = []) (h : Advanced s pc s₁ (.at pc')) :
    { s₁ with inFlight := [pc'] }.LiveInv := by
  have hne : s.inFlight ≠ [] := by simp [hflight]
  cases h with
  | connectOk i => exact hs.openAgain hflight htimers
  | teardown i hclosed =>
      refine (hs.teardown hclosed).setFlight hne (by simp) fun hopen => ?_
      cases hclosed.symm.trans hopen
  | checked i hopen => exact hs.setFlight hne (by simp) (by simp)

/-- Before `close()`, an attempt that throws was waiting for its socket. -/
theorem OpenInv.none_alive_of_threw {pc : AttemptPc} (hs : s.OpenInv) (hflight : s.inFlight = [pc])
    (hpc : ∃ i, pc = .connecting i ∨ pc = .closing i) (i : Nat) : ¬ s.Alive i := by
  intro hi
  obtain ⟨j, rfl | rfl⟩ := hpc
  · exact (hs.quiet i hi).2 j (by simp [hflight])
  · exact (hs.noTeardown j).2 (by simp [hflight])

theorem LiveInv.threw {pc : AttemptPc} (hs : s.LiveInv) (hflight : s.inFlight = [pc])
    (hpc : ∃ i, pc = .connecting i ∨ pc = .closing i) :
    ({ s with
      inFlight := []
      outages := s.outages.modifyHead fun o =>
        { o with failed := o.failed + 1 } }.scheduleReconnect cfg).LiveInv := by
  have hne : s.inFlight ≠ [] := by simp [hflight]
  have hend : { s with inFlight := [] }.LiveInv := hs.setFlight hne (by simp) (by simp)
  refine hend.record.schedule fun hopen => ?_
  have hs := hs.isOpen hopen
  exact ⟨hs.not_waits (Or.inr hne), hs.none_alive_of_threw hflight hpc⟩

/-- A timer fires before `close()`. -/
theorem LiveInv.timer {d : Int} {os : List Outage} (hs : s.LiveInv) (htimers : s.timers = [d])
    (hopen : s.closed = false) :
    { s with
      timers := [], inFlight := [.connecting s.created]
      conn := some s.created, created := s.created + 1, outages := os }.LiveInv where
  fresh i hi := hs.fresh i (Nat.le_of_succ_le hi)
  dialed i hi := by
    rcases hi with hi | hi
    · exact Nat.lt_succ_of_lt (hs.dialed i (Or.inl hi))
    · cases List.mem_singleton.mp hi
      exact Nat.lt_succ_self _
  isOpen _ := by
    have hs := hs.isOpen hopen
    have hwaits : ¬ FirstWaits s.first := hs.not_waits (Or.inl (by simp [htimers]))
    have hnone : ∀ i, ¬ s.Alive i := by
      intro i hi
      cases htimers.symm.trans (hs.quiet i hi).1
    refine ⟨fun hw => absurd hw hwaits, fun i hi => ?_, fun i hi => ?_,
      fun i hi => absurd hi (hnone i), fun i hi => absurd hi (hnone i),
      fun i => ⟨(hs.noTeardown i).1, by simp⟩, hs.noClose⟩
    · have hi : s.first = .running (.connecting i) := hi
      exact absurd (by rw [hi]; trivial) hwaits
    · cases List.mem_singleton.mp hi
      rfl
  dead hclosed := by cases hopen.symm.trans hclosed
  calls _ := hs.calls (Or.inl hopen)

/-- The alive socket reports its end. -/
theorem LiveInv.disconnect {i : Nat} (hs : s.LiveInv) (reason : String) :
    (s.withSocket i (·.disconnect reason)).LiveInv where
  fresh j hj :=
    (listening_withSocket (f := (·.disconnect reason)) fun _ => rfl).trans (hs.fresh j hj)
  dialed := hs.dialed
  isOpen hopen := by
    have hs := hs.isOpen hopen
    refine ⟨fun hw => ?_, hs.dialFirst, hs.dialAgain,
      fun j hj => hs.current j (alive_disconnect hj).2,
      fun j hj => hs.quiet j (alive_disconnect hj).2, hs.noTeardown, hs.noClose⟩
    obtain ⟨htimers, hflight, hnone⟩ := hs.waits hw
    exact ⟨htimers, hflight, fun j hj => hnone j (alive_disconnect hj).2⟩
  dead hclosed hsure := by
    obtain ⟨hnone, hdial⟩ := hs.dead hclosed hsure
    exact ⟨fun j hj => hnone j (alive_disconnect hj).2,
      fun j hj => handled_withSocket (fun c => c.disconnectHandled_disconnect reason) (hdial j hj)⟩
  calls := hs.calls

/-- Before `close()` no socket is alive after the end of the alive one. -/
theorem OpenInv.none_alive {i : Nat} {reason : String} (hs : s.OpenInv) (halive : s.Alive i)
    (j : Nat) : ¬ (s.withSocket i (·.disconnect reason)).Alive j := by
  intro hj
  obtain ⟨hne, hj⟩ := alive_disconnect hj
  exact hne (Option.some.inj ((hs.current j hj).symm.trans (hs.current i halive)))

/-- `close()` after an earlier call of it, or with the sockets as they are until then. -/
theorem LiveInv.close_of {f : Nat → WebSocketConnection} {n : Nat} (hs : s.LiveInv)
    (hlisten : ∀ j, (f j).listening = (s.sockets j).listening)
    (halive : ∀ j, (f j).Alive → s.Alive j ∧ s.conn ≠ some j)
    (hhandled : ∀ j, (s.sockets j).conn.disconnectHandled = true ∨ s.conn = some j →
      (f j).conn.disconnectHandled = true) :
    { s with closed := true, closing := n, sockets := f }.LiveInv where
  fresh j hj := (hlisten j).trans (hs.fresh j hj)
  dialed := hs.dialed
  isOpen := nofun
  dead _ hsure := by
    have hsure : s.Sure := Or.inr (hsure.resolve_left nofun)
    cases hclosed : s.closed with
    | true =>
        obtain ⟨hnone, hdial⟩ := hs.dead hclosed hsure
        exact ⟨fun j hj => hnone j (halive j hj).1, fun j hj => hhandled j (Or.inl (hdial j hj))⟩
    | false =>
        have hs := hs.isOpen hclosed
        exact ⟨fun j hj => (halive j hj).2 (hs.current j (halive j hj).1),
          fun j hj => hhandled j (Or.inr (hs.dialAgain j hj))⟩
  calls hsure := hs.calls (Or.inr (hsure.resolve_left nofun))

/-- The step lemma of the sockets. -/
theorem LiveInv.step (hs : s.LiveInv) (h : Moved cfg s s') : s'.LiveInv := by
  cases h with
  | connect hfirst => exact hs.connect hfirst
  | first pc s₁ r hfirst hadv => exact hs.first hfirst hadv
  | attemptAt pc pc' s₁ hflight htimers hadv => exact hs.attempt hflight htimers hadv
  | attemptFinished hflight =>
      have hend : { s with inFlight := [] }.LiveInv :=
        hs.setFlight (by simp [hflight]) (by simp) (by simp)
      exact hend.record
  | attemptAborted i hflight => exact hs.setFlight (by simp [hflight]) (by simp) (by simp)
  | attemptThrew pc hflight _ hpc => exact hs.threw hflight hpc
  | timerClosed d _ _ hclosed =>
      refine ⟨hs.fresh, hs.dialed, fun hopen => ?_, hs.dead, hs.calls⟩
      cases hclosed.symm.trans hopen
  | timerFires d htimers _ hopen => exact hs.timer htimers hopen
  | ignored => exact hs
  | disconnectClosed i reason halive hclosed =>
      obtain ⟨h1, h2, -, h4, -⟩ := hs.disconnect (i := i) reason
      refine ⟨h1, h2, fun hopen => ?_, h4, fun hsure => ?_⟩
      · cases hclosed.symm.trans hopen
      · exact absurd halive ((hs.dead hclosed hsure).1 i)
  | disconnectIgnored i reason => exact hs.disconnect reason
  | disconnectStarts i reason halive hopen =>
      refine (hs.record.disconnect reason).schedule fun _ => ?_
      have hs := hs.isOpen hopen
      refine ⟨fun hw => ?_, hs.none_alive halive⟩
      exact (hs.waits hw).2.2 i halive
  | closeShell hconn =>
      refine hs.close_of (fun _ => rfl) (fun j hj => ⟨hj, by simp [hconn]⟩) fun j hj => ?_
      exact hj.resolve_right (by simp [hconn])
  | closeCurrent i hconn =>
      refine hs.close_of (fun j => ?_) (fun j hj => ?_) fun j hj => ?_
      · exact listening_withSocket (f := WebSocketConnection.close) fun _ => rfl
      · obtain ⟨hne, hj⟩ := alive_close (s := s) hj
        refine ⟨hj, fun heq => hne ?_⟩
        exact Option.some.inj (heq.symm.trans hconn)
      · by_cases hji : j = i
        · subst hji
          simpa using (s.sockets j).disconnectHandled_close
        · have hne : s.conn ≠ some j := fun heq => hji (Option.some.inj (heq.symm.trans hconn))
          simpa [hji] using hj.resolve_right hne
  | closeReturn hclosing =>
      refine ⟨hs.fresh, hs.dialed, fun hopen => ?_, hs.dead, hs.calls⟩
      exact absurd (hs.isOpen hopen).noClose (by omega)

/-- The step lemma of the calls of each socket. -/
theorem sound_step (hs : ∀ i, (s.sockets i).Sound) (h : Moved cfg s s') :
    ∀ i, (s'.sockets i).Sound := by
  have hwith : ∀ (i : Nat) (f : WebSocketConnection → WebSocketConnection),
      (f (s.sockets i)).Sound → ∀ j, ((s.withSocket i f).sockets j).Sound := by
    intro i f hf j
    unfold withSocket
    by_cases hj : j = i
    · subst hj
      simpa using hf
    · simpa [hj] using hs j
  have hadvanced : ∀ {pc : AttemptPc} {s₁ : ReconnectingConnection} {r : AttemptResult},
      Advanced s pc s₁ r → ∀ j, (s₁.sockets j).Sound := by
    intro pc s₁ r hadv
    cases hadv with
    | connectOk i => exact hwith i _ (hs i).opened
    | teardown i => exact hwith i _ (hs i).close
    | _ => exact hs
  have hdisconnect : ∀ (i : Nat) (reason : String), s.Alive i →
      ∀ j, ((s.withSocket i (·.disconnect reason)).sockets j).Sound :=
    fun i reason halive => hwith i _ ((hs i).disconnect halive.2 reason)
  have hschedule : ∀ t : ReconnectingConnection, (t.scheduleReconnect cfg).sockets = t.sockets := by
    intro t
    rcases scheduleReconnect_eq cfg t with ⟨m, -, -, heq⟩ | ⟨-, heq⟩ <;> rw [heq]
  cases h with
  | first pc s₁ r _ hadv =>
      have hsockets : (s₁.firstResult r).sockets = s₁.sockets := by cases r <;> rfl
      rw [hsockets]
      exact hadvanced hadv
  | attemptAt pc pc' s₁ _ _ hadv =>
      have hsound := hadvanced hadv
      exact hsound
  | attemptThrew =>
      rw [hschedule]
      exact hs
  | disconnectClosed i reason halive => exact hdisconnect i reason halive
  | disconnectIgnored i reason halive => exact hdisconnect i reason halive
  | disconnectStarts i reason halive =>
      rw [hschedule]
      exact hdisconnect i reason halive
  | closeCurrent i => exact hwith i _ (hs i).close
  | _ => exact hs

end ReconnectingConnection

end PionBridge.Dart
