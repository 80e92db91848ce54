import PionBridge.Proofs.Dart.Reconnect.Backoff
import PionBridge.Proofs.Dart.Reconnect.Outages

/-!
# `PionBridge.Proofs.Dart.Reconnect.Pending`: no reconnect is lost, and none comes after `close()`

Between the opening of its socket and the reset of `_reconnecting`, an attempt passes several
`await`s. A drop of the new socket in between finds `_reconnecting` set and is ignored. The attempt
then clears the guard, and nothing is left that would reconnect. A `close()` that comes after
`_teardownIfClosed` has looked at `_closed` comes too late for the attempt, which goes on to
`onReconnected`.

`Undisturbed` excludes these two orders, and nothing else. Under it, two invariants hold along a
run. After `close()` no attempt has passed its check (`Shut`), which every step keeps. Before it, a
current socket that has reported its end leaves `_reconnecting` set, and with it a timer or an
attempt, or the outage has been given up (`PendingInv`). `lost_and_resurrected` has a run for each
of the two orders.
-/

set_option autoImplicit false

namespace PionBridge.Dart

open PionBridge.Lib

namespace ReconnectingConnection

variable {cfg : ReconnectConfig} {s s' : ReconnectingConnection}

/-- A socket does not drop between its opening and the end of its attempt, and `close()` is not
called between the check of `_closed` and that end. -/
def Undisturbed (s : ReconnectingConnection) : ReconnectAction → Prop
  | .disconnect i _ => s.closed = false → s.Alive i → s.inFlight = []
  | .close => .checked ∉ s.inFlight
  | _ => True

/-- The current socket has reported its end. -/
def Reported (s : ReconnectingConnection) : Prop :=
  ∃ i, s.conn = some i ∧ .notified ∈ (s.sockets i).history

/-- In the last outage, `_scheduleReconnect` has found `maxAttempts` reached and has called
`onDisconnected`. -/
def GaveUp (cfg : ReconnectConfig) (s : ReconnectingConnection) : Prop :=
  ∃ m o, cfg.maxAttempts = some m ∧ s.outages.head? = some o ∧ 0 < o.disconnected

/-! ### After `close()` -/

/-- `close()` was called, and no attempt has passed its check of `_closed`. -/
def Shut (s : ReconnectingConnection) : Prop :=
  s.closed = true ∧ .checked ∉ s.inFlight

theorem scheduleReconnect_rest (cfg : ReconnectConfig) (s : ReconnectingConnection) :
    (s.scheduleReconnect cfg).closed = s.closed ∧
    (s.scheduleReconnect cfg).inFlight = s.inFlight ∧
    (s.scheduleReconnect cfg).reconnected = s.reconnected := by
  rcases scheduleReconnect_eq cfg s with ⟨m, -, -, heq⟩ | ⟨-, heq⟩
  · rw [heq]
    exact ⟨rfl, rfl, rfl⟩
  · rw [heq]
    exact ⟨rfl, rfl, rfl⟩

/-- `_scheduleReconnect` after an attempt has left the list. -/
theorem Shut.threw (hs : s.Shut) (k : Nat) :
    (s.attemptResult cfg k .threw).Shut ∧
      (s.attemptResult cfg k .threw).reconnected = s.reconnected := by
  have hrest := scheduleReconnect_rest cfg ({ s with
    inFlight := s.inFlight.eraseIdx k }.withOutage fun o => { o with failed := o.failed + 1 })
  obtain ⟨hclosed, hflight, hreconnected⟩ := hrest
  refine ⟨⟨hclosed.trans hs.1, fun hmem => ?_⟩, hreconnected⟩
  exact hs.2 (List.mem_of_mem_eraseIdx (hflight ▸ hmem))

/-- The steps of an attempt. None of them reaches the place after the check. -/
theorem Shut.attempt (hs : s.Shut) {k : Nat} {pc : AttemptPc} {s₁ : ReconnectingConnection}
    {r : AttemptResult} (hk : s.inFlight[k]? = some pc) (hadv : Advanced s pc s₁ r) :
    (s₁.attemptResult cfg k r).Shut ∧
      (s₁.attemptResult cfg k r).reconnected = s.reconnected := by
  have hset : ∀ pc', pc' ≠ .checked → .checked ∉ s.inFlight.set k pc' := by
    intro pc' hne hmem
    exact (List.mem_or_eq_of_mem_set hmem).elim hs.2 fun heq => hne heq.symm
  cases hadv with
  | connectOk i => exact ⟨⟨hs.1, hset _ nofun⟩, rfl⟩
  | connectFail i => exact hs.threw k
  | teardown i => exact ⟨⟨hs.1, hset _ nofun⟩, rfl⟩
  -- The check finds `_closed` set from now on.
  | checked i hopen => cases hs.1.symm.trans hopen
  | finish => exact absurd (List.mem_of_getElem? hk) hs.2
  | tornDown i =>
      refine ⟨⟨hs.1, fun hmem => ?_⟩, rfl⟩
      exact hs.2 (List.mem_of_mem_eraseIdx hmem)
  | teardownFail i => exact hs.threw k

/-- The step lemma after `close()`. -/
theorem Shut.step (hs : s.Shut) {a : ReconnectAction} (h : s.step cfg a = some s') :
    s'.Shut ∧ s'.reconnected = s.reconnected := by
  cases a with
  | connect =>
      simp only [ReconnectingConnection.step] at h
      split at h
      · cases h
        exact ⟨hs, rfl⟩
      · cases h
  | first e =>
      simp only [ReconnectingConnection.step] at h
      split at h
      · obtain ⟨⟨s₁, r⟩, hadv, rfl⟩ := Option.map_eq_some_iff.mp h
        cases advanced hadv <;> exact ⟨hs, rfl⟩
      · cases h
  | attempt k e =>
      obtain ⟨pc, hk, hstep⟩ := Option.bind_eq_some_iff.mp h
      obtain ⟨r, hadv, rfl⟩ := Option.map_eq_some_iff.mp hstep
      exact hs.attempt hk (advanced hadv)
  | timer k =>
      simp only [ReconnectingConnection.step] at h
      split at h
      · cases h
        unfold timer
        rw [if_pos (by exact hs.1)]
        exact ⟨hs, rfl⟩
      · cases h
  | disconnect i reason =>
      simp only [ReconnectingConnection.step] at h
      split at h
      · split at h
        · cases h
          exact ⟨hs, rfl⟩
        · cases h
          unfold onDisconnect
          rw [if_pos (by exact Or.inl hs.1)]
          exact ⟨hs, rfl⟩
      · cases h
  | close =>
      cases h
      unfold ReconnectingConnection.close
      dsimp only
      split <;> exact ⟨⟨rfl, hs.2⟩, rfl⟩
  | closeReturn =>
      simp only [ReconnectingConnection.step] at h
      split at h
      · cases h
        exact ⟨hs, rfl⟩
      · cases h

/-- The run lemma after `close()`: `onReconnected` is not called any more. -/
theorem Shut.run (hs : s.Shut) {t : ReconnectingConnection}
    (h : (reconnectSystem cfg).StepsUnder (fun _ _ => True) s t) :
    t.reconnected = s.reconnected := by
  refine (h.invariant (I := fun t => t.Shut ∧ t.reconnected = s.reconnected) ⟨hs, rfl⟩ ?_).2
  intro t a u _ hinv _ hstep
  obtain ⟨hshut, hsame⟩ := hinv.1.step hstep
  exact ⟨hshut, hsame.trans hinv.2⟩

/-! ### Before `close()` -/

/-- What holds until `close()` is called. A new socket has no history, a set `_reconnecting` comes
with a timer or an attempt, the socket of an attempt has not dropped, and a drop of the current
socket is being answered or was the last. -/
structure PendingInv (cfg : ReconnectConfig) (s : ReconnectingConnection) : Prop where
  blank : ∀ i, s.created ≤ i → (s.sockets i).history = []
  busy : s.reconnecting = true → s.timers ≠ [] ∨ s.inFlight ≠ []
  flying : s.inFlight ≠ [] → ¬ s.Reported
  answered : s.Reported → s.reconnecting = true ∨ s.GaveUp cfg

theorem history_opened (s : ReconnectingConnection) (i j : Nat) :
    ((s.withSocket i .opened).sockets j).history = (s.sockets j).history := by
  unfold withSocket
  by_cases hj : j = i
  · subst hj
    simp [WebSocketConnection.opened]
  · simp [hj]

/-- A step that leaves the current socket and the chain alone. -/
theorem PendingInv.same (hs : s.PendingInv cfg) (hcreated : s'.created = s.created)
    (hhistory : ∀ i, (s'.sockets i).history = (s.sockets i).history) (hconn : s'.conn = s.conn)
    (htimers : s'.timers = s.timers) (hflight : s'.inFlight ≠ [] ↔ s.inFlight ≠ [])
    (hguard : s'.reconnecting = s.reconnecting) (houtages : s'.outages = s.outages) :
    s'.PendingInv cfg := by
  have hreported : s'.Reported → s.Reported := by
    rintro ⟨i, hi, hmem⟩
    exact ⟨i, hconn ▸ hi, hhistory i ▸ hmem⟩
  refine ⟨fun i hi => ?_, fun hbusy => ?_, fun hne hrep => ?_, fun hrep => ?_⟩
  · rw [hhistory i]
    exact hs.blank i (hcreated ▸ hi)
  · rw [htimers, hflight]
    exact hs.busy (hguard ▸ hbusy)
  · exact hs.flying (hflight.mp hne) (hreported hrep)
  · unfold GaveUp
    rw [hguard, houtages]
    exact hs.answered (hreported hrep)

/-- A new socket becomes the current one. -/
theorem PendingInv.dial (hs : s.PendingInv cfg) (hsockets : s'.sockets = s.sockets)
    (hcreated : s'.created = s.created + 1) (hconn : s'.conn = some s.created)
    (hbusy : s'.reconnecting = true → s'.timers ≠ [] ∨ s'.inFlight ≠ []) :
    s'.PendingInv cfg := by
  -- The new socket has reported nothing, so there is nothing to answer.
  have hnew : ¬ s'.Reported := by
    rintro ⟨i, hi, hmem⟩
    cases hconn.symm.trans hi
    rw [hsockets, hs.blank s.created (Nat.le_refl _)] at hmem
    cases hmem
  refine ⟨fun i hi => ?_, hbusy, fun _ => hnew, fun hrep => absurd hrep hnew⟩
  rw [hsockets]
  exact hs.blank i (by omega)

/-- `_scheduleReconnect` with nothing in flight: it leaves a timer, or it gives up. -/
theorem PendingInv.schedule {o : Outage} {rest : List Outage}
    (hblank : ∀ i, s.created ≤ i → (s.sockets i).history = []) (hflight : s.inFlight = [])
    (hbusy : s.reconnecting = true) (houtages : s.outages = o :: rest) :
    (s.scheduleReconnect cfg).PendingInv cfg := by
  rcases scheduleReconnect_eq cfg s with ⟨m, hm, -, heq⟩ | ⟨-, heq⟩
  · rw [heq]
    refine ⟨hblank, nofun, fun hne => absurd hflight hne, fun _ => Or.inr ?_⟩
    refine ⟨m, { o with disconnected := o.disconnected + 1 }, hm, ?_, Nat.succ_pos _⟩
    show (s.outages.modifyHead _).head? = _
    rw [houtages, List.modifyHead_cons, List.head?_cons]
  · rw [heq]
    exact ⟨hblank, fun _ => Or.inl (by simp), fun hne => absurd hflight hne, fun _ => Or.inl hbusy⟩

/-- The steps of the first `connect`. -/
theorem PendingInv.first (hs : s.PendingInv cfg) (hopen : s.closed = false) {pc : AttemptPc}
    {s₁ : ReconnectingConnection} {r : AttemptResult} (hadv : Advanced s pc s₁ r) :
    (s₁.firstResult r).PendingInv cfg := by
  cases hadv with
  | connectOk i => exact hs.same rfl (history_opened s i) rfl rfl Iff.rfl rfl rfl
  | teardown i hclosed => cases hopen.symm.trans hclosed
  | _ => exact hs.same rfl (fun _ => rfl) rfl rfl Iff.rfl rfl rfl

/-- The steps of an attempt. -/
theorem PendingInv.attempt (hs : s.PendingInv cfg) (hrec : ReconnectInv cfg s)
    (hopen : s.closed = false) {pc : AttemptPc} {s₁ : ReconnectingConnection} {r : AttemptResult}
    (hflight : s.inFlight = [pc]) (hadv : Advanced s pc s₁ r) :
    (s₁.attemptResult cfg 0 r).PendingInv cfg := by
  have hne : s.inFlight ≠ [] := by simp [hflight]
  have hset : ∀ pc', s.inFlight.set 0 pc' ≠ [] ↔ s.inFlight ≠ [] := by simp [hflight]
  have hclosing := (hrec.live.isOpen hopen).noTeardown
  cases hadv with
  | connectOk i => exact hs.same rfl (history_opened s i) rfl rfl (hset _) rfl rfl
  | connectFail i =>
      have hpos : 0 < s.timers.length + s.inFlight.length := by simp [hflight]
      obtain ⟨o, rest, ho, -⟩ := hrec.outage.chain hpos
      have hhead : s.outages.modifyHead (fun o => { o with failed := o.failed + 1 })
          = { o with failed := o.failed + 1 } :: rest := by rw [ho, List.modifyHead_cons]
      refine PendingInv.schedule hs.blank ?_ (hrec.flight.busy hopen hpos) hhead
      show s.inFlight.eraseIdx 0 = []
      rw [hflight]
      rfl
  | teardown i hclosed => cases hopen.symm.trans hclosed
  | checked i => exact hs.same rfl (fun _ => rfl) rfl rfl (hset _) rfl rfl
  | finish =>
      -- The guard is cleared here, and no drop of the current socket is waiting for it.
      have hquiet : ¬ s.Reported := hs.flying hne
      exact ⟨hs.blank, nofun, fun _ => hquiet, fun hrep => absurd hrep hquiet⟩
  | tornDown i => exact absurd (by simp [hflight]) (hclosing i).2
  | teardownFail i => exact absurd (by simp [hflight]) (hclosing i).2

/-- A drop outside of an attempt starts an outage. -/
theorem PendingInv.disconnect (hs : s.PendingInv cfg) (hauto : cfg.autoReconnect = true)
    (hrec : ReconnectInv cfg s) (hopen : s.closed = false) {i : Nat} (reason : String)
    (halive : s.Alive i) (hflight : s.inFlight = []) :
    ((s.withSocket i (·.disconnect reason)).onDisconnect cfg).PendingInv cfg := by
  -- While a socket is alive no timer runs, so the guard is not set and the drop gets through.
  have htimers : s.timers = [] := ((hrec.live.isOpen hopen).quiet i halive).1
  have hidle : s.reconnecting ≠ true := by
    intro hbusy
    exact (hs.busy hbusy).elim (absurd htimers) (absurd hflight)
  have hblank : ∀ j, s.created ≤ j →
      ((s.withSocket i (·.disconnect reason)).sockets j).history = [] := by
    intro j hj
    have hne : j ≠ i := by
      intro heq
      cases (hrec.live.fresh j hj).symm.trans (heq ▸ halive.1)
    simpa [withSocket, hne] using hs.blank j hj
  unfold onDisconnect
  rw [if_neg (by simp [withSocket, hopen, hauto]), if_neg (by exact hidle)]
  exact PendingInv.schedule hblank hflight rfl rfl

/-- The step lemma before `close()`. -/
theorem PendingInv.step (hs : s.PendingInv cfg) (hauto : cfg.autoReconnect = true)
    (hrec : ReconnectInv cfg s) (hopen : s.closed = false) {a : ReconnectAction}
    (ha : s.Undisturbed a) (h : s.step cfg a = some s') (hopen' : s'.closed = false) :
    s'.PendingInv cfg := by
  cases a with
  | connect =>
      simp only [ReconnectingConnection.step] at h
      split at h
      · cases h
        exact hs.dial rfl rfl rfl hs.busy
      · cases h
  | first e =>
      simp only [ReconnectingConnection.step] at h
      split at h
      · obtain ⟨r, hadv, rfl⟩ := Option.map_eq_some_iff.mp h
        exact hs.first hopen (advanced hadv)
      · cases h
  | attempt k e =>
      obtain ⟨pc, r, hflight, -, hadv, rfl⟩ := attempt_inv hrec.flight.single h
      exact hs.attempt hrec hopen hflight hadv
  | timer k =>
      obtain ⟨d, htimers, hflight, rfl⟩ := timer_inv hrec.flight.single h
      unfold timer
      simp only [hopen, Bool.false_eq_true, if_false]
      exact hs.dial rfl rfl rfl fun _ => Or.inr (by simp [withOutage])
  | disconnect i reason =>
      simp only [ReconnectingConnection.step] at h
      split at h
      · rename_i hlisten
        split at h
        · cases h
          exact hs
        · rename_i hhandled
          cases h
          have halive : s.Alive i := ⟨hlisten, by simpa using hhandled⟩
          -- The condition: no attempt is in flight when a socket drops.
          exact hs.disconnect hauto hrec hopen reason halive (ha hopen halive)
      · cases h
  | close =>
      cases h
      unfold ReconnectingConnection.close at hopen'
      dsimp only at hopen'
      split at hopen' <;> cases hopen'
  | closeReturn =>
      simp only [ReconnectingConnection.step] at h
      split at h
      · rename_i hclosing
        have := (hrec.live.isOpen hopen).noClose
        omega
      · cases h

/-! ### Runs -/

theorem closed_attemptResult (cfg : ReconnectConfig) (s : ReconnectingConnection) (k : Nat)
    (r : AttemptResult) : (s.attemptResult cfg k r).closed = s.closed := by
  cases r with
  | threw => exact (scheduleReconnect_rest cfg _).1
  | _ => rfl

theorem closed_onDisconnect (cfg : ReconnectConfig) (s : ReconnectingConnection) :
    (s.onDisconnect cfg).closed = s.closed := by
  unfold onDisconnect
  split
  · rfl
  · split
    · rfl
    · exact (scheduleReconnect_rest cfg _).1

/-- Only a call of `close()` sets `_closed`. -/
theorem closed_step {a : ReconnectAction} (h : s.step cfg a = some s') :
    a = .close ∨ s'.closed = s.closed := by
  cases a with
  | connect =>
      simp only [ReconnectingConnection.step] at h
      split at h <;> cases h
      exact Or.inr rfl
  | first e =>
      simp only [ReconnectingConnection.step] at h
      split at h
      · obtain ⟨⟨s₁, r⟩, hadv, rfl⟩ := Option.map_eq_some_iff.mp h
        cases advanced hadv <;> exact Or.inr rfl
      · cases h
  | attempt k e =>
      obtain ⟨pc, -, hstep⟩ := Option.bind_eq_some_iff.mp h
      obtain ⟨r, hadv, rfl⟩ := Option.map_eq_some_iff.mp hstep
      exact Or.inr ((closed_attemptResult cfg r.1 k r.2).trans (closed_of_advanced (advanced hadv)))
  | timer k =>
      simp only [ReconnectingConnection.step] at h
      split at h <;> cases h
      unfold timer
      dsimp only
      split <;> exact Or.inr rfl
  | disconnect i reason =>
      simp only [ReconnectingConnection.step] at h
      split at h
      · split at h <;> cases h
        · exact Or.inr rfl
        · exact Or.inr (closed_onDisconnect cfg _)
      · cases h
  | close => exact Or.inl rfl
  | closeReturn =>
      simp only [ReconnectingConnection.step] at h
      split at h <;> cases h
      exact Or.inr rfl

theorem inFlight_close (s : ReconnectingConnection) : s.close.inFlight = s.inFlight := by
  unfold ReconnectingConnection.close
  dsimp only
  split <;> rfl

/-- The run lemma for `close()`. -/
theorem shut_of_reachable (hs : (reconnectSystem cfg).ReachableUnder Undisturbed s)
    (hclosed : s.closed = true) : s.Shut := by
  refine StepSystem.StepsUnder.invariant (I := fun s => s.closed = true → s.Shut) hs nofun ?_
    hclosed
  intro t a u _ hinv ha hstep hu
  cases ht : t.closed with
  | true => exact ((hinv ht).step hstep).1
  | false =>
      obtain rfl | hsame := closed_step hstep
      · -- The condition: `close()` does not come between the check and the end of an attempt.
        cases hstep
        refine ⟨hu, ?_⟩
        rw [inFlight_close]
        exact ha
      · cases (hsame.trans ht).symm.trans hu

/-- The run lemma for the drops. -/
theorem pendingInv_of_reachable (hauto : cfg.autoReconnect = true)
    (hs : (reconnectSystem cfg).ReachableUnder Undisturbed s) (hopen : s.closed = false) :
    s.PendingInv cfg := by
  refine StepSystem.StepsUnder.invariant (I := fun s => s.closed = false → s.PendingInv cfg) hs
    (fun _ => ?_) ?_ hopen
  · have hnone : ¬ new.Reported := by
      rintro ⟨i, hi, -⟩
      cases hi
    exact ⟨fun _ _ => rfl, nofun, fun _ => hnone, fun hrep => absurd hrep hnone⟩
  · intro t a u ht hinv ha hstep hu
    have hrec := reconnectInv_of_reachable hauto (StepSystem.ReachableUnder.reachable ht)
    -- `_closed` is never cleared.
    have hopen : t.closed = false := by
      cases hclosed : t.closed with
      | false => rfl
      | true =>
          have hshut : t.Shut := shut_of_reachable ht hclosed
          cases (hshut.step hstep).1.1.symm.trans hu
    exact (hinv hopen).step hauto hrec hopen ha hstep hu

/-! ### Concrete runs -/

instance (s : ReconnectingConnection) (i : Nat) : Decidable (s.Alive i) :=
  inferInstanceAs (Decidable (_ ∧ _))

instance (s : ReconnectingConnection) (a : ReconnectAction) : Decidable (s.Undisturbed a) :=
  match a with
  | .disconnect i _ => inferInstanceAs (Decidable (s.closed = false → s.Alive i → s.inFlight = []))
  | .close => inferInstanceAs (Decidable (.checked ∉ s.inFlight))
  | .connect | .first _ | .attempt _ _ | .timer _ | .closeReturn =>
    inferInstanceAs (Decidable True)

end ReconnectingConnection

open ReconnectingConnection

/-- In every run in which no socket drops between its opening and the end of its attempt, and no
`close()` falls between the check of `_closed` and that end: `onReconnected` is not called after
`close()`, and until `close()`, with `autoReconnect` on, a current socket that has reported its end
leaves a timer or an attempt, or `onDisconnected` was called because `maxAttempts` was reached. -/
theorem undisturbed_reconnect (cfg : ReconnectConfig) (s : ReconnectingConnection)
    (hs : (reconnectSystem cfg).ReachableUnder Undisturbed s) :
    (s.closed = true → ∀ t, (reconnectSystem cfg).StepsUnder (fun _ _ => True) s t →
      t.reconnected = s.reconnected) ∧
    (cfg.autoReconnect = true → s.closed = false →
      ∀ i, s.conn = some i → .notified ∈ (s.sockets i).history →
        s.timers ≠ [] ∨ s.inFlight ≠ [] ∨
        ∃ m o, cfg.maxAttempts = some m ∧ s.outages.head? = some o ∧ 0 < o.disconnected ∧
          (o.early = false → o.failed = m)) := by
  constructor
  · intro hclosed t ht
    exact (shut_of_reachable hs hclosed).run ht
  · intro hauto hopen i hi hmem
    have hinv := pendingInv_of_reachable hauto hs hopen
    obtain hbusy | ⟨m, o, hm, ho, hcalls⟩ := hinv.answered ⟨i, hi, hmem⟩
    · exact (hinv.busy hbusy).imp_right Or.inl
    · refine Or.inr (Or.inr ⟨m, o, hm, ho, hcalls, fun hearly => ?_⟩)
      have hrec := reconnectInv_of_reachable hauto (StepSystem.ReachableUnder.reachable hs)
      have hbound := (hrec.outage.bound o (List.mem_of_head? ho) hearly).2.2 hcalls
      exact Option.some.inj (hbound.symm.trans hm)

/-- A first `connect`, the drop of its socket, and a reconnect whose socket has opened. -/
def redialed : List ReconnectAction :=
  [.connect, .first .connectOk, .first .resume, .first .finish, .disconnect 0 "WebSocket closed",
    .timer 0, .attempt 0 .connectOk]

/-- The second socket drops when its attempt has ended, and a timer is there. After a `close()` in
that state, no run calls `onReconnected` again. -/
theorem undisturbed_reconnect_again : ∃ s t,
    (reconnectSystem .defaults).ReachableUnder Undisturbed s ∧
    s.conn = some 1 ∧ .notified ∈ (s.sockets 1).history ∧ s.outages.head? = some ⟨false, 0, 0, 0⟩ ∧
    (s.timers ≠ [] ∨ s.inFlight ≠ []) ∧
    (reconnectSystem .defaults).ReachableUnder Undisturbed t ∧ t.closed = true ∧
    t.reconnected = 1 ∧ ∀ u, (reconnectSystem .defaults).StepsUnder (fun _ _ => True) t u →
      u.reconnected = 1 := by
  let sys := reconnectSystem .defaults
  let dropped := sys.runUnder Undisturbed sys.init (redialed ++
    [.attempt 0 .resume, .attempt 0 .finish, .disconnect 1 "WebSocket closed"])
  let closed := dropped.bind fun s => sys.runUnder Undisturbed s [.close]
  have hrun : closed.isSome := by rfl
  obtain ⟨t, ht⟩ := Option.isSome_iff_exists.mp hrun
  obtain ⟨s, hs, hst⟩ := Option.bind_eq_some_iff.mp ht
  have hdropped : dropped.map (fun s => (s.closed, s.conn, (s.sockets 1).history, s.outages.head?))
      = some (false, some 1, [.notified], some ⟨false, 0, 0, 0⟩) := by rfl
  have hclosed : closed.map (fun t => (t.closed, t.reconnected)) = some (true, 1) := by rfl
  simp only [hs, Option.map_some, Option.some.injEq, Prod.mk.injEq] at hdropped
  simp only [ht, Option.map_some, Option.some.injEq, Prod.mk.injEq] at hclosed
  obtain ⟨hopen, hconn, hhistory, hhead⟩ := hdropped
  have hnotified : .notified ∈ (s.sockets 1).history := by simp [hhistory]
  have hreach : sys.ReachableUnder Undisturbed s := StepSystem.steps_of_runUnder hs
  have hreach' : sys.ReachableUnder Undisturbed t :=
    StepSystem.StepsUnder.trans hreach (StepSystem.steps_of_runUnder hst)
  refine ⟨s, t, hreach, hconn, hnotified, hhead, ?_, hreach', hclosed.1, hclosed.2, fun u hu => ?_⟩
  · obtain htimers | hflight | ⟨m, o, hm, -⟩ :=
      (undisturbed_reconnect .defaults s hreach).2 rfl hopen 1 hconn hnotified
    · exact Or.inl htimers
    · exact Or.inr hflight
    · cases hm
  · exact ((undisturbed_reconnect .defaults t hreach').1 hclosed.1 u hu).trans hclosed.2

/-- The second socket drops before its attempt has looked at `_closed`, and after the attempt
nothing is left that would reconnect. In another run `close()` is called after the attempt has
looked, and `onReconnected` is called after it. -/
theorem lost_and_resurrected :
    (∃ s, (reconnectSystem .defaults).Reachable s ∧ s.closed = false ∧ s.first = .returned ∧
      s.conn = some 1 ∧ (s.sockets 1).history = [.notified] ∧ s.timers = [] ∧ s.inFlight = [] ∧
      s.outages = [⟨false, 1, 0, 0⟩]) ∧
    ∃ s t, (reconnectSystem .defaults).Reachable s ∧ s.closed = true ∧ s.reconnected = 0 ∧
      s.step .defaults (.attempt 0 .finish) = some t ∧ t.reconnected = 1 := by
  let sys := reconnectSystem .defaults
  constructor
  · let lost := sys.run sys.init (redialed ++
      [.disconnect 1 "WebSocket closed", .attempt 0 .resume, .attempt 0 .finish])
    have hrun : lost.isSome := by rfl
    obtain ⟨s, hs⟩ := Option.isSome_iff_exists.mp hrun
    have hfacts : lost.map (fun s => (s.closed, s.first, s.conn, (s.sockets 1).history, s.timers,
        s.inFlight, s.outages))
        = some (false, .returned, some 1, [.notified], [], [], [⟨false, 1, 0, 0⟩]) := by rfl
    simp only [hs, Option.map_some, Option.some.injEq, Prod.mk.injEq] at hfacts
    exact ⟨s, StepSystem.reachable_of_run hs, hfacts⟩
  · let closed := sys.run sys.init (redialed ++ [.attempt 0 .resume, .close])
    let after := closed.bind fun s => s.step .defaults (.attempt 0 .finish)
    have hrun : after.isSome := by rfl
    obtain ⟨t, ht⟩ := Option.isSome_iff_exists.mp hrun
    obtain ⟨s, hs, hstep⟩ := Option.bind_eq_some_iff.mp ht
    have hbefore : closed.map (fun s => (s.closed, s.reconnected)) = some (true, 0) := by rfl
    have hcalled : after.map (·.reconnected) = some 1 := by rfl
    simp only [hs, Option.map_some, Option.some.injEq, Prod.mk.injEq] at hbefore
    simp only [ht, Option.map_some, Option.some.injEq] at hcalled
    exact ⟨s, t, StepSystem.reachable_of_run hs, hbefore.1, hbefore.2, hstep, hcalled⟩

end PionBridge.Dart
