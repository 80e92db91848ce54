import PionBridge.Dart.Reconnect

/-!
# `PionBridge.Proofs.Dart.Reconnect.Steps`: the steps, and one chain at a time

`Moved` says what a step can do. It assumes that at most one timer or attempt is there, which is the
first part of `FlightInv`, the single-flight guard: a scheduled timer or an attempt in flight is the
only one, and unless `close()` was called, `_reconnecting` is set as long as there is one.
-/

set_option autoImplicit false

namespace PionBridge.Dart

open PionBridge.Lib

/-! ### Sockets -/

theorem BridgeConnection.disconnectHandled_failPending (c : BridgeConnection) (reason : String) :
    (c.failPending reason).disconnectHandled = c.disconnectHandled := by
  have hfold : ∀ (ids : List Int) (c : BridgeConnection),
      (ids.foldl (fun c id => c.settle id (connectionLost reason)) c).disconnectHandled
        = c.disconnectHandled := by
    intro ids
    induction ids with
    | nil => exact fun _ => rfl
    | cons id ids ih =>
        intro c
        rw [List.foldl_cons, ih]
        unfold BridgeConnection.settle
        split <;> rfl
  exact hfold _ _

namespace WebSocketConnection

/-- Listened to, and the end has not been reported. -/
def Alive (c : WebSocketConnection) : Prop :=
  c.listening = true ∧ c.conn.disconnectHandled = false

theorem disconnectHandled_close (c : WebSocketConnection) :
    c.close.conn.disconnectHandled = true :=
  BridgeConnection.disconnectHandled_failPending _ _

theorem disconnectHandled_disconnect (c : WebSocketConnection) (reason : String) :
    (c.disconnect reason).conn.disconnectHandled = true := by
  show (c.conn.handleDisconnect reason).disconnectHandled = true
  unfold BridgeConnection.handleDisconnect
  split
  · assumption
  · exact BridgeConnection.disconnectHandled_failPending _ _

theorem not_alive_close (c : WebSocketConnection) : ¬ c.close.Alive := by
  rintro ⟨-, hopen⟩
  cases c.disconnectHandled_close.symm.trans hopen

theorem not_alive_disconnect (c : WebSocketConnection) (reason : String) :
    ¬ (c.disconnect reason).Alive := by
  rintro ⟨-, hopen⟩
  cases (c.disconnectHandled_disconnect reason).symm.trans hopen

/-- `onDisconnect` was called at most once and not after `close()`, and before either of the two
`_disconnectHandled` is false. -/
structure Sound (c : WebSocketConnection) : Prop where
  unhandled : c.conn.disconnectHandled = false → c.history = []
  once : c.history.count .notified ≤ 1
  order : c.history.Pairwise fun a b => ¬ (a = .closed ∧ b = .notified)

theorem Sound.opened {c : WebSocketConnection} (h : c.Sound) : c.opened.Sound :=
  ⟨h.unhandled, h.once, h.order⟩

theorem Sound.close {c : WebSocketConnection} (h : c.Sound) : c.close.Sound where
  unhandled hopen := by cases c.disconnectHandled_close.symm.trans hopen
  once := by
    show (c.history ++ [SocketEvent.closed]).count .notified ≤ 1
    rw [List.count_append]
    exact h.once
  order := by
    refine List.pairwise_append.mpr ⟨h.order, List.pairwise_singleton _ _, ?_⟩
    intro a _ b hb hab
    rw [List.mem_singleton.mp hb] at hab
    cases hab.2

theorem Sound.disconnect {c : WebSocketConnection} (h : c.Sound)
    (hopen : c.conn.disconnectHandled = false) (reason : String) :
    (c.disconnect reason).Sound where
  unhandled hopen' := by cases (c.disconnectHandled_disconnect reason).symm.trans hopen'
  once := by
    show (c.history ++ [SocketEvent.notified]).count .notified ≤ 1
    rw [h.unhandled hopen]
    decide
  order := by
    show (c.history ++ [SocketEvent.notified]).Pairwise _
    rw [h.unhandled hopen]
    exact List.pairwise_singleton _ _

end WebSocketConnection

namespace ReconnectingConnection

variable {cfg : ReconnectConfig} {s s' : ReconnectingConnection}

def Alive (s : ReconnectingConnection) (i : Nat) : Prop := (s.sockets i).Alive

/-! ### What a step does -/

/-- What a step of an attempt does to the rest of the state. -/
inductive Advanced (s : ReconnectingConnection) :
    AttemptPc → ReconnectingConnection → AttemptResult → Prop
  | connectOk (i : Nat) :
      Advanced s (.connecting i) (s.withSocket i .opened) (.at (.opened i))
  | connectFail (i : Nat) : Advanced s (.connecting i) s .threw
  | teardown (i : Nat) (hclosed : s.closed = true) :
      Advanced s (.opened i) (s.teardown i) (.at (.closing i))
  | checked (i : Nat) (hopen : s.closed = false) : Advanced s (.opened i) s (.at .checked)
  | finish : Advanced s .checked s .finished
  | tornDown (i : Nat) : Advanced s (.closing i) s .aborted
  | teardownFail (i : Nat) : Advanced s (.closing i) s .threw

theorem advanced {pc : AttemptPc} {e : AttemptStep} {r : ReconnectingConnection × AttemptResult}
    (h : s.advance pc e = some r) : Advanced s pc r.1 r.2 := by
  unfold advance at h
  split at h
  · cases h
    exact .connectOk _
  · cases h
    exact .connectFail _
  · split at h
    · rename_i hclosed
      cases h
      exact .teardown _ hclosed
    · rename_i hopen
      cases h
      exact .checked _ (by simpa using hopen)
  · cases h
    exact .finish
  · cases h
    exact .tornDown _
  · cases h
    exact .teardownFail _
  · cases h

theorem closed_of_advanced {pc : AttemptPc} {s₁ : ReconnectingConnection} {r : AttemptResult}
    (h : Advanced s pc s₁ r) : s₁.closed = s.closed := by
  cases h <;> rfl

theorem chain_of_advanced {pc : AttemptPc} {s₁ : ReconnectingConnection} {r : AttemptResult}
    (h : Advanced s pc s₁ r) : s₁.timers = s.timers ∧ s₁.inFlight = s.inFlight := by
  cases h <;> exact ⟨rfl, rfl⟩

theorem reconnecting_of_advanced {pc : AttemptPc} {s₁ : ReconnectingConnection}
    {r : AttemptResult} (h : Advanced s pc s₁ r) (hopen : s.closed = false) :
    s₁.reconnecting = s.reconnecting := by
  cases h with
  | teardown i hclosed =>
      rw [hopen] at hclosed
      cases hclosed
  | _ => rfl

/-- What a step can do, with at most one timer or attempt in flight. -/
inductive Moved (cfg : ReconnectConfig) (s : ReconnectingConnection) :
    ReconnectingConnection → Prop
  | connect (hfirst : s.first = .idle) :
      Moved cfg s { s with
        conn := some s.created, created := s.created + 1
        first := .running (.connecting s.created) }
  | first (pc : AttemptPc) (s₁ : ReconnectingConnection) (r : AttemptResult)
      (hfirst : s.first = .running pc) (hadv : Advanced s pc s₁ r) :
      Moved cfg s (s₁.firstResult r)
  | attemptAt (pc pc' : AttemptPc) (s₁ : ReconnectingConnection)
      (hflight : s.inFlight = [pc]) (htimers : s.timers = []) (hadv : Advanced s pc s₁ (.at pc')) :
      Moved cfg s { s₁ with inFlight := [pc'] }
  | attemptFinished (hflight : s.inFlight = [.checked]) (htimers : s.timers = []) :
      Moved cfg s { s with
        inFlight := [], attempts := 0, reconnecting := false, reconnected := s.reconnected + 1 }
  | attemptAborted (i : Nat) (hflight : s.inFlight = [.closing i]) (htimers : s.timers = []) :
      Moved cfg s { s with inFlight := [] }
  | attemptThrew (pc : AttemptPc) (hflight : s.inFlight = [pc]) (htimers : s.timers = [])
      (hpc : ∃ i, pc = .connecting i ∨ pc = .closing i) :
      Moved cfg s ({ s with
        inFlight := []
        outages := s.outages.modifyHead fun o =>
          { o with failed := o.failed + 1 } }.scheduleReconnect cfg)
  | timerClosed (d : Int) (htimers : s.timers = [d]) (hflight : s.inFlight = [])
      (hclosed : s.closed = true) :
      Moved cfg s { s with timers := [], reconnecting := false }
  | timerFires (d : Int) (htimers : s.timers = [d]) (hflight : s.inFlight = [])
      (hopen : s.closed = false) :
      Moved cfg s { s with
        timers := [], inFlight := [.connecting s.created]
        conn := some s.created, created := s.created + 1
        outages := s.outages.modifyHead fun o => { o with attempts := o.attempts + 1 } }
  | ignored : Moved cfg s s
  | disconnectClosed (i : Nat) (reason : String) (halive : s.Alive i) (hclosed : s.closed = true) :
      Moved cfg s ({ s with stray := s.stray + 1 }.withSocket i (·.disconnect reason))
  | disconnectIgnored (i : Nat) (reason : String) (halive : s.Alive i) (hopen : s.closed = false) :
      Moved cfg s (s.withSocket i (·.disconnect reason))
  | disconnectStarts (i : Nat) (reason : String) (halive : s.Alive i) (hopen : s.closed = false)
      (hidle : s.reconnecting = false) :
      Moved cfg s (({ s with
        reconnecting := true
        outages := ⟨decide (s.first ≠ FirstPc.returned), 0, 0, 0⟩ :: s.outages }.withSocket i
          (·.disconnect reason)).scheduleReconnect cfg)
  | closeShell (hconn : s.conn = none) :
      Moved cfg s { s with closed := true, closing := s.closing + 1 }
  | closeCurrent (i : Nat) (hconn : s.conn = some i) :
      Moved cfg s ({ s with closed := true, closing := s.closing + 1 }.withSocket i .close)
  | closeReturn (hclosing : 0 < s.closing) :
      Moved cfg s { s with closing := s.closing - 1, conn := none }

theorem moved_disconnect {i : Nat} (hauto : cfg.autoReconnect = true) (reason : String)
    (halive : s.Alive i) :
    Moved cfg s ((s.withSocket i (·.disconnect reason)).onDisconnect cfg) := by
  unfold onDisconnect
  cases hclosed : s.closed with
  | true =>
      rw [if_pos (by simp [withSocket, hclosed])]
      exact .disconnectClosed i reason halive hclosed
  | false =>
      rw [if_neg (by simp [hauto, withSocket, hclosed])]
      split
      · exact .disconnectIgnored i reason halive hclosed
      · rename_i hidle
        exact .disconnectStarts i reason halive hclosed (by simpa [withSocket] using hidle)

theorem moved_attempt {pc : AttemptPc} {r : ReconnectingConnection × AttemptResult}
    (hflight : s.inFlight = [pc]) (htimers : s.timers = []) (hadv : Advanced s pc r.1 r.2) :
    Moved cfg s (r.1.attemptResult cfg 0 r.2) := by
  obtain ⟨s₁, res⟩ := r
  have hkeeps : s₁.inFlight = [pc] := (chain_of_advanced hadv).2.trans hflight
  have herase : s₁.inFlight.eraseIdx 0 = [] := by rw [hkeeps]; rfl
  cases res with
  | «at» pc' =>
      have hset : s₁.inFlight.set 0 pc' = [pc'] := by rw [hkeeps]; rfl
      show Moved cfg s { s₁ with inFlight := s₁.inFlight.set 0 pc' }
      rw [hset]
      exact .attemptAt pc pc' s₁ hflight htimers hadv
  | finished =>
      simp only [attemptResult, herase]
      cases hadv
      exact .attemptFinished hflight htimers
  | aborted =>
      simp only [attemptResult, herase]
      cases hadv
      exact .attemptAborted _ hflight htimers
  | threw =>
      simp only [attemptResult, herase, withOutage]
      cases hadv with
      | connectFail i => exact .attemptThrew _ hflight htimers ⟨i, Or.inl rfl⟩
      | teardownFail i => exact .attemptThrew _ hflight htimers ⟨i, Or.inr rfl⟩

/-- A step of an attempt is one of the only attempt. -/
theorem attempt_inv {k : Nat} {e : AttemptStep}
    (hsingle : s.timers.length + s.inFlight.length ≤ 1)
    (h : s.step cfg (.attempt k e) = some s') :
    ∃ (pc : AttemptPc) (r : ReconnectingConnection × AttemptResult), s.inFlight = [pc] ∧
      s.timers = [] ∧ Advanced s pc r.1 r.2 ∧ s' = r.1.attemptResult cfg 0 r.2 := by
  obtain ⟨pc, hk, hstep⟩ := Option.bind_eq_some_iff.mp h
  obtain ⟨r, hadv, rfl⟩ := Option.map_eq_some_iff.mp hstep
  obtain ⟨hlt, -⟩ := List.getElem?_eq_some_iff.mp hk
  -- The attempt is the only thing in flight.
  have hzero : k = 0 := by omega
  subst hzero
  have htimers : s.timers = [] := List.length_eq_zero_iff.mp (by omega)
  obtain ⟨pc', hpc'⟩ := List.length_eq_one_iff.mp (show s.inFlight.length = 1 by omega)
  rw [hpc'] at hk
  cases hk
  exact ⟨pc, r, hpc', htimers, advanced hadv, rfl⟩

/-- A timer that fires is the only one. -/
theorem timer_inv {k : Nat} (hsingle : s.timers.length + s.inFlight.length ≤ 1)
    (h : s.step cfg (.timer k) = some s') :
    ∃ d, s.timers = [d] ∧ s.inFlight = [] ∧ s' = s.timer 0 := by
  simp only [step] at h
  split at h
  · rename_i hlt
    cases h
    have hzero : k = 0 := by omega
    subst hzero
    have hflight : s.inFlight = [] := List.length_eq_zero_iff.mp (by omega)
    obtain ⟨d, hd⟩ := List.length_eq_one_iff.mp (show s.timers.length = 1 by omega)
    exact ⟨d, hd, hflight, rfl⟩
  · cases h

/-- Every step is in the list while there is one chain at most. -/
theorem moved {a : ReconnectAction} (hauto : cfg.autoReconnect = true)
    (hsingle : s.timers.length + s.inFlight.length ≤ 1)
    (h : s.step cfg a = some s') : Moved cfg s s' := by
  cases a with
  | connect =>
      simp only [step] at h
      split at h
      · rename_i hfirst
        cases h
        exact .connect hfirst
      · cases h
  | first e =>
      simp only [step] at h
      split at h
      · rename_i pc hfirst
        obtain ⟨r, hadv, rfl⟩ := Option.map_eq_some_iff.mp h
        exact .first pc r.1 r.2 hfirst (advanced hadv)
      · cases h
  | attempt k e =>
      obtain ⟨pc, r, hflight, htimers, hadv, rfl⟩ := attempt_inv hsingle h
      exact moved_attempt hflight htimers hadv
  | timer k =>
      obtain ⟨d, hd, hflight, rfl⟩ := timer_inv hsingle h
      have herase : s.timers.eraseIdx 0 = [] := by rw [hd]; rfl
      unfold timer
      simp only [herase]
      split
      · rename_i hclosed
        exact .timerClosed d hd hflight hclosed
      · rename_i hopen
        simp only [withOutage, connectOnce, hflight]
        exact .timerFires d hd hflight (by simpa using hopen)
  | disconnect i reason =>
      simp only [step] at h
      split at h
      · rename_i hlisten
        split at h
        · cases h
          exact .ignored
        · rename_i hopen
          cases h
          exact moved_disconnect hauto reason ⟨hlisten, by simpa using hopen⟩
      · cases h
  | close =>
      cases h
      unfold ReconnectingConnection.close
      dsimp only
      split
      · rename_i i hconn
        exact .closeCurrent i hconn
      · rename_i hconn
        exact .closeShell hconn
  | closeReturn =>
      simp only [step] at h
      split at h
      · rename_i hclosing
        cases h
        exact .closeReturn hclosing
      · cases h

/-- `_scheduleReconnect` gives up, or it schedules a timer. -/
theorem scheduleReconnect_eq (cfg : ReconnectConfig) (s : ReconnectingConnection) :
    (∃ m, cfg.maxAttempts = some m ∧ m ≤ s.attempts ∧ s.scheduleReconnect cfg =
      { s with
        reconnecting := false
        outages := s.outages.modifyHead fun o => { o with disconnected := o.disconnected + 1 } }) ∨
    ((∀ m, cfg.maxAttempts = some m → s.attempts < m) ∧ s.scheduleReconnect cfg =
      { s with
        attempts := s.attempts + 1
        timers := s.timers ++ [cfg.backoffDelay s.attempts] }) := by
  unfold scheduleReconnect
  cases hmax : cfg.maxAttempts with
  | none => exact Or.inr ⟨by simp, by simp⟩
  | some m =>
      by_cases hle : m ≤ s.attempts
      · exact Or.inl ⟨m, rfl, hle, by simp [hle, withOutage]⟩
      · refine Or.inr ⟨fun m' hm' => ?_, by simp [hle]⟩
        cases hm'
        omega

/-! ### The guard -/

/-- One timer or attempt at most, and `_reconnecting` is set while there is one. -/
structure FlightInv (s : ReconnectingConnection) : Prop where
  single : s.timers.length + s.inFlight.length ≤ 1
  busy : s.closed = false → 0 < s.timers.length + s.inFlight.length → s.reconnecting = true

theorem FlightInv.idle (hs : s.FlightInv) (hopen : s.closed = false)
    (hidle : s.reconnecting = false) : s.timers = [] ∧ s.inFlight = [] := by
  have hempty : s.timers.length + s.inFlight.length = 0 := by
    by_contra hne
    cases hidle.symm.trans (hs.busy hopen (by omega))
  exact ⟨List.length_eq_zero_iff.mp (by omega), List.length_eq_zero_iff.mp (by omega)⟩

/-- A step that leaves the chain alone. -/
theorem FlightInv.same (hs : s.FlightInv) (h1 : s'.timers = s.timers)
    (h2 : s'.inFlight.length = s.inFlight.length)
    (h3 : s'.closed = false → s.closed = false ∧ s'.reconnecting = s.reconnecting) :
    s'.FlightInv where
  single := by
    rw [h1, h2]
    exact hs.single
  busy hopen := by
    rw [h1, h2, (h3 hopen).2]
    exact hs.busy (h3 hopen).1

/-- With nothing in flight. -/
theorem flightInv_of_empty (h1 : s.timers = []) (h2 : s.inFlight = []) : s.FlightInv where
  single := by
    rw [h1, h2]
    exact Nat.zero_le _
  busy _ hpos := by
    rw [h1, h2] at hpos
    cases hpos

/-- `_scheduleReconnect` in a state with nothing in flight. -/
theorem FlightInv.schedule (h1 : s.timers = []) (h2 : s.inFlight = [])
    (h3 : s.closed = false → s.reconnecting = true) : (s.scheduleReconnect cfg).FlightInv := by
  rcases scheduleReconnect_eq cfg s with ⟨m, -, -, heq⟩ | ⟨-, heq⟩
  · rw [heq]
    exact flightInv_of_empty h1 h2
  · rw [heq]
    refine ⟨?_, fun hopen _ => h3 hopen⟩
    show (s.timers ++ _).length + s.inFlight.length ≤ 1
    rw [h1, h2]
    exact Nat.le_refl 1

/-- The step lemma of the guard. -/
theorem FlightInv.step (hs : s.FlightInv) (h : Moved cfg s s') : s'.FlightInv := by
  cases h with
  | connect => exact hs.same rfl rfl fun hopen => ⟨hopen, rfl⟩
  | first pc s₁ r _ hadv =>
      obtain ⟨htimers, hflight⟩ := chain_of_advanced hadv
      have hclosed := closed_of_advanced hadv
      have hsame : s₁.FlightInv := hs.same htimers (by rw [hflight]) fun hopen =>
        ⟨hclosed ▸ hopen, reconnecting_of_advanced hadv (hclosed ▸ hopen)⟩
      cases r <;> exact hsame.same rfl rfl fun hopen => ⟨hopen, rfl⟩
  | attemptAt pc pc' s₁ hflight htimers hadv =>
      have hclosed := closed_of_advanced hadv
      refine hs.same (chain_of_advanced hadv).1 (by rw [hflight]; rfl) fun hopen => ?_
      have hopen : s.closed = false := hclosed.symm.trans hopen
      exact ⟨hopen, (reconnecting_of_advanced hadv hopen :)⟩
  | attemptFinished _ htimers => exact flightInv_of_empty htimers rfl
  | attemptAborted i _ htimers => exact flightInv_of_empty htimers rfl
  | attemptThrew pc hflight htimers =>
      exact FlightInv.schedule htimers rfl fun hopen => hs.busy hopen (by simp [hflight])
  | timerClosed d _ hflight => exact flightInv_of_empty rfl hflight
  | timerFires d htimers hflight hopen =>
      have hpos : 0 < s.timers.length + s.inFlight.length := by simp [htimers, hflight]
      exact ⟨Nat.le_refl 1, fun _ _ => hs.busy hopen hpos⟩
  | ignored => exact hs
  | disconnectClosed => exact hs.same rfl rfl fun hopen => ⟨hopen, rfl⟩
  | disconnectIgnored => exact hs.same rfl rfl fun hopen => ⟨hopen, rfl⟩
  | disconnectStarts i reason _ hopen hidle =>
      obtain ⟨htimers, hflight⟩ := hs.idle hopen hidle
      exact FlightInv.schedule htimers hflight fun _ => rfl
  | closeShell => exact hs.same rfl rfl fun hopen => by cases hopen
  | closeCurrent => exact hs.same rfl rfl fun hopen => by cases hopen
  | closeReturn => exact hs.same rfl rfl fun hopen => ⟨hopen, rfl⟩

end ReconnectingConnection

end PionBridge.Dart
