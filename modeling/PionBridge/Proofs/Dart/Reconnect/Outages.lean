import PionBridge.Proofs.Dart.Reconnect.Live

/-!
# `PionBridge.Proofs.Dart.Reconnect.Outages`: the attempts of an outage

An outage starts with the end of the alive socket. `_attempts` is zero then: a chain ends with the
reset after its last attempt, or it gives up, and then no socket is alive. So `_attempts` counts the
attempts of the outage alone.

A socket that drops while the first `connect` is still returning starts its outage before the
`_attempts = 0` at the end of `connect`. Such an outage is `early`. The reset wipes its count, and
it can have more attempts than `maxAttempts` (`early_drop_exceeds_attempts`). In a run without such
a drop (`Timely`) no outage is early.
-/

set_option autoImplicit false

namespace PionBridge.Dart

open PionBridge.Lib

/-- What holds of an outage from its end on, if it started after `connect` had returned. -/
def Outage.Bounded (cfg : ReconnectConfig) (o : Outage) : Prop :=
  o.early = false → (∀ m, cfg.maxAttempts = some m → o.attempts ≤ m) ∧
    o.disconnected ≤ 1 ∧ (0 < o.disconnected → cfg.maxAttempts = some o.failed)

namespace ReconnectingConnection

variable {cfg : ReconnectConfig} {s s' : ReconnectingConnection}

/-- The chain counts the attempts of its outage in `_attempts`. -/
def Counted (cfg : ReconnectConfig) (s : ReconnectingConnection) (o : Outage) : Prop :=
  o.early = false → s.first = .returned ∧ o.attempts + s.timers.length = s.attempts ∧
    o.failed + s.inFlight.length = o.attempts ∧ o.disconnected = 0 ∧
    ∀ m, cfg.maxAttempts = some m → s.attempts ≤ m

/-- With a socket that can start an outage, `_attempts` is zero, and a chain counts in the head of
the record. -/
structure OutageInv (cfg : ReconnectConfig) (s : ReconnectingConnection) : Prop where
  start : s.first = .returned → s.closed = false → s.reconnecting = false →
    (∃ i, s.Alive i) → s.attempts = 0
  chain : 0 < s.timers.length + s.inFlight.length →
    ∃ o rest, s.outages = o :: rest ∧ Counted cfg s o
  bound : ∀ o ∈ s.outages, o.Bounded cfg

theorem Counted.bounded {o : Outage} (h : Counted cfg s o) : o.Bounded cfg := by
  intro hearly
  obtain ⟨-, hattempts, -, hcalls, hmax⟩ := h hearly
  refine ⟨fun m hm => ?_, by omega, fun hpos => ?_⟩
  · have := hmax m hm
    omega
  · omega

/-- A step of the chain that leaves its outage and `_attempts` alone, or a step without a chain. -/
theorem OutageInv.same (hs : OutageInv cfg s) (houtages : s'.outages = s.outages)
    (htimers : s'.timers.length = s.timers.length)
    (hflight : s'.inFlight.length = s.inFlight.length) (hattempts : s'.attempts = s.attempts)
    (hfirst : s'.first = s.first)
    (hstart : s'.closed = false → s'.reconnecting = false → (∃ i, s'.Alive i) →
      s.closed = false ∧ s.reconnecting = false ∧ ∃ i, s.Alive i) : OutageInv cfg s' where
  start hret hopen hidle halive := by
    obtain ⟨hopen, hidle, halive⟩ := hstart hopen hidle halive
    rw [hattempts]
    exact hs.start (hfirst ▸ hret) hopen hidle halive
  chain hpos := by
    rw [htimers, hflight] at hpos
    obtain ⟨o, rest, ho, hcounted⟩ := hs.chain hpos
    refine ⟨o, rest, houtages.trans ho, fun hearly => ?_⟩
    rw [hfirst, htimers, hflight, hattempts]
    exact hcounted hearly
  bound := by
    rw [houtages]
    exact hs.bound

/-- Before the first `connect` has returned, every outage is early. -/
theorem OutageInv.before (hs : OutageInv cfg s) (hfirst : s.first ≠ .returned)
    (houtages : s'.outages = s.outages) (htimers : s'.timers = s.timers)
    (hflight : s'.inFlight = s.inFlight)
    (hstart : s'.first = .returned → s'.attempts = 0) : OutageInv cfg s' where
  start hret _ _ _ := hstart hret
  chain hpos := by
    rw [htimers, hflight] at hpos
    obtain ⟨o, rest, ho, hcounted⟩ := hs.chain hpos
    exact ⟨o, rest, houtages.trans ho, fun hearly => absurd (hcounted hearly).1 hfirst⟩
  bound := by
    rw [houtages]
    exact hs.bound

/-- The end of a chain. -/
theorem OutageInv.ended (hs : OutageInv cfg s) (houtages : s'.outages = s.outages)
    (htimers : s'.timers = []) (hflight : s'.inFlight = [])
    (hstart : s'.closed = false → s'.attempts = 0) : OutageInv cfg s' where
  start _ hopen _ _ := hstart hopen
  chain hpos := by
    rw [htimers, hflight] at hpos
    cases hpos
  bound := by
    rw [houtages]
    exact hs.bound

/-- `_scheduleReconnect` with the outage `o`. When it gives up, all of `maxAttempts` attempts have
failed. -/
theorem OutageInv.schedule {o : Outage} {rest : List Outage} (houtages : s.outages = o :: rest)
    (htimers : s.timers = []) (hflight : s.inFlight = []) (hcounted : Counted cfg s o)
    (hbound : ∀ o ∈ rest, o.Bounded cfg) (hbusy : s.closed = false → s.reconnecting = true)
    (hnone : s.closed = false → ∀ i, ¬ s.Alive i) : OutageInv cfg (s.scheduleReconnect cfg) := by
  rcases scheduleReconnect_eq cfg s with ⟨m, hm, hle, heq⟩ | ⟨hlt, heq⟩
  · rw [heq]
    refine ⟨fun _ hopen _ halive => ?_, fun hpos => ?_, fun o' ho' => ?_⟩
    · obtain ⟨i, hi⟩ := halive
      exact absurd hi (hnone hopen i)
    · have hzero : s.timers.length + s.inFlight.length = 0 := by rw [htimers, hflight]; rfl
      exact absurd hzero (Nat.pos_iff_ne_zero.mp hpos)
    · have ho' : o' ∈ s.outages.modifyHead _ := ho'
      rw [houtages, List.modifyHead_cons] at ho'
      rcases List.mem_cons.mp ho' with rfl | ho'
      · intro hearly
        obtain ⟨-, hattempts, hfailed, hcalls, hmax⟩ := hcounted hearly
        rw [htimers, List.length_nil] at hattempts
        rw [hflight, List.length_nil] at hfailed
        have hmax := hmax m hm
        refine ⟨fun m' hm' => ?_, by simp [hcalls], fun _ => ?_⟩
        · cases hm.symm.trans hm'
          show o.attempts ≤ m
          omega
        · rw [hm]
          show some m = some o.failed
          congr 1
          omega
      · exact hbound o' ho'
  · rw [heq]
    have hcounted' : Counted cfg
        { s with attempts := s.attempts + 1, timers := s.timers ++ [cfg.backoffDelay s.attempts] }
        o := by
      intro hearly
      obtain ⟨hfirst, hattempts, hfailed, hcalls, -⟩ := hcounted hearly
      refine ⟨hfirst, ?_, hfailed, hcalls, fun m hm => hlt m hm⟩
      show o.attempts + (s.timers ++ [_]).length = s.attempts + 1
      rw [List.length_append, ← Nat.add_assoc, hattempts]
      rfl
    refine ⟨fun _ hopen hidle _ => ?_, fun _ => ⟨o, rest, houtages, hcounted'⟩, fun o' ho' => ?_⟩
    · cases (hbusy hopen).symm.trans hidle
    · rcases List.mem_cons.mp (houtages ▸ ho') with rfl | ho'
      · exact hcounted'.bounded
      · exact hbound o' ho'

/-- The step lemma of the record. -/
theorem OutageInv.step (hs : OutageInv cfg s) (hf : s.FlightInv) (hl : s.LiveInv)
    (h : Moved cfg s s') : OutageInv cfg s' := by
  cases h with
  | connect hfirst => exact hs.before (by simp [hfirst]) rfl rfl rfl nofun
  | first pc s₁ r hfirst hadv =>
      have hne : s.first ≠ .returned := by simp [hfirst]
      have houtages : s₁.outages = s.outages := by cases hadv <;> rfl
      obtain ⟨htimers, hflight⟩ := chain_of_advanced hadv
      cases r with
      | finished => exact hs.before hne houtages htimers hflight fun _ => rfl
      | _ => exact hs.before hne houtages htimers hflight nofun
  | attemptAt pc pc' s₁ hflight htimers hadv =>
      have houtages : s₁.outages = s.outages := by cases hadv <;> rfl
      have hattempts : s₁.attempts = s.attempts := by cases hadv <;> rfl
      have hfirst : s₁.first = s.first := by cases hadv <;> rfl
      refine hs.same houtages (by rw [(chain_of_advanced hadv).1]) (by rw [hflight]; rfl) hattempts
        hfirst fun hopen hidle _ => ?_
      have hopen : s.closed = false := (closed_of_advanced hadv).symm.trans hopen
      have hbusy := hf.busy hopen (by simp [hflight])
      cases hidle.symm.trans ((reconnecting_of_advanced hadv hopen).trans hbusy)
  | attemptFinished hflight htimers => exact hs.ended rfl htimers rfl fun _ => rfl
  | attemptAborted i hflight htimers =>
      refine hs.ended rfl htimers rfl fun hopen => ?_
      exact absurd (by simp [hflight]) ((hl.isOpen hopen).noTeardown i).2
  | attemptThrew pc hflight htimers hpc =>
      obtain ⟨o, rest, ho, hcounted⟩ := hs.chain (by simp [hflight])
      have hhead : s.outages.modifyHead (fun o => { o with failed := o.failed + 1 })
          = { o with failed := o.failed + 1 } :: rest := by rw [ho, List.modifyHead_cons]
      refine OutageInv.schedule hhead htimers rfl
        (fun hearly => ?_) (fun o' ho' => hs.bound o' (by simp [ho, ho']))
        (fun hopen => hf.busy hopen (by simp [hflight]))
        fun hopen => (hl.isOpen hopen).none_alive_of_threw hflight hpc
      obtain ⟨hfirst, hattempts, hfailed, hcalls, hmax⟩ := hcounted hearly
      refine ⟨hfirst, hattempts, ?_, hcalls, hmax⟩
      rw [hflight] at hfailed
      exact hfailed
  | timerClosed d _ hflight hclosed =>
      refine hs.ended rfl rfl hflight fun hopen => ?_
      cases hclosed.symm.trans hopen
  | timerFires d htimers hflight hopen =>
      have hpos : 0 < s.timers.length + s.inFlight.length := by simp [htimers, hflight]
      obtain ⟨o, rest, ho, hcounted⟩ := hs.chain hpos
      have hhead : s.outages.modifyHead (fun o => { o with attempts := o.attempts + 1 })
          = { o with attempts := o.attempts + 1 } :: rest := by rw [ho, List.modifyHead_cons]
      have hcounted' : Counted cfg { s with timers := [], inFlight := [.connecting s.created] }
          { o with attempts := o.attempts + 1 } := by
        intro hearly
        obtain ⟨hfirst, hattempts, hfailed, hcalls, hmax⟩ := hcounted hearly
        rw [htimers] at hattempts
        rw [hflight] at hfailed
        exact ⟨hfirst, hattempts, congrArg (· + 1) hfailed, hcalls, hmax⟩
      refine ⟨fun _ _ hidle _ => ?_, fun _ => ⟨_, rest, hhead, hcounted'⟩, fun o' ho' => ?_⟩
      · cases (hf.busy hopen hpos).symm.trans hidle
      · rcases List.mem_cons.mp (hhead ▸ ho') with rfl | ho'
        · exact hcounted'.bounded
        · exact hs.bound o' (by simp [ho, ho'])
  | ignored => exact hs
  | disconnectClosed i reason _ hclosed =>
      refine hs.same rfl rfl rfl rfl rfl fun hopen => ?_
      cases hclosed.symm.trans hopen
  | disconnectIgnored i reason =>
      refine hs.same rfl rfl rfl rfl rfl fun hopen hidle halive => ⟨hopen, hidle, ?_⟩
      exact halive.imp fun j hj => (alive_disconnect hj).2
  | disconnectStarts i reason halive hopen hidle =>
      obtain ⟨htimers, hflight⟩ := hf.idle hopen hidle
      refine OutageInv.schedule rfl htimers hflight (fun hearly => ?_) hs.bound (fun _ => rfl)
        fun _ => (hl.isOpen hopen).none_alive halive
      have hfirst : s.first = .returned := by simpa using hearly
      have hzero : s.attempts = 0 := hs.start hfirst hopen hidle ⟨i, halive⟩
      refine ⟨hfirst, ?_, ?_, rfl, fun m _ => ?_⟩
      · show 0 + s.timers.length = s.attempts
        rw [htimers, hzero]
        rfl
      · show 0 + s.inFlight.length = 0
        rw [hflight]
        rfl
      · show s.attempts ≤ m
        rw [hzero]
        exact Nat.zero_le m
  | closeShell => exact hs.same rfl rfl rfl rfl rfl nofun
  | closeCurrent => exact hs.same rfl rfl rfl rfl rfl nofun
  | closeReturn =>
      exact hs.same rfl rfl rfl rfl rfl fun hopen hidle halive => ⟨hopen, hidle, halive⟩

/-- All of the above along a run. -/
structure ReconnectInv (cfg : ReconnectConfig) (s : ReconnectingConnection) : Prop where
  flight : s.FlightInv
  live : s.LiveInv
  sound : ∀ i, (s.sockets i).Sound
  outage : OutageInv cfg s

theorem reconnectInv_new : ReconnectInv cfg new where
  flight := flightInv_of_empty rfl rfl
  live := by
    have hnone : ∀ i, ¬ new.Alive i := fun i hi => by cases hi.1
    exact ⟨fun _ _ => rfl, fun i hi => (by rcases hi with hi | hi <;> cases hi),
      fun _ => ⟨fun _ => ⟨rfl, rfl, hnone⟩, nofun, nofun, fun i hi => absurd hi (hnone i),
        fun i hi => absurd hi (hnone i), fun _ => ⟨nofun, nofun⟩, rfl⟩,
      nofun, fun _ => rfl⟩
  sound _ := ⟨fun _ => rfl, Nat.zero_le 1, List.Pairwise.nil⟩
  outage := ⟨nofun, nofun, nofun⟩

/-- The run lemma. -/
theorem reconnectInv_of_reachable (hauto : cfg.autoReconnect = true)
    (hs : (reconnectSystem cfg).Reachable s) : ReconnectInv cfg s := by
  refine hs.invariant reconnectInv_new fun s a s' _ hinv hstep => ?_
  have hmoved : Moved cfg s s' := moved hauto hinv.flight.single hstep
  exact ⟨hinv.flight.step hmoved, hinv.live.step hmoved, sound_step hinv.sound hmoved,
    hinv.outage.step hinv.flight hinv.live hmoved⟩

/-! ### Early outages -/

/-- No socket of `connect` drops before the call has returned. -/
def Timely (s : ReconnectingConnection) (a : ReconnectAction) : Prop :=
  ∀ i reason, a = .disconnect i reason → s.first = .returned

theorem early_withOutage {f : Outage → Outage} (hf : ∀ o, (f o).early = o.early) :
    (s.withOutage f).outages.map (·.early) = s.outages.map (·.early) := by
  unfold withOutage
  cases houtages : s.outages with
  | nil => simp
  | cons o rest => simp [hf]

/-- `_scheduleReconnect` starts no outage. -/
theorem early_scheduleReconnect :
    (s.scheduleReconnect cfg).outages.map (·.early) = s.outages.map (·.early) := by
  unfold scheduleReconnect
  split
  · exact early_withOutage fun _ => rfl
  · rfl

theorem early_advance {pc : AttemptPc} {e : AttemptStep}
    {r : ReconnectingConnection × AttemptResult}
    (h : s.advance pc e = some r) : r.1.outages = s.outages := by
  unfold advance at h
  split at h
  case h_3 => split at h <;> cases h <;> rfl
  all_goals cases h <;> rfl

/-- Only a drop starts an outage, and it is early if `connect` has not returned. -/
theorem early_step {a : ReconnectAction} (h : s.step cfg a = some s') :
    s'.outages.map (·.early) = s.outages.map (·.early) ∨
      (∃ i reason, a = .disconnect i reason) ∧ s'.outages.map (·.early)
        = decide (s.first ≠ .returned) :: s.outages.map (·.early) := by
  cases a with
  | connect =>
      dsimp only [step] at h
      split at h <;> cases h
      exact .inl rfl
  | first e =>
      dsimp only [step] at h
      split at h
      · obtain ⟨r, hadv, rfl⟩ := Option.map_eq_some_iff.mp h
        rw [← early_advance hadv]
        cases r.2 <;> exact .inl rfl
      · cases h
  | attempt k e =>
      obtain ⟨pc, -, h⟩ := Option.bind_eq_some_iff.mp h
      obtain ⟨r, hadv, rfl⟩ := Option.map_eq_some_iff.mp h
      rw [← early_advance hadv]
      refine .inl ?_
      cases r.2 with
      | threw => exact early_scheduleReconnect.trans (early_withOutage fun _ => rfl)
      | _ => rfl
  | timer k =>
      dsimp only [step] at h
      split at h <;> cases h
      unfold timer
      dsimp only
      split
      · exact .inl rfl
      · exact .inl (early_withOutage fun _ => rfl)
  | disconnect i reason =>
      dsimp only [step] at h
      split at h
      · split at h <;> cases h
        · exact .inl rfl
        · unfold onDisconnect
          split
          · exact .inl rfl
          · split
            · exact .inl rfl
            · exact .inr ⟨⟨i, reason, rfl⟩, early_scheduleReconnect⟩
      · cases h
  | close =>
      cases h
      unfold close
      dsimp only
      split <;> exact .inl rfl
  | closeReturn =>
      dsimp only [step] at h
      split at h <;> cases h
      exact .inl rfl

/-- The run lemma: without a drop during `connect`, no outage is early. -/
theorem not_early_of_timely (hs : (reconnectSystem cfg).ReachableUnder Timely s) :
    ∀ o ∈ s.outages, o.early = false := by
  suffices hearly : ∀ b ∈ s.outages.map (·.early), b = false by
    intro o ho
    exact hearly _ (List.mem_map_of_mem ho)
  refine StepSystem.StepsUnder.invariant (I := fun s => ∀ b ∈ s.outages.map (·.early), b = false)
    hs (by nofun) fun t a u _ hinv htimely hstep => ?_
  rcases early_step hstep with hsame | ⟨⟨i, reason, ha⟩, hnew⟩
  · rw [hsame]
    exact hinv
  · rw [hnew, htimely i reason ha]
    exact List.forall_mem_cons.mpr ⟨rfl, hinv⟩

end ReconnectingConnection

/-- With `autoReconnect` on: at most one timer or attempt is there at a time, and none while
`_reconnecting` is false and `close()` has not been called; a socket calls `onDisconnect` at most
once and not after its `close()`; and an outage that starts once the first `connect` has returned
makes at most `maxAttempts` attempts, and `onDisconnected` is called at most once in it and only
when that many have failed. In a run where no socket drops before the return of `connect`, every
outage is one of these. -/
theorem reconnect_single_flight (cfg : ReconnectConfig) (hauto : cfg.autoReconnect = true)
    (s : ReconnectingConnection) (hs : (reconnectSystem cfg).Reachable s) :
    s.timers.length + s.inFlight.length ≤ 1 ∧
    (s.closed = false → s.reconnecting = false → s.timers = [] ∧ s.inFlight = []) ∧
    (∀ i, (s.sockets i).history.count .notified ≤ 1 ∧
      (s.sockets i).history.Pairwise fun a b => ¬ (a = .closed ∧ b = .notified)) ∧
    (s.first = .returned → s.stray = 0) ∧
    (∀ o ∈ s.outages, o.early = false →
      (∀ m, cfg.maxAttempts = some m → o.attempts ≤ m) ∧ o.disconnected ≤ 1 ∧
      (0 < o.disconnected → cfg.maxAttempts = some o.failed)) ∧
    ((reconnectSystem cfg).ReachableUnder ReconnectingConnection.Timely s →
      ∀ o ∈ s.outages, o.early = false) := by
  have hinv := ReconnectingConnection.reconnectInv_of_reachable hauto hs
  refine ⟨hinv.flight.single, hinv.flight.idle, fun i => ?_, fun hret => ?_, hinv.outage.bound,
    ReconnectingConnection.not_early_of_timely⟩
  · exact ⟨(hinv.sound i).once, (hinv.sound i).order⟩
  · exact hinv.live.calls (Or.inr (Or.inl hret))

/-- The socket drops after `connect` has returned, its stream reports an error and its end, and the
only attempt fails. -/
theorem reconnect_single_flight_drop :
    ∃ s, (reconnectSystem ⟨true, some 1, 1000, 30000⟩).Reachable s ∧
      s.outages = [⟨false, 1, 1, 1⟩] ∧ s.timers = [] ∧ s.inFlight = [] ∧ s.stray = 0 := by
  let cfg : ReconnectConfig := ⟨true, some 1, 1000, 30000⟩
  let acts : List ReconnectAction := [.connect, .first .connectOk, .first .resume, .first .finish,
    .disconnect 0 "WebSocket error", .disconnect 0 "WebSocket closed", .timer 0,
    .attempt 0 .connectFail]
  let final := (reconnectSystem cfg).run (reconnectSystem cfg).init acts
  have hrun : final.isSome := by rfl
  obtain ⟨s, hs⟩ := Option.isSome_iff_exists.mp hrun
  have hreach := StepSystem.reachable_of_run hs
  have hfacts : final.map (fun s => (s.outages, s.closed, s.reconnecting, s.first))
      = some ([⟨false, 1, 1, 1⟩], false, false, .returned) := by rfl
  simp only [hs, Option.map_some, Option.some.injEq, Prod.mk.injEq] at hfacts
  obtain ⟨houtages, hopen, hidle, hfirst⟩ := hfacts
  obtain ⟨-, hempty, -, hstray, -⟩ := reconnect_single_flight cfg rfl s hreach
  obtain ⟨htimers, hflight⟩ := hempty hopen hidle
  exact ⟨s, hreach, houtages, htimers, hflight, hstray hfirst⟩

/-- The socket drops between its opening and the return of `connect`, which wipes the count. With
`maxAttempts` 1, two attempts are made, both after the return. -/
theorem early_drop_exceeds_attempts :
    ∃ s s', (reconnectSystem ⟨true, some 1, 1000, 30000⟩).Reachable s ∧ s.first = .returned ∧
      s.outages = [⟨true, 0, 0, 0⟩] ∧
      (reconnectSystem ⟨true, some 1, 1000, 30000⟩).StepsUnder (fun _ _ => True) s s' ∧
      s'.outages = [⟨true, 2, 2, 1⟩] := by
  let sys := reconnectSystem ⟨true, some 1, 1000, 30000⟩
  have hreturn : ∃ s, sys.run sys.init [.connect, .first .connectOk,
      .disconnect 0 "WebSocket closed", .first .resume, .first .finish] = some s ∧
      s.first = .returned ∧ s.outages = [⟨true, 0, 0, 0⟩] ∧
      ∃ s', sys.run s [.timer 0, .attempt 0 .connectFail, .timer 0, .attempt 0 .connectFail]
        = some s' ∧ s'.outages = [⟨true, 2, 2, 1⟩] := ⟨_, rfl, rfl, rfl, _, rfl, rfl⟩
  obtain ⟨s, hs, hfirst, hstart, s', hs', hend⟩ := hreturn
  exact ⟨s, s', StepSystem.reachable_of_run hs, hfirst, hstart,
    StepSystem.steps_of_run (fun _ _ _ => trivial) hs', hend⟩

end PionBridge.Dart
