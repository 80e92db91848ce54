import PionBridge.Proofs.FrameSession

/-!
# `PionBridge.Proofs.FrameSession.Reader`: the reader after a `Close`

`Close` waits for the writer and not for the reader. The reader leaves its loop when its `select`
takes the case of `done`. While a frame is queued the other case is ready too, so the reader can
take that frame up, and the next one, after `Close` has returned. A `Push` that has passed its
first select can still queue a frame then. A reader that has a frame in its hands calls
`processFrame` with it without another look at `done`.

So `processFrame` is not called after a `Close` exactly when the reader is gone already, or when it
holds no frame, none is queued and no `Push` is between its selects.
-/

set_option autoImplicit false

namespace PionBridge.Server

open PionBridge.Lib

namespace FrameSession

variable {marshal : Message → Except String Frame} {s s' : FrameSession} {a : SessionAction}

/-- The reader has nothing more to do: it is gone, or it holds no frame and none can come. -/
def ReaderDone (s : FrameSession) : Prop :=
  s.reader = .exited ∨ ((∀ frame, s.reader ≠ .calling frame) ∧ s.inbound.Drained)

/-- The steps of the writer are not on the side of the reader. -/
theorem reader_of_stepWriter (h : s.stepWriter a = some s') :
    s'.inbound = s.inbound ∧ s'.reader = s.reader := by
  cases a <;> simp only [stepWriter, reduceCtorEq] at h
  case take =>
      split at h
      · obtain ⟨r, -, rfl⟩ := Option.map_eq_some_iff.mp h
        exact ⟨rfl, rfl⟩
      · cases h
  case writerStop =>
      split at h
      · split at h
        · cases h
          exact ⟨rfl, rfl⟩
        · cases h
      · cases h
  all_goals
    split at h
    · cases h
      exact ⟨rfl, rfl⟩
    · cases h

/-- A `Close` call closes `done` at most. -/
theorem reader_of_stepCloser {g : Nat} (h : s.stepCloser g a = some s') :
    (s'.inbound = s.inbound ∨ s'.inbound = s.inbound.close) ∧ s'.reader = s.reader := by
  cases a <;> simp only [stepCloser, reduceCtorEq] at h
  case closeOnce =>
      split at h
      · cases h
        exact ⟨.inr rfl, rfl⟩
      · cases h
        exact ⟨.inl rfl, rfl⟩
      · cases h
  case closeReturn =>
      split at h
      · split at h
        · cases h
          exact ⟨.inl rfl, rfl⟩
        · cases h
      · cases h
  all_goals
    split at h
    · cases h
      exact ⟨.inl rfl, rfl⟩
    · cases h

/-- A reader that is done does not call `processFrame`. -/
theorem ReaderDone.process_eq_none (hs : s.ReaderDone) : s.step marshal .process = none := by
  show s.stepReader .process = none
  simp only [stepReader]
  split
  · rename_i frame hpc
    obtain hexit | ⟨hholds, -⟩ := hs
    · cases hpc.symm.trans hexit
    · exact absurd hpc (hholds frame)
  · rfl

/-- Its own steps leave a reader done. `read` finds the queue empty, so it does not get a frame. -/
theorem ReaderDone.stepReader (hs : s.ReaderDone) (h : s.stepReader a = some s') :
    s'.ReaderDone ∧ s'.inbound = s.inbound := by
  cases a <;> simp only [FrameSession.stepReader, reduceCtorEq] at h
  case read =>
      split at h
      · rename_i hpc
        obtain hexit | ⟨-, hdrained⟩ := hs
        · cases hpc.symm.trans hexit
        · rw [Gate.recv_of_buf_nil hdrained.1, Option.map_none] at h
          cases h
      · cases h
  case process =>
      have hnone : s.step (fun _ => .error "") .process = none := hs.process_eq_none
      have hsome : s.step (fun _ => .error "") .process = some s' := h
      cases hnone.symm.trans hsome
  case processed =>
      split at h
      · rename_i hpc
        cases h
        obtain hexit | ⟨-, hdrained⟩ := hs
        · cases hpc.symm.trans hexit
        · exact ⟨.inr ⟨fun _ => FeedPc.noConfusion, hdrained⟩, rfl⟩
      · cases h
  case readerStop =>
      split at h
      · split at h
        · cases h
          exact ⟨.inl rfl, rfl⟩
        · cases h
      · cases h

/-- The step lemma: with `done` closed, a reader that is done stays so. -/
theorem ReaderDone.step (hs : s.ReaderDone) (hdone : s.inbound.done = true)
    (h : s.step marshal a = some s') : s'.ReaderDone ∧ s'.inbound.done = true := by
  cases a with
  | enqueue g msg =>
      obtain ⟨cw, -, rfl⟩ := Option.map_eq_some_iff.mp h
      exact ⟨hs, hdone⟩
  | enqueueStep b =>
      obtain ⟨cw, -, rfl⟩ := Option.map_eq_some_iff.mp h
      exact ⟨hs, hdone⟩
  | push g frame =>
      obtain ⟨inbound, hin, rfl⟩ := Option.map_eq_some_iff.mp h
      exact ⟨hs.imp_right fun hfree => ⟨hfree.1, hfree.2.call hin⟩,
        (Gate.call_done hin).trans hdone⟩
  | pushStep b =>
      obtain ⟨inbound, hin, rfl⟩ := Option.map_eq_some_iff.mp h
      exact ⟨hs.imp_right fun hfree => ⟨hfree.1, hfree.2.step hdone hin⟩,
        (Gate.step_done hin).trans hdone⟩
  | take | recheck | deliver | deliverReturn | writerStop | writerExit =>
      simp only [FrameSession.step] at h
      obtain ⟨hin, hreader⟩ := reader_of_stepWriter h
      rw [ReaderDone, hin, hreader]
      exact ⟨hs, hdone⟩
  | read | process | processed | readerStop =>
      simp only [FrameSession.step] at h
      obtain ⟨hs', hin⟩ := hs.stepReader h
      exact ⟨hs', by rw [hin]; exact hdone⟩
  | close g | closeOnce g | closeWriter g | closeReturn g =>
      simp only [FrameSession.step] at h
      -- `closeOnce` closes `done`, the others leave the inbound side alone.
      obtain ⟨hin | hin, hreader⟩ := reader_of_stepCloser h
      · rw [ReaderDone, hin, hreader]
        exact ⟨hs, hdone⟩
      · rw [ReaderDone, hin, hreader]
        exact ⟨hs, rfl⟩

/-- The run lemma. -/
theorem ReaderDone.run (hs : s.ReaderDone) (hdone : s.inbound.done = true)
    (h : (frameSystem marshal).StepsUnder (fun _ _ => True) s s') : s'.ReaderDone := by
  refine (h.invariant (I := fun t => t.ReaderDone ∧ t.inbound.done = true) ⟨hs, hdone⟩ ?_).1
  rintro t a u - ⟨ht, htdone⟩ - hstep
  exact ht.step htdone hstep

/-! ### A frame that is still processed -/

section
variable (marshal)

/-- A reader that holds no frame and has not left its loop comes back to its `select`. -/
theorem exists_select (hreader : s.reader ≠ .exited) (hholds : ∀ frame, s.reader ≠ .calling frame) :
    ∃ t, (frameSystem marshal).StepsUnder (fun _ _ => True) s t ∧ t.reader = .select ∧
      t.inbound = s.inbound := by
  cases hpc : s.reader with
  | select => exact ⟨s, .refl, hpc, rfl⟩
  | calling frame => exact absurd hpc (hholds frame)
  | exited => exact absurd hpc hreader
  | processing frame =>
      have hstep : (frameSystem marshal).step s .processed = some { s with reader := .select } := by
        simp only [frameSystem, FrameSession.step, FrameSession.stepReader, hpc]
      exact ⟨_, .step .refl trivial hstep, rfl, rfl⟩

/-- There is always a frame that can come while the session is not drained. -/
theorem exists_queued (hdrained : ¬ s.inbound.Drained) :
    ∃ t, (frameSystem marshal).StepsUnder (fun _ _ => True) s t ∧ t.reader = s.reader ∧
      t.inbound.chan.buf ≠ [] := by
  by_cases hbuf : s.inbound.chan.buf = []
  · -- Then a `Push` is between its selects, and its second one may still choose the channel.
    have hcaller : ∃ g frame, s.inbound.callers g = .select frame := by
      by_contra hnone
      simp only [not_exists] at hnone
      exact hdrained ⟨hbuf, hnone⟩
    obtain ⟨g, frame, hpc⟩ := hcaller
    obtain ⟨inbound, hsend, hbuf'⟩ :=
      Gate.exists_send errSessionClosed (by decide : 0 < writeChanSize) hbuf hpc
    have hstep : (frameSystem marshal).step s (.pushStep (.send g)) =
        some { s with inbound := inbound } := by
      simp only [frameSystem, FrameSession.step, hsend, Option.map_some]
    refine ⟨_, .step .refl trivial hstep, rfl, ?_⟩
    show inbound.chan.buf ≠ []
    simp [hbuf']
  · exact ⟨s, .refl, rfl, hbuf⟩

/-- With a frame in the hands of the reader the call of `processFrame` is the next step. -/
theorem isSome_process {frame : Frame} (hpc : s.reader = .calling frame) :
    (s.step marshal .process).isSome := by
  show (s.stepReader .process).isSome
  simp only [FrameSession.stepReader, hpc, Option.isSome_some]

/-- A reader that is not done calls `processFrame` once more in some run. -/
theorem exists_process (hs : ¬ s.ReaderDone) :
    ∃ t, (frameSystem marshal).StepsUnder (fun _ _ => True) s t ∧
      (t.step marshal .process).isSome := by
  obtain ⟨hreader, hfree⟩ := not_or.mp hs
  by_cases hholds : ∀ frame, s.reader ≠ .calling frame
  · -- First a frame gets on the queue, then the reader gets to its `select` and receives it.
    have hdrained : ¬ s.inbound.Drained := fun hdrained => hfree ⟨hholds, hdrained⟩
    obtain ⟨t, hst, htreader, htbuf⟩ := exists_queued marshal hdrained
    rw [← htreader] at hreader hholds
    obtain ⟨u, htu, hselect, hin⟩ := exists_select marshal hreader hholds
    rw [← hin] at htbuf
    obtain ⟨frame, inbound, hrecv⟩ := Gate.exists_recv htbuf
    have hread : (frameSystem marshal).step u .read =
        some { u with inbound := inbound, reader := .calling frame } := by
      simp only [frameSystem, FrameSession.step, FrameSession.stepReader, hselect, hrecv,
        Option.map_some]
    exact ⟨_, .step (hst.trans htu) trivial hread, isSome_process marshal rfl⟩
  · push Not at hholds
    obtain ⟨frame, hpc⟩ := hholds
    exact ⟨s, .refl, isSome_process marshal hpc⟩

end

end FrameSession

open FrameSession

/-- After a `Close` has returned, the reader calls `processFrame` in no run that follows exactly
when it has left its loop, or it holds no received frame, no frame is queued and no `Push` is
between its selects. -/
theorem close_drops_inbound_iff (marshal : Message → Except String Frame) (s : FrameSession)
    (hs : (frameSystem marshal).Reachable s) (hclosed : s.Closed) :
    (∀ t, (frameSystem marshal).StepsUnder (fun _ _ => True) s t →
      t.step marshal .process = none) ↔
      s.reader = .exited ∨
        ((∀ frame, s.reader ≠ .calling frame) ∧
          s.inbound.chan.buf = [] ∧ ∀ g frame, s.inbound.callers g ≠ .select frame) := by
  obtain ⟨-, hdone, -⟩ := (sessionInv_of_reachable hs).of_closed hclosed
  refine ⟨fun hnone => ?_, fun hready t ht => ?_⟩
  · by_contra hready
    obtain ⟨t, ht, hprocess⟩ := exists_process marshal (s := s) hready
    rw [hnone t ht] at hprocess
    cases hprocess
  · have hreader : s.ReaderDone := hready
    exact (hreader.run hdone ht).process_eq_none

/-- The steps of one goroutine through `Close`, with the writer at its `select`. -/
def closeActs : List SessionAction :=
  [.close 0, .closeOnce 0, .closeWriter 0, .writerStop, .writerExit, .closeReturn 0]

/-- A frame is queued when `Close` is called, and the reader leaves by the case of `done`: the frame
stays where it is. -/
theorem close_drops_inbound_queued :
    ∃ s, (frameSystem fun _ => .ok [1]).Reachable s ∧ s.Closed ∧ s.inbound.chan.buf = [[7]] ∧
      ∀ t, (frameSystem fun _ => .ok [1]).StepsUnder (fun _ _ => True) s t →
        t.step (fun _ => .ok [1]) .process = none := by
  let acts : List SessionAction :=
    [.push 1 [7], .pushStep (.check 1), .pushStep (.send 1)] ++ closeActs ++ [.readerStop]
  let sys := frameSystem fun _ => .ok [1]
  let final := sys.run sys.init acts
  have hrun : final.isSome := by rfl
  obtain ⟨s, hs⟩ := Option.isSome_iff_exists.mp hrun
  have hfacts : final.map (fun s => (s.closers 0, s.reader, s.inbound.chan.buf))
      = some (.returned, .exited, [[7]]) := by rfl
  simp only [hs, Option.map_some, Option.some.injEq, Prod.mk.injEq] at hfacts
  obtain ⟨hclosed, hreader, hbuf⟩ := hfacts
  have hreach := StepSystem.reachable_of_run hs
  exact ⟨s, hreach, ⟨0, hclosed⟩, hbuf,
    (close_drops_inbound_iff _ s hreach ⟨0, hclosed⟩).mpr (.inl hreader)⟩

/-- One frame is pushed and the session is closed. In the first run the frame is still queued when
`Close` returns. In the second the reader has received it and nothing is queued. Both times the
reader calls `processFrame` with it afterwards. -/
theorem process_after_close :
    (∃ s t u, (frameSystem fun _ => .ok [1]).Reachable s ∧ s.Closed ∧
      s.step (fun _ => .ok [1]) .read = some t ∧ t.step (fun _ => .ok [1]) .process = some u ∧
      u.reader = .processing [7]) ∧
    ∃ s t, (frameSystem fun _ => .ok [1]).Reachable s ∧ s.Closed ∧ s.inbound.chan.buf = [] ∧
      s.step (fun _ => .ok [1]) .process = some t ∧ t.reader = .processing [7] := by
  let pushActs : List SessionAction := [.push 1 [7], .pushStep (.check 1), .pushStep (.send 1)]
  let sys := frameSystem fun _ => .ok [1]
  constructor
  · let final := sys.run sys.init (pushActs ++ closeActs)
    let read := final.bind fun s => s.step (fun _ => .ok [1]) .read
    let called := read.bind fun t => t.step (fun _ => .ok [1]) .process
    have hcalled : called.map (·.reader) = some (.processing [7]) := by rfl
    have hclosed : final.map (·.closers 0) = some .returned := by rfl
    obtain ⟨u, hu, hreader⟩ := Option.map_eq_some_iff.mp hcalled
    obtain ⟨t, ht, hprocess⟩ := Option.bind_eq_some_iff.mp hu
    obtain ⟨s, hs, hread⟩ := Option.bind_eq_some_iff.mp ht
    rw [hs, Option.map_some, Option.some.injEq] at hclosed
    exact ⟨s, t, u, StepSystem.reachable_of_run hs, ⟨0, hclosed⟩, hread, hprocess, hreader⟩
  · let final := sys.run sys.init (pushActs ++ [.read] ++ closeActs)
    let called := final.bind fun s => s.step (fun _ => .ok [1]) .process
    have hcalled : called.map (·.reader) = some (.processing [7]) := by rfl
    have hfacts :
        final.map (fun s => (s.closers 0, s.inbound.chan.buf)) = some (.returned, []) := by
      rfl
    obtain ⟨t, ht, hreader⟩ := Option.map_eq_some_iff.mp hcalled
    obtain ⟨s, hs, hprocess⟩ := Option.bind_eq_some_iff.mp ht
    simp only [hs, Option.map_some, Option.some.injEq, Prod.mk.injEq] at hfacts
    exact ⟨s, t, StepSystem.reachable_of_run hs, ⟨0, hfacts.1⟩, hfacts.2, hprocess, hreader⟩

end PionBridge.Server
