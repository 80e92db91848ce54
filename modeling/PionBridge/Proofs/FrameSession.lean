import PionBridge.Server.FrameSession

/-!
# `PionBridge.Proofs.FrameSession`: what goes out of a session, and when it ends

The frames that went on `cw.ch` are those delivered, the one in the writer's hands and those
still queued, in this order, as long as the writer runs. When the writer ends it drops what it
holds, so what was delivered stays a prefix.

`Close` returns after `writerDone` is closed, which is the last thing that the writer does. At
that time both `done` channels are closed, so every goroutine in `enqueue` or `Push` can leave
(`Gate.leaves`), and a call that comes later is refused at its first select (`Gate.Refused`).
-/

set_option autoImplicit false

namespace PionBridge.Server

open PionBridge.Lib

/-- The frame in the hands of the writer, before `deliver` is called with it. -/
def WriterPc.held : WriterPc → List Frame
  | .recheck frame | .calling frame => [frame]
  | _ => []

/-- The writer has left its loop. -/
def WriterPc.ended : WriterPc → Bool
  | .returning | .stopped => true
  | _ => false

/-- The `Close` call has left the once. -/
def ClosePc.past : ClosePc → Bool
  | .waiting | .returned => true
  | _ => false

namespace FrameSession

/-! ### The steps -/

/-- What one step can do. -/
inductive Moved (marshal : Message → Except String Frame) (s : FrameSession) :
    SessionAction → FrameSession → Prop
  | enqueue (g : Nat) (msg : Message) (cw : Gate Frame String writeChanSize)
      (hcw : s.cw.call g (enqueueData marshal msg) = some cw) :
      Moved marshal s (.enqueue g msg) { s with cw := cw }
  | enqueueStep (b : OfferStep) (cw : Gate Frame String writeChanSize)
      (hcw : s.cw.step errConnClosed b = some cw) :
      Moved marshal s (.enqueueStep b) { s with cw := cw }
  | push (g : Nat) (frame : Frame) (inbound : Gate Frame String writeChanSize)
      (hin : s.inbound.call g (.ok frame) = some inbound) :
      Moved marshal s (.push g frame) { s with inbound := inbound }
  | pushStep (b : OfferStep) (inbound : Gate Frame String writeChanSize)
      (hin : s.inbound.step errSessionClosed b = some inbound) :
      Moved marshal s (.pushStep b) { s with inbound := inbound }
  | take (frame : Frame) (cw : Gate Frame String writeChanSize) (hpc : s.writer = .select)
      (hcw : s.cw.recv = some (frame, cw)) :
      Moved marshal s .take { s with cw := cw, writer := .recheck frame }
  | drop (frame : Frame) (hpc : s.writer = .recheck frame) (hdone : s.cw.done = true) :
      Moved marshal s .recheck { s with writer := .returning }
  | recheck (frame : Frame) (hpc : s.writer = .recheck frame) (hdone : s.cw.done = false) :
      Moved marshal s .recheck { s with writer := .calling frame }
  | deliver (frame : Frame) (hpc : s.writer = .calling frame) :
      Moved marshal s .deliver
        { s with writer := .delivering frame, delivered := s.delivered ++ [frame] }
  | deliverReturn (frame : Frame) (hpc : s.writer = .delivering frame) :
      Moved marshal s .deliverReturn { s with writer := .select }
  | writerStop (hpc : s.writer = .select) (hdone : s.cw.done = true) :
      Moved marshal s .writerStop { s with writer := .returning }
  | writerExit (hpc : s.writer = .returning) :
      Moved marshal s .writerExit { s with writer := .stopped, writerDone := true }
  | reader (a : SessionAction) (inbound : Gate Frame String writeChanSize) (pc : FeedPc)
      (hdone : inbound.done = s.inbound.done) (hcallers : inbound.callers = s.inbound.callers) :
      Moved marshal s a { s with inbound := inbound, reader := pc }
  | close (g : Nat) (hpc : s.closers g = .idle) :
      Moved marshal s (.close g) (s.withCloser g .calling)
  | closeFirst (g : Nat) (hpc : s.closers g = .calling) (honce : s.once = .fresh) :
      Moved marshal s (.closeOnce g)
        { s.withCloser g .marking with inbound := s.inbound.close, once := .running }
  | closeAgain (g : Nat) (hpc : s.closers g = .calling) (honce : s.once = .finished) :
      Moved marshal s (.closeOnce g) (s.withCloser g .waiting)
  | closeWriter (g : Nat) (hpc : s.closers g = .marking) :
      Moved marshal s (.closeWriter g)
        { s.withCloser g .waiting with cw := s.cw.close, once := .finished }
  | closeReturn (g : Nat) (hpc : s.closers g = .waiting) (hdone : s.writerDone = true) :
      Moved marshal s (.closeReturn g) (s.withCloser g .returned)

variable {marshal : Message → Except String Frame} {s s' : FrameSession} {a : SessionAction}

theorem moved_stepWriter (h : s.stepWriter a = some s') : Moved marshal s a s' := by
  cases a <;> simp only [stepWriter, reduceCtorEq] at h
  case take =>
      split at h
      · rename_i hpc
        obtain ⟨⟨frame, cw⟩, hcw, rfl⟩ := Option.map_eq_some_iff.mp h
        exact .take frame cw hpc hcw
      · cases h
  case recheck =>
      split at h
      · rename_i frame hpc
        cases h
        split
        · rename_i hdone
          exact .drop frame hpc hdone
        · rename_i hdone
          exact .recheck frame hpc (by simpa using hdone)
      · cases h
  case deliver =>
      split at h
      · rename_i frame hpc
        cases h
        exact .deliver frame hpc
      · cases h
  case deliverReturn =>
      split at h
      · rename_i frame hpc
        cases h
        exact .deliverReturn frame hpc
      · cases h
  case writerStop =>
      split at h
      · rename_i hpc
        split at h
        · rename_i hdone
          cases h
          exact .writerStop hpc hdone
        · cases h
      · cases h
  case writerExit =>
      split at h
      · rename_i hpc
        cases h
        exact .writerExit hpc
      · cases h

theorem moved_stepReader (h : s.stepReader a = some s') : Moved marshal s a s' := by
  cases a <;> simp only [stepReader, reduceCtorEq] at h
  case read =>
      split at h
      · obtain ⟨⟨frame, inbound⟩, hin, rfl⟩ := Option.map_eq_some_iff.mp h
        obtain ⟨-, -, hdone, hcallers⟩ := Gate.recv_eq hin
        exact .reader _ inbound _ hdone hcallers
      · cases h
  case process | processed =>
      split at h
      · cases h
        exact .reader _ s.inbound _ rfl rfl
      · cases h
  case readerStop =>
      split at h
      · split at h
        · cases h
          exact .reader _ s.inbound _ rfl rfl
        · cases h
      · cases h

/-- Every step is in the list. -/
theorem moved (h : s.step marshal a = some s') : Moved marshal s a s' := by
  cases a with
  | enqueue g msg =>
      obtain ⟨cw, hcw, rfl⟩ := Option.map_eq_some_iff.mp h
      exact .enqueue g msg cw hcw
  | enqueueStep b =>
      obtain ⟨cw, hcw, rfl⟩ := Option.map_eq_some_iff.mp h
      exact .enqueueStep b cw hcw
  | push g frame =>
      obtain ⟨inbound, hin, rfl⟩ := Option.map_eq_some_iff.mp h
      exact .push g frame inbound hin
  | pushStep b =>
      obtain ⟨inbound, hin, rfl⟩ := Option.map_eq_some_iff.mp h
      exact .pushStep b inbound hin
  | take | recheck | deliver | deliverReturn | writerStop | writerExit => exact moved_stepWriter h
  | read | process | processed | readerStop => exact moved_stepReader h
  | close g =>
      simp only [step, stepCloser] at h
      split at h
      · rename_i hpc
        cases h
        exact .close g hpc
      · cases h
  | closeOnce g =>
      simp only [step, stepCloser] at h
      split at h
      · rename_i hpc honce
        cases h
        exact .closeFirst g hpc honce
      · rename_i hpc honce
        cases h
        exact .closeAgain g hpc honce
      · cases h
  | closeWriter g =>
      simp only [step, stepCloser] at h
      split at h
      · rename_i hpc
        cases h
        exact .closeWriter g hpc
      · cases h
  | closeReturn g =>
      simp only [step, stepCloser] at h
      split at h
      · rename_i hpc
        split at h
        · rename_i hdone
          cases h
          exact .closeReturn g hpc hdone
        · cases h
      · cases h

/-! ### The invariant -/

/-- What holds in every state. While the writer runs, the frames that went on the channel are
accounted for. The two `done` channels are closed inside the once, and a `Close` call that has
left it waits for the writer. -/
structure SessionInv (s : FrameSession) : Prop where
  flow : s.writer.ended = false →
    s.cw.sent = s.delivered ++ s.writer.held ++ s.cw.chan.buf
  delivered : s.delivered <+: s.cw.sent
  stopped : s.writerDone = true → s.writer = .stopped
  begun : s.once ≠ .fresh → s.inbound.done = true
  finished : s.once = .finished → s.cw.done = true
  marking : ∀ g, s.closers g = .marking → s.once ≠ .fresh
  past : ∀ g, (s.closers g).past = true → s.once = .finished
  returned : ∀ g, s.closers g = .returned → s.writerDone = true

/-- A producer moves: what it puts on the channel comes after everything that is there. -/
theorem SessionInv.withCw (hs : s.SessionInv) {cw : Gate Frame String writeChanSize}
    (hflow : ∃ l, cw.sent = s.cw.sent ++ l ∧ cw.chan.buf = s.cw.chan.buf ++ l)
    (hdone : cw.done = s.cw.done) : SessionInv { s with cw := cw } := by
  obtain ⟨l, hsent, hbuf⟩ := hflow
  refine ⟨fun hrun => ?_, ?_, hs.stopped, hs.begun, fun hfin => ?_, hs.marking, hs.past,
    hs.returned⟩
  · show cw.sent = s.delivered ++ s.writer.held ++ cw.chan.buf
    rw [hsent, hbuf, hs.flow hrun, List.append_assoc]
  · show s.delivered <+: cw.sent
    rw [hsent]
    exact hs.delivered.trans (List.prefix_append _ _)
  · exact hdone.trans (hs.finished hfin)

theorem SessionInv.withInbound (hs : s.SessionInv) {inbound : Gate Frame String writeChanSize}
    {pc : FeedPc} (hdone : inbound.done = s.inbound.done) :
    SessionInv { s with inbound := inbound, reader := pc } where
  flow := hs.flow
  delivered := hs.delivered
  stopped := hs.stopped
  begun hbegun := hdone.trans (hs.begun hbegun)
  finished := hs.finished
  marking := hs.marking
  past := hs.past
  returned := hs.returned

/-- The writer moves before it has stopped. -/
theorem SessionInv.withWriter (hs : s.SessionInv) {pc : WriterPc} (hrun : s.writer ≠ .stopped)
    (hflow : pc.ended = false → s.cw.sent = s.delivered ++ pc.held ++ s.cw.chan.buf) :
    SessionInv { s with writer := pc } where
  flow := hflow
  delivered := hs.delivered
  stopped hdone := absurd (hs.stopped hdone) hrun
  begun := hs.begun
  finished := hs.finished
  marking := hs.marking
  past := hs.past
  returned := hs.returned

/-- A `Close` call moves outside of the once, and the rest of the state is as it has to be at its
new place. -/
theorem SessionInv.withCloser (hs : s.SessionInv) {g : Nat} {pc : ClosePc} (hpc : pc ≠ .marking)
    (hpast : pc.past = true → s.once = .finished)
    (hret : pc = .returned → s.writerDone = true) : (s.withCloser g pc).SessionInv where
  flow := hs.flow
  delivered := hs.delivered
  stopped := hs.stopped
  begun := hs.begun
  finished := hs.finished
  marking g' hg' := by
    by_cases hg : g' = g
    · subst hg
      exact absurd (by simpa [FrameSession.withCloser] using hg') hpc
    · exact hs.marking g' (by simpa [FrameSession.withCloser, hg] using hg')
  past g' hg' := by
    by_cases hg : g' = g
    · subst hg
      exact hpast (by simpa [FrameSession.withCloser] using hg')
    · exact hs.past g' (by simpa [FrameSession.withCloser, hg] using hg')
  returned g' hg' := by
    by_cases hg : g' = g
    · subst hg
      exact hret (by simpa [FrameSession.withCloser] using hg')
    · exact hs.returned g' (by simpa [FrameSession.withCloser, hg] using hg')

/-- The first `Close` call closes `done`. No other call has left the once yet. -/
theorem SessionInv.closeFirst (hs : s.SessionInv) {g : Nat} (honce : s.once = .fresh) :
    SessionInv { s.withCloser g .marking with inbound := s.inbound.close, once := .running } := by
  have hfresh : ∀ g', (s.closers g').past = false := by
    intro g'
    by_contra hpast
    have hfin := hs.past g' (by simpa using hpast)
    rw [honce] at hfin
    cases hfin
  have hplace : ∀ g', ((s.withCloser g .marking).closers g').past = false := by
    intro g'
    by_cases hg : g' = g
    · subst hg
      simp [FrameSession.withCloser, ClosePc.past]
    · simpa [FrameSession.withCloser, hg] using hfresh g'
  refine ⟨hs.flow, hs.delivered, hs.stopped, fun _ => rfl, (fun hfin => ?_), (fun _ _ => ?_),
    fun g' hg' => ?_, fun g' hg' => ?_⟩
  · cases hfin
  · exact Once.noConfusion
  · cases hg'.symm.trans (hplace g')
  · have hpast : ((s.withCloser g .marking).closers g').past = true := by
      rw [show (s.withCloser g .marking).closers g' = _ from hg']
      rfl
    cases hpast.symm.trans (hplace g')

/-- It goes on to close `cw.done`, and the once is over. -/
theorem SessionInv.closeWriter (hs : s.SessionInv) {g : Nat} (hbegun : s.inbound.done = true) :
    SessionInv { s.withCloser g .waiting with cw := s.cw.close, once := .finished } where
  flow := hs.flow
  delivered := hs.delivered
  stopped := hs.stopped
  begun _ := hbegun
  finished _ := rfl
  marking _ _ := Once.noConfusion
  past _ _ := rfl
  returned g' hg' := by
    by_cases hg : g' = g
    · subst hg
      simp [FrameSession.withCloser] at hg'
    · exact hs.returned g' (by simpa [FrameSession.withCloser, hg] using hg')

/-- The step lemma. -/
theorem SessionInv.step (hs : s.SessionInv) (h : s.step marshal a = some s') :
    s'.SessionInv := by
  cases moved h with
  | enqueue g msg cw hcw =>
      obtain ⟨hsent, hchan⟩ := Gate.call_flow hcw
      exact hs.withCw ⟨[], by simp [hsent], by simp [hchan]⟩ (Gate.call_done hcw)
  | enqueueStep b cw hcw => exact hs.withCw (Gate.step_flow hcw) (Gate.step_done hcw)
  | push g frame inbound hin => exact hs.withInbound (Gate.call_done hin)
  | pushStep b inbound hin => exact hs.withInbound (Gate.step_done hin)
  | take frame cw hpc hcw =>
      obtain ⟨hbuf, hsent, hdone, -⟩ := Gate.recv_eq hcw
      have hflow := hs.flow (by rw [hpc]; rfl)
      refine ⟨fun _ => ?_, ?_, fun hwd => ?_, hs.begun, fun hfin => ?_, hs.marking, hs.past,
        hs.returned⟩
      · show cw.sent = s.delivered ++ [frame] ++ cw.chan.buf
        rw [hsent, hflow, hpc, hbuf]
        simp [WriterPc.held]
      · show s.delivered <+: cw.sent
        rw [hsent]
        exact hs.delivered
      · have hstop := hs.stopped hwd
        rw [hpc] at hstop
        cases hstop
      · exact hdone.trans (hs.finished hfin)
  | drop frame hpc =>
      refine hs.withWriter (by rw [hpc]; simp) fun hrun => ?_
      cases hrun
  | recheck frame hpc =>
      refine hs.withWriter (by rw [hpc]; simp) fun _ => ?_
      have hflow := hs.flow (by rw [hpc]; rfl)
      rwa [hpc] at hflow
  | deliver frame hpc =>
      have hflow := hs.flow (by rw [hpc]; rfl)
      rw [hpc] at hflow
      refine ⟨fun _ => ?_, ?_, fun hwd => ?_, hs.begun, hs.finished, hs.marking, hs.past,
        hs.returned⟩
      · show s.cw.sent = s.delivered ++ [frame] ++ [] ++ s.cw.chan.buf
        rw [List.append_nil]
        exact hflow
      · show s.delivered ++ [frame] <+: s.cw.sent
        rw [hflow]
        exact List.prefix_append _ _
      · have hstop := hs.stopped hwd
        rw [hpc] at hstop
        cases hstop
  | deliverReturn frame hpc =>
      refine hs.withWriter (by rw [hpc]; simp) fun _ => ?_
      have hflow := hs.flow (by rw [hpc]; rfl)
      rwa [hpc] at hflow
  | writerStop hpc =>
      refine hs.withWriter (by rw [hpc]; simp) fun hrun => ?_
      cases hrun
  | writerExit hpc =>
      refine ⟨fun hrun => ?_, hs.delivered, fun _ => rfl, hs.begun, hs.finished, hs.marking,
        hs.past, fun _ _ => rfl⟩
      cases hrun
  | reader _ inbound pc hdone => exact hs.withInbound hdone
  | close g =>
      exact hs.withCloser (by simp) (fun hpast => by cases hpast) (fun hret => by cases hret)
  | closeFirst g _ honce => exact hs.closeFirst honce
  | closeAgain g _ honce =>
      exact hs.withCloser (by simp) (fun _ => honce) (fun hret => by cases hret)
  | closeWriter g hpc => exact hs.closeWriter (hs.begun (hs.marking g hpc))
  | closeReturn g hpc hdone =>
      exact hs.withCloser (by simp) (fun _ => hs.past g (by rw [hpc]; rfl)) fun _ => hdone

/-- The run lemma. -/
theorem sessionInv_of_reachable (hs : (frameSystem marshal).Reachable s) : s.SessionInv := by
  refine hs.invariant ?_ fun _ _ _ _ hinv hstep => hinv.step hstep
  constructor <;> simp [frameSystem, FrameSession.new, Gate.new, Chan.empty, WriterPc.held,
    ClosePc.past]

/-! ### After a `Close` -/

/-- A `Close` call has returned. -/
def Closed (s : FrameSession) : Prop := ∃ g, s.closers g = .returned

theorem SessionInv.of_closed (hs : s.SessionInv) (hclosed : s.Closed) :
    s.writer = .stopped ∧ s.inbound.done = true ∧ s.cw.done = true := by
  obtain ⟨g, hg⟩ := hclosed
  have honce := hs.past g (by rw [hg]; rfl)
  exact ⟨hs.stopped (hs.returned g hg), hs.begun (by rw [honce]; decide), hs.finished honce⟩

/-- A refused `enqueue` stays refused in every step but its own return. -/
theorem refused_cw_step {g : Nat} (hdone : s.cw.done = true) (href : s.cw.Refused g)
    (ha : a ≠ .enqueueStep (.leave g)) (h : s.step marshal a = some s') :
    s'.cw.done = true ∧ s'.cw.Refused g := by
  cases moved h with
  | enqueue g' msg cw hcw => exact ⟨(Gate.call_done hcw).trans hdone, href.call hcw⟩
  | enqueueStep b cw hcw =>
      refine ⟨(Gate.step_done hcw).trans hdone, href.step hdone ?_ hcw⟩
      rintro rfl
      exact ha rfl
  | take frame cw _ hcw =>
      obtain ⟨-, -, hsame, hcallers⟩ := Gate.recv_eq hcw
      exact ⟨hsame.trans hdone, href.congr (by rw [hcallers])⟩
  | closeWriter g' => exact ⟨rfl, href⟩
  | _ => exact ⟨hdone, href⟩

/-- The same for `Push`. -/
theorem refused_inbound_step {g : Nat} (hdone : s.inbound.done = true)
    (href : s.inbound.Refused g) (ha : a ≠ .pushStep (.leave g))
    (h : s.step marshal a = some s') : s'.inbound.done = true ∧ s'.inbound.Refused g := by
  cases moved h with
  | push g' frame inbound hin => exact ⟨(Gate.call_done hin).trans hdone, href.call hin⟩
  | pushStep b inbound hin =>
      refine ⟨(Gate.step_done hin).trans hdone, href.step hdone ?_ hin⟩
      rintro rfl
      exact ha rfl
  | reader _ inbound _ hsame hcallers =>
      exact ⟨hsame.trans hdone, href.congr (by rw [hcallers])⟩
  | closeFirst g' => exact ⟨rfl, href⟩
  | _ => exact ⟨hdone, href⟩

end FrameSession

open FrameSession

/-- In every state of a session the frames passed to `deliver` are a prefix of those that went on
the channel. Once a `Close` has returned, `deliver` is not running and is not called, every
goroutine in `enqueue` or `Push` can leave by a step of its own, and a call that starts then does
not succeed. -/
theorem frame_session_stops_at_close (marshal : Message → Except String Frame) (s : FrameSession)
    (hs : (frameSystem marshal).Reachable s) :
    s.delivered <+: s.cw.sent ∧
    (s.Closed →
      (∀ frame, s.writer ≠ .delivering frame) ∧ s.step marshal .deliver = none ∧
      (∀ g, s.cw.Leaves errConnClosed g ∧ s.inbound.Leaves errSessionClosed g) ∧
      (∀ g msg s₁ s₂, s.step marshal (.enqueue g msg) = some s₁ →
        (frameSystem marshal).StepsUnder (fun _ a => a ≠ .enqueueStep (.leave g)) s₁ s₂ →
        s₂.cw.Refused g) ∧
      ∀ g frame s₁ s₂, s.step marshal (.push g frame) = some s₁ →
        (frameSystem marshal).StepsUnder (fun _ a => a ≠ .pushStep (.leave g)) s₁ s₂ →
        s₂.inbound.Refused g) := by
  have hinv := sessionInv_of_reachable hs
  refine ⟨hinv.delivered, fun hclosed => ?_⟩
  obtain ⟨hstop, hin, hcw⟩ := hinv.of_closed hclosed
  refine ⟨?_, ?_, fun g => ⟨Gate.leaves hcw g, Gate.leaves hin g⟩, ?_, ?_⟩
  · intro frame hdel
    rw [hstop] at hdel
    cases hdel
  · simp [step, stepWriter, hstop]
  · intro g msg s₁ s₂ hcall hrun
    have hstart : s₁.cw.done = true ∧ s₁.cw.Refused g := by
      obtain ⟨cw, hcw', rfl⟩ := Option.map_eq_some_iff.mp hcall
      exact ⟨(Gate.call_done hcw').trans hcw, .of_call hcw'⟩
    refine (hrun.invariant (I := fun s => s.cw.done = true ∧ s.cw.Refused g) hstart ?_).2
    rintro t a u - ⟨hdone, href⟩ ha hstep
    exact refused_cw_step hdone href ha hstep
  · intro g frame s₁ s₂ hcall hrun
    have hstart : s₁.inbound.done = true ∧ s₁.inbound.Refused g := by
      obtain ⟨inbound, hin', rfl⟩ := Option.map_eq_some_iff.mp hcall
      exact ⟨(Gate.call_done hin').trans hin, .of_call hin'⟩
    refine (hrun.invariant (I := fun s => s.inbound.done = true ∧ s.inbound.Refused g)
      hstart ?_).2
    rintro t a u - ⟨hdone, href⟩ ha hstep
    exact refused_inbound_step hdone href ha hstep

/-- One frame is delivered, and a second producer is past the first select of `enqueue` when
`Close` returns. -/
theorem frame_session_stops_at_close_producer :
    ∃ s, (frameSystem fun _ => .ok [1]).Reachable s ∧ s.Closed ∧ s.delivered = [[1]] ∧
      s.cw.callers 2 = .select [1] ∧ s.cw.Leaves errConnClosed 2 := by
  let acts : List SessionAction := [.enqueue 1 (ackResponse "init" 1 "" []),
    .enqueueStep (.check 1), .enqueueStep (.send 1), .take, .recheck, .deliver, .deliverReturn,
    .enqueue 2 (ackResponse "init" 2 "" []), .enqueueStep (.check 2), .close 0, .closeOnce 0,
    .closeWriter 0, .writerStop, .writerExit, .closeReturn 0]
  let sys := frameSystem fun _ => .ok [1]
  let final := sys.run sys.init acts
  have hrun : final.isSome := by rfl
  obtain ⟨s, hs⟩ := Option.isSome_iff_exists.mp hrun
  have hfacts : final.map (fun s => (s.closers 0, s.delivered, s.cw.callers 2))
      = some (.returned, [[1]], .select [1]) := by rfl
  simp only [hs, Option.map_some, Option.some.injEq, Prod.mk.injEq] at hfacts
  obtain ⟨hclosed, hdelivered, hcaller⟩ := hfacts
  have hreach := StepSystem.reachable_of_run hs
  exact ⟨s, hreach, ⟨0, hclosed⟩, hdelivered, hcaller,
    ((frame_session_stops_at_close _ s hreach).2 ⟨0, hclosed⟩).2.2.1 2 |>.1⟩

end PionBridge.Server
