import Mathlib.Data.Finset.Card
import PionBridge.Proofs.DCSend.Answers

/-!
# `PionBridge.Proofs.DCSend.Shutdown`: after `closeState` nothing is left over

The first caller of `closeState` closes `done`, broadcasts and drains. Two things could go
wrong. The sender could park after the broadcast: it cannot, because it looks at `done` under
the lock and the broadcast needs the lock (`parked`). And an item could be enqueued after the
drain has found the channel empty: each such item has its own enqueuer that has not looked
for it yet, so the channel never holds more items than there are readers between their
enqueue and their reclaiming receive (`covered`).

With no step left there is no such reader, so the channel is empty, and by
`answers_of_reachable` every request has been answered.
-/

set_option autoImplicit false

namespace PionBridge.Server

open PionBridge.Lib

/-- The reader has enqueued and has not made its reclaiming receive. -/
def ReaderPc.afterEnqueue : ReaderPc → Bool
  | .recheck | .reclaim => true
  | _ => false

/-- The goroutine runs the function of `closeOnce`. -/
def CloserPc.inOnce : CloserPc → Bool
  | .closing | .draining | .failing _ => true
  | _ => false

theorem ReaderPc.afterEnqueue_of_tunes {pc : ReaderPc} (h : pc.tunes = true) :
    pc.afterEnqueue = false := by
  cases pc with
  | recheck => cases h
  | reclaim => cases h
  | _ => rfl

namespace ChannelState

/-- The readers of `F` cover the items of the channel. -/
def Covered (w : ChannelState) : Prop :=
  ∃ F : Finset Session, (∀ s ∈ F, (w.readers s).afterEnqueue = true) ∧ w.work.length ≤ F.card

structure ShutdownInv (w : ChannelState) : Prop where
  done_iff : w.done = true ↔ w.once ≠ .fresh
  running : ∀ g, (w.closers g).inOnce = true → w.once = .running
  runner : w.once = .running → ∃ g, (w.closers g).inOnce = true
  unique : ∀ g g', (w.closers g).inOnce = true → (w.closers g').inOnce = true → g = g'
  parked : w.done = true → w.sender.waits = true → ∃ g, w.closers g = .closing
  covered : w.once = .finished → w.Covered

/-- A step that leaves `done`, the once and the closers alone. -/
theorem ShutdownInv.quiet {w w' : ChannelState} (hw : w.ShutdownInv) (h1 : w'.done = w.done)
    (h2 : w'.once = w.once) (h3 : w'.closers = w.closers)
    (h4 : w'.done = true → w'.sender.waits = true → w.sender.waits = true)
    (h5 : w.once = .finished → w'.Covered) : w'.ShutdownInv where
  done_iff := by rw [h1, h2, hw.done_iff]
  running := by rw [h2, h3]; exact hw.running
  runner := by rw [h2, h3]; exact hw.runner
  unique := by rw [h3]; exact hw.unique
  parked hdone hwait := by
    rw [h3]
    exact hw.parked (h1 ▸ hdone) (h4 hdone hwait)
  covered hfin := h5 (h2 ▸ hfin)

theorem Covered.of_work_le {w w' : ChannelState} (hw : w.Covered) (h1 : w'.readers = w.readers)
    (h2 : w'.work.length ≤ w.work.length) : w'.Covered := by
  obtain ⟨F, hF, hcard⟩ := hw
  exact ⟨F, by rwa [h1], h2.trans hcard⟩

/-- A reader that is no part of the cover moves, or one of the cover stays in it. -/
theorem Covered.withReader {w : ChannelState} (hw : w.Covered) {s : Session} {pc : ReaderPc}
    (h : (w.readers s).afterEnqueue = true → pc.afterEnqueue = true) :
    (w.withReader s pc).Covered := by
  obtain ⟨F, hF, hcard⟩ := hw
  refine ⟨F, fun s' hs' => ?_, hcard⟩
  by_cases heq : s' = s
  · subst heq
    simpa [ChannelState.withReader] using h (hF s' hs')
  · simpa [ChannelState.withReader, heq] using hF s' hs'

/-- An enqueue adds an item and its enqueuer. -/
theorem Covered.enqueue {w : ChannelState} (hw : w.Covered) {s : Session} {i : Item}
    (hs : w.readers s = .enqueue i) :
    Covered { w.withReader s .recheck with work := w.work ++ [i] } := by
  obtain ⟨F, hF, hcard⟩ := hw
  have hnew : s ∉ F := by
    intro hmem
    have h := hF s hmem
    rw [hs] at h
    cases h
  refine ⟨insert s F, fun s' hs' => ?_, ?_⟩
  · by_cases heq : s' = s
    · subst heq
      simp [ChannelState.withReader, ReaderPc.afterEnqueue]
    · have hmem : s' ∈ F := (Finset.mem_insert.mp hs').resolve_left heq
      simpa [ChannelState.withReader, heq] using hF s' hmem
  · rw [Finset.card_insert_of_notMem hnew]
    simpa using hcard

/-- A reclaiming receive takes a reader out of the cover, and an item if there is one. -/
theorem Covered.reclaim {w w' : ChannelState} (hw : w.Covered) (s : Session) (pc : ReaderPc)
    (hreaders : w'.readers = Function.update w.readers s pc)
    (hwork : w'.work.length ≤ w.work.length - 1) : w'.Covered := by
  obtain ⟨F, hF, hcard⟩ := hw
  refine ⟨F.erase s, fun s' hs' => ?_, ?_⟩
  · obtain ⟨hne, hmem⟩ := Finset.mem_erase.mp hs'
    rw [hreaders, Function.update_of_ne hne]
    exact hF s' hmem
  · have herase : F.card - 1 ≤ (F.erase s).card := Finset.pred_card_le_card_erase
    omega

/-! ### The steps -/

/-- A reader that is no part of the cover moves, and leaves the channel alone. -/
theorem ShutdownInv.withReader {w w' : ChannelState} (hw : w.ShutdownInv) {s : Session}
    {pc : ReaderPc} (hout : (w.readers s).afterEnqueue = false)
    (h1 : w'.readers = Function.update w.readers s pc) (h2 : w'.work = w.work)
    (h3 : w'.done = w.done) (h4 : w'.once = w.once) (h5 : w'.closers = w.closers)
    (h6 : w'.sender.waits = true → w.sender.waits = true) : w'.ShutdownInv := by
  refine hw.quiet h3 h4 h5 (fun _ => h6) fun hfin => ?_
  have hmoved : (w.withReader s pc).Covered := by
    refine (hw.covered hfin).withReader fun hin => ?_
    rw [hout] at hin
    cases hin
  exact hmoved.of_work_le h1 (by rw [h2]; exact le_rfl)

/-- The sender or pion moves: items may leave the channel, and a sender that goes to sleep has
seen `done` open. -/
theorem ShutdownInv.withSender {w w' : ChannelState} (hw : w.ShutdownInv)
    (h1 : w'.readers = w.readers) (h2 : w'.work.length ≤ w.work.length)
    (h3 : w'.done = w.done) (h4 : w'.once = w.once) (h5 : w'.closers = w.closers)
    (h6 : w'.done = true → w'.sender.waits = true → w.sender.waits = true) :
    w'.ShutdownInv :=
  hw.quiet h3 h4 h5 h6 fun hfin => (hw.covered hfin).of_work_le h1 h2

/-- One goroutine moves without entering or leaving the function of the once. -/
theorem ShutdownInv.withCloser {w w' : ChannelState} (hw : w.ShutdownInv) (g : Nat)
    (pc : CloserPc) (hin : pc.inOnce = (w.closers g).inOnce)
    (h1 : w'.closers = Function.update w.closers g pc) (h2 : w'.done = w.done)
    (h3 : w'.once = w.once)
    (h4 : w.done = true → w'.sender.waits = true →
      w.sender.waits = true ∧ w.closers g ≠ .closing)
    (h5 : w.once = .finished → w'.Covered) : w'.ShutdownInv := by
  have hsame : ∀ g', (w'.closers g').inOnce = (w.closers g').inOnce := by
    intro g'
    rw [h1]
    by_cases hg : g' = g
    · subst hg
      rw [Function.update_self, hin]
    · rw [Function.update_of_ne hg]
  refine ⟨?_, ?_, ?_, ?_, ?_, ?_⟩
  · rw [h2, h3]
    exact hw.done_iff
  · intro g' hg'
    rw [h3]
    exact hw.running g' (hsame g' ▸ hg')
  · intro hrun
    rw [h3] at hrun
    obtain ⟨g', hg'⟩ := hw.runner hrun
    exact ⟨g', (hsame g').trans hg'⟩
  · intro a b ha hb
    exact hw.unique a b (hsame a ▸ ha) (hsame b ▸ hb)
  · intro hdone hwait
    rw [h2] at hdone
    obtain ⟨hwait', hne⟩ := h4 hdone hwait
    obtain ⟨g', hg'⟩ := hw.parked hdone hwait'
    have hgne : g' ≠ g := by
      rintro rfl
      exact hne hg'
    refine ⟨g', ?_⟩
    rw [h1, Function.update_of_ne hgne]
    exact hg'
  · intro hfin
    exact h5 (h3 ▸ hfin)

/-- The first call of the once: `g` is the one goroutine inside. -/
theorem ShutdownInv.closeFirst {w : ChannelState} (hw : w.ShutdownInv) {g : Nat}
    (honce : w.once = .fresh) :
    ShutdownInv { w.withCloser g .closing with done := true, once := .running } := by
  have hself : (w.withCloser g .closing).closers g = .closing := by
    simp [ChannelState.withCloser]
  have honly : ∀ g', ((w.withCloser g .closing).closers g').inOnce = true → g' = g := by
    intro g' hg'
    by_contra hne
    simp only [ChannelState.withCloser, Function.update_of_ne hne] at hg'
    have hrun := hw.running g' hg'
    rw [honce] at hrun
    cases hrun
  refine ⟨by simp, fun _ _ => rfl, fun _ => ⟨g, ?_⟩, ?_, fun _ _ => ⟨g, hself⟩, ?_⟩
  · exact (congrArg CloserPc.inOnce hself).trans rfl
  · intro a b ha hb
    rw [honly a ha, honly b hb]
  · intro hfin
    cases hfin

/-- The drain finds the channel empty, and the once is finished. -/
theorem ShutdownInv.drained {w : ChannelState} (hw : w.ShutdownInv) {g : Nat}
    (hpc : w.closers g = .draining) (hwork : w.work = []) :
    ShutdownInv { w.withCloser g .returned with once := .finished } := by
  have hin : (w.closers g).inOnce = true := by rw [hpc]; rfl
  have hdone : w.done = true := hw.done_iff.mpr (by rw [hw.running g hin]; decide)
  have hout : ∀ g', ((w.withCloser g .returned).closers g').inOnce = true → False := by
    intro g' hg'
    by_cases heq : g' = g
    · subst heq
      simp [ChannelState.withCloser, CloserPc.inOnce] at hg'
    · simp only [ChannelState.withCloser, Function.update_of_ne heq] at hg'
      exact heq (hw.unique g' g hg' hin)
  refine ⟨?_, fun g' hg' => (hout g' hg').elim, fun hrun' => (by cases hrun'), ?_, ?_, ?_⟩
  · exact ⟨fun _ => by simp, fun _ => hdone⟩
  · intro a _ ha _
    exact (hout a ha).elim
  · intro _ hwait
    -- The broadcast has been made, so the sender does not wait.
    obtain ⟨g', hg'⟩ := hw.parked hdone hwait
    have heq : g' = g := hw.unique g' g (by rw [hg']; rfl) hin
    rw [heq, hpc] at hg'
    cases hg'
  · intro _
    exact ⟨∅, by simp, by simp [ChannelState.withCloser, hwork]⟩

/-- The step lemma. -/
theorem ShutdownInv.step {c : Channel} {w w' : ChannelState} {a : SendAction}
    (hw : w.ShutdownInv) (h : w.step c a = some w') : w'.ShutdownInv := by
  -- A goroutine inside the function of the once is there before the drain has finished.
  have hbusy : ∀ {g}, (w.closers g).inOnce = true → w.once ≠ .finished := by
    intro g hin hfin
    have hrun := hw.running g hin
    rw [hfin] at hrun
    cases hrun
  -- A sender that was woken does not wait.
  have hwake : ¬ w.sender.holdsLock = true → w.sender.wake.waits = true → False := by
    intro hlock hwait
    rw [SenderPc.waits_wake hlock] at hwait
    cases hwait
  cases moved h with
  | dcSend s msg hpc => exact hw.withReader (by rw [hpc]; rfl) rfl rfl rfl rfl rfl id
  | enqueue s i hpc =>
      exact hw.quiet rfl rfl rfl (fun _ hwait => hwait)
        fun hfin => (hw.covered hfin).enqueue hpc
  | enqueueClosed s i hpc => exact hw.withReader (by rw [hpc]; rfl) rfl rfl rfl rfl rfl id
  | recheck s hpc =>
      refine hw.quiet rfl rfl rfl (fun _ hwait => hwait) fun hfin => ?_
      -- Once the drain has finished `done` is closed, so the reader goes on to reclaim.
      have hdone : w.done = true := hw.done_iff.mpr (by rw [hfin]; decide)
      exact (hw.covered hfin).withReader (by simp [hdone, ReaderPc.afterEnqueue])
  | reclaim s i rest hpc hwork =>
      refine hw.quiet rfl rfl rfl (fun _ hwait => hwait) fun hfin => ?_
      exact (hw.covered hfin).reclaim s (.failing i) rfl (by simp [hwork])
  | reclaimNone s hpc hwork =>
      refine hw.quiet rfl rfl rfl (fun _ hwait => hwait) fun hfin => ?_
      refine (hw.covered hfin).reclaim s .idle rfl ?_
      show w.work.length ≤ w.work.length - 1
      simp [hwork]
  | fail s i hpc => exact hw.withReader (by rw [hpc]; rfl) rfl rfl rfl rfl rfl id
  | failOwn s i m hpc => exact hw.withReader (by rw [hpc]; rfl) rfl rfl rfl rfl rfl id
  | ret s r m hpc => exact hw.withReader (by rw [hpc]; rfl) rfl rfl rfl rfl rfl id
  | tune _ s pc low hold =>
      exact hw.withReader (ReaderPc.afterEnqueue_of_tunes hold) rfl rfl rfl rfl rfl id
  | setState s id t pc hold _ hlock =>
      exact hw.withReader (by rw [hold]; rfl) rfl rfl rfl rfl rfl
        fun hwait => (hwake hlock hwait).elim
  | take i rest _ hwork =>
      exact hw.withSender rfl (by simp [hwork]) rfl rfl rfl fun _ hwait => by cases hwait
  | stop => exact hw.withSender rfl le_rfl rfl rfl rfl fun _ hwait => by cases hwait
  | work _ i pc n _ _ hwaits =>
      refine hw.withSender rfl le_rfl rfl rfl rfl fun hdone hwait => ?_
      rcases hwaits hwait with hold | hopen
      · exact hold
      · rw [show w.done = true from hdone] at hopen
        cases hopen
  | senderAnswer _ i pc m _ hpc =>
      refine hw.withSender rfl le_rfl rfl rfl rfl fun _ hwait => ?_
      rcases hpc with rfl | ⟨err, rfl⟩ <;> cases hwait
  | errorEvent => exact hw.withSender rfl le_rfl rfl rfl rfl fun _ hwait => by cases hwait
  | callClose g hpc =>
      exact hw.withCloser g .calling (by rw [hpc]; rfl) rfl rfl rfl
        (fun _ hwait => ⟨hwait, by rw [hpc]; simp⟩)
        fun hfin => (hw.covered hfin).of_work_le rfl le_rfl
  | closeFirst g _ honce => exact hw.closeFirst honce
  | closeAgain g hpc =>
      exact hw.withCloser g .returned (by rw [hpc]; rfl) rfl rfl rfl
        (fun _ hwait => ⟨hwait, by rw [hpc]; simp⟩)
        fun hfin => (hw.covered hfin).of_work_le rfl le_rfl
  | broadcast g hpc hlock =>
      exact hw.withCloser g .draining (by rw [hpc]; rfl) rfl rfl rfl
        (fun _ hwait => (hwake hlock hwait).elim)
        fun hfin => absurd hfin (hbusy (by rw [hpc]; rfl))
  | drain g i rest hpc =>
      exact hw.withCloser g (.failing i) (by rw [hpc]; rfl) rfl rfl rfl
        (fun _ hwait => ⟨hwait, by rw [hpc]; simp⟩)
        fun hfin => absurd hfin (hbusy (by rw [hpc]; rfl))
  | drained g hpc hwork => exact hw.drained hpc hwork
  | closerFail g i hpc =>
      exact hw.withCloser g .draining (by rw [hpc]; rfl) rfl rfl rfl
        (fun _ hwait => ⟨hwait, by rw [hpc]; simp⟩)
        fun hfin => absurd hfin (hbusy (by rw [hpc]; rfl))
  | pion => exact hw.withSender rfl le_rfl rfl rfl rfl fun _ hwait => hwait
  | callback m hlock =>
      exact hw.withSender rfl le_rfl rfl rfl rfl fun _ hwait => (hwake hlock hwait).elim
  | report => exact hw.withSender rfl le_rfl rfl rfl rfl fun _ hwait => hwait

theorem shutdownInv_of_reachable {c : Channel} {w : ChannelState}
    (hw : (sendSystem c).Reachable w) : w.ShutdownInv := by
  refine hw.invariant ?_ fun _ _ _ _ hinv hstep => hinv.step hstep
  constructor <;> simp [sendSystem, Channel.start, CloserPc.inOnce]

/-! ### States with no step left -/

section Quiescent

variable {c : Channel} {w : ChannelState}

theorem Quiescent.lock_free (hq : w.Quiescent c) : ¬ w.sender.holdsLock = true := by
  intro hlock
  cases hs : w.sender with
  | check i => simpa [ChannelState.step, ChannelState.stepSender, hs] using hq .check rfl
  | checkDone i =>
      simpa [ChannelState.step, ChannelState.stepSender, hs] using hq .checkDone rfl
  | park i => simpa [ChannelState.step, ChannelState.stepSender, hs] using hq .park rfl
  | _ =>
      rw [hs] at hlock
      cases hlock

/-- The sender has left, sleeps, or finds nothing to do. -/
theorem Quiescent.sender (hq : w.Quiescent c) :
    w.sender = .exited ∨ (∃ i, w.sender = .parked i) ∨
      (w.sender = .select ∧ w.work = [] ∧ w.done = false) := by
  cases hs : w.sender with
  | exited => exact Or.inl rfl
  | parked i => exact Or.inr (Or.inl ⟨i, rfl⟩)
  | select =>
      refine Or.inr (Or.inr ⟨rfl, ?_, ?_⟩)
      · cases hwork : w.work with
        | nil => rfl
        | cons i rest =>
            simpa [ChannelState.step, ChannelState.stepSender, hs, hwork] using hq .take rfl
      · have hstop := hq .stop rfl
        simpa [ChannelState.step, ChannelState.stepSender, hs] using hstop
  | run i => simpa [ChannelState.step, ChannelState.stepSender, hs] using hq .doSend rfl
  | sending i call =>
      simpa [ChannelState.step, ChannelState.stepSender, hs]
        using hq (.sendReturn (.error "")) rfl
  | failing i err =>
      simpa [ChannelState.step, ChannelState.stepSender, hs] using hq .sendError rfl
  | reporting i err =>
      simpa [ChannelState.step, ChannelState.stepSender, hs] using hq .errorEvent rfl
  | lock i => simpa [ChannelState.step, ChannelState.stepSender, hs] using hq .lock rfl
  | check i => simpa [ChannelState.step, ChannelState.stepSender, hs] using hq .check rfl
  | checkDone i =>
      simpa [ChannelState.step, ChannelState.stepSender, hs] using hq .checkDone rfl
  | park i => simpa [ChannelState.step, ChannelState.stepSender, hs] using hq .park rfl
  | closing i =>
      simpa [ChannelState.step, ChannelState.stepSender, hs] using hq .closedAnswer rfl
  | acking i => simpa [ChannelState.step, ChannelState.stepSender, hs] using hq .ack rfl

/-- A reader is idle, or it waits to enqueue on a full open channel. -/
theorem Quiescent.reader (hq : w.Quiescent c) (s : Session) :
    w.readers s = .idle ∨
      ∃ i, w.readers s = .enqueue i ∧ c.depth ≤ w.work.length ∧ w.done = false := by
  cases hs : w.readers s with
  | idle => exact Or.inl rfl
  | enqueue i =>
      refine Or.inr ⟨i, rfl, ?_, ?_⟩
      · have hput := hq (.enqueue s) rfl
        simpa [ChannelState.step, ChannelState.stepReader, hs] using hput
      · have hclosed := hq (.enqueueClosed s) rfl
        simpa [ChannelState.step, ChannelState.stepReader, hs] using hclosed
  | recheck => simpa [ChannelState.step, ChannelState.stepReader, hs] using hq (.recheck s) rfl
  | reclaim =>
      cases hwork : w.work <;>
        simpa [ChannelState.step, ChannelState.stepReader, hs, hwork] using hq (.reclaim s) rfl
  | failing i => simpa [ChannelState.step, ChannelState.stepReader, hs] using hq (.fail s) rfl
  | failingOwn i =>
      simpa [ChannelState.step, ChannelState.stepReader, hs] using hq (.fail s) rfl
  | returning r m => simpa [ChannelState.step, ChannelState.stepReader, hs] using hq (.ret s) rfl
  | setPion id t =>
      simpa [ChannelState.step, ChannelState.stepReader, hs] using hq (.setPion s) rfl
  | findState id t =>
      simpa [ChannelState.step, ChannelState.stepReader, hs] using hq (.findState s) rfl
  | setState id t =>
      simpa [ChannelState.step, ChannelState.stepReader, hs, hq.lock_free]
        using hq (.setState s) rfl

/-- No goroutine is inside the function of the once. -/
theorem Quiescent.closer (hq : w.Quiescent c) (g : Nat) : (w.closers g).inOnce = false := by
  cases hs : w.closers g with
  | closing =>
      simpa [ChannelState.step, ChannelState.stepCloser, hs, hq.lock_free]
        using hq (.broadcast g) rfl
  | draining =>
      cases hwork : w.work <;>
        simpa [ChannelState.step, ChannelState.stepCloser, hs, hwork] using hq (.drain g) rfl
  | failing i =>
      simpa [ChannelState.step, ChannelState.stepCloser, hs] using hq (.closerFail g) rfl
  | _ => rfl

theorem Quiescent.closer_held (hq : w.Quiescent c) (g : Nat) : (w.closers g).held = none := by
  have hout := hq.closer g
  cases hs : w.closers g with
  | failing i =>
      rw [hs] at hout
      cases hout
  | _ => rfl

/-- Idle readers, finished closers, no callback and a sender without a step. -/
theorem quiescent_of_idle (hreaders : ∀ s, w.readers s = .idle)
    (hclosers : ∀ g, w.closers g = .idle ∨ w.closers g = .returned) (hcall : w.callbacks = 0)
    (hsender : w.sender = .exited ∨ ∃ i, w.sender = .parked i) : w.Quiescent c := by
  intro a ha
  cases a
  case dcSend | setThreshold | callClose | detached | release | pionClose | reportClose =>
      cases ha
  case enqueue s | enqueueClosed s | recheck s | reclaim s | fail s | ret s | setPion s |
      findState s | setState s =>
      simp [ChannelState.step, ChannelState.stepReader, hreaders s]
  case closeOnce g | broadcast g | drain g | closerFail g =>
      rcases hclosers g with hg | hg <;>
        simp [ChannelState.step, ChannelState.stepCloser, hg]
  case callback => simp [ChannelState.step, ChannelState.stepPion, hcall]
  case take | stop | doSend | sendReturn | sendError | errorEvent | lock | check | checkDone |
      park | closedAnswer | ack =>
      rcases hsender with hs | ⟨i, hs⟩ <;>
        simp [ChannelState.step, ChannelState.stepSender, hs]

/-- After `close(done)`, a state with no step left has an empty channel, a sender that has
left and idle readers. -/
theorem ShutdownInv.quiescent (hw : w.ShutdownInv) (hdone : w.done = true)
    (hq : w.Quiescent c) :
    w.work = [] ∧ w.sender = .exited ∧ ∀ s, w.readers s = .idle := by
  have hreaders : ∀ s, w.readers s = .idle := by
    intro s
    rcases hq.reader s with hs | ⟨i, -, -, hopen⟩
    · exact hs
    · rw [hdone] at hopen
      cases hopen
  have hsender : w.sender = .exited := by
    rcases hq.sender with hs | ⟨i, hs⟩ | ⟨-, -, hopen⟩
    · exact hs
    · obtain ⟨g, hg⟩ := hw.parked hdone (by rw [hs]; rfl)
      have hout := hq.closer g
      rw [hg] at hout
      cases hout
    · rw [hdone] at hopen
      cases hopen
  refine ⟨?_, hsender, hreaders⟩
  -- The once has finished, and no reader is left to cover an item.
  have hfin : w.once = .finished := by
    cases honce : w.once with
    | fresh => exact absurd honce (hw.done_iff.mp hdone)
    | running =>
        obtain ⟨g, hg⟩ := hw.runner honce
        rw [hq.closer g] at hg
        cases hg
    | finished => rfl
  obtain ⟨F, hF, hcard⟩ := hw.covered hfin
  have hempty : F = ∅ := by
    refine Finset.eq_empty_of_forall_notMem fun s hs => ?_
    have hafter := hF s hs
    rw [hreaders s] at hafter
    cases hafter
  rw [hempty, Finset.card_empty] at hcard
  exact List.length_eq_zero_iff.mp (by omega)

end Quiescent

end ChannelState

open ChannelState

/-- In every interleaving a `dc:send` that found the state gets at most one answer. The answer
is an ack or an error with the id of the request and goes to the session that issued it:
through `sendEvent` when the payload is text or binary, and as the return value of the handler
otherwise, and then it is the error that says so. When `done` is closed and no goroutine has a step
left, the work channel is empty and every such `dc:send` has got exactly one answer. -/
theorem dcSend_answered_once (c : Channel) (w : ChannelState)
    (hw : (sendSystem c).Reachable w) :
    (∀ r ∈ w.requests, r.found = true → (w.answers r).length ≤ 1 ∧
      ∀ e ∈ w.answers r, e.session = r.session ∧ e.msg.id = r.msg.id ∧
        (e.msg.type = "dc:send:ack" ∨ e.msg.type = "error") ∧
        (e.route = .sendEvent ↔ r.work.isSome = true) ∧
        (r.work = none → e.msg = errorResponse r.msg.id "INVALID_REQUEST"
          "data must be string or binary" false r.msg.handle)) ∧
    (w.done = true → w.Quiescent c → w.work = [] ∧
      ∀ r ∈ w.requests, r.found = true → (w.answers r).length = 1) := by
  obtain ⟨hlog, hex⟩ := answers_of_reachable hw
  refine ⟨?_, ?_⟩
  · intro r hr hfound
    obtain ⟨hle, -, hans⟩ := answers_count hlog hex hr
    refine ⟨hle, fun e he => ?_⟩
    obtain ⟨hsession, hid, htype, hroute, hrefused⟩ := hans e he
    exact ⟨hsession, hid, htype.imp And.left id, by simpa [hfound] using hroute, hrefused hfound⟩
  · intro hdone hq
    obtain ⟨hwork, hsender, hreaders⟩ :=
      (shutdownInv_of_reachable hw).quiescent hdone hq
    refine ⟨hwork, fun r hr _ => ?_⟩
    refine answered_of_idle hlog hex (fun h => ?_) hwork hr
    cases h with
    | reader s => exact congrArg ReaderPc.held (hreaders s)
    | sender => exact congrArg SenderPc.held hsender
    | closer g => exact hq.closer_held g

/-- A channel with the default configuration, created by session 0. -/
def plainChannel : Channel := ⟨"dc", 0, false, defaultDCConfig, by decide⟩

/-- A `dc:send` frame for that channel. -/
def plainSend (id : Int) (payload : Value) : Message := ⟨"dc:send", id, "dc", [("data", payload)]⟩

/-- Session 1 enqueues, a goroutine closes the state and drains, and session 2, which had
found the state before, enqueues after the drain and reclaims its item. -/
theorem dcSend_answered_once_late_enqueue :
    ∃ w, (sendSystem plainChannel).Reachable w ∧ w.requests.length = 2 ∧ w.work = [] ∧
      ∀ r ∈ w.requests, r.found = true → (w.answers r).length = 1 := by
  let acts : List SendAction := [.dcSend 1 (plainSend 1 (.bin [1])),
    .dcSend 2 (plainSend 1 (.str "a")), .enqueue 1, .callClose 0, .closeOnce 0, .broadcast 0,
    .drain 0, .closerFail 0, .drain 0, .recheck 1, .reclaim 1, .enqueue 2, .recheck 2,
    .reclaim 2, .fail 2, .stop]
  let final := (sendSystem plainChannel).run (sendSystem plainChannel).init acts
  have hrun : final.isSome := by rfl
  obtain ⟨w, hw⟩ := Option.isSome_iff_exists.mp hrun
  have hreach := StepSystem.reachable_of_run hw
  have hreaders : ∀ s, final.map (fun w => w.readers s) = some .idle
    | 0 => by rfl
    | 1 => by rfl
    | 2 => by rfl
    | _ + 3 => by rfl
  have hclosers : ∀ g, final.map (fun w => w.closers g) = some .idle ∨
      final.map (fun w => w.closers g) = some .returned
    | 0 => Or.inr (by rfl)
    | _ + 1 => Or.inl (by rfl)
  have hrest : final.map (fun w => (w.sender, w.callbacks, w.done, w.requests.length))
      = some (.exited, 0, true, 2) := by rfl
  simp only [hw, Option.map_some, Option.some.injEq, Prod.mk.injEq] at hreaders hclosers hrest
  obtain ⟨hsender, hcall, hdone, hlen⟩ := hrest
  have hq : w.Quiescent plainChannel :=
    quiescent_of_idle hreaders hclosers hcall (Or.inl hsender)
  obtain ⟨hwork, hone⟩ := (dcSend_answered_once plainChannel w hreach).2 hdone hq
  exact ⟨w, hreach, hlen, hwork, hone⟩

/-- A payload that is neither text nor binary: the error is the return value of the handler
and does not go through `sendEvent`. -/
theorem dcSend_answer_not_by_sendEvent :
    ¬ ∀ (c : Channel) (w : ChannelState), (sendSystem c).Reachable w →
      ∀ r ∈ w.requests, r.found = true → ∀ e ∈ w.answers r, e.route = .sendEvent := by
  intro hall
  let acts : List SendAction := [.dcSend 1 (plainSend 7 (.int .int64 3)), .ret 1]
  let final := (sendSystem plainChannel).run (sendSystem plainChannel).init acts
  have hrun : final.isSome := by rfl
  obtain ⟨w, hw⟩ := Option.isSome_iff_exists.mp hrun
  let r : Request := ⟨0, 1, plainSend 7 (.int .int64 3), true⟩
  let e : Emission := ⟨some r, 1, .returned,
    errorResponse 7 "INVALID_REQUEST" "data must be string or binary" false "dc"⟩
  have hlog : final.map (fun w => (w.requests, w.answers r)) = some ([r], [e]) := by rfl
  simp only [hw, Option.map_some, Option.some.injEq, Prod.mk.injEq] at hlog
  have hroute := hall plainChannel w (StepSystem.reachable_of_run hw) r (by simp [hlog.1]) rfl e
    (by simp [hlog.2])
  cases hroute

end PionBridge.Server
