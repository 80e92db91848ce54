import PionBridge.Server.DCSend

/-!
# `PionBridge.Proofs.DCSend.Steps`: what a step on a channel does

`Moved` lists what one step of `sendSystem` can do, with the state after it. Steps that no
invariant tells apart are one case: the parts of a threshold request (`tune`), what the sender
does with the item in hand (`work`), its answers (`senderAnswer`), and what pion does to an
open channel (`pion`). `ChannelState.moved` reads the list off the step function once. The
invariants of the channel are case analyses over it.
-/

set_option autoImplicit false

namespace PionBridge.Server

open PionBridge.Lib

/-! ### Program counters -/

/-- The unanswered request in the hands of a reader. -/
def ReaderPc.held : ReaderPc → Option Request
  | .enqueue i | .failing i | .failingOwn i => some i.request
  | .returning r _ => r
  | _ => none

/-- The unanswered request in the hands of the sender. While it reports the error event, it
has already answered. -/
def SenderPc.held : SenderPc → Option Request
  | .select | .reporting _ _ | .exited => none
  | .run i | .sending i _ | .failing i _ | .lock i | .check i | .checkDone i | .park i
  | .parked i | .closing i | .acking i => some i.request

def CloserPc.held : CloserPc → Option Request
  | .failing i => some i.request
  | _ => none

/-- The reader is idle or handles a threshold request. -/
def ReaderPc.tunes : ReaderPc → Bool
  | .idle | .setPion _ _ | .findState _ _ | .setState _ _ | .returning none _ => true
  | _ => false

/-- The sender has seen `done` open and goes to sleep, or sleeps. -/
def SenderPc.waits : SenderPc → Bool
  | .park _ | .parked _ => true
  | _ => false

/-- The sender has found the amount above the threshold and not been woken since. -/
def SenderPc.stalls : SenderPc → Bool
  | .checkDone _ | .park _ | .parked _ => true
  | _ => false

/-- The sender is inside `waitForBuffer`. -/
def SenderPc.inWaitForBuffer : SenderPc → Bool
  | .lock _ | .check _ | .checkDone _ | .park _ | .parked _ => true
  | _ => false

theorem ReaderPc.held_of_tunes {pc : ReaderPc} (h : pc.tunes = true) : pc.held = none := by
  cases pc with
  | returning r m =>
      cases r with
      | none => rfl
      | some r => cases h
  | _ => first | rfl | cases h

@[simp] theorem SenderPc.held_wake (pc : SenderPc) : pc.wake.held = pc.held := by
  cases pc <;> rfl

/-- A woken sender does not wait, unless it holds the lock. -/
theorem SenderPc.waits_wake {pc : SenderPc} (h : ¬ pc.holdsLock = true) :
    pc.wake.waits = false := by
  cases pc with
  | park i => exact absurd rfl h
  | parked i => rfl
  | _ => rfl

/-- A sender that waits without the lock sleeps. -/
theorem SenderPc.parked_of_waits {pc : SenderPc} (h : pc.waits = true)
    (hfree : pc.holdsLock = false) : ∃ i, pc = .parked i := by
  cases pc with
  | park i => cases hfree
  | parked i => exact ⟨i, rfl⟩
  | _ => cases h

theorem SenderPc.stalls_wake {pc : SenderPc} (h : pc.stalls = false) :
    pc.wake.stalls = false := by
  cases pc with
  | parked i => cases h
  | _ => exact h

@[simp] theorem SenderPc.inWaitForBuffer_wake (pc : SenderPc) :
    pc.wake.inWaitForBuffer = pc.inWaitForBuffer := by
  cases pc <;> rfl

theorem SenderPc.exited_of_wake {pc : SenderPc} (h : pc.wake = .exited) : pc = .exited := by
  cases pc with
  | parked i => cases h
  | _ => exact h

/-- The session whose reader makes the step. -/
def SendAction.reader : SendAction → Option Session
  | .dcSend s _ | .enqueue s | .enqueueClosed s | .recheck s | .reclaim s | .fail s | .ret s
  | .setThreshold s _ _ | .setPion s | .findState s | .setState s => some s
  | _ => none

/-- The goroutine in `closeState` that makes the step. -/
def SendAction.closer : SendAction → Option Nat
  | .callClose g | .closeOnce g | .broadcast g | .drain g | .closerFail g => some g
  | _ => none

namespace ChannelState

/-! ### The cases -/

/-- One of the first three steps of a threshold request, of the reader `s`: `pc` is its new
place and `low` pion's threshold after the step. -/
inductive Tuning (c : Channel) (w : ChannelState) (s : Session) : SendAction → ReaderPc → Nat → Prop
  | ask (id : Int) (t : Nat) (hpc : w.readers s = .idle) :
      Tuning c w s (.setThreshold s id t) (.setPion id t) w.lowThreshold
  | setPion (id : Int) (t : Nat) (hpc : w.readers s = .setPion id t) :
      Tuning c w s (.setPion s) (.findState id t) t
  | found (id : Int) (t : Nat) (hpc : w.readers s = .findState id t)
      (hreg : w.registered = true) :
      Tuning c w s (.findState s) (.setState id t) w.lowThreshold
  | missing (id : Int) (t : Nat) (hpc : w.readers s = .findState id t)
      (hreg : w.registered = false) :
      Tuning c w s (.findState s) (.returning none (thresholdAck c id)) w.lowThreshold

/-- What one step can do. -/
inductive Moved (c : Channel) (w : ChannelState) : SendAction → ChannelState → Prop
  | dcSend (s : Session) (msg : Message) (hpc : w.readers s = .idle) :
      Moved c w (.dcSend s msg)
        { w.withReader s (handleDCSend ⟨w.requests.length, s, msg, w.registered⟩) with
          requests := w.requests ++ [⟨w.requests.length, s, msg, w.registered⟩] }
  | enqueue (s : Session) (i : Item) (hpc : w.readers s = .enqueue i) :
      Moved c w (.enqueue s) { w.withReader s .recheck with work := w.work ++ [i] }
  | enqueueClosed (s : Session) (i : Item) (hpc : w.readers s = .enqueue i)
      (hdone : w.done = true) : Moved c w (.enqueueClosed s) (w.withReader s (.failingOwn i))
  | recheck (s : Session) (hpc : w.readers s = .recheck) :
      Moved c w (.recheck s) (w.withReader s (if w.done then .reclaim else .idle))
  | reclaim (s : Session) (i : Item) (rest : List Item) (hpc : w.readers s = .reclaim)
      (hwork : w.work = i :: rest) :
      Moved c w (.reclaim s) { w.withReader s (.failing i) with work := rest }
  | reclaimNone (s : Session) (hpc : w.readers s = .reclaim) (hwork : w.work = []) :
      Moved c w (.reclaim s) (w.withReader s .idle)
  | fail (s : Session) (i : Item) (hpc : w.readers s = .failing i) :
      Moved c w (.fail s) ((w.withReader s .idle).answer (some i.request) i.work.session
        .sendEvent (closedBeforeSend i.work))
  | failOwn (s : Session) (i : Item) (m : Message) (hpc : w.readers s = .failingOwn i)
      (hid : m.id = i.request.msg.id) (htype : m.type = "error") :
      Moved c w (.fail s) ((w.withReader s .idle).answer (some i.request) s .sendEvent m)
  | ret (s : Session) (r : Option Request) (m : Message) (hpc : w.readers s = .returning r m) :
      Moved c w (.ret s) ((w.withReader s .idle).answer r s .returned m)
  | tune (a : SendAction) (s : Session) (pc : ReaderPc) (low : Nat)
      (hold : (w.readers s).tunes = true) (hpc : pc.tunes = true)
      (htune : Tuning c w s a pc low) :
      Moved c w a { w.withReader s pc with lowThreshold := low }
  | setState (s : Session) (id : Int) (t : Nat) (pc : ReaderPc)
      (hold : w.readers s = .setState id t) (hpc : pc.tunes = true)
      (hlock : ¬ w.sender.holdsLock = true) (hret : pc = .returning none (thresholdAck c id)) :
      Moved c w (.setState s)
        { (w.withReader s pc).withSender w.sender.wake with threshold := t }
  | take (i : Item) (rest : List Item) (hpc : w.sender = .select)
      (hwork : w.work = i :: rest) :
      Moved c w .take { w.withSender (.run i) with work := rest, taken := w.taken ++ [i] }
  | stop (hpc : w.sender = .select) (hdone : w.done = true) :
      Moved c w .stop (w.withSender .exited)
  | work (a : SendAction) (i : Item) (pc : SenderPc) (n : Nat)
      (hold : w.sender.held = some i.request) (hpc : pc.held = some i.request)
      (hwaits : pc.waits = true → w.sender.waits = true ∨ w.done = false)
      (hstalls : pc.stalls = true → w.sender.stalls = true ∨ w.threshold < w.buffered)
      (henters : pc.inWaitForBuffer = true →
        w.sender.inWaitForBuffer = true ∨ w.isOpen = true)
      (hroom : w.isOpen = true ∨ n = 0) :
      Moved c w a { w.withSender pc with buffered := w.buffered + n }
  | senderAnswer (a : SendAction) (i : Item) (pc : SenderPc) (m : Message)
      (hold : w.sender.held = some i.request)
      (hpc : pc = .select ∨ ∃ err, pc = .reporting i err) (hid : m.id = i.work.msgID)
      (htype : m.type = "dc:send:ack" ∨ m.type = "error") :
      Moved c w a
        ((w.withSender pc).answer (some i.request) i.work.session .sendEvent m)
  | errorEvent (i : Item) (err : String) (m : Message) (hpc : w.sender = .reporting i err) :
      Moved c w .errorEvent
        ((w.withSender .select).answer none i.work.session .sendEvent m)
  | callClose (g : Nat) (hpc : w.closers g = .idle) :
      Moved c w (.callClose g) { w.withCloser g .calling with registered := false }
  | closeFirst (g : Nat) (hpc : w.closers g = .calling) (honce : w.once = .fresh) :
      Moved c w (.closeOnce g) { w.withCloser g .closing with done := true, once := .running }
  | closeAgain (g : Nat) (hpc : w.closers g = .calling) (honce : w.once = .finished) :
      Moved c w (.closeOnce g) (w.withCloser g .returned)
  | broadcast (g : Nat) (hpc : w.closers g = .closing) (hlock : ¬ w.sender.holdsLock = true) :
      Moved c w (.broadcast g) ((w.withCloser g .draining).withSender w.sender.wake)
  | drain (g : Nat) (i : Item) (rest : List Item) (hpc : w.closers g = .draining)
      (hwork : w.work = i :: rest) :
      Moved c w (.drain g) { w.withCloser g (.failing i) with work := rest }
  | drained (g : Nat) (hpc : w.closers g = .draining) (hwork : w.work = []) :
      Moved c w (.drain g) { w.withCloser g .returned with once := .finished }
  | closerFail (g : Nat) (i : Item) (hpc : w.closers g = .failing i) :
      Moved c w (.closerFail g) ((w.withCloser g .draining).answer (some i.request)
        i.work.session .sendEvent (closedBeforeSend i.work))
  | pion (a : SendAction) (raw reading isOpen : Bool) (buffered callbacks : Nat)
      (hopen : w.isOpen = true)
      -- Only a release changes the amount, and it calls back when it crosses pion's threshold.
      (hamount : buffered = w.buffered ∧ callbacks = w.callbacks ∨
        callbacks = if w.lowThreshold < w.buffered ∧ buffered ≤ w.lowThreshold
          then w.callbacks + 1 else w.callbacks) :
      Moved c w a { w with
        raw := raw, reading := reading, isOpen := isOpen, buffered := buffered
        callbacks := callbacks }
  | callback (m : Message) (hlock : ¬ w.sender.holdsLock = true) :
      Moved c w .callback ({ w.withSender w.sender.wake with
        callbacks := w.callbacks - 1 }.answer none c.creator .sendEvent m)
  | report (how : CloseReport) (reading closeEmitted : Bool) (es : List Emission)
      (hes : ∀ e ∈ es, e.request = none) :
      Moved c w (.reportClose how) { w with
        reading := reading, closeEmitted := closeEmitted, emitted := w.emitted ++ es
        reported := true }

/-! ### The list is complete -/

/-- The readers of the sessions. -/
theorem moved_stepReader {c : Channel} {w w' : ChannelState} {s : Session} {a : SendAction}
    (hs : a.reader = some s) (h : w.stepReader c s a = some w') : Moved c w a w' := by
  -- In each case the place of the reader decides what the step is.
  cases a <;> simp only [stepReader, reduceCtorEq] at h <;> cases hs
  case dcSend msg =>
      split at h
      · rename_i hpc
        cases h
        exact .dcSend s msg hpc
      · cases h
  case enqueue =>
      split at h
      · rename_i i hpc
        split at h
        · cases h
          exact .enqueue s i hpc
        · cases h
      · cases h
  case enqueueClosed =>
      split at h
      · rename_i i hpc
        split at h
        · rename_i hdone
          cases h
          exact .enqueueClosed s i hpc hdone
        · cases h
      · cases h
  case recheck =>
      split at h
      · rename_i hpc
        cases h
        exact .recheck s hpc
      · cases h
  case reclaim =>
      split at h
      · rename_i i rest hpc hwork
        cases h
        exact .reclaim s i rest hpc hwork
      · rename_i hpc hwork
        cases h
        exact .reclaimNone s hpc hwork
      · cases h
  case fail =>
      split at h
      · rename_i i hpc
        cases h
        exact .fail s i hpc
      · rename_i i hpc
        cases h
        exact .failOwn s i _ hpc rfl rfl
      · cases h
  case ret =>
      split at h
      · rename_i r m hpc
        cases h
        exact .ret s r m hpc
      · cases h
  case setThreshold id t =>
      split at h
      · rename_i hpc
        cases h
        exact .tune _ s (.setPion id t) w.lowThreshold (by rw [hpc]; rfl) rfl (.ask id t hpc)
      · cases h
  case setPion =>
      split at h
      · rename_i id t hpc
        cases h
        exact .tune _ s (.findState id t) t (by rw [hpc]; rfl) rfl (.setPion id t hpc)
      · cases h
  case findState =>
      split at h
      · rename_i id t hpc
        cases h
        split
        · rename_i hreg
          exact .tune _ s _ w.lowThreshold (by rw [hpc]; rfl) rfl (.found id t hpc hreg)
        · rename_i hreg
          exact .tune _ s _ w.lowThreshold (by rw [hpc]; rfl) rfl
            (.missing id t hpc (by simpa using hreg))
      · cases h
  case setState =>
      split at h
      · rename_i id t hpc
        split at h
        · cases h
        · rename_i hlock
          cases h
          exact .setState s id t _ hpc rfl hlock rfl
      · cases h

/-- The sender goroutine. -/
theorem moved_stepSender {c : Channel} {w w' : ChannelState} {a : SendAction}
    (h : w.stepSender c a = some w') : Moved c w a w' := by
  -- A step on the item in hand that does not change the amount.
  have hwork : ∀ a (i : Item) pc, w.sender.held = some i.request → pc.held = some i.request →
      (pc.waits = true → w.sender.waits = true ∨ w.done = false) →
      (pc.stalls = true → w.sender.stalls = true ∨ w.threshold < w.buffered) →
      (pc.inWaitForBuffer = true → w.sender.inWaitForBuffer = true) →
      Moved c w a (w.withSender pc) :=
    fun a i pc hold hpc hwaits hstalls hstays =>
      .work a i pc 0 hold hpc hwaits hstalls (fun h => Or.inl (hstays h)) (Or.inr rfl)
  cases a <;> simp only [stepSender, reduceCtorEq] at h
  case take =>
      split at h
      · rename_i i rest hpc hitems
        cases h
        exact .take i rest hpc hitems
      · cases h
  case stop =>
      split at h
      · rename_i hpc
        split at h
        · rename_i hdone
          cases h
          exact .stop hpc hdone
        · cases h
      · cases h
  case doSend =>
      split at h
      · rename_i i hpc
        cases h
        refine hwork _ i _ (by rw [hpc]; rfl) ?_ ?_ ?_ ?_ <;> split <;> simp [SenderPc.held,
          SenderPc.waits, SenderPc.stalls, SenderPc.inWaitForBuffer]
      · cases h
  case sendReturn res =>
      split at h
      · rename_i i call err hpc
        cases h
        exact hwork _ i (.failing i err) (by rw [hpc]; rfl) rfl (by simp [SenderPc.waits])
          (by simp [SenderPc.stalls]) (by simp [SenderPc.inWaitForBuffer])
      · rename_i i call n hpc
        split at h
        · rename_i hroom
          cases h
          refine .work _ i _ n (by rw [hpc]; rfl) ?_ ?_ ?_ (fun _ => Or.inr hroom)
            (Or.inl hroom) <;> split <;> simp [SenderPc.held, SenderPc.waits, SenderPc.stalls]
        · cases h
      · cases h
  case sendError =>
      split at h
      · rename_i i err hpc
        cases h
        exact .senderAnswer _ i _ _ (by rw [hpc]; rfl) (Or.inr ⟨err, rfl⟩) rfl (Or.inr rfl)
      · cases h
  case errorEvent =>
      split at h
      · rename_i i err hpc
        cases h
        exact .errorEvent i err _ hpc
      · cases h
  case lock =>
      split at h
      · rename_i i hpc
        cases h
        exact hwork _ i (.check i) (by rw [hpc]; rfl) rfl (by simp [SenderPc.waits])
          (by simp [SenderPc.stalls]) (fun _ => by rw [hpc]; rfl)
      · cases h
  case check =>
      split at h
      · rename_i i hpc
        cases h
        refine hwork _ i _ (by rw [hpc]; rfl) ?_ ?_ ?_ (fun _ => by rw [hpc]; rfl)
        · split <;> rfl
        · split <;> simp [SenderPc.waits]
        · split
          · rename_i hover
            exact fun _ => Or.inr hover
          · simp [SenderPc.stalls]
      · cases h
  case checkDone =>
      split at h
      · rename_i i hpc
        cases h
        refine hwork _ i _ (by rw [hpc]; rfl) ?_ ?_ (fun _ => Or.inl (by rw [hpc]; rfl))
          (fun _ => by rw [hpc]; rfl)
        · split <;> rfl
        · split
          · simp [SenderPc.waits]
          · rename_i hopen
            exact fun _ => Or.inr (by simpa using hopen)
      · cases h
  case park =>
      split at h
      · rename_i i hpc
        cases h
        exact hwork _ i (.parked i) (by rw [hpc]; rfl) rfl (fun _ => Or.inl (by rw [hpc]; rfl))
          (fun _ => Or.inl (by rw [hpc]; rfl)) (fun _ => by rw [hpc]; rfl)
      · cases h
  case closedAnswer =>
      split at h
      · rename_i i hpc
        cases h
        exact .senderAnswer _ i _ _ (by rw [hpc]; rfl) (Or.inl rfl) rfl (Or.inr rfl)
      · cases h
  case ack =>
      split at h
      · rename_i i hpc
        cases h
        exact .senderAnswer _ i _ _ (by rw [hpc]; rfl) (Or.inl rfl) rfl (Or.inl rfl)
      · cases h

/-- The goroutines in `closeState`. -/
theorem moved_stepCloser {c : Channel} {w w' : ChannelState} {g : Nat} {a : SendAction}
    (hg : a.closer = some g) (h : w.stepCloser g a = some w') : Moved c w a w' := by
  cases a <;> simp only [stepCloser, reduceCtorEq] at h <;> cases hg
  case callClose =>
      split at h
      · rename_i hpc
        cases h
        exact .callClose g hpc
      · cases h
  case closeOnce =>
      split at h
      · rename_i hpc honce
        cases h
        exact .closeFirst g hpc honce
      · rename_i hpc honce
        cases h
        exact .closeAgain g hpc honce
      · cases h
  case broadcast =>
      split at h
      · rename_i hpc
        split at h
        · cases h
        · rename_i hlock
          cases h
          exact .broadcast g hpc hlock
      · cases h
  case drain =>
      split at h
      · rename_i i rest hpc hwork
        cases h
        exact .drain g i rest hpc hwork
      · rename_i hpc hwork
        cases h
        exact .drained g hpc hwork
      · cases h
  case closerFail =>
      split at h
      · rename_i i hpc
        cases h
        exact .closerFail g i hpc
      · cases h

/-- The close callbacks emit at most an event. -/
theorem emitClose_eq (c : Channel) (w : ChannelState) :
    ∃ closeEmitted es, w.emitClose c
        = { w with closeEmitted := closeEmitted, emitted := w.emitted ++ es } ∧
      ∀ e ∈ es, e.request = none := by
  unfold emitClose
  split
  · exact ⟨w.closeEmitted, [], by rw [List.append_nil], by simp⟩
  · refine ⟨true, [_], rfl, ?_⟩
    intro e he
    rw [List.mem_singleton.mp he]

/-- Pion's side of the channel. -/
theorem moved_stepPion {c : Channel} {w w' : ChannelState} {a : SendAction}
    (h : w.stepPion c a = some w') : Moved c w a w' := by
  cases a <;> simp only [stepPion, reduceCtorEq] at h
  case detached =>
      split at h
      · rename_i hopen
        cases h
        exact .pion _ _ true w.isOpen w.buffered w.callbacks hopen.2 (Or.inl ⟨rfl, rfl⟩)
      · cases h
  case release n =>
      split at h
      · rename_i hopen
        cases h
        exact .pion _ w.raw w.reading w.isOpen n _ hopen.1 (Or.inr rfl)
      · cases h
  case callback =>
      split at h
      · cases h
      · rename_i hcond
        cases h
        exact .callback _ fun hlock => hcond (Or.inl hlock)
  case pionClose =>
      split at h
      · rename_i hopen
        cases h
        exact .pion _ w.raw w.reading false w.buffered w.callbacks hopen (Or.inl ⟨rfl, rfl⟩)
      · cases h
  case reportClose how =>
      obtain ⟨b, es, heq, hes⟩ := emitClose_eq c w
      cases how with
      | onClose =>
          simp only at h
          split at h
          · cases h
          · cases h
            rw [heq]
            exact .report .onClose w.reading b es hes
      | readDetached =>
          simp only at h
          split at h
          · cases h
            rw [heq]
            exact .report .readDetached false b es hes
          · cases h
      | pcClose =>
          simp only at h
          split at h
          · cases h
          · cases h
            have hnone := Moved.report (c := c) (w := w) .pcClose w.reading w.closeEmitted []
              (by simp)
            rwa [List.append_nil] at hnone

/-- Every step is in the list. -/
theorem moved {c : Channel} {w w' : ChannelState} {a : SendAction}
    (h : w.step c a = some w') : Moved c w a w' := by
  cases a <;> simp only [step] at h <;>
    first
    | exact moved_stepReader rfl h
    | exact moved_stepSender h
    | exact moved_stepCloser rfl h
    | exact moved_stepPion h

end ChannelState

end PionBridge.Server
