import PionBridge.Proofs.DCSend.Strand

/-!
# `PionBridge.Proofs.DCSend.Wakeup`: the two copies of the threshold

`waitForBuffer` compares the buffered amount with `state.threshold`, and the only thing that
wakes it during a drain is pion's callback, which fires on pion's own copy of the threshold.
`handleDCSetBufferedAmountLowThreshold` writes the copies in two steps. When two sessions run it
at the same time, the copies can stay apart for good, and the sender sleeps on an amount that is
within `state.threshold` (`two_setters_lose_wakeup`).

With one threshold request at a time (`OneSetter`) no wakeup is lost. The copies then differ only
while that request is between its two writes, and its second write broadcasts.
-/

set_option autoImplicit false

namespace PionBridge.Server

open PionBridge.Lib

/-- The reader handles a threshold request and has not written `state.threshold` yet. -/
def ReaderPc.setsThreshold : ReaderPc → Bool
  | .setPion _ _ | .findState _ _ | .setState _ _ => true
  | _ => false

/-- The value that a reader has given to pion and still has to give to the send state. -/
def ReaderPc.owes : ReaderPc → Option Nat
  | .findState _ t | .setState _ t => some t
  | _ => none

theorem ReaderPc.owes_of_not_sets {pc : ReaderPc} (h : pc.setsThreshold = false) :
    pc.owes = none := by
  cases pc <;> first | rfl | cases h

theorem ReaderPc.sets_of_owes {pc : ReaderPc} {t : Nat} (h : pc.owes = some t) :
    pc.setsThreshold = true := by
  cases pc <;> first | rfl | cases h

theorem setsThreshold_handleDCSend (r : Request) : (handleDCSend r).setsThreshold = false := by
  unfold handleDCSend
  split
  · split <;> rfl
  · rfl

/-- A broadcast takes the sender out of the loop, unless it holds the lock. -/
theorem SenderPc.stalls_wake_of_free {pc : SenderPc} (h : ¬ pc.holdsLock = true) :
    pc.wake.stalls = false := by
  cases pc with
  | checkDone i => exact absurd rfl h
  | park i => exact absurd rfl h
  | _ => rfl

namespace ChannelState

/-- A step that broadcasts is pending: a callback on its way to `signalLow`, a threshold request
before `state.setThreshold`, or a `closeState` before its broadcast. -/
def BroadcastPending (w : ChannelState) : Prop :=
  0 < w.callbacks ∨ (w.registered = true ∧ ∃ s t, (w.readers s).owes = some t) ∨
    ∃ g, w.closers g = .calling

/-- While the send state is open, a sender that sleeps on an amount within the threshold will be
woken, and without a request in progress the two copies of the threshold agree. -/
def NoLostWakeup (w : ChannelState) : Prop :=
  w.done = false →
    ((∃ i, w.sender = .parked i) → w.buffered ≤ w.threshold → w.BroadcastPending) ∧
    ((∀ s, (w.readers s).setsThreshold = false) → (∀ g, w.closers g ≠ .calling) →
      w.lowThreshold = w.threshold)

/-- The condition on a step: a threshold request starts only when no other one is in progress. -/
def OneSetter (w : ChannelState) : SendAction → Prop
  | .setThreshold _ _ _ => ∀ s, (w.readers s).setsThreshold = false
  | _ => True

/-- What holds with one threshold request at a time. `level` and `awake` speak of a state that
is still registered. Once it is not, a `closeState` is on its way (`closing`). -/
structure WakeInv (w : ChannelState) : Prop where
  single : ∀ s s', (w.readers s).setsThreshold = true →
    (w.readers s').setsThreshold = true → s = s'
  owed : ∀ s t, (w.readers s).owes = some t → w.lowThreshold = t
  level : w.registered = true → (∀ s, (w.readers s).owes = none) →
    w.lowThreshold = w.threshold
  awake : w.registered = true → w.sender.stalls = true →
    w.threshold < w.buffered ∨ 0 < w.callbacks ∨ ∃ s t, (w.readers s).owes = some t
  closing : w.registered = false → w.done = true ∨ ∃ g, w.closers g = .calling

/-! ### Steps outside of the threshold requests -/

/-- Every reader stands where it stood, or has nothing to do with a threshold before and after. -/
def SameSetters (w w' : ChannelState) : Prop :=
  ∀ s, w'.readers s = w.readers s ∨
    (w.readers s).setsThreshold = false ∧ (w'.readers s).setsThreshold = false

theorem sameSetters_of_eq {w w' : ChannelState} (h : w'.readers = w.readers) :
    w.SameSetters w' := fun s => Or.inl (congrFun h s)

theorem sameSetters_update {w w' : ChannelState} {s : Session} {pc : ReaderPc}
    (h : w'.readers = Function.update w.readers s pc)
    (hold : (w.readers s).setsThreshold = false) (hpc : pc.setsThreshold = false) :
    w.SameSetters w' := by
  intro s'
  rw [h]
  by_cases hs : s' = s
  · subst hs
    rw [Function.update_self]
    exact Or.inr ⟨hold, hpc⟩
  · rw [Function.update_of_ne hs]
    exact Or.inl rfl

theorem SameSetters.sets {w w' : ChannelState} (h : w.SameSetters w') (s : Session) :
    (w'.readers s).setsThreshold = (w.readers s).setsThreshold := by
  rcases h s with heq | ⟨hold, hnew⟩
  · rw [heq]
  · rw [hold, hnew]

theorem SameSetters.owes {w w' : ChannelState} (h : w.SameSetters w') (s : Session) :
    (w'.readers s).owes = (w.readers s).owes := by
  rcases h s with heq | ⟨hold, hnew⟩
  · rw [heq]
  · rw [ReaderPc.owes_of_not_sets hold, ReaderPc.owes_of_not_sets hnew]

/-- A step that leaves both copies of the threshold alone. The amount only grows, no callback is
used up, and the sender enters the loop of `waitForBuffer` above the threshold only. -/
theorem WakeInv.same {w w' : ChannelState} (hw : w.WakeInv) (hset : w.SameSetters w')
    (hlow : w'.lowThreshold = w.lowThreshold) (hthr : w'.threshold = w.threshold)
    (hreg : w'.registered = w.registered) (hbuf : w.buffered ≤ w'.buffered)
    (hcall : w'.callbacks = w.callbacks)
    (hsend : w'.sender.stalls = true → w.sender.stalls = true ∨ w.threshold < w.buffered)
    (hclose : w.done = true ∨ (∃ g, w.closers g = .calling) →
      w'.done = true ∨ ∃ g, w'.closers g = .calling) : w'.WakeInv where
  single s s' hs hs' := hw.single s s' (hset.sets s ▸ hs) (hset.sets s' ▸ hs')
  owed s t ht := by
    rw [hlow]
    exact hw.owed s t (hset.owes s ▸ ht)
  level h hnone := by
    rw [hlow, hthr]
    exact hw.level (hreg ▸ h) fun s => (hset.owes s).symm.trans (hnone s)
  awake h hst := by
    rw [hthr, hcall]
    -- A sender in the loop of `waitForBuffer` was in it, or has just found the amount too high.
    have hcases : w.threshold < w.buffered ∨ 0 < w.callbacks ∨
        ∃ s t, (w.readers s).owes = some t := by
      rcases hsend hst with hold | hover
      · exact hw.awake (hreg ▸ h) hold
      · exact Or.inl hover
    rcases hcases with hover | hcb | ⟨s, t, ht⟩
    · exact Or.inl (by omega)
    · exact Or.inr (Or.inl hcb)
    · exact Or.inr (Or.inr ⟨s, t, (hset.owes s).trans ht⟩)
  closing h := hclose (hw.closing (hreg ▸ h))

/-- A reader moves outside of a threshold request. -/
theorem WakeInv.withReader {w w' : ChannelState} (hw : w.WakeInv) {s : Session} {pc : ReaderPc}
    (hreaders : w'.readers = Function.update w.readers s pc)
    (hold : (w.readers s).setsThreshold = false) (hpc : pc.setsThreshold = false)
    (h1 : w'.lowThreshold = w.lowThreshold) (h2 : w'.threshold = w.threshold)
    (h3 : w'.registered = w.registered) (h4 : w'.buffered = w.buffered)
    (h5 : w'.callbacks = w.callbacks) (h6 : w'.sender = w.sender) (h7 : w'.done = w.done)
    (h8 : w'.closers = w.closers) : w'.WakeInv := by
  refine hw.same (sameSetters_update hreaders hold hpc) h1 h2 h3 h4.ge h5 ?_ ?_
  · rw [h6]
    exact Or.inl
  · rw [h7, h8]
    exact id

/-- The sender moves. It enters the loop of `waitForBuffer` above the threshold only. -/
theorem WakeInv.withSender {w w' : ChannelState} (hw : w.WakeInv)
    (hsend : w'.sender.stalls = true → w.sender.stalls = true ∨ w.threshold < w.buffered)
    (h1 : w'.readers = w.readers) (h2 : w'.lowThreshold = w.lowThreshold)
    (h3 : w'.threshold = w.threshold) (h4 : w'.registered = w.registered)
    (h5 : w.buffered ≤ w'.buffered) (h6 : w'.callbacks = w.callbacks) (h7 : w'.done = w.done)
    (h8 : w'.closers = w.closers) : w'.WakeInv := by
  refine hw.same (sameSetters_of_eq h1) h2 h3 h4 h5 h6 hsend ?_
  rw [h7, h8]
  exact id

/-- A goroutine in `closeState` moves, and was not before `closeOnce.Do`. -/
theorem WakeInv.withCloser {w w' : ChannelState} (hw : w.WakeInv) {g : Nat} {pc : CloserPc}
    (hclosers : w'.closers = Function.update w.closers g pc) (hpc : w.closers g ≠ .calling)
    (h1 : w'.readers = w.readers) (h2 : w'.lowThreshold = w.lowThreshold)
    (h3 : w'.threshold = w.threshold) (h4 : w'.registered = w.registered)
    (h5 : w'.buffered = w.buffered) (h6 : w'.callbacks = w.callbacks) (h7 : w'.done = w.done)
    (h8 : w'.sender.stalls = true → w.sender.stalls = true) : w'.WakeInv := by
  refine hw.same (sameSetters_of_eq h1) h2 h3 h4 h5.ge h6 (fun hst => Or.inl (h8 hst)) ?_
  rintro (hdone | ⟨g', hg'⟩)
  · exact Or.inl (h7.trans hdone)
  · have hne : g' ≠ g := by
      rintro rfl
      exact hpc hg'
    exact Or.inr ⟨g', by rw [hclosers, Function.update_of_ne hne, hg']⟩

/-! ### The steps of a threshold request -/

/-- The places of the readers once the only one that handles a threshold request moves. -/
theorem WakeInv.single_update {w w' : ChannelState} (hw : w.WakeInv) {s : Session}
    {pc : ReaderPc} (hreaders : w'.readers = Function.update w.readers s pc)
    (hold : (w.readers s).setsThreshold = true) (s' : Session) (hne : s' ≠ s) :
    (w'.readers s').setsThreshold = false := by
  rw [hreaders, Function.update_of_ne hne]
  by_contra hset
  exact hne (hw.single s' s (by simpa using hset) hold)

/-- The other sessions do not set a threshold: by the condition at the start, by `single` later
on. -/
theorem WakeInv.others {c : Channel} {w : ChannelState} (hw : w.WakeInv) {a : SendAction}
    {s : Session} {pc : ReaderPc} {low : Nat} (hC : w.OneSetter a) (h : Tuning c w s a pc low)
    (s' : Session) (hne : s' ≠ s) : (w.readers s').setsThreshold = false := by
  by_contra hset
  have hset' : (w.readers s').setsThreshold = true := by simpa using hset
  cases h with
  | ask id t hpc =>
      rw [hC s'] at hset'
      cases hset'
  | setPion id t hpc => exact hne (hw.single s' s hset' (by rw [hpc]; rfl))
  | found id t hpc => exact hne (hw.single s' s hset' (by rw [hpc]; rfl))
  | missing id t hpc => exact hne (hw.single s' s hset' (by rw [hpc]; rfl))

/-- The first three steps of a threshold request. -/
theorem WakeInv.tune {c : Channel} {w : ChannelState} (hw : w.WakeInv) {a : SendAction}
    {s : Session} {pc : ReaderPc} {low : Nat} (hC : w.OneSetter a) (h : Tuning c w s a pc low) :
    WakeInv { w.withReader s pc with lowThreshold := low } := by
  have hself : (w.withReader s pc).readers s = pc := Function.update_self ..
  have hrest : ∀ s', s' ≠ s → (w.withReader s pc).readers s' = w.readers s' :=
    fun s' hne => Function.update_of_ne hne ..
  have hsingle : ∀ s', ((w.withReader s pc).readers s').setsThreshold = true → s' = s := by
    intro s' hset
    by_contra hne
    rw [hrest s' hne, hw.others hC h s' hne] at hset
    cases hset
  have howes : ∀ s' t, ((w.withReader s pc).readers s').owes = some t → pc.owes = some t := by
    intro s' t ht
    have hs' := hsingle s' (ReaderPc.sets_of_owes ht)
    rw [hs', hself] at ht
    exact ht
  refine ⟨fun s₁ s₂ h₁ h₂ => (hsingle s₁ h₁).trans (hsingle s₂ h₂).symm, ?_, ?_, ?_, hw.closing⟩
  · intro s' t ht
    have hpc := howes s' t ht
    cases h with
    | ask id t' => cases hpc
    | setPion id t' =>
        cases hpc
        rfl
    | found id t' hold => exact hw.owed s t (by rw [hold]; exact hpc)
    | missing id t' => cases hpc
  · intro hreg hnone
    have hpc : pc.owes = none := hself ▸ hnone s
    cases h with
    | ask id t hidle =>
        refine hw.level hreg fun s' => ?_
        by_cases hs : s' = s
        · rw [hs, hidle]
          rfl
        · exact hrest s' hs ▸ hnone s'
    | setPion id t => cases hpc
    | found id t => cases hpc
    | missing id t _ hgone =>
        -- The state is looked up in vain only after somebody has taken it out.
        rw [show w.registered = true from hreg] at hgone
        cases hgone
  · intro hreg hst
    cases h with
    | ask id t hidle =>
        rcases hw.awake hreg hst with hover | hcb | ⟨s', t', ht'⟩
        · exact Or.inl hover
        · exact Or.inr (Or.inl hcb)
        · have hset := ReaderPc.sets_of_owes ht'
          rw [hC s'] at hset
          cases hset
    | setPion id => exact Or.inr (Or.inr ⟨s, _, by rw [hself]; rfl⟩)
    | found id t => exact Or.inr (Or.inr ⟨s, t, by rw [hself]; rfl⟩)
    | missing id t _ hgone =>
        rw [show w.registered = true from hreg] at hgone
        cases hgone

/-- `state.setThreshold`: the copies agree, and the sender is out of the loop. -/
theorem WakeInv.setState {c : Channel} {w : ChannelState} (hw : w.WakeInv) {s : Session}
    {id : Int} {t : Nat} (hold : w.readers s = .setState id t)
    (hlock : ¬ w.sender.holdsLock = true) :
    WakeInv { (w.withReader s (.returning none (thresholdAck c id))).withSender
      w.sender.wake with threshold := t } := by
  have hsets : ∀ s', ((w.withReader s (.returning none (thresholdAck c id))).readers
      s').setsThreshold = false := by
    intro s'
    by_cases hs : s' = s
    · rw [hs, show (w.withReader s _).readers s = _ from Function.update_self ..]
      rfl
    · exact hw.single_update rfl (by rw [hold]; rfl) s' hs
  refine ⟨?_, ?_, ?_, ?_, hw.closing⟩
  · intro s₁ s₂ h₁
    cases h₁.symm.trans (hsets s₁)
  · intro s' t' ht'
    cases (ReaderPc.sets_of_owes ht').symm.trans (hsets s')
  · intro _ _
    exact hw.owed s t (by rw [hold]; rfl)
  · intro _ hst
    cases hst.symm.trans (SenderPc.stalls_wake_of_free hlock)

/-! ### Pion -/

/-- A release below pion's threshold calls back. Between the writes of a threshold request the
copies differ, but then the request still has to broadcast. -/
theorem WakeInv.release {w : ChannelState} (hw : w.WakeInv) (raw reading isOpen : Bool)
    (buffered : Nat) :
    WakeInv { w with
      raw := raw, reading := reading, isOpen := isOpen, buffered := buffered
      callbacks := if w.lowThreshold < w.buffered ∧ buffered ≤ w.lowThreshold
        then w.callbacks + 1 else w.callbacks } := by
  refine ⟨hw.single, hw.owed, hw.level, ?_, hw.closing⟩
  intro hreg hst
  show w.threshold < buffered ∨ 0 < (if w.lowThreshold < w.buffered ∧ buffered ≤ w.lowThreshold
    then w.callbacks + 1 else w.callbacks) ∨ ∃ s t, (w.readers s).owes = some t
  rcases hw.awake hreg hst with hover | hcb | howes
  · by_cases hnone : ∀ s, (w.readers s).owes = none
    · have hlevel := hw.level hreg hnone
      by_cases hle : buffered ≤ w.threshold
      · rw [if_pos ⟨by omega, by omega⟩]
        exact Or.inr (Or.inl (by omega))
      · exact Or.inl (by omega)
    · obtain ⟨s, hs⟩ := not_forall.mp hnone
      obtain ⟨t, ht⟩ := Option.ne_none_iff_exists'.mp hs
      exact Or.inr (Or.inr ⟨s, t, ht⟩)
  · refine Or.inr (Or.inl ?_)
    split <;> omega
  · exact Or.inr (Or.inr howes)

/-- `signalLow`. -/
theorem WakeInv.callback {w w' : ChannelState} (hw : w.WakeInv)
    (hlock : ¬ w.sender.holdsLock = true) (hsend : w'.sender = w.sender.wake)
    (h1 : w'.readers = w.readers) (h2 : w'.lowThreshold = w.lowThreshold)
    (h3 : w'.threshold = w.threshold) (h4 : w'.registered = w.registered)
    (h5 : w'.done = w.done) (h6 : w'.closers = w.closers) : w'.WakeInv := by
  refine ⟨by rw [h1]; exact hw.single, by rw [h1, h2]; exact hw.owed,
    by rw [h1, h2, h3, h4]; exact hw.level, ?_, by rw [h4, h5, h6]; exact hw.closing⟩
  intro _ hst
  rw [hsend, SenderPc.stalls_wake_of_free hlock] at hst
  cases hst

/-! ### All steps -/

/-- The step lemma. -/
theorem WakeInv.step {c : Channel} {w w' : ChannelState} {a : SendAction} (hw : w.WakeInv)
    (hdown : w.ShutdownInv) (hC : w.OneSetter a) (h : w.step c a = some w') : w'.WakeInv := by
  cases moved h with
  | dcSend s msg hpc =>
      exact hw.withReader rfl (by rw [hpc]; rfl) (setsThreshold_handleDCSend _) rfl rfl rfl rfl
        rfl rfl rfl rfl
  | enqueue s i hpc =>
      exact hw.withReader rfl (by rw [hpc]; rfl) rfl rfl rfl rfl rfl rfl rfl rfl rfl
  | enqueueClosed s i hpc =>
      exact hw.withReader rfl (by rw [hpc]; rfl) rfl rfl rfl rfl rfl rfl rfl rfl rfl
  | recheck s hpc =>
      exact hw.withReader rfl (by rw [hpc]; rfl) (by split <;> rfl) rfl rfl rfl rfl rfl rfl rfl
        rfl
  | reclaim s i rest hpc =>
      exact hw.withReader rfl (by rw [hpc]; rfl) rfl rfl rfl rfl rfl rfl rfl rfl rfl
  | reclaimNone s hpc =>
      exact hw.withReader rfl (by rw [hpc]; rfl) rfl rfl rfl rfl rfl rfl rfl rfl rfl
  | fail s i hpc =>
      exact hw.withReader rfl (by rw [hpc]; rfl) rfl rfl rfl rfl rfl rfl rfl rfl rfl
  | failOwn s i m hpc =>
      exact hw.withReader rfl (by rw [hpc]; rfl) rfl rfl rfl rfl rfl rfl rfl rfl rfl
  | ret s r m hpc =>
      exact hw.withReader rfl (by rw [hpc]; rfl) rfl rfl rfl rfl rfl rfl rfl rfl rfl
  | tune _ s pc low _ _ htune => exact hw.tune hC htune
  | setState s id t pc hold _ hlock hret =>
      subst hret
      exact hw.setState hold hlock
  | take i rest =>
      exact hw.withSender (fun hst => by cases hst) rfl rfl rfl rfl le_rfl rfl rfl rfl
  | stop => exact hw.withSender (fun hst => by cases hst) rfl rfl rfl rfl le_rfl rfl rfl rfl
  | work _ i pc n _ _ _ hstalls =>
      exact hw.withSender hstalls rfl rfl rfl rfl (Nat.le_add_right ..) rfl rfl rfl
  | senderAnswer _ i pc m _ hpc =>
      refine hw.withSender (fun hst => ?_) rfl rfl rfl rfl le_rfl rfl rfl rfl
      rcases hpc with rfl | ⟨err, rfl⟩ <;> cases hst
  | errorEvent =>
      exact hw.withSender (fun hst => by cases hst) rfl rfl rfl rfl le_rfl rfl rfl rfl
  | callClose g =>
      refine ⟨hw.single, hw.owed, (fun hreg => ?_), (fun hreg => ?_), fun _ => ?_⟩
      · cases hreg
      · cases hreg
      · exact Or.inr ⟨g, Function.update_self ..⟩
  | closeFirst g =>
      exact ⟨hw.single, hw.owed, hw.level, hw.awake, fun _ => Or.inl rfl⟩
  | closeAgain g _ honce =>
      refine ⟨hw.single, hw.owed, hw.level, hw.awake, fun _ => Or.inl ?_⟩
      exact hdown.done_iff.mpr (by rw [honce]; decide)
  | broadcast g hpc hlock =>
      refine hw.withCloser rfl (by rw [hpc]; simp) rfl rfl rfl rfl rfl rfl rfl fun hst => ?_
      cases hst.symm.trans (SenderPc.stalls_wake_of_free hlock)
  | drain g i rest hpc =>
      exact hw.withCloser rfl (by rw [hpc]; simp) rfl rfl rfl rfl rfl rfl rfl id
  | drained g hpc =>
      exact hw.withCloser rfl (by rw [hpc]; simp) rfl rfl rfl rfl rfl rfl rfl id
  | closerFail g i hpc =>
      exact hw.withCloser rfl (by rw [hpc]; simp) rfl rfl rfl rfl rfl rfl rfl id
  | pion _ raw reading isOpen buffered callbacks _ hamount =>
      rcases hamount with ⟨rfl, rfl⟩ | rfl
      · exact hw.withSender Or.inl rfl rfl rfl rfl le_rfl rfl rfl rfl
      · exact hw.release raw reading isOpen buffered
  | callback m hlock => exact hw.callback hlock rfl rfl rfl rfl rfl rfl rfl
  | report => exact hw.withSender Or.inl rfl rfl rfl rfl le_rfl rfl rfl rfl

/-- The run lemma. -/
theorem wakeInv_of_reachable {c : Channel} {w : ChannelState}
    (hw : (sendSystem c).ReachableUnder OneSetter w) : w.WakeInv := by
  refine StepSystem.StepsUnder.invariant hw ?_ fun t a u ht hinv hC hstep =>
    hinv.step (shutdownInv_of_reachable (StepSystem.ReachableUnder.reachable ht)) hC hstep
  constructor <;> simp [sendSystem, Channel.start, ReaderPc.setsThreshold, ReaderPc.owes,
    SenderPc.stalls]

end ChannelState

/-! ### No lost wakeup -/

open ChannelState

/-- In every run with one threshold request at a time, no wakeup is lost. -/
theorem one_setter_loses_no_wakeup (c : Channel) (w : ChannelState)
    (hw : (sendSystem c).ReachableUnder OneSetter w) : w.NoLostWakeup := by
  have hinv := wakeInv_of_reachable hw
  intro hopen
  have hclosing : w.registered = false → ∃ g, w.closers g = .calling := by
    intro hreg
    exact (hinv.closing hreg).resolve_left (by simp [hopen])
  refine ⟨?_, ?_⟩
  · rintro ⟨i, hi⟩ hle
    cases hreg : w.registered with
    | false => exact Or.inr (Or.inr (hclosing hreg))
    | true =>
        rcases hinv.awake hreg (by rw [hi]; rfl) with hover | hcb | howes
        · omega
        · exact Or.inl hcb
        · exact Or.inr (Or.inl ⟨hreg, howes⟩)
  · intro hsets hclosers
    cases hreg : w.registered with
    | false =>
        obtain ⟨g, hg⟩ := hclosing hreg
        exact absurd hg (hclosers g)
    | true => exact hinv.level hreg fun s => ReaderPc.owes_of_not_sets (hsets s)

/-- The threshold goes up to 10 while the sender waits, and a release takes the amount from 20
to 8: the callback is on its way. -/
theorem one_setter_loses_no_wakeup_release :
    ∃ w, (sendSystem zeroChannel).ReachableUnder OneSetter w ∧ w.done = false ∧
      (∃ i, w.sender = .parked i) ∧ w.buffered ≤ w.threshold ∧ w.BroadcastPending := by
  let before : List SendAction := [.dcSend 1 (plainSend 5 (.bin [1])), .enqueue 1, .recheck 1,
    .take, .doSend, .sendReturn (.ok 20), .lock, .check, .checkDone, .park]
  let after : List SendAction := [.setPion 2, .findState 2, .setState 2, .ret 2, .lock, .check,
    .checkDone, .park, .release 8]
  let waiting := (sendSystem zeroChannel).run (sendSystem zeroChannel).init before
  have hwaiting : waiting.isSome := by rfl
  obtain ⟨v, hv⟩ := Option.isSome_iff_exists.mp hwaiting
  have hreaders : ∀ s, waiting.map (fun v => (v.readers s).setsThreshold) = some false
    | 0 => by rfl
    | 1 => by rfl
    | _ + 2 => by rfl
  simp only [hv, Option.map_some, Option.some.injEq] at hreaders
  let asked := waiting.bind fun v => v.step zeroChannel (.setThreshold 2 6 10)
  have hasked : asked.isSome := by rfl
  obtain ⟨u, hu⟩ := Option.isSome_iff_exists.mp hasked
  let final := asked.bind fun u => (sendSystem zeroChannel).run u after
  have hfinal : final.isSome := by rfl
  obtain ⟨w, hw⟩ := Option.isSome_iff_exists.mp hfinal
  have hfacts : final.map (fun w => (w.done, w.sender.waits, w.sender.holdsLock, w.buffered,
      w.threshold)) = some (false, true, false, 8, 10) := by rfl
  simp only [hw, Option.map_some, Option.some.injEq, Prod.mk.injEq] at hfacts
  obtain ⟨hdone, hwait, hlock, hbuf, hthr⟩ := hfacts
  have hask : v.step zeroChannel (.setThreshold 2 6 10) = some u :=
    StepSystem.eq_some_of_bind (f := fun v => v.step zeroChannel (.setThreshold 2 6 10)) hv hu
  have hrest : (sendSystem zeroChannel).run u after = some w :=
    StepSystem.eq_some_of_bind (f := fun u => (sendSystem zeroChannel).run u after) hu hw
  have hbefore : ∀ a ∈ before, ∀ s, OneSetter s a := by simp [before, OneSetter]
  have hafter : ∀ a ∈ after, ∀ s, OneSetter s a := by simp [after, OneSetter]
  have hfree : OneSetter v (.setThreshold 2 6 10) := hreaders
  have hreach : (sendSystem zeroChannel).ReachableUnder OneSetter w :=
    (StepSystem.StepsUnder.step (StepSystem.steps_of_run hbefore hv) hfree hask).trans
      (StepSystem.steps_of_run hafter hrest)
  have hparked := SenderPc.parked_of_waits hwait hlock
  have hle : w.buffered ≤ w.threshold := by omega
  exact ⟨w, hreach, hdone, hparked, hle,
    (one_setter_loses_no_wakeup zeroChannel w hreach hdone).1 hparked hle⟩

/-- Two sessions set the threshold at the same time. Pion keeps the value 5 of the second one
and the send state the value 10 of the first one, so a release from 20 to 8 wakes nobody. -/
theorem two_setters_lose_wakeup :
    ¬ ∀ (c : Channel) (w : ChannelState), (sendSystem c).Reachable w → w.NoLostWakeup := by
  intro hall
  let acts : List SendAction := [.dcSend 1 (plainSend 5 (.bin [1])), .enqueue 1, .recheck 1,
    .take, .doSend, .sendReturn (.ok 20), .setThreshold 2 6 10, .setPion 2, .setThreshold 3 7 5,
    .setPion 3, .findState 3, .setState 3, .ret 3, .findState 2, .setState 2, .ret 2, .lock,
    .check, .checkDone, .park, .release 8]
  let final := (sendSystem zeroChannel).run (sendSystem zeroChannel).init acts
  have hrun : final.isSome := by rfl
  obtain ⟨w, hw⟩ := Option.isSome_iff_exists.mp hrun
  have hreaders : ∀ s, final.map (fun w => (w.readers s).owes) = some none
    | 0 => by rfl
    | 1 => by rfl
    | 2 => by rfl
    | 3 => by rfl
    | _ + 4 => by rfl
  have hclosers : ∀ g, final.map (fun w => w.closers g) = some .idle := fun _ => by rfl
  have hfacts : final.map (fun w => (w.done, w.sender.waits, w.sender.holdsLock, w.buffered,
      w.threshold, w.callbacks)) = some (false, true, false, 8, 10, 0) := by rfl
  simp only [hw, Option.map_some, Option.some.injEq, Prod.mk.injEq] at hreaders hclosers hfacts
  obtain ⟨hdone, hwait, hfree, hbuf, hthr, hcall⟩ := hfacts
  have hpending := (hall zeroChannel w (StepSystem.reachable_of_run hw) hdone).1
    (SenderPc.parked_of_waits hwait hfree) (by omega)
  rcases hpending with hcb | ⟨-, s, t, ht⟩ | ⟨g, hg⟩
  · omega
  · rw [hreaders s] at ht
    cases ht
  · rw [hclosers g] at hg
    cases hg

end PionBridge.Server
