import PionBridge.Proofs.DCSend.Shutdown

/-!
# `PionBridge.Proofs.DCSend.Strand`: sends on a channel that ends

`closeState` wakes the sender and fails what is queued, and `dc:close`, `resource:delete` and
the sweep call it. The other ends of a channel do not: `OnClose` and the end of `readDetached`
only emit the close event, and `pc:close` only closes the PeerConnection. A sender that waits
for drain at that moment waits forever (`closed_channel_strands_send`), because the buffered
amount no longer changes.

Nothing is stranded in the runs in which `closeState` comes first, or in which the sender is not
inside `waitForBuffer` at the end (`EndsClean`): pion refuses a send on a channel that has ended, so
the sender does not get there again. A sender that is inside gets out if the amount is within the
threshold from then on. The end has to be a real one: `readDetached` reports the end after any read
error, and on a channel that pion still has open a send goes through.
-/

set_option autoImplicit false

namespace PionBridge.Server

open PionBridge.Lib

namespace ChannelState

/-- `done` is closed, or the channel has really ended and the sender is not inside `waitForBuffer`,
or gets out of it: it does not wait and the amount is within the threshold. -/
def Settled (w : ChannelState) : Prop :=
  w.done = true ∨
    (w.isOpen = false ∧ (w.sender.inWaitForBuffer = true →
      w.buffered ≤ w.threshold ∧ w.sender.stalls = false))

/-- The condition on a step. The end of the channel is reported in a settled state. If the sender is
inside `waitForBuffer` then, a later change of the threshold keeps the amount within it. -/
def EndsClean (w : ChannelState) : SendAction → Prop
  | .reportClose _ => w.Settled
  | .setState s =>
      w.reported = true → w.sender.inWaitForBuffer = true → w.done = true ∨
        ∀ id t, w.readers s = .setState id t → w.buffered ≤ t
  | _ => True

/-- What holds in the runs that meet the condition, once the end has been reported. -/
structure CleanInv (w : ChannelState) : Prop where
  clean : w.reported = true → w.Settled
  exited : w.sender = .exited → w.done = true

/-- A step that changes none of what the invariant reads, but for a sender that does not enter
`waitForBuffer` and does not start to wait. -/
theorem CleanInv.same {w w' : ChannelState} (hw : w.CleanInv) (h1 : w'.reported = w.reported)
    (h2 : w'.isOpen = w.isOpen) (h3 : w.done = true → w'.done = true)
    (h4 : w'.buffered = w.buffered) (h5 : w'.threshold = w.threshold)
    (h6 : w'.sender.inWaitForBuffer = true →
      w.sender.inWaitForBuffer = true ∧ (w.sender.stalls = false → w'.sender.stalls = false))
    (h7 : w'.sender = .exited → w.sender = .exited) : w'.CleanInv where
  clean hrep := by
    rcases hw.clean (h1 ▸ hrep) with hdone | ⟨hclosed, hout⟩
    · exact Or.inl (h3 hdone)
    · refine Or.inr ⟨h2.trans hclosed, fun hin => ?_⟩
      obtain ⟨hin', hgo⟩ := h6 hin
      obtain ⟨hle, hstalls⟩ := hout hin'
      exact ⟨by rw [h4, h5]; exact hle, hgo hstalls⟩
  exited hex := h3 (hw.exited (h7 hex))

/-! ### The steps -/

/-- The step lemma. -/
theorem CleanInv.step {c : Channel} {w w' : ChannelState} {a : SendAction} (hw : w.CleanInv)
    (hC : w.EndsClean a) (h : w.step c a = some w') : w'.CleanInv := by
  cases moved h with
  | setState s id t pc hold =>
      refine ⟨fun hrep => ?_, fun hex => hw.exited (SenderPc.exited_of_wake hex)⟩
      rcases hw.clean hrep with hdone | ⟨hclosed, hout⟩
      · exact Or.inl hdone
      by_cases hin : w.sender.inWaitForBuffer = true
      · -- The condition keeps the amount within the new threshold.
        rcases hC hrep hin with hdone | hle
        · exact Or.inl hdone
        · exact Or.inr ⟨hclosed, fun _ => ⟨hle id t hold, SenderPc.stalls_wake (hout hin).2⟩⟩
      · refine Or.inr ⟨hclosed, fun hin' => absurd ?_ hin⟩
        rw [← SenderPc.inWaitForBuffer_wake]
        exact hin'
  | take i rest =>
      exact hw.same rfl rfl id rfl rfl (fun hin => by cases hin) (fun hex => by cases hex)
  | stop _ hdone => exact ⟨fun _ => Or.inl hdone, fun _ => hdone⟩
  | work _ i pc n _ hpc _ hstalls henters hroom =>
      refine ⟨fun hrep => ?_, fun hex => ?_⟩
      · rcases hw.clean hrep with hdone | ⟨hclosed, hout⟩
        · exact Or.inl hdone
        · refine Or.inr ⟨hclosed, fun hin => ?_⟩
          -- The channel is closed: the sender was inside before, and the amount has not grown.
          obtain ⟨hle, hgo⟩ := hout (by simpa [hclosed] using henters hin)
          have hzero : n = 0 := by simpa [hclosed] using hroom
          constructor
          · show w.buffered + n ≤ w.threshold
            omega
          · show pc.stalls = false
            by_contra hst
            rcases hstalls (by simpa using hst) with hold | hover
            · rw [hgo] at hold
              cases hold
            · omega
      · have hpc' : pc = .exited := hex
        rw [hpc'] at hpc
        cases hpc
  | senderAnswer _ i pc m _ hpc =>
      refine hw.same rfl rfl id rfl rfl (fun hin => ?_) (fun hex => ?_)
      · rcases hpc with rfl | ⟨err, rfl⟩ <;> cases hin
      · rcases hpc with rfl | ⟨err, rfl⟩ <;> cases hex
  | errorEvent =>
      exact hw.same rfl rfl id rfl rfl (fun hin => by cases hin) (fun hex => by cases hex)
  | closeFirst g =>
      exact hw.same rfl rfl (fun _ => rfl) rfl rfl (fun hin => ⟨hin, fun hst => hst⟩) id
  | broadcast g =>
      exact hw.same rfl rfl id rfl rfl
        (fun hin => ⟨(SenderPc.inWaitForBuffer_wake _).symm.trans hin, SenderPc.stalls_wake⟩)
        SenderPc.exited_of_wake
  | callback =>
      exact hw.same rfl rfl id rfl rfl
        (fun hin => ⟨(SenderPc.inWaitForBuffer_wake _).symm.trans hin, SenderPc.stalls_wake⟩)
        SenderPc.exited_of_wake
  | pion _ raw reading isOpen buffered callbacks hopen =>
      -- Pion changes nothing that counts on a channel that has ended.
      refine ⟨fun hrep => ?_, hw.exited⟩
      rcases hw.clean hrep with hdone | ⟨hclosed, -⟩
      · exact Or.inl hdone
      · rw [hclosed] at hopen
        cases hopen
  | report how reading closeEmitted es => exact ⟨fun _ => hC, hw.exited⟩
  | _ => exact hw.same rfl rfl id rfl rfl (fun hin => ⟨hin, fun hst => hst⟩) id

end ChannelState

open ChannelState

/-- A channel with the threshold 0, as a session can set it. -/
def zeroChannel : Channel := ⟨"dc", 0, false, ⟨0, 32⟩, by decide⟩

end PionBridge.Server
