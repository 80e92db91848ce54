import PionBridge.Proofs.DCSend.Shutdown

/-!
# `PionBridge.Proofs.DCSend.Order`: one FIFO for the whole channel

Text and binary sends of a session go through one reader and one channel, so they are taken
up in the order in which `handleDCSend` processed them. `flow` lists, for one session, what
the sender has taken up, what is in the channel and what the reader is about to enqueue. While
the state is open nothing else receives from the channel, and `flow` is a prefix of the frames
processed. After `close(done)` the drain and the readers take items out at the head, which
leaves a subsequence.

The sender works on one item at a time, so the acks follow the order in which the items were
taken up.
-/

set_option autoImplicit false

namespace PionBridge.Server

open PionBridge.Lib

/-- The item that the reader is about to enqueue. -/
def ReaderPc.pending : ReaderPc → List Request
  | .enqueue i => [i.request]
  | _ => []

theorem ReaderPc.pending_of_tunes {pc : ReaderPc} (h : pc.tunes = true) : pc.pending = [] := by
  cases pc with
  | enqueue i => cases h
  | _ => rfl

namespace ChannelState

/-- The text and binary frames of the session `s`, in the order of processing. -/
def processed (w : ChannelState) (s : Session) : List Request :=
  w.requests.filter fun r => decide (r.session = s) && r.work.isSome

/-- The requests of the session `s` that the sender has taken up, in order. -/
def takenOf (w : ChannelState) (s : Session) : List Request :=
  (w.taken.map (·.request)).filter fun r => decide (r.session = s)

/-- The requests that have been acked, in order. -/
def acked (w : ChannelState) : List Request :=
  w.emitted.filterMap fun e => if e.msg.type = "dc:send:ack" then e.request else none

/-- The requests whose acks the session `s` got, in order. -/
def ackedOf (w : ChannelState) (s : Session) : List Request :=
  (w.emitted.filter fun e =>
    decide (e.session = s) && decide (e.msg.type = "dc:send:ack")).filterMap (·.request)

/-- What the sender has taken up and what is in the channel, for the session `s`. -/
def lined (w : ChannelState) (s : Session) : List Request :=
  ((w.taken ++ w.work).map (·.request)).filter fun r => decide (r.session = s)

/-- The frames of `s` on their way through the channel. -/
def flow (w : ChannelState) (s : Session) : List Request :=
  w.lined s ++ (w.readers s).pending

structure OrderInv (w : ChannelState) : Prop where
  sub : ∀ s, (w.flow s).Sublist (w.processed s)
  pre : w.done = false → ∀ s, w.flow s <+: w.processed s
  all : w.done = false → w.registered = true → ∀ s, w.flow s = w.processed s
  reclaims : ∀ s, w.readers s = .reclaim → w.done = true
  acks : (w.acked ++ w.sender.held.toList).Sublist (w.taken.map (·.request))

/-! ### How a step changes the lines -/

/-- A step that moves no frame. -/
theorem OrderInv.same {w w' : ChannelState} (hw : w.OrderInv) (h1 : ∀ s, w'.flow s = w.flow s)
    (h2 : w'.requests = w.requests) (h3 : w'.done = false → w.done = false)
    (h4 : w'.registered = true → w.registered = true)
    (h5 : ∀ s, w'.readers s = .reclaim → w'.done = true)
    (h6 : (w'.acked ++ w'.sender.held.toList).Sublist (w'.taken.map (·.request))) :
    w'.OrderInv := by
  have hproc : ∀ s, w'.processed s = w.processed s := by
    intro s
    unfold processed
    rw [h2]
  refine ⟨?_, ?_, ?_, h5, h6⟩
  · intro s
    rw [h1, hproc]
    exact hw.sub s
  · intro hdone s
    rw [h1, hproc]
    exact hw.pre (h3 hdone) s
  · intro hdone hreg s
    rw [h1, hproc]
    exact hw.all (h3 hdone) (h4 hreg) s

/-- A step that takes frames out after `close(done)`. -/
theorem OrderInv.drop {w w' : ChannelState} (hw : w.OrderInv)
    (h1 : ∀ s, (w'.flow s).Sublist (w.flow s)) (h2 : w'.requests = w.requests)
    (h3 : w'.done = true)
    (h6 : (w'.acked ++ w'.sender.held.toList).Sublist (w'.taken.map (·.request))) :
    w'.OrderInv := by
  refine ⟨?_, ?_, ?_, fun _ _ => h3, h6⟩
  · intro s
    unfold processed
    rw [h2]
    exact (h1 s).trans (hw.sub s)
  · intro hdone
    rw [h3] at hdone
    cases hdone
  · intro hdone
    rw [h3] at hdone
    cases hdone

theorem flow_withReader {w : ChannelState} {s : Session} {pc : ReaderPc}
    (h : pc.pending = (w.readers s).pending) (s' : Session) :
    (w.withReader s pc).flow s' = w.flow s' := by
  unfold flow
  by_cases hs : s' = s
  · subst hs
    simp [withReader, h, lined]
  · simp [withReader, hs, lined]

/-- The reader lets go of its item. -/
theorem flow_withReader_sublist {w : ChannelState} {s : Session} {pc : ReaderPc}
    (h : pc.pending = []) (s' : Session) :
    ((w.withReader s pc).flow s').Sublist (w.flow s') := by
  unfold flow
  by_cases hs : s' = s
  · subst hs
    simp only [withReader, Function.update_self, h, List.append_nil]
    exact List.sublist_append_left _ _
  · simp [withReader, hs, lined]

/-- Removing the first item of the channel. -/
theorem flow_sublist_of_tail {w w' : ChannelState} {i : Item} {rest : List Item}
    (h1 : w'.taken = w.taken) (hwork : w.work = i :: rest) (h2 : w'.work = rest)
    (h3 : ∀ s, (w'.readers s).pending = (w.readers s).pending) (s : Session) :
    (w'.flow s).Sublist (w.flow s) := by
  unfold flow lined
  rw [h1, h2, hwork, h3]
  refine List.Sublist.append_right (List.Sublist.filter _ (List.Sublist.map _ ?_)) _
  exact List.Sublist.append_left (List.sublist_cons_self i rest) _

theorem acked_answer (w : ChannelState) (r : Option Request) (s : Session) (route : Route)
    (m : Message) : (w.answer r s route m).acked
      = w.acked ++ (if m.type = "dc:send:ack" then r else none).toList := by
  unfold acked answer
  rw [List.filterMap_append]
  congr 1

theorem errorResponse_ne_ack (id : Int) (code message : String) (fatal : Bool)
    (handle : String) : (errorResponse id code message fatal handle).type ≠ "dc:send:ack" := by
  show "error" ≠ "dc:send:ack"
  decide

/-- A message that is no ack, or answers no request. -/
theorem acked_answer_of {w : ChannelState} {r : Option Request} {s : Session} {route : Route}
    {m : Message} (h : m.type ≠ "dc:send:ack" ∨ r = none) :
    (w.answer r s route m).acked = w.acked := by
  rw [acked_answer]
  rcases h with h | h
  · simp [h]
  · simp [h]

/-- Events are no acks. -/
theorem acked_append_events {w w' : ChannelState} {es : List Emission}
    (h : w'.emitted = w.emitted ++ es) (hes : ∀ e ∈ es, e.request = none) :
    w'.acked = w.acked := by
  have hnone : es.filterMap (fun e => if e.msg.type = "dc:send:ack" then e.request else none)
      = [] := by
    refine List.filterMap_eq_nil_iff.mpr fun e he => ?_
    rw [hes e he, ite_self]
  unfold acked
  rw [h, List.filterMap_append, hnone, List.append_nil]

/-- `handleDCSend` leaves a text or binary frame that found the state to be enqueued. -/
theorem pending_handleDCSend (r : Request) : (handleDCSend r).pending
    = if r.found = true ∧ r.work.isSome = true then [r] else [] := by
  unfold handleDCSend
  split
  · rename_i hfound
    split
    · rename_i work hwork
      simp [ReaderPc.pending, hfound, hwork]
    · rename_i hwork
      simp [ReaderPc.pending, hwork]
  · rename_i hmiss
    simp [ReaderPc.pending, hmiss]

/-! ### The steps -/

/-- A new frame: it is enqueued after all others of its session, or it is never lined up
because the state was not found or the payload is unsupported. -/
theorem OrderInv.dcSend {w : ChannelState} (hw : w.OrderInv) {s : Session} (msg : Message)
    (hs : w.readers s = .idle) :
    OrderInv { w.withReader s (handleDCSend ⟨w.requests.length, s, msg, w.registered⟩) with
      requests := w.requests ++ [⟨w.requests.length, s, msg, w.registered⟩] } := by
  generalize hr : (⟨w.requests.length, s, msg, w.registered⟩ : Request) = r
  have hsession : r.session = s := by rw [← hr]
  have hfound : r.found = w.registered := by rw [← hr]
  generalize hw' : ({ w.withReader s (handleDCSend r) with
    requests := w.requests ++ [r] } : ChannelState) = w'
  have hflow : ∀ s', w'.flow s' = w.flow s' ++
      if s' = s ∧ r.found = true ∧ r.work.isSome = true then [r] else [] := by
    intro s'
    rw [← hw']
    unfold flow
    by_cases heq : s' = s
    · subst heq
      have hidle : (w.readers s').pending = [] := by rw [hs]; rfl
      simp [withReader, pending_handleDCSend, hidle, lined]
    · simp [withReader, heq, lined]
  have hproc : ∀ s', w'.processed s' = w.processed s' ++
      if s' = s ∧ r.work.isSome = true then [r] else [] := by
    intro s'
    rw [← hw']
    unfold processed
    rw [List.filter_append]
    congr 1
    by_cases heq : s' = s
    · subst heq
      cases hwork : r.work <;> simp [hsession, hwork]
    · have hne : r.session ≠ s' := fun h => heq (h.symm.trans hsession)
      simp [heq, hne]
  refine ⟨?_, ?_, ?_, ?_, ?_⟩
  · intro s'
    rw [hflow, hproc]
    refine (hw.sub s').append ?_
    split
    · rename_i hcond
      rw [if_pos ⟨hcond.1, hcond.2.2⟩]
    · exact List.nil_sublist _
  · intro hdone s'
    have hopen : w.done = false := by rw [← hw'] at hdone; exact hdone
    rw [hflow, hproc]
    by_cases hreg : w.registered = true
    · rw [hw.all hopen hreg s', hfound, hreg]
      simp
    · have hmiss : ¬ (s' = s ∧ r.found = true ∧ r.work.isSome = true) := by
        rw [hfound]
        exact fun hcond => hreg hcond.2.1
      rw [if_neg hmiss, List.append_nil]
      exact (hw.pre hopen s').trans (List.prefix_append _ _)
  · intro hdone hreg s'
    have hopen : w.done = false := by rw [← hw'] at hdone; exact hdone
    have hreg' : w.registered = true := by rw [← hw'] at hreg; exact hreg
    rw [hflow, hproc, hw.all hopen hreg' s', hfound, hreg']
    simp
  · intro s' hs'
    rw [← hw'] at hs' ⊢
    by_cases heq : s' = s
    · subst heq
      simp only [withReader, Function.update_self] at hs'
      -- `handleDCSend` never stops at the reclaiming receive.
      unfold handleDCSend at hs'
      split at hs'
      · split at hs' <;> cases hs'
      · cases hs'
    · exact hw.reclaims s' (by simpa [withReader, heq] using hs')
  · rw [← hw']
    exact hw.acks

/-- A reader goes on with what it has to enqueue, and nothing else changes. -/
theorem OrderInv.withReader {w w' : ChannelState} (hw : w.OrderInv) {s : Session} {pc : ReaderPc}
    (hpc : pc.pending = (w.readers s).pending) (hdone : pc = .reclaim → w.done = true)
    (h1 : w'.readers = Function.update w.readers s pc) (h2 : w'.requests = w.requests)
    (h3 : w'.taken = w.taken) (h4 : w'.work = w.work) (h5 : w'.done = w.done)
    (h6 : w'.registered = w.registered) (h7 : w'.sender.held = w.sender.held)
    (h8 : w'.acked = w.acked) : w'.OrderInv := by
  refine hw.same ?_ h2 (fun hd => h5 ▸ hd) (fun hr => h6 ▸ hr) ?_ ?_
  · intro s'
    have hflow : w'.flow s' = (w.withReader s pc).flow s' := by
      unfold flow lined
      rw [h1, h3, h4]
      rfl
    rw [hflow, flow_withReader hpc]
  · intro s' hs'
    rw [h1] at hs'
    rw [h5]
    by_cases heq : s' = s
    · subst heq
      rw [Function.update_self] at hs'
      exact hdone hs'
    · rw [Function.update_of_ne heq] at hs'
      exact hw.reclaims s' hs'
  · rw [h8, h7, h3]
    exact hw.acks

/-- The lines and the readers stay. `done` may be closed and the handle may go, and the item in
the hand of the sender may become the last one acked. -/
theorem OrderInv.still {w w' : ChannelState} (hw : w.OrderInv) (h1 : w'.readers = w.readers)
    (h2 : w'.requests = w.requests) (h3 : w'.taken = w.taken) (h4 : w'.work = w.work)
    (h5 : w'.done = true ∨ w'.done = w.done)
    (h6 : w'.registered = true → w.registered = true)
    (h7 : (w'.acked ++ w'.sender.held.toList).Sublist (w.acked ++ w.sender.held.toList)) :
    w'.OrderInv := by
  refine hw.same ?_ h2 ?_ h6 ?_ ?_
  · intro s
    unfold flow lined
    rw [h1, h3, h4]
  · intro hopen
    rcases h5 with h5 | h5
    · rw [h5] at hopen
      cases hopen
    · rwa [h5] at hopen
  · intro s hs
    have hdone := hw.reclaims s (h1 ▸ hs)
    rcases h5 with h5 | h5
    · exact h5
    · rwa [h5]
  · rw [h3]
    exact h7.trans hw.acks

/-- A frame moves from the hand of its reader to the end of the line. -/
theorem OrderInv.enqueue {w : ChannelState} (hw : w.OrderInv) {s : Session} {i : Item}
    (hpc : w.readers s = .enqueue i) (hmine : i.request.session = s) :
    OrderInv { w.withReader s .recheck with work := w.work ++ [i] } := by
  refine hw.same ?_ rfl id id ?_ hw.acks
  · intro s'
    unfold flow lined
    by_cases hs : s' = s
    · subst hs
      simp [ChannelState.withReader, hpc, ReaderPc.pending, hmine]
    · have hne : i.request.session ≠ s' := fun heq => hs (heq ▸ hmine)
      simp [ChannelState.withReader, hs, hne]
  · intro s' hs'
    by_cases hs : s' = s
    · subst hs
      simp [ChannelState.withReader] at hs'
    · exact hw.reclaims s' (by simpa [ChannelState.withReader, hs] using hs')

/-- The sender takes up the first item of the channel. -/
theorem OrderInv.take {w : ChannelState} (hw : w.OrderInv) {i : Item} {rest : List Item}
    (hpc : w.sender = .select) (hwork : w.work = i :: rest) :
    OrderInv { w.withSender (.run i) with work := rest, taken := w.taken ++ [i] } := by
  have hacks := hw.acks
  rw [hpc] at hacks
  refine hw.same ?_ rfl id id hw.reclaims ?_
  · intro s
    simp [flow, lined, withSender, hwork]
  · -- The new item is the last one taken up, and no ack of it is out.
    show (w.acked ++ [i.request]).Sublist ((w.taken ++ [i]).map (·.request))
    rw [List.map_append]
    exact List.Sublist.append (by simpa [SenderPc.held] using hacks) (List.Sublist.refl _)

/-- The step lemma. -/
theorem OrderInv.step {c : Channel} {w w' : ChannelState} {a : SendAction} (hw : w.OrderInv)
    (hlog : w.LogInv) (hshut : w.ShutdownInv) (h : w.step c a = some w') : w'.OrderInv := by
  have hproper : ∀ {s pc}, w.readers s = pc → pc.Proper s := by
    rintro s pc rfl
    exact hlog.readers s
  cases moved h with
  | dcSend s msg hpc => exact hw.dcSend msg hpc
  | enqueue s i hpc => exact hw.enqueue hpc (hproper hpc)
  | enqueueClosed s i hpc hdone =>
      exact hw.drop (flow_withReader_sublist rfl) rfl hdone hw.acks
  | recheck s hpc =>
      refine hw.withReader ?_ ?_ rfl rfl rfl rfl rfl rfl rfl rfl
      · rw [hpc]
        split <;> rfl
      · intro hre
        by_contra hopen
        simp [hopen] at hre
  | reclaim s i rest hpc hwork =>
      refine hw.drop ?_ rfl (hw.reclaims s hpc) hw.acks
      refine flow_sublist_of_tail rfl hwork rfl fun s' => ?_
      by_cases hs : s' = s
      · subst hs
        simp [ChannelState.withReader, hpc, ReaderPc.pending]
      · simp [ChannelState.withReader, hs]
  | reclaimNone s hpc =>
      exact hw.withReader (by rw [hpc]; rfl) (by simp) rfl rfl rfl rfl rfl rfl rfl rfl
  | fail s i hpc =>
      exact hw.withReader (by rw [hpc]; rfl) (by simp) rfl rfl rfl rfl rfl rfl rfl
        (acked_answer_of (Or.inl (errorResponse_ne_ack _ _ _ _ _)))
  | failOwn s i m hpc _ htype =>
      exact hw.withReader (by rw [hpc]; rfl) (by simp) rfl rfl rfl rfl rfl rfl rfl
        (acked_answer_of (Or.inl (by rw [htype]; decide)))
  | ret s r m hpc =>
      refine hw.withReader (by rw [hpc]; rfl) (by simp) rfl rfl rfl rfl rfl rfl rfl
        (acked_answer_of ?_)
      cases r with
      | none => exact Or.inr rfl
      | some r =>
          -- What a handler returns for a `dc:send` is an error.
          have hans : Emission.Answers ⟨some r, s, .returned, m⟩ r := hproper hpc r rfl
          rcases hans.type with ⟨-, hroute⟩ | herr
          · cases hroute
          · have herr' : m.type = "error" := herr
            exact Or.inl (by rw [herr']; decide)
  | tune _ s pc low hold hpc =>
      refine hw.withReader ?_ ?_ rfl rfl rfl rfl rfl rfl rfl rfl
      · rw [ReaderPc.pending_of_tunes hold, ReaderPc.pending_of_tunes hpc]
      · rintro rfl
        cases hpc
  | setState s id t pc hold hpc =>
      refine hw.withReader ?_ ?_ rfl rfl rfl rfl rfl rfl (SenderPc.held_wake _) rfl
      · rw [hold, ReaderPc.pending_of_tunes hpc]
        rfl
      · rintro rfl
        cases hpc
  | take i rest hpc hwork => exact hw.take hpc hwork
  | stop hpc =>
      refine hw.still rfl rfl rfl rfl (Or.inr rfl) id ?_
      rw [hpc]
      exact List.Sublist.refl _
  | work _ i pc n hold hpc =>
      refine hw.still rfl rfl rfl rfl (Or.inr rfl) id ?_
      show (w.acked ++ pc.held.toList).Sublist _
      rw [hpc, hold]
  | senderAnswer _ i pc m hold hpc =>
      refine hw.still rfl rfl rfl rfl (Or.inr rfl) id ?_
      have hnone : pc.held = none := by
        rcases hpc with rfl | ⟨err, rfl⟩ <;> rfl
      show (((w.withSender pc).answer _ _ _ m).acked ++ pc.held.toList).Sublist _
      rw [acked_answer, hnone, hold]
      -- The item in hand is acked, or let go.
      show (w.acked ++ _ ++ []).Sublist (w.acked ++ [i.request])
      rw [List.append_nil]
      refine List.Sublist.append_left ?_ _
      split
      · exact List.Sublist.refl _
      · exact List.nil_sublist _
  | errorEvent i err m hpc =>
      refine hw.still rfl rfl rfl rfl (Or.inr rfl) id ?_
      rw [acked_answer_of (Or.inr rfl), hpc]
      exact List.Sublist.refl _
  | callClose g => exact hw.still rfl rfl rfl rfl (Or.inr rfl) (by simp) (List.Sublist.refl _)
  | closeFirst g => exact hw.still rfl rfl rfl rfl (Or.inl rfl) id (List.Sublist.refl _)
  | closeAgain g => exact hw.still rfl rfl rfl rfl (Or.inr rfl) id (List.Sublist.refl _)
  | broadcast g =>
      refine hw.still rfl rfl rfl rfl (Or.inr rfl) id ?_
      show (w.acked ++ w.sender.wake.held.toList).Sublist _
      rw [SenderPc.held_wake]
  | drain g i rest hpc hwork =>
      have hin : (w.closers g).inOnce = true := by rw [hpc]; rfl
      have hdone : w.done = true := hshut.done_iff.mpr (by rw [hshut.running g hin]; decide)
      refine hw.drop ?_ rfl hdone hw.acks
      exact flow_sublist_of_tail rfl hwork rfl fun _ => rfl
  | drained g => exact hw.still rfl rfl rfl rfl (Or.inr rfl) id (List.Sublist.refl _)
  | closerFail g i =>
      refine hw.still rfl rfl rfl rfl (Or.inr rfl) id ?_
      have hacked : ((w.withCloser g .draining).answer (some i.request) i.work.session
          .sendEvent (closedBeforeSend i.work)).acked = w.acked :=
        acked_answer_of (Or.inl (errorResponse_ne_ack _ _ _ _ _))
      rw [hacked]
      exact List.Sublist.refl _
  | pion => exact hw.still rfl rfl rfl rfl (Or.inr rfl) id (List.Sublist.refl _)
  | callback m =>
      refine hw.still rfl rfl rfl rfl (Or.inr rfl) id ?_
      rw [acked_answer_of (Or.inr rfl)]
      show (w.acked ++ w.sender.wake.held.toList).Sublist _
      rw [SenderPc.held_wake]
  | report how reading closeEmitted es hes =>
      refine hw.still rfl rfl rfl rfl (Or.inr rfl) id ?_
      rw [acked_append_events (w := w) rfl hes]

theorem orderInv_of_reachable {c : Channel} {w : ChannelState}
    (hw : (sendSystem c).Reachable w) : w.OrderInv := by
  refine hw.invariant (I := OrderInv) ?_ ?_
  · constructor <;>
      simp [sendSystem, Channel.start, flow, lined, processed, ReaderPc.pending, acked,
        SenderPc.held]
  · intro w a w' hreach hinv hstep
    exact hinv.step (answers_of_reachable hreach).1 (shutdownInv_of_reachable hreach) hstep

/-- The acks that go to a session are the acks of its own requests. -/
theorem ackedOf_eq {w : ChannelState} (hlog : w.LogInv) (s : Session) :
    w.ackedOf s = w.acked.filter fun r => decide (r.session = s) := by
  have hmem := hlog.emitted
  unfold ackedOf acked
  generalize w.emitted = es at hmem
  induction es with
  | nil => rfl
  | cons e es ih =>
      have ih' := ih fun e' he' => hmem e' (List.mem_cons_of_mem _ he')
      rw [List.filter_cons]
      by_cases htype : e.msg.type = "dc:send:ack"
      · cases hr : e.request with
        | none =>
            by_cases hs : e.session = s <;> simp [htype, hr, hs, ih']
        | some r =>
            have hsession := (hmem e List.mem_cons_self r hr).session
            by_cases hs : e.session = s
            · simp [htype, hr, hs, ih', ← hsession]
            · simp [htype, hr, hs, ih', ← hsession]
      · simp [htype, ih']

end ChannelState

open ChannelState

/-- In every interleaving and for every session: the items that the sender takes up are a
subsequence of the text and binary frames of the session in the order in which `handleDCSend`
processed them, without repetition. While the state is open they are a prefix of them. The
acks that the session gets follow the same order. -/
theorem dcSend_fifo (c : Channel) (w : ChannelState) (hw : (sendSystem c).Reachable w)
    (s : Session) :
    (w.takenOf s).Sublist (w.processed s) ∧ (w.takenOf s).Nodup ∧
      (w.done = false → w.takenOf s <+: w.processed s) ∧
      (w.ackedOf s).Sublist (w.takenOf s) := by
  obtain ⟨hlog, hex⟩ := answers_of_reachable hw
  have hord := orderInv_of_reachable hw
  -- What was taken up comes before what is in the channel and at the reader.
  have hpre : w.takenOf s <+: w.flow s := by
    unfold takenOf flow lined
    rw [List.map_append, List.filter_append, List.append_assoc]
    exact List.prefix_append _ _
  have hsub : (w.takenOf s).Sublist (w.processed s) := hpre.sublist.trans (hord.sub s)
  refine ⟨hsub, ?_, ?_, ?_⟩
  · exact (hex.issued_nodup.filter _).sublist hsub
  · intro hopen
    exact hpre.trans (hord.pre hopen s)
  · rw [ackedOf_eq hlog]
    exact ((List.sublist_append_left _ _).trans hord.acks).filter _

/-- Session 1 sends binary and then text while session 2 sends too, and the sender has acked
the first item of session 1. -/
theorem dcSend_fifo_mixed :
    ∃ w, (sendSystem plainChannel).Reachable w ∧ w.done = false ∧
      (w.takenOf 1).map (·.msg.id) = [5] ∧ (w.processed 1).map (·.msg.id) = [5, 6] ∧
      w.takenOf 1 <+: w.processed 1 := by
  let acts : List SendAction := [.dcSend 1 (plainSend 5 (.bin [1])), .enqueue 1, .recheck 1,
    .dcSend 2 (plainSend 5 (.bin [2])), .enqueue 2, .recheck 2,
    .dcSend 1 (plainSend 6 (.str "a")), .enqueue 1, .recheck 1, .take, .doSend,
    .sendReturn (.ok 1), .lock, .check, .ack]
  let final := (sendSystem plainChannel).run (sendSystem plainChannel).init acts
  have hrun : final.isSome := by rfl
  obtain ⟨w, hw⟩ := Option.isSome_iff_exists.mp hrun
  have hreach := StepSystem.reachable_of_run hw
  have hfacts : final.map (fun w => (w.done, (w.takenOf 1).map (·.msg.id),
      (w.processed 1).map (·.msg.id))) = some (false, [5], [5, 6]) := by rfl
  simp only [hw, Option.map_some, Option.some.injEq, Prod.mk.injEq] at hfacts
  obtain ⟨hopen, htaken, hproc⟩ := hfacts
  exact ⟨w, hreach, hopen, htaken, hproc,
    (dcSend_fifo plainChannel w hreach 1).2.2.1 hopen⟩

end PionBridge.Server
