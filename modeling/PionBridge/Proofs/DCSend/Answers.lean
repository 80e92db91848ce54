import PionBridge.Lib.Custody
import PionBridge.Proofs.DCSend.Steps

/-!
# `PionBridge.Proofs.DCSend.Answers`: a `dc:send` is answered at most once

Every `dc:send` is in exactly one place: in the hands of the reader that processes it, in the
work channel, in the hands of the sender, of a goroutine that drains the channel or of a
reader that reclaimed it, or answered. Receives are exclusive, so every step is a move of
`Lib.Custody` (`custody_step`), and the invariant of the library carries over.

What an answer says is settled at the places that emit one: an item carries the session and
the id of its request (`Item.made`).
-/

set_option autoImplicit false

namespace PionBridge.Server

open PionBridge.Lib

/-! ### Who holds what -/

/-- A goroutine that can hold a request. -/
inductive Holder
  | reader (s : Session)
  | sender
  | closer (g : Nat)
  deriving DecidableEq

namespace ChannelState

def hold (w : ChannelState) : Holder → Option Request
  | .reader s => (w.readers s).held
  | .sender => w.sender.held
  | .closer g => (w.closers g).held

/-- Where the requests are. -/
def custody (w : ChannelState) : Custody Holder Request where
  issued := w.requests
  hold := w.hold
  queue := w.work.map (·.request)
  settled := w.emitted.filterMap (·.request)

theorem hold_withReader (w : ChannelState) (s : Session) (pc : ReaderPc) :
    (w.withReader s pc).hold = Function.update w.hold (.reader s) pc.held := by
  funext h
  cases h with
  | reader s' =>
      by_cases hs : s' = s
      · subst hs
        simp [hold, withReader]
      · have hne : Holder.reader s' ≠ Holder.reader s := by simpa using hs
        rw [Function.update_of_ne hne]
        simp [hold, withReader, hs]
  | sender => rfl
  | closer g => rfl

theorem hold_withSender (w : ChannelState) (pc : SenderPc) :
    (w.withSender pc).hold = Function.update w.hold .sender pc.held := by
  funext h
  cases h with
  | reader s => rfl
  | sender => rfl
  | closer g => rfl

theorem hold_withCloser (w : ChannelState) (g : Nat) (pc : CloserPc) :
    (w.withCloser g pc).hold = Function.update w.hold (.closer g) pc.held := by
  funext h
  cases h with
  | reader s => rfl
  | sender => rfl
  | closer g' =>
      by_cases hg : g' = g
      · subst hg
        simp [hold, withCloser]
      · have hne : Holder.closer g' ≠ Holder.closer g := by simpa using hg
        rw [Function.update_of_ne hne]
        simp [hold, withCloser, hg]

/-- A step of a reader that holds the same before and after. -/
theorem hold_withReader_same {w : ChannelState} {s : Session} {pc : ReaderPc}
    (h : pc.held = (w.readers s).held) : (w.withReader s pc).hold = w.hold := by
  rw [hold_withReader, h]
  exact Function.update_eq_self (Holder.reader s) w.hold

theorem hold_withSender_same {w : ChannelState} {pc : SenderPc}
    (h : pc.held = w.sender.held) : (w.withSender pc).hold = w.hold := by
  rw [hold_withSender, h]
  exact Function.update_eq_self Holder.sender w.hold

theorem hold_withCloser_same {w : ChannelState} {g : Nat} {pc : CloserPc}
    (h : pc.held = (w.closers g).held) : (w.withCloser g pc).hold = w.hold := by
  rw [hold_withCloser, h]
  exact Function.update_eq_self (Holder.closer g) w.hold

/-- A state whose holders, queue and answers are those of `w` up to the given updates. -/
theorem custody_eq {w' : ChannelState} {c : Custody Holder Request}
    (h1 : w'.requests = c.issued) (h2 : w'.hold = c.hold)
    (h3 : w'.work.map (·.request) = c.queue)
    (h4 : w'.emitted.filterMap (·.request) = c.settled) :
    w'.custody = c := by
  cases c
  simp only [custody, Custody.mk.injEq]
  exact ⟨h1, h2, h3, h4⟩

theorem move_stay {w w' : ChannelState} (h1 : w'.requests = w.requests) (h2 : w'.hold = w.hold)
    (h3 : w'.work = w.work)
    (h4 : w'.emitted.filterMap (·.request) = w.emitted.filterMap (·.request)) :
    Custody.Move w.custody w'.custody := by
  have heq : w'.custody = w.custody := by
    refine custody_eq ?_ h2 ?_ h4
    · rw [h1]
      rfl
    · rw [h3]
      rfl
  rw [heq]
  exact .stay

theorem move_put {w w' : ChannelState} {h : Holder} {i : Item}
    (hmine : w.hold h = some i.request) (h1 : w'.requests = w.requests)
    (h2 : w'.hold = Function.update w.hold h none) (h3 : w'.work = w.work ++ [i])
    (h4 : w'.emitted = w.emitted) : Custody.Move w.custody w'.custody := by
  have heq : w'.custody = { w.custody with
      hold := Function.update w.custody.hold h none
      queue := w.custody.queue ++ [i.request] } := by
    refine custody_eq ?_ h2 ?_ ?_
    · rw [h1]
      rfl
    · rw [h3, List.map_append]
      rfl
    · rw [h4]
      rfl
  rw [heq]
  exact .put h i.request hmine

theorem move_take {w w' : ChannelState} {h : Holder} {i : Item} {rest : List Item}
    (hfree : w.hold h = none) (hwork : w.work = i :: rest) (h1 : w'.requests = w.requests)
    (h2 : w'.hold = Function.update w.hold h (some i.request)) (h3 : w'.work = rest)
    (h4 : w'.emitted = w.emitted) : Custody.Move w.custody w'.custody := by
  have heq : w'.custody = { w.custody with
      hold := Function.update w.custody.hold h (some i.request)
      queue := rest.map (·.request) } := by
    refine custody_eq ?_ h2 ?_ ?_
    · rw [h1]
      rfl
    · rw [h3]
    · rw [h4]
      rfl
  rw [heq]
  refine .take h i.request _ hfree ?_
  show w.work.map (·.request) = _
  rw [hwork]
  rfl

theorem move_settle {w w' : ChannelState} {h : Holder} {r : Request} {s : Session}
    {route : Route} {m : Message} (hmine : w.hold h = some r)
    (h1 : w'.requests = w.requests) (h2 : w'.hold = Function.update w.hold h none)
    (h3 : w'.work = w.work) (h4 : w'.emitted = w.emitted ++ [⟨some r, s, route, m⟩]) :
    Custody.Move w.custody w'.custody := by
  have heq : w'.custody = { w.custody with
      hold := Function.update w.custody.hold h none
      settled := w.custody.settled ++ [r] } := by
    refine custody_eq ?_ h2 ?_ ?_
    · rw [h1]
      rfl
    · rw [h3]
      rfl
    · rw [h4, List.filterMap_append]
      rfl
  rw [heq]
  exact .settle h r hmine

/-- `handleDCSend` leaves its request in the hands of the reader. -/
theorem held_handleDCSend (r : Request) : (handleDCSend r).held = some r := by
  unfold handleDCSend
  split
  · split <;> rfl
  · rfl

/-- Requests are numbered in the order in which they arrive. -/
def Numbered (w : ChannelState) : Prop :=
  w.requests.map (·.index) = List.range w.requests.length

theorem Numbered.not_mem {w : ChannelState} (hw : w.Numbered) {r : Request}
    (hr : r.index = w.requests.length) : r ∉ w.requests := by
  intro hmem
  have hidx : r.index ∈ w.requests.map (·.index) := List.mem_map_of_mem hmem
  rw [hw, List.mem_range] at hidx
  omega

/-! ### Every step is a move -/

/-- The step lemma: every step moves requests as `Lib.Custody` allows. -/
theorem custody_step {c : Channel} {w w' : ChannelState} {a : SendAction} (hidx : w.Numbered)
    (h : w.step c a = some w') : Custody.Move w.custody w'.custody := by
  -- What a goroutine holds is what its program counter says.
  have hreader : ∀ {s pc}, w.readers s = pc → w.hold (.reader s) = pc.held :=
    fun hpc => congrArg ReaderPc.held hpc
  have hcloser : ∀ {g pc}, w.closers g = pc → w.hold (.closer g) = pc.held :=
    fun hpc => congrArg CloserPc.held hpc
  cases moved h with
  | dcSend s msg hpc =>
      have heq : ChannelState.custody { w.withReader s (handleDCSend
          ⟨w.requests.length, s, msg, w.registered⟩) with
          requests := w.requests ++ [⟨w.requests.length, s, msg, w.registered⟩] }
          = { w.custody with
              issued := w.custody.issued ++ [⟨w.requests.length, s, msg, w.registered⟩]
              hold := Function.update w.custody.hold (.reader s)
                (some ⟨w.requests.length, s, msg, w.registered⟩) } := by
        refine custody_eq rfl ?_ rfl rfl
        show (w.withReader s _).hold = _
        rw [hold_withReader, held_handleDCSend]
        rfl
      rw [heq]
      exact .issue (Holder.reader s) _ (hreader hpc) (hidx.not_mem rfl)
  | enqueue s i hpc =>
      exact move_put (hreader hpc) rfl (hold_withReader w s .recheck) rfl rfl
  | enqueueClosed s i hpc =>
      exact move_stay rfl (hold_withReader_same (by rw [hpc]; rfl)) rfl rfl
  | recheck s hpc =>
      refine move_stay rfl (hold_withReader_same ?_) rfl rfl
      rw [hpc]
      split <;> rfl
  | reclaim s i rest hpc hwork =>
      exact move_take (hreader hpc) hwork rfl (hold_withReader w s (.failing i)) rfl rfl
  | reclaimNone s hpc =>
      exact move_stay rfl (hold_withReader_same (by rw [hpc]; rfl)) rfl rfl
  | fail s i hpc =>
      exact move_settle (hreader hpc) rfl (hold_withReader w s .idle) rfl rfl
  | failOwn s i m hpc =>
      exact move_settle (hreader hpc) rfl (hold_withReader w s .idle) rfl rfl
  | ret s r m hpc =>
      cases r with
      | none =>
          refine move_stay rfl (hold_withReader_same (by rw [hpc]; rfl)) rfl ?_
          simp [answer, withReader]
      | some r => exact move_settle (hreader hpc) rfl (hold_withReader w s .idle) rfl rfl
  | tune _ s pc low hold hpc =>
      refine move_stay rfl (hold_withReader_same (w := w) ?_) rfl rfl
      rw [ReaderPc.held_of_tunes hold, ReaderPc.held_of_tunes hpc]
  | setState s id t pc hold hpc =>
      refine move_stay rfl ?_ rfl rfl
      show ((w.withReader s pc).withSender w.sender.wake).hold = w.hold
      rw [hold_withSender_same (by rw [SenderPc.held_wake]; rfl),
        hold_withReader_same (by rw [hold, ReaderPc.held_of_tunes hpc]; rfl)]
  | take i rest hpc hwork =>
      have hfree : w.hold .sender = none := congrArg SenderPc.held hpc
      exact move_take hfree hwork rfl (hold_withSender w (.run i)) rfl rfl
  | stop hpc =>
      exact move_stay rfl (hold_withSender_same (by rw [hpc]; rfl)) rfl rfl
  | work _ i pc n hold hpc =>
      exact move_stay rfl (hold_withSender_same (w := w) (hpc.trans hold.symm)) rfl rfl
  | senderAnswer _ i pc m hold hpc =>
      -- An answer takes the item out of the hand.
      have hnone : pc.held = none := by
        rcases hpc with rfl | ⟨err, rfl⟩ <;> rfl
      have hmine : w.hold .sender = some i.request := hold
      exact move_settle hmine rfl (hnone ▸ hold_withSender w pc) rfl rfl
  | errorEvent i err m hpc =>
      refine move_stay rfl (hold_withSender_same (w := w) (by rw [hpc]; rfl)) rfl ?_
      simp [answer, withSender]
  | callClose g hpc =>
      exact move_stay rfl (hold_withCloser_same (w := w) (by rw [hpc]; rfl)) rfl rfl
  | closeFirst g hpc =>
      exact move_stay rfl (hold_withCloser_same (w := w) (by rw [hpc]; rfl)) rfl rfl
  | closeAgain g hpc =>
      exact move_stay rfl (hold_withCloser_same (by rw [hpc]; rfl)) rfl rfl
  | broadcast g hpc =>
      refine move_stay rfl ?_ rfl rfl
      rw [hold_withSender_same (by rw [SenderPc.held_wake]; rfl),
        hold_withCloser_same (by rw [hpc]; rfl)]
  | drain g i rest hpc hwork =>
      exact move_take (hcloser hpc) hwork rfl (hold_withCloser w g (.failing i)) rfl rfl
  | drained g hpc =>
      exact move_stay rfl (hold_withCloser_same (w := w) (by rw [hpc]; rfl)) rfl rfl
  | closerFail g i hpc =>
      exact move_settle (hcloser hpc) rfl (hold_withCloser w g .draining) rfl rfl
  | pion => exact move_stay rfl rfl rfl rfl
  | callback m =>
      refine move_stay rfl (hold_withSender_same (w := w) (SenderPc.held_wake _)) rfl ?_
      simp [answer, withSender]
  | report how reading closeEmitted es hes =>
      refine move_stay rfl rfl rfl ?_
      show (w.emitted ++ es).filterMap (·.request) = _
      rw [List.filterMap_append, List.filterMap_eq_nil_iff.mpr hes, List.append_nil]

end ChannelState

/-! ### What an answer says -/

/-- A work item goes back to the session of its request, under its id. -/
theorem Request.work_spec {r : Request} {work : DCSendWork} (h : r.work = some work) :
    work.session = r.session ∧ work.msgID = r.msg.id := by
  unfold Request.work at h
  split at h <;> cases h <;> exact ⟨rfl, rfl⟩

theorem Item.session_eq (i : Item) : i.work.session = i.request.session :=
  (Request.work_spec i.made).1

theorem Item.msgID_eq (i : Item) : i.work.msgID = i.request.msg.id :=
  (Request.work_spec i.made).2

/-- `e` answers `r`: it goes to the session that issued `r` and carries its id. It goes
through `sendEvent` exactly when the state was found and the payload is text or binary, and
what goes another way is an error: for a payload of another type the one that says so. -/
structure Emission.Answers (e : Emission) (r : Request) : Prop where
  session : e.session = r.session
  id : e.msg.id = r.msg.id
  type : (e.msg.type = "dc:send:ack" ∧ e.route = .sendEvent) ∨ e.msg.type = "error"
  route : e.route = .sendEvent ↔ r.found = true ∧ r.work.isSome = true
  refused : r.found = true → r.work = none → e.msg = errorResponse r.msg.id "INVALID_REQUEST"
    "data must be string or binary" false r.msg.handle

theorem Item.answers (i : Item) {e : Emission} (hsession : e.session = i.request.session)
    (hid : e.msg.id = i.request.msg.id)
    (htype : e.msg.type = "dc:send:ack" ∨ e.msg.type = "error") (hroute : e.route = .sendEvent) :
    e.Answers i.request :=
  ⟨hsession, hid, htype.imp (fun h => ⟨h, hroute⟩) id, by simp [hroute, i.found, i.made],
    fun _ hnone => by cases i.made.symm.trans hnone⟩

/-- The reader of the session `s` works on its own requests. -/
def ReaderPc.Proper (s : Session) : ReaderPc → Prop
  | .enqueue i | .failingOwn i => i.request.session = s
  | .returning r m => ∀ r', r = some r' → Emission.Answers ⟨r, s, .returned, m⟩ r'
  | _ => True

theorem ReaderPc.proper_of_tunes {pc : ReaderPc} (h : pc.tunes = true) {s : Session} :
    pc.Proper s := by
  cases pc with
  | returning r m =>
      cases r with
      | none => exact fun r' hr' => by cases hr'
      | some r => cases h
  | enqueue i => cases h
  | failingOwn i => cases h
  | _ => trivial

theorem proper_handleDCSend (r : Request) : (handleDCSend r).Proper r.session := by
  unfold handleDCSend
  split
  · split
    · rfl
    · rename_i hnone
      rintro r' ⟨⟩
      exact ⟨rfl, rfl, Or.inr rfl, by simp [hnone], fun _ _ => rfl⟩
  · rename_i hmiss
    rintro r' ⟨⟩
    exact ⟨rfl, rfl, Or.inr rfl, by simp [hmiss], fun hfound => absurd hfound hmiss⟩

namespace ChannelState

/-- The record of the run is right: the requests are numbered, every reader works on its own
requests, and every message for a request answers it. -/
structure LogInv (w : ChannelState) : Prop where
  numbered : w.Numbered
  readers : ∀ s, (w.readers s).Proper s
  emitted : ∀ e ∈ w.emitted, ∀ r, e.request = some r → e.Answers r

theorem LogInv.quiet {w w' : ChannelState} (hw : w.LogInv) (h1 : w'.requests = w.requests)
    (h2 : ∀ s, (w'.readers s).Proper s) (h3 : w'.emitted = w.emitted) : w'.LogInv where
  numbered := by
    unfold Numbered
    rw [h1]
    exact hw.numbered
  readers := h2
  emitted := by
    rw [h3]
    exact hw.emitted

theorem LogInv.emit {w w' : ChannelState} {e : Emission} (hw : w.LogInv)
    (h1 : w'.requests = w.requests) (h2 : ∀ s, (w'.readers s).Proper s)
    (h3 : w'.emitted = w.emitted ++ [e]) (he : ∀ r, e.request = some r → e.Answers r) :
    w'.LogInv where
  numbered := by
    unfold Numbered
    rw [h1]
    exact hw.numbered
  readers := h2
  emitted := by
    intro e' he'
    rw [h3] at he'
    rcases List.mem_append.mp he' with he' | he'
    · exact hw.emitted e' he'
    · rw [List.mem_singleton] at he'
      rw [he']
      exact he

theorem proper_withReader {w : ChannelState} (hw : ∀ s, (w.readers s).Proper s) {s : Session}
    {pc : ReaderPc} (hpc : pc.Proper s) : ∀ s', ((w.withReader s pc).readers s').Proper s' := by
  intro s'
  by_cases hs : s' = s
  · subst hs
    simpa [withReader] using hpc
  · simpa [withReader, hs] using hw s'

/-- The step lemma for the record. -/
theorem LogInv.step {c : Channel} {w w' : ChannelState} {a : SendAction} (hw : w.LogInv)
    (h : w.step c a = some w') : w'.LogInv := by
  have hproper : ∀ {s pc}, w.readers s = pc → pc.Proper s := by
    rintro s pc rfl
    exact hw.readers s
  have hgo : ∀ s (pc : ReaderPc), pc.Proper s →
      ∀ s', ((w.withReader s pc).readers s').Proper s' :=
    fun s pc hpc => proper_withReader hw.readers hpc
  cases moved h with
  | dcSend s msg =>
      refine ⟨?_, hgo s _ (proper_handleDCSend _), hw.emitted⟩
      unfold Numbered
      have hnum : w.requests.map (·.index) = List.range w.requests.length := hw.numbered
      simp [hnum, List.range_succ]
  | enqueue s i => exact hw.quiet rfl (hgo s .recheck trivial) rfl
  | enqueueClosed s i hpc =>
      have hmine : i.request.session = s := hproper hpc
      exact hw.quiet rfl (hgo s (.failingOwn i) hmine) rfl
  | recheck s =>
      refine hw.quiet rfl (hgo s _ ?_) rfl
      split <;> trivial
  | reclaim s i => exact hw.quiet rfl (hgo s (.failing i) trivial) rfl
  | reclaimNone s => exact hw.quiet rfl (hgo s .idle trivial) rfl
  | fail s i =>
      refine hw.emit rfl (hgo s .idle trivial) rfl ?_
      rintro r ⟨⟩
      exact i.answers i.session_eq i.msgID_eq (Or.inr rfl) rfl
  | failOwn s i m hpc hid htype =>
      refine hw.emit rfl (hgo s .idle trivial) rfl ?_
      rintro r ⟨⟩
      exact i.answers (hproper hpc).symm hid (Or.inr htype) rfl
  | ret s r m hpc => exact hw.emit rfl (hgo s .idle trivial) rfl (hproper hpc)
  | tune _ s pc low _ hpc =>
      exact hw.quiet rfl (hgo s pc (ReaderPc.proper_of_tunes hpc)) rfl
  | setState s id t pc _ hpc =>
      exact hw.quiet rfl (hgo s pc (ReaderPc.proper_of_tunes hpc)) rfl
  | senderAnswer _ i pc m _ _ hid htype =>
      refine hw.emit rfl hw.readers rfl ?_
      rintro r ⟨⟩
      exact i.answers i.session_eq (hid.trans i.msgID_eq) htype rfl
  | closerFail g i =>
      refine hw.emit rfl hw.readers rfl ?_
      rintro r ⟨⟩
      exact i.answers i.session_eq i.msgID_eq (Or.inr rfl) rfl
  | errorEvent i err m =>
      refine hw.emit rfl hw.readers rfl ?_
      rintro r ⟨⟩
  | callback m =>
      refine hw.emit rfl hw.readers rfl ?_
      rintro r ⟨⟩
  | report how reading closeEmitted es hes =>
      refine ⟨hw.numbered, hw.readers, ?_⟩
      intro e he r hr
      rcases List.mem_append.mp he with hold | hnew
      · exact hw.emitted e hold r hr
      · rw [hes e hnew] at hr
        cases hr
  | _ => exact hw.quiet rfl hw.readers rfl

/-- In every run the record is right, and every request is in exactly one place. -/
theorem answers_of_reachable {c : Channel} {w : ChannelState}
    (hw : (sendSystem c).Reachable w) : w.LogInv ∧ w.custody.Exclusive := by
  refine hw.invariant (I := fun w => w.LogInv ∧ w.custody.Exclusive) ⟨?_, ?_⟩ ?_
  · exact ⟨rfl, fun _ => trivial, by simp [sendSystem, Channel.start]⟩
  · have hempty : (sendSystem c).init.custody = ⟨[], fun _ => none, [], []⟩ := by
      refine custody_eq rfl ?_ rfl rfl
      funext h
      cases h <;> rfl
    rw [hempty]
    exact Custody.exclusive_empty
  · rintro w a w' - ⟨hlog, hex⟩ hstep
    exact ⟨hlog.step hstep, (custody_step hlog.numbered hstep).exclusive hex⟩

/-- The messages that answer the request `r`. -/
def answers (w : ChannelState) (r : Request) : List Emission :=
  w.emitted.filter fun e => e.request.any fun r' => r'.index == r.index

/-- The number of answers to `r`, counted in the settled requests. -/
theorem length_answers (r : Request) (es : List Emission) :
    (es.filter fun e => e.request.any fun r' => r'.index == r.index).length
      = ((es.filterMap (·.request)).map (·.index)).count r.index := by
  induction es with
  | nil => rfl
  | cons e es ih =>
      rw [List.filter_cons]
      cases hr : e.request with
      | none => simpa [hr] using ih
      | some r' =>
          by_cases hidx : r'.index = r.index
          · simp [hr, hidx, ih]
          · simp [hr, hidx, ih]

theorem Numbered.index_inj {w : ChannelState} (hw : w.Numbered) {r r' : Request}
    (hr : r ∈ w.requests) (hr' : r' ∈ w.requests) (h : r.index = r'.index) : r = r' := by
  have hnodup : (w.requests.map (·.index)).Nodup := by
    rw [hw]
    exact List.nodup_range
  exact List.inj_on_of_nodup_map hnodup hr hr' h

/-- A request has at most one answer, and one when it is settled. -/
theorem answers_count {w : ChannelState} (hw : w.LogInv) (hex : w.custody.Exclusive)
    {r : Request} (hr : r ∈ w.requests) :
    (w.answers r).length ≤ 1 ∧ (r ∈ w.custody.settled → (w.answers r).length = 1) ∧
      ∀ e ∈ w.answers r, e.Answers r := by
  have hlen : (w.answers r).length = (w.custody.settled.map (·.index)).count r.index :=
    length_answers r w.emitted
  have hnodup : (w.custody.settled.map (·.index)).Nodup := by
    refine hex.settled_nodup.map_on ?_
    intro a ha b hb hab
    exact hw.numbered.index_inj (hex.settled_issued a ha) (hex.settled_issued b hb) hab
  refine ⟨?_, ?_, ?_⟩
  · rw [hlen]
    exact List.nodup_iff_count_le_one.mp hnodup r.index
  · intro hset
    rw [hlen]
    exact List.count_eq_one_of_mem hnodup (List.mem_map_of_mem hset)
  · intro e he
    obtain ⟨hmem, hany⟩ := List.mem_filter.mp he
    cases hr' : e.request with
    | none => simp [hr'] at hany
    | some r' =>
        have hissued : r' ∈ w.requests :=
          hex.settled_issued r' (List.mem_filterMap.mpr ⟨e, hmem, hr'⟩)
        have heq : r' = r := hw.numbered.index_inj hissued hr (by simpa [hr'] using hany)
        rw [← heq]
        exact hw.emitted e hmem r' hr'

/-- When nobody holds a request and the channel is empty, every request has been answered. -/
theorem answered_of_idle {w : ChannelState} (hw : w.LogInv) (hex : w.custody.Exclusive)
    (hhold : ∀ h, w.hold h = none) (hwork : w.work = []) {r : Request} (hr : r ∈ w.requests) :
    (w.answers r).length = 1 := by
  have hqueue : w.custody.queue = [] := by
    show w.work.map (·.request) = []
    rw [hwork]
    rfl
  exact (answers_count hw hex hr).2.1 (hex.all_settled hhold hqueue hr)

end ChannelState

end PionBridge.Server
