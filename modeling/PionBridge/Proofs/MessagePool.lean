import PionBridge.Server.MessagePool

/-!
# `PionBridge.Proofs.MessagePool`: no request leaks through the pool

`putMessage` clears every field of a message, whatever the frame and the handler have left in it.
So the pool holds blank messages only (`clear_blank`, with `Lib/Pool.lean`), and no goroutine writes
into the message of another.

Decoding writes into a blank message what it writes into `Message{}`. The two differ at most in an
empty map in place of a nil one, and a write keeps what a reader finds apart from that
(`view_apply_congr`).
-/

set_option autoImplicit false

namespace PionBridge.Server

open PionBridge.Lib

/-! ### Clearing -/

/-- Deleting a list of keys leaves the entries with another key. -/
theorem Data.foldl_delete (entries data : Data) :
    entries.foldl (fun rest e => rest.delete e.1) data =
      data.filter fun e => e.1 ∉ entries.map Prod.fst := by
  induction entries generalizing data with
  | nil => simp
  | cons e entries ih =>
      rw [List.foldl_cons, ih, Data.delete, List.filter_filter]
      congr 1
      funext e'
      rw [List.map_cons]
      by_cases heq : e'.1 = e.1
      · simp [heq]
      · simp [heq]

theorem Data.clear_eq_nil (data : Data) : data.clear = [] := by
  show data.foldl (fun rest e => rest.delete e.1) data = []
  rw [Data.foldl_delete, List.filter_eq_nil_iff]
  intro e he
  simpa using ⟨e.2, he⟩

namespace PooledMessage

/-- A reader finds nothing in it. -/
def Blank (m : PooledMessage) : Prop := m.view = zero.view

theorem new_blank : new.Blank := rfl

/-- Every field is cleared. -/
theorem clear_blank (m : PooledMessage) : m.clear.Blank := by
  obtain ⟨type, id, handle, data⟩ := m
  show (⟨"", 0, "", (data.map Data.clear).getD []⟩ : Message) = ⟨"", 0, "", []⟩
  cases data with
  | none => rfl
  | some data => rw [Option.map_some, Option.getD_some, Data.clear_eq_nil]

end PooledMessage

open PooledMessage

/-! ### Decoding -/

/-- A write changes what a reader finds in a way that depends on what the reader found. -/
theorem view_apply_congr {m m' : PooledMessage} (h : m.view = m'.view) (e : DecodeWrite) :
    (e.apply m).view = (e.apply m').view := by
  obtain ⟨type, id, handle, data⟩ := m
  obtain ⟨type', id', handle', data'⟩ := m'
  simp only [view, Message.mk.injEq] at h
  obtain ⟨rfl, rfl, rfl, hdata⟩ := h
  cases e <;> simp [DecodeWrite.apply, view, hdata]

theorem outcome_congr {m m' : PooledMessage} (h : m.view = m'.view) (ending : DecodeEnd) :
    ending.outcome m = ending.outcome m' := by
  cases ending with
  | ok => exact congrArg FrameOutcome.passed h
  | error err => rfl
  | panics text => rfl

/-! ### Runs -/

namespace PoolWorld

variable {unmarshal : Frame → Decoding} {w w' : PoolWorld}

/-- The message of the goroutine reads as if the writes so far had gone into `Message{}`. -/
def DecodesFresh (unmarshal : Frame → Decoding) (pool : Pool PooledMessage) (g : Nat) :
    FrameCall → Prop
  | .decoding frame rest =>
    ∃ done m, (unmarshal frame).writes = done ++ rest ∧ pool.obj g = some m ∧
      m.view = (done.foldl DecodeWrite.apply zero).view
  | _ => True

structure PoolInv (unmarshal : Frame → Decoding) (w : PoolWorld) : Prop where
  sound : w.pool.Sound Blank
  calls : ∀ g, DecodesFresh unmarshal w.pool g (w.calls g)
  record : ∀ e ∈ w.record, e.2 = (unmarshal e.1).fresh

theorem DecodesFresh.of_obj {pool pool' : Pool PooledMessage} {g : Nat} {call : FrameCall}
    (h : DecodesFresh unmarshal pool g call) (hobj : pool'.obj g = pool.obj g) :
    DecodesFresh unmarshal pool' g call := by
  cases call with
  | decoding frame rest =>
      obtain ⟨done, m, hwrites, hm, hview⟩ := h
      exact ⟨done, m, hwrites, hobj.trans hm, hview⟩
  | _ => trivial

/-- A step of the goroutine `g` leaves the messages of the others as they are. -/
theorem PoolInv.move (hw : w.PoolInv unmarshal) {pool : Pool PooledMessage} {g : Nat}
    {call : FrameCall} (hsound : pool.Sound Blank) (hframe : Pool.Frame g w.pool pool)
    (hcall : DecodesFresh unmarshal pool g call) :
    PoolInv unmarshal ({ w with pool := pool }.withCall g call) where
  sound := hsound
  calls g' := by
    show DecodesFresh unmarshal pool g' (Function.update w.calls g call g')
    by_cases hne : g' = g
    · subst hne
      rw [Function.update_self]
      exact hcall
    · rw [Function.update_of_ne hne]
      exact (hw.calls g').of_obj (hframe g' hne)
  record := hw.record

/-- The step lemma. -/
theorem PoolInv.step (hw : w.PoolInv unmarshal) {a : PoolAction}
    (h : w.step unmarshal a = some w') : w'.PoolInv unmarshal := by
  cases a with
  | start g frame choice =>
      simp only [PoolWorld.step] at h
      split at h
      · -- The object that `Get` returns is blank, used before or not.
        obtain ⟨pool, hget, rfl⟩ := Option.map_eq_some_iff.mp h
        obtain ⟨hsound, ⟨m, hm, hblank⟩, hframe⟩ := hw.sound.get new_blank hget
        exact hw.move hsound hframe ⟨[], m, rfl, hm, hblank⟩
      · cases h
  | write g =>
      simp only [PoolWorld.step] at h
      split at h
      · rename_i frame e rest hcall
        cases h
        have hfresh := hw.calls g
        rw [hcall] at hfresh
        obtain ⟨done, m, hwrites, hm, hview⟩ := hfresh
        obtain ⟨hsound, hobj, hframe⟩ := hw.sound.modify g (e.apply ·)
        refine hw.move hsound hframe ⟨done ++ [e], e.apply m, ?_, ?_, ?_⟩
        · rw [hwrites, List.append_assoc, List.singleton_append]
        · rw [hobj, hm, Option.map_some]
        · rw [List.foldl_append]
          exact view_apply_congr hview e
      · cases h
  | decoded g =>
      simp only [PoolWorld.step] at h
      split at h
      · rename_i frame hcall
        obtain ⟨m, hm, rfl⟩ := Option.map_eq_some_iff.mp h
        have hfresh := hw.calls g
        rw [hcall] at hfresh
        obtain ⟨done, m', hwrites, hm', hview⟩ := hfresh
        -- All writes are done, and the object is still the one that this goroutine holds.
        cases hm.symm.trans hm'
        rw [List.append_nil] at hwrites
        have hmove : ∀ call, DecodesFresh unmarshal w.pool g call →
            (w.withCall g call).PoolInv unmarshal := fun call =>
          hw.move hw.sound fun _ _ => rfl
        refine ⟨hw.sound, ?_, ?_⟩
        · refine (hmove _ ?_).calls
          split <;> trivial
        · intro e he
          obtain he | he := List.mem_append.mp he
          · exact hw.record e he
          · cases List.mem_singleton.mp he
            show (unmarshal frame).ending.outcome m = _
            rw [Decoding.fresh, hwrites]
            exact outcome_congr hview _
      · cases h
  | handled g f =>
      simp only [PoolWorld.step] at h
      split at h
      · cases h
        obtain ⟨hsound, -, hframe⟩ := hw.sound.modify g f
        exact hw.move hsound hframe trivial
      · cases h
  | put g =>
      simp only [PoolWorld.step] at h
      split at h
      · cases h
        obtain ⟨hsound, -, hframe⟩ := hw.sound.put clear_blank g
        exact hw.move hsound hframe trivial
      · cases h
  | drop r =>
      cases h
      exact ⟨hw.sound.drop r, fun g => (hw.calls g).of_obj rfl, hw.record⟩

/-- The run lemma. -/
theorem poolInv_of_reachable (hw : (poolSystem unmarshal).Reachable w) : w.PoolInv unmarshal := by
  refine hw.invariant ?_ fun _ _ _ _ hinv hstep => hinv.step hstep
  exact ⟨⟨List.nodup_nil, nofun, nofun, nofun, nofun, nofun⟩, fun _ => trivial, nofun⟩

/-- A goroutine in `msgpack.Unmarshal` makes the writes that are left, and records the outcome of
its frame. -/
theorem PoolInv.exists_record (hw : w.PoolInv unmarshal) {g : Nat} {frame : Frame}
    {rest : List DecodeWrite} (hcall : w.calls g = .decoding frame rest) :
    ∃ t, (poolSystem unmarshal).StepsUnder (fun _ _ => True) w t ∧
      (frame, (unmarshal frame).fresh) ∈ t.record := by
  induction rest generalizing w with
  | nil =>
      have hfresh := hw.calls g
      rw [hcall] at hfresh
      obtain ⟨-, m, -, hm, -⟩ := hfresh
      have hstep : (poolSystem unmarshal).step w (.decoded g) =
          some (w.decoded unmarshal g frame m) := by
        simp only [poolSystem, PoolWorld.step, hcall, hm, Option.map_some]
      have hlast : (frame, (unmarshal frame).ending.outcome m) ∈
          (w.decoded unmarshal g frame m).record := by
        simp [decoded]
      have hsame := (hw.step (a := .decoded g) hstep).record _ hlast
      exact ⟨_, .step .refl trivial hstep, hsame ▸ hlast⟩
  | cons e rest ih =>
      let next := { w with pool := w.pool.modify g (e.apply ·) }.withCall g (.decoding frame rest)
      have hstep : (poolSystem unmarshal).step w (.write g) = some next := by
        simp only [poolSystem, PoolWorld.step, hcall, next]
      have hnext : next.calls g = .decoding frame rest := Function.update_self ..
      obtain ⟨t, ht, hmem⟩ := ih (hw.step (a := .write g) hstep) hnext
      exact ⟨t, StepSystem.StepsUnder.trans (.step .refl trivial hstep) ht, hmem⟩

end PoolWorld

open PoolWorld

/-- Whatever frames were processed before, by any goroutines and with any end: what `processFrame`
passes to `HandleMessage` for a frame, or the error that it reports, is what decoding the frame into
`Message{}` gives. And every frame that is taken up, with whatever message of the pool, can get so
far. -/
theorem pool_leaks_nothing (unmarshal : Frame → Decoding) (w : PoolWorld)
    (hw : (poolSystem unmarshal).Reachable w) :
    (∀ frame o, (frame, o) ∈ w.record → o = (unmarshal frame).fresh) ∧
    ∀ g frame choice w', w.step unmarshal (.start g frame choice) = some w' →
      ∃ t, (poolSystem unmarshal).StepsUnder (fun _ _ => True) w' t ∧
        (frame, (unmarshal frame).fresh) ∈ t.record := by
  have hinv := poolInv_of_reachable hw
  constructor
  · intro frame o hmem
    exact hinv.record (frame, o) hmem
  · intro g frame choice w' hstep
    have hinv' : w'.PoolInv unmarshal := hinv.step hstep
    simp only [PoolWorld.step] at hstep
    split at hstep
    · obtain ⟨pool, -, rfl⟩ := Option.map_eq_some_iff.mp hstep
      exact hinv'.exists_record (Function.update_self ..)
    · cases hstep

/-- The frame `[1]` has a payload and breaks off, and the frame `[2]` has a type and an empty
map. -/
def brokenThenBare : Frame → Decoding
  | [1] => ⟨[.type "dc:send", .id 7, .handle "dc", .dataMap, .dataEntry "data" (.str "secret")],
      .error "unexpected EOF"⟩
  | _ => ⟨[.type "init", .dataMap], .ok⟩

/-- The second frame is decoded into the message of the first. -/
theorem pool_leaks_nothing_reused : ∃ w o, (poolSystem brokenThenBare).Reachable w ∧
    w.pool.holder 1 = some 0 ∧ ([2], o) ∈ w.record ∧ o = .passed ⟨"init", 0, "", []⟩ := by
  let acts : List PoolAction := [.start 0 [1] none, .write 0, .write 0, .write 0, .write 0,
    .write 0, .decoded 0, .put 0, .start 1 [2] (some 0), .write 1, .write 1, .decoded 1]
  let final := (poolSystem brokenThenBare).run (poolSystem brokenThenBare).init acts
  have hrun : final.isSome := by rfl
  obtain ⟨w, hw⟩ := Option.isSome_iff_exists.mp hrun
  have hfacts : final.map (fun w => (w.pool.holder 1, w.record.map Prod.fst)) =
      some (some 0, [[1], [2]]) := by rfl
  simp only [hw, Option.map_some, Option.some.injEq, Prod.mk.injEq] at hfacts
  obtain ⟨hholder, hframes⟩ := hfacts
  have hmem : [2] ∈ w.record.map Prod.fst := by simp [hframes]
  obtain ⟨⟨frame, o⟩, ho, rfl⟩ := List.mem_map.mp hmem
  have hreach := StepSystem.reachable_of_run hw
  exact ⟨w, o, hreach, hholder, ho, (pool_leaks_nothing brokenThenBare w hreach).1 [2] o ho⟩

end PionBridge.Server
