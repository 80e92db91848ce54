import PionBridge.Proofs.Registry.Activity

/-!
# `PionBridge.Proofs.Registry.Race`: activity during a sweep

`Cleanup` decides in two passes and removes in a third. The write-locked pass cascades what the
liveness pass has condemned, without a second look at the stamps or the connection. A `Touch` or
a connect that slips in between does not save the handle (`sweep_reaps_active`).

`SweepWorld` adds to the interleavings a record of what was touched since each scan. In the runs
in which no activity reaches a condemned handle (`Calm`), the reap spares what was touched and
what lies under a connected PeerConnection. The chain of a handle does not change as long as it
stays registered, so what was true of it when it was condemned is still true at the reap.
-/

set_option autoImplicit false

namespace PionBridge.Server

open PionBridge.Lib
open PionBridge.Lib.Forest
open Registry

/-! ### Chains across a step -/

/-- The chain of a handle that stays registered keeps its links and its resources. -/
theorem CallInv.chain_step {w w' : CallWorld} (hw : CallInv w) {a : CallAction}
    (h : w.step a = some w') {x : Handle} (hx : w.reg.resources.Has x)
    (hx' : w'.reg.resources.Has x) {b : Handle} (hb : Anc w.reg.parent.get b x) :
    w'.reg.parent.get b = w.reg.parent.get b ∧
      w'.reg.resources.get b = w.reg.resources.get b := by
  have hi : w.reg.Inv := hw.world.reg
  cases CallWorld.moved hi h with
  | op op r' _ hatomic hadm hrun =>
      refine apply_frame hi hatomic hrun fun hnew => ?_
      exact hadm.fresh hnew (hw.world.used_of_anc hx hb)
  | collect g hs L r' spared _ he hL =>
      have hbL : b ∉ L := by
        intro hbL
        have hxL : x ∈ L := hL.downClosed_nil.of_anc hbL hb
        refine hx' ?_
        show r'.resources.get x = none
        rw [he.resources, if_pos hxL]
      constructor
      · show r'.parent.get b = _
        rw [he.parent, if_neg hbL]
      · show r'.resources.get b = _
        rw [he.resources, if_neg hbL]
  | close => exact ⟨rfl, rfl⟩
  | quiet _ hreg => exact ⟨by rw [hreg.parent], by rw [hreg.resources]⟩

/-- A handle that was used before is not registered anew. -/
theorem CallInv.has_of_used {w w' : CallWorld} (hw : CallInv w) {a : CallAction}
    (h : w.step a = some w') {x : Handle} (hx : x ∈ w.world.used)
    (hx' : w'.reg.resources.Has x) : w.reg.resources.Has x := by
  obtain ⟨op, hev, hnew, -⟩ := hw.evolved h
  rcases hev.handles x hx' with hold | hfresh
  · exact hold
  · exact absurd hx (hnew x hfresh)

/-! ### The record -/

/-- The handle that a step passes to `Touch`, in a call of its own or in the last pass of a
sweep. -/
def CallAction.touches (w : CallWorld) : CallAction → Option Handle
  | .op (.touch h _) => some h
  | .refresh g _ =>
    match w.calls g with
    | .closing [] (h :: _) => some h
    | _ => none
  | _ => none

/-- The interleavings with the handles that were touched since the scan of each goroutine. -/
structure SweepWorld where
  call : CallWorld
  touched : Goroutine → List Handle

namespace SweepWorld

/-- The record after a step. A scan starts the list of its goroutine, and the `Touch` of a
registered handle joins every list. -/
def record (s : SweepWorld) (a : CallAction) (g : Goroutine) : List Handle :=
  match a with
  | .scan g' _ _ _ => if g' = g then [] else s.touched g
  | a => ((a.touches s.call).filter fun h => s.call.reg.resources.Has h).toList ++ s.touched g

def step (s : SweepWorld) (a : CallAction) : Option SweepWorld :=
  (s.call.step a).map fun w => ⟨w, s.record a⟩

end SweepWorld

def sweepSystem : StepSystem SweepWorld CallAction where
  init := ⟨callSystem.init, fun _ => []⟩
  step := SweepWorld.step

/-- The end of the parent chain of `x` is a connected PeerConnection. -/
def CallWorld.RootConnected (w : CallWorld) (x : Handle) : Prop :=
  ∃ root, Root w.reg.parent.get root x ∧
    isLivePeerConnection w.connected (w.reg.resources.get root) = true

namespace SweepWorld

/-- A reap does not remove a handle that was touched since the scan. -/
def SparesTouched (s : SweepWorld) : Prop :=
  ∀ g s', s.step (.reap g) = some s' → ∀ x ∈ s.touched g,
    s.call.reg.resources.Has x → s'.call.reg.resources.Has x

/-- A reap does not remove a handle whose root is connected when it starts. -/
def SparesConnected (s : SweepWorld) : Prop :=
  ∀ g s', s.step (.reap g) = some s' → ∀ x, s.call.RootConnected x →
    s.call.reg.resources.Has x → s'.call.reg.resources.Has x

/-- The condition on a step: no `Touch` at or below a condemned handle, no handle condemned
above one that was touched since the scan, and no connect of a PeerConnection above a condemned
handle. -/
def Calm (s : SweepWorld) : CallAction → Prop
  | .connection obj up => up = true → ∀ g, ∀ b ∈ (s.call.calls g).reaps, ∀ root,
      Root s.call.reg.parent.get root b →
        s.call.reg.resources.get root ≠ some ⟨.peerConnection, obj⟩
  | .judge g => ∀ e todo reap spared, s.call.calls g = .judging (e :: todo) reap spared →
      isLivePeerConnection s.call.connected e.2 = false → ∀ x ∈ s.touched g,
        s.call.reg.resources.Has x → ¬ Anc s.call.reg.parent.get e.1 x
  | a => ∀ h ∈ a.touches s.call, s.call.reg.resources.Has h → ∀ g,
      ∀ b ∈ (s.call.calls g).reaps, ¬ Anc s.call.reg.parent.get b h

/-- What holds in the calm runs. The resource that the scan noted for a handle is still the one
at its root, and nothing below a condemned handle is active. -/
structure RaceInv (s : SweepWorld) : Prop where
  call : CallInv s.call
  touched_used : ∀ g, ∀ x ∈ s.touched g, x ∈ s.call.world.used
  todo_used : ∀ g, ∀ e ∈ (s.call.calls g).todo, e.1 ∈ s.call.world.used
  todo_root : ∀ g, ∀ e ∈ (s.call.calls g).todo, s.call.reg.resources.Has e.1 →
    ∃ root, Root s.call.reg.parent.get root e.1 ∧ s.call.reg.resources.get root = e.2
  reaps_used : ∀ g, ∀ b ∈ (s.call.calls g).reaps, b ∈ s.call.world.used
  untouched : ∀ g, ∀ b ∈ (s.call.calls g).reaps, ∀ x ∈ s.touched g,
    s.call.reg.resources.Has x → ¬ Anc s.call.reg.parent.get b x
  disconnected : ∀ g, ∀ b ∈ (s.call.calls g).reaps, s.call.reg.resources.Has b →
    ¬ s.call.RootConnected b

/-! ### The steps -/

/-- A handle on a list after the step was on it before, or the step is its `Touch`. -/
theorem mem_record {s : SweepWorld} {a : CallAction} {g : Goroutine} {x : Handle}
    (hx : x ∈ s.record a g) : x ∈ s.touched g ∨
      (x ∈ a.touches s.call ∧ s.call.reg.resources.Has x) := by
  unfold record at hx
  split at hx
  · split at hx
    · cases hx
    · exact Or.inl hx
  · rcases List.mem_append.mp hx with hnew | hold
    · rw [Option.mem_toList, Option.filter_eq_some_iff] at hnew
      exact Or.inr ⟨hnew.1, by simpa using hnew.2⟩
    · exact Or.inl hold

/-- The chain of a handle that stays registered is the same after the step. -/
theorem RaceInv.anc_iff {s : SweepWorld} (hs : s.RaceInv) {a : CallAction} {w' : CallWorld}
    (h : s.call.step a = some w') {x : Handle} (hx : s.call.reg.resources.Has x)
    (hx' : w'.reg.resources.Has x) {b : Handle} :
    Anc w'.reg.parent.get b x ↔ Anc s.call.reg.parent.get b x :=
  Anc.congr fun _ hy => (hs.call.chain_step h hx hx' hy).1

theorem RaceInv.root_iff {s : SweepWorld} (hs : s.RaceInv) {a : CallAction} {w' : CallWorld}
    (h : s.call.step a = some w') {x : Handle} (hx : s.call.reg.resources.Has x)
    (hx' : w'.reg.resources.Has x) {root : Handle} :
    Root w'.reg.parent.get root x ↔ Root s.call.reg.parent.get root x :=
  Root.congr fun _ hy => (hs.call.chain_step h hx hx' hy).1

theorem Calm.touch {s : SweepWorld} {a : CallAction} (hC : s.Calm a) {h : Handle}
    (hh : h ∈ a.touches s.call) (hreg : s.call.reg.resources.Has h) {g : Goroutine} {b : Handle}
    (hb : b ∈ (s.call.calls g).reaps) : ¬ Anc s.call.reg.parent.get b h := by
  cases a with
  | connection => cases hh
  | judge => cases hh
  | _ => exact hC h hh hreg g b hb

/-- Only the connect of the PeerConnection itself makes it live. -/
theorem live_update {connected : Nat → Bool} {obj : Nat} {up : Bool} {res : Option Resource}
    (h : isLivePeerConnection (Function.update connected obj up) res = true) :
    isLivePeerConnection connected res = true ∨
      (up = true ∧ res = some ⟨.peerConnection, obj⟩) := by
  unfold isLivePeerConnection at h ⊢
  split at h
  · rename_i o
    by_cases ho : o = obj
    · subst ho
      rw [Function.update_self] at h
      exact Or.inr ⟨h, rfl⟩
    · rw [Function.update_of_ne ho] at h
      exact Or.inl h
  · cases h

/-- The step lemma. -/
theorem RaceInv.step {s s' : SweepWorld} {a : CallAction} (hs : s.RaceInv) (hC : s.Calm a)
    (h : s.step a = some s') : s'.RaceInv := by
  obtain ⟨w', hw', rfl⟩ := Option.map_eq_some_iff.mp h
  have hworld := hs.call.world
  have hused : ∀ x ∈ s.call.world.used, x ∈ w'.world.used := by
    obtain ⟨_, _, _, hsub⟩ := hs.call.evolved hw'
    exact hsub
  have hrec : ∀ g, ∀ x ∈ s.record a g, x ∈ s.call.world.used := by
    intro g x hx
    rcases mem_record hx with hold | ⟨-, hreg⟩
    · exact hs.touched_used g x hold
    · exact hworld.handles x hreg
  have htodo : ∀ g, ∀ e ∈ (w'.calls g).todo, e.1 ∈ s.call.world.used ∧
      (s.call.reg.resources.Has e.1 →
        ∃ root, Root s.call.reg.parent.get root e.1 ∧ s.call.reg.resources.get root = e.2) := by
    intro g e he
    rcases CallWorld.todo_of_step hw' he with hold | ⟨maxAge, now, order, expired, -, hscan, he⟩
    · exact ⟨hs.todo_used g e hold, hs.todo_root g e hold⟩
    · obtain ⟨hreg, root, hroot, hres⟩ := scan_entry hworld.reg hscan he
      exact ⟨hworld.handles _ hreg, fun _ => ⟨root, hroot, hres.symm⟩⟩
  have hreaps : ∀ g, ∀ b ∈ (w'.calls g).reaps, b ∈ s.call.world.used := by
    intro g b hb
    rcases CallWorld.reaps_of_step hw' hb with hold | ⟨e, todo, reap, spared, -, rfl, hg, -⟩
    · exact hs.reaps_used g b hold
    · exact hs.todo_used g e (by rw [hg]; exact List.mem_cons_self)
  refine ⟨hs.call.step hw', fun g x hx => hused x (hrec g x hx),
    fun g e he => hused _ (htodo g e he).1, ?_, fun g b hb => hused b (hreaps g b hb), ?_, ?_⟩
  · intro g e he hreg'
    obtain ⟨hold, hroot⟩ := htodo g e he
    have hreg := hs.call.has_of_used hw' hold hreg'
    obtain ⟨root, hroot, hres⟩ := hroot hreg
    refine ⟨root, (hs.root_iff hw' hreg hreg').mpr hroot, ?_⟩
    exact (hs.call.chain_step hw' hreg hreg' hroot.1).2.trans hres
  · intro g b hb x (hx : x ∈ s.record a g) hreg'
    have hreg := hs.call.has_of_used hw' (hrec g x hx) hreg'
    rw [show Anc w'.reg.parent.get b x ↔ _ from hs.anc_iff hw' hreg hreg']
    rcases CallWorld.reaps_of_step hw' hb with hold | ⟨e, todo, reap, spared, rfl, rfl, hg, hdead⟩
    · rcases mem_record hx with hxold | ⟨htouch, -⟩
      · exact hs.untouched g b hold x hxold hreg
      · exact hC.touch htouch hreg hold
    · -- A judge step touches nothing.
      rcases mem_record hx with hxold | ⟨htouch, -⟩
      · exact hC e todo reap spared hg hdead x hxold hreg
      · cases htouch
  · intro g b hb hreg'
    have hreg := hs.call.has_of_used hw' (hreaps g b hb) hreg'
    rintro ⟨root, hroot', hlive⟩
    have hroot := (hs.root_iff hw' hreg hreg').mp hroot'
    rw [show w'.reg.resources.get root = _ from
      (hs.call.chain_step hw' hreg hreg' hroot.1).2] at hlive
    rcases CallWorld.reaps_of_step hw' hb with hold | ⟨e, todo, reap, spared, rfl, rfl, hg, hdead⟩
    · have hdown := hs.disconnected g b hold hreg
      rcases (CallWorld.placed hw').1 with hconn | ⟨obj, up, rfl, hconn⟩
      · exact hdown ⟨root, hroot, by rwa [show w'.connected = _ from hconn] at hlive⟩
      · rw [show w'.connected = _ from hconn] at hlive
        rcases live_update hlive with hlive | ⟨hup, hres⟩
        · exact hdown ⟨root, hroot, hlive⟩
        · exact hC hup g b hold root hroot hres
    · -- The scan noted the resource that is still at the root, and it was not live.
      obtain ⟨root₀, hroot₀, hres⟩ := hs.todo_root g e (by rw [hg]; exact List.mem_cons_self) hreg
      have hconn : w'.connected = s.call.connected := by
        rcases (CallWorld.placed hw').1 with hconn | ⟨_, _, heq, -⟩
        · exact hconn
        · cases heq
      rw [show (SweepWorld.call ⟨w', _⟩).connected = _ from hconn, hroot.unique hroot₀, hres,
        hdead] at hlive
      cases hlive

/-- The run lemma. -/
theorem raceInv_of_reachable {s : SweepWorld} (hs : sweepSystem.ReachableUnder Calm s) :
    s.RaceInv := by
  refine StepSystem.StepsUnder.invariant hs ?_ fun _ _ _ _ hinv hC hstep => hinv.step hC hstep
  refine ⟨callInv_init, ?_, ?_, ?_, ?_, ?_, ?_⟩ <;>
    simp [sweepSystem, callSystem, CallPc.todo, CallPc.reaps]

/-- What a reap removes lies below a condemned handle. -/
theorem exists_reaps_of_reap {s s' : SweepWorld} (hi : s.call.reg.Inv) {g : Goroutine}
    (h : s.step (.reap g) = some s') {x : Handle} (hx : s.call.reg.resources.Has x)
    (hgone : ¬ s'.call.reg.resources.Has x) :
    ∃ b ∈ (s.call.calls g).reaps, s.call.reg.resources.Has b ∧
      Anc s.call.reg.parent.get b x := by
  obtain ⟨w', hw', rfl⟩ := Option.map_eq_some_iff.mp h
  simp only [CallWorld.step] at hw'
  split at hw'
  · rename_i reap spared hg
    obtain ⟨L, r', hrun, he, hL⟩ := reapLocked_spec hi reap
    rw [hrun] at hw'
    cases hw'
    have hxL : x ∈ L := by
      by_contra hxL
      refine hgone ?_
      show r'.resources.get x ≠ none
      rw [he.resources, if_neg hxL]
      exact hx
    obtain ⟨⟨b, hb, hreg, hanc⟩, -⟩ := (hL.mem x).mp hxL
    exact ⟨b, by rw [hg]; exact hb, hreg, hanc⟩
  · cases hw'

end SweepWorld

/-! ### The reap -/

open SweepWorld

/-- In every calm run, a reap spares what was touched since its scan and what lies under a
connected PeerConnection. -/
theorem calm_sweep_spares_active (s : SweepWorld) (hs : sweepSystem.ReachableUnder Calm s) :
    s.SparesTouched ∧ s.SparesConnected := by
  have hinv := raceInv_of_reachable hs
  refine ⟨?_, ?_⟩
  · intro g s' hstep x hx hreg
    by_contra hgone
    obtain ⟨b, hb, -, hanc⟩ := exists_reaps_of_reap hinv.call.world.reg hstep hreg hgone
    exact hinv.untouched g b hb x hx hreg hanc
  · rintro g s' hstep x ⟨root, hroot, hlive⟩ hreg
    by_contra hgone
    obtain ⟨b, hb, hbreg, hanc⟩ := exists_reaps_of_reap hinv.call.world.reg hstep hreg hgone
    exact hinv.disconnected g b hb hbreg ⟨root, hroot.of_anc hanc, hlive⟩

/-- A fresh PeerConnection is touched while a sweep is about to reap an old one. -/
theorem calm_sweep_spares_active_fresh :
    ∃ s s', sweepSystem.ReachableUnder Calm s ∧ s.step (.reap 0) = some s' ∧
      "new" ∈ s.touched 0 ∧ s'.call.reg.resources.Has "new" ∧
      s.call.reg.resources.Has "old" ∧ ¬ s'.call.reg.resources.Has "old" := by
  let before : List CallAction := [.op (.register ⟨.peerConnection, 1⟩ "old" 0),
    .op (.register ⟨.peerConnection, 2⟩ "new" (10 * second)),
    .scan 0 (2 * second) (11 * second) ["old", "new"]]
  let touch : CallAction := .op (.touch "new" fun _ => 11 * second)
  let scanned := sweepSystem.run sweepSystem.init before
  let touched := scanned.bind fun s => s.step touch
  let judged := touched.bind fun s => s.step (.judge 0)
  let reaped := judged.bind fun s => s.step (.reap 0)
  have hscanned : scanned.isSome := by decide
  have htouched : touched.isSome := by decide
  have hjudged : judged.isSome := by decide
  have hreaped : reaped.isSome := by decide
  obtain ⟨s₁, h₁⟩ := Option.isSome_iff_exists.mp hscanned
  obtain ⟨s₂, h₂⟩ := Option.isSome_iff_exists.mp htouched
  obtain ⟨s₃, h₃⟩ := Option.isSome_iff_exists.mp hjudged
  obtain ⟨s₄, h₄⟩ := Option.isSome_iff_exists.mp hreaped
  have hstep₂ : s₁.step touch = some s₂ :=
    StepSystem.eq_some_of_bind (f := fun s => s.step touch) h₁ h₂
  have hstep₃ : s₂.step (.judge 0) = some s₃ :=
    StepSystem.eq_some_of_bind (f := fun s => s.step (.judge 0)) h₂ h₃
  have hstep₄ : s₃.step (.reap 0) = some s₄ :=
    StepSystem.eq_some_of_bind (f := fun s => s.step (.reap 0)) h₃ h₄
  -- The three facts about the states on the way that the condition asks for.
  have hreaps : ∀ g, scanned.map (fun s => (s.call.calls g).reaps) = some []
    | 0 => by rfl
    | _ + 1 => by rfl
  have hnew : touched.map (fun s => (s.touched 0, s.call.reg.parent.get "new",
      s.call.calls 0)) = some (["new"], none,
        .judging [("old", some ⟨.peerConnection, 1⟩)] [] []) := by decide
  have hfacts : judged.map (fun s => (s.touched 0, decide (s.call.reg.resources.Has "new"),
      decide (s.call.reg.resources.Has "old"))) = some (["new"], true, true) := by decide
  have hgone : reaped.map (fun s => decide (s.call.reg.resources.Has "old")) = some false := by
    decide
  simp only [h₁, h₂, h₃, h₄, Option.map_some, Option.some.injEq, Prod.mk.injEq,
    decide_eq_true_eq, decide_eq_false_iff_not] at hreaps hnew hfacts hgone
  obtain ⟨hlist, hparent, hcall⟩ := hnew
  obtain ⟨hmem, hhas, hold⟩ := hfacts
  have hcalm₁ : ∀ a ∈ before, ∀ s, Calm s a := by
    simp [before, Calm, CallAction.touches]
  have hcalm₂ : Calm s₁ touch := by
    intro h _ _ g b hb
    rw [hreaps g] at hb
    cases hb
  have hcalm₃ : Calm s₂ (.judge 0) := by
    intro e todo reap spared hg _ x hx _ hanc
    rw [hcall] at hg
    cases hg
    rw [hlist, List.mem_singleton] at hx
    subst hx
    have heq : "old" = "new" := hanc.eq_of_none hparent
    exact absurd heq (by decide)
  have hreach : sweepSystem.ReachableUnder Calm s₃ :=
    .step (.step (StepSystem.steps_of_run hcalm₁ h₁) hcalm₂ hstep₂) hcalm₃ hstep₃
  exact ⟨s₃, s₄, hreach, hstep₄, by rw [hmem]; exact List.mem_singleton_self _,
    (calm_sweep_spares_active s₃ hreach).1 0 s₄ hstep₄ "new"
      (by rw [hmem]; exact List.mem_singleton_self _) hhas, hold, hgone⟩

/-- A PeerConnection is condemned, and then it is touched, or it connects. The reap removes it
in both runs. -/
theorem sweep_reaps_active :
    (∃ s, sweepSystem.Reachable s ∧ ¬ s.SparesTouched) ∧
      ∃ s, sweepSystem.Reachable s ∧ ¬ s.SparesConnected := by
  let start : List CallAction := [.op (.register ⟨.peerConnection, 1⟩ "pc" 0),
    .scan 0 (2 * second) (10 * second) ["pc"], .judge 0]
  refine ⟨?_, ?_⟩
  · let final := sweepSystem.run sweepSystem.init
      (start ++ [.op (.touch "pc" fun _ => 10 * second)])
    have hrun : final.isSome := by decide
    obtain ⟨s, hs⟩ := Option.isSome_iff_exists.mp hrun
    let reaped := final.bind fun s => s.step (.reap 0)
    have hreaped : reaped.isSome := by decide
    obtain ⟨s', hs'⟩ := Option.isSome_iff_exists.mp hreaped
    have hstep : s.step (.reap 0) = some s' :=
      StepSystem.eq_some_of_bind (f := fun s => s.step (.reap 0)) hs hs'
    have hfacts : final.map (fun s => (s.touched 0, decide (s.call.reg.resources.Has "pc")))
        = some (["pc"], true) := by decide
    have hgone : reaped.map (fun s => decide (s.call.reg.resources.Has "pc")) = some false := by
      decide
    simp only [hs, hs', Option.map_some, Option.some.injEq, Prod.mk.injEq, decide_eq_true_eq,
      decide_eq_false_iff_not] at hfacts hgone
    refine ⟨s, StepSystem.reachable_of_run hs, fun hspares => hgone ?_⟩
    exact hspares 0 s' hstep "pc" (by rw [hfacts.1]; exact List.mem_singleton_self _) hfacts.2
  · let final := sweepSystem.run sweepSystem.init (start ++ [.connection 1 true])
    have hrun : final.isSome := by decide
    obtain ⟨s, hs⟩ := Option.isSome_iff_exists.mp hrun
    let reaped := final.bind fun s => s.step (.reap 0)
    have hreaped : reaped.isSome := by decide
    obtain ⟨s', hs'⟩ := Option.isSome_iff_exists.mp hreaped
    have hstep : s.step (.reap 0) = some s' :=
      StepSystem.eq_some_of_bind (f := fun s => s.step (.reap 0)) hs hs'
    have hfacts : final.map (fun s => (s.call.reg.parent.get "pc",
        isLivePeerConnection s.call.connected (s.call.reg.resources.get "pc"),
        decide (s.call.reg.resources.Has "pc"))) = some (none, true, true) := by decide
    have hgone : reaped.map (fun s => decide (s.call.reg.resources.Has "pc")) = some false := by
      decide
    simp only [hs, hs', Option.map_some, Option.some.injEq, Prod.mk.injEq, decide_eq_true_eq,
      decide_eq_false_iff_not] at hfacts hgone
    obtain ⟨hparent, hlive, hhas⟩ := hfacts
    refine ⟨s, StepSystem.reachable_of_run hs, fun hspares => hgone ?_⟩
    exact hspares 0 s' hstep "pc" ⟨"pc", ⟨Anc.refl _, hparent⟩, hlive⟩ hhas

end PionBridge.Server
