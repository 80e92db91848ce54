import PionBridge.Proofs.Registry.Calls

/-!
# `PionBridge.Proofs.Registry.Delete`: a subtree goes, and each member is closed once

`SubtreeDeleted` is the full effect of `Delete` on the five maps, together with the order of
the shutdown calls. It is read off `collectLocked_spec`, with descendants described through
the children lists, as the source walks them.

The second half is about calls of several goroutines. A registered resource is in one of
three places: in the registry, in the hands of one call that collected it, or closed. `Fate`
names the three places. Every step moves each resource along this line or leaves it where it
is (`CallInv.step`), so the registry closes no resource twice, and closes all that it
removed.
-/

set_option autoImplicit false

namespace PionBridge.Server

open PionBridge.Lib
open PionBridge.Lib.Forest

namespace Registry

/-- `x` is `h` or one of its descendants, through the children lists. -/
def Below (r : Registry) (h x : Handle) : Prop :=
  Relation.ReflTransGen (fun p c => c ∈ r.kids p) h x

theorem Inv.below_iff {r : Registry} (hi : r.Inv) {h x : Handle} :
    r.Below h x ↔ Anc r.parent.get h x := by
  have hswap : (fun p c => c ∈ r.kids p) = Function.swap (Up r.parent.get) := by
    funext p c
    exact propext (hi.child c p).symm
  unfold Below
  rw [hswap, Relation.reflTransGen_swap]
  rfl

/-- The shutdown call for the send state of `x`, if it has one. -/
def stateEvent (r : Registry) (x : Handle) : Option CloseEvent :=
  (r.dcSendStates.get x).map fun s => .closeState x s

/-- The shutdown call for the resource of `x`, if it is an `io.Closer`. -/
def closerEvent (r : Registry) (x : Handle) : Option CloseEvent :=
  (r.resources.get x).bind fun res => if res.isCloser then some (.close x res) else none

theorem closeCollected_gather (r : Registry) (L : List Handle) :
    closeCollected (r.gather L) = L.filterMap r.stateEvent ++ L.filterMap r.closerEvent := by
  unfold closeCollected gather
  rw [List.map_filterMap, List.map_filterMap]
  congr 1
  · congr 1
    funext x
    unfold stateEvent
    cases r.dcSendStates.get x <;> rfl
  · congr 1
    funext x
    unfold closerEvent
    cases r.resources.get x with
    | none => rfl
    | some res => cases hc : res.isCloser <;> simp [hc]

/-- The effect of `Delete(h)` on a registered handle. `removed` lists the handles in the
order in which they were detached. -/
structure SubtreeDeleted (r : Registry) (h : Handle) (removed : List Handle)
    (events : List CloseEvent) (r' : Registry) : Prop where
  subtree : ∀ x, x ∈ removed ↔ r.Below h x
  once : removed.Nodup
  descendantsFirst : removed.Pairwise fun x y => ¬ r.Below x y
  gone : ∀ x ∈ removed, r'.resources.get x = none ∧ r'.parent.get x = none ∧
    r'.children.get x = none ∧ r'.dcSendStates.get x = none ∧ r'.lastSeen.get x = none
  kept : ∀ x, x ∉ removed → r'.resources.get x = r.resources.get x ∧
    r'.parent.get x = r.parent.get x ∧ r'.dcSendStates.get x = r.dcSendStates.get x ∧
    r'.lastSeen.get x = r.lastSeen.get x ∧
    r'.children.get x = (r.children.get x).map fun kids => kids.filter (· ∉ removed)
  shutdown : events = removed.filterMap r.stateEvent ++ removed.filterMap r.closerEvent

theorem Swept.descendantsFirst {r : Registry} {hs L : List Handle} (hi : r.Inv)
    (hL : Swept r [] hs L) : L.Pairwise fun x y => ¬ r.Below x y := by
  -- Two different places of `L` hold different handles, so `Below` is `Above` there.
  refine (hL.order.and hL.nodup).imp ?_
  rintro x y ⟨habove, hne⟩ hbelow
  rcases (hi.below_iff.mp hbelow).eq_or_above with heq | h'
  · exact hne heq
  · exact habove h'

/-- What is below a registered handle is registered. -/
theorem Inv.has_of_anc {r : Registry} (hi : r.Inv) {h x : Handle} (hh : r.resources.Has h)
    (hanc : Anc r.parent.get h x) : r.resources.Has x := by
  rcases anc_iff.mp hanc with rfl | ⟨p, hp, -⟩
  · exact hh
  · exact hi.owned x (by simp [GoMap.Has, hp])

theorem Swept.subtreeDeleted {r r' : Registry} {h : Handle} {L : List Handle} (hi : r.Inv)
    (hreg : r.resources.Has h) (he : Erased r [] L r') (hL : Swept r [] [h] L) :
    SubtreeDeleted r h L (closeCollected (r.gather L)) r' where
  subtree x := by
    rw [hL.mem, hi.below_iff]
    simp [hreg]
  once := hL.nodup
  descendantsFirst := hL.descendantsFirst hi
  gone x hx := by
    refine ⟨?_, ?_, ?_, ?_, ?_⟩
    · rw [he.resources, if_pos hx]
    · rw [he.parent, if_pos hx]
    · rw [he.children, if_pos (Or.inr hx)]
    · rw [he.dcSendStates, if_pos hx]
    · rw [he.lastSeen, if_pos hx]
  kept x hx := by
    refine ⟨?_, ?_, ?_, ?_, ?_⟩
    · rw [he.resources, if_neg hx]
    · rw [he.parent, if_neg hx]
    · rw [he.dcSendStates, if_neg hx]
    · rw [he.lastSeen, if_neg hx]
    · rw [he.children, if_neg (by simpa using hx)]
  shutdown := closeCollected_gather r L

/-! ### The shutdown calls for one handle -/

/-- The resources that a list of shutdown calls closes under the handle `x`. -/
def closesOf (x : Handle) (events : List CloseEvent) : List Resource :=
  events.filterMap fun e =>
    match e with
    | .close h res => if h = x then some res else none
    | .closeState _ _ => none

@[simp] theorem closesOf_nil (x : Handle) : closesOf x [] = [] := rfl

theorem closesOf_append (x : Handle) (es es' : List CloseEvent) :
    closesOf x (es ++ es') = closesOf x es ++ closesOf x es' := by
  simp [closesOf]

/-- What one registration can be closed as: itself, when it is an `io.Closer`. -/
def asCloser (res : Resource) : List Resource := if res.isCloser then [res] else []

/-- The calls for a list of handles without repetition close the resource of `x` once if
`x` is in the list. -/
theorem closesOf_closeCollected (r : Registry) (x : Handle) (L : List Handle)
    (hL : L.Nodup) :
    closesOf x (closeCollected (r.gather L))
      = if x ∈ L then ((r.resources.get x).map asCloser).getD [] else [] := by
  rw [closeCollected_gather, closesOf_append]
  have hstates : closesOf x (L.filterMap r.stateEvent) = [] := by
    unfold closesOf
    rw [List.filterMap_filterMap, List.filterMap_eq_nil_iff]
    intro y _
    unfold stateEvent
    cases r.dcSendStates.get y <;> rfl
  rw [hstates, List.nil_append]
  clear hstates
  induction L with
  | nil => simp
  | cons y L ih =>
      obtain ⟨hy, hnd⟩ := List.nodup_cons.mp hL
      have hhead : closesOf x ((r.closerEvent y).toList)
          = if x = y then ((r.resources.get x).map asCloser).getD [] else [] := by
        unfold closerEvent closesOf asCloser
        by_cases hxy : x = y
        · subst hxy
          cases r.resources.get x with
          | none => simp
          | some res => cases hc : res.isCloser <;> simp [hc]
        · cases r.resources.get y with
          | none => simp [hxy]
          | some res => cases hc : res.isCloser <;> simp [hc, hxy, Ne.symm hxy]
      have hsplit : (y :: L).filterMap r.closerEvent
          = (r.closerEvent y).toList ++ L.filterMap r.closerEvent := by
        cases hc : r.closerEvent y <;> simp [hc]
      rw [hsplit, closesOf_append, hhead, ih hnd]
      by_cases hxy : x = y
      · subst hxy
        simp [hy]
      · simp [hxy]

end Registry

/-! ### The three places of a registered resource -/

open Registry

/-- Where the resource `res` registered under `x` is: in the registry, collected by the
call of one goroutine that has not closed it yet, or closed. -/
inductive Fate (w : CallWorld) (x : Handle) (res : Resource) : Prop
  | live (hreg : w.reg.resources.get x = some res)
      (hleft : ∀ g, closesOf x (w.calls g).left = []) (hclosed : closesOf x w.closed = [])
  | collected (g₀ : Goroutine) (hreg : w.reg.resources.get x = none)
      (hmine : closesOf x (w.calls g₀).left = asCloser res)
      (hleft : ∀ g, g ≠ g₀ → closesOf x (w.calls g).left = [])
      (hclosed : closesOf x w.closed = [])
  | closed (hreg : w.reg.resources.get x = none)
      (hleft : ∀ g, closesOf x (w.calls g).left = [])
      (hclosed : closesOf x w.closed = asCloser res)

/-- The invariant of the interleavings. A handle that was never registered is not in any
list of shutdown calls. -/
structure CallInv (w : CallWorld) : Prop where
  world : WorldInv w.world
  known : ∀ x res, w.reg.resources.get x = some res → (x, res) ∈ w.registered
  used : ∀ e ∈ w.registered, e.1 ∈ w.world.used
  nodup : (w.registered.map Prod.fst).Nodup
  fate : ∀ x res, (x, res) ∈ w.registered → Fate w x res
  unknown : ∀ x, x ∉ w.world.used →
    (∀ g, closesOf x (w.calls g).left = []) ∧ closesOf x w.closed = []

theorem callInv_init : CallInv callSystem.init where
  world := show WorldInv registrySystem.init from worldInv_of_reachable .refl
  known x res h := by simp [callSystem, CallWorld.reg, Registry.new] at h
  used e he := by simp [callSystem] at he
  nodup := List.nodup_nil
  fate x res h := by simp [callSystem] at h
  unknown x _ := by simp [callSystem, CallPc.left]

/-- A step that leaves the resources, the shutdown calls to make and those made as they are
moves no resource. -/
theorem Fate.congr {w w' : CallWorld} {x : Handle} {res : Resource} (hf : Fate w x res)
    (hreg : w'.reg.resources = w.reg.resources) (hleft : ∀ g, (w'.calls g).left = (w.calls g).left)
    (hclosed : w'.closed = w.closed) : Fate w' x res := by
  cases hf with
  | live h1 h2 h3 =>
      exact .live (by rw [hreg, h1]) (fun g => by rw [hleft, h2]) (by rw [hclosed, h3])
  | collected g₀ h1 h2 h3 h4 =>
      exact .collected g₀ (by rw [hreg, h1]) (by rw [hleft, h2])
        (fun g hg => by rw [hleft, h3 g hg]) (by rw [hclosed, h4])
  | closed h1 h2 h3 =>
      exact .closed (by rw [hreg, h1]) (fun g => by rw [hleft, h2]) (by rw [hclosed, h3])

/-- Such a step keeps the invariant. -/
theorem CallInv.congr {w w' : CallWorld} (hw : CallInv w) (hworld : WorldInv w'.world)
    (hused : w'.world.used = w.world.used) (hreg : w'.reg.resources = w.reg.resources)
    (hleft : ∀ g, (w'.calls g).left = (w.calls g).left) (hclosed : w'.closed = w.closed)
    (hregistered : w'.registered = w.registered) : CallInv w' where
  world := hworld
  known x res h := by
    rw [hregistered]
    exact hw.known x res (by rwa [hreg] at h)
  used e he := by
    rw [hused]
    exact hw.used e (by rwa [hregistered] at he)
  nodup := by
    rw [hregistered]
    exact hw.nodup
  fate x res h := (hw.fate x res (by rwa [hregistered] at h)).congr hreg hleft hclosed
  unknown x hx := by
    obtain ⟨h1, h2⟩ := hw.unknown x (by rwa [hused] at hx)
    exact ⟨fun g => by rw [hleft, h1], by rw [hclosed, h2]⟩

/-- A collecting pass of the goroutine `g`, which has nothing left to close: the removed
resources move from the registry to the list of `g`. -/
theorem CallInv.collect {w : CallWorld} (hw : CallInv w) {g : Goroutine}
    (hg : (w.calls g).left = []) {hs L : List Handle} {r' : Registry}
    (he : Erased w.reg [] L r') (hL : Swept w.reg [] hs L) (spared : List Handle) :
    CallInv ((w.withReg r').withCall g
      (.closing (closeCollected (w.reg.gather L)) spared)) := by
  -- The list of `g` closes the resources of `L`, and no other list changes.
  have hmine : ∀ x, closesOf x (((w.withReg r').withCall g
      (.closing (closeCollected (w.reg.gather L)) spared)).calls g).left
        = if x ∈ L then ((w.reg.resources.get x).map asCloser).getD [] else [] := by
    intro x
    rw [← closesOf_closeCollected w.reg x L hL.nodup]
    simp [CallWorld.withCall, CallPc.left]
  have hother : ∀ g', g' ≠ g → ((w.withReg r').withCall g
      (.closing (closeCollected (w.reg.gather L)) spared)).calls g' = w.calls g' := by
    intro g' hg'
    simp [CallWorld.withCall, CallWorld.withReg, hg']
  have hworld : WorldInv ⟨r', w.world.used⟩ :=
    hw.world.evolved (he.evolved hw.world.reg hL.downClosed_nil (.delete ""))
  refine ⟨hworld, ?_, hw.used, hw.nodup, ?_, ?_⟩
  · intro x res hx
    refine hw.known x res ?_
    have hx' : r'.resources.get x = some res := hx
    rw [he.resources] at hx'
    by_cases hxL : x ∈ L
    · simp [hxL] at hx'
    · rwa [if_neg hxL] at hx'
  · intro x res hx
    have hres : ((w.withReg r').withCall g (.closing (closeCollected (w.reg.gather L))
        spared)).reg.resources.get x = if x ∈ L then none else w.reg.resources.get x :=
      he.resources x
    cases hw.fate x res hx with
    | live h1 h2 h3 =>
        by_cases hxL : x ∈ L
        · refine .collected g (by simpa [hxL] using hres) ?_ (fun g' hg' => ?_) h3
          · rw [hmine]
            simp [hxL, h1]
          · rw [hother g' hg']
            exact h2 g'
        · refine .live (by simpa [hxL, h1] using hres) (fun g' => ?_) h3
          by_cases hg' : g' = g
          · rw [hg', hmine]
            simp [hxL]
          · rw [hother g' hg']
            exact h2 g'
    | collected g₀ h1 h2 h3 h4 =>
        -- Only registered handles are swept, and this one has left the registry.
        have hxL : x ∉ L := by
          intro hxL
          obtain ⟨⟨h, -, hreg, hanc⟩, -⟩ := (hL.mem x).mp hxL
          exact hw.world.reg.has_of_anc hreg hanc h1
        refine .collected g₀ (by simpa [hxL, h1] using hres) ?_ (fun g' hg' => ?_) h4
        · by_cases hg₀ : g₀ = g
          · rw [hg₀, hmine]
            rw [hg₀, hg] at h2
            simpa [hxL] using h2
          · rw [hother g₀ hg₀]
            exact h2
        · by_cases hgg : g' = g
          · rw [hgg, hmine]
            simp [hxL]
          · rw [hother g' hgg]
            exact h3 g' hg'
    | closed h1 h2 h3 =>
        have hxL : ((w.reg.resources.get x).map asCloser).getD [] = [] := by simp [h1]
        refine .closed (by simpa [h1] using hres) (fun g' => ?_) h3
        by_cases hg' : g' = g
        · rw [hg', hmine]
          simp [hxL]
        · rw [hother g' hg']
          exact h2 g'
  · intro x hx
    obtain ⟨h1, h2⟩ := hw.unknown x hx
    refine ⟨fun g' => ?_, h2⟩
    by_cases hg' : g' = g
    · have hnone : w.reg.resources.get x = none := by
        by_contra hreg
        exact hx (hw.world.handles x hreg)
      rw [hg', hmine]
      simp [hnone]
    · rw [hother g' hg']
      exact h1 g'

/-! ### The steps of the interleavings -/

/-- An operation that holds the lock throughout changes the entries of the handle it registers
only. -/
theorem apply_frame {r r' : Registry} (hi : r.Inv) {op : RegistryOp}
    (hatomic : op.isAtomic = true) (h : r.apply op = some r') {b : Handle}
    (hb : b ∉ op.uses.head?) :
    r'.parent.get b = r.parent.get b ∧ r'.resources.get b = r.resources.get b := by
  cases op with
  | register resource handle now =>
      cases h
      have hne : b ≠ handle := by
        rintro rfl
        exact hb (by simp [RegistryOp.uses])
      exact ⟨rfl, GoMap.get_set_of_ne _ _ hne⟩
  | registerChild resource p handle now =>
      cases h
      have hne : b ≠ handle := by
        rintro rfl
        exact hb (by simp [RegistryOp.uses])
      exact ⟨GoMap.get_set_of_ne _ _ hne, GoMap.get_set_of_ne _ _ hne⟩
  | registerDCSendState handle state =>
      cases h
      unfold registerDCSendState
      cases r.dcSendStates.get handle <;> exact ⟨rfl, rfl⟩
  | removeDCSendState handle =>
      cases h
      unfold removeDCSendState
      cases r.dcSendStates.get handle <;> exact ⟨rfl, rfl⟩
  | lookup handle now =>
      cases h
      have hst := lookup_restamped r handle now
      exact ⟨by rw [hst.parent], by rw [hst.resources]⟩
  | touch handle clock =>
      obtain ⟨r₁, hrun, hst, -⟩ := touch_spec hi handle clock
      have heq : some r₁ = some r' := hrun.symm.trans h
      cases heq
      exact ⟨by rw [hst.parent], by rw [hst.resources]⟩
  | delete handle => cases hatomic
  | cleanup s => cases hatomic

/-- An operation that registers nothing and holds the lock throughout leaves the resources
as they are. -/
theorem apply_resources {r r' : Registry} (hi : r.Inv) {op : RegistryOp}
    (hatomic : op.isAtomic = true) (hnone : op.registration = [])
    (h : r.apply op = some r') : r'.resources = r.resources := by
  have huses : op.uses.head? = none := by
    cases op <;> first | rfl | cases hnone
  refine GoMap.ext fun x => (apply_frame hi hatomic h ?_).2
  rw [huses]
  exact Option.not_mem_none x

/-- A registration under a fresh handle. -/
theorem CallInv.registered {w w' : CallWorld} (hw : CallInv w) {handle : Handle}
    {resource : Resource} (hfresh : handle ∉ w.world.used) (hworld : WorldInv w'.world)
    (hsub : ∀ x ∈ w.world.used, x ∈ w'.world.used) (hnew : handle ∈ w'.world.used)
    (hreg : w'.reg.resources = w.reg.resources.set handle resource)
    (hcalls : w'.calls = w.calls) (hclosed : w'.closed = w.closed)
    (hregistered : w'.registered = w.registered ++ [(handle, resource)]) : CallInv w' := by
  obtain ⟨hleft, hclosed₀⟩ := hw.unknown handle hfresh
  -- No registration of the past used this handle.
  have hpast : ∀ x res, (x, res) ∈ w.registered → x ≠ handle := by
    rintro x res hx rfl
    exact hfresh (hw.used _ hx)
  refine ⟨hworld, ?_, ?_, ?_, ?_, ?_⟩
  · intro x res hx
    rw [hreg] at hx
    rw [hregistered]
    by_cases heq : x = handle
    · subst heq
      rw [GoMap.get_set_self] at hx
      cases hx
      simp
    · rw [GoMap.get_set_of_ne _ _ heq] at hx
      exact List.mem_append_left _ (hw.known x res hx)
  · intro e he
    rw [hregistered] at he
    rcases List.mem_append.mp he with he | he
    · exact hsub _ (hw.used e he)
    · rw [List.mem_singleton] at he
      rw [he]
      exact hnew
  · rw [hregistered, List.map_append, List.nodup_append]
    refine ⟨hw.nodup, List.nodup_singleton _, fun x hx y hy => ?_⟩
    obtain ⟨⟨x, res⟩, hmem, rfl⟩ := List.mem_map.mp hx
    rw [List.map_singleton, List.mem_singleton] at hy
    rw [hy]
    exact hpast x res hmem
  · intro x res hx
    rw [hregistered] at hx
    rcases List.mem_append.mp hx with hx | hx
    · have hget : w'.reg.resources.get x = w.reg.resources.get x := by
        rw [hreg, GoMap.get_set_of_ne _ _ (hpast x res hx)]
      cases hw.fate x res hx with
      | live h1 h2 h3 =>
          exact .live (hget.trans h1) (by rw [hcalls]; exact h2) (by rw [hclosed]; exact h3)
      | collected g₀ h1 h2 h3 h4 =>
          exact .collected g₀ (hget.trans h1) (by rw [hcalls]; exact h2)
            (by rw [hcalls]; exact h3) (by rw [hclosed]; exact h4)
      | closed h1 h2 h3 =>
          exact .closed (hget.trans h1) (by rw [hcalls]; exact h2) (by rw [hclosed]; exact h3)
    · rw [List.mem_singleton] at hx
      cases hx
      exact .live (by rw [hreg, GoMap.get_set_self]) (by rw [hcalls]; exact hleft)
        (by rw [hclosed]; exact hclosed₀)
  · intro x hx
    obtain ⟨h1, h2⟩ := hw.unknown x (fun hmem => hx (hsub x hmem))
    exact ⟨by rw [hcalls]; exact h1, by rw [hclosed]; exact h2⟩

theorem CallInv.op {w : CallWorld} (hw : CallInv w) {op : RegistryOp} {r' : Registry}
    (hatomic : op.isAtomic = true) (hadm : op.Admissible w.world)
    (hrun : w.reg.apply op = some r') :
    CallInv { w with
      world := ⟨r', op.uses ++ w.world.used⟩
      registered := w.registered ++ op.registration } := by
  obtain ⟨r₁, hrun₁, -, -, hworld⟩ := hw.world.step op hadm
  have heq : some r₁ = some r' := hrun₁.symm.trans hrun
  cases heq
  cases hreg : op.registration with
  | nil =>
      have huses : op.uses = [] := by
        cases op <;> simp [RegistryOp.registration] at hreg <;> rfl
      refine hw.congr hworld (by simp [huses]) ?_ (fun _ => rfl) rfl (by simp)
      exact apply_resources hw.world.reg hatomic hreg hrun
  | cons e es =>
      cases op with
      | register resource handle now =>
          cases hreg
          cases hrun
          exact hw.registered hadm hworld (fun x hx => List.mem_append_right _ hx)
            (by simp [RegistryOp.uses]) rfl rfl rfl rfl
      | registerChild resource p handle now =>
          cases hreg
          cases hrun
          exact hw.registered hadm.1 hworld (fun x hx => List.mem_append_right _ hx)
            (by simp [RegistryOp.uses]) rfl rfl rfl rfl
      | registerDCSendState | removeDCSendState | lookup | touch | delete | cleanup =>
          simp [RegistryOp.registration] at hreg

/-- One shutdown call is made: it moves from the list of `g` to the calls made. -/
theorem CallInv.close {w : CallWorld} (hw : CallInv w) {g : Goroutine} {e : CloseEvent}
    {left : List CloseEvent} {spared : List Handle}
    (hg : w.calls g = .closing (e :: left) spared) :
    CallInv { w.withCall g (.closing left spared) with closed := w.closed ++ [e] } := by
  have hsplit : ∀ x, closesOf x (w.calls g).left = closesOf x [e] ++ closesOf x left := by
    intro x
    rw [hg, ← closesOf_append]
    rfl
  have hleft : ∀ x, closesOf x (w.calls g).left = [] → closesOf x [e] = [] ∧
      ∀ g', closesOf x (w.calls g').left = [] →
        closesOf x ((w.withCall g (.closing left spared)).calls g').left = [] := by
    intro x hx
    rw [hsplit x, List.append_eq_nil_iff] at hx
    refine ⟨hx.1, fun g' hg' => ?_⟩
    by_cases heq : g' = g
    · subst heq
      simpa [CallWorld.withCall, CallPc.left] using hx.2
    · simpa [CallWorld.withCall, heq] using hg'
  refine ⟨hw.world, hw.known, hw.used, hw.nodup, ?_, ?_⟩
  · intro x res hx
    cases hw.fate x res hx with
    | live h1 h2 h3 =>
        obtain ⟨he, hrest⟩ := hleft x (h2 g)
        exact .live h1 (fun g' => hrest g' (h2 g')) (by rw [closesOf_append, h3, he]; rfl)
    | closed h1 h2 h3 =>
        obtain ⟨he, hrest⟩ := hleft x (h2 g)
        exact .closed h1 (fun g' => hrest g' (h2 g'))
          (by rw [closesOf_append, h3, he, List.append_nil])
    | collected g₀ h1 h2 h3 h4 =>
        by_cases hg₀ : g = g₀
        · subst hg₀
          rw [hsplit x] at h2
          have hother : ∀ g', g' ≠ g →
              closesOf x ((w.withCall g (.closing left spared)).calls g').left = [] := by
            intro g' hg'
            simpa [CallWorld.withCall, hg'] using h3 g' hg'
          -- The list of `g` has at most one call for `x`: it is `e` or it stays.
          cases he : closesOf x [e] with
          | nil =>
              refine .collected g h1 ?_ hother (by rw [closesOf_append, h4, he]; rfl)
              simpa [CallWorld.withCall, CallPc.left, he] using h2
          | cons a as =>
              have hlen : (asCloser res).length ≤ 1 := by
                unfold asCloser
                split <;> simp
              have hrest : as = [] ∧ closesOf x left = [] := by
                rw [← h2, he] at hlen
                simp only [List.length_append, List.length_cons] at hlen
                exact ⟨List.length_eq_zero_iff.mp (by omega),
                  List.length_eq_zero_iff.mp (by omega)⟩
              refine .closed h1 (fun g' => ?_) ?_
              · by_cases heq : g' = g
                · subst heq
                  simpa [CallWorld.withCall, CallPc.left] using hrest.2
                · exact hother g' heq
              · rw [closesOf_append, h4, ← h2, hrest.2, List.append_nil]
                rfl
        · obtain ⟨he, hrest⟩ := hleft x (h3 g hg₀)
          refine .collected g₀ h1 ?_ (fun g' hg' => hrest g' (h3 g' hg'))
            (by rw [closesOf_append, h4, he]; rfl)
          have hne : g₀ ≠ g := fun h => hg₀ h.symm
          simpa [CallWorld.withCall, hne] using h2
  · intro x hx
    obtain ⟨h1, h2⟩ := hw.unknown x hx
    obtain ⟨he, hrest⟩ := hleft x (h1 g)
    exact ⟨fun g' => hrest g' (h1 g'), by rw [closesOf_append, h2, he]; rfl⟩

/-- The step lemma of the interleavings. -/
theorem CallInv.step {w w' : CallWorld} (hw : CallInv w) {a : CallAction}
    (h : w.step a = some w') : CallInv w' := by
  cases CallWorld.moved hw.world.reg h with
  | op op r' _ hatomic hadm hrun => exact hw.op hatomic hadm hrun
  | collect g hs L r' spared hg he hL => exact hw.collect hg he hL spared
  | close g e left spared hg => exact hw.close hg
  | quiet _ hreg hused hleft hclosed hregistered =>
      have hworld := hw.world.evolved (hreg.evolved hw.world.reg (.delete ""))
      refine hw.congr ⟨hworld.reg, ?_, ?_⟩ hused hreg.resources hleft hclosed hregistered
      · rw [hused]
        exact hworld.handles
      · rw [hused]
        exact hworld.parents

/-- The run lemma of the interleavings. -/
theorem callInv_of_reachable {w : CallWorld} (hw : callSystem.Reachable w) : CallInv w :=
  hw.invariant callInv_init fun _ _ _ _ hinv hstep => hinv.step hstep

/-- `Delete(h)` in the state `r`: the error and no change for a handle that is not
registered, and the removal of its subtree otherwise. -/
def Registry.DeletesSubtree (r : Registry) (h : Handle) : Prop :=
  (r.resources.get h = none →
    r.delete h = some (.error ("handle not found: " ++ h), r)) ∧
  (r.resources.Has h → ∃ removed events r', r.delete h = some (.ok events, r') ∧
    r.SubtreeDeleted h removed events r')

theorem Registry.Inv.deletesSubtree {r : Registry} (hi : r.Inv) (h : Handle) :
    r.DeletesSubtree h := by
  rcases delete_spec hi h with ⟨hh, hrun⟩ | ⟨hh, L, r', hrun, he, hL⟩
  · exact ⟨fun _ => hrun, fun hreg => absurd hh hreg⟩
  · exact ⟨fun hnone => absurd hnone hh,
      fun hreg => ⟨L, _, r', hrun, hL.subtreeDeleted hi hreg he⟩⟩

/-- In every reachable registry, also between the phases of other calls, `Delete` removes
exactly the subtree of a registered handle. In every interleaving of calls the registry
closes each registered resource at most once, and a removed `io.Closer` has been closed
exactly once when no call is in progress. -/
theorem delete_removes_subtree_and_closes_once (w : RegistryWorld)
    (hw : registrySystem.Reachable w) (v : CallWorld) (hv : callSystem.Reachable v) :
    (∀ h, w.reg.DeletesSubtree h) ∧ (∀ h, v.reg.DeletesSubtree h) ∧
    (∀ x res, (x, res) ∈ v.registered →
      (closesOf x v.closed = [] ∨ closesOf x v.closed = [res]) ∧
      (v.reg.resources.get x = none → (∀ g, v.calls g = .idle) → res.isCloser = true →
        closesOf x v.closed = [res])) := by
  have hinv := callInv_of_reachable hv
  refine ⟨(worldInv_of_reachable hw).reg.deletesSubtree, hinv.world.reg.deletesSubtree, ?_⟩
  intro x res hx
  have hcases : asCloser res = [] ∨ asCloser res = [res] := by
    unfold asCloser
    split
    · exact Or.inr rfl
    · exact Or.inl rfl
  cases hinv.fate x res hx with
  | live hreg _ hclosed =>
      exact ⟨Or.inl hclosed, fun hnone => absurd (hreg.symm.trans hnone) (by simp)⟩
  | collected g₀ _ hmine _ hclosed =>
      refine ⟨Or.inl hclosed, fun _ hidle hcloser => ?_⟩
      rw [hidle g₀] at hmine
      simp [CallPc.left, asCloser, hcloser] at hmine
  | closed _ _ hclosed =>
      refine ⟨by rwa [hclosed], fun _ _ hcloser => ?_⟩
      rw [hclosed, asCloser, if_pos hcloser]

/-- A PeerConnection and its channel, deleted by one goroutine while a second one deletes
the channel first. -/
theorem delete_removes_subtree_and_closes_once_race :
    ∃ v, callSystem.Reachable v ∧ v.reg.resources.get "dc" = none ∧
      closesOf "dc" v.closed = [⟨.dataChannel, 1⟩] := by
  let acts : List CallAction := [.op (.register ⟨.peerConnection, 0⟩ "pc" 1),
    .op (.registerChild ⟨.dataChannel, 1⟩ "pc" "dc" 2), .delete 1 "dc", .delete 0 "pc",
    .close 0, .ret 0, .close 1, .ret 1]
  have hrun : (callSystem.run callSystem.init acts).isSome := by decide
  obtain ⟨v, hv⟩ := Option.isSome_iff_exists.mp hrun
  have hreach := StepSystem.reachable_of_run hv
  have hgone : v.reg.resources.get "dc" = none := by
    have h : (callSystem.run callSystem.init acts).map (fun w => w.reg.resources.get "dc")
        = some none := by decide
    simpa [hv] using h
  refine ⟨v, hreach, hgone, ?_⟩
  have hreg : (callSystem.run callSystem.init acts).map (fun w => w.registered)
      = some [("pc", ⟨.peerConnection, 0⟩), ("dc", ⟨.dataChannel, 1⟩)] := by decide
  have hcalls : ∀ g, (callSystem.run callSystem.init acts).map (fun w => w.calls g)
      = some .idle := by
    intro g
    cases g with
    | zero => rfl
    | succ g => cases g <;> rfl
  have hmem : ("dc", ⟨.dataChannel, 1⟩) ∈ v.registered := by
    rw [hv] at hreg
    simp only [Option.map_some, Option.some.injEq] at hreg
    simp [hreg]
  refine ((delete_removes_subtree_and_closes_once _ .refl v hreach).2.2 _ _ hmem).2 hgone
    ?_ rfl
  intro g
  simpa [hv] using hcalls g

end PionBridge.Server
