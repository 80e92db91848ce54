import PionBridge.Proofs.Registry.Sweep

/-!
# `PionBridge.Proofs.Registry.Activity`: activity keeps a chain alive

A `Touch` leaves every stamp on the chain of its handle at most a second old, because
`touchStamp` skips the store only below that age. From then on stamps grow, links of
existing handles only go away, and new handles are never put into an old chain. So the chain
stays fresh (`Active`) until it is removed by a call that has other reasons, and a sweep
within `maxAge` less a second finds none of it expired.

The sweep is cut into its phases: what the scan of one goroutine did not list, its reap does
not remove either, whatever the other goroutines do in between.
-/

set_option autoImplicit false

namespace PionBridge.Server

open PionBridge.Lib
open PionBridge.Lib.Forest
open Registry

/-- The handles of `A` were all used before, the parents of its members are in it, and every
stamp on it is at most a second older than `t`. -/
structure Active (t : Int) (A : Handle → Prop) (w : RegistryWorld) : Prop where
  used : ∀ a, A a → a ∈ w.used
  up : ∀ c p, A c → w.reg.parent.get c = some p → A p
  fresh : ∀ a, A a → ∀ st, w.reg.lastSeen.get a = some st → t - second ≤ st

theorem Active.anc {t : Int} {A : Handle → Prop} {w : RegistryWorld} (hA : Active t A w)
    {a h : Handle} (hh : A h) (ha : Anc w.reg.parent.get a h) : A a := by
  induction ha with
  | refl => exact hh
  | tail _ hstep ih => exact hA.up _ _ ih hstep

/-- Every operation keeps a chain active: the entries it adds are for a fresh handle. -/
theorem Active.evolved {t : Int} {A : Handle → Prop} {w w' : RegistryWorld} {op : RegistryOp}
    (hA : Active t A w) (hev : Evolved w.reg op w'.reg)
    (hnew : ∀ x ∈ op.uses.head?, x ∉ w.used) (hsub : ∀ x ∈ w.used, x ∈ w'.used) :
    Active t A w' where
  used a ha := hsub a (hA.used a ha)
  up c p hc hp := by
    rcases hev.parents c p hp with hp | ⟨hnew', -⟩
    · exact hA.up c p hc hp
    · exact absurd (hA.used c hc) (hnew c hnew')
  fresh a ha st' hst' := by
    rcases hev.stamps a st' hst' with ⟨st, hst, hle⟩ | hnew'
    · have := hA.fresh a ha st hst
      omega
    · exact absurd (hA.used a ha) (hnew a hnew')

/-! ### Interleavings -/

/-- What one step of the interleavings does to the registry is what some operation does. -/
theorem CallInv.evolved {w w' : CallWorld} (hw : CallInv w) {a : CallAction}
    (h : w.step a = some w') :
    ∃ op : RegistryOp, Evolved w.reg op w'.reg ∧
      (∀ x ∈ op.uses.head?, x ∉ w.world.used) ∧ ∀ x ∈ w.world.used, x ∈ w'.world.used := by
  have hi : w.reg.Inv := hw.world.reg
  cases CallWorld.moved hi h with
  | op op r' _ _ hadm hrun =>
      obtain ⟨r₁, hrun₁, hev, -, -⟩ := hw.world.step op hadm
      have heq : some r₁ = some r' := hrun₁.symm.trans hrun
      cases heq
      exact ⟨op, hev, fun x hx => hadm.fresh hx, fun x hx => List.mem_append_right _ hx⟩
  -- The other steps register nothing, and `Delete` stands for them.
  | collect g hs L r' spared _ he hL =>
      exact ⟨.delete "", he.evolved hi hL.downClosed_nil _, fun x hx => by
        simp [RegistryOp.uses] at hx, fun x hx => hx⟩
  | close g e left spared _ =>
      exact ⟨.delete "", (Restamped.refl w.reg).evolved hi _, fun x hx => by
        simp [RegistryOp.uses] at hx, fun x hx => hx⟩
  | quiet _ hreg hused _ _ _ =>
      exact ⟨.delete "", hreg.evolved hi _, fun x hx => by simp [RegistryOp.uses] at hx,
        fun x hx => by rwa [hused]⟩

/-- The step lemma of an active chain. -/
theorem Active.step {t : Int} {A : Handle → Prop} {w w' : CallWorld} {a : CallAction}
    (hA : Active t A w.world) (hw : CallInv w) (hstep : w.step a = some w') :
    Active t A w'.world := by
  obtain ⟨op, hev, hnew, hsub⟩ := hw.evolved hstep
  exact hA.evolved hev hnew hsub

/-- The run lemma: an active chain stays active. -/
theorem Active.steps {t : Int} {A : Handle → Prop} {C : CallWorld → CallAction → Prop}
    {w w' : CallWorld} (hA : Active t A w.world) (hw : CallInv w)
    (hrun : callSystem.StepsUnder C w w') : CallInv w' ∧ Active t A w'.world := by
  refine hrun.invariant (I := fun w => CallInv w ∧ Active t A w.world) ⟨hw, hA⟩ ?_
  rintro w a w' - ⟨hw, hA⟩ - hstep
  exact ⟨hw.step hstep, hA.step hw hstep⟩

/-- After the `Touch` of a registered handle its whole chain is active. -/
theorem active_of_touch {w w₁ : CallWorld} (hw : CallInv w) {h : Handle} {clock : Nat → Int}
    {t : Int} (hreg : w.reg.resources.Has h) (ht : ∀ i, t ≤ clock i)
    (htouch : w.step (.op (.touch h clock)) = some w₁) :
    Active t (fun a => Anc w.reg.parent.get a h) w₁.world := by
  obtain ⟨r', hrun, hst, hfresh⟩ := touch_spec hw.world.reg h clock
  have hw₁ : w₁.world = ⟨r', w.world.used⟩ := by
    simp only [CallWorld.step, RegistryOp.isAtomic, RegistryWorld.step, RegistryOp.Admissible,
      if_true, Registry.apply, hrun] at htouch
    cases htouch
    rfl
  rw [hw₁]
  refine ⟨?_, ?_, ?_⟩
  · exact fun a ha => hw.world.used_of_anc hreg ha
  · intro c p hc hp
    have hp' : w.reg.parent.get c = some p := by rwa [hst.parent] at hp
    exact (Anc.of_parent hp').trans hc
  · intro a ha st' hst'
    rcases (hst.evolved hw.world.reg (.delete h)).stamps a st' hst' with ⟨st, hst₀, -⟩ | hx
    · obtain ⟨st₁, hst₁, hle⟩ := hfresh t ht hreg a ha st hst₀
      have heq : some st₁ = some st' := hst₁.symm.trans hst'
      cases heq
      exact hle
    · simp [RegistryOp.uses] at hx

/-! ### The phases of one sweep -/

/-- A sweep that takes its time early enough finds no handle of an active chain expired. -/
theorem Active.not_expired {t : Int} {A : Handle → Prop} {w : RegistryWorld}
    (hA : Active t A w) {s : Sweep} (hnow : s.now ≤ t + s.maxAge - second) {a : Handle}
    (ha : A a) : ¬ w.reg.Expired s a := by
  rintro ⟨st, hst, hage⟩
  have := hA.fresh a ha st hst
  omega

/-- The handles that `Cleanup` may still reap, between its two locked passes. -/
def CallPc.listed : CallPc → List Handle
  | .judging todo reap _ => todo.map (·.1) ++ reap
  | _ => []

/-- The step starts a sweep of the goroutine `g`. -/
def CallAction.scansFor (g : Goroutine) : CallAction → Prop
  | .scan g' _ _ _ => g' = g
  | _ => False

theorem CallPc.mem_listed {pc : CallPc} {x : Handle} :
    x ∈ pc.listed ↔ (∃ e ∈ pc.todo, e.1 = x) ∨ x ∈ pc.reaps := by
  cases pc <;> simp [CallPc.listed, CallPc.todo, CallPc.reaps]

/-- Only a scan of `g` adds to the list of `g`. -/
theorem listed_of_step {w w' : CallWorld} {a : CallAction} {g : Goroutine}
    (h : w.step a = some w') (ha : ¬ a.scansFor g) :
    ∀ x ∈ (w'.calls g).listed, x ∈ (w.calls g).listed := by
  intro x hx
  rw [CallPc.mem_listed] at hx ⊢
  rcases hx with ⟨e, he, rfl⟩ | hx
  · rcases CallWorld.todo_of_step h he with he | ⟨_, _, _, _, rfl, -⟩
    · exact Or.inl ⟨e, he, rfl⟩
    · exact absurd rfl ha
  · rcases CallWorld.reaps_of_step h hx with hx | ⟨e, _, _, _, -, rfl, hg, -⟩
    · exact Or.inr hx
    · rw [hg]
      exact Or.inl ⟨e, List.mem_cons_self, rfl⟩

/-- A reap whose list misses an active chain removes nothing of the chain: what goes is below
a listed handle, and a listed handle above the chain would be on it. -/
theorem Active.reap {t : Int} {A : Handle → Prop} {w w' : CallWorld} {g : Goroutine}
    (hw : CallInv w) (hA : Active t A w.world) (hmiss : ∀ x ∈ (w.calls g).listed, ¬ A x)
    (h : w.step (.reap g) = some w') {a : Handle} (ha : A a) :
    w'.reg.resources.get a = w.reg.resources.get a := by
  simp only [CallWorld.step] at h
  split at h
  · rename_i reap spared hg
    obtain ⟨L, r', hrun, he, hL⟩ := reapLocked_spec hw.world.reg reap
    have hrun' : reapLocked w.reg.fuel w.reg reap = _ := hrun
    rw [hrun'] at h
    cases h
    have haL : a ∉ L := by
      intro haL
      -- `x` is on the list and above `a`, hence on the active chain.
      obtain ⟨⟨x, hx, -, hanc⟩, -⟩ := (hL.mem a).mp haL
      refine hmiss x ?_ (hA.anc ha hanc)
      rw [hg]
      simpa [CallPc.listed] using hx
    show r'.resources.get a = _
    rw [he.resources, if_neg haL]
    rfl
  · cases h

/-- After a `Touch` of a registered handle at the time `t`, and any interleaving of other
calls, a `Cleanup` that takes its time and scans by `t + maxAge - 1 s` lists neither the
handle nor an ancestor, and it removes none of them: neither when it runs uninterrupted, nor
when other goroutines run between its scan and its reap. -/
theorem touch_keeps_chain_from_sweep (w w₁ w₂ : CallWorld) (h : Handle) (clock : Nat → Int)
    (t : Int) (hw : callSystem.Reachable w) (hreg : w.reg.resources.Has h)
    (ht : ∀ i, t ≤ clock i) (htouch : w.step (.op (.touch h clock)) = some w₁)
    (hrun : callSystem.StepsUnder (fun _ _ => True) w₁ w₂) (g : Goroutine) (s : Sweep)
    (horder : w₂.reg.lastSeen.Ranges s.order) (hnow : s.now ≤ t + s.maxAge - second) :
    ∃ expired, w₂.reg.scan s.maxAge s.now s.order = some expired ∧
      (∀ a, Anc w.reg.parent.get a h ∨ Anc w₂.reg.parent.get a h →
        a ∉ expired.map (·.1)) ∧
      (∃ events r', w₂.reg.cleanup s = some (events, r') ∧
        ∀ a, Anc w.reg.parent.get a h → r'.resources.get a = w₂.reg.resources.get a) ∧
      ∀ w₃ w₄ w₅, w₂.step (.scan g s.maxAge s.now s.order) = some w₃ →
        callSystem.StepsUnder (fun _ a => ¬ a.scansFor g) w₃ w₄ →
        w₄.step (.reap g) = some w₅ →
        ∀ a, Anc w.reg.parent.get a h → w₅.reg.resources.get a = w₄.reg.resources.get a := by
  have hinv := callInv_of_reachable hw
  obtain ⟨hinv₂, hA⟩ := (active_of_touch hinv hreg ht htouch).steps (hinv.step htouch) hrun
  obtain ⟨expired, hscan, hmem, hlive⟩ := scan_mem hinv₂.world.reg s horder
  -- A handle that is on the chain now was on it at the time of the touch.
  have hnot : ∀ a, Anc w.reg.parent.get a h → a ∉ expired.map (·.1) := by
    intro a ha hmem'
    obtain ⟨e, he, heq⟩ := List.mem_map.mp hmem'
    exact hA.not_expired hnow ha ((hmem a).mp ⟨e, he, heq⟩)
  refine ⟨expired, hscan, ?_, ?_, ?_⟩
  · rintro a (ha | ha)
    · exact hnot a ha
    · exact hnot a (hA.anc (Anc.refl h) ha)
  · obtain ⟨removed, events, r', hclean, hspec⟩ := cleanup_spec hinv₂.world.reg s horder
    refine ⟨events, r', hclean, fun a ha => (hspec.kept a ?_).1⟩
    intro hrem
    obtain ⟨x, hx, hexp, -⟩ := (hspec.reaped a).mp hrem
    exact hA.not_expired hnow (hA.anc ha hx) hexp
  · intro w₃ w₄ w₅ hscan₃ hsteps hreap a ha
    have hlist₃ : ∀ x ∈ (w₃.calls g).listed, ¬ Anc w.reg.parent.get x h := by
      simp only [CallWorld.step, horder, if_true] at hscan₃
      split at hscan₃
      · rename_i hg
        obtain ⟨expired', hscan', rfl⟩ := Option.map_eq_some_iff.mp hscan₃
        have heq : some expired' = some expired := hscan'.symm.trans hscan
        cases heq
        intro x hx hxh
        refine hnot x hxh ?_
        split at hx
        · rw [hg] at hx
          simp [CallPc.listed] at hx
        · simpa [CallWorld.withCall, CallPc.listed] using hx
      · cases hscan₃
    have hlist₄ : ∀ x ∈ (w₄.calls g).listed, ¬ Anc w.reg.parent.get x h := by
      refine hsteps.invariant (I := fun u => ∀ x ∈ (u.calls g).listed,
        ¬ Anc w.reg.parent.get x h) hlist₃ ?_
      intro u b u' _ hu hb hstep x hx
      exact hu x (listed_of_step hstep hb x hx)
    obtain ⟨hinv₄, hA₄⟩ := (hA.step hinv₂ hscan₃).steps (hinv₂.step hscan₃) hsteps
    exact hA₄.reap hinv₄ hlist₄ hreap ha

/-- A channel touched at second 10, and a sweep with an age of two seconds at second 11: the
PeerConnection above the channel has had no activity of its own. -/
theorem touch_keeps_chain_from_sweep_of_parent :
    ∃ w₂ : CallWorld, ∃ s : Sweep, ∃ events r', callSystem.Reachable w₂ ∧
      w₂.reg.cleanup s = some (events, r') ∧ r'.resources.Has "pc" := by
  let acts : List CallAction := [.op (.register ⟨.peerConnection, 1⟩ "pc" 0),
    .op (.registerChild ⟨.dataChannel, 2⟩ "pc" "dc" 0)]
  let clock : Nat → Int := fun _ => 10 * second
  let s : Sweep := ⟨2 * second, 11 * second, ["pc", "dc"], fun _ => false, fun _ => clock⟩
  have hrun : (callSystem.run callSystem.init acts).isSome := by decide
  obtain ⟨w, hw⟩ := Option.isSome_iff_exists.mp hrun
  have hreach := StepSystem.reachable_of_run hw
  have hfacts : (callSystem.run callSystem.init acts).all (fun w =>
      decide (w.reg.resources.Has "dc" ∧ w.reg.parent.get "dc" = some "pc") &&
      (w.step (.op (.touch "dc" clock))).isSome &&
      (w.step (.op (.touch "dc" clock))).all fun w₁ =>
        decide (w₁.reg.lastSeen.Ranges s.order ∧ w₁.reg.resources.Has "pc")) = true := by decide
  rw [hw] at hfacts
  simp only [Option.all_some, Bool.and_eq_true, decide_eq_true_eq] at hfacts
  obtain ⟨⟨⟨hdc, hup⟩, htouch⟩, hafter⟩ := hfacts
  obtain ⟨w₁, hw₁⟩ := Option.isSome_iff_exists.mp htouch
  rw [hw₁] at hafter
  simp only [Option.all_some, decide_eq_true_eq] at hafter
  obtain ⟨-, -, -, ⟨events, r', hclean, hkept⟩, -⟩ := touch_keeps_chain_from_sweep w w₁ w₁ "dc"
    clock (10 * second) hreach hdc (fun _ => le_rfl) hw₁ .refl 0 s hafter.1 (by decide)
  have hreach₁ : callSystem.Reachable w₁ := StepSystem.Reachable.next
    (a := .op (.touch "dc" clock)) hreach hw₁
  refine ⟨w₁, s, events, r', hreach₁, hclean, ?_⟩
  unfold GoMap.Has
  rw [hkept "pc" (Anc.of_parent hup)]
  exact hafter.2

end PionBridge.Server
