import PionBridge.Proofs.Registry.Delete

/-!
# `PionBridge.Proofs.Registry.Sweep`: the exact effect of `Cleanup`

`Cleanup` makes four passes. The scan collects the expired handles in whatever order `range`
visits the map, the liveness pass splits them by the root of their chain, the write-locked
pass cascades the ones to reap, and the last pass touches the spared ones.

The set that goes is independent of the visiting order: a handle goes exactly when a handle
on its chain is expired under a root that is not live (`Reapable`). All handles of one chain
have the same root, so a live root protects its whole subtree, and the chains that the last
pass walks are still there.
-/

set_option autoImplicit false

namespace PionBridge.Server

open PionBridge.Lib
open PionBridge.Lib.Forest

namespace Registry

/-- `now - lastSeen[h] > maxAge`. -/
def Expired (r : Registry) (s : Sweep) (h : Handle) : Prop :=
  ∃ st, r.lastSeen.get h = some st ∧ s.maxAge < s.now - st

/-- The end of the parent chain of `h` is registered and a connected PeerConnection. -/
def RootLive (r : Registry) (s : Sweep) (h : Handle) : Prop :=
  ∃ root, Root r.parent.get root h ∧
    isLivePeerConnection s.connected (r.resources.get root) = true

/-- A handle on the chain of `x`, or `x` itself, is expired under a root that is not live. -/
def Reapable (r : Registry) (s : Sweep) (x : Handle) : Prop :=
  ∃ h, Anc r.parent.get h x ∧ r.Expired s h ∧ ¬ r.RootLive s h

theorem RootLive.of_anc {r : Registry} {s : Sweep} {h x : Handle} (hx : r.RootLive s x)
    (h' : Anc r.parent.get h x) : r.RootLive s h := by
  obtain ⟨root, hroot, hlive⟩ := hx
  exact ⟨root, hroot.of_anc h', hlive⟩

theorem RootLive.not_reapable {r : Registry} {s : Sweep} {x : Handle} (hx : r.RootLive s x) :
    ¬ r.Reapable s x := by
  rintro ⟨h, hanc, -, hnot⟩
  exact hnot (hx.of_anc hanc)

/-! ### The two lists of the liveness pass -/

/-- What the scan of all keys returns: the expired handles, each with the resource that
decides whether its root is live. -/
theorem scan_mem {r : Registry} (hi : r.Inv) (s : Sweep) (horder : r.lastSeen.Ranges s.order) :
    ∃ expired, r.scan s.maxAge s.now s.order = some expired ∧
      (∀ h, (∃ e ∈ expired, e.1 = h) ↔ r.Expired s h) ∧
      ∀ e ∈ expired, isLivePeerConnection s.connected e.2 = true ↔ r.RootLive s e.1 := by
  obtain ⟨expired, hscan, hmap, hroots⟩ := scan_spec hi s.maxAge s.now s.order
  refine ⟨expired, hscan, ?_, ?_⟩
  · intro h
    have hmem : (∃ e ∈ expired, e.1 = h) ↔ h ∈ expired.map (·.1) := by simp
    rw [hmem, hmap, List.mem_filter, horder.mem_iff]
    unfold Expired GoMap.Has
    cases r.lastSeen.get h with
    | none => simp
    | some st => simp
  · intro e he
    obtain ⟨root, hroot, hres⟩ := hroots e he
    rw [hres]
    constructor
    · intro hlive
      exact ⟨root, hroot, hlive⟩
    · -- The live root of the definition is the root that the scan found.
      rintro ⟨root', hroot', hlive⟩
      rwa [hroot.unique hroot']

theorem mem_reapList {r : Registry} {s : Sweep} {expired : List (Handle × Option Resource)}
    (hmem : ∀ h, (∃ e ∈ expired, e.1 = h) ↔ r.Expired s h)
    (hlive : ∀ e ∈ expired, isLivePeerConnection s.connected e.2 = true ↔ r.RootLive s e.1)
    (h : Handle) :
    h ∈ reapList s.connected expired ↔ r.Expired s h ∧ ¬ r.RootLive s h := by
  unfold reapList
  simp only [List.mem_map, List.mem_filter, Bool.not_eq_true', ← Bool.not_eq_true]
  constructor
  · rintro ⟨e, ⟨he, hnot⟩, rfl⟩
    exact ⟨(hmem e.1).mp ⟨e, he, rfl⟩, fun h' => hnot ((hlive e he).mpr h')⟩
  · rintro ⟨hexp, hnot⟩
    obtain ⟨e, he, rfl⟩ := (hmem h).mpr hexp
    exact ⟨e, ⟨he, fun h' => hnot ((hlive e he).mp h')⟩, rfl⟩

theorem mem_sparedList {r : Registry} {s : Sweep} {expired : List (Handle × Option Resource)}
    (hmem : ∀ h, (∃ e ∈ expired, e.1 = h) ↔ r.Expired s h)
    (hlive : ∀ e ∈ expired, isLivePeerConnection s.connected e.2 = true ↔ r.RootLive s e.1)
    (h : Handle) :
    h ∈ sparedList s.connected expired ↔ r.Expired s h ∧ r.RootLive s h := by
  unfold sparedList
  simp only [List.mem_map, List.mem_filter]
  constructor
  · rintro ⟨e, ⟨he, hyes⟩, rfl⟩
    exact ⟨(hmem e.1).mp ⟨e, he, rfl⟩, (hlive e he).mp hyes⟩
  · rintro ⟨hexp, hyes⟩
    obtain ⟨e, he, rfl⟩ := (hmem h).mpr hexp
    exact ⟨e, ⟨he, (hlive e he).mpr hyes⟩, rfl⟩

/-! ### The last pass -/

/-- The `k`-th touch of the last pass leaves every registered handle of its chain with a
stamp at most a second older than the readings it took. Induction on the list: the touches
before change no chain, and the ones after let stamps only grow. -/
theorem refresh_fresh :
    ∀ (spared : List Handle) (r r' : Registry) (clock : Nat → Nat → Int), r.Inv →
      r.refresh clock spared = some r' → ∀ k h, spared[k]? = some h → r.resources.Has h →
        ∀ t, (∀ i, t ≤ clock k i) → ∀ a, Anc r.parent.get a h → r.resources.Has a →
          ∃ st, r'.lastSeen.get a = some st ∧ t - second ≤ st := by
  intro spared
  induction spared with
  | nil =>
      intro r r' clock _ _ k h hk
      simp at hk
  | cons x xs ih =>
      intro r r' clock hi hr' k h hk hreg t ht a ha hareg
      obtain ⟨r₁, hrun₁, hst₁, hfresh⟩ := touch_spec hi x (clock 0)
      have hrest : r₁.refresh (fun k => clock (k + 1)) xs = some r' := by
        simpa [refresh, hrun₁] using hr'
      cases k with
      | zero =>
          have hxh : x = h := by simpa using hk
          subst hxh
          obtain ⟨st, hst⟩ := Option.ne_none_iff_exists'.mp ((hi.seen a).mp hareg)
          obtain ⟨st₁, hst₁', hle₁⟩ := hfresh t ht hreg a ha st hst
          obtain ⟨r₂, hrun₂, hst₂⟩ := refresh_spec xs r₁ (fun k => clock (k + 1)) (hst₁.inv hi)
          have heq : some r₂ = some r' := hrun₂.symm.trans hrest
          cases heq
          obtain ⟨st₂, hst₂', hle₂⟩ := hst₂.grow.get hst₁'
          exact ⟨st₂, hst₂', by omega⟩
      | succ k =>
          exact ih r₁ r' (fun k => clock (k + 1)) (hst₁.inv hi) hrest k h (by simpa using hk)
            (by rwa [hst₁.resources]) t ht a (by rwa [hst₁.parent]) (by rwa [hst₁.resources])

/-! ### The whole call -/

/-- The effect of an uninterrupted `Cleanup`. `removed` lists the handles that went, in the
order in which they were detached, which is also the order of the shutdown calls. `touched`
lists the expired handles that were spared, in the order in which the last pass touches them:
`s.clock k` are the readings in the touch of the `k`-th. -/
structure Cleaned (r : Registry) (s : Sweep) (removed : List Handle)
    (events : List CloseEvent) (r' : Registry) : Prop where
  reaped : ∀ x, x ∈ removed ↔ r.Reapable s x
  once : removed.Nodup
  descendantsFirst : removed.Pairwise fun x y => ¬ r.Below x y
  gone : ∀ x ∈ removed, r.resources.Has x ∧ r'.resources.get x = none ∧
    r'.parent.get x = none ∧ r'.children.get x = none ∧ r'.dcSendStates.get x = none ∧
    r'.lastSeen.get x = none
  kept : ∀ x, x ∉ removed → r'.resources.get x = r.resources.get x ∧
    r'.parent.get x = r.parent.get x ∧ r'.dcSendStates.get x = r.dcSendStates.get x ∧
    r'.children.get x = (r.children.get x).map fun kids => kids.filter (· ∉ removed)
  shutdown : events = removed.filterMap r.stateEvent ++ removed.filterMap r.closerEvent
  spared : ∀ x, r.RootLive s x → x ∉ removed
  refreshed : ∃ touched : List Handle,
    (∀ h, h ∈ touched ↔ r.Expired s h ∧ r.RootLive s h) ∧
    ∀ k h, touched[k]? = some h → ∀ t, (∀ i, t ≤ s.clock k i) →
      ∀ a, Anc r.parent.get a h → r.resources.Has a →
        ∃ st, r'.lastSeen.get a = some st ∧ t - second ≤ st

theorem Expired.has {r : Registry} (hi : r.Inv) {s : Sweep} {h : Handle}
    (hh : r.Expired s h) : r.resources.Has h := by
  obtain ⟨st, hst, -⟩ := hh
  exact (hi.seen h).mpr (by simp [GoMap.Has, hst])

/-- `Cleanup` ends, and removes the reapable handles only. -/
theorem cleanup_spec {r : Registry} (hi : r.Inv) (s : Sweep)
    (horder : r.lastSeen.Ranges s.order) :
    ∃ removed events r', r.cleanup s = some (events, r') ∧ Cleaned r s removed events r' := by
  obtain ⟨expired, hscan, hmem, hlive⟩ := scan_mem hi s horder
  obtain ⟨L, r₁, hreap, he, hL⟩ := reapLocked_spec hi (reapList s.connected expired)
  have hi₁ : r₁.Inv := hL.erased_inv hi he
  obtain ⟨r', hrefresh, hst⟩ := refresh_spec (sparedList s.connected expired) r₁ s.clock hi₁
  -- The cascades of the list give exactly the reapable handles.
  have hexact : ∀ x, x ∈ L ↔ r.Reapable s x := by
    intro x
    rw [hL.mem]
    constructor
    · rintro ⟨⟨h, hh, -, hanc⟩, -⟩
      obtain ⟨hexp, hnot⟩ := (mem_reapList hmem hlive h).mp hh
      exact ⟨h, hanc, hexp, hnot⟩
    · rintro ⟨h, hanc, hexp, hnot⟩
      exact ⟨⟨h, (mem_reapList hmem hlive h).mpr ⟨hexp, hnot⟩, hexp.has hi, hanc⟩, by simp⟩
  have hprotected : ∀ x, r.RootLive s x → x ∉ L := by
    intro x hx hxL
    exact hx.not_reapable ((hexact x).mp hxL)
  refine ⟨L, closeCollected (r.gather L), r', ?_, hexact, hL.nodup, hL.descendantsFirst hi,
    ?_, ?_, closeCollected_gather r L, hprotected, ?_⟩
  · rw [cleanup_eq hscan, hreap]
    simp [hrefresh]
  · intro x hx
    obtain ⟨h, hanc, hexp, -⟩ := (hexact x).mp hx
    have hseen : r₁.lastSeen.get x = none := by rw [he.lastSeen, if_pos hx]
    refine ⟨hi.has_of_anc (hexp.has hi) hanc, ?_, ?_, ?_, ?_, ?_⟩
    · rw [hst.resources, he.resources, if_pos hx]
    · rw [hst.parent, he.parent, if_pos hx]
    · rw [hst.children, he.children, if_pos (Or.inr hx)]
    · rw [hst.dcSendStates, he.dcSendStates, if_pos hx]
    · have hgrow := hst.grow x
      rw [hseen] at hgrow
      exact hgrow
  · intro x hx
    refine ⟨?_, ?_, ?_, ?_⟩
    · rw [hst.resources, he.resources, if_neg hx]
    · rw [hst.parent, he.parent, if_neg hx]
    · rw [hst.dcSendStates, he.dcSendStates, if_neg hx]
    · rw [hst.children, he.children, if_neg (by simpa using hx)]
  · refine ⟨sparedList s.connected expired, mem_sparedList hmem hlive, ?_⟩
    intro k h hk t ht a ha hareg
    obtain ⟨hexp, hroot⟩ := (mem_sparedList hmem hlive h).mp (List.mem_of_getElem? hk)
    -- The chain of a spared handle is under the same live root, so it is still there.
    have hparent : ∀ x, r.RootLive s x → r₁.parent.get x = r.parent.get x := by
      intro x hx
      rw [he.parent, if_neg (hprotected x hx)]
    have hhas : ∀ x, r.RootLive s x → r.resources.Has x → r₁.resources.Has x := by
      intro x hx hreg
      exact he.has_iff.mpr ⟨hprotected x hx, hreg⟩
    have hchain : ∀ a, Anc r.parent.get a h → Anc r₁.parent.get a h := by
      intro a ha
      induction ha with
      | refl => exact Anc.refl h
      | tail hup hstep ih =>
          refine Relation.ReflTransGen.tail ih ?_
          exact (hparent _ (hroot.of_anc hup)).trans hstep
    exact refresh_fresh (sparedList s.connected expired) r₁ r' s.clock hi₁ hrefresh k h hk
      (hhas h hroot (hexp.has hi)) t ht a (hchain a ha) (hhas a (hroot.of_anc ha) hareg)

end Registry

/-- In every reachable state, for every sweep time, age, liveness and visiting order: an
uninterrupted `Cleanup` ends, and it removes exactly the reapable handles, spares everything
under a live root, refreshes the chains of the expired handles it spared, and closes
descendants before their ancestors. -/
theorem cleanup_removes_exactly_the_reapable (w : RegistryWorld)
    (hw : registrySystem.Reachable w) (s : Registry.Sweep)
    (horder : w.reg.lastSeen.Ranges s.order) :
    ∃ removed events r', w.reg.cleanup s = some (events, r') ∧
      w.reg.Cleaned s removed events r' :=
  Registry.cleanup_spec (worldInv_of_reachable hw).reg s horder

/-- A connected and a failed PeerConnection, each with an idle channel. -/
theorem cleanup_removes_exactly_the_reapable_mixed :
    ∃ w s events r', registrySystem.Reachable w ∧ w.reg.lastSeen.Ranges s.order ∧
      w.reg.cleanup s = some (events, r') ∧ r'.resources.get "dc2" = none ∧
      r'.resources.Has "dc1" := by
  let ops : List RegistryOp := [.register ⟨.peerConnection, 1⟩ "pc1" 0,
    .registerChild ⟨.dataChannel, 3⟩ "pc1" "dc1" 0, .register ⟨.peerConnection, 2⟩ "pc2" 0,
    .registerChild ⟨.dataChannel, 4⟩ "pc2" "dc2" 0]
  let s : Registry.Sweep := ⟨2 * second, 3 * second, ["dc2", "pc1", "dc1", "pc2"], (· == 1),
    fun _ _ => 3 * second⟩
  have hrun : (registrySystem.run registrySystem.init
      ops).isSome := by decide
  obtain ⟨w, hw⟩ := Option.isSome_iff_exists.mp hrun
  have hreach := StepSystem.reachable_of_run hw
  have hfacts : (registrySystem.run registrySystem.init
      ops).all (fun w => decide (w.reg.lastSeen.Ranges s.order ∧
        w.reg.resources.get "pc1" = some ⟨.peerConnection, 1⟩ ∧
        w.reg.resources.get "pc2" = some ⟨.peerConnection, 2⟩ ∧
        w.reg.resources.get "dc1" = some ⟨.dataChannel, 3⟩ ∧
        w.reg.parent.get "dc1" = some "pc1" ∧ w.reg.parent.get "dc2" = some "pc2" ∧
        w.reg.parent.get "pc1" = none ∧ w.reg.parent.get "pc2" = none ∧
        w.reg.lastSeen.get "pc2" = some 0)) = true := by decide
  rw [hw] at hfacts
  simp only [Option.all_some, decide_eq_true_eq] at hfacts
  obtain ⟨horder, hpc1, hpc2, hdc1, hup1, hup2, htop1, htop2, hseen⟩ := hfacts
  obtain ⟨removed, events, r', hclean, hspec⟩ :=
    cleanup_removes_exactly_the_reapable w hreach s horder
  refine ⟨w, s, events, r', hreach, horder, hclean, ?_, ?_⟩
  · -- The chain of `dc2` ends at `pc2`, which is expired and not connected.
    refine (hspec.gone "dc2" ((hspec.reaped "dc2").mpr ⟨"pc2", Anc.of_parent hup2,
      ⟨0, hseen, by decide⟩, ?_⟩)).2.1
    rintro ⟨root, hroot, hlive⟩
    rw [hroot.1.eq_of_none htop2, hpc2] at hlive
    exact absurd hlive (by decide)
  · have hlive : w.reg.RootLive s "dc1" :=
      ⟨"pc1", ⟨Anc.of_parent hup1, htop1⟩, by rw [hpc1]; rfl⟩
    unfold GoMap.Has
    rw [(hspec.kept "dc1" (hspec.spared "dc1" hlive)).1, hdc1]
    simp

end PionBridge.Server
