import PionBridge.Proofs.Registry.Collect

/-!
# `PionBridge.Proofs.Registry.Stamps`: following parents and refreshing stamps

The two loops that follow `parent` end in every registry that keeps the invariant, and
`chaseChain_spec` and `chaseRoot_spec` say what they return: the handles strictly above the
start, and the end of the chain.

`Restamped r r'` says what the operations that only refresh stamps do to the registry. The
other four maps stay, the keys of `lastSeen` stay, and no stamp goes down. A stamp can only
go up because `touchStamp` stores a reading only when it is later than the stamp.
`touch_spec` adds what a call of `Touch` guarantees: each registered handle on the chain is
left with a stamp at most a second older than the reading of its own `touchStamp` call.
-/

set_option autoImplicit false

namespace PionBridge.Server

open PionBridge.Lib
open PionBridge.Lib.Forest

namespace Registry

/-! ### The loops -/

/-- The loop of `Touch` collects the handles strictly above its start. Induction on the
fuel, with a depth that falls along each step up. -/
theorem chaseChain_of_depth {parent : GoMap Handle Handle} {d : Handle → Nat}
    (hd : ∀ x p, parent.get x = some p → d p < d x) :
    ∀ (fuel : Nat) (h : Handle), d h < fuel →
      ∃ chain, chaseChain parent fuel h = some chain ∧
        ∀ x, x ∈ chain ↔ Above parent.get x h := by
  intro fuel
  induction fuel with
  | zero =>
      intro h hlt
      omega
  | succ fuel ih =>
      intro h hlt
      cases hp : parent.get h with
      | none =>
          refine ⟨[], by simp [chaseChain, hp], fun x => ?_⟩
          simp [above_iff, hp]
      | some p =>
          have hfuel : d p < fuel := by
            have := hd h p hp
            omega
          obtain ⟨chain, hchain, hmem⟩ := ih p hfuel
          refine ⟨p :: chain, by simp [chaseChain, hp, hchain], fun x => ?_⟩
          rw [List.mem_cons, hmem]
          constructor
          · rintro (rfl | hx)
            · exact Above.of_parent hp
            · exact hx.trans_anc (Anc.of_parent hp)
          · intro hx
            obtain ⟨q, hq, hx⟩ := above_iff.mp hx
            rw [hp] at hq
            cases Option.some.inj hq
            exact hx.eq_or_above

/-- The loop of `Cleanup` finds the end of the chain. -/
theorem chaseRoot_of_depth {parent : GoMap Handle Handle} {d : Handle → Nat}
    (hd : ∀ x p, parent.get x = some p → d p < d x) :
    ∀ (fuel : Nat) (h : Handle), d h < fuel →
      ∃ root, chaseRoot parent fuel h = some root ∧ Root parent.get root h := by
  intro fuel
  induction fuel with
  | zero =>
      intro h hlt
      omega
  | succ fuel ih =>
      intro h hlt
      cases hp : parent.get h with
      | none => exact ⟨h, by simp [chaseRoot, hp], Anc.refl h, hp⟩
      | some p =>
          have hfuel : d p < fuel := by
            have := hd h p hp
            omega
          obtain ⟨root, hroot, hr⟩ := ih p hfuel
          exact ⟨root, by simp [chaseRoot, hp, hroot], hr.trans_anc (Anc.of_parent hp)⟩

/-- The fuel of the operations is above the depth of every handle. -/
theorem Inv.exists_depth {r : Registry} (hi : r.Inv) :
    ∃ d : Handle → Nat, (∀ x p, r.parent.get x = some p → d p < d x) ∧
      ∀ x, d x < r.fuel := by
  obtain ⟨d, hd, hle⟩ := Forest.exists_depth r.parent.keys
    (fun x p hp => GoMap.mem_keys_iff.mpr (by simp [GoMap.Has, hp])) hi.acyclic
  exact ⟨d, hd, fun x => Nat.lt_succ_of_le (hle x)⟩

theorem chaseChain_spec {r : Registry} (hi : r.Inv) (h : Handle) :
    ∃ chain, chaseChain r.parent r.fuel h = some chain ∧
      ∀ x, x ∈ chain ↔ Above r.parent.get x h := by
  obtain ⟨d, hd, hlt⟩ := hi.exists_depth
  exact chaseChain_of_depth hd r.fuel h (hlt h)

theorem chaseRoot_spec {r : Registry} (hi : r.Inv) (h : Handle) :
    ∃ root, chaseRoot r.parent r.fuel h = some root ∧ Root r.parent.get root h := by
  obtain ⟨d, hd, hlt⟩ := hi.exists_depth
  exact chaseRoot_of_depth hd r.fuel h (hlt h)

/-! ### One stamp -/

theorem le_touchStamp (now st : Int) : st ≤ touchStamp now st := by
  unfold touchStamp second
  split <;> omega

theorem now_le_touchStamp (now st : Int) : now - second ≤ touchStamp now st := by
  unfold touchStamp
  have h : (0 : Int) < second := by decide
  split <;> omega

/-- `m'` has the keys of `m`, and no stamp went down. -/
def StampsGrow (m m' : GoMap Handle Int) : Prop :=
  ∀ x, match m.get x with
    | none => m'.get x = none
    | some st => ∃ st', m'.get x = some st' ∧ st ≤ st'

theorem StampsGrow.refl (m : GoMap Handle Int) : StampsGrow m m := by
  intro x
  cases hx : m.get x with
  | none => rfl
  | some st => exact ⟨st, rfl, le_rfl⟩

theorem StampsGrow.get {m m' : GoMap Handle Int} (h : StampsGrow m m') {x : Handle}
    {st : Int} (hx : m.get x = some st) : ∃ st', m'.get x = some st' ∧ st ≤ st' := by
  have := h x
  rw [hx] at this
  exact this

theorem StampsGrow.trans {m m' m'' : GoMap Handle Int} (h : StampsGrow m m')
    (h' : StampsGrow m' m'') : StampsGrow m m'' := by
  intro x
  have hx := h x
  cases hm : m.get x with
  | none =>
      rw [hm] at hx
      have hx' := h' x
      rw [show m'.get x = none from hx] at hx'
      exact hx'
  | some st =>
      obtain ⟨st', hst', hle⟩ := h.get hm
      obtain ⟨st'', hst'', hle'⟩ := h'.get hst'
      exact ⟨st'', hst'', hle.trans hle'⟩

theorem StampsGrow.has_iff {m m' : GoMap Handle Int} (h : StampsGrow m m') (x : Handle) :
    m'.Has x ↔ m.Has x := by
  have hx := h x
  unfold GoMap.Has
  cases hm : m.get x with
  | none =>
      rw [hm] at hx
      simp [show m'.get x = none from hx]
  | some st =>
      obtain ⟨st', hst', -⟩ := h.get hm
      simp [hst']

theorem stampsGrow_touchEntry (m : GoMap Handle Int) (now : Int) (h : Handle) :
    StampsGrow m (touchEntry m now h) := by
  intro x
  unfold touchEntry
  cases hh : m.get h with
  | none => exact StampsGrow.refl m x
  | some st =>
      by_cases hx : x = h
      · subst hx
        simp only [hh, GoMap.get_set_self]
        exact ⟨_, rfl, le_touchStamp now st⟩
      · simp only [GoMap.get_set_of_ne _ _ hx]
        exact StampsGrow.refl m x

/-- The stamp of the touched handle itself. -/
theorem touchEntry_self {m : GoMap Handle Int} {h : Handle} {st : Int} (now : Int)
    (hh : m.get h = some st) : (touchEntry m now h).get h = some (touchStamp now st) := by
  simp [touchEntry, hh]

/-! ### A list of stamps -/

theorem stampsGrow_touchAll :
    ∀ (hs : List Handle) (m : GoMap Handle Int) (clock : Nat → Int),
      StampsGrow m (touchAll m clock hs) := by
  intro hs
  induction hs with
  | nil =>
      intro m clock
      exact StampsGrow.refl m
  | cons h hs ih =>
      intro m clock
      exact (stampsGrow_touchEntry m (clock 0) h).trans (ih _ _)

/-- Every handle of the list that has a stamp is left with one at most a second older than
the earliest reading. Induction on the list: the head is refreshed first, and the later
calls let its stamp only grow. -/
theorem touchAll_fresh (t : Int) :
    ∀ (hs : List Handle) (m : GoMap Handle Int) (clock : Nat → Int),
      (∀ i, t ≤ clock i) → ∀ x ∈ hs, ∀ st, m.get x = some st →
        ∃ st', (touchAll m clock hs).get x = some st' ∧ t - second ≤ st' := by
  intro hs
  induction hs with
  | nil =>
      intro m clock _ x hx
      simp at hx
  | cons h hs ih =>
      intro m clock hclock x hx st hst
      rcases List.mem_cons.mp hx with rfl | hx
      -- The head may occur again in the rest. A second store does not lower its stamp.
      · have hself := touchEntry_self (clock 0) hst
        obtain ⟨st', hst', hle⟩ := (stampsGrow_touchAll hs (touchEntry m (clock 0) x)
          (fun i => clock (i + 1))).get hself
        refine ⟨st', hst', ?_⟩
        have h0 := hclock 0
        have hnow := now_le_touchStamp (clock 0) st
        omega
      · obtain ⟨st₁, hst₁, -⟩ := (stampsGrow_touchEntry m (clock 0) h).get hst
        exact ih _ _ (fun i => hclock (i + 1)) x hx st₁ hst₁

/-! ### `Touch` and `Lookup` -/

/-- `r'` differs from `r` in its stamps only, and no stamp went down. -/
structure Restamped (r r' : Registry) : Prop where
  resources : r'.resources = r.resources
  parent : r'.parent = r.parent
  children : r'.children = r.children
  dcSendStates : r'.dcSendStates = r.dcSendStates
  grow : StampsGrow r.lastSeen r'.lastSeen

theorem Restamped.refl (r : Registry) : Restamped r r :=
  ⟨rfl, rfl, rfl, rfl, StampsGrow.refl _⟩

theorem Restamped.trans {r r' r'' : Registry} (h : Restamped r r') (h' : Restamped r' r'') :
    Restamped r r'' :=
  ⟨h'.resources.trans h.resources, h'.parent.trans h.parent, h'.children.trans h.children,
    h'.dcSendStates.trans h.dcSendStates, h.grow.trans h'.grow⟩

/-- Refreshing stamps keeps the invariant, which reads only the keys of `lastSeen`. -/
theorem Restamped.inv {r r' : Registry} (h : Restamped r r') (hi : r.Inv) : r'.Inv where
  seen x := by rw [h.resources, h.grow.has_iff, hi.seen]
  child c p := by
    unfold kids
    rw [h.parent, h.children]
    exact hi.child c p
  nodup p := by
    unfold kids
    rw [h.children]
    exact hi.nodup p
  owned c := by
    rw [h.parent, h.resources]
    exact hi.owned c
  acyclic := by
    rw [h.parent]
    exact hi.acyclic

theorem lookup_restamped (r : Registry) (h : Handle) (now : Int) :
    Restamped r (r.lookup h now).2 := by
  unfold lookup
  cases r.resources.get h with
  | none => exact Restamped.refl r
  | some res => exact ⟨rfl, rfl, rfl, rfl, stampsGrow_touchEntry _ _ _⟩

/-- `Touch` ends. It refreshes stamps only, and when the handle is registered, every
registered handle on its chain is left with a stamp at most a second older than the
readings of the call. -/
theorem touch_spec {r : Registry} (hi : r.Inv) (h : Handle) (clock : Nat → Int) :
    ∃ r', r.touch h clock = some r' ∧ Restamped r r' ∧
      ∀ t, (∀ i, t ≤ clock i) → r.resources.Has h → ∀ a, Anc r.parent.get a h →
        ∀ st, r.lastSeen.get a = some st →
          ∃ st', r'.lastSeen.get a = some st' ∧ t - second ≤ st' := by
  cases hh : r.lastSeen.get h with
  | none =>
      refine ⟨r, by simp [touch, hh], Restamped.refl r, ?_⟩
      intro t _ hreg
      exact absurd hh ((hi.seen h).mp hreg)
  | some st₀ =>
      obtain ⟨chain, hchain, hmem⟩ := chaseChain_spec hi h
      refine ⟨{ r with lastSeen := touchAll r.lastSeen clock (h :: chain) },
        by simp [touch, hh, hchain], ⟨rfl, rfl, rfl, rfl, stampsGrow_touchAll _ _ _⟩, ?_⟩
      intro t hclock _ a ha st hst
      refine touchAll_fresh t (h :: chain) r.lastSeen clock hclock a ?_ st hst
      rcases ha.eq_or_above with rfl | ha
      · exact List.mem_cons_self
      · exact List.mem_cons_of_mem _ ((hmem a).mpr ha)

end Registry

end PionBridge.Server
