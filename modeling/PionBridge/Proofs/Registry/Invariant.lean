import PionBridge.Proofs.Registry.Stamps

/-!
# `PionBridge.Proofs.Registry.Invariant`: every operation keeps the maps consistent

`Inv` holds in every state that a sequence of operations reaches from `NewRegistry`, and no
operation runs out of fuel. `WorldInv` is what the induction carries. Beside `Inv` it
records that every registered handle and every parent string is among the strings used, so
that a generated handle is new to all five maps. A cycle cannot close: the new handle points
to its parent, but nothing points to the new handle.

`apply_spec` is the step lemma, one case for each operation, and `worldInv_of_reachable` the
run lemma.
-/

set_option autoImplicit false

namespace PionBridge.Server

open PionBridge.Lib
open PionBridge.Lib.Forest

namespace Registry

theorem inv_new : Registry.new.Inv where
  seen h := by simp [Registry.new, GoMap.Has]
  child c p := by simp [Registry.new, kids]
  nodup p := by simp [Registry.new, kids]
  owned c hc := by simp [Registry.new, GoMap.Has] at hc
  acyclic x hx := by
    obtain ⟨p, hp, -⟩ := above_iff.mp hx
    simp [Registry.new] at hp

/-- Removing a set of handles that contains the children of its members keeps the
invariant. -/
theorem Erased.inv {r₀ r : Registry} {X : List Handle} (hi : r₀.Inv)
    (he : Erased r₀ [] X r) (hX : r₀.DownClosed X) : r.Inv where
  seen h := by
    have hs := hi.seen h
    unfold GoMap.Has at hs ⊢
    rw [he.resources, he.lastSeen]
    by_cases hh : h ∈ X
    · simp [hh]
    · simpa [hh] using hs
  child c p := by
    unfold kids
    rw [he.parent, he.children]
    by_cases hc : c ∈ X
    · by_cases hp : p ∈ X
      · simp [hc, hp]
      · cases r₀.children.get p <;> simp [hc, hp]
    · by_cases hp : p ∈ X
      · -- A removed parent took its children along, so `c` is none of them.
        have hne : r₀.parent.get c ≠ some p := fun h => hc (hX p hp c h)
        simp [hc, hp, hne]
      · have hchild := hi.child c p
        unfold kids at hchild
        rw [if_neg hc, if_neg (by simpa using hp), hchild]
        cases r₀.children.get p <;> simp [hc]
  nodup p := by
    unfold kids
    rw [he.children]
    by_cases hp : p ∈ X
    · simp [hp]
    · have hnd := hi.nodup p
      unfold kids at hnd
      rw [if_neg (by simpa using hp)]
      cases hk : r₀.children.get p with
      | none => simp
      | some ks =>
          rw [hk] at hnd
          exact List.Nodup.filter _ hnd
  owned c hc := by
    unfold GoMap.Has at hc ⊢
    rw [he.parent] at hc
    rw [he.resources]
    by_cases hcX : c ∈ X
    · simp [hcX] at hc
    · rw [if_neg hcX] at hc ⊢
      exact hi.owned c hc
  acyclic := by
    refine hi.acyclic.mono ?_
    intro x p hp
    rw [he.parent] at hp
    by_cases hx : x ∈ X
    · simp [hx] at hp
    · rwa [if_neg hx] at hp

/-- A handle that no map knows: it is not registered and nobody's parent. -/
structure Fresh (r : Registry) (handle : Handle) : Prop where
  unregistered : r.resources.get handle = none
  childless : ∀ c, r.parent.get c ≠ some handle

theorem Fresh.parentless {r : Registry} {handle : Handle} (hf : r.Fresh handle)
    (hi : r.Inv) : r.parent.get handle = none := by
  by_contra hp
  exact hi.owned handle hp hf.unregistered

theorem register_inv {r : Registry} (hi : r.Inv) (resource : Resource) (handle : Handle)
    (now : Int) : (r.register resource handle now).Inv where
  seen h := by
    show (r.resources.set handle resource).Has h ↔ (r.lastSeen.set handle now).Has h
    rw [GoMap.has_set, GoMap.has_set, hi.seen h]
  child := hi.child
  nodup := hi.nodup
  -- Links are as before, and every resource is still there.
  owned c hc := (hi.owned c hc).set handle resource
  acyclic := hi.acyclic

theorem registerChild_inv {r : Registry} (hi : r.Inv) {parentHandle handle : Handle}
    (hf : r.Fresh handle) (hne : handle ≠ parentHandle) (resource : Resource) (now : Int) :
    (r.registerChild resource parentHandle handle now).Inv where
  seen h := by
    show (r.resources.set handle resource).Has h ↔ (r.lastSeen.set handle now).Has h
    rw [GoMap.has_set, GoMap.has_set, hi.seen h]
  child c p := by
    have hchild := hi.child c p
    unfold kids at hchild ⊢
    simp only [registerChild, newStampLocked, GoMap.get_set]
    by_cases hc : c = handle
    · -- The new link, and no other list knows the new handle.
      subst hc
      have hnot : c ∉ (r.children.get p).getD [] := by
        rw [← hchild, hf.parentless hi]
        simp
      by_cases hp : p = parentHandle
      · subst hp
        simp
      · simp [hp, Ne.symm hp, hnot]
    · by_cases hp : p = parentHandle
      · subst hp
        simp [hc, hchild]
      · simp [hc, hp, hchild]
  nodup p := by
    have hnd := hi.nodup p
    have hchild := hi.child handle p
    unfold kids at hnd hchild ⊢
    simp only [registerChild, newStampLocked, GoMap.get_set]
    by_cases hp : p = parentHandle
    · subst hp
      have hnot : handle ∉ (r.children.get p).getD [] := by
        rw [← hchild, hf.parentless hi]
        simp
      simp only [if_true, Option.getD_some]
      rw [List.nodup_append']
      refine ⟨hnd, List.nodup_singleton handle, ?_⟩
      intro x hx hx'
      rw [List.mem_singleton] at hx'
      exact hnot (hx' ▸ hx)
    · simpa [hp] using hnd
  owned c hc := by
    have hc : (r.parent.set handle parentHandle).Has c := hc
    show (r.resources.set handle resource).Has c
    rw [GoMap.has_set] at hc ⊢
    exact hc.imp_right (hi.owned c)
  acyclic := by
    refine hi.acyclic.add (x := handle) (p := parentHandle) ?_ ?_ hf.childless hne
    · simp [registerChild, newStampLocked]
    · intro y hy
      simp [registerChild, newStampLocked, GoMap.get_set_of_ne _ _ hy]

/-- The send-state table is no part of the invariant. -/
theorem Inv.of_dcSendStates {r : Registry} (hi : r.Inv) (m : GoMap Handle StateRef) :
    Inv { r with dcSendStates := m } :=
  ⟨hi.seen, hi.child, hi.nodup, hi.owned, hi.acyclic⟩

/-! ### `Delete` and `Cleanup` -/

/-- The write-locked pass over any list of handles: it ends, and it sweeps the list. -/
theorem reapLocked_spec {r : Registry} (hi : r.Inv) (reap : List Handle) :
    ∃ L r', reapLocked r.fuel r reap = some (r', r.gather L) ∧ Erased r [] L r' ∧
      Swept r [] reap L := by
  obtain ⟨L, r', hrun, he, hL⟩ := foldlM_collectLocked_spec reap (fun h _ => hi.collectSpec h)
    [] [] r {} (erased_refl r) (fun x hx => by simp at hx) (by simp)
  exact ⟨L, r', by simpa [reapLocked] using hrun, by simpa using he, hL⟩

theorem Swept.erased_inv {r r' : Registry} {hs L : List Handle} (hi : r.Inv)
    (hL : Swept r [] hs L) (he : Erased r [] L r') : r'.Inv :=
  he.inv hi hL.downClosed_nil

/-- The write-locked pass of `Delete` ends. On a handle that is not registered it returns the
error and changes nothing, and otherwise it sweeps the handle. -/
theorem deleteLocked_spec {r : Registry} (hi : r.Inv) (h : Handle) :
    (r.resources.get h = none ∧
      r.deleteLocked h = some (.error ("handle not found: " ++ h), r)) ∨
    (r.resources.Has h ∧ ∃ L r', r.deleteLocked h = some (.ok (r.gather L), r') ∧
      Erased r [] L r' ∧ Swept r [] [h] L) := by
  cases hh : r.resources.get h with
  | none => exact Or.inl ⟨rfl, by simp [deleteLocked, hh]⟩
  | some res =>
      obtain ⟨L, r', hrun, he, hL⟩ := hi.collectSpec h [] [] r {} (erased_refl r)
        (fun x hx => by simp at hx) (by simp)
      refine Or.inr ⟨by simp [GoMap.Has, hh], L, r', ?_, by simpa using he, hL⟩
      simp [deleteLocked, hh, hrun]

/-- The same for the whole call. -/
theorem delete_spec {r : Registry} (hi : r.Inv) (h : Handle) :
    (r.resources.get h = none ∧
      r.delete h = some (.error ("handle not found: " ++ h), r)) ∨
    (r.resources.Has h ∧ ∃ L r',
      r.delete h = some (.ok (closeCollected (r.gather L)), r') ∧
      Erased r [] L r' ∧ Swept r [] [h] L) := by
  rcases deleteLocked_spec hi h with ⟨hh, hrun⟩ | ⟨hh, L, r', hrun, he, hL⟩
  · exact Or.inl ⟨hh, by rw [delete, hrun]; rfl⟩
  · exact Or.inr ⟨hh, L, r', by rw [delete, hrun]; rfl, he, hL⟩

/-- The read-locked pass ends. It returns the expired handles in visiting order, each with
the resource at the end of its chain. -/
theorem scan_spec {r : Registry} (hi : r.Inv) (maxAge now : Int) :
    ∀ order : List Handle, ∃ expired, r.scan maxAge now order = some expired ∧
      expired.map (·.1) = order.filter (fun h =>
        match r.lastSeen.get h with
        | none => false
        | some st => decide (maxAge < now - st)) ∧
      ∀ e ∈ expired, ∃ root, Root r.parent.get root e.1 ∧ e.2 = r.resources.get root := by
  intro order
  induction order with
  | nil => exact ⟨[], rfl, rfl, by simp⟩
  | cons h hs ih =>
      obtain ⟨expired, hrun, hmap, hroot⟩ := ih
      cases hst : r.lastSeen.get h with
      | none => exact ⟨expired, by simp [scan, hst, hrun], by simp [hmap, hst], hroot⟩
      | some st =>
          by_cases hage : now - st ≤ maxAge
          · refine ⟨expired, by simp [scan, hst, hage, hrun], ?_, hroot⟩
            have hnot : ¬ maxAge < now - st := by omega
            simp [hmap, hst, hnot]
          · obtain ⟨root, hchase, hr⟩ := chaseRoot_spec hi h
            refine ⟨(h, r.resources.get root) :: expired,
              by simp [scan, hst, hage, hchase, hrun], ?_, ?_⟩
            · have hlt : maxAge < now - st := by omega
              simp [hmap, hst, hlt]
            · intro e he
              rcases List.mem_cons.mp he with rfl | he
              · exact ⟨root, hr, rfl⟩
              · exact hroot e he

/-- What the scan returns for one handle: it is registered, and the resource is the one at the
end of its chain. -/
theorem scan_entry {r : Registry} (hi : r.Inv) {maxAge now : Int} {order : List Handle}
    {expired : List (Handle × Option Resource)} (h : r.scan maxAge now order = some expired)
    {e : Handle × Option Resource} (he : e ∈ expired) :
    r.resources.Has e.1 ∧ ∃ root, Root r.parent.get root e.1 ∧ e.2 = r.resources.get root := by
  obtain ⟨expired', hscan, hmap, hroot⟩ := scan_spec hi maxAge now order
  have heq : some expired' = some expired := hscan.symm.trans h
  cases heq
  refine ⟨(hi.seen e.1).mpr fun hnone => ?_, hroot e he⟩
  have hmem : e.1 ∈ expired.map (·.1) := List.mem_map_of_mem he
  rw [hmap, List.mem_filter, hnone] at hmem
  cases hmem.2

/-- The final pass of `Cleanup` ends and refreshes stamps only. -/
theorem refresh_spec :
    ∀ (spared : List Handle) (r : Registry) (clock : Nat → Nat → Int), r.Inv →
      ∃ r', r.refresh clock spared = some r' ∧ Restamped r r' := by
  intro spared
  induction spared with
  | nil =>
      intro r clock _
      exact ⟨r, rfl, Restamped.refl r⟩
  | cons h hs ih =>
      intro r clock hi
      obtain ⟨r₁, hrun₁, hst₁, -⟩ := touch_spec hi h (clock 0)
      obtain ⟨r₂, hrun₂, hst₂⟩ := ih r₁ (fun k => clock (k + 1)) (hst₁.inv hi)
      exact ⟨r₂, by simp [refresh, hrun₁, hrun₂], hst₁.trans hst₂⟩

/-- The early return of `Cleanup` on an empty scan agrees with running the other passes on
empty lists. -/
theorem cleanup_eq {r : Registry} {s : Sweep} {expired : List (Handle × Option Resource)}
    (hscan : r.scan s.maxAge s.now s.order = some expired) :
    r.cleanup s = (reapLocked r.fuel r (reapList s.connected expired)).bind fun reaped =>
      (reaped.1.refresh s.clock (sparedList s.connected expired)).map fun r =>
        (closeCollected reaped.2, r) := by
  cases expired with
  | nil => simp [cleanup, hscan, reapList, sparedList, reapLocked, refresh, closeCollected]
  | cons e es => simp [cleanup, hscan]

/-- `Cleanup` ends: it sweeps some of the handles and then refreshes stamps. -/
theorem cleanup_ends {r : Registry} (hi : r.Inv) (s : Sweep) :
    ∃ L r₁ r' events, r.cleanup s = some (events, r') ∧ Erased r [] L r₁ ∧
      r.DownClosed L ∧ Restamped r₁ r' := by
  obtain ⟨expired, hscan, -, -⟩ := scan_spec hi s.maxAge s.now s.order
  obtain ⟨L, r₁, hreap, he, hL⟩ := reapLocked_spec hi (reapList s.connected expired)
  have hdown : r.DownClosed L := hL.downClosed_nil
  obtain ⟨r₂, hrefresh, hst⟩ := refresh_spec (sparedList s.connected expired) r₁ s.clock
    (he.inv hi hdown)
  refine ⟨L, r₁, r₂, closeCollected (r.gather L), ?_, he, hdown, hst⟩
  rw [cleanup_eq hscan, hreap]
  simp [hrefresh]

/-- What any operation does to the registered handles, the links, the stamps and the
invariant, in a state where the generated handle is fresh. Handles and links that were there
before may go away, stamps may grow, and only a registration adds entries, for its handle,
which is the first of `op.uses`. -/
structure Evolved (r : Registry) (op : RegistryOp) (r' : Registry) : Prop where
  inv : r'.Inv
  handles : ∀ h, r'.resources.Has h → r.resources.Has h ∨ h ∈ op.uses.head?
  parents : ∀ c p, r'.parent.get c = some p → r.parent.get c = some p ∨
    (c ∈ op.uses.head? ∧ p ∈ op.uses)
  stamps : ∀ h st', r'.lastSeen.get h = some st' →
    (∃ st, r.lastSeen.get h = some st ∧ st ≤ st') ∨ h ∈ op.uses.head?

theorem Restamped.evolved {r r' : Registry} (h : Restamped r r') (hi : r.Inv)
    (op : RegistryOp) : Evolved r op r' where
  inv := h.inv hi
  handles x hx := Or.inl (by rwa [h.resources] at hx)
  parents c p hp := Or.inl (by rwa [h.parent] at hp)
  stamps x st' hst' := by
    have hx := h.grow x
    cases hst : r.lastSeen.get x with
    | none =>
        rw [hst] at hx
        rw [show r'.lastSeen.get x = none from hx] at hst'
        cases hst'
    | some st =>
        obtain ⟨st₁, hst₁, hle⟩ := h.grow.get hst
        have heq : some st₁ = some st' := hst₁.symm.trans hst'
        cases heq
        exact Or.inl ⟨st, rfl, hle⟩

theorem Erased.evolved {r r' : Registry} {X : List Handle} (he : Erased r [] X r')
    (hi : r.Inv) (hX : r.DownClosed X) (op : RegistryOp) : Evolved r op r' where
  inv := he.inv hi hX
  handles h hh := Or.inl (he.has_iff.mp hh).2
  parents c p hp := by
    rw [he.parent] at hp
    by_cases hx : c ∈ X
    · simp [hx] at hp
    · rw [if_neg hx] at hp
      exact Or.inl hp
  stamps h st hst := by
    rw [he.lastSeen] at hst
    by_cases hx : h ∈ X
    · simp [hx] at hst
    · rw [if_neg hx] at hst
      exact Or.inl ⟨st, hst, le_rfl⟩

/-- Two parts of one operation, the second of which adds no entry. -/
theorem Evolved.restamped {r r₁ r' : Registry} {op : RegistryOp} (h : Evolved r op r₁)
    (hst : Restamped r₁ r') : Evolved r op r' where
  inv := hst.inv h.inv
  handles x hx := h.handles x (by rwa [hst.resources] at hx)
  parents c p hp := h.parents c p (by rwa [hst.parent] at hp)
  stamps x st' hst' := by
    rcases (hst.evolved h.inv op).stamps x st' hst' with ⟨st₁, hst₁, hle₁⟩ | hx
    · rcases h.stamps x st₁ hst₁ with ⟨st, hst, hle⟩ | hx
      · exact Or.inl ⟨st, hst, hle.trans hle₁⟩
      · exact Or.inr hx
    · exact Or.inr hx

theorem Inv.evolved_dcSendStates {r : Registry} (hi : r.Inv) (m : GoMap Handle StateRef)
    (op : RegistryOp) : Evolved r op { r with dcSendStates := m } where
  inv := hi.of_dcSendStates m
  handles _ hh := Or.inl hh
  parents _ _ hp := Or.inl hp
  stamps _ st hst := Or.inl ⟨st, hst, le_rfl⟩

/-- The step lemma: every operation with admissible choices ends and keeps the invariant. -/
theorem apply_spec {r : Registry} (hi : r.Inv) (op : RegistryOp)
    (hfresh : ∀ h ∈ op.uses.head?, r.Fresh h)
    (hne : ∀ resource p h now, op = .registerChild resource p h now → h ≠ p) :
    ∃ r', r.apply op = some r' ∧ Evolved r op r' := by
  cases op with
  | register resource handle now =>
      refine ⟨_, rfl, register_inv hi resource handle now, ?_, fun c p hp => Or.inl hp, ?_⟩
      · intro h hh
        by_cases heq : h = handle
        · exact Or.inr (by simp [RegistryOp.uses, heq])
        · refine Or.inl ?_
          simpa [GoMap.Has, register, newStampLocked, GoMap.get_set_of_ne _ _ heq] using hh
      · intro h st' hst'
        by_cases heq : h = handle
        · exact Or.inr (by simp [RegistryOp.uses, heq])
        · refine Or.inl ⟨st', ?_, le_rfl⟩
          simpa [register, newStampLocked, GoMap.get_set_of_ne _ _ heq] using hst'
  | registerChild resource parentHandle handle now =>
      have hf := hfresh handle (by simp [RegistryOp.uses])
      refine ⟨_, rfl, registerChild_inv hi hf (hne _ _ _ _ rfl) resource now, ?_, ?_, ?_⟩
      · intro h hh
        by_cases heq : h = handle
        · exact Or.inr (by simp [RegistryOp.uses, heq])
        · refine Or.inl ?_
          simpa [GoMap.Has, registerChild, newStampLocked, GoMap.get_set_of_ne _ _ heq]
            using hh
      · intro c p hp
        by_cases heq : c = handle
        · subst heq
          simp only [registerChild, newStampLocked, GoMap.get_set_self,
            Option.some.injEq] at hp
          exact Or.inr (by simp [RegistryOp.uses, hp])
        · simp only [registerChild, newStampLocked, GoMap.get_set_of_ne _ _ heq] at hp
          exact Or.inl hp
      · intro h st' hst'
        by_cases heq : h = handle
        · exact Or.inr (by simp [RegistryOp.uses, heq])
        · refine Or.inl ⟨st', ?_, le_rfl⟩
          simpa [registerChild, newStampLocked, GoMap.get_set_of_ne _ _ heq] using hst'
  | registerDCSendState handle state =>
      refine ⟨_, rfl, ?_⟩
      unfold registerDCSendState
      cases r.dcSendStates.get handle with
      | none => exact hi.evolved_dcSendStates _ _
      | some _ => exact (Restamped.refl r).evolved hi _
  | removeDCSendState handle =>
      refine ⟨_, rfl, ?_⟩
      unfold removeDCSendState
      cases r.dcSendStates.get handle with
      | none => exact (Restamped.refl r).evolved hi _
      | some _ => exact hi.evolved_dcSendStates _ _
  | lookup handle now => exact ⟨_, rfl, (lookup_restamped r handle now).evolved hi _⟩
  | touch handle clock =>
      obtain ⟨r', hrun, hst, -⟩ := touch_spec hi handle clock
      exact ⟨r', hrun, hst.evolved hi _⟩
  | delete handle =>
      rcases delete_spec hi handle with ⟨-, hrun⟩ | ⟨-, L, r', hrun, he, hL⟩
      · exact ⟨r, by simp [Registry.apply, hrun], (Restamped.refl r).evolved hi _⟩
      · exact ⟨r', by simp [Registry.apply, hrun], he.evolved hi hL.downClosed_nil _⟩
  | cleanup s =>
      obtain ⟨L, r₁, r', events, hrun, he, hdown, hst⟩ := cleanup_ends hi s
      -- First the locked pass removes, then the last pass refreshes.
      have h₁ := he.evolved hi hdown (.cleanup s)
      exact ⟨r', by simp [Registry.apply, hrun], h₁.restamped hst⟩

end Registry

/-! ### Runs -/

/-- The invariant of the runs: the maps are consistent, and every registered handle and
every parent string is among the strings used. -/
structure WorldInv (w : RegistryWorld) : Prop where
  reg : w.reg.Inv
  handles : ∀ h, w.reg.resources.Has h → h ∈ w.used
  parents : ∀ c p, w.reg.parent.get c = some p → p ∈ w.used

theorem WorldInv.fresh {w : RegistryWorld} (hw : WorldInv w) {h : Handle}
    (hh : h ∉ w.used) : w.reg.Fresh h where
  unregistered := by
    by_contra hreg
    exact hh (hw.handles h hreg)
  childless c hc := hh (hw.parents c h hc)

/-- The chain of a registered handle was used before. An ancestor need not be registered, but it
was passed as a parent string. -/
theorem WorldInv.used_of_anc {w : RegistryWorld} (hw : WorldInv w) {a h : Handle}
    (hh : w.reg.resources.Has h) (ha : Anc w.reg.parent.get a h) : a ∈ w.used := by
  rcases ha.eq_or_above with rfl | habove
  · exact hw.handles a hh
  · obtain ⟨c, hc, -⟩ := above_iff_child.mp habove
    exact hw.parents c a hc

/-- What an operation does keeps the invariant, with its strings added to `used`. -/
theorem WorldInv.evolved {w : RegistryWorld} (hw : WorldInv w) {op : RegistryOp}
    {r' : Registry} (hev : Registry.Evolved w.reg op r') :
    WorldInv ⟨r', op.uses ++ w.used⟩ where
  reg := hev.inv
  handles h hh := by
    rcases hev.handles h hh with hh | hh
    · exact List.mem_append_right _ (hw.handles h hh)
    · exact List.mem_append_left _ (List.mem_of_mem_head? hh)
  parents c p hp := by
    rcases hev.parents c p hp with hp | ⟨-, hp⟩
    · exact List.mem_append_right _ (hw.parents c p hp)
    · exact List.mem_append_left _ hp

/-- The handle that an operation registers was not used before. -/
theorem RegistryOp.Admissible.fresh {w : RegistryWorld} {op : RegistryOp}
    (h : op.Admissible w) {x : Handle} (hx : x ∈ op.uses.head?) : x ∉ w.used := by
  cases op <;> simp [RegistryOp.uses] at hx
  · exact hx ▸ h
  · exact hx ▸ h.1

/-- Every step with admissible choices has a successor, and the successor keeps the
invariant. -/
theorem WorldInv.step {w : RegistryWorld} (hw : WorldInv w) (op : RegistryOp)
    (ht : op.Admissible w) :
    ∃ r', w.reg.apply op = some r' ∧ Registry.Evolved w.reg op r' ∧
      w.step op = some ⟨r', op.uses ++ w.used⟩ ∧
      WorldInv ⟨r', op.uses ++ w.used⟩ := by
  have hfresh : ∀ h ∈ op.uses.head?, w.reg.Fresh h := by
    intro h hh
    exact hw.fresh (ht.fresh hh)
  have hne : ∀ resource p h now, op = .registerChild resource p h now → h ≠ p := by
    intro resource p h now hop
    rw [hop] at ht
    exact ht.2
  obtain ⟨r', hrun, hev⟩ := Registry.apply_spec hw.reg op hfresh hne
  exact ⟨r', hrun, hev, by simp [RegistryWorld.step, ht, hrun], hw.evolved hev⟩

/-- Only steps with admissible choices have a successor. -/
theorem admissible_of_step {w w' : RegistryWorld} {op : RegistryOp} (h : w.step op = some w') :
    op.Admissible w := by
  by_contra hn
  simp [RegistryWorld.step, hn] at h

theorem WorldInv.of_step {w w' : RegistryWorld} {op : RegistryOp} (hw : WorldInv w)
    (h : w.step op = some w') : WorldInv w' := by
  obtain ⟨r', -, -, hstep, hw'⟩ := hw.step op (admissible_of_step h)
  rw [hstep] at h
  cases h
  exact hw'

theorem worldInv_of_steps {C : RegistryWorld → RegistryOp → Prop}
    {w w' : RegistryWorld} (hw : WorldInv w) (hsteps : registrySystem.StepsUnder C w w') :
    WorldInv w' := by
  refine hsteps.invariant hw ?_
  intro w op w' _ hw _ hstep
  exact hw.of_step hstep

/-- The run lemma. -/
theorem worldInv_of_reachable {w : RegistryWorld}
    (hw : registrySystem.Reachable w) : WorldInv w :=
  worldInv_of_steps ⟨Registry.inv_new, fun h hh => by simp [registrySystem, Registry.new,
    GoMap.Has] at hh, fun c p hp => by simp [registrySystem, Registry.new] at hp⟩ hw

/-- In every state that a sequence of operations reaches: `resources` and `lastSeen` have
the same keys; `parent[c] = p` exactly when `c` occurs in `children[p]`, and then it occurs
once; every key of `parent` is registered; and no handle is its own ancestor. The two loops
and the recursion end from every handle, and every operation with admissible choices ends. -/
theorem registry_maps_agree (w : RegistryWorld)
    (hw : registrySystem.Reachable w) :
    (∀ h, w.reg.resources.Has h ↔ w.reg.lastSeen.Has h) ∧
    (∀ c p, w.reg.parent.get c = some p ↔ c ∈ w.reg.kids p) ∧
    (∀ c p, c ∈ w.reg.kids p → (w.reg.kids p).count c = 1) ∧
    (∀ c, w.reg.parent.Has c → w.reg.resources.Has c) ∧
    (∀ h, ¬ Above w.reg.parent.get h h) ∧
    (∀ h, (Registry.chaseChain w.reg.parent w.reg.fuel h).isSome) ∧
    (∀ h, (Registry.chaseRoot w.reg.parent w.reg.fuel h).isSome) ∧
    (∀ h acc, (Registry.collectLocked w.reg.fuel w.reg h acc).isSome) ∧
    (∀ op : RegistryOp, op.Admissible w → (registrySystem.step w op).isSome) := by
  have hinv := worldInv_of_reachable hw
  have hi := hinv.reg
  refine ⟨hi.seen, hi.child, fun c p hc => List.count_eq_one_of_mem (hi.nodup p) hc, hi.owned,
    hi.acyclic, ?_, ?_, ?_, ?_⟩
  · intro h
    obtain ⟨chain, hchain, -⟩ := Registry.chaseChain_spec hi h
    simp [hchain]
  · intro h
    obtain ⟨root, hroot, -⟩ := Registry.chaseRoot_spec hi h
    simp [hroot]
  · intro h acc
    obtain ⟨L, r', hrun, -, -⟩ := hi.collectSpec h [] [] w.reg acc (Registry.erased_refl _)
      (fun x hx => by simp at hx) (by simp)
    simp [hrun]
  · intro op hop
    obtain ⟨r', -, -, hstep, -⟩ := hinv.step op hop
    simp [registrySystem, hstep]

/-- A PeerConnection, a channel under it, an orphan under a string that is no handle, and
the deletion of the channel. -/
theorem registry_maps_agree_after_delete :
    ∃ w, registrySystem.Reachable w ∧ w.reg.kids "pc" = [] ∧ w.reg.kids "gone" = ["dc2"] ∧
      (∀ c, w.reg.parent.Has c → w.reg.resources.Has c) := by
  let ops : List RegistryOp := [.register ⟨.peerConnection, 0⟩ "pc" 1,
    .registerChild ⟨.dataChannel, 1⟩ "pc" "dc1" 2,
    .registerChild ⟨.dataChannel, 2⟩ "gone" "dc2" 3, .delete "dc1"]
  have hrun : (registrySystem.run registrySystem.init
      ops).isSome := by decide
  obtain ⟨w, hw⟩ := Option.isSome_iff_exists.mp hrun
  have hreach := StepSystem.reachable_of_run hw
  refine ⟨w, hreach, ?_, ?_, (registry_maps_agree w hreach).2.2.2.1⟩
  · have h : (registrySystem.run registrySystem.init
        ops).map (fun w => w.reg.kids "pc") = some [] := by decide
    simpa [hw] using h
  · have h : (registrySystem.run registrySystem.init
        ops).map (fun w => w.reg.kids "gone") = some ["dc2"] := by
      decide
    simpa [hw] using h

end PionBridge.Server
