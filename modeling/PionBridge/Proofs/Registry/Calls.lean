import PionBridge.Proofs.Registry.Invariant
import PionBridge.Server.RegistryCalls

/-!
# `PionBridge.Proofs.Registry.Calls`: what a step of the interleavings does

`Moved` lists the four things that a step of `callSystem` can do to the registry and to the
shutdown calls: a whole operation, a collecting pass (of `Delete` or of `Cleanup`), one
shutdown call, or nothing but a refresh of stamps. `CallWorld.moved` reads this off the step
function once, and the invariants of the interleavings go by cases on it.
-/

set_option autoImplicit false

namespace PionBridge.Server

open PionBridge.Lib
open Registry

theorem left_withCall {w : CallWorld} {g : Goroutine} {pc : CallPc}
    (h : pc.left = (w.calls g).left) (g' : Goroutine) :
    ((w.withCall g pc).calls g').left = (w.calls g').left := by
  by_cases hg : g' = g
  · subst hg
    simpa [CallWorld.withCall] using h
  · simp [CallWorld.withCall, hg]

/-- The expired handles that a sweep has not judged yet. -/
def CallPc.todo : CallPc → List (Handle × Option Resource)
  | .judging todo _ _ => todo
  | _ => []

/-- The handles that a sweep has judged and is going to reap. -/
def CallPc.reaps : CallPc → List Handle
  | .judging _ reap _ => reap
  | _ => []

namespace CallWorld

/-- What one step can do. A collecting pass is made by a goroutine that has nothing left to
close, and it removes the handles `L`. -/
inductive Moved (w : CallWorld) (a : CallAction) : CallWorld → Prop
  | op (op : RegistryOp) (r' : Registry) (ha : a = .op op) (hatomic : op.isAtomic = true)
      (hadm : op.Admissible w.world) (hrun : w.reg.apply op = some r') :
      Moved w a { w with
        world := ⟨r', op.uses ++ w.world.used⟩
        registered := w.registered ++ op.registration }
  | collect (g : Goroutine) (hs L : List Handle) (r' : Registry) (spared : List Handle)
      (hg : (w.calls g).left = []) (he : Erased w.reg [] L r') (hL : Swept w.reg [] hs L)
      (ha : a = .reap g ∨ ∃ handle, a = .delete g handle) :
      Moved w a ((w.withReg r').withCall g
        (.closing (closeCollected (w.reg.gather L)) spared))
  | close (g : Goroutine) (e : CloseEvent) (left : List CloseEvent) (spared : List Handle)
      (hg : w.calls g = .closing (e :: left) spared) :
      Moved w a { w.withCall g (.closing left spared) with closed := w.closed ++ [e] }
  | quiet (w' : CallWorld) (hreg : Restamped w.reg w'.reg)
      (hused : w'.world.used = w.world.used)
      (hleft : ∀ g, (w'.calls g).left = (w.calls g).left) (hclosed : w'.closed = w.closed)
      (hregistered : w'.registered = w.registered) : Moved w a w'

/-- A step that changes the place of one goroutine, and no list of shutdown calls. -/
theorem Moved.place {w : CallWorld} {a : CallAction} {g : Goroutine} {pc : CallPc}
    (h : pc.left = (w.calls g).left) : Moved w a (w.withCall g pc) :=
  .quiet _ (Restamped.refl w.reg) rfl (left_withCall h) rfl rfl

/-- The steps, in cases. The registry has to be consistent for the loops to end. -/
theorem moved {w w' : CallWorld} {a : CallAction} (hi : w.reg.Inv) (h : w.step a = some w') :
    Moved w a w' := by
  have hsame : Moved w a w := .quiet w (Restamped.refl w.reg) rfl (fun _ => rfl) rfl rfl
  cases a with
  | op op =>
      simp only [CallWorld.step] at h
      split at h
      · rename_i hatomic
        obtain ⟨world, hstep, rfl⟩ := Option.map_eq_some_iff.mp h
        have hadm := admissible_of_step hstep
        rw [RegistryWorld.step, if_pos hadm] at hstep
        obtain ⟨r', hrun, rfl⟩ := Option.map_eq_some_iff.mp hstep
        exact .op op r' rfl hatomic hadm hrun
      · cases h
  | connection obj up =>
      cases h
      exact .quiet _ (Restamped.refl w.reg) rfl (fun _ => rfl) rfl rfl
  | delete g handle =>
      simp only [CallWorld.step] at h
      split at h
      · rename_i hg
        -- On an unknown handle the call returns its error at once.
        rcases deleteLocked_spec hi handle with ⟨-, hrun⟩ | ⟨-, L, r', hrun, he, hL⟩
        · rw [hrun] at h
          cases h
          exact hsame
        · rw [hrun] at h
          cases h
          exact .collect g [handle] L r' [] (by rw [hg]; rfl) he hL (.inr ⟨handle, rfl⟩)
      · cases h
  | scan g maxAge now order =>
      simp only [CallWorld.step] at h
      split at h
      · rename_i hg
        split at h
        · obtain ⟨expired, -, rfl⟩ := Option.map_eq_some_iff.mp h
          split
          · exact hsame
          · exact .place (by rw [hg]; rfl)
        · cases h
      · cases h
  | judge g =>
      simp only [CallWorld.step] at h
      split at h
      · rename_i hg
        split at h <;> cases h <;> exact .place (by rw [hg]; rfl)
      · cases h
  | reap g =>
      simp only [CallWorld.step] at h
      split at h
      · rename_i reap spared hg
        obtain ⟨L, r', hrun, he, hL⟩ := reapLocked_spec hi reap
        rw [hrun] at h
        cases h
        exact .collect g reap L r' spared (by rw [hg]; rfl) he hL (.inl rfl)
      · cases h
  | close g =>
      simp only [CallWorld.step] at h
      split at h
      · rename_i e left spared hg
        cases h
        exact .close g e left spared hg
      · cases h
  | refresh g clock =>
      simp only [CallWorld.step] at h
      split at h
      · rename_i handle spared hg
        obtain ⟨r', hrun, hst, -⟩ := touch_spec hi handle clock
        rw [hrun] at h
        cases h
        refine .quiet _ hst rfl (left_withCall (w := w.withReg r') ?_) rfl rfl
        show _ = (w.calls g).left
        rw [hg]
        rfl
      · cases h
  | ret g =>
      simp only [CallWorld.step] at h
      split at h
      · rename_i hg
        cases h
        exact .place (by rw [hg]; rfl)
      · cases h

/-! ### The lists of a sweep -/

/-- What one step can do to the place of the goroutine `g`, as far as a sweep is concerned. -/
inductive Placed (w : CallWorld) (a : CallAction) (g : Goroutine) : CallPc → Prop
  | same : Placed w a g (w.calls g)
  | out (pc : CallPc) (htodo : pc.todo = []) (hreaps : pc.reaps = []) : Placed w a g pc
  | scan (maxAge now : Int) (order : List Handle) (expired : List (Handle × Option Resource))
      (ha : a = .scan g maxAge now order)
      (hscan : w.reg.scan maxAge now order = some expired) :
      Placed w a g (.judging expired [] [])
  | spare (e : Handle × Option Resource) (todo : List (Handle × Option Resource))
      (reap spared : List Handle) (ha : a = .judge g)
      (hg : w.calls g = .judging (e :: todo) reap spared) :
      Placed w a g (.judging todo reap (spared ++ [e.1]))
  | condemn (e : Handle × Option Resource) (todo : List (Handle × Option Resource))
      (reap spared : List Handle) (ha : a = .judge g)
      (hg : w.calls g = .judging (e :: todo) reap spared)
      (hdead : isLivePeerConnection w.connected e.2 = false) :
      Placed w a g (.judging todo (reap ++ [e.1]) spared)

/-- A step of one goroutine leaves the places of the others alone. -/
theorem Placed.update {w : CallWorld} {a : CallAction} {g : Goroutine} {pc : CallPc}
    (h : Placed w a g pc) (g' : Goroutine) :
    Placed w a g' (Function.update w.calls g pc g') := by
  by_cases hg : g' = g
  · subst hg
    rwa [Function.update_self]
  · rw [Function.update_of_ne hg]
    exact .same

/-- The steps, by what they do to the connection states and to the places. -/
theorem placed {w w' : CallWorld} {a : CallAction} (h : w.step a = some w') :
    (w'.connected = w.connected ∨ ∃ obj up, a = .connection obj up ∧
      w'.connected = Function.update w.connected obj up) ∧
    ∀ g, Placed w a g (w'.calls g) := by
  cases a with
  | op op =>
      simp only [CallWorld.step] at h
      split at h
      · obtain ⟨world, -, rfl⟩ := Option.map_eq_some_iff.mp h
        exact ⟨Or.inl rfl, fun _ => .same⟩
      · cases h
  | connection obj up =>
      cases h
      exact ⟨Or.inr ⟨obj, up, rfl, rfl⟩, fun _ => .same⟩
  | delete g handle =>
      simp only [CallWorld.step] at h
      split at h
      · obtain ⟨⟨res, r'⟩, -, rfl⟩ := Option.map_eq_some_iff.mp h
        cases res with
        | error e => exact ⟨Or.inl rfl, fun _ => .same⟩
        | ok c => exact ⟨Or.inl rfl, (Placed.out _ rfl rfl).update⟩
      · cases h
  | scan g maxAge now order =>
      simp only [CallWorld.step] at h
      split at h
      · split at h
        · obtain ⟨expired, hscan, rfl⟩ := Option.map_eq_some_iff.mp h
          split
          · exact ⟨Or.inl rfl, fun _ => .same⟩
          · exact ⟨Or.inl rfl, (Placed.scan maxAge now order expired rfl hscan).update⟩
        · cases h
      · cases h
  | judge g =>
      simp only [CallWorld.step] at h
      split at h
      · rename_i e todo reap spared hg
        split at h
        · cases h
          exact ⟨Or.inl rfl, (Placed.spare e todo reap spared rfl hg).update⟩
        · rename_i hdead
          cases h
          exact ⟨Or.inl rfl,
            (Placed.condemn e todo reap spared rfl hg (by simpa using hdead)).update⟩
      · cases h
  | reap g =>
      simp only [CallWorld.step] at h
      split at h
      · obtain ⟨⟨r', c⟩, -, rfl⟩ := Option.map_eq_some_iff.mp h
        exact ⟨Or.inl rfl, (Placed.out _ rfl rfl).update⟩
      · cases h
  | close g =>
      simp only [CallWorld.step] at h
      split at h
      · cases h
        exact ⟨Or.inl rfl, (Placed.out _ rfl rfl).update⟩
      · cases h
  | refresh g clock =>
      simp only [CallWorld.step] at h
      split at h
      · obtain ⟨r', -, rfl⟩ := Option.map_eq_some_iff.mp h
        exact ⟨Or.inl rfl, (Placed.out _ rfl rfl).update⟩
      · cases h
  | ret g =>
      simp only [CallWorld.step] at h
      split at h
      · cases h
        exact ⟨Or.inl rfl, (Placed.out _ rfl rfl).update⟩
      · cases h

/-- An expired handle on the list of `g` was there before, or a scan of `g` has found it. -/
theorem todo_of_step {w w' : CallWorld} {a : CallAction} (h : w.step a = some w')
    {g : Goroutine} {e : Handle × Option Resource} (he : e ∈ (w'.calls g).todo) :
    e ∈ (w.calls g).todo ∨ ∃ maxAge now order expired, a = .scan g maxAge now order ∧
      w.reg.scan maxAge now order = some expired ∧ e ∈ expired := by
  generalize hpc : w'.calls g = pc at he
  have hplaced := hpc ▸ (placed h).2 g
  cases hplaced with
  | same => exact Or.inl he
  | out _ htodo =>
      rw [htodo] at he
      cases he
  | scan maxAge now order expired ha hscan =>
      exact Or.inr ⟨maxAge, now, order, expired, ha, hscan, he⟩
  | spare e' todo reap spared _ hg =>
      rw [hg]
      exact Or.inl (List.mem_cons_of_mem _ he)
  | condemn e' todo reap spared _ hg =>
      rw [hg]
      exact Or.inl (List.mem_cons_of_mem _ he)

/-- A handle that `g` is going to reap was on its list before, or the step condemns it. -/
theorem reaps_of_step {w w' : CallWorld} {a : CallAction} (h : w.step a = some w')
    {g : Goroutine} {x : Handle} (hx : x ∈ (w'.calls g).reaps) :
    x ∈ (w.calls g).reaps ∨ ∃ e todo reap spared, a = .judge g ∧ e.1 = x ∧
      w.calls g = .judging (e :: todo) reap spared ∧
      isLivePeerConnection w.connected e.2 = false := by
  generalize hpc : w'.calls g = pc at hx
  have hplaced := hpc ▸ (placed h).2 g
  cases hplaced with
  | same => exact Or.inl hx
  | out _ _ hreaps =>
      rw [hreaps] at hx
      cases hx
  | scan => cases hx
  | spare e todo reap spared _ hg =>
      rw [hg]
      exact Or.inl hx
  | condemn e todo reap spared ha hg hdead =>
      rcases List.mem_append.mp hx with hold | hnew
      · rw [hg]
        exact Or.inl hold
      · exact Or.inr ⟨e, todo, reap, spared, ha, (List.mem_singleton.mp hnew).symm, hg, hdead⟩

end CallWorld

end PionBridge.Server
