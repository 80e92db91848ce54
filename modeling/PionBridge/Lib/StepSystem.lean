import Mathlib.Logic.Relation

/-!
# `PionBridge.Lib.StepSystem`: runs of a labelled step function

A system is a start state and a step function. An action that is not enabled in a state
has no successor, so `step` returns `none` there. The action carries every choice the
system leaves open (which goroutine moves, which ready case of a `select` it takes), so
one list of actions is one interleaving.

`StepsUnder C s t` says that a run from `s` to `t` exists whose steps all meet a condition
`C` on the state before the step and the action. `ReachableUnder C` starts such a run in
the start state, and `Reachable` drops the condition. The two rules a safety proof needs
are `StepsUnder.invariant` (a step lemma gives a run lemma) and `reachable_of_run` (a
concrete list of actions is a run). `runUnder` checks the condition along the way.
-/

set_option autoImplicit false

namespace PionBridge.Lib

/-- A start state and a partial step function on labelled actions. -/
structure StepSystem (σ α : Type) where
  init : σ
  step : σ → α → Option σ

namespace StepSystem

variable {σ α : Type} (S : StepSystem σ α)

/-- The state after a list of actions, or `none` when one of them is not enabled. -/
def run (s : σ) : List α → Option σ
  | [] => some s
  | a :: as => (S.step s a).bind fun s' => run s' as

/-- A run from `s` whose steps all meet `C`. -/
inductive StepsUnder (C : σ → α → Prop) (s : σ) : σ → Prop
  | refl : StepsUnder C s s
  | step {t u : σ} {a : α} (ht : StepsUnder C s t) (hC : C t a)
      (h : S.step t a = some u) : StepsUnder C s u

/-- The states of the runs whose steps all meet `C`. -/
def ReachableUnder (C : σ → α → Prop) (s : σ) : Prop := S.StepsUnder C S.init s

/-- The states of all runs. -/
def Reachable (s : σ) : Prop := S.ReachableUnder (fun _ _ => True) s

variable {S} {C : σ → α → Prop} {s t u : σ}

/-- The invariant rule. A property of the first state that every allowed step keeps holds
in every state of the run. The step case may use that its source lies on the run. -/
theorem StepsUnder.invariant {I : σ → Prop} (h : S.StepsUnder C s t) (h0 : I s)
    (hstep : ∀ t a u, S.StepsUnder C s t → I t → C t a → S.step t a = some u → I u) :
    I t := by
  induction h with
  | refl => exact h0
  | step ht hC h ih => exact hstep _ _ _ ht ih hC h

/-- The invariant rule from the start state, for all runs. -/
theorem Reachable.invariant {I : σ → Prop} (hs : S.Reachable s) (h0 : I S.init)
    (hstep : ∀ t a u, S.Reachable t → I t → S.step t a = some u → I u) : I s :=
  StepsUnder.invariant hs h0 fun t a u ht hi _ h => hstep t a u ht hi h

theorem StepsUnder.trans (h : S.StepsUnder C s t) (h' : S.StepsUnder C t u) :
    S.StepsUnder C s u := by
  induction h' with
  | refl => exact h
  | step _ hC hstep ih => exact .step ih hC hstep

/-- A weaker condition allows more runs. -/
theorem StepsUnder.mono {D : σ → α → Prop} (h : S.StepsUnder C s t)
    (hCD : ∀ t a, C t a → D t a) : S.StepsUnder D s t := by
  induction h with
  | refl => exact .refl
  | step _ hC hstep ih => exact .step ih (hCD _ _ hC) hstep

/-- A state reached under a condition is reached. -/
theorem ReachableUnder.reachable (h : S.ReachableUnder C s) : S.Reachable s :=
  StepsUnder.mono h fun _ _ _ => trivial

/-- One more step of a run. -/
theorem Reachable.next {a : α} (hs : S.Reachable s) (h : S.step s a = some t) :
    S.Reachable t :=
  StepsUnder.step hs trivial h

/-- A list of actions that meet `C` in every state is a run under `C`. -/
theorem steps_of_run {as : List α} (hC : ∀ a ∈ as, ∀ s, C s a) (h : S.run s as = some t) :
    S.StepsUnder C s t := by
  induction as generalizing s with
  | nil =>
      cases h
      exact .refl
  | cons a as ih =>
      obtain ⟨u, hu, hrest⟩ := Option.bind_eq_some_iff.mp h
      have htail := ih (fun b hb => hC b (List.mem_cons_of_mem _ hb)) hrest
      exact StepsUnder.trans (.step .refl (hC a List.mem_cons_self s) hu) htail

/-- The run of a list of actions that stops where a step does not meet `C`. -/
def runUnder (S : StepSystem σ α) (C : σ → α → Prop) [∀ s a, Decidable (C s a)] (s : σ) :
    List α → Option σ
  | [] => some s
  | a :: as => if C s a then (S.step s a).bind fun s' => S.runUnder C s' as else none

/-- Such a run is a run under `C`. -/
theorem steps_of_runUnder [∀ s a, Decidable (C s a)] {as : List α}
    (h : S.runUnder C s as = some t) : S.StepsUnder C s t := by
  induction as generalizing s with
  | nil =>
      cases h
      exact .refl
  | cons a as ih =>
      unfold runUnder at h
      split at h
      · rename_i hC
        obtain ⟨u, hu, hrest⟩ := Option.bind_eq_some_iff.mp h
        exact StepsUnder.trans (.step .refl hC hu) (ih hrest)
      · cases h

/-- What is known of the end of such a run holds in a state of the system. -/
theorem exists_of_runUnder [∀ s a, Decidable (C s a)] {β : Type} {as : List α} {f : σ → β} {b : β}
    (h : (S.runUnder C s as).map f = some b) : ∃ t, S.StepsUnder C s t ∧ f t = b := by
  obtain ⟨t, ht, hb⟩ := Option.map_eq_some_iff.mp h
  exact ⟨t, steps_of_runUnder ht, hb⟩

/-- What comes after the first part of a computation, when that part is known. -/
theorem eq_some_of_bind {β : Type} {x : Option σ} {f : σ → Option β} {b : β} (hx : x = some s)
    (h : x.bind f = some b) : f s = some b := by
  rwa [hx, Option.bind_some] at h

/-- The state after a concrete list of actions is reached. -/
theorem reachable_of_run {as : List α} (h : S.run S.init as = some s) : S.Reachable s :=
  steps_of_run (fun _ _ _ => trivial) h

end StepSystem

end PionBridge.Lib
