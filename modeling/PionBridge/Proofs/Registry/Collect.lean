import PionBridge.Lib.Forest
import PionBridge.Server.Registry

/-!
# `PionBridge.Proofs.Registry.Collect`: what `collectLocked` removes

`collectLocked` deletes the children entry of a handle, recurses into the children, and
then detaches the handle itself. In the middle of the recursion the five maps do not agree:
the children of the handle still name it as their parent, but its children entry is gone.
The proof therefore never looks at such a state by itself. It compares it with the registry
`r₀` in which the call started. `Erased r₀ D X r` says that `r` is `r₀` without the handles
in `X`, where in addition the children entries of the handles in `D` are gone.

`collectLocked_spec` is the result. The call ends, it removes the part of the subtree that
is still there, each handle once and every descendant before its ancestors, and it leaves
everything else as it was. `reapLocked` and the recursion itself run `collectLocked` over a
list of handles, and `foldlM_collectLocked_spec` is the statement for such a list.
-/

set_option autoImplicit false

namespace PionBridge.Server

open PionBridge.Lib
open PionBridge.Lib.Forest

namespace Registry

/-- The children list of a handle, empty when there is no entry. -/
def kids (r : Registry) (p : Handle) : List Handle := (r.children.get p).getD []

/-- The representation invariant: `resources` and `lastSeen` have the same keys, `parent`
and `children` describe the same links and list each child once, every handle with a parent
is registered, and no handle is its own ancestor. The parent itself need not be
registered. -/
structure Inv (r : Registry) : Prop where
  seen : ∀ h, r.resources.Has h ↔ r.lastSeen.Has h
  child : ∀ c p, r.parent.get c = some p ↔ c ∈ r.kids p
  nodup : ∀ p, (r.kids p).Nodup
  owned : ∀ c, r.parent.Has c → r.resources.Has c
  acyclic : Acyclic r.parent.get

/-- What `collectLocked` has accumulated after it detached the handles `L` of `r₀`, in this
order. -/
def gather (r₀ : Registry) (L : List Handle) : Collected where
  closers := L.filterMap fun h =>
    (r₀.resources.get h).bind fun res => if res.isCloser then some (h, res) else none
  states := L.filterMap fun h => (r₀.dcSendStates.get h).map fun s => (h, s)
  released := L

/-- Two accumulated results, one after the other. -/
def Collected.append (a b : Collected) : Collected :=
  ⟨a.closers ++ b.closers, a.states ++ b.states, a.released ++ b.released⟩

theorem Collected.append_assoc (a b c : Collected) :
    (a.append b).append c = a.append (b.append c) := by
  simp [Collected.append]

theorem gather_append (r₀ : Registry) (L L' : List Handle) :
    r₀.gather (L ++ L') = (r₀.gather L).append (r₀.gather L') := by
  simp [gather, Collected.append]

@[simp] theorem Collected.append_gather_nil (a : Collected) (r₀ : Registry) :
    a.append (r₀.gather []) = a := by
  simp [gather, Collected.append]

@[simp] theorem Collected.empty_append (a : Collected) : Collected.append {} a = a := by
  simp [Collected.append]

/-- `r` is `r₀` without the handles in `X`, and without the children entries of `D`. -/
structure Erased (r₀ : Registry) (D X : List Handle) (r : Registry) : Prop where
  resources : ∀ h, r.resources.get h = if h ∈ X then none else r₀.resources.get h
  parent : ∀ h, r.parent.get h = if h ∈ X then none else r₀.parent.get h
  children : ∀ p, r.children.get p =
    if p ∈ D ∨ p ∈ X then none else (r₀.children.get p).map fun kids => kids.filter (· ∉ X)
  dcSendStates : ∀ h, r.dcSendStates.get h = if h ∈ X then none else r₀.dcSendStates.get h
  lastSeen : ∀ h, r.lastSeen.get h = if h ∈ X then none else r₀.lastSeen.get h

theorem Erased.has_iff {r₀ r : Registry} {D X : List Handle} (he : Erased r₀ D X r) {h : Handle} :
    r.resources.Has h ↔ h ∉ X ∧ r₀.resources.Has h := by
  unfold GoMap.Has
  rw [he.resources]
  by_cases hh : h ∈ X
  · simp [hh]
  · simp [hh]

/-- `X` contains the children of its members. -/
def DownClosed (r₀ : Registry) (X : List Handle) : Prop :=
  ∀ x ∈ X, ∀ c, r₀.parent.get c = some x → c ∈ X

theorem DownClosed.of_anc {r₀ : Registry} {X : List Handle} (hX : r₀.DownClosed X)
    {x y : Handle} (hx : x ∈ X) (h : Anc r₀.parent.get x y) : y ∈ X := by
  induction h using Relation.ReflTransGen.head_induction_on with
  | refl => exact hx
  | head hstep _ ih => exact hX _ ih _ hstep

theorem erased_refl (r₀ : Registry) : Erased r₀ [] [] r₀ where
  resources h := by simp
  parent h := by simp
  children p := by simp
  dcSendStates h := by simp
  lastSeen h := by simp

/-- The handles `L` that a call detaches below the handles `hs`: exactly those not removed
before, each once, and none of them above a later one. -/
structure Swept (r₀ : Registry) (X hs L : List Handle) : Prop where
  mem : ∀ x, x ∈ L ↔ (∃ h ∈ hs, r₀.resources.Has h ∧ Anc r₀.parent.get h x) ∧ x ∉ X
  nodup : L.Nodup
  order : L.Pairwise fun x y => ¬ Above r₀.parent.get x y

theorem Swept.downClosed {r₀ : Registry} {X hs L : List Handle} (hX : r₀.DownClosed X)
    (hL : Swept r₀ X hs L) : r₀.DownClosed (X ++ L) := by
  intro x hx c hc
  rw [List.mem_append] at hx ⊢
  by_cases hcX : c ∈ X
  · exact Or.inl hcX
  · rcases hx with hx | hx
    · exact Or.inl (hX x hx c hc)
    · obtain ⟨⟨h, hh, hreg, hanc⟩, -⟩ := (hL.mem x).mp hx
      exact Or.inr ((hL.mem c).mpr ⟨⟨h, hh, hreg, hanc.trans (Anc.of_parent hc)⟩, hcX⟩)

theorem Swept.downClosed_nil {r₀ : Registry} {hs L : List Handle} (hL : Swept r₀ [] hs L) :
    r₀.DownClosed L := by
  simpa using hL.downClosed (fun x hx => by simp at hx)

/-- Sweeping `hs` and then `h` sweeps both. The handles of the second part are not above
those of the first part, because whatever lies below a swept handle is swept with it. -/
theorem Swept.append {r₀ : Registry} {X hs hs' L L' : List Handle} (hX : r₀.DownClosed X)
    (hL : Swept r₀ X hs L) (hL' : Swept r₀ (X ++ L) hs' L') :
    Swept r₀ X (hs ++ hs') (L ++ L') where
  mem x := by
    rw [List.mem_append, hL.mem, hL'.mem, List.mem_append, hL.mem]
    simp only [List.mem_append]
    constructor
    · rintro (⟨⟨h, hh, hreg, hanc⟩, hx⟩ | ⟨⟨h, hh, hreg, hanc⟩, hx⟩)
      · exact ⟨⟨h, Or.inl hh, hreg, hanc⟩, hx⟩
      · exact ⟨⟨h, Or.inr hh, hreg, hanc⟩, fun hxX => hx (Or.inl hxX)⟩
    · rintro ⟨⟨h, hh | hh, hreg, hanc⟩, hx⟩
      · exact Or.inl ⟨⟨h, hh, hreg, hanc⟩, hx⟩
      · by_cases hin : ∃ h ∈ hs, r₀.resources.Has h ∧ Anc r₀.parent.get h x
        · exact Or.inl ⟨hin, hx⟩
        · refine Or.inr ⟨⟨h, hh, hreg, hanc⟩, ?_⟩
          rintro (hxX | ⟨hin', -⟩)
          · exact hx hxX
          · exact hin hin'
  nodup := by
    rw [List.nodup_append']
    refine ⟨hL.nodup, hL'.nodup, ?_⟩
    intro x hx hx'
    exact ((hL'.mem x).mp hx').2 (List.mem_append_right X hx)
  order := by
    rw [List.pairwise_append]
    refine ⟨hL.order, hL'.order, ?_⟩
    intro x hx y hy habove
    have hyX := ((hL'.mem y).mp hy).2
    exact hyX ((hL.downClosed hX).of_anc (List.mem_append_right X hx) habove.anc)

/-! ### Detaching one handle -/

section
variable (r : Registry) (h : Handle) (res : Resource) (acc : Collected)

theorem detachLocked_resources :
    (r.detachLocked h res acc).1.resources = r.resources.delete h := by
  unfold detachLocked removeDCSendState
  cases r.dcSendStates.get h <;> cases hp : r.parent.get h <;> simp [hp]

theorem detachLocked_lastSeen :
    (r.detachLocked h res acc).1.lastSeen = r.lastSeen.delete h := by
  unfold detachLocked removeDCSendState
  cases r.dcSendStates.get h <;> cases hp : r.parent.get h <;> simp [hp]

theorem detachLocked_dcSendStates_get (x : Handle) :
    (r.detachLocked h res acc).1.dcSendStates.get x
      = if x = h then none else r.dcSendStates.get x := by
  unfold detachLocked removeDCSendState
  cases hs : r.dcSendStates.get h with
  | none =>
      cases hp : r.parent.get h <;> by_cases hx : x = h <;> simp [hp, hx, hs]
  | some s =>
      cases hp : r.parent.get h <;> simp [hp, GoMap.get_delete]

theorem detachLocked_parent_get (x : Handle) :
    (r.detachLocked h res acc).1.parent.get x = if x = h then none else r.parent.get x := by
  unfold detachLocked removeDCSendState
  cases hs : r.dcSendStates.get h <;> cases hp : r.parent.get h <;>
    by_cases hx : x = h <;> simp [hp, hx, GoMap.get_delete]

/-- The children lists after `h` left: only the list of its parent loses an entry. -/
theorem detachLocked_children_get (x : Handle) :
    (r.detachLocked h res acc).1.children.get x
      = if r.parent.get h = some x then (r.children.get x).map (·.erase h)
        else r.children.get x := by
  unfold detachLocked removeDCSendState
  cases r.dcSendStates.get h <;> cases hp : r.parent.get h with
  | none => simp [hp]
  | some p =>
      simp only [hp]
      cases hk : r.children.get p with
      | none =>
          by_cases hx : p = x
          · subst hx
            simp [hk]
          · simp [hx]
      | some kids =>
          by_cases hmem : h ∈ kids
          · by_cases hx : p = x
            · subst hx
              simp [hk, hmem]
            · simp [hmem, hx, GoMap.get_set_of_ne _ _ (Ne.symm hx)]
          · by_cases hx : p = x
            · subst hx
              simp [hk, hmem, List.erase_of_not_mem hmem]
            · simp [hmem, hx]

end

/-- One detached handle joins the lists with its closer and its send state. -/
theorem detachLocked_collected {r₀ r : Registry} {h : Handle} {res : Resource}
    (acc : Collected) (hres : r₀.resources.get h = some res)
    (hstate : r.dcSendStates.get h = r₀.dcSendStates.get h) :
    (r.detachLocked h res acc).2 = acc.append (r₀.gather [h]) := by
  unfold detachLocked removeDCSendState gather Collected.append
  rw [hstate]
  cases hs : r₀.dcSendStates.get h <;> cases hc : res.isCloser <;>
    simp [hres, hc, hs]

/-- `detachLocked h` ends the work on `h`: its children entry was gone before, and now the
handle itself is. -/
theorem Erased.detachLocked {r₀ r : Registry} {D X : List Handle} {h : Handle}
    {res : Resource} (hi : r₀.Inv) (he : Erased r₀ (h :: D) X r) (hX : h ∉ X)
    (acc : Collected) :
    Erased r₀ D (X ++ [h]) (r.detachLocked h res acc).1 where
  resources x := by
    rw [detachLocked_resources, GoMap.get_delete, he.resources]
    by_cases hx : x = h <;> simp [hx]
  parent x := by
    rw [detachLocked_parent_get, he.parent]
    by_cases hx : x = h <;> simp [hx]
  dcSendStates x := by
    rw [detachLocked_dcSendStates_get, he.dcSendStates]
    by_cases hx : x = h <;> simp [hx]
  lastSeen x := by
    rw [detachLocked_lastSeen, GoMap.get_delete, he.lastSeen]
    by_cases hx : x = h <;> simp [hx]
  children p := by
    have hpar : r.parent.get h = r₀.parent.get h := by simp [he.parent, hX]
    rw [detachLocked_children_get, hpar, he.children]
    by_cases hgone : p ∈ h :: D ∨ p ∈ X
    · have hgone' : p ∈ D ∨ p ∈ X ++ [h] := by
        simp only [List.mem_cons, List.mem_append, List.not_mem_nil, or_false] at hgone ⊢
        tauto
      rw [if_pos hgone, if_pos hgone']
      simp
    · have hgone' : ¬ (p ∈ D ∨ p ∈ X ++ [h]) := by
        simp only [List.mem_cons, List.mem_append, List.not_mem_nil, or_false] at hgone ⊢
        tauto
      rw [if_neg hgone, if_neg hgone']
      cases hk : r₀.children.get p with
      | none => simp
      | some kids =>
          have hkids : r₀.kids p = kids := by simp [Registry.kids, hk]
          have hnd : kids.Nodup := hkids ▸ hi.nodup p
          by_cases hhp : r₀.parent.get h = some p
          · -- The parent's own list: erasing `h` is one more filter, as it occurs once.
            rw [if_pos hhp]
            simp only [Option.map_some, Option.some.injEq]
            rw [(hnd.filter _).erase_eq_filter, List.filter_filter]
            apply List.filter_congr
            intro y _
            by_cases hy : y = h <;> simp [hy]
          · -- Any other list does not contain `h`.
            have hnot : h ∉ kids := by
              intro hmem
              exact hhp ((hi.child h p).mpr (hkids ▸ hmem))
            rw [if_neg hhp]
            simp only [Option.map_some, Option.some.injEq]
            apply List.filter_congr
            intro y hy
            have hyh : y ≠ h := fun e => hnot (e ▸ hy)
            simp [hyh]

/-! ### The recursion -/

/-- What one `collectLocked` call with this fuel does in a registry that is `r₀` without
`X`, with the children entries of `D` detached. -/
def CollectSpec (r₀ : Registry) (fuel : Nat) (h : Handle) : Prop :=
  ∀ (D X : List Handle) (r : Registry) (acc : Collected), Erased r₀ D X r →
    r₀.DownClosed X → (∀ d ∈ D, Above r₀.parent.get d h) →
    ∃ L r', collectLocked fuel r h acc = some (r', acc.append (r₀.gather L)) ∧
      Erased r₀ D (X ++ L) r' ∧ Swept r₀ X [h] L

/-- `collectLocked` over a list of handles, one after the other, sweeps them all. Induction
on the list: `X` grows by what each call detached. -/
theorem foldlM_collectLocked_spec {r₀ : Registry} {fuel : Nat} :
    ∀ (hs : List Handle), (∀ h ∈ hs, CollectSpec r₀ fuel h) →
      ∀ (D X : List Handle) (r : Registry) (acc : Collected), Erased r₀ D X r →
      r₀.DownClosed X → (∀ d ∈ D, ∀ h ∈ hs, Above r₀.parent.get d h) →
      ∃ L r', hs.foldlM (fun (s : Registry × Collected) h => collectLocked fuel s.1 h s.2)
          (r, acc) = some (r', acc.append (r₀.gather L)) ∧
        Erased r₀ D (X ++ L) r' ∧ Swept r₀ X hs L := by
  intro hs
  induction hs with
  | nil =>
      intro _ D X r acc he _ _
      refine ⟨[], r, ?_, by simpa using he, ?_⟩
      · simp
      · exact ⟨fun x => by simp, List.nodup_nil, List.Pairwise.nil⟩
  | cons h hs ih =>
      intro hspec D X r acc he hX hD
      obtain ⟨L, r₁, hcall, he₁, hL⟩ := hspec h List.mem_cons_self D X r acc he hX
        (fun d hd => hD d hd h List.mem_cons_self)
      obtain ⟨L', r₂, hrest, he₂, hL'⟩ := ih (fun h' hh' => hspec h' (List.mem_cons_of_mem h hh'))
        D (X ++ L) r₁ (acc.append (r₀.gather L)) he₁ (hL.downClosed hX)
        (fun d hd h' hh' => hD d hd h' (List.mem_cons_of_mem h hh'))
      refine ⟨L ++ L', r₂, ?_, by rw [← List.append_assoc]; exact he₂, hL.append hX hL'⟩
      -- The lists of the first call are where the fold goes on.
      rw [List.foldlM_cons, hcall, gather_append, ← Collected.append_assoc]
      exact hrest

/-- A handle that is not there any more: the call does nothing. -/
theorem collectSpec_of_gone {r₀ r : Registry} {D X : List Handle} {h : Handle}
    (fuel : Nat) (acc : Collected) (he : Erased r₀ D X r) (hX : r₀.DownClosed X)
    (hgone : r.resources.get h = none) :
    ∃ L r', collectLocked (fuel + 1) r h acc = some (r', acc.append (r₀.gather L)) ∧
      Erased r₀ D (X ++ L) r' ∧ Swept r₀ X [h] L := by
  refine ⟨[], r, by simp [collectLocked, hgone], by simpa using he, ?_, List.nodup_nil,
    List.Pairwise.nil⟩
  intro x
  simp only [List.not_mem_nil, List.mem_singleton, exists_eq_left, false_iff, not_and, not_not]
  intro ⟨hreg, hanc⟩
  -- It was registered at the start, so an earlier cascade took it, and its subtree with it.
  rw [he.resources] at hgone
  by_cases hh : h ∈ X
  · exact hX.of_anc hh hanc
  · rw [if_neg hh] at hgone
    exact absurd hgone hreg

/-- The children swept, and then the handle itself: the subtree of the handle. -/
theorem Swept.cons_root {r₀ : Registry} {X L : List Handle} {h : Handle} (hi : r₀.Inv)
    (hreg : r₀.resources.Has h) (hX : h ∉ X)
    (hL : Swept r₀ X ((r₀.kids h).filter (· ∉ X)) L) (hdown : r₀.DownClosed X) :
    Swept r₀ X [h] (L ++ [h]) := by
  -- The children sweep what lies strictly below `h`.
  have hmem : ∀ x, x ∈ L ↔ Above r₀.parent.get h x ∧ x ∉ X := by
    intro x
    rw [hL.mem]
    constructor
    · rintro ⟨⟨k, hk, -, hanc⟩, hx⟩
      have hkid := (hi.child k h).mpr (List.mem_of_mem_filter hk)
      exact ⟨(Above.of_parent hkid).trans_anc hanc, hx⟩
    · rintro ⟨habove, hx⟩
      obtain ⟨k, hkid, hanc⟩ := above_iff_child.mp habove
      have hkX : k ∉ X := fun hkX => hx (hdown.of_anc hkX hanc)
      have hk : k ∈ (r₀.kids h).filter (· ∉ X) := by
        simpa [hkX] using (hi.child k h).mp hkid
      exact ⟨⟨k, hk, hi.owned k (by simp [GoMap.Has, hkid]), hanc⟩, hx⟩
  refine ⟨?_, ?_, ?_⟩
  · intro x
    simp only [List.mem_append, hmem, List.mem_singleton, exists_eq_left]
    constructor
    · rintro (⟨habove, hx⟩ | rfl)
      · exact ⟨⟨hreg, habove.anc⟩, hx⟩
      · exact ⟨⟨hreg, Anc.refl x⟩, hX⟩
    · rintro ⟨⟨-, hanc⟩, hx⟩
      rcases hanc.eq_or_above with rfl | habove
      · exact Or.inr rfl
      · exact Or.inl ⟨habove, hx⟩
  · rw [List.nodup_append']
    refine ⟨hL.nodup, List.nodup_singleton h, ?_⟩
    intro x hx hxh
    rw [List.mem_singleton] at hxh
    exact hi.acyclic h (hxh ▸ ((hmem x).mp hx).1)
  · rw [List.pairwise_append]
    refine ⟨hL.order, List.pairwise_singleton _ _, ?_⟩
    intro x hx y hy habove
    rw [List.mem_singleton] at hy
    subst hy
    exact hi.acyclic y (((hmem x).mp hx).1.trans_anc habove.anc)

/-- Deleting the children entry of `h` moves it to the detached ones. -/
theorem Erased.detach_children {r₀ r : Registry} {D X : List Handle} (h : Handle)
    (he : Erased r₀ D X r) :
    Erased r₀ (h :: D) X { r with children := r.children.delete h } where
  resources := he.resources
  parent := he.parent
  dcSendStates := he.dcSendStates
  lastSeen := he.lastSeen
  children p := by
    rw [GoMap.get_delete, he.children]
    by_cases hp : p = h <;> simp [hp]

/-- The cascade over the children of `h`, given the specification for each of them. -/
theorem collectKids_spec {r₀ r : Registry} {fuel : Nat} {D X : List Handle} {h : Handle}
    (hi : r₀.Inv) (hspec : ∀ k, r₀.parent.get k = some h → CollectSpec r₀ fuel k)
    (acc : Collected) (he : Erased r₀ D X r) (hdown : r₀.DownClosed X) (hX : h ∉ X)
    (hD : ∀ d ∈ D, Above r₀.parent.get d h) :
    ∃ L r', (match r.children.get h with
        | some kids =>
          kids.foldlM (fun (s : Registry × Collected) kid => collectLocked fuel s.1 kid s.2)
            ({ r with children := r.children.delete h }, acc)
        | none => some (r, acc)) = some (r', acc.append (r₀.gather L)) ∧
      Erased r₀ (h :: D) (X ++ L) r' ∧ Swept r₀ X ((r₀.kids h).filter (· ∉ X)) L := by
  have hDh : h ∉ D := fun hh => hi.acyclic h (hD h hh)
  have hchild := he.children h
  rw [if_neg (by tauto)] at hchild
  have hdet := he.detach_children h
  cases hk : r₀.children.get h with
  | none =>
      -- No entry, no children: the state is already the detached one.
      have hnone : r.children.get h = none := by rw [hchild, hk]; rfl
      have hkids : r₀.kids h = [] := by simp [Registry.kids, hk]
      have hsame : r.children.delete h = r.children := by
        apply GoMap.ext
        intro x
        rw [GoMap.get_delete]
        by_cases hx : x = h <;> simp [hx, hnone]
      rw [hsame] at hdet
      refine ⟨[], r, by simp [hnone], by simpa using hdet, ?_⟩
      rw [hkids]
      exact ⟨fun x => by simp, List.nodup_nil, List.Pairwise.nil⟩
  | some kids =>
      have hsome : r.children.get h = some (kids.filter (· ∉ X)) := by rw [hchild, hk]; rfl
      have hkids : r₀.kids h = kids := by simp [Registry.kids, hk]
      have hparent : ∀ k ∈ kids.filter (· ∉ X), r₀.parent.get k = some h := by
        intro k hk'
        exact (hi.child k h).mpr (hkids ▸ List.mem_of_mem_filter hk')
      obtain ⟨L, r', hfold, he', hL⟩ := foldlM_collectLocked_spec (kids.filter (· ∉ X))
        (fun k hk' => hspec k (hparent k hk')) (h :: D) X _ acc hdet hdown (by
          intro d hd k hk'
          have hkh := Above.of_parent (hparent k hk')
          rcases List.mem_cons.mp hd with rfl | hd
          · exact hkh
          · exact (hD d hd).trans_anc hkh.anc)
      refine ⟨L, r', ?_, he', by rw [hkids]; exact hL⟩
      rw [hsome]
      exact hfold

/-- `collectLocked` meets its specification with any fuel above the height of the handle.
Induction on the fuel. In the step, the recursion over the children runs with the entry of
`h` among the detached ones, and `detachLocked` then moves `h` to the removed ones. -/
theorem collectLocked_spec {r₀ : Registry} (hi : r₀.Inv) {e : Handle → Nat}
    (he : ∀ x p, r₀.parent.get x = some p → e x < e p) :
    ∀ (fuel : Nat) (h : Handle), e h < fuel → CollectSpec r₀ fuel h := by
  intro fuel
  induction fuel with
  | zero =>
      intro h hlt
      omega
  | succ fuel ih =>
      intro h hlt D X r acc her hdown hD
      cases hres : r.resources.get h with
      | none => exact collectSpec_of_gone fuel acc her hdown hres
      | some res =>
          have hX : h ∉ X := by
            intro hh
            rw [her.resources, if_pos hh] at hres
            cases hres
          have hres₀ : r₀.resources.get h = some res := by
            rw [her.resources, if_neg hX] at hres
            exact hres
          obtain ⟨L, r₁, hrec, her₁, hL⟩ := collectKids_spec hi
            (fun k hk => ih k (by have := he k h hk; omega)) acc her hdown hX hD
          have hroot := hL.cons_root hi (by simp [GoMap.Has, hres₀]) hX hdown
          -- The cascade does not come back to `h`, as no handle is below itself.
          have hXL : h ∉ X ++ L := by
            intro hh
            rcases List.mem_append.mp hh with hh | hh
            · exact hX hh
            · exact (List.nodup_append'.mp hroot.nodup).2.2 hh (List.mem_singleton_self h)
          refine ⟨L ++ [h], (r₁.detachLocked h res (acc.append (r₀.gather L))).1, ?_, ?_, hroot⟩
          · have hstate : r₁.dcSendStates.get h = r₀.dcSendStates.get h := by
              rw [her₁.dcSendStates, if_neg hXL]
            have hacc := detachLocked_collected (acc.append (r₀.gather L)) hres₀ hstate
            rw [gather_append, ← Collected.append_assoc, ← hacc]
            simp only [collectLocked, hres]
            exact congrArg (Option.map fun s => s.1.detachLocked h res s.2) hrec
          · rw [← List.append_assoc]
            exact her₁.detachLocked hi hXL _

/-- Every handle is swept with the fuel that the operations use. -/
theorem Inv.collectSpec {r₀ : Registry} (hi : r₀.Inv) (h : Handle) :
    CollectSpec r₀ r₀.fuel h := by
  obtain ⟨e, he, hle⟩ := exists_height r₀.parent.keys
    (fun x p hp => GoMap.mem_keys_iff.mpr (by simp [GoMap.Has, hp])) hi.acyclic
  exact collectLocked_spec hi he r₀.fuel h (Nat.lt_succ_of_le (hle h))

end Registry

end PionBridge.Server
