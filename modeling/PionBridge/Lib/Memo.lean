import Mathlib.Data.Set.Function
import PionBridge.Lib.Decode
import PionBridge.Lib.GoMap

/-!
# `PionBridge.Lib.Memo`: a cache of built values

A value is built from a payload and kept under a key of the payload. Both steps can fail, and what
fails is not kept. `memo` is one request for a value with the cache after it.

A cache is sound for a set of payloads when each of its entries was built from a payload of the set
that has its key. Requests for payloads of the set keep it sound (`Sound.memo`). If every payload of
the set has a key and no two of them have the same one, the cache cannot be seen: a request gives
what building the value gives (`map_fst_memo`).

Less is enough when errors are not compared. `serve` is a request that gives a value or nothing.
After all sequences of requests for payloads of the set, it gives what building gives, exactly if
payloads with the same key build the same and a payload without a key does not build
(`transparent_iff`).
-/

set_option autoImplicit false

namespace PionBridge.Lib

variable {π κ ν ε : Type} [DecidableEq κ] (key : π → Except ε κ) (build : π → Except ε ν)

/-- The value for a payload: the one that is kept under its key, or a new one. -/
def memo (cache : GoMap κ ν) (x : π) : Except ε (ν × GoMap κ ν) := do
  let k ← key x
  match cache.get k with
  | some v => .ok (v, cache)
  | none =>
    let v ← build x
    .ok (v, cache.set k v)

namespace Memo

/-- Every entry was built from a payload in `D` that has its key. -/
def Sound (D : Set π) (cache : GoMap κ ν) : Prop :=
  ∀ k v, cache.get k = some v → ∃ x ∈ D, key x = .ok k ∧ build x = .ok v

/-- Every payload in `D` has a key of its own. -/
structure Keyed (D : Set π) : Prop where
  total : ∀ x ∈ D, ∃ k, key x = .ok k
  apart : Set.InjOn key D

variable {key build} {D : Set π} {cache cache' : GoMap κ ν} {x : π} {v : ν}

theorem sound_empty : Sound key build D ∅ := by
  intro k v h
  simp at h

theorem Sound.memo (hs : Sound key build D cache) (hx : x ∈ D)
    (h : memo key build cache x = .ok (v, cache')) : Sound key build D cache' := by
  obtain ⟨k, hk, h⟩ := exists_of_bind_ok h
  split at h
  · cases h
    exact hs
  · obtain ⟨v₀, hb, h⟩ := exists_of_bind_ok h
    cases h
    intro k' v' hget
    rw [GoMap.get_set] at hget
    split at hget
    · rename_i heq
      cases hget
      exact ⟨x, hx, heq ▸ hk, hb⟩
    · exact hs k' v' hget

/-- The cache cannot be seen. -/
theorem map_fst_memo (hkeyed : Keyed key D) (hs : Sound key build D cache) (hx : x ∈ D) :
    (memo key build cache x).map Prod.fst = build x := by
  obtain ⟨k, hk⟩ := hkeyed.total x hx
  unfold Lib.memo
  rw [hk]
  cases hget : cache.get k with
  | some v =>
      -- The entry was built from a payload with the same key, so from this one.
      obtain ⟨y, hy, hky, hby⟩ := hs k v hget
      have hxy : y = x := hkeyed.apart hy hx (hky.trans hk.symm)
      rw [← hxy, hby]
      simp only [bind, Except.bind, hget]
      rfl
  | none =>
      simp only [bind, Except.bind, hget]
      cases build x <;> rfl

/-! ### Requests that give a value or nothing -/

section

variable (key build)

/-- One request. If it fails, the cache stays as it is. -/
def serve (cache : GoMap κ ν) (x : π) : Option ν × GoMap κ ν :=
  match Lib.memo key build cache x with
  | .ok (v, cache') => (some v, cache')
  | .error _ => (none, cache)

/-- The cache after requests. -/
def serveAll (cache : GoMap κ ν) (xs : List π) : GoMap κ ν :=
  xs.foldl (fun cache x => (serve key build cache x).2) cache

/-- Payloads with the same key build the same, and what has no key does not build. -/
structure Separates (D : Set π) : Prop where
  total : ∀ x ∈ D, (key x).toOption = none → (build x).toOption = none
  apart : ∀ x ∈ D, ∀ y ∈ D, ∀ k, key x = .ok k → key y = .ok k →
    (build x).toOption = (build y).toOption

end

theorem Sound.serve (hs : Sound key build D cache) (hx : x ∈ D) :
    Sound key build D (serve key build cache x).2 := by
  unfold Memo.serve
  split
  · rename_i h
    exact hs.memo hx h
  · exact hs

theorem Sound.serveAll (hs : Sound key build D cache) {xs : List π} (hxs : ∀ x ∈ xs, x ∈ D) :
    Sound key build D (serveAll key build cache xs) := by
  induction xs generalizing cache with
  | nil => exact hs
  | cons x xs ih =>
      have hx := hs.serve (hxs x List.mem_cons_self)
      exact ih hx fun y hy => hxs y (List.mem_cons_of_mem x hy)

theorem serve_of_error {e : ε} (hk : key x = .error e) :
    serve key build cache x = (none, cache) := by
  simp only [serve, memo, hk, bind, Except.bind]

theorem serve_of_hit {k : κ} (hk : key x = .ok k) (hget : cache.get k = some v) :
    serve key build cache x = (some v, cache) := by
  simp only [serve, memo, hk, bind, Except.bind, hget]

theorem serve_of_miss {k : κ} (hk : key x = .ok k) (hget : cache.get k = none)
    (hb : build x = .ok v) : serve key build cache x = (some v, cache.set k v) := by
  simp only [serve, memo, hk, bind, Except.bind, hget, hb]

/-- A request on a sound cache gives what building gives. -/
theorem fst_serve (hsep : Separates key build D) (hs : Sound key build D cache) (hx : x ∈ D) :
    (serve key build cache x).1 = (build x).toOption := by
  cases hk : key x with
  | error e =>
      rw [hsep.total x hx (by rw [hk]; rfl), serve_of_error hk]
  | ok k =>
      cases hget : cache.get k with
      | some v =>
          -- The entry was built from a payload with the same key.
          obtain ⟨y, hy, hky, hby⟩ := hs k v hget
          rw [serve_of_hit hk hget, hsep.apart x hx y hy k hk hky, hby]
          rfl
      | none =>
          cases hb : build x with
          | ok v =>
              rw [serve_of_miss hk hget hb]
              rfl
          | error e => simp only [serve, memo, hk, bind, Except.bind, hget, hb, Except.toOption]

/-- A payload that was built once decides what later ones with its key get. -/
theorem fst_serve_after {y : π} {k : κ} (hky : key y = .ok k) (hby : build y = .ok v)
    (hk : key x = .ok k) : (serve key build (serveAll key build ∅ [y]) x).1 = some v := by
  have hcache : serveAll key build ∅ [y] = (∅ : GoMap κ ν).set k v := by
    show (serve key build ∅ y).2 = _
    rw [serve_of_miss hky (GoMap.get_empty k) hby]
  rw [hcache, serve_of_hit hk (GoMap.get_set_self _ _ _)]

/-- When the cache cannot be seen. -/
theorem transparent_iff :
    (∀ xs : List π, (∀ y ∈ xs, y ∈ D) → ∀ x ∈ D,
      (serve key build (serveAll key build ∅ xs) x).1 = (build x).toOption) ↔
      Separates key build D := by
  constructor
  · intro h
    constructor
    · intro x hx hnone
      rw [← h [] (by simp) x hx]
      cases hk : key x with
      | ok k =>
          rw [hk] at hnone
          cases hnone
      | error e => rw [serve_of_error hk]
    · -- If one of the two builds, the other is served what it built.
      have hhit : ∀ x ∈ D, ∀ y ∈ D, ∀ k v, key x = .ok k → key y = .ok k → build y = .ok v →
          (build x).toOption = some v := by
        intro x hx y hy k v hkx hky hby
        rw [← h [y] (by simpa using hy) x hx]
        exact fst_serve_after hky hby hkx
      intro x hx y hy k hkx hky
      cases hbx : build x with
      | ok v => rw [hhit y hy x hx k v hky hkx hbx]; rfl
      | error e =>
          cases hby : build y with
          | ok v =>
              have hboth := hhit x hx y hy k v hkx hky hby
              rw [hbx] at hboth
              cases hboth
          | error e' => rfl
  · intro hsep xs hxs x hx
    exact fst_serve hsep (sound_empty.serveAll hxs) hx

end Memo

end PionBridge.Lib
