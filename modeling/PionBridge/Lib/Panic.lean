/-!
# `PionBridge.Lib.Panic`: bodies that return, panic or end the process

A function body in a language with panics changes a state and then ends: it returns a value, it
panics with a text, or it runs into an error of the runtime that nothing can recover from, and the
process is gone (`Ending`). A panic undoes nothing, so the state stays as the body left it (`Exit`).
The ways to build a body here are a return, a panic, a fatal error, a call of something outside with
the rest of the body after it, and a deferred call.

A call gives a value or a panic. A call that returns a value or an error gives an `Except` as its
value. `Meets P` says that `P` holds of the end of a body, and each way to build a body has its
rule.
-/

set_option autoImplicit false

namespace PionBridge.Lib

/-- How a body ends. -/
inductive Ending (α : Type)
  | returned (a : α)
  | panicked (text : String)
  | died

/-- The end of a body, and the state that it left. -/
structure Exit (σ α : Type) where
  result : Ending α
  state : σ

namespace Exit

variable {σ α β : Type}

/-- `return a`. -/
def ret (s : σ) (a : α) : Exit σ α := ⟨.returned a, s⟩

/-- `panic(text)`. -/
def panic (s : σ) (text : String) : Exit σ α := ⟨.panicked text, s⟩

/-- A fatal error of the runtime. -/
def die (s : σ) : Exit σ α := ⟨.died, s⟩

/-- A call, and the rest of the body. The call itself does not change the state. -/
def after (s : σ) (call : Except String β) (next : β → Exit σ α) : Exit σ α :=
  match call with
  | .ok b => next b
  | .error text => panic s text

/-- `defer call()`. The call is made when the body returns and when it panics. If it panics, its
text replaces what the body returned or panicked with. A process that is gone makes no call. -/
def deferred (e : Exit σ α) (call : Except String Unit) : Exit σ α :=
  match e.result, call with
  | .died, _ => e
  | _, .ok () => e
  | _, .error text => panic e.state text

/-- The function around the body recovers from a panic. There is no result when the process is
gone. -/
def recover (e : Exit σ α) (onPanic : String → α) : Option (α × σ) :=
  match e.result with
  | .returned a => some (a, e.state)
  | .panicked text => some (onPanic text, e.state)
  | .died => none

/-! ### The rules -/

/-- The end of the body meets `P`. -/
def Meets (e : Exit σ α) (P : Ending α → σ → Prop) : Prop := P e.result e.state

variable {P : Ending α → σ → Prop} {s : σ} {e : Exit σ α}

/-- A deferred call that returns changes nothing. -/
@[simp]
theorem deferred_ok (e : Exit σ α) (u : Unit) : e.deferred (.ok u) = e := by
  obtain ⟨result, s⟩ := e
  cases result <;> rfl

/-- The rule of a call: the rest meets `P` on every value of the call, and so does its panic. -/
theorem meets_after {call : Except String β} {next : β → Exit σ α}
    (hok : ∀ b, call = .ok b → (next b).Meets P)
    (hpanic : ∀ text, call = .error text → P (.panicked text) s) :
    (after s call next).Meets P := by
  cases call with
  | ok b => exact hok b rfl
  | error text => exact hpanic text rfl

/-- The rule of a deferred call: the body meets `P` where the call returns or is not made, and so
does the panic of the call after a body that left the process alive. -/
theorem meets_deferred {call : Except String Unit}
    (hbody : e.result = .died ∨ call = .ok () → e.Meets P)
    (hpanic : ∀ text, e.result ≠ .died → call = .error text → P (.panicked text) e.state) :
    (e.deferred call).Meets P := by
  obtain ⟨result, s⟩ := e
  cases call with
  | ok u => cases result <;> exact hbody (.inr rfl)
  | error text =>
      cases result with
      | died => exact hbody (.inl rfl)
      | returned a => exact hpanic text (by simp) rfl
      | panicked text' => exact hpanic text (by simp) rfl

end Exit

end PionBridge.Lib
