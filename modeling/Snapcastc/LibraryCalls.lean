import Mathlib

/-! Calls that can fail: postconditions of the calls that return, and the failures that may happen
instead. -/

namespace Calls

variable {ε α β : Type}

/-- The call returns with the postcondition, or fails in an allowed way. -/
def Meets (allowed : ε → Prop) (post : α → Prop) : Except ε α → Prop
  | .ok a => post a
  | .error e => allowed e

variable {allowed : ε → Prop} {post : α → Prop} {post' : β → Prop}

theorem Meets.pure {a : α} (h : post a) : Meets allowed post (.ok a) := h

theorem Meets.bind {first : Except ε α} {next : α → Except ε β} (hfirst : Meets allowed post first)
    (hnext : ∀ a, post a → Meets allowed post' (next a)) : Meets allowed post' (first >>= next) := by
  cases first with
  | error e => exact hfirst
  | ok a => exact hnext a hfirst

theorem Meets.mono {call : Except ε α} {weaker : α → Prop} (hcall : Meets allowed post call)
    (hweaker : ∀ a, post a → weaker a) : Meets allowed weaker call := by
  cases call with
  | error e => exact hcall
  | ok a => exact hweaker a hcall

/-- More failures may be allowed. -/
theorem Meets.weaken {allowed' : ε → Prop} {call : Except ε α} (hcall : Meets allowed post call)
    (hweaker : ∀ e, allowed e → allowed' e) : Meets allowed' post call := by
  cases call with
  | error e => exact hweaker e hcall
  | ok a => exact hcall

/-- What is read off the result. -/
theorem Meets.map {call : Except ε α} {view : α → β} (hcall : Meets allowed post call)
    (hview : ∀ a, post a → post' (view a)) : Meets allowed post' (call.map view) := by
  cases call with
  | error e => exact hcall
  | ok a => exact hview a hcall

/-- A postcondition that every result has anyway may be added. -/
theorem Meets.and {call : Except ε α} {also : α → Prop} (hcall : Meets allowed post call)
    (halso : ∀ a, call = .ok a → also a) : Meets allowed (fun a => post a ∧ also a) call := by
  cases call with
  | error e => exact hcall
  | ok a => exact ⟨hcall, halso a rfl⟩

/-- A call whose failures are allowed meets what it returns. -/
theorem Meets.result {call : Except ε α} (herror : ∀ e, call = .error e → allowed e) :
    Meets allowed (fun a => call = .ok a) call := by
  cases call with
  | error e => exact herror e rfl
  | ok a => exact rfl

theorem Meets.of_eq {call : Except ε α} (hcall : Meets allowed post call) {a : α}
    (hrun : call = .ok a) : post a := by
  rw [hrun] at hcall
  exact hcall

theorem Meets.of_error {call : Except ε α} (hcall : Meets allowed post call) {e : ε}
    (hrun : call = .error e) : allowed e := by
  rw [hrun] at hcall
  exact hcall

end Calls
