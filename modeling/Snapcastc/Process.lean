import Mathlib

/-! How a call can end the process instead of returning (`error.h`). -/

namespace Snapcastc

/-- The ways out of a call that does not return. -/
inductive Fault where
  /-- `exit_error`, with the text it prints. -/
  | exitError (message : String)
  /-- `exit_bug`, with the text it prints. -/
  | exitBug (message : String)
  /-- `add_fd` on a descriptor that `epoll_ctl` refuses to add: `exit_errno`. -/
  | addFd (fd : Nat)
  /-- `del_fd` on a descriptor that `epoll_ctl` refuses to delete: `exit_errno`. -/
  | delFd (fd : Nat)
  /-- An `assert` that fails. -/
  | assertion
  /-- A loop that does not end. -/
  | endless
  /-- An integer division by zero. -/
  | divisionByZero
  /-- Something was used after it had been freed: a task by its handle after `taskqueue_run` or
  `drop_task`, or a member of a JSON object that is gone. -/
  | useAfterFree
  /-- A signed computation left the range of `long`, which C does not define. -/
  | signedOverflow
  /-- A `NULL` pointer was followed. -/
  | nullPointer
  /-- More bytes were copied than the buffers have. -/
  | outOfBounds
  deriving DecidableEq, Repr

/-- What a call leaves behind: the state, and how the call ended the process if it did. After a
fault the state is the one in which the part that failed was entered. -/
structure Outcome (σ : Type) where
  state : σ
  fault : Option Fault

/-- The outcome of a part that was entered in a state. -/
def Outcome.ofExcept {σ : Type} (entered : σ) : Except Fault σ → Outcome σ
  | .ok s => ⟨s, none⟩
  | .error fault => ⟨entered, some fault⟩

/-- A sequence of two parts returns when both do. -/
theorem except_bind_ok {α β : Type} {first : Except Fault α} {next : α → Except Fault β} {result : β}
    (hrun : (first >>= next) = .ok result) : ∃ a, first = .ok a ∧ next a = .ok result := by
  cases first with
  | error fault => cases hrun
  | ok a => exact ⟨a, rfl, hrun⟩

theorem except_ok_bind {α β : Type} (a : α) (next : α → Except Fault β) :
    (Except.ok a >>= next) = next a := rfl

/-- A part of which a result can be read off returns. -/
theorem except_map_ok {α β : Type} {call : Except Fault α} {view : α → β} {result : β}
    (hrun : call.map view = .ok result) : ∃ a, call = .ok a ∧ view a = result := by
  cases call with
  | error fault => cases hrun
  | ok a => exact ⟨a, rfl, Except.ok.inj hrun⟩

theorem except_map_some {α β : Type} {call : Except Fault α} {view : α → β} {result : β}
    (hrun : (call.map view).toOption = some result) : ∃ a, call = .ok a ∧ view a = result := by
  cases call with
  | error fault => cases hrun
  | ok a => exact ⟨a, rfl, Option.some.inj hrun⟩

theorem except_map_error {α β : Type} {call : Except Fault α} {view : α → β} {fault : Fault}
    (hrun : call.map view = .error fault) : call = .error fault := by
  cases call with
  | error other => exact congrArg Except.error (Except.error.inj hrun)
  | ok a => cases hrun

end Snapcastc
