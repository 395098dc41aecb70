import Snapcastc.Timespec
import Snapcastc.Process

/-! The task queue of `taskqueue.c`: a pairing heap of tasks that are linked in place. A task is a
number, its address; `pprev` designates one of the pointers that can point to a task. -/

namespace Snapcastc

/-- A place that holds a pointer to a task: `&ctx->queue`, `&task->next` or `&task->children`. -/
inductive Slot where
  | queue
  | next (task : Nat)
  | children (task : Nat)
  deriving DecidableEq, Repr

/-- `struct taskqueue`. The function, its cleanup and the data are addresses the queue only hands on;
a task need not have a cleanup. -/
structure Task where
  pprev : Option Slot
  next : Option Nat
  children : Option Nat
  due : Timespec
  running : Bool
  function : Nat
  cleanup : Option Nat
  data : Nat
  deriving DecidableEq, Repr, Inhabited

/-- The memory the functions of `taskqueue.c` work on: the root pointer of the context, the tasks by
address, the address of the next allocation, and the time the timer was last set to. -/
structure Taskqueue where
  queue : Option Nat
  task : Nat → Task
  fresh : Nat
  timer : Option Timespec

namespace Taskqueue

/-- `taskqueue_init`: no task is linked, none is allocated. -/
def init : Taskqueue := ⟨none, fun _ => ⟨none, none, none, ⟨0, 0⟩, false, 0, none, 0⟩, 0, none⟩

/-- The pointer at a place. -/
def get (s : Taskqueue) : Slot → Option Nat
  | .queue => s.queue
  | .next t => (s.task t).next
  | .children t => (s.task t).children

def pprev (s : Taskqueue) (t : Nat) : Option Slot := (s.task t).pprev

def due (s : Taskqueue) (t : Nat) : Timespec := (s.task t).due

def running (s : Taskqueue) (t : Nat) : Bool := (s.task t).running

def cleanup (s : Taskqueue) (t : Nat) : Option Nat := (s.task t).cleanup

def modify (s : Taskqueue) (t : Nat) (f : Task → Task) : Taskqueue :=
  { s with task := Function.update s.task t (f (s.task t)) }

/-- Write the pointer at a place. -/
def set (s : Taskqueue) (slot : Slot) (pointer : Option Nat) : Taskqueue :=
  match slot with
  | .queue => { s with queue := pointer }
  | .next t => s.modify t fun task => { task with next := pointer }
  | .children t => s.modify t fun task => { task with children := pointer }

def setPprev (s : Taskqueue) (t : Nat) (slot : Option Slot) : Taskqueue :=
  s.modify t fun task => { task with pprev := slot }

def setDue (s : Taskqueue) (t : Nat) (due : Timespec) : Taskqueue :=
  s.modify t fun task => { task with due := due }

def setRunning (s : Taskqueue) (t : Nat) : Taskqueue :=
  s.modify t fun task => { task with running := true }

/-- `if (pointer) pointer->pprev = slot`. -/
def setPprevOf (s : Taskqueue) (pointer : Option Nat) (slot : Slot) : Taskqueue :=
  match pointer with
  | some t => s.setPprev t (some slot)
  | none => s

/-! ### The pairing heap -/

/-- `taskqueue_linked`. -/
def linked (s : Taskqueue) (elem : Nat) : Bool := (s.pprev elem).isSome

/-- `taskqueue_link`. -/
def link (s : Taskqueue) (slot : Slot) (elem : Nat) : Except Fault Taskqueue :=
  if (s.get (.next elem)).isSome then .error (.exitBug "taskqueue_link: element already linked")
  else
    let s₁ := s.setPprev elem (some slot)
    let s₂ := s₁.set (.next elem) (s₁.get slot)
    let s₃ := s₂.setPprevOf (s₂.get (.next elem)) (.next elem)
    .ok (s₃.set slot (some elem))

/-- `taskqueue_unlink`, where `pprev` is the value of `elem->pprev`. -/
def unlink (s : Taskqueue) (pprev : Slot) (elem : Nat) : Taskqueue :=
  let s₁ := s.set pprev (s.get (.next elem))
  let s₂ := s₁.setPprevOf (s₁.get (.next elem)) pprev
  s₂.set (.next elem) none

/-- `taskqueue_merge`: the memory and the root of the merged queue. -/
def merge (s : Taskqueue) (queue1 queue2 : Option Nat) : Except Fault (Taskqueue × Nat) :=
  match queue1 with
  | none => .error (.exitBug "taskqueue_merge: queue1 unset")
  | some q1 =>
      if (s.get (.next q1)).isSome then .error (.exitBug "taskqueue_merge: queue2 has successor")
      else match queue2 with
        | none => .ok (s, q1)
        | some q2 =>
            if (s.get (.next q2)).isSome then
              .error (.exitBug "taskqueue_merge: queue2 has successor")
            else if timespecCmp (s.due q1) (s.due q2) < 0 then
              (s.link (.children q1) q2).map fun s' => (s', q1)
            else
              (s.link (.children q2) q1).map fun s' => (s', q2)

/-- `taskqueue_merge_pairs`. The first argument bounds the depth of the recursion. The compiler may
evaluate the two arguments of the outer merge in either order; they touch different tasks. -/
def mergePairs : Nat → Taskqueue → Option Nat → Except Fault (Taskqueue × Option Nat)
  | _, s, none => .ok (s, none)
  | 0, _, some _ => .error .endless
  | depth + 1, s, some queue0 =>
      if (s.pprev queue0).isNone then
        .error (.exitBug "taskqueue_merge_pairs: unlinked queue")
      else match s.get (.next queue0) with
        | none => .ok (s, some queue0)
        | some queue1 =>
            let queue2 := s.get (.next queue1)
            let s₁ := (s.set (.next queue1) none).set (.next queue0) none
            (s₁.merge (some queue0) (some queue1)).bind fun pair =>
              (mergePairs depth pair.1 queue2).bind fun rest =>
                (rest.1.merge (some pair.2) rest.2).map fun r => (r.1, some r.2)

/-- `taskqueue_insert(&ctx->queue, elem)`. -/
def insert (s : Taskqueue) (elem : Nat) : Except Fault Taskqueue :=
  if (s.pprev elem).isSome || (s.get (.next elem)).isSome || (s.get (.children elem)).isSome then
    .error (.exitBug "taskqueue_insert: tried to insert linked queue element")
  else
    (s.merge (some elem) s.queue).map fun r => (r.1.set .queue (some r.2)).setPprev r.2 (some .queue)

/-- `if (merged) taskqueue_link(pprev, merged)`. -/
def linkMerged (s : Taskqueue) (pprev : Slot) : Option Nat → Except Fault Taskqueue
  | some merged => s.link pprev merged
  | none => .ok s

/-- `taskqueue_remove`. The recursion over the children is at most as deep as there are tasks. -/
def remove (s : Taskqueue) (elem : Nat) : Except Fault Taskqueue :=
  match s.pprev elem with
  | none =>
      if (s.get (.children elem)).isSome || (s.get (.next elem)).isSome then
        .error (.exitBug "taskqueue_remove: corrupted queue item")
      else .ok s
  | some pprev =>
      let s₁ := s.unlink pprev elem
      (mergePairs s₁.fresh s₁ (s₁.get (.children elem))).bind fun merged =>
        (merged.1.linkMerged pprev merged.2).map fun s₂ =>
          (s₂.setPprev elem none).set (.children elem) none

/-- `taskqueue_schedule`: set the timer to the due time at the root. -/
def schedule (s : Taskqueue) : Taskqueue :=
  match s.queue with
  | none => s
  | some root => { s with timer := some (s.due root) }

/-- The allocation of a task that is linked nowhere, as in `post_task`. -/
def alloc (s : Taskqueue) (due : Timespec) (function : Nat) (cleanup : Option Nat) (data : Nat) :
    Taskqueue :=
  { s with
    task := Function.update s.task s.fresh ⟨none, none, none, due, false, function, cleanup, data⟩
    fresh := s.fresh + 1 }

/-- `post_task`, where `due` is what `settime` returned. The task is at the address that was fresh. -/
def postTask (s : Taskqueue) (due : Timespec) (function : Nat) (cleanup : Option Nat) (data : Nat) :
    Except Fault Taskqueue :=
  ((s.alloc due function cleanup data).insert s.fresh).map schedule

/-- `reschedule_task` on a task, where `due` is what `settime` returned. The due time is written while
the task is still linked at its old place. -/
def rescheduleTask (s : Taskqueue) (task : Nat) (due : Timespec) : Except Fault Taskqueue :=
  if s.linked task then
    if timespecCmp due (s.due task) ≠ 0 then
      ((s.setDue task due).remove task).bind fun s₁ => (s₁.insert task).map schedule
    else .ok s
  else .ok s

/-! ### What a write changes -/

@[simp] theorem get_set (s : Taskqueue) (slot slot' : Slot) (pointer : Option Nat) :
    (s.set slot pointer).get slot' = if slot' = slot then pointer else s.get slot' := by
  cases slot <;> cases slot' <;> simp only [set, get, modify, reduceCtorEq, if_false, if_true,
    Slot.next.injEq, Slot.children.injEq, Function.update_apply] <;> split_ifs with h <;> simp_all

@[simp] theorem pprev_set (s : Taskqueue) (slot : Slot) (pointer : Option Nat) (t : Nat) :
    (s.set slot pointer).pprev t = s.pprev t := by
  cases slot <;> simp only [set, pprev, modify, Function.update_apply] <;> split_ifs with h <;> simp_all

@[simp] theorem get_setPprev (s : Taskqueue) (t : Nat) (p : Option Slot) (slot : Slot) :
    (s.setPprev t p).get slot = s.get slot := by
  cases slot <;> simp only [setPprev, get, modify, Function.update_apply] <;> split_ifs with h <;>
    simp_all

@[simp] theorem pprev_setPprev (s : Taskqueue) (t t' : Nat) (p : Option Slot) :
    (s.setPprev t p).pprev t' = if t' = t then p else s.pprev t' := by
  simp only [setPprev, pprev, modify, Function.update_apply]
  split_ifs <;> rfl

@[simp] theorem get_setPprevOf (s : Taskqueue) (pointer : Option Nat) (p slot : Slot) :
    (s.setPprevOf pointer p).get slot = s.get slot := by
  cases pointer <;> simp [setPprevOf]

@[simp] theorem pprev_setPprevOf (s : Taskqueue) (pointer : Option Nat) (p : Slot) (t : Nat) :
    (s.setPprevOf pointer p).pprev t = if pointer = some t then some p else s.pprev t := by
  cases pointer with
  | none => simp [setPprevOf]
  | some t' => simp [setPprevOf, eq_comm]

@[simp] theorem get_setDue (s : Taskqueue) (t : Nat) (d : Timespec) (slot : Slot) :
    (s.setDue t d).get slot = s.get slot := by
  cases slot <;> simp only [setDue, get, modify, Function.update_apply] <;> split_ifs with h <;>
    simp_all

@[simp] theorem pprev_setDue (s : Taskqueue) (t t' : Nat) (d : Timespec) :
    (s.setDue t d).pprev t' = s.pprev t' := by
  simp only [setDue, pprev, modify, Function.update_apply]
  split_ifs with h <;> simp_all

@[simp] theorem due_setDue (s : Taskqueue) (t t' : Nat) (d : Timespec) :
    (s.setDue t d).due t' = if t' = t then d else s.due t' := by
  simp only [setDue, due, modify, Function.update_apply]
  split_ifs <;> rfl

theorem get_setRunning (s : Taskqueue) (t : Nat) (slot : Slot) :
    (s.setRunning t).get slot = s.get slot := by
  cases slot <;> simp only [setRunning, get, modify, Function.update_apply] <;> split_ifs with h <;>
    simp_all

theorem pprev_setRunning (s : Taskqueue) (t t' : Nat) : (s.setRunning t).pprev t' = s.pprev t' := by
  simp only [setRunning, pprev, modify, Function.update_apply]
  split_ifs with h <;> simp_all

theorem due_setRunning (s : Taskqueue) (t t' : Nat) : (s.setRunning t).due t' = s.due t' := by
  simp only [setRunning, due, modify, Function.update_apply]
  split_ifs with h <;> simp_all

theorem cleanup_setRunning (s : Taskqueue) (t t' : Nat) :
    (s.setRunning t).cleanup t' = s.cleanup t' := by
  simp only [setRunning, cleanup, modify, Function.update_apply]
  split_ifs with h <;> simp_all

theorem running_setRunning (s : Taskqueue) (t t' : Nat) :
    (s.setRunning t).running t' = if t' = t then true else s.running t' := by
  simp only [setRunning, running, modify, Function.update_apply]
  split_ifs <;> rfl

end Taskqueue

end Snapcastc
