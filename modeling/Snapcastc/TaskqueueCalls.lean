import Snapcastc.TaskqueueHeap

/-! The calls a program makes into the task queue: `post_task`, `drop_task` and `reschedule_task`, and
`taskqueue_insert` and `taskqueue_remove` on tasks of its own. `drop_task` calls back into the program,
whose cleanup may make calls in turn, so that calls form trees. -/

namespace Snapcastc

open Batteries.PairingHeapImp

/-- A call, with the delays and addresses it passes. A dropped task that has a cleanup makes the calls of
the list before it is freed. `tick` lets time pass, in nanoseconds. -/
inductive Call where
  | create (due : Timespec) (function : Nat) (cleanup : Option Nat) (data : Nat)
  | insert (task : Nat)
  | remove (task : Nat)
  | post (timeout millisecs : Int) (function : Nat) (cleanup : Option Nat) (data : Nat)
  | drop (task : Nat) (calls : List Call)
  | reschedule (task : Option Nat) (timeout millisecs : Int)
  | tick (nanos : Nat)

/-- What the scheduler did with a task, in the order of events: it called the function, the function
returned, the cleanup was called, the task was dropped. -/
inductive TaskEvent where
  | started (task : Nat) (due : Timespec) (cleanup : Option Nat)
  | returned (task : Nat)
  | cleaned (task : Nat)
  | dropped (task : Nat)
  deriving DecidableEq, Repr

/-- The queue, the monotonic clock in nanoseconds, the tasks whose handles are valid, and the events so
far. The program keeps neither the handles nor the events. -/
structure Scheduler where
  queue : Taskqueue
  clock : Nat
  live : Finset Nat
  log : List TaskEvent

def clockGettime (nanos : Nat) : Timespec := ⟨(nanos / billion : Nat), (nanos % billion : Nat)⟩

/-- The value is in the range of `long`. -/
def fitsLong (n : Int) : Bool := decide (-2 ^ 63 ≤ n ∧ n < 2 ^ 63)

namespace Scheduler

/-- The state after `taskqueue_init`. -/
def init : Scheduler := ⟨.init, 0, ∅, []⟩

/-- `settime`, where its signed arithmetic is defined. -/
def settime (s : Scheduler) (timeout millisecs : Int) : Except Fault Timespec :=
  let now := clockGettime s.clock
  let due := Snapcastc.settime now timeout millisecs
  if fitsLong (millisecs * 1000000) && fitsLong (millisecs * 1000000 + now.tvNsec) &&
      fitsLong (timeout + now.tvSec) && fitsLong due.tvSec then .ok due
  else .error .signedOverflow

theorem settime_error {s : Scheduler} {timeout millisecs : Int} {fault : Fault}
    (hdue : s.settime timeout millisecs = .error fault) : fault = .signedOverflow := by
  unfold settime at hdue
  dsimp only at hdue
  split_ifs at hdue
  exact (Except.error.inj hdue).symm

/-- The handle of a task that was posted or created is valid until the task is freed. -/
def postTask (s : Scheduler) (timeout millisecs : Int) (function : Nat) (cleanup : Option Nat)
    (data : Nat) : Except Fault Scheduler :=
  (s.settime timeout millisecs).bind fun due =>
    (s.queue.postTask due function cleanup data).map fun queue =>
      { s with queue := queue, live := insert s.queue.fresh s.live }

def rescheduleTask (s : Scheduler) (task : Option Nat) (timeout millisecs : Int) :
    Except Fault Scheduler :=
  match task with
  | none => .ok s
  | some t =>
      if t ∉ s.live then .error .useAfterFree
      else if s.queue.linked t then
        (s.settime timeout millisecs).bind fun due =>
          (s.queue.rescheduleTask t due).map fun queue => { s with queue := queue }
      else .ok s

/-- `if (task->cleanup) task->cleanup(task->data)`, where `calls` is what the cleanup does. -/
def callCleanup (s : Scheduler) (t : Nat) (calls : Scheduler → Except Fault Scheduler) :
    Except Fault Scheduler :=
  match s.queue.cleanup t with
  | none => .ok s
  | some _ => calls { s with log := s.log ++ [.cleaned t] }

/-- `drop_task`. A running task is freed when it has finished. The program has given up its handle when
the cleanup is called. -/
def dropTask (s : Scheduler) (t : Nat) (calls : Scheduler → Except Fault Scheduler) :
    Except Fault Scheduler :=
  if t ∉ s.live then .error .useAfterFree
  else if s.queue.running t then .ok s
  else
    (s.queue.remove t).bind fun queue =>
      (callCleanup { s with queue := queue, live := s.live.erase t, log := s.log ++ [.dropped t] } t
        calls).map fun s₁ => { s₁ with queue := s₁.queue.schedule }

mutual

def perform (call : Call) (s : Scheduler) : Except Fault Scheduler :=
  match call with
  | .create due function cleanup data =>
      .ok { s with
        queue := s.queue.alloc due function cleanup data
        live := insert s.queue.fresh s.live }
  | .insert t =>
      if t ∉ s.live then .error .useAfterFree
      else (s.queue.insert t).map fun queue => { s with queue := queue }
  | .remove t =>
      if t ∉ s.live then .error .useAfterFree
      else (s.queue.remove t).map fun queue => { s with queue := queue }
  | .post timeout millisecs function cleanup data =>
      s.postTask timeout millisecs function cleanup data
  | .drop t calls => s.dropTask t fun s => performAll calls s
  | .reschedule task timeout millisecs => s.rescheduleTask task timeout millisecs
  | .tick nanos => .ok { s with clock := s.clock + nanos }

def performAll (calls : List Call) (s : Scheduler) : Except Fault Scheduler :=
  match calls with
  | [] => .ok s
  | call :: calls => (perform call s).bind fun s => performAll calls s

end

end Scheduler

/-! ### The ledger -/

/-- What the calls alone say: which tasks there are, which were inserted and not removed since, and which
have a cleanup. -/
structure Ledger where
  live : Finset Nat
  linked : Finset Nat
  withCleanup : Finset Nat
  fresh : Nat

namespace Ledger

def empty : Ledger := ⟨∅, ∅, ∅, 0⟩

/-- A new task. -/
def alloc (l : Ledger) (cleanup : Option Nat) : Ledger :=
  { l with
    live := insert l.fresh l.live
    withCleanup := if cleanup.isSome then insert l.fresh l.withCleanup else l.withCleanup
    fresh := l.fresh + 1 }

mutual

/-- The ledger after a call. A call has none where the caller may not make it: at a task that was freed or
is being dropped, or to insert a task that is already in the queue. -/
def step (call : Call) (l : Ledger) : Option Ledger :=
  match call with
  | .create _ _ cleanup _ => some (l.alloc cleanup)
  | .insert t =>
      if t ∈ l.live ∧ t ∉ l.linked then some { l with linked := insert t l.linked } else none
  | .remove t => if t ∈ l.live then some { l with linked := l.linked.erase t } else none
  | .post _ _ _ cleanup _ =>
      some { l.alloc cleanup with linked := insert l.fresh l.linked }
  | .drop t calls =>
      if t ∈ l.live then
        let l' := { l with live := l.live.erase t, linked := l.linked.erase t }
        if t ∈ l.withCleanup then steps calls l' else some l'
      else none
  | .reschedule none _ _ => some l
  | .reschedule (some t) _ _ => if t ∈ l.live then some l else none
  | .tick _ => some l

def steps (calls : List Call) (l : Ledger) : Option Ledger :=
  match calls with
  | [] => some l
  | call :: calls => (step call l).bind fun l => steps calls l

end

end Ledger

/-- The call returns in such a state, unless its arithmetic is undefined. -/
def Returns (P : Scheduler → Prop) : Except Fault Scheduler → Prop
  | .ok s => P s
  | .error fault => fault = .signedOverflow

theorem Returns.bind {P Q : Scheduler → Prop} {first : Except Fault Scheduler}
    {next : Scheduler → Except Fault Scheduler} (hfirst : Returns P first)
    (hnext : ∀ s, P s → Returns Q (next s)) : Returns Q (first.bind next) := by
  cases first with
  | ok s => exact hnext s hfirst
  | error fault => exact hfirst

/-- The scheduler is in the state the ledger tells. -/
structure Tracks (s : Scheduler) (l : Ledger) : Prop where
  live : s.live = l.live
  fresh : s.queue.fresh = l.fresh
  heap : ∃ h, s.queue.Represents h ∧ ∀ t, t ∈ h.elements ↔ t ∈ l.linked
  stopped : ∀ t, s.queue.running t = false
  cleanup : ∀ t ∈ l.live, (s.queue.cleanup t).isSome = true ↔ t ∈ l.withCleanup
  sub : l.linked ⊆ l.live
  allocated : ∀ t ∈ l.live ∪ l.withCleanup, t < l.fresh

theorem tracks_init : Tracks .init .empty where
  live := rfl
  fresh := rfl
  heap := ⟨.nil, .init, by simp [Ledger.empty]⟩
  stopped := fun _ => rfl
  cleanup := by simp [Ledger.empty]
  sub := by simp [Ledger.empty]
  allocated := by simp [Ledger.empty]

namespace Tracks

variable {s : Scheduler} {l : Ledger}

/-- Another queue of the same tasks, with those linked that the ledger tells. -/
theorem relink (htracks : Tracks s l) {queue : Taskqueue} {linked : Finset Nat} {h : Heap Nat}
    (hrep : queue.Represents h) (hmem : ∀ t, t ∈ h.elements ↔ t ∈ linked)
    (hfresh : queue.fresh = s.queue.fresh) (hrunning : ∀ t, queue.running t = s.queue.running t)
    (hcleanup : ∀ t, queue.cleanup t = s.queue.cleanup t) (hsub : linked ⊆ l.live) :
    Tracks { s with queue := queue } { l with linked := linked } where
  live := htracks.live
  fresh := hfresh.trans htracks.fresh
  heap := ⟨h, hrep, hmem⟩
  stopped := fun t => (hrunning t).trans (htracks.stopped t)
  cleanup := fun t ht => by
    rw [hcleanup t]
    exact htracks.cleanup t ht
  sub := hsub
  allocated := htracks.allocated

/-- A queue with one task more. -/
theorem alloc (htracks : Tracks s l) {queue : Taskqueue} {linked : Finset Nat} {h : Heap Nat}
    (hrep : queue.Represents h) (hmem : ∀ t, t ∈ h.elements ↔ t ∈ linked)
    (hfresh : queue.fresh = s.queue.fresh + 1) {due : Timespec} {function : Nat} {cleanup : Option Nat}
    {data : Nat} (htask : ∀ t, Taskqueue.unlinked (queue.task t) = if t = s.queue.fresh then
      ⟨none, none, none, due, false, function, cleanup, data⟩ else Taskqueue.unlinked (s.queue.task t))
    (hsub : linked ⊆ insert l.fresh l.live) :
    Tracks { s with queue := queue, live := insert s.queue.fresh s.live }
      { l.alloc cleanup with linked := linked } where
  live := by
    simp only [Ledger.alloc, htracks.live, htracks.fresh]
  fresh := by
    simp only [Ledger.alloc, hfresh, htracks.fresh]
  heap := ⟨h, hrep, hmem⟩
  stopped := fun t => by
    change (Taskqueue.unlinked (queue.task t)).running = false
    rw [htask t]
    split_ifs
    · rfl
    · exact htracks.stopped t
  cleanup := fun t ht => by
    change (Taskqueue.unlinked (queue.task t)).cleanup.isSome = true ↔ _
    have hnew : l.fresh ∉ l.withCleanup :=
      fun h => lt_irrefl _ (htracks.allocated _ (Finset.mem_union_right _ h))
    rw [htask t, htracks.fresh]
    simp only [Ledger.alloc, Finset.mem_insert] at ht ⊢
    by_cases htf : t = l.fresh
    · subst htf
      rw [if_pos rfl]
      split_ifs with hcleanup
      · simp [hcleanup]
      · simp [hcleanup, hnew]
    · rw [if_neg htf]
      refine (htracks.cleanup t (ht.resolve_left htf)).trans ?_
      split_ifs <;> simp [htf]
  sub := hsub
  allocated := by
    intro t ht
    simp only [Ledger.alloc, Finset.mem_union, Finset.mem_insert] at ht ⊢
    by_cases htf : t = l.fresh
    · omega
    · refine (htracks.allocated t ?_).trans (Nat.lt_succ_self _)
      split_ifs at ht <;> simp_all

theorem insert (htracks : Tracks s l) {t : Nat} (hlive : t ∈ l.live) (hlinked : t ∉ l.linked) :
    Returns (Tracks · { l with linked := insert t l.linked }) (Scheduler.perform (.insert t) s) := by
  obtain ⟨h, hrep, hmem⟩ := htracks.heap
  obtain ⟨queue, h', hinsert, hrep', hmem', hcontent⟩ :=
    Taskqueue.insert_spec hrep (fun ht => hlinked ((hmem t).mp ht)) (by
      rw [htracks.fresh]
      exact htracks.allocated t (Finset.mem_union_left _ hlive))
  rw [Scheduler.perform, if_neg (by simpa [htracks.live] using hlive), hinsert]
  refine htracks.relink hrep' (fun x => ?_) hcontent.fresh hcontent.running hcontent.cleanup ?_
  · rw [hmem' x, hmem x, Finset.mem_insert]
  · exact Finset.insert_subset hlive htracks.sub

theorem remove (htracks : Tracks s l) {t : Nat} (hlive : t ∈ l.live) :
    Returns (Tracks · { l with linked := l.linked.erase t }) (Scheduler.perform (.remove t) s) := by
  obtain ⟨h, hrep, hmem⟩ := htracks.heap
  obtain ⟨queue, h', hremove, hrep', hmem', hcontent⟩ := Taskqueue.remove_spec hrep t
  rw [Scheduler.perform, if_neg (by simpa [htracks.live] using hlive), hremove]
  refine htracks.relink hrep' (fun x => ?_) hcontent.fresh hcontent.running hcontent.cleanup ?_
  · rw [hmem' x, hmem x, Finset.mem_erase]
  · exact (Finset.erase_subset _ _).trans htracks.sub

theorem create (htracks : Tracks s l) (due : Timespec) (function : Nat) (cleanup : Option Nat)
    (data : Nat) :
    Returns (Tracks · (l.alloc cleanup)) (Scheduler.perform (.create due function cleanup data) s) := by
  obtain ⟨h, hrep, hmem⟩ := htracks.heap
  have htask : ∀ t, Taskqueue.unlinked ((s.queue.alloc due function cleanup data).task t) =
      if t = s.queue.fresh then ⟨none, none, none, due, false, function, cleanup, data⟩
      else Taskqueue.unlinked (s.queue.task t) := by
    intro t
    simp only [Taskqueue.alloc, Function.update_apply]
    split_ifs <;> rfl
  rw [Scheduler.perform]
  exact htracks.alloc (Taskqueue.alloc_spec hrep due function cleanup data) hmem rfl htask
    (htracks.sub.trans (Finset.subset_insert _ _))

theorem post (htracks : Tracks s l) (timeout millisecs : Int) (function : Nat) (cleanup : Option Nat)
    (data : Nat) :
    Returns (Tracks · { l.alloc cleanup with linked := Insert.insert l.fresh l.linked })
      (s.postTask timeout millisecs function cleanup data) := by
  obtain ⟨h, hrep, hmem⟩ := htracks.heap
  unfold Scheduler.postTask
  cases hdue : s.settime timeout millisecs with
  | error fault => exact Scheduler.settime_error hdue
  | ok due =>
      obtain ⟨queue, h', hpost, hrep', hmem', hfresh, htask⟩ :=
        Taskqueue.postTask_spec hrep due function cleanup data
      simp only [Except.bind, hpost, Except.map]
      refine htracks.alloc hrep' (fun x => ?_) hfresh htask ?_
      · rw [hmem' x, hmem x, htracks.fresh, Finset.mem_insert]
      · exact Finset.insert_subset_insert _ htracks.sub

theorem reschedule (htracks : Tracks s l) {t : Nat} (hlive : t ∈ l.live) (timeout millisecs : Int) :
    Returns (Tracks · l) (s.rescheduleTask (some t) timeout millisecs) := by
  obtain ⟨h, hrep, hmem⟩ := htracks.heap
  unfold Scheduler.rescheduleTask
  dsimp only
  rw [if_neg (by simpa [htracks.live] using hlive)]
  split_ifs with hlinked
  · cases hdue : s.settime timeout millisecs with
    | error fault => exact Scheduler.settime_error hdue
    | ok due =>
        obtain ⟨queue, h', hreschedule, hrep', hmem', hfresh, htask⟩ :=
          Taskqueue.rescheduleTask_spec hrep t due
        simp only [Except.bind, hreschedule, Except.map]
        refine htracks.relink hrep' (fun x => (hmem' x).trans (hmem x)) hfresh (fun x => ?_)
          (fun x => ?_) htracks.sub
        · change (Taskqueue.unlinked (queue.task x)).running = _
          rw [htask x]
          split_ifs <;> rfl
        · change (Taskqueue.unlinked (queue.task x)).cleanup = _
          rw [htask x]
          split_ifs <;> rfl
  · exact htracks

/-- Writing the timer changes nothing the ledger tells. -/
theorem schedule (htracks : Tracks s l) : Tracks { s with queue := s.queue.schedule } l := by
  obtain ⟨h, hrep, hmem⟩ := htracks.heap
  obtain ⟨htask, hfresh, -⟩ := s.queue.schedule_task
  refine htracks.relink hrep.schedule hmem hfresh (fun t => ?_) (fun t => ?_) htracks.sub
  · rw [Taskqueue.running, Taskqueue.running, htask]
  · rw [Taskqueue.cleanup, Taskqueue.cleanup, htask]

/-- `drop_task`, where the calls of the cleanup keep to the ledger. -/
theorem drop (htracks : Tracks s l) {t : Nat} (hlive : t ∈ l.live)
    {calls : Scheduler → Except Fault Scheduler} {after : Ledger}
    (hcalls : t ∈ l.withCleanup → ∀ s₁,
      Tracks s₁ { l with live := l.live.erase t, linked := l.linked.erase t } →
        Returns (Tracks · after) (calls s₁))
    (hnone : t ∉ l.withCleanup →
      after = { l with live := l.live.erase t, linked := l.linked.erase t }) :
    Returns (Tracks · after) (s.dropTask t calls) := by
  obtain ⟨h, hrep, hmem⟩ := htracks.heap
  obtain ⟨queue, h', hremove, hrep', hmem', hcontent⟩ := Taskqueue.remove_spec hrep t
  unfold Scheduler.dropTask
  rw [if_neg (by simpa [htracks.live] using hlive), if_neg (by simp [htracks.stopped t]), hremove]
  -- the task is out of the queue and the program has given up its handle
  have hgone : ∀ log, Tracks { s with queue := queue, live := s.live.erase t, log := log }
      { l with live := l.live.erase t, linked := l.linked.erase t } := by
    intro log
    refine ⟨by simp only [htracks.live], hcontent.fresh.trans htracks.fresh, ⟨h', hrep', fun x => ?_⟩,
      fun x => (hcontent.running x).trans (htracks.stopped x), fun x hx => ?_, ?_, fun x hx => ?_⟩
    · rw [hmem' x, hmem x, Finset.mem_erase]
    · rw [hcontent.cleanup x]
      exact htracks.cleanup x (Finset.mem_of_mem_erase hx)
    · exact Finset.erase_subset_erase _ htracks.sub
    · refine htracks.allocated x ?_
      simp only [Finset.mem_union] at hx ⊢
      exact hx.imp Finset.mem_of_mem_erase id
  have hcleanup := htracks.cleanup t hlive
  rw [← hcontent.cleanup t] at hcleanup
  unfold Scheduler.callCleanup
  simp only [Except.bind]
  cases hcase : queue.cleanup t with
  | none =>
      rw [hcase] at hcleanup
      rw [hnone fun ht => by simpa using hcleanup.mpr ht]
      exact (hgone _).schedule
  | some c =>
      rw [hcase] at hcleanup
      have hreturns := hcalls (hcleanup.mp rfl) _ (hgone ((s.log ++ [.dropped t]) ++ [.cleaned t]))
      dsimp only at hreturns ⊢
      revert hreturns
      cases calls { s with queue := queue, live := s.live.erase t,
                           log := (s.log ++ [.dropped t]) ++ [.cleaned t] } with
      | ok s₁ => exact fun hs₁ => Tracks.schedule hs₁
      | error fault => exact id

end Tracks

mutual

/-- One call takes the scheduler where the ledger says. The induction is on the tree of calls. -/
theorem perform_tracks (call : Call) {s : Scheduler} {l l' : Ledger} (htracks : Tracks s l)
    (hstep : l.step call = some l') : Returns (Tracks · l') (Scheduler.perform call s) :=
  match call with
  | .create due function cleanup data => by
      rw [Ledger.step] at hstep
      rw [← Option.some.inj hstep]
      exact htracks.create due function cleanup data
  | .insert t => by
      rw [Ledger.step] at hstep
      split_ifs at hstep with hlegal
      rw [← Option.some.inj hstep]
      exact htracks.insert hlegal.1 hlegal.2
  | .remove t => by
      rw [Ledger.step] at hstep
      split_ifs at hstep with hlive
      rw [← Option.some.inj hstep]
      exact htracks.remove hlive
  | .post timeout millisecs function cleanup data => by
      rw [Ledger.step] at hstep
      rw [← Option.some.inj hstep, Scheduler.perform]
      exact htracks.post timeout millisecs function cleanup data
  | .drop t calls => by
      rw [Ledger.step] at hstep
      rw [Scheduler.perform]
      split_ifs at hstep with hlive hcleanup
      · exact htracks.drop hlive (fun _ s₁ hs₁ => performAll_tracks calls hs₁ hstep)
          (fun hnot => absurd hcleanup hnot)
      · exact htracks.drop hlive (fun hc => absurd hc hcleanup) fun _ => (Option.some.inj hstep).symm
  | .reschedule none timeout millisecs => by
      rw [Ledger.step] at hstep
      rw [← Option.some.inj hstep, Scheduler.perform]
      exact htracks
  | .reschedule (some t) timeout millisecs => by
      rw [Ledger.step] at hstep
      split_ifs at hstep with hlive
      rw [← Option.some.inj hstep, Scheduler.perform]
      exact htracks.reschedule hlive timeout millisecs
  | .tick nanos => by
      rw [Ledger.step] at hstep
      rw [← Option.some.inj hstep, Scheduler.perform]
      exact ⟨htracks.live, htracks.fresh, htracks.heap, htracks.stopped, htracks.cleanup, htracks.sub,
        htracks.allocated⟩

/-- A sequence of calls takes the scheduler where the ledger says. -/
theorem performAll_tracks (calls : List Call) {s : Scheduler} {l l' : Ledger} (htracks : Tracks s l)
    (hsteps : l.steps calls = some l') : Returns (Tracks · l') (Scheduler.performAll calls s) :=
  match calls with
  | [] => by
      rw [Ledger.steps] at hsteps
      rw [← Option.some.inj hsteps, Scheduler.performAll]
      exact htracks
  | call :: calls => by
      rw [Ledger.steps] at hsteps
      obtain ⟨l₁, hstep, hrest⟩ := Option.bind_eq_some_iff.mp hsteps
      rw [Scheduler.performAll]
      exact (perform_tracks call htracks hstep).bind fun s₁ hs₁ => performAll_tracks calls hs₁ hrest

end

end Snapcastc
