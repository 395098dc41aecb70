import Snapcastc.TaskqueueWellFormed
import Snapcastc.TaskqueueExecution

/-! The timer of the task queue. Whatever the program and its callbacks do to the queue, the timer is set to
the first due time whenever control is back in the main loop. -/

namespace Snapcastc

open Batteries.PairingHeapImp

/-- What one executed task does: the calls of its function and those of its cleanup. -/
structure Body (α : Type) where
  function : List α
  cleanup : List α

/-- A call, as the main loop or a callback makes it. `taskqueue_run` executes one body for each due task,
and the timer is read some time after the clock. `tick` lets time pass, in nanoseconds. -/
inductive QueueCall where
  | post (timeout millisecs : Int) (function : Nat) (cleanup : Option Nat) (data : Nat)
  | drop (task : Nat) (calls : List QueueCall)
  | reschedule (task : Option Nat) (timeout millisecs : Int)
  | run (delay : Nat) (bodies : List (Body QueueCall))
  | tick (nanos : Nat)

namespace Scheduler

/-- `read(ctx->fd, ..)`: a timer that has expired is not set any more. -/
def readTimer (s : Scheduler) : Scheduler :=
  match s.queue.timer with
  | none => s
  | some due =>
      if timespecCmp due (clockGettime s.clock) ≤ 0 then { s with queue := { s.queue with timer := none } }
      else s

/-- One round of the loop of `taskqueue_run` at the root, where `function` and `cleanup` are what the task
does. -/
def runTask (s : Scheduler) (t : Nat) (function cleanup : Scheduler → Except Fault Scheduler) :
    Except Fault Scheduler :=
  (s.queue.remove t).bind fun queue =>
    (function { s with
        queue := queue.setRunning t
        log := s.log ++ [.started t (queue.due t) (queue.cleanup t)] }).bind fun s₁ =>
      (callCleanup { s₁ with log := s₁.log ++ [.returned t] } t cleanup).map fun s₂ =>
        { s₂ with live := s₂.live.erase t }

/-- `taskqueue_run`, where `loop` is its loop. -/
def runQueue (s : Scheduler) (delay : Nat) (loop : Timespec → Scheduler → Except Fault Scheduler) :
    Except Fault Scheduler :=
  let s₁ := readTimer { s with clock := s.clock + delay }
  match s₁.queue.queue with
  | none => .ok s₁
  | some _ =>
      (loop (clockGettime s.clock) s₁).map fun s₂ => { s₂ with queue := s₂.queue.schedule }

mutual

def call (c : QueueCall) (s : Scheduler) : Except Fault Scheduler :=
  match c with
  | .post timeout millisecs function cleanup data =>
      s.postTask timeout millisecs function cleanup data
  | .drop t calls => s.dropTask t fun s => callAll calls s
  | .reschedule task timeout millisecs => s.rescheduleTask task timeout millisecs
  | .run delay bodies => s.runQueue delay fun now s => loop bodies now s
  | .tick nanos => .ok { s with clock := s.clock + nanos }

def callAll (calls : List QueueCall) (s : Scheduler) : Except Fault Scheduler :=
  match calls with
  | [] => .ok s
  | c :: calls => (call c s).bind fun s => callAll calls s

/-- The loop of `taskqueue_run`, with one body for each round. Where there are fewer, the loop is still
running. -/
def loop (bodies : List (Body QueueCall)) (now : Timespec) (s : Scheduler) : Except Fault Scheduler :=
  match bodies with
  | [] =>
      match s.firstDue now with
      | none => .ok s
      | some _ => .error .endless
  | ⟨function, cleanup⟩ :: bodies =>
      match s.firstDue now with
      | none => .ok s
      | some t =>
          (s.runTask t (fun s => callAll function s) fun s => callAll cleanup s).bind fun s =>
            loop bodies now s

end

/-- The state after `taskqueue_init` at a time. -/
def start (nanos : Nat) : Scheduler := { init with clock := nanos }

end Scheduler

mutual

/-- No delay of the call is negative, nor one of the calls it leads to. -/
def QueueCall.forward (c : QueueCall) : Bool :=
  match c with
  | .post timeout millisecs _ _ _ => decide (0 ≤ timeout ∧ 0 ≤ millisecs)
  | .drop _ calls => QueueCall.forwardAll calls
  | .reschedule _ timeout millisecs => decide (0 ≤ timeout ∧ 0 ≤ millisecs)
  | .run _ bodies => QueueCall.forwardBodies bodies
  | .tick _ => true

def QueueCall.forwardAll (calls : List QueueCall) : Bool :=
  match calls with
  | [] => true
  | c :: calls => QueueCall.forward c && QueueCall.forwardAll calls

def QueueCall.forwardBodies (bodies : List (Body QueueCall)) : Bool :=
  match bodies with
  | [] => true
  | ⟨function, cleanup⟩ :: bodies =>
      QueueCall.forwardAll function && QueueCall.forwardAll cleanup && QueueCall.forwardBodies bodies

end

/-- Unless the queue is empty, the timer is set to the due time of a queued task, and no queued task is due
earlier. -/
def Taskqueue.Armed (s : Taskqueue) : Prop :=
  s.queue ≠ none → ∃ t ∈ s.tasks, s.timer = some (s.due t) ∧
    ∀ t' ∈ s.tasks, timespecCmp (s.due t) (s.due t') ≤ 0

/-- The times at which `timerfd_settime` lets a timer expire: it refuses times that are not normalised or
negative, and takes zero as the end of the timer. -/
def Timespec.Arms (t : Timespec) : Prop := t.Normalised ∧ 0 ≤ t.tvSec ∧ t ≠ ⟨0, 0⟩

theorem Taskqueue.schedule_schedule (s : Taskqueue) : s.schedule.schedule = s.schedule := by
  cases hroot : s.queue with
  | none =>
      have hsame : s.schedule = s := by rw [schedule, hroot]
      rw [hsame, hsame]
  | some root =>
      have hset : s.schedule = { s with timer := some (s.due root) } := by rw [schedule, hroot]
      rw [hset, schedule]
      dsimp only
      rw [hroot]
      rfl

/-- A heap to whose root the timer was set. -/
theorem Taskqueue.Represents.armed {s : Taskqueue} {h : Heap Nat} (hrep : s.Represents h)
    (hset : s.schedule = s) : s.Armed := by
  intro hne
  have htasks : s.tasks = h.elements := hrep.shape.walk hrep.length_le
  obtain ⟨root, hroot⟩ := Option.ne_none_iff_exists'.mp hne
  have hget : s.get .queue = some root := hroot
  rw [Taskqueue.schedule, hroot] at hset
  rw [htasks]
  exact ⟨root, hrep.mem_of_get hget, (congrArg Taskqueue.timer hset).symm, fun t ht =>
    hrep.root_le hget ht⟩

/-! ### What the calls keep -/

/-- The call returns in such a state, or it does not return at all: a handle was not valid, a due time does
not fit, or `taskqueue_run` still runs. `exit_bug` is not reached. -/
def Completes (P : Scheduler → Prop) : Except Fault Scheduler → Prop
  | .ok s => P s
  | .error fault => ∀ message, fault ≠ .exitBug message

theorem Completes.bind {P Q : Scheduler → Prop} {first : Except Fault Scheduler}
    {next : Scheduler → Except Fault Scheduler} (hfirst : Completes P first)
    (hnext : ∀ s, P s → Completes Q (next s)) : Completes Q (first.bind next) := by
  cases first with
  | ok s => exact hnext s hfirst
  | error fault => exact hfirst

theorem Completes.map {P Q : Scheduler → Prop} {first : Except Fault Scheduler}
    {view : Scheduler → Scheduler} (hfirst : Completes P first) (hview : ∀ s, P s → Q (view s)) :
    Completes Q (first.map view) := by
  cases first with
  | ok s => exact hview s hfirst
  | error fault => exact hfirst

theorem Completes.imp {P Q : Scheduler → Prop} {result : Except Fault Scheduler}
    (hresult : Completes P result) (himp : ∀ s, P s → Q s) : Completes Q result := by
  cases result with
  | ok s => exact himp s hresult
  | error fault => exact hresult

theorem completes_settime {s : Scheduler} {timeout millisecs : Int} {fault : Fault}
    (hdue : s.settime timeout millisecs = .error fault) (message : String) : fault ≠ .exitBug message := by
  rw [Scheduler.settime_error hdue]
  exact nofun

/-- Every queued task is due at a proper time, and none before a time of the past. -/
structure Ahead (earliest : Nat) (s : Scheduler) : Prop where
  clock : earliest ≤ s.clock
  due : ∀ t, s.queue.linked t = true →
    (s.queue.due t).Normalised ∧ timespecCmp (clockGettime earliest) (s.queue.due t) ≤ 0

/-- What calls keep: the queue stays a heap of live tasks that do not run, and running tasks go on running.
Where no delay is negative, the due times stay ahead. -/
structure Upkeep (forward : Prop) (s s' : Scheduler) : Prop where
  sound : Sound s'
  running : ∀ t ∈ s.live, s.queue.running t = true → t ∈ s'.live ∧ s'.queue.running t = true
  ahead : forward → ∀ earliest, Ahead earliest s → Ahead earliest s'

namespace Upkeep

variable {forward forward' : Prop} {s s₁ s' : Scheduler}

theorem refl (hsound : Sound s) : Upkeep forward s s :=
  ⟨hsound, fun _ ht hrunning => ⟨ht, hrunning⟩, fun _ _ hahead => hahead⟩

theorem trans (h : Upkeep forward s s₁) (h' : Upkeep forward s₁ s') : Upkeep forward s s' where
  sound := h'.sound
  running := fun t ht hrunning => h'.running t (h.running t ht hrunning).1 (h.running t ht hrunning).2
  ahead := fun hforward earliest hahead => h'.ahead hforward earliest (h.ahead hforward earliest hahead)

theorem imp (h : Upkeep forward' s s') (himp : forward → forward') : Upkeep forward s s' :=
  ⟨h.sound, h.running, fun hforward => h.ahead (himp hforward)⟩

/-- The log has no part in it. -/
theorem log (hsound : Sound s) (log : List TaskEvent) : Upkeep forward s { s with log := log } :=
  ⟨⟨hsound.heap, hsound.allocated⟩, fun _ ht hrunning => ⟨ht, hrunning⟩,
    fun _ _ hahead => ⟨hahead.clock, hahead.due⟩⟩

/-- Another queue, with tasks at due times that they had or that are ahead of the clock. -/
theorem requeue {queue : Taskqueue} {live : Finset Nat} {log : List TaskEvent} {h' : Heap Nat}
    (hrep : queue.Represents h')
    (hlinked : ∀ t ∈ h'.elements, t ∈ live ∧ queue.running t = false)
    (hallocated : ∀ t ∈ live, t < queue.fresh)
    (hrunning : ∀ t ∈ s.live, s.queue.running t = true → t ∈ live ∧ queue.running t = true)
    (hdue : forward → ∀ t ∈ h'.elements,
      s.queue.linked t = true ∧ queue.due t = s.queue.due t ∨
        (queue.due t).Normalised ∧ timespecCmp (clockGettime s.clock) (queue.due t) ≤ 0) :
    Upkeep forward s { s with queue := queue, live := live, log := log } where
  sound := ⟨⟨h', hrep, hlinked⟩, hallocated⟩
  running := hrunning
  ahead := fun hforward earliest hahead => by
    refine ⟨hahead.clock, fun t ht => ?_⟩
    change queue.linked t = true at ht
    change (queue.due t).Normalised ∧ timespecCmp _ (queue.due t) ≤ 0
    rcases hdue hforward t ((hrep.linked_iff t).mp ht) with ⟨hold, hsame⟩ | ⟨hnormalised, hlate⟩
    · rw [hsame]
      exact hahead.due t hold
    · exact ⟨hnormalised,
        timespecCmp_totalPreorder.trans _ _ _ (clockGettime_mono hahead.clock) hlate⟩

end Upkeep

theorem settime_normalised {s : Scheduler} {timeout millisecs : Int} {due : Timespec}
    (hdue : s.settime timeout millisecs = .ok due) : due.Normalised := by
  unfold Scheduler.settime at hdue
  dsimp only at hdue
  split_ifs at hdue
  rw [← Except.ok.inj hdue]
  unfold Snapcastc.settime timeAdd Timespec.Normalised
  dsimp only
  rw [timeAddLoop_eq]
  unfold billion
  dsimp only
  omega

/-- The spec of a call: what it keeps, and that the timer stays armed. -/
def Upkeep.Armed (forward : Prop) (s s' : Scheduler) : Prop :=
  Upkeep forward s s' ∧ (s.queue.Armed → s'.queue.Armed)

namespace Upkeep.Armed

variable {forward forward' : Prop} {s s₁ s' : Scheduler}

theorem refl (hsound : Sound s) : Armed forward s s := ⟨.refl hsound, id⟩

theorem trans (h : Armed forward s s₁) (h' : Armed forward s₁ s') : Armed forward s s' :=
  ⟨h.1.trans h'.1, fun harmed => h'.2 (h.2 harmed)⟩

theorem imp (h : Armed forward' s s') (himp : forward → forward') : Armed forward s s' :=
  ⟨h.1.imp himp, h.2⟩

/-- Calls that end with `taskqueue_schedule`. -/
theorem schedule (h : Upkeep forward s s₁) :
    Armed forward s { s₁ with queue := s₁.queue.schedule } := by
  obtain ⟨heap, hrep, hlive⟩ := h.sound.heap
  obtain ⟨htask, hfresh, -⟩ := s₁.queue.schedule_task
  have hrunning : ∀ t, s₁.queue.schedule.running t = s₁.queue.running t := by
    intro t
    rw [Taskqueue.running, Taskqueue.running, htask]
  refine ⟨h.trans (Upkeep.requeue hrep.schedule (fun t ht => ?_) (fun t ht => ?_) (fun t ht hrun => ?_)
    fun _ t ht => .inl ⟨(hrep.linked_iff t).mpr ht, ?_⟩), fun _ => ?_⟩
  · rw [hrunning]
    exact hlive t ht
  · rw [hfresh]
    exact h.sound.allocated t ht
  · rw [hrunning]
    exact ⟨ht, hrun⟩
  · rw [Taskqueue.due, Taskqueue.due, htask]
  · exact hrep.schedule.armed s₁.queue.schedule_schedule

end Upkeep.Armed

/-! ### Each call -/

section

variable {s : Scheduler}

theorem postTask_upkeep (hsound : Sound s) (timeout millisecs : Int) (function : Nat)
    (cleanup : Option Nat) (data : Nat) :
    Completes (Upkeep.Armed (0 ≤ timeout ∧ 0 ≤ millisecs) s)
      (s.postTask timeout millisecs function cleanup data) := by
  unfold Scheduler.postTask
  cases hdue : s.settime timeout millisecs with
  | error fault => exact completes_settime hdue
  | ok due =>
      obtain ⟨h, hrep, hlive⟩ := hsound.heap
      obtain ⟨queue, h', hpost, hrep', hmem, hfresh, htask⟩ :=
        Taskqueue.postTask_spec hrep due function cleanup data
      simp only [Except.bind, hpost, Except.map]
      have hscheduled : queue.schedule = queue := by
        obtain ⟨queue₁, -, hqueue⟩ := except_map_ok hpost
        rw [← hqueue, Taskqueue.schedule_schedule]
      have hrunning : ∀ t, queue.running t = if t = s.queue.fresh then false else s.queue.running t := by
        intro t
        change (Taskqueue.unlinked (queue.task t)).running = _
        rw [htask t]
        split_ifs <;> rfl
      have hduetask : ∀ t, queue.due t = if t = s.queue.fresh then due else s.queue.due t := by
        intro t
        change (Taskqueue.unlinked (queue.task t)).due = _
        rw [htask t]
        split_ifs <;> rfl
      have hnew : s.queue.fresh ∉ s.live := fun hmem => lt_irrefl _ (hsound.allocated _ hmem)
      refine ⟨Upkeep.requeue hrep' (fun t ht => ?_) (fun t ht => ?_) (fun t ht hrun => ?_)
        (fun hforward t ht => ?_), fun _ => hrep'.armed hscheduled⟩
      · rw [hrunning]
        rcases (hmem t).mp ht with rfl | hold
        · exact ⟨Finset.mem_insert_self _ _, if_pos rfl⟩
        · obtain ⟨hold, hstopped⟩ := hlive t hold
          exact ⟨Finset.mem_insert_of_mem hold, by rw [hstopped, ite_self]⟩
      · rw [hfresh]
        rcases Finset.mem_insert.mp ht with rfl | hold
        · exact Nat.lt_succ_self _
        · exact (hsound.allocated t hold).trans (Nat.lt_succ_self _)
      · rw [hrunning, if_neg (ne_of_mem_of_not_mem ht hnew)]
        exact ⟨Finset.mem_insert_of_mem ht, hrun⟩
      · rw [hduetask]
        rcases (hmem t).mp ht with rfl | hold
        · rw [if_pos rfl]
          exact .inr ⟨settime_normalised hdue, Scheduler.settime_not_before hdue hforward.1 hforward.2⟩
        · rw [if_neg (hrep.allocated t hold).ne]
          exact .inl ⟨(hrep.linked_iff t).mpr hold, rfl⟩

theorem rescheduleTask_upkeep (hsound : Sound s) (task : Option Nat) (timeout millisecs : Int) :
    Completes (Upkeep.Armed (0 ≤ timeout ∧ 0 ≤ millisecs) s)
      (s.rescheduleTask task timeout millisecs) := by
  unfold Scheduler.rescheduleTask
  cases task with
  | none => exact Upkeep.Armed.refl hsound
  | some e =>
      dsimp only
      split_ifs with hdead hlinked
      · cases hdue : s.settime timeout millisecs with
        | error fault => exact completes_settime hdue
        | ok due =>
            obtain ⟨h, hrep, hheap⟩ := hsound.heap
            obtain ⟨queue, h', hreschedule, hrep', hmem, hfresh, htask⟩ :=
              Taskqueue.rescheduleTask_spec hrep e due
            simp only [Except.bind, hreschedule, Except.map]
            have hrunning : ∀ t, queue.running t = s.queue.running t := by
              intro t
              change (Taskqueue.unlinked (queue.task t)).running = _
              rw [htask t]
              split_ifs <;> rfl
            refine ⟨Upkeep.requeue hrep' (fun t ht => ?_) (fun t ht => ?_) (fun t ht hrun => ?_)
              (fun hforward t ht => ?_), fun harmed => ?_⟩
            · rw [hrunning]
              exact hheap t ((hmem t).mp ht)
            · rw [hfresh]
              exact hsound.allocated t ht
            · rw [hrunning]
              exact ⟨ht, hrun⟩
            · change _ ∧ (Taskqueue.unlinked (queue.task t)).due = _ ∨
                (Taskqueue.unlinked (queue.task t)).due.Normalised ∧
                  timespecCmp _ (Taskqueue.unlinked (queue.task t)).due ≤ 0
              rw [htask t]
              split_ifs
              · exact .inr ⟨settime_normalised hdue,
                  Scheduler.settime_not_before hdue hforward.1 hforward.2⟩
              · exact .inl ⟨(hrep.linked_iff t).mpr ((hmem t).mp ht), rfl⟩
            · -- a task that keeps its due time keeps the timer
              unfold Taskqueue.rescheduleTask at hreschedule
              split_ifs at hreschedule
              · obtain ⟨queue₁, -, hinsert⟩ := except_bind_ok hreschedule
                obtain ⟨queue₂, -, hqueue⟩ := except_map_ok hinsert
                refine hrep'.armed ?_
                rw [← hqueue, Taskqueue.schedule_schedule]
              · rw [← Except.ok.inj hreschedule]
                exact harmed
      · exact Upkeep.Armed.refl hsound
      · exact nofun

theorem callCleanup_upkeep {forward : Prop} (hsound : Sound s) (t : Nat)
    {calls : Scheduler → Except Fault Scheduler}
    (hcalls : ∀ s₁, Sound s₁ → Completes (Upkeep forward s₁) (calls s₁)) :
    Completes (Upkeep forward s) (s.callCleanup t calls) := by
  unfold Scheduler.callCleanup
  split
  · exact Upkeep.refl hsound
  · have hlogged : Upkeep forward s { s with log := s.log ++ [.cleaned t] } := .log hsound _
    exact (hcalls _ hlogged.sound).imp fun s₁ hs₁ => hlogged.trans hs₁

theorem dropTask_upkeep {forward : Prop} (hsound : Sound s) (t : Nat)
    {calls : Scheduler → Except Fault Scheduler}
    (hcalls : ∀ s₁, Sound s₁ → Completes (Upkeep forward s₁) (calls s₁)) :
    Completes (Upkeep.Armed forward s) (s.dropTask t calls) := by
  unfold Scheduler.dropTask
  split_ifs with hdead hrunning
  · exact Upkeep.Armed.refl hsound
  · obtain ⟨h, hrep, hheap⟩ := hsound.heap
    obtain ⟨queue, h', hremove, hrep', hmem, hcontent⟩ := Taskqueue.remove_spec hrep t
    rw [hremove]
    have hgone : Upkeep forward s
        { s with queue := queue, live := s.live.erase t, log := s.log ++ [.dropped t] } := by
      refine Upkeep.requeue hrep' (fun x hx => ?_) (fun x hx => ?_) (fun x hx hrun => ?_)
        (fun _ x hx => .inl ⟨(hrep.linked_iff x).mpr ((hmem x).mp hx).2, hcontent.due x⟩)
      · rw [hcontent.running]
        obtain ⟨hxlive, hstopped⟩ := hheap x ((hmem x).mp hx).2
        exact ⟨Finset.mem_erase.mpr ⟨((hmem x).mp hx).1, hxlive⟩, hstopped⟩
      · rw [hcontent.fresh]
        exact hsound.allocated x (Finset.mem_of_mem_erase hx)
      · rw [hcontent.running]
        refine ⟨Finset.mem_erase.mpr ⟨?_, hx⟩, hrun⟩
        rintro rfl
        exact hrunning hrun
    exact (callCleanup_upkeep hgone.sound t hcalls).map fun s₁ hs₁ => .schedule (hgone.trans hs₁)
  · exact nofun

/-- One round: a task that runs is not in the queue when it is freed. -/
theorem runTask_upkeep {forward : Prop} (hsound : Sound s) {now : Timespec} {t : Nat}
    (hdue : s.firstDue now = some t) {function cleanup : Scheduler → Except Fault Scheduler}
    (hfunction : ∀ s₁, Sound s₁ → Completes (Upkeep forward s₁) (function s₁))
    (hcleanup : ∀ s₁, Sound s₁ → Completes (Upkeep forward s₁) (cleanup s₁)) :
    Completes (Upkeep forward s) (s.runTask t function cleanup) := by
  obtain ⟨h, hrep, hheap⟩ := hsound.heap
  have ht : t ∈ h.elements := hrep.mem_of_get (Scheduler.firstDue_root hdue).1
  obtain ⟨hlive, hstopped⟩ := hheap t ht
  obtain ⟨queue, h', hremove, hrep', hmem, hcontent⟩ := Taskqueue.remove_spec hrep t
  have hrep₀ : (queue.setRunning t).Represents h' :=
    hrep'.congr (Taskqueue.get_setRunning queue t) (Taskqueue.pprev_setRunning queue t)
      (fun x _ => Taskqueue.due_setRunning queue t x) le_rfl
  unfold Scheduler.runTask
  rw [hremove]
  have hmarked : Upkeep forward s { s with
      queue := queue.setRunning t
      log := s.log ++ [.started t (queue.due t) (queue.cleanup t)] } := by
    refine Upkeep.requeue hrep₀ (fun x hx => ?_) (fun x hx => ?_) (fun x hx hrun => ?_) fun _ x hx => ?_
    · obtain ⟨hne, hx⟩ := (hmem x).mp hx
      rw [Taskqueue.running_setRunning, if_neg hne, hcontent.running]
      exact hheap x hx
    · change x < queue.fresh
      rw [hcontent.fresh]
      exact hsound.allocated x hx
    · rw [Taskqueue.running_setRunning, hcontent.running, hrun, ite_self]
      exact ⟨hx, rfl⟩
    · rw [Taskqueue.due_setRunning, hcontent.due]
      exact .inl ⟨(hrep.linked_iff x).mpr ((hmem x).mp hx).2, rfl⟩
  refine (hfunction _ hmarked.sound).bind fun s₁ hs₁ => ?_
  have hlogged : Upkeep forward s₁ { s₁ with log := s₁.log ++ [.returned t] } :=
    .log hs₁.sound _
  refine (callCleanup_upkeep hlogged.sound t hcleanup).map fun s₂ hs₂ => ?_
  have hthere : Upkeep forward _ s₂ := hs₁.trans (hlogged.trans hs₂)
  obtain ⟨-, hrunning⟩ := hthere.running t hlive (by
    change (queue.setRunning t).running t = true
    rw [Taskqueue.running_setRunning, if_pos rfl])
  have hkept := hmarked.trans hthere
  obtain ⟨h₂, hrep₂, hheap₂⟩ := hkept.sound.heap
  refine ⟨⟨⟨h₂, hrep₂, fun x hx => ?_⟩, fun x hx => ?_⟩, fun x hx hrun => ?_,
    fun hforward earliest hahead => ⟨(hkept.ahead hforward earliest hahead).clock,
      (hkept.ahead hforward earliest hahead).due⟩⟩
  · obtain ⟨hxlive, hxstopped⟩ := hheap₂ x hx
    refine ⟨Finset.mem_erase.mpr ⟨?_, hxlive⟩, hxstopped⟩
    rintro rfl
    exact absurd (hrunning.symm.trans hxstopped) (by decide)
  · exact hkept.sound.allocated x (Finset.mem_of_mem_erase hx)
  · obtain ⟨hxlive, hxrunning⟩ := hkept.running x hx hrun
    refine ⟨Finset.mem_erase.mpr ⟨?_, hxlive⟩, hxrunning⟩
    rintro rfl
    exact absurd (hrun.symm.trans hstopped) (by decide)

end

/-! ### All calls -/

theorem readTimer_upkeep {forward : Prop} {s : Scheduler} (hsound : Sound s) :
    Upkeep forward s s.readTimer := by
  unfold Scheduler.readTimer
  split
  · exact .refl hsound
  · split_ifs
    · obtain ⟨h, hrep, hheap⟩ := hsound.heap
      have hrep' : ({ s.queue with timer := none } : Taskqueue).Represents h :=
        hrep.congr (fun slot => by cases slot <;> rfl) (fun _ => rfl) (fun _ _ => rfl) le_rfl
      exact .requeue hrep' hheap hsound.allocated (fun t ht hrun => ⟨ht, hrun⟩)
        fun _ t ht => .inl ⟨(hrep.linked_iff t).mpr ht, rfl⟩
    · exact .refl hsound

theorem tick_upkeep {forward : Prop} {s : Scheduler} (hsound : Sound s) (nanos : Nat) :
    Upkeep.Armed forward s { s with clock := s.clock + nanos } :=
  ⟨⟨⟨hsound.heap, hsound.allocated⟩, fun _ ht hrunning => ⟨ht, hrunning⟩,
    fun _ _ hahead => ⟨hahead.clock.trans (Nat.le_add_right _ _), hahead.due⟩⟩, id⟩

/-- `taskqueue_run` sets the timer before it returns, unless the queue is empty. -/
theorem runQueue_upkeep {forward : Prop} {s : Scheduler} (hsound : Sound s) (delay : Nat)
    {loop : Timespec → Scheduler → Except Fault Scheduler}
    (hloop : ∀ now s₁, Sound s₁ → Completes (Upkeep forward s₁) (loop now s₁)) :
    Completes (Upkeep.Armed forward s) (s.runQueue delay loop) := by
  unfold Scheduler.runQueue
  dsimp only
  have hlater : Upkeep forward s { s with clock := s.clock + delay } := (tick_upkeep hsound delay).1
  have hread : Upkeep forward _ _ := readTimer_upkeep hlater.sound
  split
  · rename_i hempty
    exact ⟨hlater.trans hread, fun _ hne => absurd hempty hne⟩
  · exact (hloop _ _ hread.sound).map fun s₁ hs₁ => .schedule ((hlater.trans hread).trans hs₁)

mutual

/-- The induction is on the tree of calls. -/
theorem call_upkeep (c : QueueCall) {s : Scheduler} (hsound : Sound s) :
    Completes (Upkeep.Armed (c.forward = true) s) (Scheduler.call c s) :=
  match c with
  | .post timeout millisecs function cleanup data => by
      rw [QueueCall.forward, decide_eq_true_eq, Scheduler.call]
      exact postTask_upkeep hsound timeout millisecs function cleanup data
  | .drop t calls => by
      rw [QueueCall.forward, Scheduler.call]
      exact dropTask_upkeep hsound t fun s₁ hs₁ => (callAll_upkeep calls hs₁).imp fun s₂ hs₂ => hs₂.1
  | .reschedule task timeout millisecs => by
      rw [QueueCall.forward, decide_eq_true_eq, Scheduler.call]
      exact rescheduleTask_upkeep hsound task timeout millisecs
  | .run delay bodies => by
      rw [QueueCall.forward, Scheduler.call]
      exact runQueue_upkeep hsound delay fun now s₁ hs₁ => loop_upkeep bodies now hs₁
  | .tick nanos => by
      rw [Scheduler.call]
      exact tick_upkeep hsound nanos

/-- After every call of a sequence the timer is still armed if it was before the first. -/
theorem callAll_upkeep (calls : List QueueCall) {s : Scheduler} (hsound : Sound s) :
    Completes (Upkeep.Armed (QueueCall.forwardAll calls = true) s) (Scheduler.callAll calls s) :=
  match calls with
  | [] => by
      rw [Scheduler.callAll]
      exact Upkeep.Armed.refl hsound
  | c :: calls => by
      rw [QueueCall.forwardAll, Bool.and_eq_true, Scheduler.callAll]
      refine (call_upkeep c hsound).bind fun s₁ hs₁ => ?_
      refine (callAll_upkeep calls hs₁.1.sound).imp fun s₂ hs₂ => ?_
      exact (hs₁.imp And.left).trans (hs₂.imp And.right)

/-- The loop of `taskqueue_run`. -/
theorem loop_upkeep (bodies : List (Body QueueCall)) (now : Timespec) {s : Scheduler}
    (hsound : Sound s) :
    Completes (Upkeep (QueueCall.forwardBodies bodies = true) s) (Scheduler.loop bodies now s) :=
  match bodies with
  | [] => by
      rw [Scheduler.loop]
      split
      · exact Upkeep.refl hsound
      · exact nofun
  | ⟨function, cleanup⟩ :: bodies => by
      rw [QueueCall.forwardBodies, Bool.and_eq_true, Bool.and_eq_true, Scheduler.loop]
      split
      · exact Upkeep.refl hsound
      · rename_i t hdue
        have hround : Completes (Upkeep (QueueCall.forwardAll function = true ∧
            QueueCall.forwardAll cleanup = true) s) (s.runTask t (fun s => Scheduler.callAll function s)
              fun s => Scheduler.callAll cleanup s) :=
          runTask_upkeep hsound hdue
            (fun s₁ hs₁ => (callAll_upkeep function hs₁).imp fun s₂ hs₂ => hs₂.1.imp And.left)
            (fun s₁ hs₁ => (callAll_upkeep cleanup hs₁).imp fun s₂ hs₂ => hs₂.1.imp And.right)
        refine hround.bind fun s₁ hs₁ => ?_
        refine (loop_upkeep bodies now hs₁.sound).imp fun s₂ hs₂ => ?_
        exact (hs₁.imp And.left).trans (hs₂.imp And.right)

end

/-- No wake-up is lost: whatever sequence of calls the main loop has made since `taskqueue_init`, and
whatever calls the callbacks have made in turn, the timer is set to the first due time if the queue is not
empty. If no delay was negative, then every due time in the queue lets the timer expire. -/
theorem callAll_armed (nanos : Nat) (calls : List QueueCall) :
    Completes (fun s => s.queue.Armed ∧ (0 < nanos → QueueCall.forwardAll calls = true →
      ∀ t ∈ s.queue.tasks, (s.queue.due t).Arms)) ((Scheduler.start nanos).callAll calls) := by
  have hsound : Sound (.start nanos) := ⟨⟨.nil, .init, nofun⟩, nofun⟩
  refine (callAll_upkeep calls hsound).imp fun s hs => ⟨hs.2 fun hne => absurd rfl hne, ?_⟩
  intro hpos hforward t ht
  obtain ⟨h, hrep, -⟩ := hs.1.sound.heap
  have hlinked := (hrep.wellFormed.mem_iff t).mp ht
  have hahead : Ahead nanos s := hs.1.ahead hforward nanos ⟨le_rfl, fun t ht => by cases ht⟩
  obtain ⟨hnormalised, hlate⟩ := hahead.due t hlinked
  refine ⟨hnormalised, ?_⟩
  rw [timespecCmp_le_iff] at hlate
  unfold clockGettime billion at hlate
  dsimp only at hlate
  constructor
  · omega
  · intro hzero
    rw [hzero] at hlate
    dsimp only at hlate
    omega

/-- A callback runs the queue itself, where another task posts one, and drops its own task. -/
example : ((Scheduler.start 5).callAll [.post 0 0 0 (some 0) 0, .tick 1, .post 0 0 0 none 0,
    .post 1 0 0 none 0, .tick 7,
    .run 3 [⟨[.run 0 [⟨[.post 0 4 0 none 0], []⟩], .drop 0 []], [.tick 1]⟩]]).toOption.map
      (fun s => (s.queue.tasks, s.queue.timer)) = some ([3, 2], some ⟨0, 4000016⟩) := by
  decide +kernel

end Snapcastc
