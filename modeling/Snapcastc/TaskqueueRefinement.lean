import Snapcastc.TaskqueueExecution
import Snapcastc.Tasks

/-! The pairing heap of `taskqueue.c` does what its callers see of it: it refines the pool of tasks that the
server and the client are modelled with. Both are given the same calls; the heap decides which of the tasks
that are due at the same time is executed first, and the pool leaves that open. -/

namespace Snapcastc

open Batteries.PairingHeapImp

variable {κ : Type}

/-- What a task does, as it is handed to `post_task`. -/
structure TaskCode where
  function : Nat
  cleanup : Option Nat
  data : Nat

/-- A call from outside of the queue. A cleanup only frees memory. `tick` lets time pass, in
nanoseconds. -/
inductive PoolCall (κ : Type) where
  | post (timeout millisecs : Int) (code : κ)
  | drop (task : Nat)
  | reschedule (task : Option Nat) (timeout millisecs : Int)
  | tick (nanos : Nat)

/-- What a program does with the queue: it makes a call, or it runs the queue, where each list holds the
calls of one executed task. -/
inductive PoolStep (κ : Type) where
  | call (made : PoolCall κ)
  | run (bodies : List (List (PoolCall κ)))

/-- A pool of tasks and the monotonic clock, in nanoseconds. -/
structure TimedPool (κ : Type) where
  clock : Nat
  pool : TaskPool κ

/-- The call as `taskqueue.c` gets it. -/
def PoolCall.onQueue (address : κ → TaskCode) : PoolCall κ → Call
  | .post timeout millisecs code =>
      .post timeout millisecs (address code).function (address code).cleanup (address code).data
  | .drop task => .drop task []
  | .reschedule task timeout millisecs => .reschedule task timeout millisecs
  | .tick nanos => .tick nanos

def executionOf (address : κ → TaskCode) (body : List (PoolCall κ)) : Execution :=
  ⟨body.map (PoolCall.onQueue address), []⟩

def PoolStep.onQueue (address : κ → TaskCode) (s : Scheduler) : PoolStep κ → Except Fault Scheduler
  | .call made => Scheduler.perform (made.onQueue address) s
  | .run bodies => s.taskqueueRun (bodies.map (executionOf address))

def runOnQueue (address : κ → TaskCode) : List (PoolStep κ) → Scheduler → Except Fault Scheduler
  | [], s => .ok s
  | step :: steps, s => (step.onQueue address s).bind (runOnQueue address steps)

def PoolCall.onPool (p : TimedPool κ) : PoolCall κ → Except Fault (TimedPool κ)
  | .post timeout millisecs code =>
      .ok { p with pool := (p.pool.postTask (clockGettime p.clock) timeout millisecs code).2 }
  | .drop task => (p.pool.dropTask task).map fun pool => { p with pool }
  | .reschedule task timeout millisecs =>
      (p.pool.rescheduleTask (clockGettime p.clock) timeout millisecs task).map fun pool =>
        { p with pool }
  | .tick nanos => .ok { p with clock := p.clock + nanos }

/-- The calls of an executed task. -/
def callsOnPool : List (PoolCall κ) → TimedPool κ → Except Fault (TimedPool κ)
  | [], p => .ok p
  | call :: calls, p => (call.onPool p).bind (callsOnPool calls)

/-- No queued task is due before this one. -/
def TaskPool.Earliest (pool : TaskPool κ) (task : Posted κ) : Prop :=
  task ∈ pool.queued ∧ ∀ other ∈ pool.queued, timespecCmp task.due other.due ≤ 0

/-- `taskqueue_run` on the pool: an earliest task is executed as long as one is due. -/
inductive PoolLoop (now : Timespec) :
    List (List (PoolCall κ)) → TimedPool κ → Except Fault (TimedPool κ) → Prop
  | done {bodies : List (List (PoolCall κ))} {p : TimedPool κ} :
      (∀ task ∈ p.pool.queued, timespecCmp task.due now > 0) → PoolLoop now bodies p (.ok p)
  | endless {p : TimedPool κ} {task : Posted κ} :
      task ∈ p.pool.queued → timespecCmp task.due now ≤ 0 → PoolLoop now [] p (.error .endless)
  | fault {body : List (PoolCall κ)} {bodies : List (List (PoolCall κ))} {p : TimedPool κ}
      {task : Posted κ} {fault : Fault} : p.pool.Earliest task → timespecCmp task.due now ≤ 0 →
      callsOnPool body { p with pool := p.pool.start task.id } = .error fault →
      PoolLoop now (body :: bodies) p (.error fault)
  | next {body : List (PoolCall κ)} {bodies : List (List (PoolCall κ))} {p p' : TimedPool κ}
      {task : Posted κ} {result : Except Fault (TimedPool κ)} :
      p.pool.Earliest task → timespecCmp task.due now ≤ 0 →
      callsOnPool body { p with pool := p.pool.start task.id } = .ok p' →
      PoolLoop now bodies { p' with pool := p'.pool.finish } result →
      PoolLoop now (body :: bodies) p result

/-- What a step of the program can do to the pool. -/
inductive PoolStep.OnPool (p : TimedPool κ) : PoolStep κ → Except Fault (TimedPool κ) → Prop
  | call (made : PoolCall κ) : OnPool p (.call made) (made.onPool p)
  | run {bodies : List (List (PoolCall κ))} {result : Except Fault (TimedPool κ)} :
      PoolLoop (clockGettime p.clock) bodies p result → OnPool p (.run bodies) result

/-- What a program can do to the pool. -/
inductive RunOnPool : List (PoolStep κ) → TimedPool κ → Except Fault (TimedPool κ) → Prop
  | nil (p : TimedPool κ) : RunOnPool [] p (.ok p)
  | fault {step : PoolStep κ} {steps : List (PoolStep κ)} {p : TimedPool κ} {fault : Fault} :
      step.OnPool p (.error fault) → RunOnPool (step :: steps) p (.error fault)
  | cons {step : PoolStep κ} {steps : List (PoolStep κ)} {p p' : TimedPool κ}
      {result : Except Fault (TimedPool κ)} : step.OnPool p (.ok p') → RunOnPool steps p' result →
      RunOnPool (step :: steps) p result

/-! ### The refinement -/

/-- A task in memory, less its links. -/
def storedTask (address : κ → TaskCode) (task : Posted κ) : Task :=
  ⟨none, none, none, task.due, false, (address task.code).function, (address task.code).cleanup,
    (address task.code).data⟩

/-- The pool is what the callers see of the queue: the linked tasks are the queued ones, with the same
contents, and the tasks whose handles are valid are these and the running one. -/
structure Shows (address : κ → TaskCode) (s : Scheduler) (p : TimedPool κ) : Prop where
  sound : p.pool.Sound
  clock : s.clock = p.clock
  heap : ∃ h, s.queue.Represents h ∧ ∀ t, t ∈ h.elements ↔ t ∈ p.pool.queued.map Posted.id
  content : ∀ task ∈ p.pool.queued, Taskqueue.unlinked (s.queue.task task.id) = storedTask address task
  fresh : s.queue.fresh = p.pool.fresh
  live : ∀ t, t ∈ s.live ↔ t ∈ p.pool.queued.map Posted.id ∨ p.pool.running = some t
  running : ∀ t, p.pool.running = some t → s.queue.running t = true

/-- The queue and the pool end in the same way, unless a time that the queue computes leaves the range of
`long`. -/
inductive Agree (address : κ → TaskCode) : Except Fault Scheduler → Except Fault (TimedPool κ) → Prop
  | ok {s : Scheduler} {p : TimedPool κ} : Shows address s p → Agree address (.ok s) (.ok p)
  | error (fault : Fault) : Agree address (.error fault) (.error fault)
  | overflow (result : Except Fault (TimedPool κ)) : Agree address (.error .signedOverflow) result

namespace Agree

variable {address : κ → TaskCode}

theorem bind {first : Except Fault Scheduler} {first' : Except Fault (TimedPool κ)}
    {next : Scheduler → Except Fault Scheduler} {next' : TimedPool κ → Except Fault (TimedPool κ)}
    (hfirst : Agree address first first')
    (hnext : ∀ s p, first = .ok s → first' = .ok p → Shows address s p →
      Agree address (next s) (next' p)) :
    Agree address (first.bind next) (first'.bind next') := by
  cases hfirst with
  | ok hshows => exact hnext _ _ rfl rfl hshows
  | error fault => exact .error fault
  | overflow result => exact .overflow _

end Agree

namespace Shows

variable {address : κ → TaskCode} {s : Scheduler} {p : TimedPool κ}

/-- The events and the timer do not matter. -/
theorem congr (hshows : Shows address s p) (log : List TaskEvent) : Shows address { s with log } p :=
  ⟨hshows.sound, hshows.clock, hshows.heap, hshows.content, hshows.fresh, hshows.live, hshows.running⟩

theorem schedule (hshows : Shows address s p) : Shows address { s with queue := s.queue.schedule } p := by
  obtain ⟨h, hrep, hmem⟩ := hshows.heap
  obtain ⟨htask, hfresh, -⟩ := s.queue.schedule_task
  refine ⟨hshows.sound, hshows.clock, ⟨h, hrep.schedule, hmem⟩, fun task hqueued => ?_, ?_, hshows.live,
    fun t ht => ?_⟩
  · change Taskqueue.unlinked (s.queue.schedule.task task.id) = _
    rw [htask]
    exact hshows.content task hqueued
  · exact hfresh.trans hshows.fresh
  · change (s.queue.schedule.task t).running = true
    rw [htask]
    exact hshows.running t ht

theorem mem_iff {p : TimedPool κ} {h : Heap Nat}
    (hmem : ∀ t, t ∈ h.elements ↔ t ∈ p.pool.queued.map Posted.id) (t : Nat) :
    t ∈ h.elements ↔ p.pool.isQueued t = true := by
  rw [hmem, TaskPool.isQueued, List.any_eq_true, List.mem_map]
  exact exists_congr fun task => and_congr_right fun _ => beq_iff_eq.symm

theorem linked_iff (hshows : Shows address s p) (t : Nat) :
    s.queue.linked t = true ↔ p.pool.isQueued t = true := by
  obtain ⟨h, hrep, hmem⟩ := hshows.heap
  rw [hrep.linked_iff]
  exact mem_iff hmem t

theorem live_iff (hshows : Shows address s p) (t : Nat) :
    t ∈ s.live ↔ p.pool.isQueued t = true ∨ p.pool.running = some t := by
  obtain ⟨h, -, hmem⟩ := hshows.heap
  rw [hshows.live, ← mem_iff hmem, hmem]

/-- The running flag of a task whose handle is valid. -/
theorem running_iff (hshows : Shows address s p) {t : Nat} (hlive : t ∈ s.live) :
    s.queue.running t = true ↔ p.pool.running = some t := by
  refine ⟨fun hrunning => ?_, hshows.running t⟩
  refine ((hshows.live t).mp hlive).resolve_left fun hqueued => ?_
  obtain ⟨task, htask, rfl⟩ := List.mem_map.mp hqueued
  have hflag : (Taskqueue.unlinked (s.queue.task task.id)).running = true := hrunning
  rw [hshows.content task htask] at hflag
  cases hflag

theorem settime_ok (hshows : Shows address s p) {timeout millisecs : Int} {due : Timespec}
    (hsettime : s.settime timeout millisecs = .ok due) :
    Snapcastc.settime (clockGettime p.clock) timeout millisecs = due := by
  unfold Scheduler.settime at hsettime
  dsimp only at hsettime
  split_ifs at hsettime
  rw [← hshows.clock]
  exact Except.ok.inj hsettime

/-- `post_task`. -/
theorem postTask (hshows : Shows address s p) (timeout millisecs : Int) (code : κ) :
    Agree address (s.postTask timeout millisecs (address code).function (address code).cleanup
      (address code).data) ((PoolCall.post timeout millisecs code).onPool p) := by
  unfold Scheduler.postTask
  cases hsettime : s.settime timeout millisecs with
  | error fault =>
      rw [Scheduler.settime_error hsettime]
      exact .overflow _
  | ok due =>
      have hdue := settime_ok hshows hsettime
      obtain ⟨h, hrep, hmem⟩ := hshows.heap
      obtain ⟨queue, h', hpost, hrep', hmem', hfresh, htask⟩ :=
        Taskqueue.postTask_spec hrep due (address code).function (address code).cleanup (address code).data
      have hold : ∀ t, t < s.queue.fresh →
          Taskqueue.unlinked (queue.task t) = Taskqueue.unlinked (s.queue.task t) :=
        fun t ht => by rw [htask t, if_neg ht.ne]
      have hids : ((p.pool.queued ++ [(⟨p.pool.fresh, due, code⟩ : Posted κ)]).map Posted.id) =
          p.pool.queued.map Posted.id ++ [p.pool.fresh] := by
        rw [List.map_append, List.map_singleton]
      have hlt : ∀ {t}, p.pool.running = some t → t < s.queue.fresh := by
        intro t ht
        rw [hshows.fresh]
        exact (hshows.sound.running t ht).1
      simp only [Except.bind, hpost, Except.map, PoolCall.onPool, TaskPool.postTask, hdue]
      refine .ok ⟨?_, hshows.clock, ⟨h', hrep', fun t => ?_⟩, fun task hqueued => ?_, ?_, fun t => ?_,
        fun t ht => ?_⟩
      · rw [← hdue]
        exact hshows.sound.postTask (clockGettime p.clock) timeout millisecs code
      · rw [hids, List.mem_append, List.mem_singleton, hmem', hmem, hshows.fresh, or_comm]
      · rcases List.mem_append.mp hqueued with hqueued | hqueued
        · have hearlier : task.id < s.queue.fresh :=
            hrep.allocated _ ((hmem _).mpr (List.mem_map_of_mem hqueued))
          exact (hold task.id hearlier).trans (hshows.content task hqueued)
        · rw [List.mem_singleton.mp hqueued]
          change Taskqueue.unlinked (queue.task p.pool.fresh) = _
          rw [← hshows.fresh, htask, if_pos rfl]
          rfl
      · change queue.fresh = p.pool.fresh + 1
        rw [hfresh, hshows.fresh]
      · rw [hids, List.mem_append, List.mem_singleton, Finset.mem_insert, hshows.live, hshows.fresh]
        tauto
      · change (Taskqueue.unlinked (queue.task t)).running = true
        rw [hold t (hlt ht)]
        exact hshows.running t ht

/-- `reschedule_task`. -/
theorem rescheduleTask (hshows : Shows address s p) (task : Option Nat) (timeout millisecs : Int) :
    Agree address (s.rescheduleTask task timeout millisecs)
      ((PoolCall.reschedule task timeout millisecs).onPool p) := by
  cases task with
  | none => exact .ok hshows
  | some t =>
      have hlive := hshows.live_iff t
      have hlinked := hshows.linked_iff t
      unfold Scheduler.rescheduleTask
      simp only [PoolCall.onPool, TaskPool.rescheduleTask]
      by_cases hrunning : p.pool.running = some t
      · -- a running task is not linked
        have hidle : ¬s.queue.linked t = true := by
          rw [hlinked, TaskPool.isQueued, List.any_eq_true]
          rintro ⟨other, hother, hid⟩
          exact (hshows.sound.running t hrunning).2 other hother (beq_iff_eq.mp hid)
        rw [if_neg (not_not.mpr (hlive.mpr (.inr hrunning))), if_neg hidle, if_pos hrunning]
        exact .ok hshows
      · by_cases hqueued : p.pool.isQueued t = true
        · rw [if_neg (not_not.mpr (hlive.mpr (.inl hqueued))), if_pos (hlinked.mpr hqueued),
            if_neg hrunning, if_pos hqueued]
          cases hsettime : s.settime timeout millisecs with
          | error fault =>
              rw [Scheduler.settime_error hsettime]
              exact .overflow _
          | ok due =>
              have hdue := settime_ok hshows hsettime
              obtain ⟨h, hrep, hmem⟩ := hshows.heap
              obtain ⟨queue, h', hreschedule, hrep', hmem', hfresh, htask⟩ :=
                Taskqueue.rescheduleTask_spec hrep t due
              have hthere : t ∈ h.elements := (mem_iff hmem t).mpr hqueued
              simp only [Except.bind, hreschedule, Except.map, hdue]
              have hids : (p.pool.queued.map fun task =>
                  if task.id = t then { task with due } else task).map Posted.id =
                    p.pool.queued.map Posted.id := by
                rw [List.map_map]
                refine List.map_congr_left fun task _ => ?_
                rw [Function.comp_apply]
                split_ifs <;> rfl
              refine .ok ⟨?_, hshows.clock, ⟨h', hrep', fun x => ?_⟩, fun task htaskQueued => ?_,
                hfresh.trans hshows.fresh, fun x => ?_, fun x hx => ?_⟩
              · have hpool : p.pool.rescheduleTask (clockGettime p.clock) timeout millisecs (some t) =
                    .ok { p.pool with queued := p.pool.queued.map fun task =>
                      if task.id = t then { task with due } else task } := by
                  unfold TaskPool.rescheduleTask
                  dsimp only
                  rw [if_neg hrunning, if_pos hqueued, hdue]
                exact hshows.sound.rescheduleTask hpool
              · rw [hids, hmem', hmem]
              · obtain ⟨old, hold, rfl⟩ := List.mem_map.mp htaskQueued
                have hcontent := hshows.content old hold
                by_cases hid : old.id = t
                · rw [if_pos hid]
                  change Taskqueue.unlinked (queue.task old.id) = _
                  rw [htask, if_pos ⟨hid, hthere⟩, hcontent]
                  rfl
                · rw [if_neg hid, htask, if_neg (fun hboth => hid hboth.1), hcontent]
              · rw [hids]
                exact hshows.live x
              · change (Taskqueue.unlinked (queue.task x)).running = true
                have hflag : (Taskqueue.unlinked (s.queue.task x)).running = true := hshows.running x hx
                rw [htask]
                split_ifs
                · exact hflag
                · exact hflag
        · rw [if_pos (fun hmem => (hlive.mp hmem).elim hqueued hrunning), if_neg hrunning, if_neg hqueued]
          exact .error _

/-- A task is taken out of the queue. -/
theorem remove (hshows : Shows address s p) (t : Nat) :
    ∃ queue, s.queue.remove t = .ok queue ∧ Taskqueue.SameContent s.queue queue ∧ ∃ h',
      queue.Represents h' ∧
        ∀ x, x ∈ h'.elements ↔ x ∈ (p.pool.queued.filter (·.id != t)).map Posted.id := by
  obtain ⟨h, hrep, hmem⟩ := hshows.heap
  obtain ⟨queue, h', hremove, hrep', hmem', hcontent⟩ := Taskqueue.remove_spec hrep t
  refine ⟨queue, hremove, hcontent, h', hrep', fun x => ?_⟩
  rw [hmem', hmem, List.mem_map, List.mem_map]
  constructor
  · rintro ⟨hne, task, htask, rfl⟩
    exact ⟨task, List.mem_filter.mpr ⟨htask, bne_iff_ne.mpr hne⟩, rfl⟩
  · rintro ⟨task, htask, rfl⟩
    obtain ⟨hqueued, hne⟩ := List.mem_filter.mp htask
    exact ⟨bne_iff_ne.mp hne, task, hqueued, rfl⟩

/-- `drop_task`. -/
theorem dropTask (hshows : Shows address s p) (t : Nat) :
    Agree address (s.dropTask t fun s => Scheduler.performAll [] s) ((PoolCall.drop t).onPool p) := by
  have hlive := hshows.live_iff t
  unfold Scheduler.dropTask
  simp only [PoolCall.onPool, TaskPool.dropTask]
  by_cases hrunning : p.pool.running = some t
  · rw [if_neg (not_not.mpr (hlive.mpr (.inr hrunning))), if_pos (hshows.running t hrunning),
      if_pos hrunning]
    exact .ok hshows
  · by_cases hqueued : p.pool.isQueued t = true
    · have hmem := hlive.mpr (.inl hqueued)
      have hstopped : ¬s.queue.running t = true := mt (hshows.running_iff hmem).mp hrunning
      obtain ⟨queue, hremove, hcontent, h', hrep', hmem'⟩ := hshows.remove t
      rw [if_neg (not_not.mpr hmem), if_neg hstopped, if_neg hrunning, if_pos hqueued, hremove]
      have hpool : p.pool.dropTask t =
          .ok { p.pool with queued := p.pool.queued.filter (·.id != t) } := by
        rw [TaskPool.dropTask, if_neg hrunning, if_pos hqueued]
      have hdropped (log : List TaskEvent) : Shows address
          { s with queue, live := s.live.erase t, log }
          { p with pool := { p.pool with queued := p.pool.queued.filter (·.id != t) } } := by
        refine ⟨hshows.sound.dropTask hpool, hshows.clock, ⟨h', hrep', hmem'⟩, fun task htask => ?_,
          hcontent.fresh.trans hshows.fresh, fun x => ?_, fun x hx => ?_⟩
        · rw [hcontent.task]
          exact hshows.content task (List.mem_of_mem_filter htask)
        · rw [Finset.mem_erase, hshows.live, List.mem_map, List.mem_map]
          constructor
          · rintro ⟨hne, ⟨task, htask, rfl⟩ | hx⟩
            · exact .inl ⟨task, List.mem_filter.mpr ⟨htask, bne_iff_ne.mpr hne⟩, rfl⟩
            · exact .inr hx
          · rintro (⟨task, htask, rfl⟩ | hx)
            · obtain ⟨htask, hne⟩ := List.mem_filter.mp htask
              exact ⟨bne_iff_ne.mp hne, .inl ⟨task, htask, rfl⟩⟩
            · exact ⟨fun hsame => hrunning (hsame ▸ hx), .inr hx⟩
        · change queue.running x = true
          rw [hcontent.running]
          exact hshows.running x hx
      -- the cleanup makes no calls
      simp only [Except.bind, Scheduler.callCleanup, Scheduler.performAll]
      split
      · exact .ok (hdropped _).schedule
      · exact .ok (hdropped _).schedule
    · rw [if_pos (fun hmem => (hlive.mp hmem).elim hqueued hrunning), if_neg hrunning, if_neg hqueued]
      exact .error _

/-- A call. -/
theorem perform (hshows : Shows address s p) (call : PoolCall κ) :
    Agree address (Scheduler.perform (call.onQueue address) s) (call.onPool p) := by
  cases call with
  | post timeout millisecs code =>
      rw [PoolCall.onQueue, Scheduler.perform]
      exact hshows.postTask timeout millisecs code
  | drop task =>
      rw [PoolCall.onQueue, Scheduler.perform]
      exact hshows.dropTask task
  | reschedule task timeout millisecs =>
      rw [PoolCall.onQueue, Scheduler.perform]
      exact hshows.rescheduleTask task timeout millisecs
  | tick nanos =>
      rw [PoolCall.onQueue, Scheduler.perform]
      exact .ok ⟨hshows.sound, congrArg (· + nanos) hshows.clock, hshows.heap, hshows.content,
        hshows.fresh, hshows.live, hshows.running⟩

/-- The calls of a task. -/
theorem performAll (hshows : Shows address s p) (calls : List (PoolCall κ)) :
    Agree address (Scheduler.performAll (calls.map (PoolCall.onQueue address)) s)
      (callsOnPool calls p) := by
  induction calls generalizing s p with
  | nil =>
      rw [List.map_nil, Scheduler.performAll]
      exact .ok hshows
  | cons call calls ih =>
      rw [List.map_cons, Scheduler.performAll]
      exact (hshows.perform call).bind fun s₁ p₁ _ _ hshows₁ => ih hshows₁

end Shows

/-! ### A run of the queue -/

/-- No call changes which task is running. -/
theorem PoolCall.onPool_running {p p' : TimedPool κ} {call : PoolCall κ} (hcall : call.onPool p = .ok p') :
    p'.pool.running = p.pool.running := by
  cases call with
  | post timeout millisecs code =>
      rw [← Except.ok.inj hcall]
      rfl
  | drop task =>
      obtain ⟨pool, hdrop, rfl⟩ := except_map_ok hcall
      unfold TaskPool.dropTask at hdrop
      split_ifs at hdrop
      · rw [← Except.ok.inj hdrop]
      · rw [← Except.ok.inj hdrop]
  | reschedule task timeout millisecs =>
      obtain ⟨pool, hreschedule, rfl⟩ := except_map_ok hcall
      rcases TaskPool.rescheduleTask_eq hreschedule with rfl | ⟨id, -, rfl⟩ <;> rfl
  | tick nanos =>
      rw [← Except.ok.inj hcall]

theorem callsOnPool_running (calls : List (PoolCall κ)) {p p' : TimedPool κ}
    (hcalls : callsOnPool calls p = .ok p') : p'.pool.running = p.pool.running := by
  induction calls generalizing p with
  | nil => rw [← Except.ok.inj hcalls]
  | cons call calls ih =>
      obtain ⟨p₁, hcall, hrest⟩ := except_bind_ok hcalls
      exact (ih hrest).trans (PoolCall.onPool_running hcall)

/-- A pool that is not empty has an earliest task. -/
theorem TaskPool.exists_earliest {pool : TaskPool κ} {task : Posted κ} (htask : task ∈ pool.queued) :
    ∃ earliest, pool.Earliest earliest ∧ timespecCmp earliest.due task.due ≤ 0 := by
  suffices hlist : ∀ queued : List (Posted κ), task ∈ queued →
      ∃ earliest ∈ queued, ∀ other ∈ queued, timespecCmp earliest.due other.due ≤ 0 by
    obtain ⟨earliest, hmem, hle⟩ := hlist pool.queued htask
    exact ⟨earliest, ⟨hmem, hle⟩, hle task htask⟩
  clear htask
  intro queued hmem
  have hnonempty : queued ≠ [] := List.ne_nil_of_mem hmem
  clear hmem
  induction queued with
  | nil => exact absurd rfl hnonempty
  | cons first queued ih =>
      by_cases hrest : queued = []
      · refine ⟨first, List.mem_cons_self, fun other hother => ?_⟩
        rw [hrest, List.mem_singleton] at hother
        rw [hother]
        exact timespecCmp_totalPreorder.refl _
      · obtain ⟨earliest, hmem, hle⟩ := ih hrest
        by_cases hfirst : timespecCmp first.due earliest.due ≤ 0
        · refine ⟨first, List.mem_cons_self, fun other hother => ?_⟩
          rcases List.mem_cons.mp hother with rfl | hother
          · exact timespecCmp_totalPreorder.refl _
          · exact timespecCmp_totalPreorder.trans _ _ _ hfirst (hle other hother)
        · refine ⟨earliest, List.mem_cons_of_mem _ hmem, fun other hother => ?_⟩
          rcases List.mem_cons.mp hother with rfl | hother
          · exact timespecCmp_totalPreorder.le_of_pos (not_le.mp hfirst)
          · exact hle other hother

/-- The pool can always be run. -/
theorem exists_poolLoop (now : Timespec) (bodies : List (List (PoolCall κ))) (p : TimedPool κ) :
    ∃ result, PoolLoop now bodies p result := by
  induction bodies generalizing p with
  | nil =>
      by_cases hdone : ∀ task ∈ p.pool.queued, timespecCmp task.due now > 0
      · exact ⟨_, .done hdone⟩
      · push Not at hdone
        obtain ⟨task, htask, hdue⟩ := hdone
        exact ⟨_, .endless htask hdue⟩
  | cons body bodies ih =>
      by_cases hdone : ∀ task ∈ p.pool.queued, timespecCmp task.due now > 0
      · exact ⟨_, .done hdone⟩
      · push Not at hdone
        obtain ⟨task, htask, hdue⟩ := hdone
        obtain ⟨earliest, hearliest, hle⟩ := TaskPool.exists_earliest htask
        have hdue := timespecCmp_totalPreorder.trans _ _ _ hle hdue
        cases hbody : callsOnPool body { p with pool := p.pool.start earliest.id } with
        | error fault => exact ⟨_, .fault hearliest hdue hbody⟩
        | ok p' =>
            obtain ⟨result, hresult⟩ := ih { p' with pool := p'.pool.finish }
            exact ⟨result, .next hearliest hdue hbody hresult⟩

theorem exists_runOnPool (steps : List (PoolStep κ)) (p : TimedPool κ) :
    ∃ result, RunOnPool steps p result := by
  induction steps generalizing p with
  | nil => exact ⟨_, .nil p⟩
  | cons step steps ih =>
      have hstep : ∃ result, step.OnPool p result := by
        cases step with
        | call made => exact ⟨_, .call made⟩
        | run bodies =>
            obtain ⟨result, hresult⟩ := exists_poolLoop (clockGettime p.clock) bodies p
            exact ⟨result, .run hresult⟩
      obtain ⟨result, hresult⟩ := hstep
      cases result with
      | error fault => exact ⟨_, .fault hresult⟩
      | ok p' =>
          obtain ⟨result, hrest⟩ := ih p'
          exact ⟨result, .cons hresult hrest⟩

namespace Shows

variable {address : κ → TaskCode} {s : Scheduler} {p : TimedPool κ}

/-- The due time of a queued task. -/
theorem due (hshows : Shows address s p) {task : Posted κ} (htask : task ∈ p.pool.queued) :
    s.queue.due task.id = task.due := by
  change (Taskqueue.unlinked (s.queue.task task.id)).due = _
  rw [hshows.content task htask]
  rfl

/-- The task at the root is an earliest one. -/
theorem earliest (hshows : Shows address s p) {t : Nat} (hroot : s.queue.get .queue = some t) :
    ∃ task, task.id = t ∧ p.pool.Earliest task := by
  obtain ⟨h, hrep, hmem⟩ := hshows.heap
  obtain ⟨task, htask, rfl⟩ := List.mem_map.mp ((hmem t).mp (hrep.mem_of_get hroot))
  refine ⟨task, rfl, htask, fun other hother => ?_⟩
  rw [← hshows.due htask, ← hshows.due hother]
  exact hrep.root_le hroot ((hmem other.id).mpr (List.mem_map_of_mem hother))

/-- When nothing is due at the root, nothing is. -/
theorem done (hshows : Shows address s p) {now : Timespec} (hnone : s.firstDue now = none) :
    ∀ task ∈ p.pool.queued, timespecCmp task.due now > 0 := by
  intro task htask
  obtain ⟨h, hrep, hmem⟩ := hshows.heap
  have hthere : task.id ∈ h.elements := (hmem task.id).mpr (List.mem_map_of_mem htask)
  obtain ⟨root, hroot⟩ : ∃ root, s.queue.get .queue = some root := by
    have hshape := hrep.shape
    cases hrep.single with
    | nil => cases hthere
    | node a c => exact ⟨a, hshape.1⟩
  have hqueue : s.queue.queue = some root := hroot
  unfold Scheduler.firstDue at hnone
  rw [hqueue] at hnone
  dsimp only at hnone
  split_ifs at hnone with hlate
  by_contra hdue
  refine hlate (timespecCmp_totalPreorder.trans _ _ _ (hrep.root_le hroot hthere) ?_)
  rw [hshows.due htask]
  exact not_lt.mp hdue

/-- The task is taken out of the queue and marked as running. -/
theorem start (hshows : Shows address s p) (hidle : p.pool.running = none) {task : Posted κ}
    (htask : task ∈ p.pool.queued) :
    ∃ queue, s.queue.remove task.id = .ok queue ∧ ∀ log,
      Shows address { s with queue := queue.setRunning task.id, log }
        { p with pool := p.pool.start task.id } := by
  obtain ⟨queue, hremove, hcontent, h', hrep', hmem'⟩ := hshows.remove task.id
  refine ⟨queue, hremove, fun log => ⟨hshows.sound.start htask, hshows.clock, ⟨h', ?_, hmem'⟩,
    fun other hother => ?_, hcontent.fresh.trans hshows.fresh, fun x => ?_, fun x hx => ?_⟩⟩
  · exact hrep'.congr (Taskqueue.get_setRunning queue task.id)
      (Taskqueue.pprev_setRunning queue task.id)
      (fun x _ => Taskqueue.due_setRunning queue task.id x) le_rfl
  · obtain ⟨hqueued, hne⟩ := List.mem_filter.mp hother
    have hother : (queue.setRunning task.id).task other.id = queue.task other.id :=
      Function.update_of_ne (bne_iff_ne.mp hne) _ _
    rw [hother, hcontent.task]
    exact hshows.content other hqueued
  · rw [hshows.live, hidle]
    change _ ↔ x ∈ (p.pool.queued.filter (·.id != task.id)).map Posted.id ∨ some task.id = some x
    rw [or_iff_left (Option.some_ne_none x).symm, List.mem_map, List.mem_map]
    constructor
    · rintro ⟨other, hother, rfl⟩
      by_cases hsame : other.id = task.id
      · exact .inr (congrArg some hsame.symm)
      · exact .inl ⟨other, List.mem_filter.mpr ⟨hother, bne_iff_ne.mpr hsame⟩, rfl⟩
    · rintro (⟨other, hother, rfl⟩ | hx)
      · exact ⟨other, List.mem_of_mem_filter hother, rfl⟩
      · exact ⟨task, htask, Option.some.inj hx⟩
  · rw [← Option.some.inj hx]
    change (queue.setRunning task.id).running task.id = true
    rw [Taskqueue.running_setRunning, if_pos rfl]

/-- The task has finished and is freed. -/
theorem finish (hshows : Shows address s p) {t : Nat} (hrunning : p.pool.running = some t) :
    Shows address { s with live := s.live.erase t } { p with pool := p.pool.finish } := by
  refine ⟨hshows.sound.finish, hshows.clock, hshows.heap, hshows.content, hshows.fresh, fun x => ?_,
    fun x hx => by cases hx⟩
  rw [Finset.mem_erase, hshows.live, hrunning]
  change _ ↔ x ∈ p.pool.queued.map Posted.id ∨ none = some x
  rw [or_iff_left (Option.some_ne_none x).symm]
  constructor
  · rintro ⟨hne, hqueued | hx⟩
    · exact hqueued
    · exact absurd (Option.some.inj hx).symm hne
  · intro hqueued
    refine ⟨?_, .inl hqueued⟩
    rintro rfl
    obtain ⟨task, htask, hid⟩ := List.mem_map.mp hqueued
    exact (hshows.sound.running x hrunning).2 task htask hid

/-- The body of the loop of `taskqueue_run`. -/
theorem execute (hshows : Shows address s p) (hidle : p.pool.running = none) {task : Posted κ}
    (htask : task ∈ p.pool.queued) (body : List (PoolCall κ)) :
    Agree address (s.execute task.id (executionOf address body))
      ((callsOnPool body { p with pool := p.pool.start task.id }).map fun p' =>
        { p' with pool := p'.pool.finish }) := by
  obtain ⟨queue, hremove, hmarked⟩ := hshows.start hidle htask
  unfold Scheduler.execute
  rw [hremove, executionOf]
  simp only [Except.bind]
  refine Agree.bind ((hmarked _).performAll body) fun s₁ p₁ _ hcalls hshows₁ => ?_
  have hrunning : p₁.pool.running = some task.id := callsOnPool_running body hcalls
  -- the cleanup makes no calls
  unfold Scheduler.callCleanup
  split
  · exact .ok ((hshows₁.congr _).finish hrunning)
  · rw [Scheduler.performAll]
    exact .ok ((hshows₁.congr _).finish hrunning)

/-- The loop of `taskqueue_run`. The induction is on the executed tasks. -/
theorem runLoop (now : Timespec) (bodies : List (List (PoolCall κ))) (hshows : Shows address s p)
    (hidle : p.pool.running = none) :
    ∃ result, PoolLoop now bodies p result ∧
      Agree address (Scheduler.runLoop now (bodies.map (executionOf address)) s) result := by
  induction bodies generalizing s p with
  | nil =>
      rw [List.map_nil, Scheduler.runLoop]
      cases hdue : s.firstDue now with
      | none => exact ⟨_, .done (hshows.done hdue), .ok hshows⟩
      | some t =>
          obtain ⟨hroot, hle⟩ := Scheduler.firstDue_root hdue
          obtain ⟨task, rfl, htask, -⟩ := hshows.earliest hroot
          rw [hshows.due htask] at hle
          exact ⟨_, .endless htask hle, .error _⟩
  | cons body bodies ih =>
      rw [List.map_cons, Scheduler.runLoop]
      cases hdue : s.firstDue now with
      | none => exact ⟨_, .done (hshows.done hdue), .ok hshows⟩
      | some t =>
          obtain ⟨hroot, hle⟩ := Scheduler.firstDue_root hdue
          obtain ⟨task, rfl, hearliest⟩ := hshows.earliest hroot
          rw [hshows.due hearliest.1] at hle
          have hround := hshows.execute hidle hearliest.1 body
          dsimp only
          generalize s.execute task.id (executionOf address body) = round at hround
          cases hbody : callsOnPool body { p with pool := p.pool.start task.id } with
          | error fault =>
              rw [hbody] at hround
              refine ⟨_, .fault hearliest hle hbody, ?_⟩
              cases hround with
              | error => exact .error _
              | overflow => exact .overflow _
          | ok p₁ =>
              rw [hbody] at hround
              cases hround with
              | ok hshows₁ =>
                  obtain ⟨result, hloop, hagree⟩ := ih hshows₁ rfl
                  exact ⟨result, .next hearliest hle hbody hloop, hagree⟩
              | overflow =>
                  obtain ⟨result, hloop⟩ := exists_poolLoop now bodies
                    { p₁ with pool := p₁.pool.finish }
                  exact ⟨result, .next hearliest hle hbody hloop, .overflow _⟩

/-- `taskqueue_run`. -/
theorem taskqueueRun (bodies : List (List (PoolCall κ))) (hshows : Shows address s p)
    (hidle : p.pool.running = none) :
    ∃ result, PoolLoop (clockGettime p.clock) bodies p result ∧
      Agree address (s.taskqueueRun (bodies.map (executionOf address))) result := by
  obtain ⟨result, hloop, hagree⟩ := hshows.runLoop (clockGettime p.clock) bodies hidle
  unfold Scheduler.taskqueueRun
  cases hqueue : s.queue.queue with
  | none =>
      -- the timer is left alone when the queue is empty
      have hnone : s.firstDue (clockGettime p.clock) = none := by rw [Scheduler.firstDue, hqueue]
      exact ⟨_, .done (hshows.done hnone), .ok hshows⟩
  | some root =>
      refine ⟨result, hloop, ?_⟩
      rw [← hshows.clock] at hagree
      dsimp only
      generalize Scheduler.runLoop (clockGettime s.clock) (bodies.map (executionOf address)) s = run
        at hagree ⊢
      cases hagree with
      | ok hshows' => exact .ok hshows'.schedule
      | error fault => exact .error fault
      | overflow result => exact .overflow result

end Shows

/-- After a run no task is running. -/
theorem PoolLoop.idle {now : Timespec} {bodies : List (List (PoolCall κ))} {p : TimedPool κ}
    {result : Except Fault (TimedPool κ)} (hloop : PoolLoop now bodies p result)
    (hidle : p.pool.running = none) {p' : TimedPool κ} (hresult : result = .ok p') :
    p'.pool.running = none := by
  induction hloop with
  | done _ =>
      rw [← Except.ok.inj hresult]
      exact hidle
  | endless _ _ => cases hresult
  | fault _ _ _ => cases hresult
  | next _ _ _ _ ih => exact ih rfl hresult

/-- A step of the program. -/
theorem PoolStep.onQueue_agree {address : κ → TaskCode} {s : Scheduler} {p : TimedPool κ}
    (hshows : Shows address s p) (hidle : p.pool.running = none) (step : PoolStep κ) :
    ∃ result, step.OnPool p result ∧ Agree address (step.onQueue address s) result ∧
      ∀ p', result = .ok p' → p'.pool.running = none := by
  cases step with
  | call made =>
      exact ⟨_, .call made, hshows.perform made, fun p' hp' =>
        (PoolCall.onPool_running hp').trans hidle⟩
  | run bodies =>
      obtain ⟨result, hloop, hagree⟩ := hshows.taskqueueRun bodies hidle
      exact ⟨result, .run hloop, hagree, fun p' hp' => hloop.idle hidle hp'⟩

theorem Shows.init (address : κ → TaskCode) : Shows address .init ⟨0, .empty⟩ where
  sound := TaskPool.Sound.empty
  clock := rfl
  heap := ⟨.nil, .init, fun _ => Iff.rfl⟩
  content := fun _ htask => absurd htask List.not_mem_nil
  fresh := rfl
  live := fun t => by simp [Scheduler.init, TaskPool.empty]
  running := fun _ ht => by cases ht

/-- A program on a queue. The induction is on the steps. -/
theorem runOnQueue_agree {address : κ → TaskCode} (steps : List (PoolStep κ)) {s : Scheduler}
    {p : TimedPool κ} (hshows : Shows address s p) (hidle : p.pool.running = none) :
    ∃ result, RunOnPool steps p result ∧ Agree address (runOnQueue address steps s) result := by
  induction steps generalizing s p with
  | nil => exact ⟨_, .nil p, .ok hshows⟩
  | cons step steps ih =>
      obtain ⟨result, hstep, hagree, hrunning⟩ := PoolStep.onQueue_agree hshows hidle step
      rw [runOnQueue]
      generalize step.onQueue address s = next at hagree
      cases hagree with
      | ok hshows' =>
          obtain ⟨result, hrest, hagree⟩ := ih hshows' (hrunning _ rfl)
          exact ⟨result, .cons hstep hrest, hagree⟩
      | error fault => exact ⟨_, .fault hstep, .error fault⟩
      | overflow result =>
          cases result with
          | error fault => exact ⟨_, .fault hstep, .overflow _⟩
          | ok p' =>
              obtain ⟨result, hrest⟩ := exists_runOnPool steps p'
              exact ⟨result, .cons hstep hrest, .overflow _⟩

/-- Whatever a program does with the queue, a pool of tasks can do the same: the queued tasks, what they do
and when they are due, the handles that are valid, and the fault that ends the program, if one does. Only
where a due time leaves the range of `long` does the queue end and the pool not. -/
theorem taskqueue_refines (address : κ → TaskCode) (steps : List (PoolStep κ)) :
    ∃ result, RunOnPool steps ⟨0, .empty⟩ result ∧
      Agree address (runOnQueue address steps .init) result :=
  runOnQueue_agree steps (Shows.init address) rfl

end Snapcastc
