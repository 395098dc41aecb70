import Snapcastc.ServerDescriptorsRun

/-! The task that sets an input pipe idle when nothing is read from it any more. `inputpipe_handle` posts it
with the first bytes after a pause and moves it with all others; `inputpipe_resume_read` and the end of the
input change the state of the pipe without it. -/

namespace Snapcastc

variable {n : Nat}

/-- The queued tasks that set the pipe of a stream idle. -/
def watchdogs (tasks : TaskPool (ServerTask n)) (i : Fin (n + 1)) : List (Posted (ServerTask n)) :=
  tasks.queued.filter fun task => decide (task.code = .setIdle i)

/-- `inputpipe_handle` reads at least one byte. -/
def ReadsInput (bufferms : UInt16) (clock : ServerClock) (input : Option (List UInt8))
    (ctx : InputpipeCtx) : Prop :=
  bufferFull bufferms clock ctx = false ∧
    ∃ bytes ∈ input.map (List.take (ctx.chunksize.toNat - ctx.dataRead)), bytes ≠ []

instance (bufferms : UInt16) (clock : ServerClock) (input : Option (List UInt8)) (ctx : InputpipeCtx) :
    Decidable (ReadsInput bufferms clock input ctx) := inferInstanceAs (Decidable (_ ∧ _))

/-- Exactly one task is queued that sets the pipe idle. It is the one in `idle_task`, and it is due after the
length of the buffer. -/
def Watched (bufferms : UInt16) (clock : ServerClock) (i : Fin (n + 1)) (ctx : InputpipeCtx)
    (tasks : TaskPool (ServerTask n)) : Prop :=
  ∃ id, ctx.idleTask = some id ∧
    watchdogs tasks i = [⟨id, timeAddMs clock.uptime (.ofNat bufferms.toNat), .setIdle i⟩]

/-- `inputpipe_handle` returns, and the pipe is watched. -/
def WatchedAfter (s : Server n) (i : Fin (n + 1)) (clock : ServerClock) (input : Option (List UInt8)) :
    Prop :=
  ∃ ret ctx tasks, inputpipeHandle s.bufferms clock i input (s.pipe i) s.tasks = .ok (ret, ctx, tasks) ∧
    Watched s.bufferms clock i ctx tasks

/-- In the state IDLE no task is queued that sets the pipe idle, and the buffer has no length. In the other
states exactly one such task is queued, the one in `idle_task`. -/
def WatchdogArmed (s : Server n) (i : Fin (n + 1)) : Prop :=
  if (s.pipe i).state = .idle then watchdogs s.tasks i = [] ∧ s.bufferms = 0
  else ∃ task, watchdogs s.tasks i = [task] ∧ (s.pipe i).idleTask = some task.id

theorem toInt_bufferms (bufferms : UInt16) : (Int32.ofNat bufferms.toNat).toInt = bufferms.toNat :=
  Int32.toInt_ofNat_of_lt (bufferms.toNat_lt.trans (by decide))

theorem settime_bufferms (now : Timespec) (bufferms : UInt16) :
    settime now (bufferms.toNat / 1000 : Nat) (bufferms.toNat % 1000 : Nat) =
      timeAddMs now (.ofNat bufferms.toNat) := by
  have hexact : (Int32.ofNat bufferms.toNat).toInt = bufferms.toNat := toInt_bufferms bufferms
  have hquotient : ((bufferms.toNat / 1000 : Nat) : Int) = (bufferms.toNat : Int).tdiv 1000 := by
    rw [Int.tdiv_eq_ediv_of_nonneg (Int.natCast_nonneg _)]
    rfl
  have hremainder : ((bufferms.toNat % 1000 : Nat) : Int) = (bufferms.toNat : Int).tmod 1000 := by
    rw [Int.tmod_eq_emod_of_nonneg (Int.natCast_nonneg _)]
    rfl
  rw [settime, timeAddMs, hexact, hquotient, hremainder]

/-- The first bytes after a pause post the task with as many seconds as the buffer has milliseconds. -/
theorem settime_seconds_iff (now : Timespec) (bufferms : UInt16) :
    settime now bufferms.toNat (bufferms.toNat % 1000 : Nat) = timeAddMs now (.ofNat bufferms.toNat) ↔
      bufferms = 0 := by
  rw [← settime_bufferms]
  constructor
  · intro heq
    have hsec := congrArg Timespec.tvSec heq
    simp only [settime, timeAdd, timeAddLoop_eq] at hsec
    have hzero : bufferms.toNat = 0 := by omega
    exact UInt16.toNat_inj.mp hzero
  · rintro rfl
    rfl

/-! ### Reading -/

section

variable {pool pool' : TaskPool (ServerTask n)} {now : Timespec} {i : Fin (n + 1)}

theorem watchdogs_postTask (timeout millisecs : Int) :
    watchdogs (pool.postTask now timeout millisecs (.setIdle i)).2 i =
      watchdogs pool i ++ [⟨pool.fresh, settime now timeout millisecs, .setIdle i⟩] := by
  change (pool.queued ++ [_]).filter _ = _
  rw [List.filter_append, List.filter_singleton, decide_eq_true rfl]
  rfl

/-- Moving a task changes its due time and nothing else. -/
theorem watchdogs_reschedule (id : Nat) (due : Timespec) (queued : List (Posted (ServerTask n))) :
    (queued.map fun task => if task.id = id then { task with due := due } else task).filter
        (fun task => decide (task.code = .setIdle i)) =
      (queued.filter fun task => decide (task.code = .setIdle i)).map fun task =>
        if task.id = id then { task with due := due } else task := by
  rw [List.filter_map]
  congr 1
  refine List.filter_congr fun task _ => ?_
  rw [Function.comp_apply]
  split_ifs
  · rfl
  · rfl

end

theorem finishChunk_idleTask (clock : ServerClock) (ctx : InputpipeCtx) :
    (finishChunk clock ctx).2.idleTask = ctx.idleTask := (PipeFrame.finishChunk_handles clock ctx).2

/-- The result of a call that reads is watched if what `readInput` leaves behind is. -/
theorem watchedAfter_iff {s : Server n} {i : Fin (n + 1)} {clock : ServerClock}
    {input : Option (List UInt8)} (hroom : bufferFull s.bufferms clock (s.pipe i) = false) :
    WatchedAfter s i clock input ↔
      ∃ ctx tasks, readInput s.bufferms clock i input (s.pipe i) s.tasks = .ok (ctx, tasks) ∧
        Watched s.bufferms clock i ctx tasks := by
  unfold WatchedAfter inputpipeHandle
  rw [if_neg (by rw [hroom]; exact Bool.false_ne_true)]
  constructor
  · rintro ⟨ret, ctx, tasks, hrun, id, hid, hwatch⟩
    obtain ⟨⟨ctx', tasks'⟩, hread, hrun⟩ := except_bind_ok hrun
    cases hrun
    exact ⟨ctx', tasks, hread, id, (finishChunk_idleTask clock ctx').symm.trans hid, hwatch⟩
  · rintro ⟨ctx, tasks, hread, id, hid, hwatch⟩
    rw [hread]
    exact ⟨_, _, tasks, rfl, id, (finishChunk_idleTask clock ctx).trans hid, hwatch⟩

/-- Every task that sets the pipe idle is moved if there is just the one. -/
theorem watched_reschedule_iff {s : Server n} (hsound : s.tasks.Sound) {i : Fin (n + 1)}
    {clock : ServerClock} {bytes : List UInt8} :
    (∃ ctx tasks, (do
      let tasks ← s.tasks.rescheduleTask clock.uptime (s.bufferms.toNat / 1000 : Nat)
        (s.bufferms.toNat % 1000 : Nat) (s.pipe i).idleTask
      pure (storeInput (s.pipe i) bytes, tasks) : Except Fault _) = .ok (ctx, tasks) ∧
        Watched s.bufferms clock i ctx tasks) ↔
      ∃ task, watchdogs s.tasks i = [task] ∧ (s.pipe i).idleTask = some task.id := by
  constructor
  · rintro ⟨ctx, tasks, hrun, id, hid, hwatch⟩
    obtain ⟨rescheduled, hreschedule, hrun⟩ := except_bind_ok hrun
    cases hrun
    have hid : (s.pipe i).idleTask = some id := hid
    rcases TaskPool.rescheduleTask_eq hreschedule with rfl | ⟨id', hid', rfl⟩
    · exact ⟨_, hwatch, hid⟩
    · obtain ⟨due, hmoved⟩ : ∃ due, (watchdogs s.tasks i).map (fun task => if task.id = id' then
          { task with due := due } else task) = [_] :=
        ⟨_, (watchdogs_reschedule id' _ s.tasks.queued).symm.trans hwatch⟩
      obtain ⟨task, htask, heq⟩ := List.map_eq_singleton_iff.mp hmoved
      refine ⟨task, htask, hid.trans (congrArg some ?_)⟩
      have hsame := congrArg Posted.id heq
      split_ifs at hsame
      · exact hsame.symm
      · exact hsame.symm
  · rintro ⟨task, htask, hid⟩
    have hmem : task ∈ watchdogs s.tasks i := by
      rw [htask]
      exact List.mem_singleton_self task
    obtain ⟨hqueued, hcode⟩ := List.mem_filter.mp hmem
    have hrunning : s.tasks.running ≠ some task.id := fun hrunning =>
      (hsound.running task.id hrunning).2 task hqueued rfl
    have hisQueued : s.tasks.isQueued task.id = true :=
      List.any_eq_true.mpr ⟨task, hqueued, beq_self_eq_true _⟩
    rw [hid, TaskPool.rescheduleTask, if_neg hrunning, if_pos hisQueued]
    refine ⟨_, _, rfl, task.id, hid, ?_⟩
    refine (watchdogs_reschedule task.id _ s.tasks.queued).trans ?_
    rw [show (s.tasks.queued.filter fun task => decide (task.code = .setIdle i)) = [task] from htask,
      List.map_singleton, if_pos rfl, settime_bufferms]
    rw [of_decide_eq_true hcode]

/-- In every state the server reaches, a call of `inputpipe_handle` that reads at least one byte leaves the
pipe watched exactly when the pipe was attended to before. -/
theorem watchdog_iff (bufferms : UInt16) (options : Fin (n + 1) → StreamOptions)
    (events : List ServerEvent) {s : Server n}
    (hrun : serverRun (freshServer bufferms options) events = .ok s) (i : Fin (n + 1))
    (clock : ServerClock) (input : Option (List UInt8))
    (hreads : ReadsInput s.bufferms clock input (s.pipe i)) :
    WatchedAfter s i clock input ↔ WatchdogArmed s i := by
  have hsound := ((RegistryInv.fresh bufferms options).run hrun).handles.sound
  obtain ⟨hroom, bytes, hbytes, hne⟩ := hreads
  obtain ⟨byte, bytes, rfl⟩ := List.exists_cons_of_ne_nil hne
  rw [watchedAfter_iff hroom]
  unfold readInput WatchdogArmed
  rw [Option.mem_def.mp hbytes]
  dsimp only
  split_ifs with hidle
  · constructor
    · rintro ⟨ctx, tasks, hread, id, hid, hwatch⟩
      cases hread
      rw [watchdogs_postTask] at hwatch
      obtain ⟨hnone, hposted⟩ := List.append_eq_singleton_iff.mp hwatch |>.resolve_right
        fun h => absurd h.2 (List.cons_ne_nil _ _)
      refine ⟨hnone, ?_⟩
      exact (settime_seconds_iff _ _).mp (congrArg Posted.due (List.singleton_injective hposted))
    · rintro ⟨hnone, hzero⟩
      refine ⟨_, _, rfl, s.tasks.fresh, rfl, ?_⟩
      rw [watchdogs_postTask, hnone, (settime_seconds_iff _ _).mpr hzero]
      rfl
  · exact watched_reschedule_iff hsound

/-- The writer of the pipe has stopped and started again, and writes one more byte. -/
theorem watchdog_restarted :
    ∃ s, serverRun (freshServer 1000 oneStream) [helloFrom 1 100 1, .epollWait [4],
        .pipeInput 4 (some []) (0, []) (clockAt 1), .epollWait [4],
        .pipeInput 4 (some [1, 2]) (0, []) (clockAt 1)] = .ok s ∧
      ReadsInput s.bufferms (clockAt 2) (some [3]) (s.pipe 0) ∧
        (WatchedAfter s 0 (clockAt 2) (some [3]) ↔ WatchdogArmed s 0) ∧
          WatchedAfter s 0 (clockAt 2) (some [3]) := by
  obtain ⟨s, hrun, hview⟩ := except_map_ok (show (serverRun (freshServer 1000 oneStream)
    [helloFrom 1 100 1, .epollWait [4], .pipeInput 4 (some []) (0, []) (clockAt 1), .epollWait [4],
      .pipeInput 4 (some [1, 2]) (0, []) (clockAt 1)]).map (fun s =>
        (decide (ReadsInput s.bufferms (clockAt 2) (some [3]) (s.pipe 0) ∧ (s.pipe 0).state ≠ .idle),
          (watchdogs s.tasks 0).map Posted.id, (s.pipe 0).idleTask)) = .ok (true, [1], some 1) by
            decide +kernel)
  obtain ⟨hboth, hview⟩ := Prod.mk.inj hview
  obtain ⟨hids, hhandle⟩ := Prod.mk.inj hview
  obtain ⟨hreads, hstate⟩ := of_decide_eq_true hboth
  obtain ⟨task, htask, hid⟩ := List.map_eq_singleton_iff.mp hids
  have hattended : WatchdogArmed s 0 := by
    rw [WatchdogArmed, if_neg hstate]
    exact ⟨task, htask, hhandle.trans (congrArg some hid.symm)⟩
  have hiff := watchdog_iff 1000 oneStream _ hrun 0 (clockAt 2) (some [3]) hreads
  exact ⟨s, hrun, hreads, hiff, hiff.mpr hattended⟩

/-- A client has come, and reading from the pipe was resumed: when the first byte is read, no task is there
to set the pipe idle. -/
theorem watchdog_missing :
    ¬∀ (bufferms : UInt16) (options : Fin (0 + 1) → StreamOptions) (events : List ServerEvent)
      (s : Server 0), serverRun (freshServer bufferms options) events = .ok s →
        ∀ (i : Fin (0 + 1)) (clock : ServerClock) (input : Option (List UInt8)),
          ReadsInput s.bufferms clock input (s.pipe i) → WatchedAfter s i clock input := by
  intro hall
  obtain ⟨s, hrun, hview⟩ := except_map_ok (show (serverRun (freshServer 1000 oneStream)
    [helloFrom 1 100 1]).map (fun s => (decide (ReadsInput s.bufferms (clockAt 1) (some [1]) (s.pipe 0)),
      (inputpipeHandle s.bufferms (clockAt 1) 0 (some [1]) (s.pipe 0) s.tasks).toOption.map
        fun result => result.2.1.idleTask)) = .ok (true, some none) by decide +kernel)
  obtain ⟨hreads, hhandled⟩ := Prod.mk.inj hview
  obtain ⟨ret, ctx, tasks, hhandle, id, hid, -⟩ :=
    hall 1000 oneStream _ s hrun 0 (clockAt 1) (some [1]) (of_decide_eq_true hreads)
  rw [hhandle] at hhandled
  have hnone : ctx.idleTask = none := Option.some.inj hhandled
  exact absurd (hid.symm.trans hnone) (Option.some_ne_none _)

end Snapcastc
