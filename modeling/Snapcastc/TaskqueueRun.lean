import Snapcastc.TaskqueueCalls

/-! `taskqueue_run` and what its callbacks can do to the queue. The functions and the cleanups it calls
are arbitrary: each makes any sequence of calls, with the nested calls of the cleanups of dropped tasks. -/

namespace Snapcastc

open Batteries.PairingHeapImp

mutual

/-- The calls a callback may make: it posts, drops and reschedules tasks, with delays that are not
negative. -/
def Call.callback (call : Call) : Bool :=
  match call with
  | .create _ _ _ _ => false
  | .insert _ => false
  | .remove _ => false
  | .post timeout millisecs _ _ _ => decide (0 ≤ timeout ∧ 0 ≤ millisecs)
  | .drop _ calls => Call.callbacks calls
  | .reschedule _ timeout millisecs => decide (0 ≤ timeout ∧ 0 ≤ millisecs)
  | .tick _ => true

def Call.callbacks (calls : List Call) : Bool :=
  match calls with
  | [] => true
  | call :: calls => Call.callback call && Call.callbacks calls

end

/-- What one executed task does: the calls of its function and those of its cleanup. -/
structure Execution where
  function : List Call
  cleanup : List Call

namespace Scheduler

/-- The task at the root, if it is due. -/
def firstDue (s : Scheduler) (now : Timespec) : Option Nat :=
  match s.queue.queue with
  | none => none
  | some t => if timespecCmp (s.queue.due t) now ≤ 0 then some t else none

/-- The body of the loop of `taskqueue_run`. -/
def execute (s : Scheduler) (t : Nat) (execution : Execution) : Except Fault Scheduler :=
  (s.queue.remove t).bind fun queue =>
    (performAll execution.function
      { s with
        queue := queue.setRunning t
        log := s.log ++ [.started t (queue.due t) (queue.cleanup t)] }).bind fun s₁ =>
      (callCleanup { s₁ with log := s₁.log ++ [.returned t] } t
        (performAll execution.cleanup)).map fun s₂ => { s₂ with live := s₂.live.erase t }

/-- The loop of `taskqueue_run`, with one execution for each round. Where there are fewer, the loop is
still running. -/
def runLoop (now : Timespec) : List Execution → Scheduler → Except Fault Scheduler
  | [], s =>
      match s.firstDue now with
      | none => .ok s
      | some _ => .error .endless
  | execution :: executions, s =>
      match s.firstDue now with
      | none => .ok s
      | some t => (s.execute t execution).bind (runLoop now executions)

def taskqueueRun (s : Scheduler) (executions : List Execution) : Except Fault Scheduler :=
  match s.queue.queue with
  | none => .ok s
  | some _ =>
      (runLoop (clockGettime s.clock) executions s).map fun s₁ =>
        { s₁ with queue := s₁.queue.schedule }

end Scheduler

theorem clockGettime_normalised (nanos : Nat) : (clockGettime nanos).Normalised := by
  unfold clockGettime Timespec.Normalised billion
  dsimp only
  omega

theorem clockGettime_mono {n m : Nat} (h : n ≤ m) :
    timespecCmp (clockGettime n) (clockGettime m) ≤ 0 := by
  rw [timespecCmp_le_iff]
  unfold clockGettime billion
  dsimp only
  omega

theorem Scheduler.settime_not_before {s : Scheduler} {timeout millisecs : Int} {due : Timespec}
    (hdue : s.settime timeout millisecs = .ok due) (htimeout : 0 ≤ timeout) (hmillisecs : 0 ≤ millisecs) :
    timespecCmp (clockGettime s.clock) due ≤ 0 := by
  unfold settime at hdue
  dsimp only at hdue
  split_ifs at hdue with hfits
  rw [← Except.ok.inj hdue]
  simp only [fitsLong, Bool.and_eq_true, decide_eq_true_eq] at hfits
  exact settime_spec (clockGettime_normalised _) htimeout hmillisecs hfits.1.1.2.2

/-! ### What a callback leaves behind -/

/-- The linked tasks form a heap, and each of them is live and does not run. -/
structure Sound (s : Scheduler) : Prop where
  heap : ∃ h, s.queue.Represents h ∧
    ∀ t ∈ h.elements, t ∈ s.live ∧ s.queue.running t = false
  allocated : ∀ t ∈ s.live, t < s.queue.fresh

/-- The event of a task that was thrown away between two states: one that was live and not running, or
was posted in between. -/
def TaskEvent.Discards (s s' : Scheduler) (event : TaskEvent) : Prop :=
  ∃ t, (event = .dropped t ∨ event = .cleaned t) ∧ t ∉ s'.live ∧ t < s'.queue.fresh ∧
    (t ∈ s.live ∧ s.queue.running t = false ∨ s.queue.fresh ≤ t)

/-- What calls of a callback can have done to the queue between two states. -/
structure Advance (s s' : Scheduler) : Prop where
  fresh : s.queue.fresh ≤ s'.queue.fresh
  clock : s.clock ≤ s'.clock
  live : ∀ t ∈ s'.live, t ∈ s.live ∨ s.queue.fresh ≤ t
  kept : ∀ t ∈ s.live, s.queue.running t = true → t ∈ s'.live
  old : ∀ t, t < s.queue.fresh →
    s'.queue.running t = s.queue.running t ∧ s'.queue.cleanup t = s.queue.cleanup t
  new : ∀ t, s.queue.fresh ≤ t → t < s'.queue.fresh → s'.queue.running t = false
  due : ∀ t, s'.queue.linked t = true → s.queue.linked t = true ∧ s'.queue.due t = s.queue.due t ∨
    timespecCmp (clockGettime s.clock) (s'.queue.due t) ≤ 0

/-- What calls of a callback can have done between two states. -/
structure Progress (s s' : Scheduler) : Prop extends Advance s s' where
  log : ∃ events, s'.log = s.log ++ events ∧ ∀ event ∈ events, event.Discards s s'

/-- The log has no part in what happens to the queue. -/
theorem Advance.log (s : Scheduler) (log : List TaskEvent) : Advance s { s with log := log } where
  fresh := le_rfl
  clock := le_rfl
  live := fun _ ht => .inl ht
  kept := fun _ ht _ => ht
  old := fun _ _ => ⟨rfl, rfl⟩
  new := fun _ hle hlt => absurd hlt (not_lt.mpr hle)
  due := fun _ ht => .inl ⟨ht, rfl⟩

theorem Advance.trans {s s₁ s₂ : Scheduler} (hsound : Sound s) (h : Advance s s₁)
    (h' : Advance s₁ s₂) : Advance s s₂ where
  fresh := h.fresh.trans h'.fresh
  clock := h.clock.trans h'.clock
  live := fun t ht => (h'.live t ht).elim (h.live t) fun hle => .inr (h.fresh.trans hle)
  kept := fun t ht hrunning => by
    refine h'.kept t (h.kept t ht hrunning) ?_
    rw [(h.old t (hsound.allocated t ht)).1]
    exact hrunning
  old := fun t ht => by
    obtain ⟨hrunning, hcleanup⟩ := h.old t ht
    obtain ⟨hrunning', hcleanup'⟩ := h'.old t (ht.trans_le h.fresh)
    exact ⟨hrunning'.trans hrunning, hcleanup'.trans hcleanup⟩
  new := fun t hle hlt => by
    by_cases hmid : t < s₁.queue.fresh
    · rw [(h'.old t hmid).1]
      exact h.new t hle hmid
    · exact h'.new t (not_lt.mp hmid) hlt
  due := fun t ht => by
    rcases h'.due t ht with ⟨hlinked, hdue⟩ | hlate
    · rw [hdue]
      exact h.due t hlinked
    · exact .inr (timespecCmp_totalPreorder.trans _ _ _ (clockGettime_mono h.clock) hlate)

/-- What is gone stays gone. -/
theorem Advance.gone {s s' : Scheduler} (h : Advance s s') {t : Nat} (hdead : t ∉ s.live)
    (hlt : t < s.queue.fresh) : t ∉ s'.live ∧ t < s'.queue.fresh :=
  ⟨fun hlive => (h.live t hlive).elim hdead (not_le.mpr hlt), hlt.trans_le h.fresh⟩

theorem Progress.refl (s : Scheduler) : Progress s s := ⟨Advance.log s s.log, [], by simp⟩

theorem Progress.trans {s s₁ s₂ : Scheduler} (hsound : Sound s) (h : Progress s s₁)
    (h' : Progress s₁ s₂) : Progress s s₂ := by
  refine ⟨h.toAdvance.trans hsound h'.toAdvance, ?_⟩
  obtain ⟨events, hlog, hevents⟩ := h.log
  obtain ⟨events', hlog', hevents'⟩ := h'.log
  refine ⟨events ++ events', by rw [hlog', hlog, List.append_assoc], ?_⟩
  intro event hevent
  rcases List.mem_append.mp hevent with hevent | hevent
  · obtain ⟨t, hkind, hdead, hlt, hwas⟩ := hevents event hevent
    obtain ⟨hdead', hlt'⟩ := h'.gone hdead hlt
    exact ⟨t, hkind, hdead', hlt', hwas⟩
  · obtain ⟨t, hkind, hdead, hlt, hwas⟩ := hevents' event hevent
    refine ⟨t, hkind, hdead, hlt, ?_⟩
    rcases hwas with ⟨hlive, hrunning⟩ | hnew
    · refine (h.live t hlive).imp (fun hold => ⟨hold, ?_⟩) id
      rw [← (h.old t (hsound.allocated t hold)).1]
      exact hrunning
    · exact .inr (h.fresh.trans hnew)

/-- A call that only changes the queue, and there nothing but links and the due times of tasks it moves
behind the clock. -/
theorem progress_of_relink {s : Scheduler} (hsound : Sound s) {queue : Taskqueue} {h' : Heap Nat}
    (hrep : queue.Represents h') (hlinked : ∀ t ∈ h'.elements, s.queue.linked t = true)
    (hfresh : queue.fresh = s.queue.fresh) (hrunning : ∀ t, queue.running t = s.queue.running t)
    (hcleanup : ∀ t, queue.cleanup t = s.queue.cleanup t)
    (hdue : ∀ t, queue.due t = s.queue.due t ∨ timespecCmp (clockGettime s.clock) (queue.due t) ≤ 0) :
    Sound { s with queue := queue } ∧ Progress s { s with queue := queue } := by
  obtain ⟨h, hrep₀, hlive⟩ := hsound.heap
  refine ⟨⟨⟨h', hrep, fun t ht => ?_⟩, fun t ht => ?_⟩, ?_⟩
  · obtain ⟨hmem, hstopped⟩ := hlive t ((hrep₀.linked_iff t).mp (hlinked t ht))
    exact ⟨hmem, (hrunning t).trans hstopped⟩
  · change t < queue.fresh
    rw [hfresh]
    exact hsound.allocated t ht
  · refine ⟨⟨hfresh.ge, le_rfl, fun t ht => .inl ht, fun t ht _ => ht,
      fun t _ => ⟨hrunning t, hcleanup t⟩, fun t hle hlt => ?_, fun t ht => ?_⟩, [], by simp⟩
    · change t < queue.fresh at hlt
      omega
    · exact (hdue t).imp (fun hsame => ⟨hlinked t ((hrep.linked_iff t).mp ht), hsame⟩) id

theorem schedule_progress {s : Scheduler} (hsound : Sound s) :
    Sound { s with queue := s.queue.schedule } ∧
      Progress s { s with queue := s.queue.schedule } := by
  obtain ⟨h, hrep, -⟩ := hsound.heap
  obtain ⟨htask, hfresh, -⟩ := s.queue.schedule_task
  refine progress_of_relink hsound hrep.schedule (fun t ht => (hrep.linked_iff t).mpr ht) hfresh
    (fun t => ?_) (fun t => ?_) (fun t => .inl ?_)
  · rw [Taskqueue.running, Taskqueue.running, htask]
  · rw [Taskqueue.cleanup, Taskqueue.cleanup, htask]
  · rw [Taskqueue.due, Taskqueue.due, htask]

theorem rescheduleTask_progress {s s' : Scheduler} (hsound : Sound s) {task : Option Nat}
    {timeout millisecs : Int} (htimeout : 0 ≤ timeout) (hmillisecs : 0 ≤ millisecs)
    (hcall : s.rescheduleTask task timeout millisecs = .ok s') : Sound s' ∧ Progress s s' := by
  unfold Scheduler.rescheduleTask at hcall
  cases task with
  | none =>
      rw [← Except.ok.inj hcall]
      exact ⟨hsound, .refl s⟩
  | some e =>
      dsimp only at hcall
      split_ifs at hcall with hlive hlinked
      · cases hsettime : s.settime timeout millisecs with
        | error fault =>
            rw [hsettime] at hcall
            cases hcall
        | ok due =>
            obtain ⟨h, hrep, -⟩ := hsound.heap
            obtain ⟨queue, h', hreschedule, hrep', hmem, hfresh, htask⟩ :=
              Taskqueue.rescheduleTask_spec hrep e due
            rw [hsettime] at hcall
            simp only [Except.bind, hreschedule, Except.map] at hcall
            rw [← Except.ok.inj hcall]
            refine progress_of_relink hsound hrep'
              (fun t ht => (hrep.linked_iff t).mpr ((hmem t).mp ht)) hfresh (fun t => ?_) (fun t => ?_)
              (fun t => ?_)
            · change (Taskqueue.unlinked (queue.task t)).running = _
              rw [htask t]
              split_ifs <;> rfl
            · change (Taskqueue.unlinked (queue.task t)).cleanup = _
              rw [htask t]
              split_ifs <;> rfl
            · change (Taskqueue.unlinked (queue.task t)).due = _ ∨
                timespecCmp _ (Taskqueue.unlinked (queue.task t)).due ≤ 0
              rw [htask t]
              split_ifs
              · exact .inr (Scheduler.settime_not_before hsettime htimeout hmillisecs)
              · exact .inl rfl
      · rw [← Except.ok.inj hcall]
        exact ⟨hsound, .refl s⟩

theorem postTask_progress {s s' : Scheduler} (hsound : Sound s) {timeout millisecs : Int}
    (htimeout : 0 ≤ timeout) (hmillisecs : 0 ≤ millisecs) {function : Nat} {cleanup : Option Nat}
    {data : Nat} (hcall : s.postTask timeout millisecs function cleanup data = .ok s') :
    Sound s' ∧ Progress s s' := by
  unfold Scheduler.postTask at hcall
  cases hsettime : s.settime timeout millisecs with
  | error fault =>
      rw [hsettime] at hcall
      cases hcall
  | ok due =>
      obtain ⟨h, hrep, hlive⟩ := hsound.heap
      obtain ⟨queue, h', hpost, hrep', hmem, hfresh, htask⟩ :=
        Taskqueue.postTask_spec hrep due function cleanup data
      rw [hsettime] at hcall
      simp only [Except.bind, hpost, Except.map] at hcall
      rw [← Except.ok.inj hcall]
      have hrunning : ∀ t, queue.running t =
          if t = s.queue.fresh then false else s.queue.running t := by
        intro t
        change (Taskqueue.unlinked (queue.task t)).running = _
        rw [htask t]
        split_ifs <;> rfl
      refine ⟨⟨⟨h', hrep', fun t ht => ?_⟩, fun t ht => ?_⟩, ⟨?_, le_rfl, fun t ht => ?_,
        fun t ht _ => Finset.mem_insert_of_mem ht, fun t ht => ⟨?_, ?_⟩, fun t hle hlt => ?_,
        fun t ht => ?_⟩, [], by simp⟩
      · change t ∈ insert s.queue.fresh s.live ∧ queue.running t = false
        rw [hrunning t]
        rcases (hmem t).mp ht with rfl | ht
        · simp
        · obtain ⟨hmemLive, hstopped⟩ := hlive t ht
          exact ⟨Finset.mem_insert_of_mem hmemLive, by rw [hstopped, ite_self]⟩
      · change t < queue.fresh
        rw [hfresh]
        rcases Finset.mem_insert.mp ht with rfl | ht
        · exact Nat.lt_succ_self _
        · exact (hsound.allocated t ht).trans (Nat.lt_succ_self _)
      · exact hfresh ▸ Nat.le_succ _
      · rcases Finset.mem_insert.mp ht with rfl | ht
        · exact .inr le_rfl
        · exact .inl ht
      · change queue.running t = _
        rw [hrunning t, if_neg ht.ne]
      · change (Taskqueue.unlinked (queue.task t)).cleanup = _
        rw [htask t, if_neg ht.ne]
        rfl
      · change t < queue.fresh at hlt
        change queue.running t = false
        rw [hrunning t, if_pos (by omega)]
      · have hdue : queue.due t = if t = s.queue.fresh then due else s.queue.due t := by
          change (Taskqueue.unlinked (queue.task t)).due = _
          rw [htask t]
          split_ifs <;> rfl
        rcases (hmem t).mp ((hrep'.linked_iff t).mp ht) with rfl | hold
        · refine .inr ?_
          change timespecCmp _ (queue.due _) ≤ 0
          rw [hdue, if_pos rfl]
          exact Scheduler.settime_not_before hsettime htimeout hmillisecs
        · refine .inl ⟨(hrep.linked_iff t).mpr hold, ?_⟩
          exact hdue.trans (if_neg (hrep.allocated t hold).ne)

/-- Taking a task out of the queue and out of the program's hands. -/
theorem discard_progress {s : Scheduler} (hsound : Sound s) {t : Nat} (hlive : t ∈ s.live)
    (hstopped : s.queue.running t = false) {queue : Taskqueue} (hremove : s.queue.remove t = .ok queue)
    {events : List TaskEvent} (hevents : ∀ event ∈ events, event = .dropped t ∨ event = .cleaned t) :
    Sound { s with queue := queue, live := s.live.erase t, log := s.log ++ events } ∧
      Progress s { s with queue := queue, live := s.live.erase t, log := s.log ++ events } := by
  obtain ⟨h, hrep, hheap⟩ := hsound.heap
  obtain ⟨queue', h', hremove', hrep', hmem, hcontent⟩ := Taskqueue.remove_spec hrep t
  obtain rfl : queue = queue' := Except.ok.inj (hremove.symm.trans hremove')
  refine ⟨⟨⟨h', hrep', fun x hx => ?_⟩, fun x hx => ?_⟩, ⟨hcontent.fresh.ge,
    le_rfl, fun x hx => .inl (Finset.mem_of_mem_erase hx), fun x hx hrunning => ?_,
    fun x _ => ⟨hcontent.running x, hcontent.cleanup x⟩, fun x hle hlt => ?_, fun x hx => .inl ?_⟩,
    events, rfl, fun event hevent => ?_⟩
  · obtain ⟨hne, hx⟩ := (hmem x).mp hx
    obtain ⟨hxlive, hxstopped⟩ := hheap x hx
    exact ⟨Finset.mem_erase.mpr ⟨hne, hxlive⟩, (hcontent.running x).trans hxstopped⟩
  · change x < queue.fresh
    rw [hcontent.fresh]
    exact hsound.allocated x (Finset.mem_of_mem_erase hx)
  · refine Finset.mem_erase.mpr ⟨?_, hx⟩
    rintro rfl
    rw [hstopped] at hrunning
    cases hrunning
  · change x < queue.fresh at hlt
    rw [hcontent.fresh] at hlt
    omega
  · obtain ⟨-, hx⟩ := (hmem x).mp ((hrep'.linked_iff x).mp hx)
    exact ⟨(hrep.linked_iff x).mpr hx, hcontent.due x⟩
  · refine ⟨t, hevents event hevent, by simp, ?_, .inl ⟨hlive, hstopped⟩⟩
    change t < queue.fresh
    rw [hcontent.fresh]
    exact hsound.allocated t hlive

/-- `drop_task`, where the cleanup only makes calls of this kind. -/
theorem dropTask_progress {s s' : Scheduler} (hsound : Sound s) {t : Nat}
    {calls : Scheduler → Except Fault Scheduler}
    (hcalls : ∀ s₁ s₂, Sound s₁ → calls s₁ = .ok s₂ → Sound s₂ ∧ Progress s₁ s₂)
    (hcall : s.dropTask t calls = .ok s') : Sound s' ∧ Progress s s' := by
  unfold Scheduler.dropTask at hcall
  split_ifs at hcall with hlive hrunning
  · rw [← Except.ok.inj hcall]
    exact ⟨hsound, .refl s⟩
  · have hstopped : s.queue.running t = false := by simpa using hrunning
    cases hremove : s.queue.remove t with
    | error fault =>
        rw [hremove] at hcall
        cases hcall
    | ok queue =>
        rw [hremove] at hcall
        unfold Scheduler.callCleanup at hcall
        simp only [Except.bind] at hcall
        cases hcleanup : queue.cleanup t with
        | none =>
            obtain ⟨hsound₁, hprogress₁⟩ := discard_progress hsound hlive hstopped hremove
              (show ∀ event ∈ [TaskEvent.dropped t], event = .dropped t ∨ event = .cleaned t by simp)
            obtain ⟨hsound₂, hprogress₂⟩ := schedule_progress hsound₁
            rw [hcleanup] at hcall
            rw [← Except.ok.inj hcall]
            exact ⟨hsound₂, hprogress₁.trans hsound hprogress₂⟩
        | some c =>
            obtain ⟨hsound₁, hprogress₁⟩ := discard_progress hsound hlive hstopped hremove
              (show ∀ event ∈ [TaskEvent.dropped t] ++ [TaskEvent.cleaned t],
                event = .dropped t ∨ event = .cleaned t by simp)
            rw [← List.append_assoc] at hsound₁ hprogress₁
            rw [hcleanup] at hcall
            dsimp only at hcall
            cases hcalled : calls { s with queue := queue, live := s.live.erase t,
                                           log := s.log ++ [.dropped t] ++ [.cleaned t] } with
            | error fault =>
                rw [hcalled] at hcall
                cases hcall
            | ok s₂ =>
                rw [hcalled] at hcall
                obtain ⟨hsound₂, hprogress₂⟩ := hcalls _ s₂ hsound₁ hcalled
                obtain ⟨hsound₃, hprogress₃⟩ := schedule_progress hsound₂
                rw [← Except.ok.inj hcall]
                exact ⟨hsound₃, (hprogress₁.trans hsound hprogress₂).trans hsound hprogress₃⟩

mutual

/-- One call of a callback. The induction is on the tree of calls. -/
theorem perform_progress (call : Call) {s s' : Scheduler} (hsound : Sound s)
    (hcallback : call.callback = true) (hperform : Scheduler.perform call s = .ok s') :
    Sound s' ∧ Progress s s' :=
  match call with
  | .create _ _ _ _ => by
      rw [Call.callback] at hcallback
      cases hcallback
  | .insert _ => by
      rw [Call.callback] at hcallback
      cases hcallback
  | .remove _ => by
      rw [Call.callback] at hcallback
      cases hcallback
  | .post timeout millisecs function cleanup data => by
      rw [Call.callback, decide_eq_true_eq] at hcallback
      rw [Scheduler.perform] at hperform
      exact postTask_progress hsound hcallback.1 hcallback.2 hperform
  | .drop t calls => by
      rw [Call.callback] at hcallback
      rw [Scheduler.perform] at hperform
      exact dropTask_progress hsound (fun s₁ s₂ hs₁ h => performAll_progress calls hs₁ hcallback h)
        hperform
  | .reschedule task timeout millisecs => by
      rw [Call.callback, decide_eq_true_eq] at hcallback
      rw [Scheduler.perform] at hperform
      exact rescheduleTask_progress hsound hcallback.1 hcallback.2 hperform
  | .tick nanos => by
      rw [Scheduler.perform] at hperform
      rw [← Except.ok.inj hperform]
      exact ⟨⟨hsound.heap, hsound.allocated⟩, { Progress.refl s with clock := Nat.le_add_right _ _ }⟩

/-- The calls of a callback. -/
theorem performAll_progress (calls : List Call) {s s' : Scheduler} (hsound : Sound s)
    (hcallbacks : Call.callbacks calls = true) (hperform : Scheduler.performAll calls s = .ok s') :
    Sound s' ∧ Progress s s' :=
  match calls with
  | [] => by
      rw [Scheduler.performAll] at hperform
      rw [← Except.ok.inj hperform]
      exact ⟨hsound, .refl s⟩
  | call :: calls => by
      rw [Call.callbacks, Bool.and_eq_true] at hcallbacks
      rw [Scheduler.performAll] at hperform
      obtain ⟨s₁, hfirst, hrest⟩ := except_bind_ok hperform
      obtain ⟨hsound₁, hprogress₁⟩ := perform_progress call hsound hcallbacks.1 hfirst
      obtain ⟨hsound₂, hprogress₂⟩ := performAll_progress calls hsound₁ hcallbacks.2 hrest
      exact ⟨hsound₂, hprogress₁.trans hsound hprogress₂⟩

end

end Snapcastc
