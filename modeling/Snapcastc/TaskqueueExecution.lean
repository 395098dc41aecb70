import Snapcastc.TaskqueueRun

/-! What a run of the task queue executes: the due tasks in the order of their due times, each once, with
its cleanup after its function. -/

namespace Snapcastc

open Batteries.PairingHeapImp

/-- A task whose function was called. -/
structure Started where
  task : Nat
  due : Timespec
  cleanup : Option Nat
  deriving DecidableEq, Repr

namespace TaskEvent

def task : TaskEvent → Nat
  | .started t _ _ => t
  | .returned t => t
  | .cleaned t => t
  | .dropped t => t

def start? : TaskEvent → Option Started
  | .started t due cleanup => some ⟨t, due, cleanup⟩
  | _ => none

end TaskEvent

def executed (events : List TaskEvent) : List Started := events.filterMap TaskEvent.start?

/-- The cleanup of an executed task, if it has one, was called exactly once, and that directly after its
function had returned. -/
def CleanedOnce (events : List TaskEvent) (start : Started) : Prop :=
  match start.cleanup with
  | none => .cleaned start.task ∉ events
  | some c => ∃ earlier later,
      events = earlier ++ [.returned start.task, .cleaned start.task] ++ later ∧
        .started start.task start.due (some c) ∈ earlier ∧ .cleaned start.task ∉ earlier ∧
          .cleaned start.task ∉ later

structure ExecutedInOrder (now : Timespec) (events : List TaskEvent) : Prop where
  order : (executed events).Pairwise fun a b => timespecCmp a.due b.due ≤ 0
  once : ((executed events).map Started.task).Nodup
  due : ∀ start ∈ executed events, timespecCmp start.due now ≤ 0
  notDropped : ∀ t, .dropped t ∈ events → t ∉ (executed events).map Started.task
  cleanup : ∀ start ∈ executed events, CleanedOnce events start

/-! ### One round of the loop -/

/-- The event of another task that was dropped while `t` was executed from the state `s`. -/
def TaskEvent.Aside (s : Scheduler) (t : Nat) (event : TaskEvent) : Prop :=
  ∃ x, (event = .dropped x ∨ event = .cleaned x) ∧ x ≠ t ∧ (x ∈ s.live ∨ s.queue.fresh ≤ x)

structure Round (s : Scheduler) (start : Started) (block : List TaskEvent) : Prop where
  events : ∃ during tail, block =
      .started start.task start.due start.cleanup :: (during ++ .returned start.task :: tail) ∧
    (∀ event ∈ during, event.Aside s start.task) ∧
      ((start.cleanup = none ∧ tail = []) ∨
        ∃ c later, start.cleanup = some c ∧ tail = .cleaned start.task :: later ∧
          ∀ event ∈ later, event.Aside s start.task)

theorem executed_append (events events' : List TaskEvent) :
    executed (events ++ events') = executed events ++ executed events' := List.filterMap_append

theorem executed_aside {s : Scheduler} {t : Nat} {events : List TaskEvent}
    (haside : ∀ event ∈ events, event.Aside s t) : executed events = [] := by
  rw [executed, List.filterMap_eq_nil_iff]
  intro event hevent
  obtain ⟨x, rfl | rfl, -⟩ := haside event hevent <;> rfl

namespace Round

variable {s : Scheduler} {start : Started} {block : List TaskEvent}

theorem executed_eq (hround : Round s start block) : executed block = [start] := by
  obtain ⟨during, tail, rfl, hduring, htail⟩ := hround.events
  have hstart : executed (.started start.task start.due start.cleanup :: (during ++ .returned start.task ::
      tail)) = start :: (executed during ++ executed tail) := by
    change start :: List.filterMap TaskEvent.start? (during ++ .returned start.task :: tail) = _
    rw [List.filterMap_append]
    rfl
  rw [hstart, executed_aside hduring]
  rcases htail with ⟨-, rfl⟩ | ⟨c, later, -, rfl, hlater⟩
  · rfl
  · have : executed (.cleaned start.task :: later) = executed later := rfl
    rw [this, executed_aside hlater]
    rfl

/-- Every event of a round is about a task that was live or not yet posted before it. -/
theorem task_new (hround : Round s start block) (hlive : start.task ∈ s.live) {event : TaskEvent}
    (hevent : event ∈ block) : event.task ∈ s.live ∨ s.queue.fresh ≤ event.task := by
  have haside : ∀ event : TaskEvent, event.Aside s start.task →
      event.task ∈ s.live ∨ s.queue.fresh ≤ event.task := by
    rintro event ⟨x, rfl | rfl, -, hx⟩
    · exact hx
    · exact hx
  obtain ⟨during, tail, rfl, hduring, htail⟩ := hround.events
  simp only [List.mem_cons, List.mem_append] at hevent
  rcases hevent with rfl | hevent | rfl | hevent
  · exact .inl hlive
  · exact haside event (hduring event hevent)
  · exact .inl hlive
  · rcases htail with ⟨-, rfl⟩ | ⟨c, later, -, rfl, hlater⟩
    · cases hevent
    · rcases List.mem_cons.mp hevent with rfl | hevent
      · exact .inl hlive
      · exact haside event (hlater event hevent)

theorem cleaned_notMem_aside {t : Nat} {events : List TaskEvent}
    (haside : ∀ event ∈ events, event.Aside s t) : .cleaned t ∉ events := by
  intro hmem
  obtain ⟨x, hx | hx, hne, -⟩ := haside _ hmem
  · cases hx
  · exact hne (TaskEvent.cleaned.inj hx).symm

theorem dropped_notMem (hround : Round s start block) : .dropped start.task ∉ block := by
  have haside : ∀ events : List TaskEvent, (∀ event ∈ events, event.Aside s start.task) →
      .dropped start.task ∉ events := by
    intro events hevents hmem
    obtain ⟨x, hx | hx, hne, -⟩ := hevents _ hmem
    · exact hne (TaskEvent.dropped.inj hx).symm
    · cases hx
  obtain ⟨during, tail, rfl, hduring, htail⟩ := hround.events
  simp only [List.mem_cons, List.mem_append, reduceCtorEq, false_or, not_or]
  refine ⟨haside during hduring, ?_⟩
  rcases htail with ⟨-, rfl⟩ | ⟨c, later, -, rfl, hlater⟩
  · simp
  · simpa using haside later hlater

/-- The round cleans up its own task, behind what happened before. -/
theorem cleanedOnce (hround : Round s start block) {events : List TaskEvent}
    (hnot : .cleaned start.task ∉ events) : CleanedOnce (events ++ block) start := by
  obtain ⟨during, tail, rfl, hduring, htail⟩ := hround.events
  have hduringNot := cleaned_notMem_aside hduring
  unfold CleanedOnce
  rcases htail with ⟨hcleanup, rfl⟩ | ⟨c, later, hcleanup, rfl, hlater⟩
  · rw [hcleanup]
    simp [hnot, hduringNot]
  · rw [hcleanup]
    refine ⟨events ++ (.started start.task start.due (some c) :: during), later, ?_, ?_, ?_, ?_⟩
    · simp
    · simp
    · simp [hnot, hduringNot]
    · exact cleaned_notMem_aside hlater

end Round

theorem CleanedOnce.append {events block : List TaskEvent} {start : Started}
    (hcleaned : CleanedOnce events start) (hnot : .cleaned start.task ∉ block) :
    CleanedOnce (events ++ block) start := by
  unfold CleanedOnce at *
  cases hcleanup : start.cleanup with
  | none =>
      rw [hcleanup] at hcleaned
      simp [hcleaned, hnot]
  | some c =>
      rw [hcleanup] at hcleaned
      obtain ⟨earlier, later, rfl, hstarted, hearlier, hlater⟩ := hcleaned
      exact ⟨earlier, later ++ block, by simp, hstarted, hearlier, by simp [hlater, hnot]⟩

/-- A further round at a task that is due no earlier than those before, all of which are gone. -/
theorem ExecutedInOrder.append {now : Timespec} {s : Scheduler} {events block : List TaskEvent}
    {start : Started} (hgood : ExecutedInOrder now events) (hround : Round s start block)
    (hlive : start.task ∈ s.live) (hdue : timespecCmp start.due now ≤ 0)
    (hafter : ∀ e ∈ executed events, timespecCmp e.due start.due ≤ 0)
    (hgone : ∀ event ∈ events, event.task ∉ s.live ∧ event.task < s.queue.fresh) :
    ExecutedInOrder now (events ++ block) := by
  have happend : executed (events ++ block) = executed events ++ [start] := by
    rw [executed_append, hround.executed_eq]
  have hstarted : ∀ e ∈ executed events, e.task ∉ s.live ∧ e.task < s.queue.fresh := by
    intro e he
    obtain ⟨event, hevent, hstart⟩ := List.mem_filterMap.mp he
    cases event with
    | started t due cleanup =>
        rw [← Option.some.inj hstart]
        exact hgone _ hevent
    | returned t => cases hstart
    | cleaned t => cases hstart
    | dropped t => cases hstart
  have hnew : ∀ e ∈ executed events, ∀ event ∈ block, event.task ≠ e.task := by
    intro e he event hevent heq
    obtain ⟨hdead, hlt⟩ := hstarted e he
    rcases hround.task_new hlive hevent with hold | hold
    · exact hdead (heq ▸ hold)
    · omega
  refine ⟨?_, ?_, ?_, ?_, ?_⟩
  · rw [happend, List.pairwise_append]
    refine ⟨hgood.order, List.pairwise_singleton _ _, fun e he b hb => ?_⟩
    rw [List.mem_singleton.mp hb]
    exact hafter e he
  · rw [happend, List.map_append, List.nodup_append]
    refine ⟨hgood.once, List.nodup_singleton _, fun a ha b hb hab => ?_⟩
    obtain ⟨e, he, rfl⟩ := List.mem_map.mp ha
    rw [List.map_singleton, List.mem_singleton] at hb
    exact (hstarted e he).1 ((hab.trans hb) ▸ hlive)
  · rw [happend]
    intro e he
    rcases List.mem_append.mp he with he | he
    · exact hgood.due e he
    · rw [List.mem_singleton.mp he]
      exact hdue
  · intro t ht
    rw [happend, List.map_append, List.mem_append, List.map_singleton, List.mem_singleton, not_or]
    rcases List.mem_append.mp ht with ht | ht
    · refine ⟨hgood.notDropped t ht, ?_⟩
      rintro rfl
      exact (hgone _ ht).1 hlive
    · refine ⟨fun hmem => ?_, ?_⟩
      · obtain ⟨e, he, rfl⟩ := List.mem_map.mp hmem
        exact hnew e he _ ht rfl
      · rintro rfl
        exact hround.dropped_notMem ht
  · rw [happend]
    intro e he
    rcases List.mem_append.mp he with he | he
    · exact (hgood.cleanup e he).append fun hmem => hnew e he _ hmem rfl
    · rw [List.mem_singleton.mp he]
      exact hround.cleanedOnce fun hmem => (hgone _ hmem).1 hlive

/-- Discarded tasks are not the one that runs. -/
theorem TaskEvent.Discards.aside {s s₁ s₂ : Scheduler} {t : Nat} {event : TaskEvent}
    (hdiscards : event.Discards s₁ s₂) (hadvance : Advance s s₁) (ht : t < s₁.queue.fresh)
    (hrunning : s₁.queue.running t = true) : event.Aside s t := by
  obtain ⟨x, hkind, -, -, ⟨hlive, hstopped⟩ | hnew⟩ := hdiscards
  · refine ⟨x, hkind, ?_, hadvance.live x hlive⟩
    rintro rfl
    rw [hrunning] at hstopped
    cases hstopped
  · exact ⟨x, hkind, by omega, .inr (hadvance.fresh.trans hnew)⟩

/-- The state between two rounds. -/
structure Between (now : Timespec) (s : Scheduler) (events : List TaskEvent) : Prop where
  sound : Sound s
  stopped : ∀ t ∈ s.live, s.queue.running t = false
  clock : timespecCmp now (clockGettime s.clock) ≤ 0
  good : ExecutedInOrder now events
  after : ∀ e ∈ executed events, ∀ t, s.queue.linked t = true → timespecCmp e.due (s.queue.due t) ≤ 0
  gone : ∀ event ∈ events, event.task ∉ s.live ∧ event.task < s.queue.fresh

/-- The state in which a task was taken out of the queue and marked as running. -/
structure Marked (s : Scheduler) (t : Nat) (s₀ : Scheduler) : Prop where
  sound : Sound s₀
  live : s₀.live = s.live
  fresh : s₀.queue.fresh = s.queue.fresh
  clock : s₀.clock = s.clock
  running : s₀.queue.running t = true
  others : ∀ x, x ≠ t → s₀.queue.running x = s.queue.running x
  cleanup : ∀ x, s₀.queue.cleanup x = s.queue.cleanup x
  linked : ∀ x, s₀.queue.linked x = true →
    x ≠ t ∧ s.queue.linked x = true ∧ s₀.queue.due x = s.queue.due x

theorem mark_spec {s : Scheduler} (hsound : Sound s) (t : Nat) :
    ∃ queue, s.queue.remove t = .ok queue ∧ Taskqueue.SameContent s.queue queue ∧
      ∀ log, Marked s t { s with queue := queue.setRunning t, log := log } := by
  obtain ⟨h, hrep, hheap⟩ := hsound.heap
  obtain ⟨queue, h', hremove, hrep', hmem, hcontent⟩ := Taskqueue.remove_spec hrep t
  have hrep₀ : (queue.setRunning t).Represents h' :=
    hrep'.congr (Taskqueue.get_setRunning queue t) (Taskqueue.pprev_setRunning queue t)
      (fun x _ => Taskqueue.due_setRunning queue t x) le_rfl
  refine ⟨queue, hremove, hcontent, fun log => ?_⟩
  refine ⟨⟨⟨h', hrep₀, fun x hx => ?_⟩, fun x hx => ?_⟩, rfl, hcontent.fresh, rfl, ?_, fun x hx => ?_,
    fun x => ?_, fun x hx => ?_⟩
  · obtain ⟨hne, hx⟩ := (hmem x).mp hx
    obtain ⟨hlive, hstopped⟩ := hheap x hx
    refine ⟨hlive, ?_⟩
    change (queue.setRunning t).running x = false
    rw [Taskqueue.running_setRunning, if_neg hne, hcontent.running x, hstopped]
  · change x < queue.fresh
    rw [hcontent.fresh]
    exact hsound.allocated x hx
  · change (queue.setRunning t).running t = true
    rw [Taskqueue.running_setRunning, if_pos rfl]
  · change (queue.setRunning t).running x = _
    rw [Taskqueue.running_setRunning, if_neg hx, hcontent.running x]
  · change (queue.setRunning t).cleanup x = _
    rw [Taskqueue.cleanup_setRunning, hcontent.cleanup x]
  · obtain ⟨hne, hold⟩ := (hmem x).mp ((hrep₀.linked_iff x).mp hx)
    refine ⟨hne, (hrep.linked_iff x).mpr hold, ?_⟩
    change (queue.setRunning t).due x = _
    rw [Taskqueue.due_setRunning, hcontent.due x]

theorem Scheduler.firstDue_root {s : Scheduler} {now : Timespec} {t : Nat}
    (hdue : s.firstDue now = some t) :
    s.queue.get .queue = some t ∧ timespecCmp (s.queue.due t) now ≤ 0 := by
  unfold firstDue at hdue
  cases hroot : s.queue.queue with
  | none =>
      rw [hroot] at hdue
      cases hdue
  | some r =>
      rw [hroot] at hdue
      dsimp only at hdue
      split_ifs at hdue with hle
      rw [← Option.some.inj hdue]
      exact ⟨hroot, hle⟩

/-- When the cleanup has returned, the task is freed and the next round can begin. -/
theorem Between.finish {now : Timespec} {s s₀ s₂ : Scheduler} {events block : List TaskEvent} {t : Nat}
    (hbetween : Between now s events) (hdue : s.firstDue now = some t) (hmarked : Marked s t s₀)
    (hadvance : Advance s₀ s₂) (hsound : Sound s₂)
    (hround : Round s ⟨t, s.queue.due t, s.queue.cleanup t⟩ block)
    (hblock : ∀ event ∈ block, event.task = t ∨
      event.task ∉ s₂.live ∧ event.task < s₂.queue.fresh) :
    Between now { s₂ with live := s₂.live.erase t } (events ++ block) := by
  obtain ⟨h, hrep, hheap⟩ := hbetween.sound.heap
  obtain ⟨hroot, hdueNow⟩ := Scheduler.firstDue_root hdue
  have ht : t ∈ h.elements := hrep.mem_of_get hroot
  obtain ⟨hlive, hstopped⟩ := hheap t ht
  have hlinked : s.queue.linked t = true := (hrep.linked_iff t).mpr ht
  have hlt : t < s.queue.fresh := hbetween.sound.allocated t hlive
  have hrunning : s₂.queue.running t = true := by
    rw [(hadvance.old t (hmarked.fresh ▸ hlt)).1]
    exact hmarked.running
  have hfresh : s.queue.fresh ≤ s₂.queue.fresh := hmarked.fresh ▸ hadvance.fresh
  have hclock : timespecCmp now (clockGettime s₀.clock) ≤ 0 := hmarked.clock ▸ hbetween.clock
  -- the root is due no later than any queued task
  have hmin : ∀ x, s.queue.linked x = true → timespecCmp (s.queue.due t) (s.queue.due x) ≤ 0 :=
    fun x hx => hrep.root_le hroot ((hrep.linked_iff x).mp hx)
  have hlate : ∀ d, timespecCmp d now ≤ 0 →
      (∀ x, s.queue.linked x = true → timespecCmp d (s.queue.due x) ≤ 0) →
        ∀ x, s₂.queue.linked x = true → timespecCmp d (s₂.queue.due x) ≤ 0 := by
    intro d hd hbefore x hx
    rcases hadvance.due x hx with ⟨hlinked₀, hsame⟩ | hlate
    · obtain ⟨-, hlinkedS, hsame₀⟩ := hmarked.linked x hlinked₀
      rw [hsame, hsame₀]
      exact hbefore x hlinkedS
    · exact timespecCmp_totalPreorder.trans _ _ _ hd
        (timespecCmp_totalPreorder.trans _ _ _ hclock hlate)
  refine ⟨⟨?_, fun x hx => hsound.allocated x (Finset.mem_of_mem_erase hx)⟩, fun x hx => ?_, ?_, ?_,
    fun e he x hx => ?_, fun event hevent => ?_⟩
  · obtain ⟨h₂, hrep₂, hheap₂⟩ := hsound.heap
    refine ⟨h₂, hrep₂, fun x hx => ?_⟩
    obtain ⟨hxlive, hxstopped⟩ := hheap₂ x hx
    refine ⟨Finset.mem_erase.mpr ⟨?_, hxlive⟩, hxstopped⟩
    rintro rfl
    rw [hrunning] at hxstopped
    cases hxstopped
  · obtain ⟨hne, hx₂⟩ := Finset.mem_erase.mp hx
    rcases hadvance.live x hx₂ with hx₀ | hnew
    · have hxs : x ∈ s.live := hmarked.live ▸ hx₀
      refine (hadvance.old x (hmarked.sound.allocated x hx₀)).1.trans ?_
      rw [hmarked.others x hne]
      exact hbetween.stopped x hxs
    · exact hadvance.new x hnew (hsound.allocated x hx₂)
  · exact timespecCmp_totalPreorder.trans _ _ _ hclock (clockGettime_mono hadvance.clock)
  · exact hbetween.good.append hround hlive hdueNow (fun e he => hbetween.after e he t hlinked)
      hbetween.gone
  · rw [executed_append, hround.executed_eq] at he
    rcases List.mem_append.mp he with he | he
    · exact hlate e.due (hbetween.good.due e he) (hbetween.after e he) x hx
    · rw [List.mem_singleton.mp he]
      exact hlate _ hdueNow hmin x hx
  · rcases List.mem_append.mp hevent with hevent | hevent
    · obtain ⟨hdead, hlt⟩ := hbetween.gone event hevent
      obtain ⟨hdead₂, hlt₂⟩ := hadvance.gone (hmarked.live ▸ hdead) (hmarked.fresh ▸ hlt)
      exact ⟨fun hx => hdead₂ (Finset.mem_of_mem_erase hx), hlt₂⟩
    · rcases hblock event hevent with heq | ⟨hdead, hlt⟩
      · rw [heq]
        exact ⟨by simp, hlt.trans_le hfresh⟩
      · exact ⟨fun hx => hdead (Finset.mem_of_mem_erase hx), hlt⟩

/-- The second half of a round: the function has returned, and the cleanup is called if there is one. -/
theorem callCleanup_spec {s₁ s₂ : Scheduler} (hsound : Sound s₁) {t : Nat} {calls : List Call}
    (hcallbacks : Call.callbacks calls = true)
    (hrun : Scheduler.callCleanup { s₁ with log := s₁.log ++ [.returned t] } t
      (Scheduler.performAll calls) = .ok s₂) :
    ∃ tail, s₂.log = s₁.log ++ .returned t :: tail ∧ Sound s₂ ∧ Advance s₁ s₂ ∧
      ((s₁.queue.cleanup t = none ∧ tail = []) ∨
        ∃ c later, s₁.queue.cleanup t = some c ∧ tail = .cleaned t :: later ∧
          ∀ event ∈ later, event.Discards s₁ s₂) := by
  unfold Scheduler.callCleanup at hrun
  dsimp only at hrun
  cases hcase : s₁.queue.cleanup t with
  | none =>
      rw [hcase] at hrun
      rw [← Except.ok.inj hrun]
      exact ⟨[], rfl, ⟨hsound.heap, hsound.allocated⟩, Advance.log s₁ _, .inl ⟨rfl, rfl⟩⟩
  | some c =>
      rw [hcase] at hrun
      have hsound' : Sound { s₁ with log := s₁.log ++ [.returned t] ++ [.cleaned t] } :=
        ⟨hsound.heap, hsound.allocated⟩
      obtain ⟨hsound₂, hprogress⟩ := performAll_progress calls hsound' hcallbacks hrun
      obtain ⟨later, hlog, hlater⟩ := hprogress.log
      refine ⟨.cleaned t :: later, ?_, hsound₂,
        (Advance.log s₁ _).trans hsound hprogress.toAdvance, .inr ⟨c, later, rfl, rfl, hlater⟩⟩
      rw [hlog]
      simp

/-- One round of the loop keeps the invariant. -/
theorem Between.execute {now : Timespec} {s s' : Scheduler} {events : List TaskEvent} {t : Nat}
    {execution : Execution} (hbetween : Between now s events) (hdue : s.firstDue now = some t)
    (hfunction : Call.callbacks execution.function = true)
    (hcleanup : Call.callbacks execution.cleanup = true) (hrun : s.execute t execution = .ok s') :
    ∃ block, s'.log = s.log ++ block ∧ Between now s' (events ++ block) := by
  obtain ⟨queue, hremove, hcontent, hmark⟩ := mark_spec hbetween.sound t
  unfold Scheduler.execute at hrun
  rw [hremove] at hrun
  simp only [Except.bind] at hrun
  rw [hcontent.due t, hcontent.cleanup t] at hrun
  have hmarked := hmark (s.log ++ [.started t (s.queue.due t) (s.queue.cleanup t)])
  generalize hs₀ : ({ s with
    queue := queue.setRunning t
    log := s.log ++ [.started t (s.queue.due t) (s.queue.cleanup t)] } : Scheduler) = s₀ at hrun hmarked
  have hlog₀ : s₀.log = s.log ++ [.started t (s.queue.due t) (s.queue.cleanup t)] := by rw [← hs₀]
  have hlt : t < s₀.queue.fresh := by
    obtain ⟨h, hrep, -⟩ := hbetween.sound.heap
    rw [hmarked.fresh]
    exact hrep.allocated t (hrep.mem_of_get (Scheduler.firstDue_root hdue).1)
  have haside : ∀ {event : TaskEvent}, event.Aside s₀ t → event.Aside s t := by
    rintro event ⟨x, hkind, hne, hx⟩
    rw [hmarked.live, hmarked.fresh] at hx
    exact ⟨x, hkind, hne, hx⟩
  obtain ⟨s₁, hbody, hrun⟩ := except_bind_ok hrun
  obtain ⟨hsound₁, hprogress₁⟩ :=
    performAll_progress execution.function hmarked.sound hfunction hbody
  obtain ⟨during, hlog₁, hduring⟩ := hprogress₁.log
  have hlt₁ : t < s₁.queue.fresh := hlt.trans_le hprogress₁.fresh
  have hrunning₁ : s₁.queue.running t = true := by
    rw [(hprogress₁.old t hlt).1]
    exact hmarked.running
  have hcleanup₁ : s₁.queue.cleanup t = s.queue.cleanup t :=
    (hprogress₁.old t hlt).2.trans (hmarked.cleanup t)
  cases hcase : Scheduler.callCleanup { s₁ with log := s₁.log ++ [.returned t] } t
      (Scheduler.performAll execution.cleanup) with
  | error fault =>
      rw [hcase] at hrun
      cases hrun
  | ok s₂ =>
      rw [hcase] at hrun
      rw [← Except.ok.inj hrun]
      obtain ⟨tail, hlog₂, hsound₂, hadvance₂, htail⟩ := callCleanup_spec hsound₁ hcleanup hcase
      rw [hcleanup₁] at htail
      have hadvance := hprogress₁.toAdvance.trans hmarked.sound hadvance₂
      have hround : Round s ⟨t, s.queue.due t, s.queue.cleanup t⟩
          (.started t (s.queue.due t) (s.queue.cleanup t) :: (during ++ .returned t :: tail)) := by
        refine ⟨during, tail, rfl, fun event hevent => ?_, htail.imp id ?_⟩
        · exact haside ((hduring event hevent).aside (Advance.log s₀ s₀.log) hlt hmarked.running)
        · rintro ⟨c, later, hc, htail, hlater⟩
          refine ⟨c, later, hc, htail, fun event hevent => ?_⟩
          exact haside ((hlater event hevent).aside hprogress₁.toAdvance hlt₁ hrunning₁)
      -- whatever was thrown away during the round is gone at its end
      have hgone : ∀ event ∈ during, event.task ∉ s₂.live ∧ event.task < s₂.queue.fresh := by
        intro event hevent
        obtain ⟨x, rfl | rfl, hdead, hfresh, -⟩ := hduring event hevent
        · exact hadvance₂.gone hdead hfresh
        · exact hadvance₂.gone hdead hfresh
      refine ⟨_, ?_, hbetween.finish hdue hmarked hadvance hsound₂ hround fun event hevent => ?_⟩
      · change s₂.log = _
        rw [hlog₂, hlog₁, hlog₀]
        simp
      · simp only [List.mem_cons, List.mem_append] at hevent
        rcases hevent with rfl | hevent | rfl | hevent
        · exact .inl rfl
        · exact .inr (hgone event hevent)
        · exact .inl rfl
        · rcases htail with ⟨-, rfl⟩ | ⟨c, later, -, rfl, hlater⟩
          · cases hevent
          · rcases List.mem_cons.mp hevent with rfl | hevent
            · exact .inl rfl
            · obtain ⟨x, rfl | rfl, hdead, hfresh, -⟩ := hlater event hevent
              · exact .inr ⟨hdead, hfresh⟩
              · exact .inr ⟨hdead, hfresh⟩

/-! ### The whole run -/

/-- The loop of `taskqueue_run` keeps the invariant and stops when nothing is due. The induction is on the
rounds. -/
theorem runLoop_between {now : Timespec} (executions : List Execution) {s s' : Scheduler}
    {events : List TaskEvent} (hbetween : Between now s events)
    (hcallbacks : ∀ e ∈ executions, Call.callbacks e.function = true ∧ Call.callbacks e.cleanup = true)
    (hrun : Scheduler.runLoop now executions s = .ok s') :
    ∃ more, s'.log = s.log ++ more ∧ Between now s' (events ++ more) ∧ s'.firstDue now = none := by
  induction executions generalizing s events with
  | nil =>
      unfold Scheduler.runLoop at hrun
      cases hdue : s.firstDue now with
      | some t =>
          rw [hdue] at hrun
          cases hrun
      | none =>
          rw [hdue] at hrun
          rw [← Except.ok.inj hrun]
          exact ⟨[], by simp, by simpa using hbetween, hdue⟩
  | cons execution executions ih =>
      unfold Scheduler.runLoop at hrun
      cases hdue : s.firstDue now with
      | none =>
          rw [hdue] at hrun
          rw [← Except.ok.inj hrun]
          exact ⟨[], by simp, by simpa using hbetween, hdue⟩
      | some t =>
          rw [hdue] at hrun
          obtain ⟨s₁, hround, hrest⟩ := except_bind_ok hrun
          obtain ⟨hfunction, hcleanup⟩ := hcallbacks execution (by simp)
          obtain ⟨block, hlog, hbetween₁⟩ := hbetween.execute hdue hfunction hcleanup hround
          obtain ⟨more, hlog', hbetween', hnone⟩ :=
            ih hbetween₁ (fun e he => hcallbacks e (by simp [he])) hrest
          refine ⟨block ++ more, ?_, ?_, hnone⟩
          · rw [hlog', hlog, List.append_assoc]
          · rw [← List.append_assoc]
            exact hbetween'

/-- The queue is a heap of live tasks, and no task is running. -/
structure Scheduler.Idle (s : Scheduler) : Prop where
  sound : Sound s
  stopped : ∀ t ∈ s.live, s.queue.running t = false

theorem executedInOrder_nil (now : Timespec) : ExecutedInOrder now [] where
  order := List.Pairwise.nil
  once := List.nodup_nil
  due := by simp [executed]
  notDropped := by simp
  cleanup := by simp [executed]

/-- When nothing at the root is due, nothing in the queue is. -/
theorem Sound.notDue {s : Scheduler} (hsound : Sound s) {now : Timespec} (hnone : s.firstDue now = none)
    (t : Nat) (hlinked : s.queue.linked t = true) : 0 < timespecCmp (s.queue.due t) now := by
  obtain ⟨h, hrep, -⟩ := hsound.heap
  have ht : t ∈ h.elements := (hrep.linked_iff t).mp hlinked
  obtain ⟨root, hroot⟩ : ∃ root, s.queue.get .queue = some root := by
    have hshape := hrep.shape
    cases hrep.single with
    | nil => cases ht
    | node a c => exact ⟨a, hshape.1⟩
  have hqueue : s.queue.queue = some root := hroot
  unfold Scheduler.firstDue at hnone
  rw [hqueue] at hnone
  dsimp only at hnone
  split_ifs at hnone with hlate
  by_contra hdue
  exact hlate (timespecCmp_totalPreorder.trans _ _ _ (hrep.root_le hroot ht) (not_lt.mp hdue))

/-- Whenever `taskqueue_run` returns, it has executed the tasks that were due in the order of their due
times, and it leaves no due task behind. -/
theorem taskqueueRun_executes {s s' : Scheduler} (hidle : s.Idle) {executions : List Execution}
    (hcallbacks : ∀ e ∈ executions, Call.callbacks e.function = true ∧ Call.callbacks e.cleanup = true)
    (hrun : s.taskqueueRun executions = .ok s') :
    ∃ events, s'.log = s.log ++ events ∧ ExecutedInOrder (clockGettime s.clock) events ∧
      ∀ t, s'.queue.linked t = true →
        0 < timespecCmp (s'.queue.due t) (clockGettime s.clock) := by
  have hstart : Between (clockGettime s.clock) s [] :=
    ⟨hidle.sound, hidle.stopped, timespecCmp_totalPreorder.refl _, executedInOrder_nil _,
      by simp [executed], by simp⟩
  unfold Scheduler.taskqueueRun at hrun
  cases hqueue : s.queue.queue with
  | none =>
      rw [hqueue] at hrun
      rw [← Except.ok.inj hrun]
      refine ⟨[], by simp, executedInOrder_nil _, hidle.sound.notDue ?_⟩
      rw [Scheduler.firstDue, hqueue]
  | some root =>
      rw [hqueue] at hrun
      dsimp only at hrun
      cases hloop : Scheduler.runLoop (clockGettime s.clock) executions s with
      | error fault =>
          rw [hloop] at hrun
          cases hrun
      | ok s₁ =>
          rw [hloop] at hrun
          obtain ⟨events, hlog, hbetween, hnone⟩ :=
            runLoop_between executions hstart hcallbacks hloop
          obtain ⟨htask, -, -⟩ := s₁.queue.schedule_task
          rw [← Except.ok.inj hrun]
          refine ⟨events, hlog, hbetween.good, fun t ht => ?_⟩
          change 0 < timespecCmp (s₁.queue.schedule.due t) _
          rw [Taskqueue.due, htask]
          refine hbetween.sound.notDue hnone t ?_
          change s₁.queue.schedule.linked t = true at ht
          rwa [Taskqueue.linked, Taskqueue.pprev, htask] at ht

/-- What the calls of a program leave behind is such a state. -/
theorem Tracks.idle {s : Scheduler} {l : Ledger} (htracks : Tracks s l) : s.Idle := by
  obtain ⟨h, hrep, hmem⟩ := htracks.heap
  refine ⟨⟨⟨h, hrep, fun t ht => ⟨?_, htracks.stopped t⟩⟩, fun t ht => ?_⟩, fun t _ => htracks.stopped t⟩
  · rw [htracks.live]
    exact htracks.sub ((hmem t).mp ht)
  · rw [htracks.fresh]
    rw [htracks.live] at ht
    exact htracks.allocated t (Finset.mem_union_left _ ht)

/-- Three tasks are posted. The first one that runs drops itself and another one and posts a task that is
due at once; the last one is not due. -/
theorem taskqueueRun_executes_dropping :
    ∃ s s', Scheduler.init.performAll [.post 0 0 0 (some 0) 0, .post 0 1 0 (some 0) 0,
        .post 9 0 0 none 0, .tick 2000000] = .ok s ∧
      s.taskqueueRun [⟨[.drop 0 [], .drop 1 [.tick 5], .post 0 0 0 none 0], [.reschedule (some 2) 1 0]⟩]
        = .ok s' ∧
      ∃ events, s'.log = s.log ++ events ∧ ExecutedInOrder (clockGettime s.clock) events ∧
        ∀ t, s'.queue.linked t = true →
          0 < timespecCmp (s'.queue.due t) (clockGettime s.clock) := by
  have hok : (Except.bind (Scheduler.init.performAll [.post 0 0 0 (some 0) 0, .post 0 1 0 (some 0) 0,
      .post 9 0 0 none 0, .tick 2000000]) fun s => s.taskqueueRun
        [⟨[.drop 0 [], .drop 1 [.tick 5], .post 0 0 0 none 0], [.reschedule (some 2) 1 0]⟩]).isOk =
          true := by
    decide +kernel
  have hlegal : Ledger.empty.steps [.post 0 0 0 (some 0) 0, .post 0 1 0 (some 0) 0,
      .post 9 0 0 none 0, .tick 2000000] = some ⟨{2, 1, 0}, {2, 1, 0}, {1, 0}, 3⟩ := rfl
  have htracks := performAll_tracks _ tracks_init hlegal
  cases hcalls : Scheduler.init.performAll [.post 0 0 0 (some 0) 0, .post 0 1 0 (some 0) 0,
      .post 9 0 0 none 0, .tick 2000000] with
  | error fault =>
      rw [hcalls] at hok
      cases hok
  | ok s =>
      rw [hcalls] at hok htracks
      simp only [Except.bind] at hok
      cases hrun : s.taskqueueRun
          [⟨[.drop 0 [], .drop 1 [.tick 5], .post 0 0 0 none 0], [.reschedule (some 2) 1 0]⟩] with
      | error fault =>
          rw [hrun] at hok
          cases hok
      | ok s' => exact ⟨s, s', rfl, hrun, taskqueueRun_executes htracks.idle (by decide) hrun⟩

end Snapcastc
