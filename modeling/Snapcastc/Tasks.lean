import Snapcastc.Timespec
import Snapcastc.Process

/-! The tasks of the process as its components see them: which are queued and when they are due, which
one is running, and which handles are still valid. The pairing heap behind this view is modelled in
the `Taskqueue` modules. -/

namespace Snapcastc

/-- A queued task: its handle, its due time and what it will do. -/
structure Posted (κ : Type) where
  id : Nat
  due : Timespec
  code : κ
  deriving DecidableEq, Repr

/-- The tasks of a process. `history` is what was posted so far, which the program does not keep. -/
structure TaskPool (κ : Type) where
  queued : List (Posted κ)
  running : Option Nat
  fresh : Nat
  history : List κ

namespace TaskPool

variable {κ : Type}

/-- The tasks of a process that has posted none. -/
def empty : TaskPool κ := ⟨[], none, 0, []⟩

/-- `post_task` at the monotonic time `now`: the handle and the tasks afterwards. -/
def postTask (pool : TaskPool κ) (now : Timespec) (timeout millisecs : Int) (code : κ) :
    Nat × TaskPool κ :=
  (pool.fresh,
    { pool with
      queued := pool.queued ++ [⟨pool.fresh, settime now timeout millisecs, code⟩]
      fresh := pool.fresh + 1
      history := pool.history ++ [code] })

def isQueued (pool : TaskPool κ) (id : Nat) : Bool := pool.queued.any (·.id == id)

/-- `drop_task`. A running task is left alone; it is freed when it has finished. -/
def dropTask (pool : TaskPool κ) (id : Nat) : Except Fault (TaskPool κ) :=
  if pool.running = some id then .ok pool
  else if pool.isQueued id then .ok { pool with queued := pool.queued.filter (·.id != id) }
  else .error .useAfterFree

/-- The guarded call `if (handle) drop_task(handle)`. -/
def dropHandle (pool : TaskPool κ) : Option Nat → Except Fault (TaskPool κ)
  | some id => pool.dropTask id
  | none => .ok pool

/-- `reschedule_task`, at a handle or at `NULL`. A running task is not linked. -/
def rescheduleTask (pool : TaskPool κ) (now : Timespec) (timeout millisecs : Int) :
    Option Nat → Except Fault (TaskPool κ)
  | none => .ok pool
  | some id =>
      if pool.running = some id then .ok pool
      else if pool.isQueued id then
        .ok { pool with
          queued := pool.queued.map fun task =>
            if task.id = id then { task with due := settime now timeout millisecs } else task }
      else .error .useAfterFree

/-- The tasks while the one with the handle is executed. -/
def start (pool : TaskPool κ) (id : Nat) : TaskPool κ :=
  { pool with queued := pool.queued.filter (·.id != id), running := some id }

/-- The tasks after the execution of one. -/
def finish (pool : TaskPool κ) : TaskPool κ := { pool with running := none }

@[simp] theorem postTask_history (pool : TaskPool κ) (now : Timespec) (timeout millisecs : Int)
    (code : κ) :
    (pool.postTask now timeout millisecs code).2.history = pool.history ++ [code] := rfl

theorem dropTask_history {pool pool' : TaskPool κ} {id : Nat} (hdrop : pool.dropTask id = .ok pool') :
    pool'.history = pool.history := by
  unfold dropTask at hdrop
  split_ifs at hdrop
  · rw [← Except.ok.inj hdrop]
  · rw [← Except.ok.inj hdrop]

theorem dropHandle_history {pool pool' : TaskPool κ} {handle : Option Nat}
    (hdrop : pool.dropHandle handle = .ok pool') : pool'.history = pool.history := by
  cases handle with
  | some id => exact dropTask_history hdrop
  | none => rw [← Except.ok.inj hdrop]

/-! ### Handles -/

/-- The handle was given out for a task that does this. -/
def Made (pool : TaskPool κ) (id : Nat) (code : κ) : Prop := pool.history[id]? = some code

/-- The tasks of a process that has only used handles it was given: they are numbered in the order they
were posted, and the running task is not queued. -/
structure Sound (pool : TaskPool κ) : Prop where
  nodup : (pool.queued.map Posted.id).Nodup
  made : ∀ task ∈ pool.queued, pool.Made task.id task.code
  fresh : pool.fresh = pool.history.length
  running : ∀ id, pool.running = some id → id < pool.fresh ∧ ∀ task ∈ pool.queued, task.id ≠ id

theorem Made.lt {pool : TaskPool κ} {id : Nat} {code : κ} (hmade : pool.Made id code) :
    id < pool.history.length :=
  (List.getElem?_eq_some_iff.mp hmade).1

theorem Made.mono {pool pool' : TaskPool κ} {id : Nat} {code : κ} (hmade : pool.Made id code)
    (hhistory : pool.history <+: pool'.history) : pool'.Made id code := by
  obtain ⟨more, hmore⟩ := hhistory
  rw [Made, ← hmore, List.getElem?_append_left hmade.lt]
  exact hmade

theorem Made.inj {pool : TaskPool κ} {id : Nat} {code code' : κ} (hmade : pool.Made id code)
    (hmade' : pool.Made id code') : code = code' :=
  Option.some.inj (hmade.symm.trans hmade')

theorem Sound.empty : (empty : TaskPool κ).Sound where
  nodup := List.nodup_nil
  made := fun _ htask => absurd htask List.not_mem_nil
  fresh := rfl
  running := fun _ hrunning => absurd hrunning (Option.some_ne_none _).symm

theorem postTask_made {pool : TaskPool κ} (hsound : pool.Sound) (now : Timespec)
    (timeout millisecs : Int) (code : κ) :
    (pool.postTask now timeout millisecs code).2.Made
      (pool.postTask now timeout millisecs code).1 code := by
  rw [Made, postTask_history]
  change (pool.history ++ [code])[pool.fresh]? = some code
  rw [hsound.fresh, List.getElem?_concat_length]

theorem Sound.postTask {pool : TaskPool κ} (hsound : pool.Sound) (now : Timespec)
    (timeout millisecs : Int) (code : κ) :
    (pool.postTask now timeout millisecs code).2.Sound := by
  have hmade := postTask_made hsound now timeout millisecs code
  have hold : ∀ task ∈ pool.queued, task.id < pool.fresh := by
    intro task htask
    rw [hsound.fresh]
    exact (hsound.made task htask).lt
  refine ⟨?_, fun task htask => ?_, ?_, fun id hrunning => ?_⟩
  · change ((pool.queued ++ [_]).map Posted.id).Nodup
    rw [List.map_append, List.map_singleton]
    refine List.Nodup.append hsound.nodup (List.nodup_singleton _) (List.disjoint_singleton.mpr ?_)
    intro hmem
    obtain ⟨task, htask, hid⟩ := List.mem_map.mp hmem
    have := hold task htask
    dsimp only at hid
    omega
  · rcases List.mem_append.mp htask with htask | htask
    · exact (hsound.made task htask).mono (List.prefix_append _ _)
    · rw [List.mem_singleton.mp htask]
      exact hmade
  · rw [postTask_history, List.length_append, ← hsound.fresh]
    rfl
  · obtain ⟨hlt, hnot⟩ := hsound.running id hrunning
    refine ⟨Nat.lt_succ_of_lt hlt, fun task htask => ?_⟩
    rcases List.mem_append.mp htask with htask | htask
    · exact hnot task htask
    · rw [List.mem_singleton.mp htask]
      exact hlt.ne'

/-- The tasks with fewer of them queued. -/
theorem Sound.sublist {pool pool' : TaskPool κ} (hsound : pool.Sound)
    (hqueued : pool'.queued.Sublist pool.queued) (hrunning : pool'.running = pool.running)
    (hfresh : pool'.fresh = pool.fresh) (hhistory : pool'.history = pool.history) : pool'.Sound where
  nodup := hsound.nodup.sublist (hqueued.map _)
  made := fun task htask => by
    rw [Made, hhistory]
    exact hsound.made task (hqueued.subset htask)
  fresh := by rw [hfresh, hhistory, hsound.fresh]
  running := fun id hid => by
    rw [hrunning] at hid
    rw [hfresh]
    exact ⟨(hsound.running id hid).1, fun task htask =>
      (hsound.running id hid).2 task (hqueued.subset htask)⟩

/-- What `drop_task` does: afterwards the task is not queued. -/
theorem dropTask_eq {pool pool' : TaskPool κ} (hsound : pool.Sound) {id : Nat}
    (hdrop : pool.dropTask id = .ok pool') :
    pool' = { pool with queued := pool.queued.filter (·.id != id) } := by
  unfold dropTask at hdrop
  split_ifs at hdrop with hrunning hqueued
  · have hnot := (hsound.running id hrunning).2
    have hsame : pool.queued.filter (·.id != id) = pool.queued :=
      List.filter_eq_self.mpr fun task htask => bne_iff_ne.mpr (hnot task htask)
    rw [hsame]
    exact (Except.ok.inj hdrop).symm
  · exact (Except.ok.inj hdrop).symm

theorem Sound.dropTask {pool pool' : TaskPool κ} (hsound : pool.Sound) {id : Nat}
    (hdrop : pool.dropTask id = .ok pool') : pool'.Sound := by
  rw [dropTask_eq hsound hdrop]
  exact hsound.sublist List.filter_sublist rfl rfl rfl

theorem Sound.start {pool : TaskPool κ} (hsound : pool.Sound) {task : Posted κ}
    (htask : task ∈ pool.queued) : (pool.start task.id).Sound where
  nodup := hsound.nodup.sublist (List.filter_sublist.map _)
  made := fun other hother => hsound.made other (List.mem_of_mem_filter hother)
  fresh := hsound.fresh
  running := fun id hid => by
    rw [← Option.some.inj hid]
    refine ⟨?_, fun other hother => bne_iff_ne.mp (List.mem_filter.mp hother).2⟩
    change task.id < pool.fresh
    rw [hsound.fresh]
    exact (hsound.made task htask).lt

theorem Sound.finish {pool : TaskPool κ} (hsound : pool.Sound) : pool.finish.Sound where
  nodup := hsound.nodup
  made := hsound.made
  fresh := hsound.fresh
  running := fun _ hid => by cases hid

/-! ### What a call leaves alone -/

def ofKind (pool : TaskPool κ) (kind : κ → Bool) : List (Posted κ) :=
  pool.queued.filter fun task => kind task.code

theorem mem_ofKind {pool : TaskPool κ} {kind : κ → Bool} {task : Posted κ} :
    task ∈ pool.ofKind kind ↔ task ∈ pool.queued ∧ kind task.code = true := by
  rw [ofKind, List.mem_filter]

/-- The tasks of some kind are left alone, and no handle loses its meaning. -/
structure Frame (kind : κ → Bool) (pool pool' : TaskPool κ) : Prop where
  sound : pool'.Sound
  history : pool.history <+: pool'.history
  running : pool'.running = pool.running
  kept : pool'.ofKind kind = pool.ofKind kind

namespace Frame

variable {kind : κ → Bool} {pool pool' pool'' : TaskPool κ}

theorem refl (hsound : pool.Sound) : Frame kind pool pool := ⟨hsound, List.prefix_refl _, rfl, rfl⟩

theorem trans (hfirst : Frame kind pool pool') (hsecond : Frame kind pool' pool'') :
    Frame kind pool pool'' where
  sound := hsecond.sound
  history := hfirst.history.trans hsecond.history
  running := hsecond.running.trans hfirst.running
  kept := hsecond.kept.trans hfirst.kept

/-- Of fewer tasks. -/
theorem weaken {kind' : κ → Bool} (hframe : Frame kind pool pool')
    (hle : ∀ code, kind' code = true → kind code = true) : Frame kind' pool pool' where
  sound := hframe.sound
  history := hframe.history
  running := hframe.running
  kept := by
    have hfilter : ∀ pool : TaskPool κ, pool.ofKind kind' = (pool.ofKind kind).filter fun task =>
        kind' task.code := by
      intro pool
      rw [ofKind, ofKind, List.filter_filter]
      refine List.filter_congr fun task _ => ?_
      cases hkind : kind' task.code with
      | false => rfl
      | true => rw [hle task.code hkind, Bool.and_self]
    rw [hfilter, hfilter, hframe.kept]

/-- A task of another kind is posted. -/
theorem postTask (hsound : pool.Sound) (now : Timespec) (timeout millisecs : Int) {code : κ}
    (hcode : kind code = false) :
    Frame kind pool (pool.postTask now timeout millisecs code).2 where
  sound := hsound.postTask now timeout millisecs code
  history := List.prefix_append _ _
  running := rfl
  kept := by
    change (pool.queued ++ [_]).filter _ = pool.queued.filter _
    rw [List.filter_append, List.filter_singleton, hcode]
    exact List.append_nil _

/-- A task of another kind is dropped. -/
theorem dropTask (hsound : pool.Sound) {id : Nat} {code : κ} (hmade : pool.Made id code)
    (hcode : kind code = false) (hdrop : pool.dropTask id = .ok pool') : Frame kind pool pool' := by
  rw [dropTask_eq hsound hdrop]
  refine ⟨hsound.sublist List.filter_sublist rfl rfl rfl, List.prefix_refl _, rfl, ?_⟩
  change (pool.queued.filter _).filter _ = pool.queued.filter _
  rw [List.filter_filter]
  refine List.filter_congr fun task htask => ?_
  cases hkind : kind task.code with
  | false => rfl
  | true =>
      rw [Bool.true_and, bne_iff_ne]
      rintro rfl
      rw [(hsound.made task htask).inj hmade, hcode] at hkind
      cases hkind

theorem dropHandle (hsound : pool.Sound) {handle : Option Nat} {code : κ}
    (hmade : ∀ id, handle = some id → pool.Made id code) (hcode : kind code = false)
    (hdrop : pool.dropHandle handle = .ok pool') : Frame kind pool pool' := by
  cases handle with
  | none =>
      rw [← Except.ok.inj hdrop]
      exact refl hsound
  | some id => exact dropTask hsound (hmade id rfl) hcode hdrop

end Frame

/-- `reschedule_task` changes nothing but a due time. -/
theorem rescheduleTask_eq {pool pool' : TaskPool κ} {now : Timespec} {timeout millisecs : Int}
    {handle : Option Nat} (hrun : pool.rescheduleTask now timeout millisecs handle = .ok pool') :
    pool' = pool ∨ ∃ id, handle = some id ∧ pool' = { pool with
      queued := pool.queued.map fun task =>
        if task.id = id then { task with due := settime now timeout millisecs } else task } := by
  cases handle with
  | none => exact .inl (Except.ok.inj hrun).symm
  | some id =>
      unfold rescheduleTask at hrun
      dsimp only at hrun
      split_ifs at hrun
      · exact .inl (Except.ok.inj hrun).symm
      · exact .inr ⟨id, rfl, (Except.ok.inj hrun).symm⟩

theorem Sound.rescheduleTask {pool pool' : TaskPool κ} (hsound : pool.Sound) {now : Timespec}
    {timeout millisecs : Int} {handle : Option Nat}
    (hrun : pool.rescheduleTask now timeout millisecs handle = .ok pool') : pool'.Sound := by
  rcases rescheduleTask_eq hrun with rfl | ⟨id, -, rfl⟩
  · exact hsound
  · have hsame : ∀ task : Posted κ, (if task.id = id then
        { task with due := settime now timeout millisecs } else task).id = task.id ∧
        (if task.id = id then { task with due := settime now timeout millisecs } else task).code =
          task.code := by
      intro task
      split_ifs
      · exact ⟨rfl, rfl⟩
      · exact ⟨rfl, rfl⟩
    refine ⟨?_, fun task htask => ?_, hsound.fresh, fun other hother => ?_⟩
    · rw [List.map_map]
      have hids : (Posted.id ∘ fun task : Posted κ => if task.id = id then
          { task with due := settime now timeout millisecs } else task) = Posted.id :=
        funext fun task => (hsame task).1
      rw [hids]
      exact hsound.nodup
    · obtain ⟨old, hold, rfl⟩ := List.mem_map.mp htask
      rw [(hsame old).1, (hsame old).2]
      exact hsound.made old hold
    · refine ⟨(hsound.running other hother).1, fun task htask => ?_⟩
      obtain ⟨old, hold, rfl⟩ := List.mem_map.mp htask
      rw [(hsame old).1]
      exact (hsound.running other hother).2 old hold

/-- A task of another kind is rescheduled. -/
theorem Frame.rescheduleTask {kind : κ → Bool} {pool pool' : TaskPool κ} (hsound : pool.Sound)
    {now : Timespec} {timeout millisecs : Int} {handle : Option Nat} {code : κ}
    (hmade : ∀ id, handle = some id → pool.Made id code) (hcode : kind code = false)
    (hrun : pool.rescheduleTask now timeout millisecs handle = .ok pool') : Frame kind pool pool' := by
  have hsound' := hsound.rescheduleTask hrun
  rcases rescheduleTask_eq hrun with rfl | ⟨id, hid, rfl⟩
  · exact refl hsound
  · refine ⟨hsound', List.prefix_refl _, rfl, ?_⟩
    change (pool.queued.map _).filter _ = pool.queued.filter _
    have hother : ∀ task ∈ pool.queued, kind task.code = true → task.id ≠ id := by
      rintro task htask hkind rfl
      rw [(hsound.made task htask).inj (hmade _ hid), hcode] at hkind
      cases hkind
    generalize pool.queued = queued at hother
    induction queued with
    | nil => rfl
    | cons task queued ih =>
        rw [List.forall_mem_cons] at hother
        rw [List.map_cons, List.filter_cons, List.filter_cons, ih hother.2]
        by_cases htask : task.id = id
        · have hkind : kind task.code = false := by
            cases hkind : kind task.code with
            | false => rfl
            | true => exact absurd htask (hother.1 hkind)
          rw [if_pos htask]
          simp [hkind]
        · rw [if_neg htask]

theorem ofKind_start (pool : TaskPool κ) (kind : κ → Bool) (id : Nat) :
    (pool.start id).ofKind kind = (pool.ofKind kind).filter (·.id != id) :=
  List.filter_comm _ _ _

/-- The tasks of other kinds stay while one is executed. -/
theorem ofKind_start_other {pool : TaskPool κ} (hsound : pool.Sound) {kind : κ → Bool} {task : Posted κ}
    (htask : task ∈ pool.queued) (hcode : kind task.code = false) :
    (pool.start task.id).ofKind kind = pool.ofKind kind := by
  rw [ofKind_start, List.filter_eq_self]
  intro other hother
  obtain ⟨hqueued, hkind⟩ := mem_ofKind.mp hother
  rw [bne_iff_ne]
  intro hid
  have hmade := hsound.made other hqueued
  rw [hid] at hmade
  rw [hmade.inj (hsound.made task htask), hcode] at hkind
  cases hkind

/-! ### Waiting tasks -/

/-- A task that does this is queued under the handle. -/
def Waiting (pool : TaskPool κ) (code : κ) (id : Nat) : Prop :=
  ∃ task ∈ pool.queued, task.id = id ∧ task.code = code

theorem Waiting.made {pool : TaskPool κ} (hsound : pool.Sound) {code : κ} {id : Nat}
    (hwaiting : pool.Waiting code id) : pool.Made id code := by
  obtain ⟨task, htask, rfl, rfl⟩ := hwaiting
  exact hsound.made task htask

/-- Of the tasks in the queue, the handles tell what they do. -/
theorem isQueued_iff_waiting {pool : TaskPool κ} (hsound : pool.Sound) {code : κ} {id : Nat}
    (hmade : pool.Made id code) : pool.isQueued id = true ↔ pool.Waiting code id := by
  rw [isQueued, List.any_eq_true]
  constructor
  · rintro ⟨task, htask, hid⟩
    have hid : task.id = id := beq_iff_eq.mp hid
    subst hid
    exact ⟨task, htask, rfl, (hsound.made task htask).inj hmade⟩
  · rintro ⟨task, htask, hid, -⟩
    exact ⟨task, htask, beq_iff_eq.mpr hid⟩

theorem waiting_postTask (pool : TaskPool κ) (now : Timespec) (timeout millisecs : Int) (code code' : κ)
    (id : Nat) :
    (pool.postTask now timeout millisecs code).2.Waiting code' id ↔
      pool.Waiting code' id ∨ id = pool.fresh ∧ code' = code := by
  change (∃ task ∈ pool.queued ++ [_], _) ↔ _
  constructor
  · rintro ⟨task, htask, hid, hcode⟩
    rcases List.mem_append.mp htask with htask | htask
    · exact .inl ⟨task, htask, hid, hcode⟩
    · rw [List.mem_singleton.mp htask] at hid hcode
      exact .inr ⟨hid.symm, hcode.symm⟩
  · rintro (⟨task, htask, hid, hcode⟩ | ⟨rfl, rfl⟩)
    · exact ⟨task, List.mem_append_left _ htask, hid, hcode⟩
    · exact ⟨_, List.mem_append_right _ (List.mem_singleton_self _), rfl, rfl⟩

/-- One task leaves the queue. -/
theorem waiting_filter {pool pool' : TaskPool κ} {gone : Nat}
    (hqueued : pool'.queued = pool.queued.filter (·.id != gone)) (code : κ) (id : Nat) :
    pool'.Waiting code id ↔ pool.Waiting code id ∧ id ≠ gone := by
  constructor
  · rintro ⟨task, htask, rfl, hcode⟩
    rw [hqueued, List.mem_filter] at htask
    exact ⟨⟨task, htask.1, rfl, hcode⟩, bne_iff_ne.mp htask.2⟩
  · rintro ⟨⟨task, htask, rfl, hcode⟩, hne⟩
    refine ⟨task, ?_, rfl, hcode⟩
    rw [hqueued, List.mem_filter]
    exact ⟨htask, bne_iff_ne.mpr hne⟩

theorem Frame.waiting {kind : κ → Bool} {pool pool' : TaskPool κ} (hframe : Frame kind pool pool')
    {code : κ} (hcode : kind code = true) (id : Nat) :
    pool'.Waiting code id ↔ pool.Waiting code id := by
  have hmem : ∀ task : Posted κ, task.code = code →
      (task ∈ pool'.queued ↔ task ∈ pool.queued) := by
    intro task htask
    have hkind : kind task.code = true := htask ▸ hcode
    have hsame : task ∈ pool'.ofKind kind ↔ task ∈ pool.ofKind kind := by rw [hframe.kept]
    rwa [mem_ofKind, mem_ofKind, and_iff_left hkind, and_iff_left hkind] at hsame
  exact exists_congr fun task => and_congr_left fun htask => hmem task htask.2

/-- `drop_task` at a task that is running or queued. -/
theorem dropTask_ok {pool : TaskPool κ} {id : Nat} {code : κ}
    (hlive : pool.running = some id ∨ pool.Waiting code id) : ∃ pool', pool.dropTask id = .ok pool' := by
  unfold dropTask
  split_ifs with hrunning hqueued
  · exact ⟨_, rfl⟩
  · exact ⟨_, rfl⟩
  · obtain ⟨task, htask, hid, -⟩ := hlive.resolve_left hrunning
    have hthere : pool.isQueued id = true := by
      rw [isQueued, List.any_eq_true]
      exact ⟨task, htask, beq_iff_eq.mpr hid⟩
    exact absurd hthere hqueued

/-- `drop_task` at a task that was freed. -/
theorem dropTask_freed {pool : TaskPool κ} (hsound : pool.Sound) {id : Nat} {code : κ}
    (hmade : pool.Made id code) (hrunning : pool.running = none) (hnot : ¬pool.Waiting code id) :
    pool.dropTask id = .error .useAfterFree := by
  unfold dropTask
  rw [hrunning, if_neg (Option.some_ne_none id).symm, if_neg]
  exact mt (isQueued_iff_waiting hsound hmade).mp hnot

/-- `reschedule_task` at a task that is running or queued. -/
theorem rescheduleTask_ok {pool : TaskPool κ} (now : Timespec) (timeout millisecs : Int) {id : Nat}
    {code : κ} (hlive : pool.running = some id ∨ pool.Waiting code id) :
    ∃ pool', pool.rescheduleTask now timeout millisecs (some id) = .ok pool' ∧
      pool'.history = pool.history ∧ pool'.running = pool.running := by
  obtain ⟨dropped, hdrop⟩ := dropTask_ok hlive
  unfold dropTask at hdrop
  unfold rescheduleTask
  dsimp only
  split_ifs at hdrop ⊢
  · exact ⟨_, rfl, rfl, rfl⟩
  · exact ⟨_, rfl, rfl, rfl⟩

/-- `reschedule_task` leaves the tasks where they are. -/
theorem waiting_rescheduleTask {pool pool' : TaskPool κ} {now : Timespec} {timeout millisecs : Int}
    {handle : Option Nat} (hrun : pool.rescheduleTask now timeout millisecs handle = .ok pool') (code : κ)
    (id : Nat) : pool'.Waiting code id ↔ pool.Waiting code id := by
  rcases rescheduleTask_eq hrun with rfl | ⟨moved, -, rfl⟩
  · rfl
  · constructor
    · rintro ⟨task, htask, hid, hcode⟩
      obtain ⟨old, hold, rfl⟩ := List.mem_map.mp htask
      refine ⟨old, hold, ?_, ?_⟩
      · rw [← hid]
        split_ifs <;> rfl
      · rw [← hcode]
        split_ifs <;> rfl
    · rintro ⟨task, htask, hid, hcode⟩
      refine ⟨_, List.mem_map.mpr ⟨task, htask, rfl⟩, ?_, ?_⟩
      · rw [← hid]
        split_ifs <;> rfl
      · rw [← hcode]
        split_ifs <;> rfl

end TaskPool

end Snapcastc
