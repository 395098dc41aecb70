import Snapcastc.LibraryLease
import Snapcastc.IntercomServerRetention

/-! The registry of clients over time. A HELLO renews the lease of its client: the purge task of its record
is due five seconds later. Once `taskqueue_run` has executed what is due, the clients with a record are
those that were heard of in the last five seconds. -/

namespace Snapcastc

variable {n : Nat}

instance : Preorder Timespec where
  le a b := timespecCmp a b ≤ 0
  le_refl a := timespecCmp_totalPreorder.refl a
  le_trans a b c := timespecCmp_totalPreorder.trans a b c

theorem timespec_le_iff (a b : Timespec) : a ≤ b ↔ timespecCmp a b ≤ 0 := Iff.rfl

/-- The times up to which a client is kept that is heard of at a time. -/
def leaseEnd (uptime : Timespec) : Timespec := settime uptime 5 0

theorem leaseEnd_spec {uptime : Timespec} (huptime : uptime.Normalised) :
    (leaseEnd uptime).Normalised ∧ (leaseEnd uptime).toNs = uptime.toNs + 5 * billion := by
  have hdelay : Timespec.Normalised ⟨5, 0 * 1000000⟩ := by decide
  obtain ⟨hnormal, hsum⟩ := timeAdd_spec huptime hdelay
  exact ⟨hnormal, hsum⟩

theorem leaseEnd_mono : MonotoneOn leaseEnd { time | time.Normalised } := by
  intro first hfirst second hsecond hle
  obtain ⟨hfirstNormal, hfirstEnd⟩ := leaseEnd_spec hfirst
  obtain ⟨hsecondNormal, hsecondEnd⟩ := leaseEnd_spec hsecond
  rw [timespec_le_iff, timespecCmp_le_iff_toNs hfirst hsecond] at hle
  rw [timespec_le_iff, timespecCmp_le_iff_toNs hfirstNormal hsecondNormal]
  omega

def isPurge (id : UInt16) (code : ServerTask n) : Bool := code == .scheduleDeleteClient id

theorem isPurge_eq {id : UInt16} {code : ServerTask n} (hcode : isPurge id code = true) :
    code = .scheduleDeleteClient id := eq_of_beq hcode

@[simp] theorem isPurge_self (id : UInt16) : isPurge id (.scheduleDeleteClient id : ServerTask n) = true :=
  beq_self_eq_true _

theorem isPurge_other {id other : UInt16} (hne : other ≠ id) :
    isPurge other (.scheduleDeleteClient id : ServerTask n) = false := by
  rw [isPurge, beq_eq_false_iff_ne]
  intro heq
  exact hne (ServerTask.scheduleDeleteClient.inj heq).symm

/-- Up to when a client is kept: when its purge task is due. -/
def leaseOf (tasks : TaskPool (ServerTask n)) (id : UInt16) : Option Timespec :=
  (tasks.ofKind (isPurge id)).head?.map Posted.due

theorem leaseOf_frame {tasks tasks' : TaskPool (ServerTask n)} {id : UInt16}
    (hframe : tasks.Frame (isPurge id) tasks') : leaseOf tasks' id = leaseOf tasks id := by
  rw [leaseOf, leaseOf, hframe.kept]

/-- Calls that concern the input pipes leave the purge tasks alone. -/
theorem purgeFrame {tasks tasks' : TaskPool (ServerTask n)} (hframe : tasks.Frame notPipeKind tasks')
    (id : UInt16) : tasks.Frame (isPurge id) tasks' := by
  refine hframe.weaken fun code hcode => ?_
  rw [isPurge_eq hcode]
  rfl

theorem leaseOf_pipeFrame {tasks tasks' : TaskPool (ServerTask n)}
    (hframe : tasks.Frame notPipeKind tasks') : leaseOf tasks' = leaseOf tasks :=
  funext fun id => leaseOf_frame (purgeFrame hframe id)

theorem leaseOf_some {tasks : TaskPool (ServerTask n)} {id : UInt16} {due : Timespec}
    (hlease : leaseOf tasks id = some due) :
    ∃ task ∈ tasks.queued, task.code = .scheduleDeleteClient id ∧ task.due = due := by
  obtain ⟨task, hhead, hdue⟩ := Option.map_eq_some_iff.mp hlease
  obtain ⟨hqueued, hcode⟩ := TaskPool.mem_ofKind.mp (List.mem_of_mem_head? hhead)
  exact ⟨task, hqueued, isPurge_eq hcode, hdue⟩

/-- The clients that have a lease are those with a record. -/
theorem leaseOf_none_iff {s : Server n} (hinv : RegistryInv s) (id : UInt16) :
    leaseOf s.tasks id = none ↔ ∀ i, ∀ client ∈ s.clients i, client.id ≠ id := by
  rw [leaseOf, Option.map_eq_none_iff, List.head?_eq_none_iff, List.eq_nil_iff_forall_not_mem]
  constructor
  · rintro hnone i client hclient rfl
    obtain ⟨task, htask, -, hcode⟩ := mem_timers.mp
      ((hinv.inOrder.matched client.purgeTask client.id).mpr ⟨i, List.mem_map_of_mem hclient⟩)
    exact hnone task (TaskPool.mem_ofKind.mpr ⟨htask, beq_iff_eq.mpr hcode⟩)
  · intro hnew task htask
    obtain ⟨hqueued, hcode⟩ := TaskPool.mem_ofKind.mp htask
    obtain ⟨i, hmember⟩ := (hinv.inOrder.matched task.id id).mp
      (mem_timers.mpr ⟨task, hqueued, rfl, isPurge_eq hcode⟩)
    obtain ⟨client, hclient, hkey⟩ := List.mem_map.mp hmember
    exact hnew i client hclient (congrArg Prod.fst hkey)

/-! ### Joining and leaving -/

/-- `clientmgr_delete_client` leaves the purge tasks of other clients alone. -/
theorem clientmgrDeleteClient_frame {s s' : Server n} {id other : UInt16} (hinv : HandleInv s)
    (hrun : clientmgrDeleteClient s id = .ok s') (hne : other ≠ id) :
    s.tasks.Frame (isPurge other) s'.tasks := by
  unfold clientmgrDeleteClient at hrun
  cases hfind : findClient s id with
  | none =>
      rw [hfind] at hrun
      cases hrun
      exact .refl hinv.sound
  | some found =>
      obtain ⟨i, k⟩ := found
      rw [hfind] at hrun
      obtain ⟨client, hclient, rfl⟩ := findClient_some hfind
      dsimp only at hrun
      unfold deleteClientInternal at hrun
      rw [hclient] at hrun
      obtain ⟨tasks, hdrop, hrun⟩ := except_bind_ok hrun
      have hmade := hinv.purge i client (List.mem_of_getElem? hclient)
      have hdropped : s.tasks.Frame (isPurge other) tasks :=
        .dropTask hinv.sound hmade (isPurge_other hne) hdrop
      have hhandles : HandleInv { s with tasks } :=
        hinv.of (hinv.sound.dropTask hdrop) hdropped.history rfl fun _ _ => .inl
      exact hdropped.trans (purgeFrame (streamClientRemove_spec hhandles hrun).tasks other)

/-- A client that is deleted has no lease any more. -/
theorem clientmgrDeleteClient_lease {s s' : Server n} {id : UInt16} (hinv : RegistryInv s)
    (hrun : clientmgrDeleteClient s id = .ok s') :
    leaseOf s'.tasks = Function.update (leaseOf s.tasks) id none := by
  obtain ⟨hsteps, hgone⟩ := clientmgrDeleteClient_spec hinv hrun
  funext other
  rcases eq_or_ne other id with rfl | hne
  · rw [Function.update_self, leaseOf_none_iff (hsteps.inv hinv)]
    exact hgone
  · rw [Function.update_of_ne hne]
    exact leaseOf_frame (clientmgrDeleteClient_frame hinv.handles hrun hne)

/-- A purge task is posted for a client that has none. -/
theorem leaseOf_postPurge {tasks : TaskPool (ServerTask n)} (hsound : tasks.Sound) {id : UInt16}
    (hnone : leaseOf tasks id = none) (uptime : Timespec) :
    leaseOf (tasks.postTask uptime 5 0 (.scheduleDeleteClient id)).2 =
      Function.update (leaseOf tasks) id (some (leaseEnd uptime)) := by
  funext other
  rcases eq_or_ne other id with rfl | hne
  · rw [leaseOf, Option.map_eq_none_iff, List.head?_eq_none_iff] at hnone
    rw [Function.update_self, leaseOf]
    change (((tasks.queued ++ [_]).filter _).head?.map Posted.due) = _
    rw [List.filter_append]
    change ((tasks.ofKind (isPurge other) ++ _).head?.map Posted.due) = _
    rw [hnone, List.nil_append, List.filter_cons_of_pos (by simp)]
    rfl
  · rw [Function.update_of_ne hne]
    exact leaseOf_frame (.postTask hsound _ _ _ (isPurge_other hne))

/-- The part of `clientmgr_refresh_client` for a client that is not known. -/
theorem addClient_lease {clock : ServerClock} {opened : Option Nat} {s s' : Server n} {peer : Peer}
    (hinv : RegistryInv s) (hnew : ∀ i, ∀ client ∈ s.clients i, client.id ≠ peer.hello.id)
    (hrun : addClient clock opened s peer = .ok s') :
    leaseOf s'.tasks =
      Function.update (leaseOf s.tasks) peer.hello.id (some (leaseEnd clock.uptime)) := by
  obtain ⟨s₂, hcreate, hrun⟩ := except_bind_ok hrun
  obtain ⟨s₁, hadd, hgreet⟩ := except_bind_ok hcreate
  obtain ⟨hhandles, -, hmade⟩ :=
    withPurgeTask_handles hinv.handles hinv.unstarted clock peer.hello.id
  obtain ⟨-, -, htasks, -⟩ := withPurgeTask_fields hinv.unstarted clock peer.hello.id
  have hjoined := streamClientAdd_spec hhandles hmade hadd
  have hseen : s'.tasks = s₁.tasks := by
    split at hrun
    · cases hrun
    · cases hrun
      exact ((RecordFrame.greetClient hgreet).trans (.noteSeen clock s₂ 0 _ peer)).tasks
  calc leaseOf s'.tasks
      = leaseOf (withPurgeTask clock s peer.hello.id).tasks := by
        rw [hseen]
        exact leaseOf_pipeFrame hjoined.tasks
    _ = leaseOf (s.tasks.postTask clock.uptime 5 0 (.scheduleDeleteClient peer.hello.id)).2 := by
        rw [htasks]
    _ = _ := leaseOf_postPurge hinv.handles.sound ((leaseOf_none_iff hinv _).mpr hnew) clock.uptime

/-- The purge task of a record is rescheduled. -/
theorem reschedule_lease {s : Server n} (hinv : RegistryInv s) {i : Fin (n + 1)} {k : Nat}
    {client : ClientRecord} (hclient : s.clientAt i k = some client) {uptime : Timespec}
    {tasks : TaskPool (ServerTask n)}
    (hrun : s.tasks.rescheduleTask uptime 5 0 (some client.purgeTask) = .ok tasks) :
    leaseOf tasks = Function.update (leaseOf s.tasks) client.id (some (leaseEnd uptime)) := by
  have hsound := hinv.handles.sound
  have hmade := hinv.handles.purge i client (List.mem_of_getElem? hclient)
  have hsingle := hinv.inOrder.timer_singleton (mem_members hclient)
  -- the record's purge task is the only one for the id, and it is queued
  have honly : (s.tasks.ofKind (isPurge client.id)).map Posted.id = [client.purgeTask] := by
    rw [TaskPool.ofKind]
    change (s.tasks.queued.filter fun task => task.code == .scheduleDeleteClient client.id).map _ = _
    rw [← purges_of_client]
    exact congrArg (List.map Prod.fst) hsingle
  obtain ⟨task, hkind, hid⟩ := List.map_eq_singleton_iff.mp honly
  have hqueued : task ∈ s.tasks.queued :=
    (TaskPool.mem_ofKind.mp (hkind ▸ List.mem_singleton_self task)).1
  have hidle : s.tasks.running ≠ some client.purgeTask :=
    fun hrunning => (hsound.running _ hrunning).2 task hqueued hid
  have hthere : s.tasks.isQueued client.purgeTask = true :=
    List.any_eq_true.mpr ⟨task, hqueued, beq_iff_eq.mpr hid⟩
  funext other
  rcases eq_or_ne other client.id with rfl | hne
  · unfold TaskPool.rescheduleTask at hrun
    dsimp only at hrun
    rw [if_neg hidle, if_pos hthere] at hrun
    cases hrun
    rw [Function.update_self, leaseOf, TaskPool.ofKind, List.filter_map]
    have hcode : ((fun task : Posted (ServerTask n) => isPurge client.id task.code) ∘ fun task =>
        if task.id = client.purgeTask then { task with due := settime uptime 5 0 } else task) =
          fun task => isPurge client.id task.code := by
      funext task
      rw [Function.comp_apply]
      split_ifs <;> rfl
    rw [hcode]
    change ((s.tasks.ofKind (isPurge client.id)).map _).head?.map Posted.due = _
    rw [hkind, List.map_singleton, if_pos hid]
    rfl
  · rw [Function.update_of_ne hne]
    refine leaseOf_frame (.rescheduleTask hsound (fun id hid => ?_) (isPurge_other hne) hrun)
    rw [← Option.some.inj hid]
    exact hmade

/-- A HELLO renews the lease of its client. -/
theorem clientmgrRefreshClient_lease {clock : ServerClock} {opened : Option Nat} {s s' : Server n}
    {peer : Peer} (hinv : RegistryInv s)
    (hrun : clientmgrRefreshClient clock opened s peer = .ok s') :
    leaseOf s'.tasks =
      Function.update (leaseOf s.tasks) peer.hello.id (some (leaseEnd clock.uptime)) := by
  cases refreshedClient hrun with
  | added hfind hrun => exact addClient_lease hinv (fun i client => findClient_none hfind i) hrun
  | moved hfind hclient hid hport hdelete hrun =>
      obtain ⟨hdeleted, hnew⟩ := clientmgrDeleteClient_spec hinv hdelete
      rw [addClient_lease (hdeleted.inv hinv) hnew hrun, clientmgrDeleteClient_lease hinv hdelete,
        Function.update_idem]
  | @seen i k existing tasks hfind hclient hid hport hreschedule =>
      rw [← hid, (RecordFrame.noteSeen clock { s with tasks } i k peer).tasks]
      exact reschedule_lease hinv hclient hreschedule

/-! ### Purging -/

theorem leaseOf_empty {tasks : TaskPool (ServerTask n)} {id : UInt16} :
    leaseOf tasks id = none ↔ tasks.ofKind (isPurge id) = [] := by
  rw [leaseOf, Option.map_eq_none_iff, List.head?_eq_none_iff]

/-- A client without a lease has none either when it is deleted. -/
theorem clientmgrDeleteClient_none {s s' : Server n} {id : UInt16} (hinv : HandleInv s)
    (hrun : clientmgrDeleteClient s id = .ok s') (hnone : leaseOf s.tasks id = none) :
    leaseOf s'.tasks id = none := by
  unfold clientmgrDeleteClient at hrun
  cases hfind : findClient s id with
  | none =>
      rw [hfind] at hrun
      cases hrun
      exact hnone
  | some found =>
      obtain ⟨i, k⟩ := found
      rw [hfind] at hrun
      obtain ⟨client, hclient, -⟩ := findClient_some hfind
      dsimp only at hrun
      unfold deleteClientInternal at hrun
      rw [hclient] at hrun
      obtain ⟨tasks, hdrop, hrun⟩ := except_bind_ok hrun
      have htasks := TaskPool.dropTask_eq hinv.sound hdrop
      have hhandles : HandleInv { s with tasks } := by
        refine hinv.of (hinv.sound.dropTask hdrop) ?_ rfl fun _ _ => .inl
        rw [htasks]
      rw [leaseOf_pipeFrame (streamClientRemove_spec hhandles hrun).tasks, leaseOf_empty]
      change tasks.ofKind _ = []
      rw [leaseOf_empty] at hnone
      rw [htasks, TaskPool.ofKind, List.filter_comm]
      change (s.tasks.ofKind (isPurge id)).filter _ = []
      rw [hnone, List.filter_nil]

/-- The lease of a client is that of its only purge task. -/
theorem leaseOf_queued {s : Server n} (hinv : RegistryInv s) {task : Posted (ServerTask n)}
    (htask : task ∈ s.tasks.queued) {id : UInt16} (hcode : task.code = .scheduleDeleteClient id) :
    s.tasks.ofKind (isPurge id) = [task] ∧ leaseOf s.tasks id = some task.due := by
  obtain ⟨i, hmember⟩ := (hinv.inOrder.matched task.id id).mp (mem_timers.mpr ⟨task, htask, rfl, hcode⟩)
  have honly : (s.tasks.ofKind (isPurge id)).map Posted.id = [task.id] := by
    rw [TaskPool.ofKind]
    change (s.tasks.queued.filter fun task => task.code == .scheduleDeleteClient id).map _ = _
    rw [← purges_of_client]
    exact congrArg (List.map Prod.fst) (hinv.inOrder.timer_singleton hmember)
  obtain ⟨only, hkind, -⟩ := List.map_eq_singleton_iff.mp honly
  have hmem : task ∈ s.tasks.ofKind (isPurge id) :=
    TaskPool.mem_ofKind.mpr ⟨htask, by rw [hcode, isPurge_self]⟩
  rw [hkind] at hmem
  obtain rfl := List.mem_singleton.mp hmem
  exact ⟨hkind, by rw [leaseOf, hkind]; rfl⟩

/-- A purge task that is due ends the lease of its client. -/
theorem firePurge_lease {s s' : Server n} (hinv : RegistryInv s) {task : Posted (ServerTask n)}
    (htask : task ∈ s.tasks.queued) {id : UInt16} (hcode : task.code = .scheduleDeleteClient id)
    (hrun : clientmgrDeleteClient { s with tasks := s.tasks.start task.id } id = .ok s') :
    leaseOf s'.tasks = Function.update (leaseOf s.tasks) id none := by
  have hsound := hinv.handles.sound
  have hstarted : HandleInv { s with tasks := s.tasks.start task.id } :=
    hinv.handles.of (hsound.start htask) (List.prefix_refl _) rfl fun _ _ => .inl
  obtain ⟨hkind, -⟩ := leaseOf_queued hinv htask hcode
  funext other
  rcases eq_or_ne other id with rfl | hne
  · rw [Function.update_self]
    refine clientmgrDeleteClient_none hstarted hrun ?_
    rw [leaseOf_empty, TaskPool.ofKind_start, hkind, List.filter_cons_of_neg (by simp), List.filter_nil]
  · rw [Function.update_of_ne hne, leaseOf_frame (clientmgrDeleteClient_frame hstarted hrun hne), leaseOf,
      leaseOf, TaskPool.ofKind_start_other hsound htask (by rw [hcode, isPurge_other hne])]

/-- A task that is no purge task is started. -/
theorem leaseOf_start {s : Server n} (hinv : HandleInv s) {task : Posted (ServerTask n)}
    (htask : task ∈ s.tasks.queued) (hcode : ∀ id, task.code ≠ .scheduleDeleteClient id) :
    leaseOf (s.tasks.start task.id) = leaseOf s.tasks := by
  funext id
  rw [leaseOf, leaseOf, TaskPool.ofKind_start_other hinv.sound htask]
  rw [isPurge, beq_eq_false_iff_ne]
  exact hcode id

/-- `taskqueue_run` executes a task: a lease that has run out may be ended. -/
theorem fireTask_lease {clock : ServerClock} {opened : Option Nat} {s s' : Server n} {id : Nat}
    (hinv : RegistryInv s) (hrun : fireTask clock opened s id = .ok s') :
    LeaseEvent.Step leaseEnd (leaseOf s.tasks) (.check clock.uptime) (leaseOf s'.tasks) := by
  unfold fireTask at hrun
  split at hrun
  · cases hrun
    exact .keep _
  · rename_i task hfind
    have htask := List.mem_of_find?_eq_some hfind
    have hid := List.find?_some hfind
    obtain rfl : task.id = id := eq_of_beq hid
    split_ifs at hrun with hdue
    · cases hrun
      exact .keep _
    · obtain ⟨s₁, hbody, hrun⟩ := except_bind_ok hrun
      cases hrun
      have hfinish : leaseOf s₁.tasks.finish = leaseOf s₁.tasks := rfl
      rw [hfinish]
      have hother : (∀ id, task.code ≠ .scheduleDeleteClient id) →
          leaseOf s₁.tasks = leaseOf (s.tasks.start task.id) →
          LeaseEvent.Step leaseEnd (leaseOf s.tasks) (.check clock.uptime) (leaseOf s₁.tasks) := by
        intro hcode hsame
        rw [hsame, leaseOf_start hinv.handles htask hcode]
        exact .keep _
      have hstart (hcode : ∀ id, task.code ≠ .scheduleDeleteClient id) :=
        (start_spec hinv htask hcode).handles
      cases hcode : task.code with
      | scheduleDeleteClient id =>
          rw [hcode] at hbody
          rw [firePurge_lease hinv htask hcode hbody]
          exact .expire (leaseOf_queued hinv htask hcode).2 (not_lt.mp hdue)
      | inputpipeResumeRead i =>
          have hne : ∀ id, task.code ≠ .scheduleDeleteClient id := by simp [hcode]
          rw [hcode] at hbody
          exact hother hne (leaseOf_pipeFrame (PipeFrame.inputpipeResumeRead (hstart hne) hbody).tasks)
      | setIdle i =>
          have hne : ∀ id, task.code ≠ .scheduleDeleteClient id := by simp [hcode]
          rw [hcode] at hbody
          exact hother hne (leaseOf_pipeFrame (PipeFrame.setStreamIdle (hstart hne) hbody).tasks)
      | removeOldAudiodata i =>
          rw [hcode] at hbody
          cases hbody
          refine hother (by simp [hcode]) ?_
          unfold removeOldAudiodataTask
          split_ifs <;> rfl

/-- A chunk is sent and kept. -/
theorem deliver_lease {clock : ServerClock} {encoded : Int × List UInt8} {s s' : Server n}
    {i : Fin (n + 1)} {restarted : Bool} (hinv : RegistryInv s)
    (hrun : deliver clock encoded s i restarted = .ok s') : leaseOf s'.tasks = leaseOf s.tasks := by
  have hstopped : RecordFrame s (if restarted then clientmgrStopClients s i else s) := by
    split_ifs
    · exact .stopClients s i
    · exact .refl s
  obtain ⟨chunk, -, hrun⟩ := except_bind_ok hrun
  cases hrun
  generalize (if restarted then clientmgrStopClients s i else s) = s₁ at hstopped ⊢
  have hsound : s₁.tasks.Sound := (hstopped.handles hinv.handles).sound
  have hsent := (RecordFrame.sendToClients (keepAudio clock (s₁.setPipe i { s₁.pipe i with chunk }) i
    (assembleAudio (fun _ => 0) s₁.bufferms (s₁.streams i).nonce chunk).1
    ((assembleAudio (fun _ => 0) s₁.bufferms (s₁.streams i).nonce chunk).2.getD (s₁.streams i).nonce)) i
    (assembleAudio (fun _ => 0) s₁.bufferms (s₁.streams i).nonce chunk).1).tasks
  have hposted : (intercomSendAudio clock (s₁.setPipe i { s₁.pipe i with chunk }) i).tasks =
      (s₁.tasks.postTask clock.uptime (s₁.bufferms.toNat / 1000 : Nat)
        (s₁.bufferms.toNat % 1000 : Nat) (.removeOldAudiodata i)).2 := by
    refine Eq.trans ?_ hsent
    simp [intercomSendAudio, Server.setPipe, Server.setStream, Server.pipe]
  funext id
  rw [hposted, ← hstopped.tasks]
  exact leaseOf_frame (.postTask hsound _ _ _ (beq_eq_false_iff_ne.mpr fun hcode => by cases hcode))

/-- An input event of a pipe. -/
theorem pipeInput_lease {clock : ServerClock} {input : Option (List UInt8)}
    {encoded : Int × List UInt8} {s s' : Server n} {fd : Nat} (hinv : RegistryInv s)
    (hrun : pipeInput clock input encoded s fd = .ok s') : leaseOf s'.tasks = leaseOf s.tasks := by
  unfold pipeInput at hrun
  split at hrun
  · cases hrun
    rfl
  · rename_i i _
    obtain ⟨⟨ret, ctx, tasks⟩, hhandle, hrun⟩ := except_bind_ok hrun
    have hframe := PipeFrame.inputpipeHandle hinv.handles hhandle
    have hfirst := RegistrySteps.pipeFrame hinv hframe
    refine Eq.trans ?_ (leaseOf_pipeFrame hframe.tasks)
    dsimp only at hrun
    split_ifs at hrun
    · exact leaseOf_pipeFrame (PipeFrame.throttle hframe.handles hrun).tasks
    · exact deliver_lease (hfirst.inv hinv) hrun
    · cases hrun
      rfl

/-! ### Runs -/

/-- What an event means for the leases of the clients. -/
def leaseEvent : ServerEvent → Option (LeaseEvent UInt16 Timespec)
  | .hello peer clock _ => some (.renew peer.hello.id clock.uptime)
  | .fire _ clock _ => some (.check clock.uptime)
  | _ => none

/-- An event changes the leases as it should. -/
theorem serverStep_lease {s s' : Server n} {event : ServerEvent} (hinv : RegistryInv s)
    (hrun : serverStep s event = .ok s') :
    match leaseEvent event with
    | none => leaseOf s'.tasks = leaseOf s.tasks
    | some change => LeaseEvent.Step leaseEnd (leaseOf s.tasks) change (leaseOf s'.tasks) := by
  cases event with
  | epollWait ready =>
      unfold serverStep at hrun
      dsimp only at hrun
      split_ifs at hrun
      · cases hrun
        rfl
      · cases hrun
        rfl
  | pipeInput fd input encoded clock =>
      unfold serverStep at hrun
      dsimp only at hrun
      split_ifs at hrun
      · have hfirst := (takeEvent_spec hinv fd).inv hinv
        exact (pipeInput_lease hfirst hrun :)
      · cases hrun
        rfl
  | pipeHangup fd opened =>
      unfold serverStep at hrun
      dsimp only at hrun
      split_ifs at hrun
      · have hfirst := (takeEvent_spec hinv fd).inv hinv
        unfold pipeHangup at hrun
        split at hrun
        · cases hrun
          rfl
        · obtain ⟨s₁, huninit, hresume⟩ := except_bind_ok hrun
          have hclosed := PipeFrame.inputpipeUninit hfirst.handles huninit
          exact leaseOf_pipeFrame
            (hclosed.trans (.inputpipeResumeRead hclosed.handles hresume)).tasks
      · cases hrun
        rfl
  | hello peer clock opened =>
      change LeaseEvent.Step leaseEnd _ (.renew peer.hello.id clock.uptime) _
      rw [clientmgrRefreshClient_lease hinv hrun]
      exact .renew _ _
  | request clientid nonce ip port =>
      cases hrun
      exact congrArg leaseOf (RecordFrame.answerRequest s clientid nonce ip port).tasks
  | setStream request opened =>
      obtain ⟨⟨s₁, reply⟩, hset, hrun⟩ := except_bind_ok hrun
      cases hrun
      change leaseOf s'.tasks = leaseOf s.tasks
      cases movedClient hset with
      | stays => rfl
      | @moves client i j k s₁ _ hclient hne hadd hremove =>
          have hstopped : RecordFrame s (intercomStopClientOf s client) := .send s _ _ _ _
          have hmade := hinv.handles.purge i client (List.mem_of_getElem? hclient)
          have hadded := streamClientAdd_spec (hstopped.handles hinv.handles) hmade hadd
          calc leaseOf s'.tasks
              = leaseOf s₁.tasks :=
                leaseOf_pipeFrame (streamClientRemove_spec hadded.handles hremove).tasks
            _ = leaseOf (intercomStopClientOf s client).tasks := leaseOf_pipeFrame hadded.tasks
            _ = leaseOf s.tasks := congrArg leaseOf hstopped.tasks
  | setVolume request =>
      obtain ⟨⟨s₁, reply⟩, hset, hrun⟩ := except_bind_ok hrun
      cases hrun
      exact congrArg leaseOf (RecordFrame.setVolume hset).tasks
  | fire id clock opened => exact fireTask_lease hinv hrun

/-- The leases of the clients after a run. -/
theorem serverRun_lease {s s' : Server n} {past : List (LeaseEvent UInt16 Timespec)}
    {events : List ServerEvent} (hinv : RegistryInv s)
    (hpast : LeaseEvent.Run leaseEnd past (leaseOf s.tasks)) (hrun : serverRun s events = .ok s') :
    LeaseEvent.Run leaseEnd (past ++ events.filterMap leaseEvent) (leaseOf s'.tasks) := by
  induction events generalizing s past with
  | nil =>
      cases hrun
      rw [List.filterMap_nil, List.append_nil]
      exact hpast
  | cons event events ih =>
      obtain ⟨s₁, hstep, hrun⟩ := except_bind_ok hrun
      have hinv₁ := (serverStep_spec hinv hstep).inv hinv
      have hlease := serverStep_lease hinv hstep
      rw [List.filterMap_cons]
      cases hevent : leaseEvent event with
      | none =>
          rw [hevent] at hlease
          refine ih hinv₁ ?_ hrun
          rw [hlease]
          exact hpast
      | some change =>
          rw [hevent] at hlease
          have hnext := ih hinv₁ (hpast.step hlease) hrun
          rwa [List.append_assoc, List.singleton_append] at hnext

theorem leaseEvent_time {event : ServerEvent} {change : LeaseEvent UInt16 Timespec}
    (hevent : leaseEvent event = some change) : event.uptime = some change.time := by
  cases event <;> cases hevent <;> rfl

/-- The times of the lease events are among those of all events. -/
theorem leaseEvent_times (events : List ServerEvent) :
    ((events.filterMap leaseEvent).map LeaseEvent.time).Sublist (events.filterMap ServerEvent.uptime) := by
  induction events with
  | nil => exact List.Sublist.refl _
  | cons event events ih =>
      rw [List.filterMap_cons, List.filterMap_cons]
      cases hevent : leaseEvent event with
      | none =>
          dsimp only
          split
          · exact ih
          · exact ih.cons _
      | some change =>
          rw [leaseEvent_time hevent]
          exact ih.cons_cons _

/-- When `taskqueue_run` has executed everything that is due, the clients with a record are those with a lease
that is still good. -/
theorem registered_iff_renewed {bufferms : UInt16} {options : Fin (n + 1) → StreamOptions}
    {events : List ServerEvent} {s : Server n} (hrun : serverRun (freshServer bufferms options) events = .ok s)
    {now : Timespec} (hnow : now.Normalised) (hclock : UptimesAscend events now)
    (hdone : ∀ task ∈ s.tasks.queued, timespecCmp task.due now > 0) (id : UInt16) :
    (∃ i, ∃ client ∈ s.clients i, client.id = id) ↔
      ∃ time, .renew id time ∈ events.filterMap leaseEvent ∧ ¬leaseEnd time ≤ now := by
  have hinv := (RegistryInv.fresh bufferms options).run hrun
  have hleases : LeaseEvent.Run leaseEnd (events.filterMap leaseEvent) (leaseOf s.tasks) := by
    have hfresh : LeaseEvent.Run leaseEnd [] (leaseOf (freshServer bufferms options).tasks) := .none
    exact serverRun_lease (.fresh bufferms options) hfresh hrun
  have htimes := leaseEvent_times events
  have hin : ∀ event ∈ events.filterMap leaseEvent,
      event.time ∈ events.filterMap ServerEvent.uptime :=
    fun event hevent => htimes.subset (List.mem_map_of_mem hevent)
  have hnormal : ∀ uptime ∈ events.filterMap ServerEvent.uptime, uptime.Normalised :=
    fun uptime huptime => (hclock.1 uptime huptime).1
  have hsorted : (events.filterMap ServerEvent.uptime).Pairwise fun a b => timespecCmp a b ≤ 0 :=
    hclock.2.imp_of_mem fun ha hb hle => (timespecCmp_le_iff_toNs (hnormal _ ha) (hnormal _ hb)).mpr hle
  have hpast : ∀ uptime ∈ events.filterMap ServerEvent.uptime, timespecCmp uptime now ≤ 0 :=
    fun uptime huptime => (timespecCmp_le_iff_toNs (hnormal _ huptime) hnow).mpr (hclock.1 uptime huptime).2
  have hheld := hleases.held_iff leaseEnd_mono (fun event hevent => hnormal _ (hin event hevent))
    (List.pairwise_map.mp (hsorted.sublist htimes)) (fun event hevent => hpast _ (hin event hevent))
    (fun holder good hgood => ?_) id
  · rw [ne_eq, leaseOf_none_iff hinv] at hheld
    push Not at hheld
    exact hheld
  · obtain ⟨task, htask, -, rfl⟩ := leaseOf_some hgood
    exact not_le.mpr (hdone task htask)

/-- A lease is still good less than five seconds after it was renewed. -/
theorem leaseEnd_good_iff {uptime now : Timespec} (huptime : uptime.Normalised) (hnow : now.Normalised) :
    ¬leaseEnd uptime ≤ now ↔ now.toNs - uptime.toNs < 5 * billion := by
  obtain ⟨hendNormal, hend⟩ := leaseEnd_spec huptime
  rw [timespec_le_iff, timespecCmp_le_iff_toNs hendNormal hnow, hend]
  omega

theorem renewed_iff_heard {events : List ServerEvent} {now : Timespec} (hnow : now.Normalised)
    (hclock : UptimesAscend events now) {id : UInt16} :
    (∃ time, .renew id time ∈ events.filterMap leaseEvent ∧ ¬leaseEnd time ≤ now) ↔
      ∃ peer clock opened, .hello peer clock opened ∈ events ∧ peer.hello.id = id ∧
        now.toNs - clock.uptime.toNs < 5 * billion := by
  have hnormal : ∀ {peer : Peer} {clock : ServerClock} {opened : Option Nat},
      .hello peer clock opened ∈ events → clock.uptime.Normalised :=
    fun hevent => (hclock.1 _ (List.mem_filterMap.mpr ⟨_, hevent, rfl⟩)).1
  constructor
  · rintro ⟨time, hrenew, hgood⟩
    obtain ⟨event, hevent, hchange⟩ := List.mem_filterMap.mp hrenew
    cases event with
    | hello peer clock opened =>
        cases hchange
        exact ⟨peer, clock, opened, hevent, rfl, (leaseEnd_good_iff (hnormal hevent) hnow).mp hgood⟩
    | _ => cases hchange
  · rintro ⟨peer, clock, opened, hevent, rfl, hrecent⟩
    exact ⟨clock.uptime, List.mem_filterMap.mpr ⟨_, hevent, rfl⟩,
      (leaseEnd_good_iff (hnormal hevent) hnow).mpr hrecent⟩

/-- When `taskqueue_run` has executed everything that is due, a client has a record in one of the streams
if and only if a HELLO from it has come in the last five seconds. -/
theorem registered_iff_heard (bufferms : UInt16) (options : Fin (n + 1) → StreamOptions)
    (events : List ServerEvent) (s : Server n)
    (hrun : serverRun (freshServer bufferms options) events = .ok s) (now : Timespec)
    (hnow : now.Normalised) (hclock : UptimesAscend events now)
    (hdone : ∀ task ∈ s.tasks.queued, timespecCmp task.due now > 0) (id : UInt16) :
    (∃ i, ∃ client ∈ s.clients i, client.id = id) ↔
      ∃ peer clock opened, .hello peer clock opened ∈ events ∧ peer.hello.id = id ∧
        now.toNs - clock.uptime.toNs < 5 * billion := by
  rw [registered_iff_renewed hrun hnow hclock hdone, renewed_iff_heard hnow hclock]

/-- Clients 1 and 2 come, and client 1 is not heard of for five seconds. -/
def silentEvents : List ServerEvent :=
  [helloFrom 1 100 1, helloFrom 2 200 2, .fire 0 ⟨⟨6, 0⟩, ⟨6, 0⟩⟩ none]

theorem registered_iff_heard_purged :
    ∃ s, serverRun (freshServer 1000 twoStreams) silentEvents = .ok s ∧
      ¬(∃ i, ∃ client ∈ s.clients i, client.id = 1) ∧ ∃ i, ∃ client ∈ s.clients i, client.id = 2 := by
  obtain ⟨s, hrun, hview⟩ := except_map_ok (show (serverRun (freshServer 1000 twoStreams)
    silentEvents).map (fun s => decide (∀ task ∈ s.tasks.queued, timespecCmp task.due ⟨6, 0⟩ > 0)) =
      .ok true by decide +kernel)
  have hheard := registered_iff_heard 1000 twoStreams silentEvents s hrun ⟨6, 0⟩ (by decide) (by decide)
    (of_decide_eq_true hview)
  refine ⟨s, hrun, ?_, ?_⟩
  · rw [hheard]
    rintro ⟨peer, clock, opened, hevent, hid, hrecent⟩
    rcases List.mem_cons.mp hevent with hfirst | hevent
    · cases hfirst
      exact absurd hrecent (by decide)
    · rcases List.mem_cons.mp hevent with hsecond | hevent
      · cases hsecond
        exact absurd hid (by decide)
      · cases List.mem_singleton.mp hevent
  · exact (hheard 2).mpr ⟨_, _, _, List.mem_cons_of_mem _ List.mem_cons_self, rfl, by decide⟩

end Snapcastc
