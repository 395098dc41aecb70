import Snapcastc.LibraryRoster
import Snapcastc.ServerHandles

/-! The registry of clients over whole runs: no client is in two streams or twice in one, and the queued
purge tasks are those of the clients. -/

namespace Snapcastc

variable {n : Nat}

/-- The handle of a purge task and the client it is for. -/
def purgeOf (task : Posted (ServerTask n)) : Option (Nat × UInt16) :=
  match task.code with
  | .scheduleDeleteClient id => some (task.id, id)
  | _ => none

/-- The clients of each stream with their purge tasks, and the queued purge tasks. -/
def roster (s : Server n) : Roster (Fin (n + 1)) UInt16 Nat :=
  ⟨fun i => (s.clients i).map ClientRecord.key, s.tasks.queued.filterMap purgeOf⟩

theorem mem_timers {s : Server n} {t : Nat} {id : UInt16} :
    (t, id) ∈ (roster s).timers ↔
      ∃ task ∈ s.tasks.queued, task.id = t ∧ task.code = .scheduleDeleteClient id := by
  rw [roster, List.mem_filterMap]
  refine exists_congr fun task => and_congr_right fun _ => ?_
  unfold purgeOf
  split <;> simp_all

/-- Tasks of other kinds do not matter. -/
theorem purges_ofKind (pool : TaskPool (ServerTask n)) :
    (pool.ofKind notPipeKind).filterMap purgeOf = pool.queued.filterMap purgeOf := by
  rw [TaskPool.ofKind, List.filterMap_filter]
  refine List.filterMap_congr fun task _ => ?_
  unfold purgeOf
  cases task.code <;> rfl

theorem purges_filter (queued : List (Posted (ServerTask n))) (id : Nat) :
    (queued.filter (·.id != id)).filterMap purgeOf =
      (queued.filterMap purgeOf).filter fun e => e.1 != id := by
  rw [List.filterMap_filter, List.filter_filterMap]
  refine List.filterMap_congr fun task _ => ?_
  unfold purgeOf
  cases task.code with
  | scheduleDeleteClient client => by_cases hid : task.id = id <;> simp [hid, Option.filter]
  | inputpipeResumeRead i => simp
  | setIdle i => simp
  | removeOldAudiodata i => simp

theorem purges_reschedule {pool pool' : TaskPool (ServerTask n)} {now : Timespec}
    {timeout millisecs : Int} {handle : Option Nat}
    (hrun : pool.rescheduleTask now timeout millisecs handle = .ok pool') :
    pool'.queued.filterMap purgeOf = pool.queued.filterMap purgeOf := by
  rcases TaskPool.rescheduleTask_eq hrun with rfl | ⟨id, -, rfl⟩
  · rfl
  · dsimp only
    rw [List.filterMap_map]
    refine List.filterMap_congr fun task _ => ?_
    rw [Function.comp_apply]
    split_ifs
    · rfl
    · rfl

theorem purges_of_client (queued : List (Posted (ServerTask n))) (id : UInt16) :
    ((queued.filterMap purgeOf).filter fun e => e.2 == id).map Prod.fst =
      (queued.filter fun task => task.code == .scheduleDeleteClient id).map Posted.id := by
  induction queued with
  | nil => rfl
  | cons task queued ih =>
      rw [List.filterMap_cons, List.filter_cons]
      unfold purgeOf at ih ⊢
      cases hcode : task.code with
      | scheduleDeleteClient client =>
          by_cases hid : client = id
          · simp [hid, ih]
          · simp [hid, ih]
      | inputpipeResumeRead i => simpa using ih
      | setIdle i => simpa using ih
      | removeOldAudiodata i => simpa using ih

theorem roster_pipeFrame {s s' : Server n} (hframe : PipeFrame s s') : roster s' = roster s := by
  rw [roster, roster, hframe.clients, ← purges_ofKind, hframe.tasks.kept, purges_ofKind]

theorem roster_recordFrame {s s' : Server n} (hframe : RecordFrame s s') : roster s' = roster s := by
  rw [roster, roster, hframe.tasks]
  congr 1
  funext i
  exact hframe.keys i

/-- A loop that starts at the last stream finds the last one that matches. -/
theorem find?_reverse_eq_some_iff {p : Fin (n + 1) → Bool} {i : Fin (n + 1)} :
    (List.finRange (n + 1)).reverse.find? p = some i ↔ p i = true ∧ ∀ j, i < j → p j = false := by
  have hsorted := List.pairwise_reverse.mpr (List.pairwise_lt_finRange (n + 1))
  have hall : ∀ j, j ∈ (List.finRange (n + 1)).reverse := fun j =>
    List.mem_reverse.mpr (List.mem_finRange j)
  constructor
  · intro hfind
    obtain ⟨hmatch, later, earlier, hsplit, hnot⟩ := List.find?_eq_some_iff_append.mp hfind
    rw [hsplit, List.pairwise_append] at hsorted
    refine ⟨hmatch, fun j hlt => ?_⟩
    have hj := hall j
    rw [hsplit, List.mem_append, List.mem_cons] at hj
    rcases hj with hj | rfl | hj
    · simpa using hnot j hj
    · exact absurd hlt (lt_irrefl j)
    · exact absurd hlt ((List.pairwise_cons.mp hsorted.2.1).1 j hj).asymm
  · rintro ⟨hmatch, hlater⟩
    obtain ⟨later, earlier, hsplit⟩ := List.append_of_mem (hall i)
    rw [hsplit, List.pairwise_append] at hsorted
    refine List.find?_eq_some_iff_append.mpr ⟨hmatch, later, earlier, hsplit, fun j hj => ?_⟩
    rw [hlater j (hsorted.2.2 j hj i List.mem_cons_self)]
    rfl

theorem findClient_some {s : Server n} {id : UInt16} {i : Fin (n + 1)} {k : Nat}
    (hfind : findClient s id = some (i, k)) :
    ∃ client, s.clientAt i k = some client ∧ client.id = id := by
  obtain ⟨j, -, hj⟩ := List.exists_of_findSome?_eq_some hfind
  obtain ⟨k', hk, heq⟩ := Option.map_eq_some_iff.mp hj
  obtain ⟨rfl, rfl⟩ := Prod.mk.inj heq
  obtain ⟨hlt, hid, -⟩ := List.findIdx?_eq_some_iff_getElem.mp hk
  exact ⟨_, List.getElem?_eq_getElem hlt, eq_of_beq hid⟩

theorem findClient_none {s : Server n} {id : UInt16} (hfind : findClient s id = none)
    (i : Fin (n + 1)) {client : ClientRecord} (hclient : client ∈ s.clients i) : client.id ≠ id := by
  have hnone := List.findSome?_eq_none_iff.mp hfind i (List.mem_finRange i)
  have hidx := List.findIdx?_eq_none_iff.mp (Option.map_eq_none_iff.mp hnone) client hclient
  exact beq_eq_false_iff_ne.mp hidx

/-- `stream_find` finds the stream in which `find_client` finds the client. -/
theorem streamFind_of_findClient {s : Server n} {id : UInt16} {i : Fin (n + 1)} {k : Nat}
    (hfind : findClient s id = some (i, k)) : streamFind s id = some i := by
  unfold findClient at hfind
  unfold streamFind
  generalize List.finRange (n + 1) = streams at hfind ⊢
  induction streams with
  | nil => cases hfind
  | cons j streams ih =>
      rw [List.findSome?_cons] at hfind
      rw [List.find?_cons]
      cases hget : getClient (s.streams j) id with
      | none =>
          rw [hget] at hfind
          exact ih hfind
      | some k' =>
          rw [hget] at hfind
          obtain ⟨rfl, -⟩ := Prod.mk.inj (Option.some.inj hfind)
          rfl

/-- The clients and their purge tasks are in order, and before the first stream is set up there is no
client. -/
structure RegistryInv (s : Server n) : Prop where
  handles : HandleInv s
  inOrder : (roster s).InOrder
  unstarted : (s.streams 0).initialized = false → ∀ i, s.clients i = []

/-- The registry has changed in the ways it can. -/
structure RegistrySteps (s s' : Server n) : Prop where
  handles : HandleInv s'
  steps : Relation.ReflTransGen Roster.Step (roster s) (roster s')
  unstarted : (s'.streams 0).initialized = false → ∀ i, s'.clients i = []

theorem RegistrySteps.inv {s s' : Server n} (hsteps : RegistrySteps s s') (hinv : RegistryInv s) :
    RegistryInv s' :=
  ⟨hsteps.handles, hinv.inOrder.steps hsteps.steps, hsteps.unstarted⟩

theorem RegistrySteps.trans {s s' s'' : Server n} (hfirst : RegistrySteps s s')
    (hsecond : RegistrySteps s' s'') : RegistrySteps s s'' :=
  ⟨hsecond.handles, hfirst.steps.trans hsecond.steps, hsecond.unstarted⟩

theorem RegistrySteps.refl {s : Server n} (hinv : RegistryInv s) : RegistrySteps s s :=
  ⟨hinv.handles, .refl, hinv.unstarted⟩

theorem RegistrySteps.pipeFrame {s s' : Server n} (hinv : RegistryInv s) (hframe : PipeFrame s s') :
    RegistrySteps s s' := by
  refine ⟨hframe.handles, ?_, fun hinit => ?_⟩
  · rw [roster_pipeFrame hframe]
  · rw [hframe.streams 0] at hinit
    rw [hframe.clients]
    exact hinv.unstarted hinit

theorem RegistrySteps.recordFrame {s s' : Server n} (hinv : RegistryInv s)
    (hframe : RecordFrame s s') : RegistrySteps s s' := by
  refine ⟨hframe.handles hinv.handles, ?_, fun hinit i => ?_⟩
  · rw [roster_recordFrame hframe]
  · rw [hframe.streams 0] at hinit
    have hlength := hframe.length i
    rw [hinv.unstarted hinit i] at hlength
    exact List.length_eq_zero_iff.mp hlength

/-! ### Joining, leaving and moving -/

theorem HandleInv.of {s s' : Server n} (hinv : HandleInv s) (hsound : s'.tasks.Sound)
    (hhistory : s.tasks.history <+: s'.tasks.history) (hpipe : s'.pipe = s.pipe)
    (hclients : ∀ i, ∀ client ∈ s'.clients i, client ∈ s.clients i ∨
      s'.tasks.Made client.purgeTask (.scheduleDeleteClient client.id)) : HandleInv s' where
  sound := hsound
  purge := fun i client hclient => by
    rcases hclients i client hclient with hold | hmade
    · exact (hinv.purge i client hold).mono hhistory
    · exact hmade
  resume := fun i id hid => by
    rw [hpipe] at hid
    exact (hinv.resume i id hid).mono hhistory
  idle := fun i id hid => by
    rw [hpipe] at hid
    exact (hinv.idle i id hid).mono hhistory

/-- A client joins a stream: its record is appended, and the rest concerns input pipes. -/
theorem streamClientAdd_spec {opened : Option Nat} {s s' : Server n} {i : Fin (n + 1)}
    {client : ClientRecord} (hinv : HandleInv s)
    (hmade : s.tasks.Made client.purgeTask (.scheduleDeleteClient client.id))
    (hrun : streamClientAdd opened s i client = .ok s') :
    PipeFrame (s.setClients i (s.clients i ++ [client])) s' := by
  refine PipeFrame.startReading (hinv.of hinv.sound (List.prefix_refl _) (Server.setClients_pipe ..) ?_) hrun
  intro j other hother
  rw [Server.setClients_clients] at hother
  rcases eq_or_ne j i with rfl | hne
  · rw [Function.update_self, List.mem_append, List.mem_singleton] at hother
    rcases hother with hold | rfl
    · exact .inl hold
    · exact .inr hmade
  · rw [Function.update_of_ne hne] at hother
    exact .inl hother

theorem inputpipeResumeRead_pipe {opened : Option Nat} {s s' : Server n} {i j : Fin (n + 1)}
    (hrun : inputpipeResumeRead opened s j = .ok s') (hne : i ≠ j) : s'.pipe i = s.pipe i := by
  unfold inputpipeResumeRead at hrun
  split_ifs at hrun
  · obtain ⟨ctx, -, hrun⟩ := except_bind_ok hrun
    obtain ⟨s₁, hadd, hrun⟩ := except_bind_ok hrun
    cases hrun
    rw [Server.setPipe_pipe, Function.update_of_ne hne, PipeFrame.addFd_pipe hadd]
  · cases hrun
    rfl

/-- The pipes of other streams are not touched when a client joins. -/
theorem streamClientAdd_pipe {opened : Option Nat} {s s' : Server n} {i j : Fin (n + 1)}
    {client : ClientRecord} (hrun : streamClientAdd opened s j client = .ok s') (hne : i ≠ j) :
    s'.pipe i = s.pipe i := by
  have hpipe : (s.setClients j (s.clients j ++ [client])).pipe = s.pipe := Server.setClients_pipe ..
  unfold streamClientAdd startReading at hrun
  split_ifs at hrun
  · obtain ⟨tasks, -, hrun⟩ := except_bind_ok hrun
    rw [inputpipeResumeRead_pipe hrun hne, Server.setPipe_pipe, Function.update_of_ne hne]
    exact congrFun hpipe i
  · cases hrun
    rw [hpipe]

theorem HandleInv.eraseIdx {s : Server n} (hinv : HandleInv s) (i : Fin (n + 1)) (k : Nat) :
    HandleInv (s.setClients i ((s.clients i).eraseIdx k)) := by
  refine hinv.of hinv.sound (List.prefix_refl _) (Server.setClients_pipe ..) ?_
  intro j other hother
  rw [Server.setClients_clients] at hother
  rcases eq_or_ne j i with rfl | hne
  · rw [Function.update_self] at hother
    exact .inl (List.mem_of_mem_eraseIdx hother)
  · rw [Function.update_of_ne hne] at hother
    exact .inl hother

/-- A client leaves a stream: its record is deleted, and the rest concerns input pipes. -/
theorem streamClientRemove_spec {s s' : Server n} {i : Fin (n + 1)} {k : Nat} (hinv : HandleInv s)
    (hrun : streamClientRemove s i k = .ok s') :
    PipeFrame (s.setClients i ((s.clients i).eraseIdx k)) s' := by
  unfold streamClientRemove at hrun
  dsimp only at hrun
  split_ifs at hrun
  · exact PipeFrame.inputpipeHold (hinv.eraseIdx i k) hrun
  · cases hrun
    exact .refl (hinv.eraseIdx i k)

theorem members_setClients (s : Server n) (i : Fin (n + 1)) (clients : List ClientRecord) :
    (roster (s.setClients i clients)).members =
      Function.update (roster s).members i (clients.map ClientRecord.key) := by
  funext j
  rw [roster, roster]
  dsimp only
  rw [Server.setClients_clients]
  rcases eq_or_ne j i with rfl | hne
  · rw [Function.update_self, Function.update_self]
  · rw [Function.update_of_ne hne, Function.update_of_ne hne]

/-- The record at a position, deleted from the roster. -/
theorem eraseIdx_key {s : Server n} (hinOrder : (roster s).InOrder) {i : Fin (n + 1)} {k : Nat}
    {client : ClientRecord} (hclient : s.clientAt i k = some client) :
    ((s.clients i).eraseIdx k).map ClientRecord.key = ((roster s).members i).erase client.key := by
  obtain ⟨hlt, hget⟩ := List.getElem?_eq_some_iff.mp hclient
  have hlt' : k < ((roster s).members i).length := by
    rw [roster, List.length_map]
    exact hlt
  have herase := (hinOrder.members_nodup i).erase_getElem k hlt'
  have hkey : ((roster s).members i)[k] = client.key := by
    simp only [roster, List.getElem_map, hget]
  rw [hkey] at herase
  rw [herase, roster, List.eraseIdx_map]

theorem mem_members {s : Server n} {i : Fin (n + 1)} {k : Nat} {client : ClientRecord}
    (hclient : s.clientAt i k = some client) : client.key ∈ (roster s).members i :=
  List.mem_map_of_mem (List.mem_of_getElem? hclient)

/-- A client is deleted with its purge task, which may be the running task. -/
theorem deleteClientInternal_spec {s s' : Server n} {i : Fin (n + 1)} {k : Nat}
    {client : ClientRecord} (hinv : HandleInv s) (hclient : s.clientAt i k = some client)
    (hrun : deleteClientInternal s i k = .ok s') :
    HandleInv s' ∧ (∀ j, (s'.streams j).initialized = (s.streams j).initialized) ∧
      roster s' = ⟨Function.update (roster s).members i (((s.clients i).eraseIdx k).map ClientRecord.key),
        (roster s).timers.filter fun e => e.1 != client.purgeTask⟩ := by
  unfold deleteClientInternal at hrun
  rw [hclient] at hrun
  obtain ⟨tasks, hdrop, hrun⟩ := except_bind_ok hrun
  have htasks := TaskPool.dropTask_eq hinv.sound hdrop
  have hhandles : HandleInv { s with tasks } := by
    refine hinv.of (hinv.sound.dropTask hdrop) ?_ rfl (fun _ _ => .inl)
    rw [htasks]
  have hframe := streamClientRemove_spec hhandles hrun
  refine ⟨hframe.handles, fun j => ?_, ?_⟩
  · rw [hframe.streams j]
    rcases eq_or_ne j i with rfl | hne
    · simp [Server.setClients, Server.setStream]
    · simp [Server.setClients, Server.setStream, Function.update_of_ne hne]
  · rw [roster_pipeFrame hframe]
    have hmembers := members_setClients { s with tasks } i ((s.clients i).eraseIdx k)
    have htimers : (roster ({ s with tasks }.setClients i ((s.clients i).eraseIdx k))).timers =
        (roster s).timers.filter fun e => e.1 != client.purgeTask := by
      change tasks.queued.filterMap purgeOf = _
      rw [htasks]
      exact purges_filter _ _
    exact congrArg₂ Roster.mk hmembers htimers

theorem unstarted_of_eraseIdx {s s' : Server n} (hinv : RegistryInv s) {i : Fin (n + 1)} {k : Nat}
    {client : ClientRecord} (hclient : s.clientAt i k = some client)
    (hinit : ∀ j, (s'.streams j).initialized = (s.streams j).initialized) :
    (s'.streams 0).initialized = false → ∀ i, s'.clients i = [] := by
  intro hfalse
  rw [hinit 0] at hfalse
  have hempty := hinv.unstarted hfalse i
  rw [Server.clientAt, hempty] at hclient
  cases hclient

/-- `clientmgr_delete_client`: the client is not there any more. -/
theorem clientmgrDeleteClient_spec {s s' : Server n} {id : UInt16} (hinv : RegistryInv s)
    (hrun : clientmgrDeleteClient s id = .ok s') :
    RegistrySteps s s' ∧ ∀ i, ∀ client ∈ s'.clients i, client.id ≠ id := by
  unfold clientmgrDeleteClient at hrun
  cases hfind : findClient s id with
  | none =>
      rw [hfind] at hrun
      cases hrun
      exact ⟨.refl hinv, fun i client => findClient_none hfind i⟩
  | some found =>
      obtain ⟨i, k⟩ := found
      rw [hfind] at hrun
      obtain ⟨client, hclient, rfl⟩ := findClient_some hfind
      obtain ⟨hhandles, hinit, hroster⟩ := deleteClientInternal_spec hinv.handles hclient hrun
      rw [eraseIdx_key hinv.inOrder hclient] at hroster
      have hremove : roster s' = (roster s).remove i client.id client.purgeTask := hroster
      have hmember := mem_members hclient
      refine ⟨⟨hhandles, ?_, unstarted_of_eraseIdx hinv hclient hinit⟩, fun j other hother => ?_⟩
      · rw [hremove]
        exact .single (.remove hmember)
      · have hmem : other.key ∈ (roster s').members j := List.mem_map_of_mem hother
        rw [hremove] at hmem
        exact ((hinv.inOrder.mem_remove hmember j other.id other.purgeTask).mp hmem).2

/-- Setting up the first stream changes no client. -/
theorem initFirstStream_fields {s : Server n}
    (hunstarted : (s.streams 0).initialized = false → ∀ i, s.clients i = []) :
    (initFirstStream s).pipe = s.pipe ∧ (initFirstStream s).clients = s.clients ∧
      (initFirstStream s).tasks = s.tasks ∧ ((initFirstStream s).streams 0).initialized = true := by
  unfold initFirstStream
  split_ifs with hinit
  · exact ⟨rfl, rfl, rfl, hinit⟩
  · have hempty := hunstarted (Bool.not_eq_true _ ▸ hinit) 0
    refine ⟨?_, ?_, rfl, ?_⟩
    · funext j
      rcases eq_or_ne j 0 with rfl | hne
      · simp [Server.pipe, Server.setStream, streamInit]
      · simp [Server.pipe, Server.setStream, Function.update_of_ne hne]
    · funext j
      rcases eq_or_ne j 0 with rfl | hne
      · rw [hempty]
        simp [Server.clients, Server.setStream, streamInit]
      · simp [Server.clients, Server.setStream, Function.update_of_ne hne]
    · simp [Server.setStream, streamInit]

theorem initFirstStream_events (s : Server n) :
    (initFirstStream s).interest = s.interest ∧ (initFirstStream s).pending = s.pending := by
  unfold initFirstStream
  split_ifs
  · exact ⟨rfl, rfl⟩
  · exact ⟨rfl, rfl⟩

theorem initialized_setClients (s : Server n) (i j : Fin (n + 1)) (clients : List ClientRecord) :
    ((s.setClients i clients).streams j).initialized = (s.streams j).initialized := by
  rcases eq_or_ne j i with rfl | hne
  · simp [Server.setClients, Server.setStream]
  · simp [Server.setClients, Server.setStream, Function.update_of_ne hne]

/-- The server with the purge task of a new client, before the client joins the first stream. -/
def withPurgeTask (clock : ServerClock) (s : Server n) (id : UInt16) : Server n :=
  initFirstStream { s with tasks := (s.tasks.postTask clock.uptime 5 0 (.scheduleDeleteClient id)).2 }

theorem withPurgeTask_fields {s : Server n}
    (hunstarted : (s.streams 0).initialized = false → ∀ i, s.clients i = []) (clock : ServerClock)
    (id : UInt16) :
    (withPurgeTask clock s id).pipe = s.pipe ∧ (withPurgeTask clock s id).clients = s.clients ∧
      (withPurgeTask clock s id).tasks =
        (s.tasks.postTask clock.uptime 5 0 (.scheduleDeleteClient id)).2 ∧
      ((withPurgeTask clock s id).streams 0).initialized = true :=
  initFirstStream_fields hunstarted

theorem withPurgeTask_handles {s : Server n} (hinv : HandleInv s)
    (hunstarted : (s.streams 0).initialized = false → ∀ i, s.clients i = []) (clock : ServerClock)
    (id : UInt16) :
    HandleInv (withPurgeTask clock s id) ∧ (withPurgeTask clock s id).clients = s.clients ∧
      (withPurgeTask clock s id).tasks.Made s.tasks.fresh (.scheduleDeleteClient id) := by
  obtain ⟨hpipe, hclients, htasks, -⟩ := withPurgeTask_fields hunstarted clock id
  refine ⟨hinv.of ?_ ?_ hpipe fun i client hclient => .inl ?_, hclients, ?_⟩
  · rw [htasks]
    exact hinv.sound.postTask _ _ _ _
  · rw [htasks]
    exact List.prefix_append _ _
  · rw [hclients] at hclient
    exact hclient
  · rw [htasks]
    exact TaskPool.postTask_made hinv.sound clock.uptime 5 0 (.scheduleDeleteClient id)

/-- A client with a new purge task joins a stream. -/
theorem newMember_spec {clock : ServerClock} {opened : Option Nat} {s s' : Server n}
    {client : ClientRecord} {i : Fin (n + 1)} (hinv : RegistryInv s)
    (hnew : ∀ i, ∀ other ∈ s.clients i, other.id ≠ client.id) (htask : client.purgeTask = s.tasks.fresh)
    (hrun : streamClientAdd opened (withPurgeTask clock s client.id) i client = .ok s') :
    RegistrySteps s s' := by
  have hsound := hinv.handles.sound
  obtain ⟨-, hclients, htasks, hinit⟩ := withPurgeTask_fields hinv.unstarted clock client.id
  obtain ⟨hhandles, -, hmade⟩ := withPurgeTask_handles hinv.handles hinv.unstarted clock client.id
  generalize withPurgeTask clock s client.id = s₀ at hclients htasks hinit hhandles hmade hrun
  have hframe := streamClientAdd_spec hhandles (htask ▸ hmade) hrun
  refine ⟨hframe.handles, ?_, fun hfalse => ?_⟩
  · have hroster : roster s' = (roster s).add i client.id client.purgeTask := by
      rw [roster_pipeFrame hframe]
      refine congrArg₂ Roster.mk ?_ ?_
      · have hsame : (roster s₀).members = (roster s).members := by
          rw [roster, roster, hclients]
        refine (members_setClients s₀ i (s₀.clients i ++ [client])).trans ?_
        rw [hsame, hclients, List.map_append]
        rfl
      · change s₀.tasks.queued.filterMap purgeOf = s.tasks.queued.filterMap purgeOf ++ [_]
        rw [htasks, htask]
        exact List.filterMap_append
    rw [hroster]
    refine .single (.add (fun j t hmem => ?_) fun id hmem => ?_)
    · obtain ⟨other, hother, hkey⟩ := List.mem_map.mp hmem
      exact hnew j other hother (congrArg Prod.fst hkey)
    · obtain ⟨task, hqueued, hid, -⟩ := mem_timers.mp hmem
      have hlt := (hsound.made task hqueued).lt
      rw [← hsound.fresh] at hlt
      omega
  · rw [hframe.streams 0] at hfalse
    have htrue := (initialized_setClients s₀ i 0 (s₀.clients i ++ [client])).trans hinit
    exact absurd (htrue.symm.trans hfalse) (by decide)

/-- The part of `clientmgr_refresh_client` for a client that is not known. -/
theorem addClient_spec {clock : ServerClock} {opened : Option Nat} {s s' : Server n} {peer : Peer}
    (hinv : RegistryInv s) (hnew : ∀ i, ∀ client ∈ s.clients i, client.id ≠ peer.hello.id)
    (hrun : addClient clock opened s peer = .ok s') : RegistrySteps s s' := by
  obtain ⟨s₂, hcreate, hrun⟩ := except_bind_ok hrun
  obtain ⟨s₁, hadd, hgreet⟩ := except_bind_ok hcreate
  have hjoined := @newMember_spec n clock opened s s₁
    (newClient clock s.tasks peer.hello.id peer.ip peer.port).1 0 hinv hnew rfl hadd
  have hgreeted := RecordFrame.greetClient hgreet
  have hframe : RecordFrame s₁ s' := by
    split at hrun
    · cases hrun
    · cases hrun
      exact hgreeted.trans (.noteSeen clock s₂ 0 _ peer)
  exact hjoined.trans (.recordFrame (hjoined.inv hinv) hframe)

/-- How `clientmgr_refresh_client` ends: the client is not known, its record is replaced because it comes from
another port, or it is seen again. -/
inductive RefreshedClient (clock : ServerClock) (opened : Option Nat) (s : Server n) (peer : Peer) :
    Server n → Prop
  | added {s' : Server n} : findClient s peer.hello.id = none → addClient clock opened s peer = .ok s' →
      RefreshedClient clock opened s peer s'
  | moved {i : Fin (n + 1)} {k : Nat} {existing : ClientRecord} {s₁ s' : Server n} :
      findClient s peer.hello.id = some (i, k) → s.clientAt i k = some existing →
      existing.id = peer.hello.id → peer.port ≠ existing.port →
      clientmgrDeleteClient s peer.hello.id = .ok s₁ → addClient clock opened s₁ peer = .ok s' →
      RefreshedClient clock opened s peer s'
  | seen {i : Fin (n + 1)} {k : Nat} {existing : ClientRecord} {tasks : TaskPool (ServerTask n)} :
      findClient s peer.hello.id = some (i, k) → s.clientAt i k = some existing →
      existing.id = peer.hello.id → peer.port = existing.port →
      s.tasks.rescheduleTask clock.uptime 5 0 (some existing.purgeTask) = .ok tasks →
      RefreshedClient clock opened s peer (noteSeen clock { s with tasks } i k peer)

theorem refreshedClient {clock : ServerClock} {opened : Option Nat} {s s' : Server n} {peer : Peer}
    (hrun : clientmgrRefreshClient clock opened s peer = .ok s') :
    RefreshedClient clock opened s peer s' := by
  unfold clientmgrRefreshClient at hrun
  cases hfind : findClient s peer.hello.id with
  | none =>
      rw [hfind] at hrun
      exact .added hfind hrun
  | some found =>
      obtain ⟨i, k⟩ := found
      obtain ⟨existing, hclient, hid⟩ := findClient_some hfind
      rw [hfind] at hrun
      dsimp only at hrun
      rw [hclient] at hrun
      dsimp only at hrun
      split_ifs at hrun with hport
      · obtain ⟨s₁, hdelete, hrun⟩ := except_bind_ok hrun
        exact .moved hfind hclient hid hport hdelete hrun
      · obtain ⟨tasks, hreschedule, hrun⟩ := except_bind_ok hrun
        cases hrun
        exact .seen hfind hclient hid (not_not.mp hport) hreschedule

/-- `clientmgr_refresh_client`. -/
theorem clientmgrRefreshClient_spec {clock : ServerClock} {opened : Option Nat} {s s' : Server n}
    {peer : Peer} (hinv : RegistryInv s)
    (hrun : clientmgrRefreshClient clock opened s peer = .ok s') : RegistrySteps s s' := by
  cases refreshedClient hrun with
  | added hfind hrun => exact addClient_spec hinv (fun i client => findClient_none hfind i) hrun
  | moved hfind hclient hid hport hdelete hrun =>
      obtain ⟨hdeleted, hnew⟩ := clientmgrDeleteClient_spec hinv hdelete
      exact hdeleted.trans (addClient_spec (hdeleted.inv hinv) hnew hrun)
  | @seen i k existing tasks hfind hclient hid hport hreschedule =>
      have hhandles : HandleInv { s with tasks } := by
        refine hinv.handles.of (hinv.handles.sound.rescheduleTask hreschedule) ?_ rfl
          (fun _ _ => .inl)
        rcases TaskPool.rescheduleTask_eq hreschedule with rfl | ⟨id, -, rfl⟩
        · exact List.prefix_refl _
        · exact List.prefix_refl _
      have hroster : roster { s with tasks } = roster s :=
        congrArg₂ Roster.mk rfl (purges_reschedule hreschedule)
      have hrescheduled : RegistrySteps s { s with tasks } :=
        ⟨hhandles, hroster ▸ .refl, hinv.unstarted⟩
      exact hrescheduled.trans
        (.recordFrame (hrescheduled.inv hinv) (.noteSeen clock { s with tasks } i k peer))

/-! ### Moving to another stream -/

theorem clientStreamIsChanged_self (s : Server n) (i : Fin (n + 1)) :
    clientStreamIsChanged s i i = false := by
  rw [clientStreamIsChanged, bne_eq_false_iff_eq, strncmp_length_eq_zero_iff]

theorem ne_of_clientStreamIsChanged {s : Server n} {i j : Fin (n + 1)}
    (hchanged : clientStreamIsChanged s i j = true) : i ≠ j := by
  rintro rfl
  rw [clientStreamIsChanged_self] at hchanged
  cases hchanged

/-- The loop over the parameters finds clients by their ids. -/
theorem setstreamLoop_client {s : Server n} {parameters : List Parameter}
    {client : Option (Fin (n + 1) × Nat)} {newstream : Option (Fin (n + 1))} {i : Fin (n + 1)}
    {k : Nat} (hfound : (setstreamLoop s parameters client newstream).1 = some (i, k)) :
    client = some (i, k) ∨ ∃ id, findClient s id = some (i, k) := by
  induction parameters generalizing client newstream with
  | nil => exact .inl hfound
  | cons p parameters ih =>
      rw [setstreamLoop] at hfound
      split_ifs at hfound
      · split at hfound
        · cases hfound
        · rename_i found hfind
          rcases ih hfound with heq | hother
          · exact .inr ⟨_, hfind.trans heq⟩
          · exact .inr hother
      · split at hfound
        · exact .inl hfound
        · exact ih hfound
      · exact ih hfound

/-- A client is moved to another stream. -/
theorem moveMember_roster {opened : Option Nat} {s s₁ s' : Server n} {client : ClientRecord}
    {i j : Fin (n + 1)} {k : Nat} (hinv : RegistryInv s) (hclient : s.clientAt i k = some client)
    (hne : i ≠ j) (hadd : streamClientAdd opened s j client = .ok s₁)
    (hremove : streamClientRemove s₁ i k = .ok s') :
    HandleInv s' ∧ (∀ l, (s'.streams l).initialized = (s.streams l).initialized) ∧
      roster s' = (roster s).move i j client.id client.purgeTask := by
  have hmade := hinv.handles.purge i client (List.mem_of_getElem? hclient)
  have hadded := streamClientAdd_spec hinv.handles hmade hadd
  have hremoved := streamClientRemove_spec hadded.handles hremove
  have hstays : s₁.clients i = s.clients i := by
    rw [hadded.clients, Server.setClients_clients, Function.update_of_ne hne]
  refine ⟨hremoved.handles, fun l => ?_, ?_⟩
  · rw [hremoved.streams l]
    refine (initialized_setClients s₁ i l ((s₁.clients i).eraseIdx k)).trans ?_
    rw [hadded.streams l]
    exact initialized_setClients s j l _
  · rw [roster_pipeFrame hremoved]
    refine congrArg₂ Roster.mk ?_ ?_
    · refine (members_setClients s₁ i ((s₁.clients i).eraseIdx k)).trans ?_
      rw [hstays, eraseIdx_key hinv.inOrder hclient, roster_pipeFrame hadded, members_setClients,
        List.map_append]
      rfl
    · have htimers := congrArg Roster.timers (roster_pipeFrame hadded)
      exact htimers

theorem moveMember_spec {opened : Option Nat} {s s₁ s' : Server n} {client : ClientRecord}
    {i j : Fin (n + 1)} {k : Nat} (hinv : RegistryInv s) (hclient : s.clientAt i k = some client)
    (hne : i ≠ j) (hadd : streamClientAdd opened s j client = .ok s₁)
    (hremove : streamClientRemove s₁ i k = .ok s') : RegistrySteps s s' := by
  obtain ⟨hhandles, hinit, hroster⟩ := moveMember_roster hinv hclient hne hadd hremove
  refine ⟨hhandles, ?_, unstarted_of_eraseIdx hinv hclient hinit⟩
  rw [hroster]
  exact .single (.move (mem_members hclient) hne)

/-- How `handle_client_setstream` ends: nothing is changed, or a client is told to stop, joins another stream
and leaves the one where it was. -/
inductive MovedClient (opened : Option Nat) (s : Server n) : Server n → Prop
  | stays : MovedClient opened s s
  | moves {client : ClientRecord} {i j : Fin (n + 1)} {k : Nat} {s₁ s' : Server n} :
      s.clientAt i k = some client → i ≠ j →
      streamClientAdd opened (intercomStopClientOf s client) j client = .ok s₁ →
      streamClientRemove s₁ i k = .ok s' → MovedClient opened s s'

theorem movedClient {opened : Option Nat} {s s' : Server n} {request : JsonrpcRequest}
    {reply : Option SetstreamReply} (hrun : handleClientSetstream opened s request = .ok (s', reply)) :
    MovedClient opened s s' := by
  unfold handleClientSetstream at hrun
  split at hrun
  · rename_i i k newstream hloop
    obtain ⟨⟨s₁, reply₁⟩, hmove, hrun⟩ := except_bind_ok hrun
    cases hrun
    rcases setstreamLoop_client (congrArg Prod.fst hloop) with hnone | ⟨id, hfind⟩
    · cases hnone
    · obtain ⟨client, hclient, rfl⟩ := findClient_some hfind
      unfold moveClient at hmove
      rw [hclient] at hmove
      dsimp only at hmove
      rw [streamFind_of_findClient hfind] at hmove
      obtain ⟨s₂, hchange, hmove⟩ := except_bind_ok hmove
      cases hmove
      unfold changeStream at hchange
      split_ifs at hchange with hchanged
      · obtain ⟨s₂, hadd, hremove⟩ := except_bind_ok hchange
        exact .moves hclient (ne_of_clientStreamIsChanged hchanged) hadd hremove
      · cases hchange
        exact .stays
  · cases hrun
    exact .stays

/-- `handle_client_setstream`. -/
theorem handleClientSetstream_spec {opened : Option Nat} {s s' : Server n} {request : JsonrpcRequest}
    {reply : Option SetstreamReply} (hinv : RegistryInv s)
    (hrun : handleClientSetstream opened s request = .ok (s', reply)) : RegistrySteps s s' := by
  cases movedClient hrun with
  | stays => exact .refl hinv
  | @moves client _ _ _ _ _ hclient hne hadd hremove =>
      have hstopped : RecordFrame s (intercomStopClientOf s client) := .send s _ _ _ _
      have hfirst := RegistrySteps.recordFrame hinv hstopped
      exact hfirst.trans (moveMember_spec (hfirst.inv hinv) hclient hne hadd hremove)

/-! ### Input pipes, tasks and runs -/

/-- Clients, pipes and purge tasks stay as they are. -/
theorem RegistrySteps.same {s s' : Server n} (hinv : RegistryInv s) (hsound : s'.tasks.Sound)
    (hhistory : s.tasks.history <+: s'.tasks.history)
    (hpurges : s'.tasks.queued.filterMap purgeOf = s.tasks.queued.filterMap purgeOf)
    (hpipe : s'.pipe = s.pipe) (hclients : s'.clients = s.clients)
    (hinit : (s'.streams 0).initialized = (s.streams 0).initialized) : RegistrySteps s s' := by
  refine ⟨hinv.handles.of hsound hhistory hpipe fun i client hclient => .inl ?_, ?_, fun hfalse => ?_⟩
  · rw [hclients] at hclient
    exact hclient
  · have hroster : roster s' = roster s := by
      rw [roster, roster, hclients, hpurges]
    rw [hroster]
  · rw [hclients]
    exact hinv.unstarted (hinit.symm.trans hfalse)

/-- The parts of a stream that the registry goes by. -/
theorem setStream_registry {s : Server n} {i : Fin (n + 1)} {stream : Stream}
    (hpipe : stream.inputpipe = s.pipe i) (hclients : stream.clients = s.clients i)
    (hinit : stream.initialized = (s.streams i).initialized) :
    (s.setStream i stream).pipe = s.pipe ∧ (s.setStream i stream).clients = s.clients ∧
      ∀ j, ((s.setStream i stream).streams j).initialized = (s.streams j).initialized := by
  refine ⟨funext fun j => ?_, funext fun j => ?_, fun j => ?_⟩
  · rcases eq_or_ne j i with rfl | hne
    · simp [Server.pipe, Server.setStream, hpipe]
    · simp [Server.pipe, Server.setStream, Function.update_of_ne hne]
  · rcases eq_or_ne j i with rfl | hne
    · simp [Server.clients, Server.setStream, hclients]
    · simp [Server.clients, Server.setStream, Function.update_of_ne hne]
  · rcases eq_or_ne j i with rfl | hne
    · simp [Server.setStream, hinit]
    · simp [Server.setStream, Function.update_of_ne hne]

theorem keepAudio_spec {s : Server n} (hinv : RegistryInv s) (clock : ServerClock) (i : Fin (n + 1))
    (assembly : Assembly) (nonce : UInt32) : RegistrySteps s (keepAudio clock s i assembly nonce) := by
  obtain ⟨hpipe, hclients, hinit⟩ := @setStream_registry n { s with tasks := (s.tasks.postTask
    clock.uptime (s.bufferms.toNat / 1000 : Nat) (s.bufferms.toNat % 1000 : Nat)
    (.removeOldAudiodata i)).2 } i (keepPacket (s.streams i) assembly nonce clock.uptime) rfl rfl rfl
  refine .same hinv (hinv.handles.sound.postTask _ _ _ _) (List.prefix_append _ _) ?_ hpipe hclients
    (hinit 0)
  change (s.tasks.queued ++ [_]).filterMap purgeOf = _
  rw [List.filterMap_append]
  exact List.append_nil _

theorem deliver_spec {clock : ServerClock} {encoded : Int × List UInt8} {s s' : Server n}
    {i : Fin (n + 1)} {restarted : Bool} (hinv : RegistryInv s)
    (hrun : deliver clock encoded s i restarted = .ok s') : RegistrySteps s s' := by
  have hstopped : RecordFrame s (if restarted then clientmgrStopClients s i else s) := by
    split_ifs
    · exact .stopClients s i
    · exact .refl s
  obtain ⟨chunk, -, hrun⟩ := except_bind_ok hrun
  cases hrun
  generalize (if restarted then clientmgrStopClients s i else s) = s₁ at hstopped ⊢
  have hfirst := RegistrySteps.recordFrame hinv hstopped
  have hencoded : PipeFrame s₁ (s₁.setPipe i { s₁.pipe i with chunk }) :=
    .updateCtx hfirst.handles s₁.interest (.inl rfl) (.inl rfl)
  have hsecond := hfirst.trans (.pipeFrame (hfirst.inv hinv) hencoded)
  generalize s₁.setPipe i { s₁.pipe i with chunk } = s₂ at hsecond ⊢
  have hthird := hsecond.trans (keepAudio_spec (hsecond.inv hinv) clock i
    (assembleAudio (fun _ => 0) s₂.bufferms (s₂.streams i).nonce (s₂.pipe i).chunk).1
    ((assembleAudio (fun _ => 0) s₂.bufferms (s₂.streams i).nonce (s₂.pipe i).chunk).2.getD
      (s₂.streams i).nonce))
  exact hthird.trans (.recordFrame (hthird.inv hinv) (.sendToClients _ i _))

theorem takeEvent_spec {s : Server n} (hinv : RegistryInv s) (fd : Nat) :
    RegistrySteps s (takeEvent s fd) :=
  .same hinv hinv.handles.sound (List.prefix_refl _) rfl rfl rfl rfl

theorem pipeInput_spec {clock : ServerClock} {input : Option (List UInt8)}
    {encoded : Int × List UInt8} {s s' : Server n} {fd : Nat} (hinv : RegistryInv s)
    (hrun : pipeInput clock input encoded s fd = .ok s') : RegistrySteps s s' := by
  unfold pipeInput at hrun
  split at hrun
  · cases hrun
    exact .refl hinv
  · rename_i i _
    obtain ⟨⟨ret, ctx, tasks⟩, hhandle, hrun⟩ := except_bind_ok hrun
    have hframe := PipeFrame.inputpipeHandle hinv.handles hhandle
    have hfirst := RegistrySteps.pipeFrame hinv hframe
    refine hfirst.trans ?_
    dsimp only at hrun
    split_ifs at hrun
    · exact .pipeFrame (hfirst.inv hinv) (.throttle hframe.handles hrun)
    · exact deliver_spec (hfirst.inv hinv) hrun
    · cases hrun
      exact .refl (hfirst.inv hinv)

theorem pipeHangup_spec {opened : Option Nat} {s s' : Server n} {fd : Nat} (hinv : RegistryInv s)
    (hrun : pipeHangup opened s fd = .ok s') : RegistrySteps s s' := by
  unfold pipeHangup at hrun
  split at hrun
  · cases hrun
    exact .refl hinv
  · obtain ⟨s₁, huninit, hresume⟩ := except_bind_ok hrun
    have hfirst := PipeFrame.inputpipeUninit hinv.handles huninit
    exact .pipeFrame hinv (hfirst.trans (.inputpipeResumeRead hfirst.handles hresume))

theorem removeOldAudiodataTask_spec {s : Server n} (hinv : RegistryInv s) (clock : ServerClock)
    (i : Fin (n + 1)) : RegistrySteps s (removeOldAudiodataTask clock s i) := by
  unfold removeOldAudiodataTask
  split_ifs
  · exact .refl hinv
  · obtain ⟨hpipe, hclients, hinit⟩ := @setStream_registry n s i { s.streams i with
      packetBuffer := removeOldPackets (timeSubMs clock.systime (.ofNat s.bufferms.toNat))
        (s.streams i).packetBuffer } rfl rfl rfl
    exact .same hinv hinv.handles.sound (List.prefix_refl _) rfl hpipe hclients (hinit 0)

theorem finish_spec {s : Server n} (hinv : RegistryInv s) :
    RegistrySteps s { s with tasks := s.tasks.finish } :=
  .same hinv hinv.handles.sound.finish (List.prefix_refl _) rfl rfl rfl rfl

/-- A task that is no purge task is taken from the queue. -/
theorem start_spec {s : Server n} (hinv : RegistryInv s) {task : Posted (ServerTask n)}
    (htask : task ∈ s.tasks.queued) (hcode : ∀ id, task.code ≠ .scheduleDeleteClient id) :
    RegistrySteps s { s with tasks := s.tasks.start task.id } := by
  have hsound := hinv.handles.sound
  refine .same hinv (hsound.start htask) (List.prefix_refl _) ?_ rfl rfl rfl
  change (s.tasks.queued.filter (·.id != task.id)).filterMap purgeOf = _
  rw [purges_filter, List.filter_eq_self]
  rintro ⟨t, id⟩ hmem
  obtain ⟨purge, hpurge, rfl, hpurgeCode⟩ := mem_timers.mp hmem
  rw [bne_iff_ne]
  intro heq
  have hmade := hsound.made purge hpurge
  rw [show purge.id = task.id from heq] at hmade
  exact hcode id (((hsound.made task htask).inj hmade).trans hpurgeCode)

/-- A purge task deletes its client. -/
theorem firePurge_spec {s s' : Server n} (hinv : RegistryInv s) {task : Posted (ServerTask n)}
    (htask : task ∈ s.tasks.queued) {id : UInt16} (hcode : task.code = .scheduleDeleteClient id)
    (hrun : clientmgrDeleteClient { s with tasks := s.tasks.start task.id } id = .ok s') :
    RegistrySteps s { s' with tasks := s'.tasks.finish } := by
  have hsound := hinv.handles.sound
  have hstarted : HandleInv { s with tasks := s.tasks.start task.id } :=
    hinv.handles.of (hsound.start htask) (List.prefix_refl _) rfl fun _ _ => .inl
  obtain ⟨i, hmember⟩ := (hinv.inOrder.matched task.id id).mp (mem_timers.mpr ⟨task, htask, rfl, hcode⟩)
  unfold clientmgrDeleteClient at hrun
  cases hfind : findClient { s with tasks := s.tasks.start task.id } id with
  | none =>
      obtain ⟨client, hclient, hkey⟩ := List.mem_map.mp hmember
      exact absurd (congrArg Prod.fst hkey) (findClient_none hfind i hclient)
  | some found =>
      obtain ⟨j, k⟩ := found
      rw [hfind] at hrun
      obtain ⟨client, hclient, rfl⟩ := findClient_some hfind
      have hmember' : client.key ∈ (roster s).members j := mem_members hclient
      -- the running task is the purge task of the record that is found
      have hpurge : client.purgeTask = task.id := hinv.inOrder.timer_unique hmember' hmember
      obtain ⟨hhandles, hinit, hroster⟩ := deleteClientInternal_spec hstarted hclient hrun
      refine ⟨⟨hhandles.sound.finish, hhandles.purge, hhandles.resume, hhandles.idle⟩, ?_,
        unstarted_of_eraseIdx hinv hclient hinit⟩
      have hremove : roster { s' with tasks := s'.tasks.finish } =
          (roster s).remove j client.id client.purgeTask := by
        change roster s' = _
        rw [hroster]
        refine congrArg₂ Roster.mk ?_ ?_
        · change Function.update (roster s).members j
            (((s.clients j).eraseIdx k).map ClientRecord.key) = _
          rw [eraseIdx_key hinv.inOrder hclient]
          rfl
        · change ((s.tasks.queued.filter (·.id != task.id)).filterMap purgeOf).filter _ = _
          rw [purges_filter, hpurge, List.filter_filter]
          simp only [Bool.and_self]
          rfl
      rw [hremove]
      exact .single (.remove hmember')

/-- `taskqueue_run`. -/
theorem fireTask_spec {clock : ServerClock} {opened : Option Nat} {s s' : Server n} {id : Nat}
    (hinv : RegistryInv s) (hrun : fireTask clock opened s id = .ok s') : RegistrySteps s s' := by
  unfold fireTask at hrun
  split at hrun
  · cases hrun
    exact .refl hinv
  · rename_i task hfind
    have htask := List.mem_of_find?_eq_some hfind
    have hid := List.find?_some hfind
    obtain rfl : task.id = id := eq_of_beq hid
    split_ifs at hrun
    · cases hrun
      exact .refl hinv
    · obtain ⟨s₁, htask', hrun⟩ := except_bind_ok hrun
      cases hrun
      cases hcode : task.code with
      | scheduleDeleteClient client =>
          rw [hcode] at htask'
          exact firePurge_spec hinv htask hcode htask'
      | inputpipeResumeRead i =>
          rw [hcode] at htask'
          have hfirst := start_spec hinv htask (by simp [hcode])
          have hsecond := hfirst.trans (.pipeFrame (hfirst.inv hinv)
            (.inputpipeResumeRead hfirst.handles htask'))
          exact hsecond.trans (finish_spec (hsecond.inv hinv))
      | setIdle i =>
          rw [hcode] at htask'
          have hfirst := start_spec hinv htask (by simp [hcode])
          have hsecond := hfirst.trans (.pipeFrame (hfirst.inv hinv)
            (.setStreamIdle hfirst.handles htask'))
          exact hsecond.trans (finish_spec (hsecond.inv hinv))
      | removeOldAudiodata i =>
          rw [hcode] at htask'
          cases htask'
          have hfirst := start_spec hinv htask (by simp [hcode])
          have hsecond := hfirst.trans (removeOldAudiodataTask_spec (hfirst.inv hinv) clock i)
          exact hsecond.trans (finish_spec (hsecond.inv hinv))

/-- What an event does to the registry. -/
theorem serverStep_spec {s s' : Server n} {event : ServerEvent} (hinv : RegistryInv s)
    (hrun : serverStep s event = .ok s') : RegistrySteps s s' := by
  cases event with
  | epollWait ready =>
      unfold serverStep at hrun
      dsimp only at hrun
      split_ifs at hrun
      · cases hrun
        exact .same hinv hinv.handles.sound (List.prefix_refl _) rfl rfl rfl rfl
      · cases hrun
        exact .refl hinv
  | pipeInput fd input encoded clock =>
      unfold serverStep at hrun
      dsimp only at hrun
      split_ifs at hrun
      · have hfirst := takeEvent_spec hinv fd
        exact hfirst.trans (pipeInput_spec (hfirst.inv hinv) hrun)
      · cases hrun
        exact .refl hinv
  | pipeHangup fd opened =>
      unfold serverStep at hrun
      dsimp only at hrun
      split_ifs at hrun
      · have hfirst := takeEvent_spec hinv fd
        exact hfirst.trans (pipeHangup_spec (hfirst.inv hinv) hrun)
      · cases hrun
        exact .refl hinv
  | hello peer clock opened => exact clientmgrRefreshClient_spec hinv hrun
  | request clientid nonce ip port =>
      cases hrun
      exact .recordFrame hinv (.answerRequest s clientid nonce ip port)
  | setStream request opened =>
      obtain ⟨⟨s₁, reply⟩, hset, hrun⟩ := except_bind_ok hrun
      cases hrun
      exact handleClientSetstream_spec hinv hset
  | setVolume request =>
      obtain ⟨⟨s₁, reply⟩, hset, hrun⟩ := except_bind_ok hrun
      cases hrun
      exact .recordFrame hinv (.setVolume hset)
  | fire id clock opened => exact fireTask_spec hinv hrun

theorem RegistryInv.fresh (bufferms : UInt16) (options : Fin (n + 1) → StreamOptions) :
    RegistryInv (freshServer bufferms options) where
  handles := ⟨.empty, fun _ _ hclient => absurd hclient List.not_mem_nil,
    fun _ _ hid => absurd hid (Option.some_ne_none _).symm,
    fun _ _ hid => absurd hid (Option.some_ne_none _).symm⟩
  inOrder := ⟨fun _ => List.nodup_nil, fun _ _ _ _ _ hmem => absurd hmem List.not_mem_nil,
    List.nodup_nil, fun _ _ => ⟨fun hmem => absurd hmem List.not_mem_nil,
      fun ⟨_, hmem⟩ => absurd hmem List.not_mem_nil⟩⟩
  unstarted := fun _ _ => rfl

/-- The registry is in order in every state that the server reaches. -/
theorem RegistryInv.run {s s' : Server n} (hinv : RegistryInv s) {events : List ServerEvent}
    (hrun : serverRun s events = .ok s') : RegistryInv s' :=
  serverRun_invariant (fun hinv _ hstep => (serverStep_spec hinv hstep).inv hinv) hinv
    (fun _ _ => trivial) hrun

/-- In every state that the server reaches, no client id occurs in two streams or twice in one, the one
queued purge task for the id of a record is the record's, and every queued purge task is that of a
record. -/
theorem registry_consistent (bufferms : UInt16) (options : Fin (n + 1) → StreamOptions)
    (events : List ServerEvent) (s : Server n)
    (hrun : serverRun (freshServer bufferms options) events = .ok s) :
    (∀ i, ((s.clients i).map ClientRecord.id).Nodup) ∧
      (∀ i j, ∀ client ∈ s.clients i, ∀ other ∈ s.clients j, client.id = other.id → i = j) ∧
      (∀ i, ∀ client ∈ s.clients i, (s.tasks.queued.filter fun task =>
        task.code == .scheduleDeleteClient client.id).map Posted.id = [client.purgeTask]) ∧
      ∀ task ∈ s.tasks.queued, ∀ id, task.code = .scheduleDeleteClient id →
        ∃ i, ∃ client ∈ s.clients i, client.id = id ∧ client.purgeTask = task.id := by
  have hinOrder := ((RegistryInv.fresh bufferms options).run hrun).inOrder
  refine ⟨fun i => ?_, fun i j client hclient other hother hid => ?_, fun i client hclient => ?_,
    fun task htask id hcode => ?_⟩
  · have hnodup := hinOrder.nodup i
    rw [roster, List.map_map] at hnodup
    exact hnodup
  · have hmember : (client.id, client.purgeTask) ∈ (roster s).members i :=
      List.mem_map_of_mem hclient
    have hmember' : (other.id, other.purgeTask) ∈ (roster s).members j :=
      List.mem_map_of_mem hother
    rw [← hid] at hmember'
    exact hinOrder.disjoint i j _ _ _ hmember hmember'
  · have hsingle := hinOrder.timer_singleton (List.mem_map_of_mem hclient)
    rw [← purges_of_client]
    exact congrArg (List.map Prod.fst) hsingle
  · obtain ⟨i, hmember⟩ :=
      (hinOrder.matched task.id id).mp (mem_timers.mpr ⟨task, htask, rfl, hcode⟩)
    obtain ⟨client, hclient, hkey⟩ := List.mem_map.mp hmember
    exact ⟨i, client, hclient, congrArg Prod.fst hkey, congrArg Prod.snd hkey⟩

/-- Streams with the names `a` and `b`. -/
def twoStreams (i : Fin 2) : StreamOptions := ⟨[97 + i.val.toUInt8], 20, 48000, 2, 2⟩

def helloFrom (id port : UInt16) (time : Int) : ServerEvent :=
  .hello ⟨⟨id, 0, 50⟩, ⟨1⟩, port⟩ ⟨⟨time, 0⟩, ⟨time, 0⟩⟩ (some (time.toNat + 3))

/-- The record of client 1 after its first HELLO, from port 100. -/
def listener (muted : Bool) : ClientRecord := ⟨⟨1⟩, 100, 1, true, ⟨1, 0⟩, 2, 0, 50, muted, 0⟩

/-- A Client.SetStream request for a client and a stream. -/
def setStreamRequest (id : Int) (stream : List UInt8) : JsonrpcRequest :=
  ⟨1, [⟨nameId, id, [], none⟩, ⟨nameStreamId, 0, stream, none⟩]⟩

/-- Clients 1 and 2 come, client 1 goes to the stream `b`, client 2 comes from another port, and client 1
is not heard of again. -/
def registryEvents : List ServerEvent :=
  [helloFrom 1 100 1, helloFrom 2 200 2, .setStream (setStreamRequest 1 [98]) (some 9),
    helloFrom 2 201 4, .fire 0 ⟨⟨8, 0⟩, ⟨8, 0⟩⟩ none]

theorem registry_consistent_purged :
    ∃ s, serverRun (freshServer 1000 twoStreams) registryEvents = .ok s ∧
      (s.clients 0).map ClientRecord.key = [(2, 2)] ∧ s.clients 1 = [] ∧
        ∀ client ∈ s.clients 0, (s.tasks.queued.filter fun task =>
          task.code == .scheduleDeleteClient client.id).map Posted.id = [client.purgeTask] := by
  obtain ⟨s, hrun, hview⟩ := except_map_ok (show (serverRun (freshServer 1000 twoStreams)
    registryEvents).map (fun s => ((s.clients 0).map ClientRecord.key, s.clients 1)) =
      .ok ([(2, 2)], []) by decide +kernel)
  obtain ⟨hfirst, hsecond⟩ := Prod.mk.inj hview
  obtain ⟨-, -, htask, -⟩ := registry_consistent 1000 twoStreams registryEvents s hrun
  exact ⟨s, hrun, hfirst, hsecond, htask 0⟩

end Snapcastc
