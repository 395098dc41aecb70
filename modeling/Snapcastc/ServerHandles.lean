import Snapcastc.ServerLoop

/-! What the server's task handles stand for, and what starting and stopping to read from an input pipe
leaves alone: the clients, the packets that are kept, and the tasks that have nothing to do with input
pipes. -/

namespace Snapcastc

variable {n : Nat}

namespace Server

@[simp] theorem setPipe_pipe (s : Server n) (i : Fin (n + 1)) (ctx : InputpipeCtx) :
    (s.setPipe i ctx).pipe = Function.update s.pipe i ctx := by
  funext j
  rcases eq_or_ne j i with rfl | hne
  · simp [pipe, setPipe, setStream]
  · simp [pipe, setPipe, setStream, Function.update_of_ne hne]

@[simp] theorem setPipe_clients (s : Server n) (i : Fin (n + 1)) (ctx : InputpipeCtx) :
    (s.setPipe i ctx).clients = s.clients := by
  funext j
  rcases eq_or_ne j i with rfl | hne
  · simp [clients, setPipe, setStream]
  · simp [clients, setPipe, setStream, Function.update_of_ne hne]

@[simp] theorem setClients_pipe (s : Server n) (i : Fin (n + 1)) (clients : List ClientRecord) :
    (s.setClients i clients).pipe = s.pipe := by
  funext j
  rcases eq_or_ne j i with rfl | hne
  · simp [pipe, setClients, setStream]
  · simp [pipe, setClients, setStream, Function.update_of_ne hne]

@[simp] theorem setClients_clients (s : Server n) (i : Fin (n + 1)) (clients : List ClientRecord) :
    (s.setClients i clients).clients = Function.update s.clients i clients := by
  funext j
  rcases eq_or_ne j i with rfl | hne
  · simp [Server.clients, setClients, setStream]
  · simp [Server.clients, setClients, setStream, Function.update_of_ne hne]

@[simp] theorem setStream_tasks (s : Server n) (i : Fin (n + 1)) (stream : Stream) :
    (s.setStream i stream).tasks = s.tasks := rfl

@[simp] theorem setPipe_tasks (s : Server n) (i : Fin (n + 1)) (ctx : InputpipeCtx) :
    (s.setPipe i ctx).tasks = s.tasks := rfl

@[simp] theorem setClients_tasks (s : Server n) (i : Fin (n + 1)) (clients : List ClientRecord) :
    (s.setClients i clients).tasks = s.tasks := rfl

theorem setPipe_streams (s : Server n) (i j : Fin (n + 1)) (ctx : InputpipeCtx) :
    (s.setPipe i ctx).streams j =
      { s.streams j with inputpipe := (s.setPipe i ctx).pipe j } := by
  rcases eq_or_ne j i with rfl | hne
  · simp [pipe, setPipe, setStream]
  · simp [pipe, setPipe, setStream, Function.update_of_ne hne]

end Server

/-! ### Handles -/

/-- The handles that the server keeps were given out for the tasks it takes them for. -/
structure HandleInv (s : Server n) : Prop where
  sound : s.tasks.Sound
  purge : ∀ i, ∀ client ∈ s.clients i,
    s.tasks.Made client.purgeTask (.scheduleDeleteClient client.id)
  resume : ∀ i id, (s.pipe i).resumeTask = some id → s.tasks.Made id (.inputpipeResumeRead i)
  idle : ∀ i id, (s.pipe i).idleTask = some id → s.tasks.Made id (.setIdle i)

/-- The tasks that have nothing to do with input pipes. -/
def notPipeKind : ServerTask n → Bool
  | .scheduleDeleteClient _ => true
  | .inputpipeResumeRead _ => false
  | .setIdle _ => false
  | .removeOldAudiodata _ => true

/-- Only input pipes, their tasks and what is watched are changed. -/
structure PipeFrame (s s' : Server n) : Prop where
  handles : HandleInv s'
  streams : ∀ i, s'.streams i = { s.streams i with inputpipe := s'.pipe i }
  tasks : s.tasks.Frame notPipeKind s'.tasks
  pending : s'.pending = s.pending
  bufferms : s'.bufferms = s.bufferms
  sent : s'.sent = s.sent

namespace PipeFrame

variable {s s' s'' : Server n}

theorem refl (hinv : HandleInv s) : PipeFrame s s :=
  ⟨hinv, fun _ => rfl, .refl hinv.sound, rfl, rfl, rfl⟩

theorem trans (hfirst : PipeFrame s s') (hsecond : PipeFrame s' s'') : PipeFrame s s'' where
  handles := hsecond.handles
  streams := fun i => by rw [hsecond.streams i, hfirst.streams i]
  tasks := hfirst.tasks.trans hsecond.tasks
  pending := hsecond.pending.trans hfirst.pending
  bufferms := hsecond.bufferms.trans hfirst.bufferms
  sent := hsecond.sent.trans hfirst.sent

theorem clients (hframe : PipeFrame s s') : s'.clients = s.clients := by
  funext i
  rw [Server.clients, hframe.streams i]
  rfl

/-- The pipe of one stream, tasks and descriptors change. -/
theorem update (hinv : HandleInv s) {i : Fin (n + 1)} {ctx : InputpipeCtx}
    {tasks : TaskPool (ServerTask n)} (interest : Finset Nat)
    (htasks : s.tasks.Frame notPipeKind tasks)
    (hresume : ∀ id, ctx.resumeTask = some id → tasks.Made id (.inputpipeResumeRead i))
    (hidle : ∀ id, ctx.idleTask = some id → tasks.Made id (.setIdle i)) :
    PipeFrame s ({ s with tasks, interest }.setPipe i ctx) where
  handles := by
    refine ⟨htasks.sound, fun j client hclient => ?_, fun j id hid => ?_, fun j id hid => ?_⟩
    · rw [Server.setPipe_clients] at hclient
      exact (hinv.purge j client hclient).mono htasks.history
    · rw [Server.setPipe_pipe] at hid
      rcases eq_or_ne j i with rfl | hne
      · rw [Function.update_self] at hid
        exact hresume id hid
      · rw [Function.update_of_ne hne] at hid
        exact (hinv.resume j id hid).mono htasks.history
    · rw [Server.setPipe_pipe] at hid
      rcases eq_or_ne j i with rfl | hne
      · rw [Function.update_self] at hid
        exact hidle id hid
      · rw [Function.update_of_ne hne] at hid
        exact (hinv.idle j id hid).mono htasks.history
  streams := fun j => Server.setPipe_streams { s with tasks, interest } i j ctx
  tasks := htasks
  pending := rfl
  bufferms := rfl
  sent := rfl

/-- The pipe of one stream changes, and its handles stay or are forgotten. -/
theorem updateCtx (hinv : HandleInv s) {i : Fin (n + 1)} {ctx : InputpipeCtx} (interest : Finset Nat)
    (hresume : ctx.resumeTask = (s.pipe i).resumeTask ∨ ctx.resumeTask = none)
    (hidle : ctx.idleTask = (s.pipe i).idleTask ∨ ctx.idleTask = none) :
    PipeFrame s ({ s with interest }.setPipe i ctx) := by
  refine update hinv interest (.refl hinv.sound) (fun id hid => ?_) (fun id hid => ?_)
  · rcases hresume with hsame | hnone
    · exact hinv.resume i id (hsame ▸ hid)
    · rw [hnone] at hid
      cases hid
  · rcases hidle with hsame | hnone
    · exact hinv.idle i id (hsame ▸ hid)
    · rw [hnone] at hid
      cases hid

theorem withInterest (hinv : HandleInv s) (interest : Finset Nat) :
    PipeFrame s { s with interest } :=
  ⟨⟨hinv.sound, hinv.purge, hinv.resume, hinv.idle⟩, fun _ => rfl, .refl hinv.sound, rfl, rfl, rfl⟩

theorem addFd (hinv : HandleInv s) {fd : Nat} (hrun : s.addFd fd = .ok s') : PipeFrame s s' := by
  unfold Server.addFd at hrun
  split_ifs at hrun
  cases hrun
  exact withInterest hinv _

theorem delFd (hinv : HandleInv s) {fd : Nat} (hrun : s.delFd fd = .ok s') : PipeFrame s s' := by
  unfold Server.delFd at hrun
  split_ifs at hrun
  cases hrun
  exact withInterest hinv _

/-! ### Input pipes -/

theorem setStreamIdle (hinv : HandleInv s) {i : Fin (n + 1)} (hrun : setStreamIdle s i = .ok s') :
    PipeFrame s s' := by
  obtain ⟨⟨ctx, tasks⟩, hidle, hrun⟩ := except_bind_ok hrun
  cases hrun
  obtain ⟨tasks', hdrop, hidle⟩ := except_bind_ok hidle
  cases hidle
  have htasks : s.tasks.Frame notPipeKind tasks := .dropHandle hinv.sound (hinv.idle i) rfl hdrop
  refine update hinv s.interest htasks (fun id hid => ?_) (fun id hid => by cases hid)
  exact (hinv.resume i id hid).mono htasks.history

theorem stopReading (hinv : HandleInv s) {i : Fin (n + 1)} (hrun : stopReading s i = .ok s') :
    PipeFrame s s' := by
  unfold Snapcastc.stopReading at hrun
  split at hrun
  · exact delFd hinv hrun
  · split at hrun
    · cases hrun
    · rename_i task htask
      obtain ⟨tasks, hdrop, hrun⟩ := except_bind_ok hrun
      cases hrun
      have htasks : s.tasks.Frame notPipeKind tasks :=
        .dropTask hinv.sound (hinv.resume i task htask) rfl hdrop
      refine update hinv s.interest htasks (fun id hid => by cases hid) (fun id hid => ?_)
      exact (hinv.idle i id hid).mono htasks.history
  · cases hrun
    exact refl hinv

theorem inputpipeHold (hinv : HandleInv s) {i : Fin (n + 1)} (hrun : inputpipeHold s i = .ok s') :
    PipeFrame s s' := by
  obtain ⟨s₁, hstop, hidle⟩ := except_bind_ok hrun
  have hfirst := stopReading hinv hstop
  exact hfirst.trans (setStreamIdle hfirst.handles hidle)

theorem inputpipeUninit (hinv : HandleInv s) {i : Fin (n + 1)}
    (hrun : inputpipeUninit s i = .ok s') : PipeFrame s s' := by
  obtain ⟨s₁, hhold, hrun⟩ := except_bind_ok hrun
  cases hrun
  have hfirst := inputpipeHold hinv hhold
  exact hfirst.trans (updateCtx hfirst.handles _ (.inl rfl) (.inl rfl))

theorem openPipe_handles {opened : Option Nat} {ctx ctx' : InputpipeCtx}
    (hrun : openPipe opened ctx = .ok ctx') :
    ctx'.resumeTask = ctx.resumeTask ∧ ctx'.idleTask = ctx.idleTask := by
  unfold openPipe inputpipeInit at hrun
  split_ifs at hrun
  · cases hrun
    exact ⟨rfl, rfl⟩
  · cases opened with
    | none => cases hrun
    | some fd =>
        cases hrun
        exact ⟨rfl, rfl⟩

theorem addFd_pipe {fd : Nat} (hrun : s.addFd fd = .ok s') : s'.pipe = s.pipe := by
  unfold Server.addFd at hrun
  split_ifs at hrun
  cases hrun
  rfl

theorem inputpipeResumeRead (hinv : HandleInv s) {opened : Option Nat} {i : Fin (n + 1)}
    (hrun : inputpipeResumeRead opened s i = .ok s') : PipeFrame s s' := by
  unfold Snapcastc.inputpipeResumeRead at hrun
  split_ifs at hrun
  · obtain ⟨ctx, hopen, hrun⟩ := except_bind_ok hrun
    obtain ⟨s₁, hadd, hrun⟩ := except_bind_ok hrun
    cases hrun
    have hfirst := addFd hinv hadd
    refine hfirst.trans (updateCtx hfirst.handles s₁.interest (.inr rfl) (.inl ?_))
    rw [addFd_pipe hadd]
    exact (openPipe_handles hopen).2
  · cases hrun
    exact refl hinv

theorem startReading (hinv : HandleInv s) {opened : Option Nat} {i : Fin (n + 1)}
    (hrun : startReading opened s i = .ok s') : PipeFrame s s' := by
  unfold Snapcastc.startReading at hrun
  split_ifs at hrun
  · obtain ⟨tasks, hdrop, hrun⟩ := except_bind_ok hrun
    have htasks : s.tasks.Frame notPipeKind tasks :=
      .dropHandle hinv.sound (hinv.resume i) rfl hdrop
    have hfirst : PipeFrame s ({ s with tasks }.setPipe i { s.pipe i with resumeTask := none }) :=
      update hinv s.interest htasks (fun id hid => by cases hid)
        (fun id hid => (hinv.idle i id hid).mono htasks.history)
    exact hfirst.trans (inputpipeResumeRead hfirst.handles hrun)
  · cases hrun
    exact refl hinv

theorem readInput_handles {bufferms : UInt16} {clock : ServerClock} {i : Fin (n + 1)}
    {input : Option (List UInt8)} {ctx : InputpipeCtx} {tasks' : TaskPool (ServerTask n)}
    (hinv : HandleInv s) (hrun : readInput bufferms clock i input (s.pipe i) s.tasks = .ok (ctx, tasks')) :
    s.tasks.Frame notPipeKind tasks' ∧
      (∀ id, ctx.resumeTask = some id → tasks'.Made id (.inputpipeResumeRead i)) ∧
        ∀ id, ctx.idleTask = some id → tasks'.Made id (.setIdle i) := by
  unfold readInput at hrun
  split at hrun
  · cases hrun
    exact ⟨.refl hinv.sound, hinv.resume i, hinv.idle i⟩
  · cases hrun
    exact ⟨.refl hinv.sound, hinv.resume i, hinv.idle i⟩
  · split_ifs at hrun
    · cases hrun
      have htasks : s.tasks.Frame notPipeKind (s.tasks.postTask clock.uptime bufferms.toNat
          (bufferms.toNat % 1000 : Nat) (.setIdle i)).2 := .postTask hinv.sound _ _ _ rfl
      refine ⟨htasks, fun id hid => (hinv.resume i id hid).mono htasks.history, fun id hid => ?_⟩
      rw [← Option.some.inj hid]
      exact TaskPool.postTask_made hinv.sound _ _ _ _
    · obtain ⟨rescheduled, hreschedule, hrun⟩ := except_bind_ok hrun
      cases hrun
      have htasks : s.tasks.Frame notPipeKind tasks' :=
        .rescheduleTask hinv.sound (hinv.idle i) rfl hreschedule
      exact ⟨htasks, fun id hid => (hinv.resume i id hid).mono htasks.history,
        fun id hid => (hinv.idle i id hid).mono htasks.history⟩

theorem finishChunk_handles (clock : ServerClock) (ctx : InputpipeCtx) :
    (finishChunk clock ctx).2.resumeTask = ctx.resumeTask ∧
      (finishChunk clock ctx).2.idleTask = ctx.idleTask := by
  unfold finishChunk
  dsimp only
  split_ifs
  · exact ⟨rfl, rfl⟩
  · exact ⟨rfl, rfl⟩
  · exact ⟨rfl, rfl⟩

/-- What `inputpipe_handle` changes. -/
theorem inputpipeHandle {bufferms : UInt16} {clock : ServerClock} {i : Fin (n + 1)}
    {input : Option (List UInt8)} {ret : Int} {ctx : InputpipeCtx} {tasks : TaskPool (ServerTask n)}
    (hinv : HandleInv s)
    (hrun : inputpipeHandle bufferms clock i input (s.pipe i) s.tasks = .ok (ret, ctx, tasks)) :
    PipeFrame s ({ s with tasks }.setPipe i ctx) := by
  unfold Snapcastc.inputpipeHandle at hrun
  split_ifs at hrun
  · cases hrun
    exact updateCtx hinv s.interest (.inl rfl) (.inl rfl)
  · obtain ⟨⟨ctx', tasks'⟩, hread, hrun⟩ := except_bind_ok hrun
    cases hrun
    obtain ⟨htasks, hresume, hidle⟩ := readInput_handles hinv hread
    obtain ⟨hresume', hidle'⟩ := finishChunk_handles clock ctx'
    refine update hinv s.interest htasks (fun id hid => hresume id ?_) (fun id hid => hidle id ?_)
    · rw [← hresume']
      exact hid
    · rw [← hidle']
      exact hid

theorem throttle (hinv : HandleInv s) {clock : ServerClock} {i : Fin (n + 1)} {fd : Nat}
    (hrun : throttle clock s i fd = .ok s') : PipeFrame s s' := by
  obtain ⟨s₁, hdel, hrun⟩ := except_bind_ok hrun
  cases hrun
  have hfirst := delFd hinv hdel
  have hsound := hfirst.handles.sound
  refine hfirst.trans (update hfirst.handles s₁.interest (.postTask hsound _ _ _ rfl)
    (fun id hid => ?_) (fun id hid => ?_))
  · rw [← Option.some.inj hid]
    exact TaskPool.postTask_made hsound _ _ _ _
  · exact (hfirst.handles.idle i id hid).mono (List.prefix_append _ _)

end PipeFrame

/-! ### Records -/

/-- What the client manager goes by: the id of a client, and its purge task. -/
def ClientRecord.key (client : ClientRecord) : UInt16 × Nat := (client.id, client.purgeTask)

/-- Only datagrams are sent and records are changed, but for the ids and the purge tasks. -/
structure RecordFrame (s s' : Server n) : Prop where
  keys : ∀ i, (s'.clients i).map ClientRecord.key = (s.clients i).map ClientRecord.key
  streams : ∀ i, s'.streams i = { s.streams i with clients := s'.clients i }
  tasks : s'.tasks = s.tasks
  interest : s'.interest = s.interest
  pending : s'.pending = s.pending
  bufferms : s'.bufferms = s.bufferms

/-- What `clientmgr_client_setmute` does after it has set the flag of the record: it stops a client that is
muted, and sends the stored chunks to one that was muted before. -/
theorem clientmgrClientSetmute_cases {s s' : Server n} {i : Fin (n + 1)} {k : Nat} {mute : Bool}
    (hrun : clientmgrClientSetmute s i k mute = .ok s') :
    ∃ client, s.clientAt i k = some client ∧
      (mute = true ∧ s' = intercomStopClientOf (s.setClient i k { client with muted := mute })
          { client with muted := mute } ∨
        mute = false ∧ clientmgrSendAudioBufferToClient (s.setClient i k { client with muted := mute })
          { client with muted := mute } = .ok s' ∨
        s' = s.setClient i k { client with muted := mute }) := by
  unfold clientmgrClientSetmute at hrun
  cases hclient : s.clientAt i k with
  | none =>
      rw [hclient] at hrun
      cases hrun
  | some client =>
      rw [hclient] at hrun
      dsimp only at hrun
      refine ⟨client, rfl, ?_⟩
      split_ifs at hrun with hmute
      · cases hrun
        exact .inl ⟨hmute, rfl⟩
      · exact .inr (.inl ⟨Bool.eq_false_iff.mpr hmute, hrun⟩)
      · cases hrun
        exact .inr (.inr rfl)

namespace RecordFrame

variable {s s' s'' : Server n}

theorem refl (s : Server n) : RecordFrame s s := ⟨fun _ => rfl, fun _ => rfl, rfl, rfl, rfl, rfl⟩

theorem trans (hfirst : RecordFrame s s') (hsecond : RecordFrame s' s'') : RecordFrame s s'' where
  keys := fun i => (hsecond.keys i).trans (hfirst.keys i)
  streams := fun i => by rw [hsecond.streams i, hfirst.streams i]
  tasks := hsecond.tasks.trans hfirst.tasks
  interest := hsecond.interest.trans hfirst.interest
  pending := hsecond.pending.trans hfirst.pending
  bufferms := hsecond.bufferms.trans hfirst.bufferms

theorem pipe (hframe : RecordFrame s s') : s'.pipe = s.pipe := by
  funext i
  rw [Server.pipe, hframe.streams i]
  rfl

theorem length (hframe : RecordFrame s s') (i : Fin (n + 1)) :
    (s'.clients i).length = (s.clients i).length := by
  have hlength := congrArg List.length (hframe.keys i)
  rwa [List.length_map, List.length_map] at hlength

theorem getClient (hframe : RecordFrame s s') (i : Fin (n + 1)) (id : UInt16) :
    getClient (s'.streams i) id = getClient (s.streams i) id := by
  have hkeys : ∀ s : Server n, Snapcastc.getClient (s.streams i) id =
      ((s.clients i).map ClientRecord.key).findIdx? fun key => key.1 == id := by
    intro s
    rw [List.findIdx?_map]
    rfl
  rw [hkeys, hkeys, hframe.keys i]

theorem streamFind (hframe : RecordFrame s s') (id : UInt16) : streamFind s' id = streamFind s id := by
  unfold Snapcastc.streamFind
  refine congrArg (List.find? · _) (funext fun i => ?_)
  rw [hframe.getClient i id]

theorem handles (hframe : RecordFrame s s') (hinv : HandleInv s) : HandleInv s' where
  sound := by
    rw [hframe.tasks]
    exact hinv.sound
  purge := fun i client hclient => by
    have hkey : client.key ∈ (s.clients i).map ClientRecord.key := by
      rw [← hframe.keys i]
      exact List.mem_map_of_mem hclient
    obtain ⟨old, hold, hsame⟩ := List.mem_map.mp hkey
    obtain ⟨hid, htask⟩ := Prod.mk.inj hsame
    rw [hframe.tasks, ← hid, ← htask]
    exact hinv.purge i old hold
  resume := by
    rw [hframe.pipe, hframe.tasks]
    exact hinv.resume
  idle := by
    rw [hframe.pipe, hframe.tasks]
    exact hinv.idle

theorem send (s : Server n) (recipient : In6Addr) (packet : Nat → UInt8) (packetLen : Nat)
    (port : UInt16) : RecordFrame s (intercomSendPacketUnicast s recipient packet packetLen port) :=
  ⟨fun _ => rfl, fun _ => rfl, rfl, rfl, rfl, rfl⟩

/-- A loop that sends. -/
theorem foldl {α : Type} {f : Server n → α → Server n} (hstep : ∀ s a, RecordFrame s (f s a))
    (s : Server n) (entries : List α) : RecordFrame s (entries.foldl f s) := by
  induction entries generalizing s with
  | nil => exact refl s
  | cons entry entries ih => exact (hstep s entry).trans (ih (f s entry))

theorem sendAudioBuffer {client : ClientRecord}
    (hrun : clientmgrSendAudioBufferToClient s client = .ok s') : RecordFrame s s' := by
  unfold clientmgrSendAudioBufferToClient at hrun
  split at hrun
  · cases hrun
  · cases hrun
    exact foldl (fun s _ => send s _ _ _ _) s _

theorem stopClients (s : Server n) (i : Fin (n + 1)) : RecordFrame s (clientmgrStopClients s i) :=
  foldl (fun s _ => send s _ _ _ _) s _

theorem sendToClients (s : Server n) (i : Fin (n + 1)) (assembly : Assembly) :
    RecordFrame s (sendToClients s i assembly) := by
  refine foldl (fun s client => ?_) s _
  split_ifs
  · exact refl s
  · exact send s _ _ _ _

/-- A record is replaced by one with the same key. -/
theorem setClient {i : Fin (n + 1)} {k : Nat} {client client' : ClientRecord}
    (hclient : s.clientAt i k = some client) (hkey : client'.key = client.key) :
    RecordFrame s (s.setClient i k client') where
  keys := fun j => by
    rw [Server.setClient, Server.setClients_clients]
    rcases eq_or_ne j i with rfl | hne
    · rw [Function.update_self, List.map_set, hkey]
      obtain ⟨hlt, hget⟩ := List.getElem?_eq_some_iff.mp hclient
      have hlt' : k < ((s.clients j).map ClientRecord.key).length := by rwa [List.length_map]
      have hsame := List.set_getElem_self hlt'
      rw [List.getElem_map, hget] at hsame
      exact hsame
    · rw [Function.update_of_ne hne]
  streams := fun j => by
    rw [Server.setClient, Server.setClients_clients]
    rcases eq_or_ne j i with rfl | hne
    · simp [Server.setClients, Server.setStream]
    · simp [Server.setClients, Server.setStream, Server.clients, Function.update_of_ne hne]
  tasks := rfl
  interest := rfl
  pending := rfl
  bufferms := rfl

/-- The record at a position keeps its key. -/
theorem clientAt (hframe : RecordFrame s s') {i : Fin (n + 1)} {k : Nat} {client : ClientRecord}
    (hclient : s.clientAt i k = some client) :
    ∃ client', s'.clientAt i k = some client' ∧ client'.key = client.key := by
  have hkey : ((s'.clients i).map ClientRecord.key)[k]? = some client.key := by
    rw [hframe.keys i, List.getElem?_map]
    exact congrArg (Option.map ClientRecord.key) hclient
  rw [List.getElem?_map] at hkey
  exact Option.map_eq_some_iff.mp hkey

theorem greetClient {peer : Peer} (hrun : greetClient s peer = .ok s') : RecordFrame s s' := by
  unfold Snapcastc.greetClient at hrun
  split at hrun
  · cases hrun
  · rename_i k _
    split at hrun
    · cases hrun
    · rename_i existing hclient
      obtain ⟨s₁, hsend, hrun⟩ := except_bind_ok hrun
      cases hrun
      have hset : RecordFrame s (s.setClient 0 k { existing with
          volumePercent := peer.hello.volumePercent }) := setClient hclient rfl
      have hsent := hset.trans (sendAudioBuffer hsend)
      obtain ⟨client', hclient', hkey⟩ := hsent.clientAt hclient
      exact hsent.trans (setClient hclient' hkey.symm)

theorem noteSeen (clock : ServerClock) (s : Server n) (i : Fin (n + 1)) (k : Nat) (peer : Peer) :
    RecordFrame s (noteSeen clock s i k peer) := by
  unfold Snapcastc.noteSeen
  cases hclient : s.clientAt i k with
  | none => exact refl s
  | some existing =>
      have hset : RecordFrame s (s.setClient i k { existing with
          connected := true, lastseen := clock.systime, latency := peer.hello.latency }) :=
        setClient hclient rfl
      dsimp only
      split_ifs
      · exact hset
      · exact hset.trans (send _ _ _ _ _)

theorem setmute {i : Fin (n + 1)} {k : Nat} {mute : Bool}
    (hrun : clientmgrClientSetmute s i k mute = .ok s') : RecordFrame s s' := by
  obtain ⟨client, hclient, hcases⟩ := clientmgrClientSetmute_cases hrun
  have hset : RecordFrame s (s.setClient i k { client with muted := mute }) := setClient hclient rfl
  rcases hcases with ⟨-, rfl⟩ | ⟨-, hsend⟩ | rfl
  · exact hset.trans (send _ _ _ _ _)
  · exact hset.trans (sendAudioBuffer hsend)
  · exact hset

theorem applyVolume {i : Fin (n + 1)} {k : Nat} {volume : Option Int}
    (hrun : applyVolume s i k volume = .ok s') : RecordFrame s s' := by
  cases volume with
  | none =>
      cases hrun
      exact refl s
  | some volume =>
      unfold Snapcastc.applyVolume at hrun
      cases hclient : s.clientAt i k with
      | none =>
          rw [hclient] at hrun
          cases hrun
      | some client =>
          rw [hclient] at hrun
          cases hrun
          have hsend := send s client.ip (intercomSetVolume (fun _ => 0) (UInt8.ofInt volume)).packet
            (intercomSetVolume (fun _ => 0) (UInt8.ofInt volume)).packetLen client.port
          exact hsend.trans (setClient hclient rfl)

theorem applyMute {i : Fin (n + 1)} {k : Nat} {mute : Option Bool}
    (hrun : applyMute s i k mute = .ok s') : RecordFrame s s' := by
  cases mute with
  | none =>
      cases hrun
      exact refl s
  | some mute => exact setmute hrun

theorem setVolume {request : JsonrpcRequest} {reply : Option VolumeReply}
    (hrun : handleClientSetvolume s request = .ok (s', reply)) : RecordFrame s s' := by
  obtain ⟨⟨found, jump⟩, -, hrun⟩ := except_bind_ok hrun
  obtain ⟨s₁, happly, hrun⟩ := except_bind_ok hrun
  cases hrun
  cases jump with
  | reply =>
      cases happly
      exact refl s
  | apply =>
      unfold applySetvolume at happly
      dsimp only at happly
      split at happly
      · cases happly
        exact refl s
      · obtain ⟨s₁, hvolume, hmute⟩ := except_bind_ok happly
        exact (applyVolume hvolume).trans (applyMute hmute)

theorem answerRequest (s : Server n) (clientid : UInt16) (nonce : UInt32) (peer : In6Addr)
    (port : UInt16) : RecordFrame s (answerRequest s clientid nonce peer port) := by
  unfold Snapcastc.answerRequest
  split
  · exact refl s
  · split
    · exact refl s
    · exact send s _ _ _ _

end RecordFrame

end Snapcastc
