import Snapcastc.ServerRegistry

/-! Client.SetStream. A stream is found by a name that begins with its own, and a client is taken to be in
the stream already if the name of that begins with the one of its current stream. -/

namespace Snapcastc

variable {n : Nat}

def Server.name (s : Server n) (i : Fin (n + 1)) : List UInt8 := (s.streams i).name

/-- The last stream whose name the given one begins with. -/
def LastPrefix (s : Server n) (name : List UInt8) (i : Fin (n + 1)) : Prop :=
  s.name i <+: name ∧ ∀ j, i < j → ¬s.name j <+: name

theorem streamFindName_eq_some_iff {s : Server n} {name : List UInt8} {i : Fin (n + 1)} :
    streamFindName s name = some i ↔ LastPrefix s name i := by
  refine find?_reverse_eq_some_iff.trans (and_congr ?_ (forall₂_congr fun j _ => ?_))
  · rw [beq_iff_eq, strncmp_length_eq_zero_iff]
    rfl
  · rw [beq_eq_false_iff_ne, Ne, strncmp_length_eq_zero_iff]
    rfl

theorem streamFindName_eq_none_iff {s : Server n} {name : List UInt8} :
    streamFindName s name = none ↔ ∀ i, ¬s.name i <+: name := by
  unfold streamFindName
  rw [List.find?_eq_none]
  simp only [List.mem_reverse, List.mem_finRange, forall_const, beq_iff_eq, strncmp_length_eq_zero_iff]
  rfl

theorem clientStreamIsChanged_iff {s : Server n} {i j : Fin (n + 1)} :
    clientStreamIsChanged s i j = true ↔ ¬s.name i <+: s.name j := by
  rw [clientStreamIsChanged, bne_iff_ne, Ne, strncmp_length_eq_zero_iff]
  rfl

/-- The request asks for the stream with the name, for the client with the id. -/
structure AsksStream (request : JsonrpcRequest) (id : UInt16) (name : List UInt8) : Prop where
  hasId : ∃ p ∈ request.parameters, p.named nameId
  ids : ∀ p ∈ request.parameters, p.named nameId → p.number = id.toNat
  hasStream : ∃ p ∈ request.parameters, p.named nameStreamId
  streams : ∀ p ∈ request.parameters, p.named nameStreamId → p.string = name

def InStream (s : Server n) (i : Fin (n + 1)) (id : UInt16) : Prop :=
  ∃ client ∈ s.clients i, client.id = id

/-- What was asked for was done: the client is in the stream with the name and in no other, or stays
where it is if there is no such stream, and every other client stays where it is. -/
structure SetstreamApplied (s : Server n) (id : UInt16) (name : List UInt8) (s' : Server n) : Prop where
  moved : ∀ j, s.name j = name → ∀ i, InStream s' i id ↔ i = j
  stays : (∀ j, s.name j ≠ name) → ∀ i, InStream s' i id ↔ InStream s i id
  others : ∀ other, other ≠ id → ∀ i, InStream s' i other ↔ InStream s i other

theorem setstreamLoop_found {s : Server n} {target : Fin (n + 1) × Nat} {name : List UInt8}
    {j : Fin (n + 1)} {parameters : List Parameter} {client : Option (Fin (n + 1) × Nat)}
    {newstream : Option (Fin (n + 1))}
    (hids : ∀ p ∈ parameters, p.named nameId → findClient s (UInt16.ofInt p.number) = some target)
    (hstreams : ∀ p ∈ parameters, p.named nameStreamId → p.string = name)
    (hfind : streamFindName s name = some j)
    (hclient : client = some target ∨ ∃ p ∈ parameters, p.named nameId)
    (hnewstream : newstream = some j ∨ ∃ p ∈ parameters, p.named nameStreamId) :
    setstreamLoop s parameters client newstream = (some target, some j) := by
  induction parameters generalizing client newstream with
  | nil =>
      simp only [List.not_mem_nil, false_and, exists_false, or_false] at hclient hnewstream
      rw [setstreamLoop, hclient, hnewstream]
  | cons p parameters ih =>
      rw [List.forall_mem_cons] at hids hstreams
      simp only [List.exists_mem_cons_iff] at hclient hnewstream
      rw [setstreamLoop]
      split_ifs with hid hstream
      · rw [hids.1 hid]
        have hnot : ¬p.named nameStreamId = true := fun hstream =>
          absurd (named_head hid hstream) (by decide)
        exact ih hids.2 hstreams.2 (.inl rfl) (hnewstream.imp_right (Or.resolve_left · hnot))
      · rw [hstreams.1 hstream, hfind]
        exact ih hids.2 hstreams.2 (hclient.imp_right (Or.resolve_left · hid)) (.inl rfl)
      · exact ih hids.2 hstreams.2 (hclient.imp_right (Or.resolve_left · hid))
          (hnewstream.imp_right (Or.resolve_left · hstream))

theorem setstreamLoop_unknown {s : Server n} {target : Fin (n + 1) × Nat} {name : List UInt8}
    {parameters : List Parameter} {client : Option (Fin (n + 1) × Nat)}
    {newstream : Option (Fin (n + 1))}
    (hids : ∀ p ∈ parameters, p.named nameId → findClient s (UInt16.ofInt p.number) = some target)
    (hstreams : ∀ p ∈ parameters, p.named nameStreamId → p.string = name)
    (hfind : streamFindName s name = none) (hstream : ∃ p ∈ parameters, p.named nameStreamId) :
    (setstreamLoop s parameters client newstream).2 = none := by
  induction parameters generalizing client newstream with
  | nil =>
      obtain ⟨p, hp, -⟩ := hstream
      cases hp
  | cons p parameters ih =>
      rw [List.forall_mem_cons] at hids hstreams
      rw [List.exists_mem_cons_iff] at hstream
      rw [setstreamLoop]
      split_ifs with hid hnamed
      · rw [hids.1 hid]
        have hnot : ¬p.named nameStreamId = true := fun hnamed =>
          absurd (named_head hid hnamed) (by decide)
        exact ih hids.2 hstreams.2 (hstream.resolve_left hnot)
      · rw [hstreams.1 hnamed, hfind]
      · exact ih hids.2 hstreams.2 (hstream.resolve_left hnamed)

/-! ### Whether reading can be started and stopped -/

/-- A handle that can be dropped: it is `NULL`, or its task is queued or running. -/
def Live (tasks : TaskPool (ServerTask n)) (handle : Option Nat) : Prop :=
  ∀ id ∈ handle, tasks.running = some id ∨ tasks.isQueued id = true

theorem dropHandle_ok_iff {tasks : TaskPool (ServerTask n)} {handle : Option Nat} :
    (∃ tasks', tasks.dropHandle handle = .ok tasks') ↔ Live tasks handle := by
  cases handle with
  | none =>
      refine ⟨fun _ id hid => ?_, fun _ => ⟨tasks, rfl⟩⟩
      cases hid
  | some id =>
      unfold Live TaskPool.dropHandle TaskPool.dropTask
      dsimp only
      split_ifs with hrunning hqueued
      · simp [hrunning]
      · simp [hqueued]
      · simp [hrunning, hqueued]

/-- Dropping one handle does not matter to another. -/
theorem live_dropHandle {tasks tasks' : TaskPool (ServerTask n)} {handle other : Option Nat}
    (hsound : tasks.Sound) (hdrop : tasks.dropHandle handle = .ok tasks')
    (hother : ∀ id ∈ other, handle ≠ some id) : Live tasks' other ↔ Live tasks other := by
  cases handle with
  | none =>
      cases hdrop
      exact Iff.rfl
  | some dropped =>
      rw [TaskPool.dropTask_eq hsound hdrop]
      refine forall₂_congr fun id hid => or_congr_right ?_
      have hne : id ≠ dropped := fun heq => hother id hid (congrArg some heq.symm)
      unfold TaskPool.isQueued
      rw [List.any_filter]
      refine Bool.eq_iff_iff.mp (congrArg (List.any _) (funext fun task => ?_))
      by_cases htask : task.id = id
      · simp [htask, hne]
      · simp [htask]

/-- The client that joins is the first one, and reading starts. -/
def Starts (s : Server n) (j : Fin (n + 1)) : Prop := s.clients j = [] ∧ (s.pipe j).state = .idle

/-- The descriptor that reading would start with. -/
def startFd (s : Server n) (j : Fin (n + 1)) (opened : Option Nat) : Option Nat :=
  if (s.pipe j).initialized then some (s.pipe j).fd else opened

/-- If reading starts, the task to resume it can be dropped, and there is a descriptor that is not
watched. -/
def JoinOk (s : Server n) (j : Fin (n + 1)) (opened : Option Nat) : Prop :=
  Starts s j → Live s.tasks (s.pipe j).resumeTask ∧ ∃ fd ∈ startFd s j opened, fd ∉ s.interest

/-- Reading can be stopped: a pipe that is read from is watched, one that is throttled has a task to
resume reading, and the tasks can be dropped. -/
structure HoldOk (s : Server n) (i : Fin (n + 1)) : Prop where
  playing : (s.pipe i).state = .playing → (s.pipe i).fd ∈ s.interest
  throttle : (s.pipe i).state = .throttle →
    (s.pipe i).resumeTask ≠ none ∧ Live s.tasks (s.pipe i).resumeTask
  idle : Live s.tasks (s.pipe i).idleTask

theorem openPipe_ok_iff {opened : Option Nat} {ctx : InputpipeCtx} {fd : Nat} :
    (∃ ctx', openPipe opened ctx = .ok ctx' ∧ ctx'.fd = fd) ↔
      (if ctx.initialized then some ctx.fd else opened) = some fd := by
  unfold openPipe inputpipeInit
  split_ifs with hinit
  · refine ⟨fun ⟨ctx', hrun, hfd⟩ => ?_, fun hfd => ⟨ctx, rfl, Option.some.inj hfd⟩⟩
    cases hrun
    rw [hfd]
  · cases opened with
    | none =>
        refine ⟨fun ⟨_, hrun, _⟩ => ?_, fun hfd => ?_⟩
        · cases hrun
        · cases hfd
    | some other =>
        refine ⟨fun ⟨ctx', hrun, hfd⟩ => ?_, fun hfd => ⟨_, rfl, Option.some.inj hfd⟩⟩
        cases hrun
        exact congrArg some hfd

theorem addFd_ok {s s' : Server n} {fd : Nat} (hrun : s.addFd fd = .ok s') :
    fd ∉ s.interest ∧ s' = { s with interest := insert fd s.interest } := by
  unfold Server.addFd at hrun
  split_ifs at hrun with hmem
  exact ⟨hmem, (Except.ok.inj hrun).symm⟩

/-- What `inputpipe_resume_read` does for a stream that is listened to and not read from. -/
theorem inputpipeResumeRead_ok {opened : Option Nat} {s s' : Server n} {i : Fin (n + 1)}
    (hclients : (s.clients i).length ≠ 0) (hstate : (s.pipe i).state ≠ .playing)
    (hrun : inputpipeResumeRead opened s i = .ok s') :
    ∃ fd ∈ startFd s i opened, fd ∉ s.interest ∧ s'.interest = insert fd s.interest ∧
      s'.tasks = s.tasks := by
  unfold inputpipeResumeRead at hrun
  rw [if_pos ⟨hclients, hstate⟩] at hrun
  obtain ⟨ctx, hopen, hrun⟩ := except_bind_ok hrun
  obtain ⟨s₁, hadd, hrun⟩ := except_bind_ok hrun
  cases hrun
  obtain ⟨hfree, rfl⟩ := addFd_ok hadd
  exact ⟨ctx.fd, openPipe_ok_iff.mp ⟨ctx, hopen, rfl⟩, hfree, rfl, rfl⟩

theorem inputpipeResumeRead_returns {opened : Option Nat} {s : Server n} {i : Fin (n + 1)} {fd : Nat}
    (hfd : startFd s i opened = some fd) (hfree : fd ∉ s.interest) :
    ∃ s', inputpipeResumeRead opened s i = .ok s' := by
  unfold inputpipeResumeRead
  split_ifs
  · obtain ⟨ctx, hopen, rfl⟩ := openPipe_ok_iff.mpr hfd
    rw [hopen]
    change ∃ s', (s.addFd ctx.fd >>= fun s => _) = .ok s'
    rw [Server.addFd, if_neg hfree]
    exact ⟨_, rfl⟩
  · exact ⟨s, rfl⟩

/-- The server about to resume reading for the first client of a stream. -/
def beforeStart (s : Server n) (j : Fin (n + 1)) (client : ClientRecord)
    (tasks : TaskPool (ServerTask n)) : Server n :=
  { s.setClients j (s.clients j ++ [client]) with tasks }.setPipe j { s.pipe j with resumeTask := none }

theorem beforeStart_pipe (s : Server n) (j : Fin (n + 1)) (client : ClientRecord)
    (tasks : TaskPool (ServerTask n)) :
    (beforeStart s j client tasks).pipe j = { s.pipe j with resumeTask := none } := by
  rw [beforeStart, Server.setPipe_pipe, Function.update_self]

theorem beforeStart_clients (s : Server n) (j : Fin (n + 1)) (client : ClientRecord)
    (tasks : TaskPool (ServerTask n)) :
    ((beforeStart s j client tasks).clients j).length ≠ 0 := by
  have hclients : (beforeStart s j client tasks).clients j = s.clients j ++ [client] := by
    rw [beforeStart, Server.setPipe_clients]
    exact (congrFun (Server.setClients_clients ..) j).trans (Function.update_self ..)
  rw [hclients, List.length_append]
  exact Nat.succ_ne_zero _

theorem beforeStart_startFd (s : Server n) (j : Fin (n + 1)) (client : ClientRecord)
    (tasks : TaskPool (ServerTask n)) (opened : Option Nat) :
    startFd (beforeStart s j client tasks) j opened = startFd s j opened := by
  rw [startFd, beforeStart_pipe]
  rfl

/-- `stream_client_add`, by whether reading starts. -/
theorem streamClientAdd_eq (opened : Option Nat) (s : Server n) (j : Fin (n + 1))
    (client : ClientRecord) :
    (Starts s j → streamClientAdd opened s j client =
      s.tasks.dropHandle (s.pipe j).resumeTask >>= fun tasks =>
        inputpipeResumeRead opened (beforeStart s j client tasks) j) ∧
      (¬Starts s j → streamClientAdd opened s j client =
        .ok (s.setClients j (s.clients j ++ [client]))) := by
  have hclients : (s.setClients j (s.clients j ++ [client])).clients j = s.clients j ++ [client] := by
    rw [Server.setClients_clients, Function.update_self]
  have hpipe : (s.setClients j (s.clients j ++ [client])).pipe = s.pipe := Server.setClients_pipe ..
  have hstarts : ((s.clients j ++ [client]).length = 1 ∧ (s.pipe j).state = .idle) ↔ Starts s j := by
    rw [List.length_append, List.length_singleton, Nat.add_eq_right, List.length_eq_zero_iff]
    exact Iff.rfl
  unfold streamClientAdd startReading
  rw [hclients, hpipe]
  refine ⟨fun hstart => ?_, fun hstart => ?_⟩
  · rw [if_pos (hstarts.mpr hstart)]
    rfl
  · rw [if_neg (hstart ∘ hstarts.mp)]
    rfl

/-- Joining a stream succeeds if and only if reading can be started. -/
theorem streamClientAdd_ok_iff {opened : Option Nat} {s : Server n} {j : Fin (n + 1)}
    {client : ClientRecord} :
    (∃ s', streamClientAdd opened s j client = .ok s') ↔ JoinOk s j opened := by
  obtain ⟨hyes, hno⟩ := streamClientAdd_eq opened s j client
  by_cases hstart : Starts s j
  · rw [hyes hstart]
    constructor
    · rintro ⟨s', hrun⟩ -
      obtain ⟨tasks, hdrop, hrun⟩ := except_bind_ok hrun
      have hstate : ((beforeStart s j client tasks).pipe j).state ≠ .playing := by
        rw [beforeStart_pipe, hstart.2]
        decide
      obtain ⟨fd, hfd, hfree, -, -⟩ :=
        inputpipeResumeRead_ok (beforeStart_clients s j client tasks) hstate hrun
      rw [beforeStart_startFd] at hfd
      exact ⟨dropHandle_ok_iff.mp ⟨tasks, hdrop⟩, fd, hfd, hfree⟩
    · intro hjoin
      obtain ⟨hlive, fd, hfd, hfree⟩ := hjoin hstart
      obtain ⟨tasks, hdrop⟩ := dropHandle_ok_iff.mpr hlive
      rw [hdrop]
      exact inputpipeResumeRead_returns ((beforeStart_startFd s j client tasks opened).trans hfd) hfree
  · rw [hno hstart]
    exact ⟨fun _ h => absurd h hstart, fun _ => ⟨_, rfl⟩⟩

/-- What joining does to the descriptors and the tasks. -/
theorem streamClientAdd_fields {opened : Option Nat} {s s' : Server n} {j : Fin (n + 1)}
    {client : ClientRecord} (hrun : streamClientAdd opened s j client = .ok s') :
    (∀ fd, fd ∈ s'.interest ↔ fd ∈ s.interest ∨ Starts s j ∧ startFd s j opened = some fd) ∧
      (s'.tasks = s.tasks ∨ s.tasks.dropHandle (s.pipe j).resumeTask = .ok s'.tasks) := by
  obtain ⟨hyes, hno⟩ := streamClientAdd_eq opened s j client
  by_cases hstart : Starts s j
  · rw [hyes hstart] at hrun
    obtain ⟨tasks, hdrop, hrun⟩ := except_bind_ok hrun
    have hstate : ((beforeStart s j client tasks).pipe j).state ≠ .playing := by
      rw [beforeStart_pipe, hstart.2]
      decide
    obtain ⟨fd, hfd, -, hinterest, htasks⟩ :=
      inputpipeResumeRead_ok (beforeStart_clients s j client tasks) hstate hrun
    rw [beforeStart_startFd] at hfd
    refine ⟨fun other => ?_, .inr ?_⟩
    · rw [hinterest, Finset.mem_insert, or_comm, and_iff_right hstart, show startFd s j opened = some fd
        from hfd, Option.some_inj, eq_comm (a := other)]
      exact Iff.rfl
    · rw [htasks]
      exact hdrop
  · rw [hno hstart] at hrun
    cases hrun
    exact ⟨fun fd => (or_iff_left fun h => hstart h.1).symm, .inl rfl⟩

theorem setStreamIdle_ok_iff {s : Server n} {i : Fin (n + 1)} :
    (∃ s', setStreamIdle s i = .ok s') ↔ Live s.tasks (s.pipe i).idleTask := by
  rw [← dropHandle_ok_iff]
  unfold setStreamIdle setIdle
  cases s.tasks.dropHandle (s.pipe i).idleTask with
  | error fault =>
      refine ⟨fun ⟨_, hrun⟩ => ?_, fun ⟨_, hrun⟩ => ?_⟩
      · cases hrun
      · cases hrun
  | ok tasks => exact ⟨fun _ => ⟨tasks, rfl⟩, fun _ => ⟨_, rfl⟩⟩

/-- The task to resume reading is not the one to set the pipe idle. -/
theorem HandleInv.idle_ne_resume {s : Server n} (hhandles : HandleInv s) {i j : Fin (n + 1)} {id : Nat}
    (hid : (s.pipe i).idleTask = some id) : (s.pipe j).resumeTask ≠ some id := by
  intro hresume
  cases (hhandles.idle i id hid).inj (hhandles.resume j id hresume)

/-- Stopping to read. -/
theorem inputpipeHold_ok_iff {s : Server n} {i : Fin (n + 1)} (hhandles : HandleInv s) :
    (∃ s', inputpipeHold s i = .ok s') ↔ HoldOk s i := by
  unfold inputpipeHold stopReading
  cases hstate : (s.pipe i).state with
  | idle =>
      refine setStreamIdle_ok_iff.trans ⟨fun hidle => ⟨fun h => ?_, fun h => ?_, hidle⟩, HoldOk.idle⟩
      · exact absurd (hstate.symm.trans h) (by decide)
      · exact absurd (hstate.symm.trans h) (by decide)
  | playing =>
      dsimp only
      by_cases hwatched : (s.pipe i).fd ∈ s.interest
      · rw [Server.delFd, if_pos hwatched]
        refine setStreamIdle_ok_iff.trans ⟨fun hidle => ⟨fun _ => hwatched, fun h => ?_, hidle⟩,
          HoldOk.idle⟩
        exact absurd (hstate.symm.trans h) (by decide)
      · rw [Server.delFd, if_neg hwatched]
        refine ⟨fun ⟨_, hrun⟩ => ?_, fun hhold => absurd (hhold.playing hstate) hwatched⟩
        cases hrun
  | throttle =>
      cases htask : (s.pipe i).resumeTask with
      | none =>
          refine ⟨fun ⟨_, hrun⟩ => ?_, fun hhold => absurd htask (hhold.throttle hstate).1⟩
          cases hrun
      | some id =>
          have hother : ∀ other ∈ (s.pipe i).idleTask, some id ≠ some other := by
            intro other hidle
            rw [← htask]
            exact hhandles.idle_ne_resume hidle
          have hidle : ∀ tasks, s.tasks.dropTask id = .ok tasks →
              ((∃ s', setStreamIdle ({ s with tasks }.setPipe i { s.pipe i with resumeTask := none }) i =
                .ok s') ↔ Live s.tasks (s.pipe i).idleTask) := by
            intro tasks hdrop
            rw [setStreamIdle_ok_iff, Server.setPipe_pipe, Function.update_self]
            have hdrop' : s.tasks.dropHandle (some id) = .ok tasks := hdrop
            exact live_dropHandle hhandles.sound hdrop' hother
          constructor
          · rintro ⟨s', hrun⟩
            obtain ⟨s₁, hstop, hset⟩ := except_bind_ok hrun
            obtain ⟨tasks, hdrop, hstop⟩ := except_bind_ok hstop
            cases hstop
            refine ⟨fun h => absurd (hstate.symm.trans h) (by decide), fun _ => ⟨?_, ?_⟩,
              (hidle tasks hdrop).mp ⟨s', hset⟩⟩
            · rw [htask]
              exact Option.some_ne_none id
            · rw [htask]
              exact dropHandle_ok_iff.mp ⟨tasks, hdrop⟩
          · intro hhold
            have hlive := (hhold.throttle hstate).2
            rw [htask] at hlive
            obtain ⟨tasks, hdrop⟩ := dropHandle_ok_iff.mpr hlive
            have hdrop' : s.tasks.dropTask id = .ok tasks := hdrop
            dsimp only
            rw [hdrop']
            exact (hidle tasks hdrop').mpr hhold.idle

/-- Leaving a stream succeeds if and only if reading can be stopped, should it have to be. -/
theorem streamClientRemove_ok_iff {s : Server n} {i : Fin (n + 1)} {k : Nat} {client : ClientRecord}
    (hhandles : HandleInv s) (hclient : s.clientAt i k = some client) :
    (∃ s', streamClientRemove s i k = .ok s') ↔ ((s.clients i).length = 1 → HoldOk s i) := by
  obtain ⟨hlt, -⟩ := List.getElem?_eq_some_iff.mp hclient
  have hclients : (s.setClients i ((s.clients i).eraseIdx k)).clients i = (s.clients i).eraseIdx k := by
    rw [Server.setClients_clients, Function.update_self]
  have hlast : ((s.clients i).eraseIdx k).length = 0 ↔ (s.clients i).length = 1 := by
    rw [List.length_eraseIdx, if_pos hlt]
    omega
  have hpipe : (s.setClients i ((s.clients i).eraseIdx k)).pipe = s.pipe := Server.setClients_pipe ..
  unfold streamClientRemove
  dsimp only
  rw [hclients]
  split_ifs with hlength
  · rw [inputpipeHold_ok_iff (hhandles.eraseIdx i k), forall_prop_of_true (hlast.mp hlength)]
    constructor
    · rintro ⟨hplaying, hthrottle, hidle⟩
      rw [hpipe] at hplaying hthrottle hidle
      exact ⟨hplaying, hthrottle, hidle⟩
    · rintro ⟨hplaying, hthrottle, hidle⟩
      refine ⟨?_, ?_, ?_⟩
      · rw [hpipe]
        exact hplaying
      · rw [hpipe]
        exact hthrottle
      · rw [hpipe]
        exact hidle
  · exact ⟨fun _ h => absurd (hlast.mpr h) hlength, fun _ => ⟨_, rfl⟩⟩

/-! ### The move -/

/-- If the client is the last one of its stream, reading for that can be stopped once it has joined the
other stream. -/
def LeaveOk (s : Server n) (i j : Fin (n + 1)) (opened : Option Nat) : Prop :=
  (s.clients i).length = 1 →
    ((s.pipe i).state = .playing →
      (s.pipe i).fd ∈ s.interest ∨ Starts s j ∧ startFd s j opened = some (s.pipe i).fd) ∧
    ((s.pipe i).state = .throttle →
      (s.pipe i).resumeTask ≠ none ∧ Live s.tasks (s.pipe i).resumeTask) ∧
    Live s.tasks (s.pipe i).idleTask

/-- The handles of another stream are not touched when a client joins. -/
theorem streamClientAdd_live {opened : Option Nat} {s s' : Server n} {i j : Fin (n + 1)}
    {client : ClientRecord} (hhandles : HandleInv s) (hne : i ≠ j)
    (hrun : streamClientAdd opened s j client = .ok s') :
    (Live s'.tasks (s.pipe i).resumeTask ↔ Live s.tasks (s.pipe i).resumeTask) ∧
      (Live s'.tasks (s.pipe i).idleTask ↔ Live s.tasks (s.pipe i).idleTask) := by
  rcases (streamClientAdd_fields hrun).2 with hsame | hdrop
  · rw [hsame]
    exact ⟨Iff.rfl, Iff.rfl⟩
  · refine ⟨live_dropHandle hhandles.sound hdrop fun id hid hj => ?_,
      live_dropHandle hhandles.sound hdrop fun id hid => hhandles.idle_ne_resume hid⟩
    have hcode := (hhandles.resume i id hid).inj (hhandles.resume j id hj)
    exact hne (ServerTask.inputpipeResumeRead.inj hcode)

theorem changeStream_ok_iff {opened : Option Nat} {s : Server n} {client : ClientRecord}
    {i j : Fin (n + 1)} {k : Nat} (hhandles : HandleInv s) (hclient : s.clientAt i k = some client)
    (hchanged : clientStreamIsChanged s i j = true) :
    (∃ s', changeStream opened s client i k j = .ok s') ↔ JoinOk s j opened ∧ LeaveOk s i j opened := by
  have hne := ne_of_clientStreamIsChanged hchanged
  have hstopped : RecordFrame s (intercomStopClientOf s client) := .send s _ _ _ _
  have hhandles' := hstopped.handles hhandles
  have hmade := hhandles'.purge i client (List.mem_of_getElem? hclient)
  unfold changeStream
  rw [if_pos hchanged]
  -- what is asked of the server after joining, in terms of the server before
  have hleave : ∀ s₁, streamClientAdd opened (intercomStopClientOf s client) j client = .ok s₁ →
      ((∃ s', streamClientRemove s₁ i k = .ok s') ↔ LeaveOk s i j opened) := by
    intro s₁ hadd
    have hframe := streamClientAdd_spec hhandles' hmade hadd
    have hclients : s₁.clients i = s.clients i := by
      rw [hframe.clients, Server.setClients_clients, Function.update_of_ne hne]
      rfl
    have hpipe : s₁.pipe i = (intercomStopClientOf s client).pipe i := streamClientAdd_pipe hadd hne
    obtain ⟨hresume, hidle⟩ := streamClientAdd_live hhandles' hne hadd
    have hinterest := (streamClientAdd_fields hadd).1
    have hclient' : s₁.clientAt i k = some client := by
      rw [Server.clientAt, hclients]
      exact hclient
    rw [streamClientRemove_ok_iff hframe.handles hclient', hclients]
    refine imp_congr_right fun _ => ?_
    constructor
    · rintro ⟨hplaying, hthrottle, hid⟩
      rw [hpipe] at hplaying hthrottle hid
      exact ⟨fun h => (hinterest _).mp (hplaying h), fun h => (hthrottle h).imp_right hresume.mp,
        hidle.mp hid⟩
    · rintro ⟨hplaying, hthrottle, hid⟩
      refine ⟨?_, ?_, ?_⟩
      · rw [hpipe]
        exact fun h => (hinterest _).mpr (hplaying h)
      · rw [hpipe]
        exact fun h => (hthrottle h).imp_right hresume.mpr
      · rw [hpipe]
        exact hidle.mpr hid
  constructor
  · rintro ⟨s', hrun⟩
    obtain ⟨s₁, hadd, hremove⟩ := except_bind_ok hrun
    have hjoin : JoinOk (intercomStopClientOf s client) j opened := streamClientAdd_ok_iff.mp ⟨s₁, hadd⟩
    exact ⟨hjoin, (hleave s₁ hadd).mp ⟨s', hremove⟩⟩
  · rintro ⟨hjoin, hok⟩
    have hjoin' : JoinOk (intercomStopClientOf s client) j opened := hjoin
    obtain ⟨s₁, hadd⟩ := streamClientAdd_ok_iff.mpr hjoin'
    rw [hadd]
    exact (hleave s₁ hadd).mpr hok

theorem inStream_iff {s : Server n} {i : Fin (n + 1)} {id : UInt16} :
    InStream s i id ↔ ∃ t, (id, t) ∈ (roster s).members i := by
  constructor
  · rintro ⟨client, hclient, rfl⟩
    exact ⟨client.purgeTask, List.mem_map_of_mem hclient⟩
  · rintro ⟨t, hmem⟩
    obtain ⟨client, hclient, hkey⟩ := List.mem_map.mp hmem
    exact ⟨client, hclient, congrArg Prod.fst hkey⟩

/-- A client is in one stream. -/
theorem RegistryInv.inStream_iff_eq {s : Server n} (hreg : RegistryInv s) {i : Fin (n + 1)} {k : Nat}
    {client : ClientRecord} (hclient : s.clientAt i k = some client) (l : Fin (n + 1)) :
    InStream s l client.id ↔ l = i := by
  rw [inStream_iff]
  constructor
  · rintro ⟨t, hmem⟩
    exact hreg.inOrder.disjoint l i _ _ _ hmem (mem_members hclient)
  · rintro rfl
    exact ⟨client.purgeTask, mem_members hclient⟩

/-- Where the clients are after one was moved. -/
theorem changeStream_inStream {opened : Option Nat} {s s' : Server n} {client : ClientRecord}
    {i j : Fin (n + 1)} {k : Nat} (hreg : RegistryInv s) (hclient : s.clientAt i k = some client)
    (hchanged : clientStreamIsChanged s i j = true)
    (hrun : changeStream opened s client i k j = .ok s') :
    (∀ l, InStream s' l client.id ↔ l = j) ∧
      ∀ other, other ≠ client.id → ∀ l, InStream s' l other ↔ InStream s l other := by
  have hne := ne_of_clientStreamIsChanged hchanged
  unfold changeStream at hrun
  rw [if_pos hchanged] at hrun
  obtain ⟨s₁, hadd, hremove⟩ := except_bind_ok hrun
  have hstopped : RecordFrame s (intercomStopClientOf s client) := .send s _ _ _ _
  have hreg' := (RegistrySteps.recordFrame hreg hstopped).inv hreg
  obtain ⟨-, -, hroster⟩ := moveMember_roster hreg' hclient hne hadd hremove
  rw [roster_recordFrame hstopped] at hroster
  have hmem := hreg.inOrder.mem_move (mem_members hclient) hne
  refine ⟨fun l => ?_, fun other hother l => ?_⟩
  · rw [inStream_iff, hroster]
    constructor
    · rintro ⟨t, ht⟩
      rcases (hmem l client.id t).mp ht with ⟨-, hdiff⟩ | ⟨hl, -, -⟩
      · exact absurd rfl hdiff
      · exact hl
    · rintro rfl
      exact ⟨client.purgeTask, (hmem l client.id client.purgeTask).mpr (.inr ⟨rfl, rfl, rfl⟩)⟩
  · rw [inStream_iff, inStream_iff, hroster]
    refine exists_congr fun t => (hmem l other t).trans ?_
    simp [hother]

/-- The loop finds the client and the stream that the request asks for. -/
theorem setstreamLoop_asked {s : Server n} {request : JsonrpcRequest} {id : UInt16} {name : List UInt8}
    {target : Fin (n + 1) × Nat} {j : Fin (n + 1)} (hfind : findClient s id = some target)
    (hasks : AsksStream request id name) (hname : streamFindName s name = some j) :
    setstreamLoop s request.parameters.reverse none none = (some target, some j) := by
  have hids : ∀ p ∈ request.parameters.reverse, p.named nameId →
      findClient s (UInt16.ofInt p.number) = some target := by
    intro p hp hid
    rw [hasks.ids p (List.mem_reverse.mp hp) hid, ofInt_toNat]
    exact hfind
  refine setstreamLoop_found hids (fun p hp => hasks.streams p (List.mem_reverse.mp hp)) hname
    (.inr ?_) (.inr ?_)
  · obtain ⟨p, hp, hid⟩ := hasks.hasId
    exact ⟨p, List.mem_reverse.mpr hp, hid⟩
  · obtain ⟨p, hp, hstream⟩ := hasks.hasStream
    exact ⟨p, List.mem_reverse.mpr hp, hstream⟩

/-- What the handler comes down to once the stream was found. -/
theorem handleClientSetstream_eq {opened : Option Nat} {s : Server n} {request : JsonrpcRequest}
    {name : List UInt8} {i j : Fin (n + 1)} {k : Nat} {client : ClientRecord}
    (hfind : findClient s client.id = some (i, k)) (hclient : s.clientAt i k = some client)
    (hasks : AsksStream request client.id name) (hname : streamFindName s name = some j) :
    handleClientSetstream opened s request = (changeStream opened s client i k j).map fun s' =>
      (s', some ⟨(s'.streams j).name, ((s'.clientAt i k).getD client).id⟩) := by
  unfold handleClientSetstream moveClient
  rw [setstreamLoop_asked hfind hasks hname]
  dsimp only
  rw [hclient]
  dsimp only
  rw [streamFind_of_findClient hfind]
  dsimp only
  cases changeStream opened s client i k j with
  | error fault => rfl
  | ok s' => rfl

theorem handleClientSetstream_ok_iff {opened : Option Nat} {s s' : Server n} {request : JsonrpcRequest}
    {name : List UInt8} {i j : Fin (n + 1)} {k : Nat} {client : ClientRecord}
    (hfind : findClient s client.id = some (i, k)) (hclient : s.clientAt i k = some client)
    (hasks : AsksStream request client.id name) (hname : streamFindName s name = some j) :
    (∃ reply, handleClientSetstream opened s request = .ok (s', reply)) ↔
      changeStream opened s client i k j = .ok s' := by
  rw [handleClientSetstream_eq hfind hclient hasks hname]
  cases changeStream opened s client i k j with
  | error fault =>
      refine ⟨fun ⟨_, hrun⟩ => ?_, fun hrun => ?_⟩
      · cases hrun
      · cases hrun
  | ok s₁ =>
      refine ⟨fun ⟨_, hrun⟩ => ?_, fun hrun => ?_⟩
      · cases hrun
        rfl
      · cases hrun
        exact ⟨_, rfl⟩

theorem handleClientSetstream_unknown {opened : Option Nat} {s : Server n} {request : JsonrpcRequest}
    {name : List UInt8} {id : UInt16} {target : Fin (n + 1) × Nat}
    (hfind : findClient s id = some target) (hasks : AsksStream request id name)
    (hname : streamFindName s name = none) :
    handleClientSetstream opened s request = .ok (s, none) := by
  have hids : ∀ p ∈ request.parameters.reverse, p.named nameId →
      findClient s (UInt16.ofInt p.number) = some target := by
    intro p hp hid
    rw [hasks.ids p (List.mem_reverse.mp hp) hid, ofInt_toNat]
    exact hfind
  have hloop : (setstreamLoop s request.parameters.reverse none none).2 = none := by
    refine setstreamLoop_unknown hids (fun p hp => hasks.streams p (List.mem_reverse.mp hp)) hname ?_
    obtain ⟨p, hp, hstream⟩ := hasks.hasStream
    exact ⟨p, List.mem_reverse.mpr hp, hstream⟩
  unfold handleClientSetstream
  split
  · rename_i heq
    rw [heq] at hloop
    cases hloop
  · rfl

/-! ### The request -/

theorem LastPrefix.unique {s : Server n} {name : List UInt8} {i j : Fin (n + 1)}
    (hi : LastPrefix s name i) (hj : LastPrefix s name j) : i = j := by
  rcases lt_trichotomy i j with hlt | heq | hlt
  · exact absurd hj.1 (hi.2 j hlt)
  · exact heq
  · exact absurd hi.1 (hj.2 i hlt)

/-- The part of the main result for a stream that is taken to be the current one. -/
theorem setstreamApplied_same_iff {s : Server n} {name : List UInt8} {i j : Fin (n + 1)} {k : Nat}
    {client : ClientRecord} (hreg : RegistryInv s) (hclient : s.clientAt i k = some client)
    (hdistinct : ∀ j l, s.name j = s.name l → j = l) (hlast : LastPrefix s name j)
    (hsame : s.name i <+: s.name j) :
    SetstreamApplied s client.id name s ↔ ∀ l, s.name l = name → LastPrefix s name l ∧ i = l := by
  have hin := hreg.inStream_iff_eq hclient
  constructor
  · intro happlied l hl
    have hil : i = l := (happlied.moved l hl i).mp ((hin i).mpr rfl)
    have hinitial : s.name j <+: s.name i := by
      rw [hil, hl]
      exact hlast.1
    have hij : i = j := hdistinct i j (hsame.eq_of_length_le hinitial.length_le)
    refine ⟨?_, hil⟩
    rw [← hil, hij]
    exact hlast
  · intro hcondition
    refine ⟨fun l hl m => ?_, fun _ _ => Iff.rfl, fun _ _ _ => Iff.rfl⟩
    rw [hin m, (hcondition l hl).2]

/-- The part of the main result for a stream that is taken to be another one. -/
theorem setstreamApplied_other_iff {opened : Option Nat} {s : Server n} {name : List UInt8}
    {i j : Fin (n + 1)} {k : Nat} {client : ClientRecord} (hreg : RegistryInv s)
    (hclient : s.clientAt i k = some client) (hdistinct : ∀ j l, s.name j = s.name l → j = l)
    (hother : ¬s.name i <+: s.name j) :
    (∃ s', changeStream opened s client i k j = .ok s' ∧ SetstreamApplied s client.id name s') ↔
      s.name j = name ∧ JoinOk s j opened ∧ LeaveOk s i j opened := by
  have hchanged := clientStreamIsChanged_iff.mpr hother
  have hne : j ≠ i := by
    rintro rfl
    exact hother (List.prefix_refl _)
  constructor
  · rintro ⟨s', hrun, happlied⟩
    obtain ⟨hmoved, -⟩ := changeStream_inStream hreg hclient hchanged hrun
    refine ⟨?_, (changeStream_ok_iff hreg.handles hclient hchanged).mp ⟨s', hrun⟩⟩
    by_cases hexists : ∃ l, s.name l = name
    · obtain ⟨l, hl⟩ := hexists
      have hjl : j = l := (happlied.moved l hl j).mp ((hmoved j).mpr rfl)
      rw [hjl]
      exact hl
    · have hstays := (happlied.stays (not_exists.mp hexists) j).mp ((hmoved j).mpr rfl)
      exact absurd ((hreg.inStream_iff_eq hclient j).mp hstays) hne
  · rintro ⟨hj, hok⟩
    obtain ⟨s', hrun⟩ := (changeStream_ok_iff hreg.handles hclient hchanged).mpr hok
    obtain ⟨hmoved, hothers⟩ := changeStream_inStream hreg hclient hchanged hrun
    refine ⟨s', hrun, fun l hl m => ?_, fun hnone => absurd hj (hnone j), hothers⟩
    rw [hmoved m, hdistinct l j (hl.trans hj.symm)]

/-- After Client.SetStream the clients are where they were asked to be, if and only if
- a stream with exactly the requested name is not hidden by a later one whose name the requested one
  begins with, and the client is in it, or the requested name does not begin with the name of the
  client's stream and reading can be started and stopped as the move requires;
- where no stream has exactly that name, the last stream whose name the requested one begins with, if
  there is any, has a name that begins with the name of the client's stream. -/
theorem setstreamApplied_iff (bufferms : UInt16) (options : Fin (n + 1) → StreamOptions)
    (events : List ServerEvent) (s : Server n)
    (hrun : serverRun (freshServer bufferms options) events = .ok s) (opened : Option Nat)
    (request : JsonrpcRequest) (name : List UInt8) (i : Fin (n + 1)) (k : Nat) (client : ClientRecord)
    (hfind : findClient s client.id = some (i, k)) (hclient : s.clientAt i k = some client)
    (hasks : AsksStream request client.id name) (hdistinct : ∀ j l, s.name j = s.name l → j = l) :
    (∃ s' reply, handleClientSetstream opened s request = .ok (s', reply) ∧
        SetstreamApplied s client.id name s') ↔
      (∀ j, s.name j = name → LastPrefix s name j ∧
        (i = j ∨ ¬s.name i <+: name ∧ JoinOk s j opened ∧ LeaveOk s i j opened)) ∧
      ((∀ j, s.name j ≠ name) → ∀ j, LastPrefix s name j → s.name i <+: s.name j) := by
  have hreg := (RegistryInv.fresh bufferms options).run hrun
  cases hname : streamFindName s name with
  | none =>
      have hnone := streamFindName_eq_none_iff.mp hname
      have hnot : ∀ j, s.name j ≠ name := by
        rintro j rfl
        exact hnone j (List.prefix_refl _)
      refine ⟨fun _ => ⟨fun j hj => absurd hj (hnot j), fun _ j hj => absurd hj.1 (hnone j)⟩, fun _ => ?_⟩
      exact ⟨s, none, handleClientSetstream_unknown hfind hasks hname,
        fun j hj => absurd hj (hnot j), fun _ _ => Iff.rfl, fun _ _ _ => Iff.rfl⟩
  | some j =>
      have hlast := streamFindName_eq_some_iff.mp hname
      have hcases : (∃ s' reply, handleClientSetstream opened s request = .ok (s', reply) ∧
          SetstreamApplied s client.id name s') ↔ ∃ s', changeStream opened s client i k j = .ok s' ∧
            SetstreamApplied s client.id name s' := by
        refine exists_congr fun s' => ?_
        rw [exists_and_right, handleClientSetstream_ok_iff hfind hclient hasks hname]
      rw [hcases]
      by_cases hsame : s.name i <+: s.name j
      · -- the client stays where it is
        have hstays : changeStream opened s client i k j = .ok s := by
          unfold changeStream
          rw [if_neg (not_not.mpr hsame ∘ clientStreamIsChanged_iff.mp)]
          rfl
        simp only [hstays, Except.ok.injEq, exists_eq_left']
        rw [setstreamApplied_same_iff hreg hclient hdistinct hlast hsame]
        constructor
        · refine fun hcondition => ⟨fun l hl => ⟨(hcondition l hl).1, .inl (hcondition l hl).2⟩,
            fun _ l hl => ?_⟩
          rw [hl.unique hlast]
          exact hsame
        · rintro ⟨hcondition, -⟩ l hl
          obtain ⟨hlastl, hil | ⟨hnot, -⟩⟩ := hcondition l hl
          · exact ⟨hlastl, hil⟩
          · exact absurd (hsame.trans hlast.1) hnot
      · rw [setstreamApplied_other_iff hreg hclient hdistinct hsame]
        constructor
        · rintro ⟨rfl, hok⟩
          refine ⟨fun l hl => ?_, fun hnone => absurd rfl (hnone j)⟩
          rw [hdistinct l j hl]
          exact ⟨hlast, .inr ⟨hsame, hok⟩⟩
        · rintro ⟨hcondition, hnone⟩
          by_cases hexists : ∃ l, s.name l = name
          · obtain ⟨l, hl⟩ := hexists
            obtain ⟨hlastl, hok⟩ := hcondition l hl
            obtain rfl := hlastl.unique hlast
            rcases hok with rfl | ⟨-, hok⟩
            · exact absurd (List.prefix_refl _) hsame
            · exact ⟨hl, hok⟩
          · exact absurd (hnone (not_exists.mp hexists) j hlast) hsame

instance (s : Server n) (name : List UInt8) (i : Fin (n + 1)) : Decidable (LastPrefix s name i) :=
  inferInstanceAs (Decidable (_ ∧ _))

instance (tasks : TaskPool (ServerTask n)) (handle : Option Nat) : Decidable (Live tasks handle) :=
  inferInstanceAs (Decidable (∀ id ∈ handle, _))

instance (s : Server n) (j : Fin (n + 1)) : Decidable (Starts s j) :=
  inferInstanceAs (Decidable (_ ∧ _))

instance (s : Server n) (j : Fin (n + 1)) (opened : Option Nat) : Decidable (JoinOk s j opened) :=
  inferInstanceAs (Decidable (Starts s j → _ ∧ ∃ fd ∈ startFd s j opened, _))

instance (s : Server n) (i j : Fin (n + 1)) (opened : Option Nat) : Decidable (LeaveOk s i j opened) :=
  inferInstanceAs (Decidable (_ → _ ∧ _))

/-- The server with the streams after client 1 has come. -/
def joinedServer (options : Fin 2 → StreamOptions) : Server 1 :=
  ((serverRun (freshServer 1000 options) [helloFrom 1 100 1]).toOption).getD (freshServer 1000 options)

theorem joinedServer_run {options : Fin 2 → StreamOptions}
    (hok : (serverRun (freshServer 1000 options) [helloFrom 1 100 1]).map (fun _ => ()) = .ok ()) :
    serverRun (freshServer 1000 options) [helloFrom 1 100 1] = .ok (joinedServer options) := by
  obtain ⟨s, hrun, -⟩ := except_map_ok hok
  rw [joinedServer, hrun]
  rfl

/-- Streams with the names `a` and `ab`. -/
def nestedStreams (i : Fin 2) : StreamOptions := ⟨if i = firstStream then [97] else [97, 98], 1, 1000, 1, 1⟩

theorem setstreamApplied_second :
    ∃ s' reply, handleClientSetstream (some 9) (joinedServer twoStreams) (setStreamRequest 1 [98]) =
        .ok (s', reply) ∧
      SetstreamApplied (joinedServer twoStreams) (listener false).id [98] s' :=
  (setstreamApplied_iff 1000 twoStreams [helloFrom 1 100 1] (joinedServer twoStreams)
    (joinedServer_run (by decide +kernel)) (some 9) (setStreamRequest 1 [98]) [98] 0 0 (listener false)
    (by decide +kernel) (by decide +kernel) ⟨by decide, by decide, by decide, by decide⟩
    (by decide +kernel)).mpr (by decide +kernel)

/-- Asked for the stream `ab`, the client stays in the stream `a`. -/
theorem nestedStream_not_reached :
    serverRun (freshServer 1000 nestedStreams) [helloFrom 1 100 1] = .ok (joinedServer nestedStreams) ∧
      findClient (joinedServer nestedStreams) 1 = some (0, 0) ∧
      (∀ j l, (joinedServer nestedStreams).name j = (joinedServer nestedStreams).name l → j = l) ∧
      AsksStream (setStreamRequest 1 [97, 98]) 1 [97, 98] ∧
      ¬∃ s' reply, handleClientSetstream (some 9) (joinedServer nestedStreams)
          (setStreamRequest 1 [97, 98]) = .ok (s', reply) ∧
        SetstreamApplied (joinedServer nestedStreams) 1 [97, 98] s' := by
  refine ⟨joinedServer_run (by decide +kernel), by decide +kernel, by decide +kernel,
    ⟨by decide, by decide, by decide, by decide⟩, ?_⟩
  rintro ⟨s', reply, hrun, happlied⟩
  have hview : (handleClientSetstream (some 9) (joinedServer nestedStreams)
      (setStreamRequest 1 [97, 98])).map (fun result => result.1.clients 1) = .ok [] := by
    decide +kernel
  rw [hrun] at hview
  have hempty : s'.clients 1 = [] := Except.ok.inj hview
  have hname : (joinedServer nestedStreams).name 1 = [97, 98] := by decide +kernel
  obtain ⟨client, hclient, -⟩ := (happlied.moved 1 hname 1).mpr rfl
  rw [hempty] at hclient
  cases hclient

end Snapcastc
