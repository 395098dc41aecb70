import Snapcastc.ClientHandles

/-! How often the client asks for a missing packet: every request task that finds the packet still missing
posts the next one, with one retry less. -/

namespace Snapcastc

open Calls

/-- The tasks that ask for a packet. -/
def isRequest : ClientTask → Bool
  | .request _ _ => true
  | _ => false

/-- One execution of a request task: when it was due and when it was executed, whether the packet was
registered as missing, whether a request was sent, and whether the packet is still registered afterwards. -/
structure RequestExecution where
  due : Timespec
  executed : Timespec
  registered : Bool
  sent : Bool
  left : Bool
  deriving DecidableEq

/-- The tasks that follow from one request task: the handle of the one that is queued, unless they have
come to an end, and the executions so far. -/
structure RequestChain where
  handle : Option Nat
  executions : List RequestExecution
  deriving DecidableEq

/-- `taskqueue_run` executes the task of a chain at the client `s`. -/
def RequestChain.execute (chain : RequestChain) (clock : ClientClock) (s : Client)
    (task : Posted ClientTask) : RequestChain :=
  match task.code with
  | .request seqno retriesLeft =>
      let (s', asked) := requestTask clock s seqno retriesLeft
      { handle := asked.map fun _ => s.tasks.fresh
        executions := chain.executions ++ [{
          due := task.due
          executed := clock.uptime
          registered := alreadyRequesting s seqno
          sent := asked.isSome
          left := alreadyRequesting s' seqno }] }
  | _ => chain

def RequestChain.follow (chain : RequestChain) (p : ClientProcess) : ProcessEvent → RequestChain
  | .fire id _ _ clock =>
      if p.exited ∨ chain.handle ≠ some id then chain
      else
        match p.client.tasks.queued.find? (·.id == id) with
        | none => chain
        | some task =>
            if timespecCmp task.due clock.uptime > 0 then chain
            else chain.execute clock { p.client with tasks := p.client.tasks.start id } task
  | _ => chain

def chainRun (env : ClientEnv) : ClientProcess → RequestChain → List ProcessEvent →
    Except Fault (ClientProcess × RequestChain)
  | p, chain, [] => pure (p, chain)
  | p, chain, event :: events => do
      let p' ← processStep env p event
      chainRun env p' (chain.follow p event) events

/-- When the next task of a chain is due that began with a task due at `due`. -/
def nextDue (due : Timespec) (executions : List RequestExecution) : Timespec :=
  match executions.getLast? with
  | none => due
  | some last => settime last.executed 0 requestRetryIntervalMs.toNat

/-- Each task was due `REQUEST_RETRY_INTERVAL_MS` after the one before was executed, the first one at `due`,
and none was executed before it was due. -/
def Spaced : Timespec → List RequestExecution → Prop
  | _, [] => True
  | due, execution :: rest => execution.due = due ∧ timespecCmp execution.due execution.executed ≤ 0 ∧
      Spaced (settime execution.executed 0 requestRetryIntervalMs.toNat) rest

/-- What is to hold of the requests for a packet: they are sent `REQUEST_RETRY_INTERVAL_MS` apart until the
packet is no longer missing; when it stays missing, there are as many as fit into `bufferms`, and then the
packet is removed. -/
structure RequestChain.KeepsBudget (chain : RequestChain) (bufferms : UInt16) (due : Timespec)
    (p : ClientProcess) : Prop where
  spaced : Spaced due chain.executions
  goesOn : ∀ id, chain.handle = some id → ∃ task ∈ p.client.tasks.queued, task.id = id ∧
    isRequest task.code = true ∧ task.due = nextDue due chain.executions
  served : ∀ earlier execution later, chain.executions = earlier ++ execution :: later →
    execution.registered = false → ∀ other ∈ execution :: later, other.sent = false
  budget : chain.handle = none → (∀ execution ∈ chain.executions, execution.registered = true) →
    chain.executions.countP RequestExecution.sent =
        bufferms.toNat / requestRetryIntervalMs.toNat ∧
      ∀ last, chain.executions.getLast? = some last → last.left = false

theorem spaced_append {due : Timespec} {executions : List RequestExecution} {execution : RequestExecution}
    (hspaced : Spaced due executions) (hdue : execution.due = nextDue due executions)
    (hlate : timespecCmp execution.due execution.executed ≤ 0) : Spaced due (executions ++ [execution]) := by
  induction executions generalizing due with
  | nil => exact ⟨hdue, hlate, trivial⟩
  | cons first rest ih =>
      obtain ⟨hfirst, hfirstLate, hrest⟩ := hspaced
      refine ⟨hfirst, hfirstLate, ih hrest ?_⟩
      rw [hdue, nextDue, nextDue, List.getLast?_cons]
      cases rest.getLast? with
      | none => rfl
      | some last => rfl

/-- Every request task stays queued, and no number is registered twice. -/
structure RequestsKept (s s' : Client) : Prop where
  kept : ∀ task ∈ s.tasks.queued, isRequest task.code = true → task ∈ s'.tasks.queued
  nodup : s.missingPackets.Nodup → s'.missingPackets.Nodup

namespace RequestsKept

variable {s s' s'' : Client}

theorem refl (s : Client) : RequestsKept s s := ⟨fun _ htask _ => htask, id⟩

theorem trans (hfirst : RequestsKept s s') (hsecond : RequestsKept s' s'') : RequestsKept s s'' where
  kept := fun task htask hkind => hsecond.kept task (hfirst.kept task htask hkind) hkind
  nodup := fun hnodup => hsecond.nodup (hfirst.nodup hnodup)

/-- The request tasks are left alone, and numbers are only removed. -/
theorem of_frame {kind : ClientTask → Bool} (hframe : s.tasks.Frame kind s'.tasks)
    (hkind : ∀ code, isRequest code = true → kind code = true)
    (hmissing : s'.missingPackets.Sublist s.missingPackets) : RequestsKept s s' where
  kept := fun task htask hrequest => by
    have hold : task ∈ s.tasks.ofKind kind := TaskPool.mem_ofKind.mpr ⟨htask, hkind _ hrequest⟩
    rw [← hframe.kept] at hold
    exact (TaskPool.mem_ofKind.mp hold).1
  nodup := fun hnodup => hnodup.sublist hmissing

/-- The tasks are the same, and numbers are only removed. -/
theorem of_eq (htasks : s'.tasks = s.tasks) (hmissing : s'.missingPackets.Sublist s.missingPackets) :
    RequestsKept s s' where
  kept := fun _ htask _ => htasks ▸ htask
  nodup := fun hnodup => hnodup.sublist hmissing

end RequestsKept

theorem notUninit_of_request {code : ClientTask} (hcode : isRequest code = true) : notUninit code = true := by
  cases code with
  | request seqno retriesLeft => rfl
  | _ => exact absurd hcode Bool.false_ne_true

theorem notHello_of_request {code : ClientTask} (hcode : isRequest code = true) : notHello code = true := by
  cases code with
  | request seqno retriesLeft => rfl
  | _ => exact absurd hcode Bool.false_ne_true

theorem notDecode_of_request {code : ClientTask} (hcode : isRequest code = true) : notDecode code = true := by
  cases code with
  | request seqno retriesLeft => rfl
  | _ => exact absurd hcode Bool.false_ne_true

/-- `retries_left` of a new request. -/
def retryBudget (bufferms : UInt16) : UInt8 := (bufferms / requestRetryIntervalMs).toUInt8

/-- The request tasks that are added are new ones. -/
structure PostsRequests (clock : ClientClock) (s s' : Client) : Prop where
  bufferms : s'.bufferms = s.bufferms
  posted : ∀ task ∈ s'.tasks.queued, isRequest task.code = true → task ∈ s.tasks.queued ∨
    task.due = settime clock.uptime 0 0 ∧ ∃ seqno, task.code = .request seqno (retryBudget s'.bufferms)

namespace PostsRequests

variable {clock : ClientClock} {s s' s'' : Client}

theorem trans (hfirst : PostsRequests clock s s') (hsecond : PostsRequests clock s' s'') :
    PostsRequests clock s s'' where
  bufferms := hsecond.bufferms.trans hfirst.bufferms
  posted := fun task htask hkind => by
    rcases hsecond.posted task htask hkind with hold | hnew
    · rw [hsecond.bufferms]
      exact hfirst.posted task hold hkind
    · exact .inr hnew

theorem of_eq (clock : ClientClock) (htasks : s'.tasks = s.tasks) (hbufferms : s'.bufferms = s.bufferms) :
    PostsRequests clock s s' := ⟨hbufferms, fun _ htask _ => .inl (htasks ▸ htask)⟩

theorem of_frame (clock : ClientClock) {kind : ClientTask → Bool} (hframe : s.tasks.Frame kind s'.tasks)
    (hkind : ∀ code, isRequest code = true → kind code = true) (hbufferms : s'.bufferms = s.bufferms) :
    PostsRequests clock s s' where
  bufferms := hbufferms
  posted := fun task htask hrequest => by
    have hnew : task ∈ s'.tasks.ofKind kind := TaskPool.mem_ofKind.mpr ⟨htask, hkind _ hrequest⟩
    rw [hframe.kept] at hnew
    exact .inl (TaskPool.mem_ofKind.mp hnew).1

end PostsRequests

theorem requestMissing_requests (clock : ClientClock) (capacity : Nat) (s : Client) (i : Nat) :
    RequestsKept s (requestMissing clock capacity s i) ∧
      PostsRequests clock s (requestMissing clock capacity s i) := by
  unfold requestMissing
  dsimp only
  split_ifs with hthere
  · exact ⟨.refl s, .of_eq clock rfl rfl⟩
  · refine ⟨⟨fun task htask _ => List.mem_append_left _ htask, fun hnodup => ?_⟩, rfl, fun task htask _ => ?_⟩
    · have hnew : UInt32.ofNat i ∉ s.missingPackets := fun hmem => hthere (List.contains_iff_mem.mpr hmem)
      have hboth : (s.missingPackets ++ [UInt32.ofNat i]).Nodup :=
        List.Nodup.append hnodup (List.nodup_singleton _) (List.disjoint_singleton.mpr hnew)
      exact hboth.sublist (List.drop_sublist _ _)
    · rcases List.mem_append.mp htask with hold | hnew
      · exact .inl hold
      · rw [List.mem_singleton.mp hnew]
        exact .inr ⟨rfl, _, rfl⟩

theorem requestAll_requests (clock : ClientClock) (capacity : Nat) (s : Client) (numbers : List Nat) :
    RequestsKept s (numbers.foldl (requestMissing clock capacity) s) ∧
      PostsRequests clock s (numbers.foldl (requestMissing clock capacity) s) := by
  induction numbers generalizing s with
  | nil => exact ⟨.refl s, .of_eq clock rfl rfl⟩
  | cons i numbers ih =>
      obtain ⟨hkept, hposts⟩ := requestMissing_requests clock capacity s i
      obtain ⟨hkept', hposts'⟩ := ih (requestMissing clock capacity s i)
      exact ⟨hkept.trans hkept', hposts.trans hposts'⟩

theorem noteLoss_requests (clock : ClientClock) (s : Client) (buffer : ReceiveBuffer) (seqno : UInt32) :
    RequestsKept s (noteLoss clock s buffer seqno).1 ∧
      PostsRequests clock s (noteLoss clock s buffer seqno).1 := by
  have hnone : RequestsKept s s ∧ PostsRequests clock s s := ⟨.refl s, .of_eq clock rfl rfl⟩
  unfold noteLoss
  dsimp only
  split_ifs
  · exact hnone
  · exact hnone
  · exact ⟨.of_eq rfl (List.Sublist.refl _), .of_eq clock rfl rfl⟩
  · exact requestAll_requests clock _ s _

theorem storeAudio_requests (clock : ClientClock) (s : Client) (buffer : ReceiveBuffer) (seqno : UInt32)
    (chunk : PcmChunk) :
    RequestsKept s (storeAudio clock s buffer seqno chunk) ∧
      PostsRequests clock s (storeAudio clock s buffer seqno chunk) := by
  obtain ⟨hkept, hposts⟩ := noteLoss_requests clock s buffer seqno
  have hraise : ∀ s' : Client, (raiseSeqno s' seqno).tasks = s'.tasks ∧
      (raiseSeqno s' seqno).missingPackets = s'.missingPackets ∧
        (raiseSeqno s' seqno).bufferms = s'.bufferms := by
    intro s'
    unfold raiseSeqno
    split_ifs
    · exact ⟨rfl, rfl, rfl⟩
    · exact ⟨rfl, rfl, rfl⟩
  obtain ⟨htasks, hmissing, hbufferms⟩ := hraise (withReceivebuffer (noteLoss clock s buffer seqno).1
    ((noteLoss clock s buffer seqno).2.putChunk clock.later ⟨chunk, seqno⟩))
  have hsame : (withReceivebuffer (noteLoss clock s buffer seqno).1
      ((noteLoss clock s buffer seqno).2.putChunk clock.later ⟨chunk, seqno⟩)).missingPackets =
      (noteLoss clock s buffer seqno).1.missingPackets := rfl
  refine ⟨hkept.trans (.of_eq htasks ?_), hposts.trans (.of_eq clock htasks hbufferms)⟩
  rw [storeAudio]
  exact (hmissing.trans hsame) ▸ List.Sublist.refl _

theorem noteRecent_requests (clock : ClientClock) (s : Client) (hdr : IntercomPacketHdr) :
    RequestsKept s (noteRecent s hdr) ∧ PostsRequests clock s (noteRecent s hdr) := by
  unfold noteRecent
  exact ⟨.of_eq rfl (List.Sublist.refl _), .of_eq clock rfl rfl⟩

theorem removeRequest_requests (clock : ClientClock) (s : Client) (nonce : UInt32) :
    RequestsKept s (removeRequest s nonce) ∧ PostsRequests clock s (removeRequest s nonce) :=
  ⟨.of_eq rfl List.erase_sublist, .of_eq clock rfl rfl⟩

theorem ensureReceivebuffer_requests {env : ClientEnv} {s s' : Client} {serverbufferms : UInt16}
    {chunk chunk' : PcmChunk} {buffer : ReceiveBuffer}
    (hrun : ensureReceivebuffer env s serverbufferms chunk = .ok (s', chunk', buffer)) :
    RequestsKept s s' := by
  obtain ⟨⟨htasks, -⟩, -⟩ := (ensureReceivebuffer_spec env s serverbufferms chunk).of_eq hrun
  obtain ⟨hmissing, -, -⟩ := ensureReceivebuffer_record hrun
  refine .of_eq htasks ?_
  rw [hmissing]

theorem lateAudio_requests (clock : ClientClock) (s : Client) (buffer : ReceiveBuffer) (seqno : UInt32) :
    RequestsKept s (pruneMissingPackets (raiseSeqno (withReceivebuffer s buffer) seqno) seqno) ∧
      PostsRequests clock s (pruneMissingPackets (raiseSeqno (withReceivebuffer s buffer) seqno) seqno) := by
  have hprune : ∀ s' : Client, (pruneMissingPackets s' seqno).tasks = s'.tasks ∧
      (pruneMissingPackets s' seqno).missingPackets.Sublist s'.missingPackets ∧
        (pruneMissingPackets s' seqno).bufferms = s'.bufferms :=
    fun s' => ⟨rfl, List.filter_sublist, rfl⟩
  unfold raiseSeqno
  split_ifs
  · obtain ⟨htasks, hmissing, hbufferms⟩ :=
      hprune { withReceivebuffer s buffer with lastreceviedseqno := seqno.toNat }
    exact ⟨.of_eq htasks hmissing, .of_eq clock htasks hbufferms⟩
  · obtain ⟨htasks, hmissing, hbufferms⟩ := hprune (withReceivebuffer s buffer)
    exact ⟨.of_eq htasks hmissing, .of_eq clock htasks hbufferms⟩

theorem executeAll_requests (clock : ClientClock) (s : Client) (ops : List ServerOperation) :
    RequestsKept s (ops.foldl execute s) ∧ PostsRequests clock s (ops.foldl execute s) := by
  induction ops generalizing s with
  | nil => exact ⟨.refl s, .of_eq clock rfl rfl⟩
  | cons op ops ih =>
      have hfirst : RequestsKept s (execute s op) ∧ PostsRequests clock s (execute s op) := by
        cases op with
        | stop => exact ⟨.of_eq rfl (List.nil_sublist _), .of_eq clock rfl rfl⟩
        | volume percent => exact ⟨.of_eq rfl (List.Sublist.refl _), .of_eq clock rfl rfl⟩
      obtain ⟨hkept, hposts⟩ := ih (execute s op)
      exact ⟨hfirst.1.trans hkept, hfirst.2.trans hposts⟩

/-! ### Datagrams -/

/-- What is left of a datagram that the client could handle. -/
inductive DatagramHandled (env : ClientEnv) (clock : ClientClock) (s : Client) (packet : Nat → UInt8) :
    Client → Prop
  | dropped : DatagramHandled env clock s packet s
  | operations (ops : List ServerOperation) :
      DatagramHandled env clock s packet (ops.foldl execute (noteRecent s (packetHdr packet)))
  | late (s₁ : Client) (buffer : ReceiveBuffer) (chunk : PcmChunk) :
      ensureReceivebuffer env (removeRequest (noteRecent s (packetHdr packet)) (packetHdr packet).nonce)
        (audioBufferms packet) (audioChunk packet) = .ok (s₁, chunk, buffer) →
      DatagramHandled env clock s packet (pruneMissingPackets
        (raiseSeqno (withReceivebuffer s₁ buffer) (packetHdr packet).nonce) (packetHdr packet).nonce)
  | stored (s₁ s₂ : Client) (buffer : ReceiveBuffer) (chunk : PcmChunk) :
      ensureReceivebuffer env (removeRequest (noteRecent s (packetHdr packet)) (packetHdr packet).nonce)
        (audioBufferms packet) (audioChunk packet) = .ok (s₁, chunk, buffer) →
      openDevice env clock (storeAudio clock s₁ buffer (packetHdr packet).nonce chunk) chunk = .ok s₂ →
      DatagramHandled env clock s packet s₂

theorem handleAudio_handled {env : ClientEnv} {clock : ClientClock} {s : Client} {packet : Nat → UInt8}
    (hok : (intercomHandleAudio env clock (noteRecent s (packetHdr packet)) packet).fault = none) :
    DatagramHandled env clock s packet
      (intercomHandleAudio env clock (noteRecent s (packetHdr packet)) packet).state := by
  rcases handleAudio_cases env clock (noteRecent s (packetHdr packet)) packet with
    ⟨fault, -, hrun⟩ | ⟨s₁, chunk, buffer, hensure, ⟨-, hrun⟩ | ⟨-, hrun⟩⟩
  · rw [hrun] at hok
    cases hok
  · rw [hrun] at hok ⊢
    cases hopen : openDevice env clock (storeAudio clock s₁ buffer (packetHdr packet).nonce chunk)
        chunk with
    | error fault =>
        rw [hopen] at hok
        cases hok
    | ok s₂ => exact .stored s₁ s₂ buffer chunk hensure hopen
  · rw [hrun]
    exact .late s₁ buffer chunk hensure

theorem receiveDatagram_handled {env : ClientEnv} {clock : ClientClock} {p p' : ClientProcess}
    {packet : Nat → UInt8} {packetLen : Nat}
    (hrun : receiveDatagram env clock p packet packetLen = .ok p') :
    ∃ s', p' = { p with client := s' } ∧ DatagramHandled env clock p.client packet s' := by
  unfold receiveDatagram at hrun
  cases hfault : (intercomHandlePacket env clock p.client packet packetLen).fault with
  | some fault =>
      rw [hfault] at hrun
      cases hrun
  | none =>
      rw [hfault] at hrun
      refine ⟨_, (Except.ok.inj hrun).symm, ?_⟩
      unfold intercomHandlePacket at hfault ⊢
      dsimp only at hfault ⊢
      split_ifs at hfault ⊢
      · exact .dropped
      · obtain ⟨ops, hops⟩ := handleServerOperation_executes hfault
        rw [hops]
        exact .operations ops
      · exact handleAudio_handled hfault
      · exact .operations []
      · exact .dropped

theorem alsaplayerUninit_bufferms {s s' : Client} (hrun : alsaplayerUninit s = .ok s') :
    s'.bufferms = s.bufferms := by
  unfold alsaplayerUninit at hrun
  split_ifs at hrun
  · obtain ⟨tasks, -, hrun⟩ := except_bind_ok hrun
    rw [← Except.ok.inj hrun]
  · rw [← Except.ok.inj hrun]

theorem closeDevice_bufferms {s s' : Client} {chunk : PcmChunk} (hrun : closeDevice s chunk = .ok s') :
    s'.bufferms = s.bufferms := by
  unfold closeDevice at hrun
  split_ifs at hrun
  · obtain ⟨s₁, hremove, huninit⟩ := except_bind_ok hrun
    obtain ⟨tasks, -, hremove⟩ := except_bind_ok hremove
    rw [alsaplayerUninit_bufferms huninit, ← Except.ok.inj hremove]
  · rw [← Except.ok.inj hrun]

theorem openDevice_bufferms {env : ClientEnv} {clock : ClientClock} {s s' : Client} {chunk : PcmChunk}
    (hrun : openDevice env clock s chunk = .ok s') : s'.bufferms = s.bufferms := by
  obtain ⟨s₁, hclose, hrun⟩ := except_bind_ok hrun
  rw [← closeDevice_bufferms hclose]
  split_ifs at hrun
  · rw [← Except.ok.inj hrun]
  · obtain ⟨s₂, hinit, hfd⟩ := except_bind_ok hrun
    have hsame : s₂.bufferms = s₁.bufferms := by
      unfold alsaplayerInit at hinit
      dsimp only at hinit
      split_ifs at hinit <;> cases hinit
      · rfl
      · rfl
    unfold initAlsafd at hfd
    split_ifs at hfd
    rw [← Except.ok.inj hfd, hsame]

/-- The device is opened: that is not about requests. -/
theorem openDevice_requests {env : ClientEnv} {clock : ClientClock} {p : ClientProcess} {s' : Client}
    {chunk : PcmChunk} (hinv : ProcessInv p) (hrun : openDevice env clock p.client chunk = .ok s') :
    RequestsKept p.client s' ∧ PostsRequests clock p.client s' := by
  obtain ⟨hfreed, hopened⟩ := openDevice_spec env clock hinv.sound hinv.device hinv.idle chunk
  have hremovable : OtherFormat p.client.alsaplayer chunk → Removable p.client.alsaplayer := by
    by_contra hbad
    rw [hfreed hbad] at hrun
    cases hrun
  obtain ⟨hframe, -⟩ := (hopened hremovable).of_eq hrun
  have hmissing := (openDevice_sameIntercom hrun).missingPackets
  exact ⟨.of_frame hframe (fun _ => notUninit_of_request) (hmissing ▸ List.Sublist.refl _),
    .of_frame clock hframe (fun _ => notUninit_of_request) (openDevice_bufferms hrun)⟩

/-- A datagram leaves the request tasks in the queue, and those it adds may send as many requests as fit
into the buffer of the client. -/
theorem receiveDatagram_requests {env : ClientEnv} {clock : ClientClock} {p p' : ClientProcess}
    (hinv : ProcessInv p) {packet : Nat → UInt8} {packetLen : Nat}
    (hrun : receiveDatagram env clock p packet packetLen = .ok p') :
    RequestsKept p.client p'.client ∧
      ∀ task ∈ p'.client.tasks.queued, isRequest task.code = true → task ∈ p.client.tasks.queued ∨
        task.due = settime clock.uptime 0 0 ∧
          ∃ seqno, task.code = .request seqno (retryBudget p'.client.bufferms) := by
  have hnoted := noteRecent_requests clock p.client (packetHdr packet)
  have hremoved := hnoted.1.trans
    (removeRequest_requests clock (noteRecent p.client (packetHdr packet)) (packetHdr packet).nonce).1
  have hensured : ∀ {s₁ : Client} {chunk : PcmChunk} {buffer : ReceiveBuffer},
      ensureReceivebuffer env
        (removeRequest (noteRecent p.client (packetHdr packet)) (packetHdr packet).nonce)
        (audioBufferms packet) (audioChunk packet) = .ok (s₁, chunk, buffer) →
      RequestsKept p.client s₁ ∧ s₁.tasks = p.client.tasks ∧ s₁.alsaplayer = p.client.alsaplayer := by
    intro s₁ chunk buffer hensure
    obtain ⟨⟨htasks, hdevice⟩, -⟩ := (ensureReceivebuffer_spec env _ _ _).of_eq hensure
    obtain ⟨hnotedTasks, hnotedDevice⟩ := noteRecent_device p.client (packetHdr packet)
    have hsame : s₁.tasks = p.client.tasks ∧ s₁.alsaplayer = p.client.alsaplayer := by
      generalize noteRecent p.client (packetHdr packet) = noted at htasks hdevice hnotedTasks hnotedDevice
      exact ⟨htasks.trans hnotedTasks, hdevice.trans hnotedDevice⟩
    exact ⟨hremoved.trans (ensureReceivebuffer_requests hensure), hsame⟩
  obtain ⟨s', rfl, hhandled⟩ := receiveDatagram_handled hrun
  cases hhandled with
  | dropped => exact ⟨.refl _, fun _ htask _ => .inl htask⟩
  | operations ops =>
      obtain ⟨hkept, hposts⟩ := executeAll_requests clock (noteRecent p.client (packetHdr packet)) ops
      exact ⟨hnoted.1.trans hkept, (hnoted.2.trans hposts).posted⟩
  | late s₁ buffer chunk hensure =>
      obtain ⟨hbefore, htasks, -⟩ := hensured hensure
      obtain ⟨hkept, hposts⟩ := lateAudio_requests clock s₁ buffer (packetHdr packet).nonce
      refine ⟨hbefore.trans hkept, fun task htask hkind => ?_⟩
      rw [← htasks]
      exact hposts.posted task htask hkind
  | stored s₁ s₂ buffer chunk hensure hopen =>
      obtain ⟨hbefore, htasks, hdevice⟩ := hensured hensure
      obtain ⟨hkept, hposts⟩ := storeAudio_requests clock s₁ buffer (packetHdr packet).nonce chunk
      have hspared : SparesDevice p.client s₁ := .of_eq hinv.sound htasks hdevice
      have hstored := hinv.spared (hspared.trans
        (storeAudio_spares clock hspared.tasks.sound buffer (packetHdr packet).nonce chunk))
      obtain ⟨hkept', hposts'⟩ := openDevice_requests hstored hopen
      have hall : PostsRequests clock s₁ s' := hposts.trans hposts'
      refine ⟨(hbefore.trans hkept).trans hkept', fun task htask hkind => ?_⟩
      rw [← htasks]
      exact hall.posted task htask hkind

/-! ### Other events -/

theorem alsaplayerUninit_requests {s s' : Client} (hsound : s.tasks.Sound)
    (hdevice : DeviceInv s.tasks s.alsaplayer) (hrun : alsaplayerUninit s = .ok s') : RequestsKept s s' := by
  obtain ⟨s'', huninit, hframe, -⟩ := alsaplayerUninit_spec hsound hdevice
  rw [huninit] at hrun
  cases hrun
  refine .of_frame hframe (fun _ => notUninit_of_request) ?_
  rw [(alsaplayerUninit_sameIntercom huninit).missingPackets]

theorem removeDevice_requests {p : ClientProcess} (hinv : ProcessInv p) {s' : Client}
    (hrun : removeDevice p.client = .ok s') : RequestsKept p.client s' := by
  have hremovable : Removable p.client.alsaplayer := by
    by_contra hnot
    rw [removeDevice_freed hinv.sound hinv.device hinv.idle hnot] at hrun
    cases hrun
  obtain ⟨s'', hremove, hframe, -⟩ := removeDevice_spec hinv.sound hinv.device hremovable
  rw [hremove] at hrun
  cases hrun
  obtain ⟨s₁, hfirst, hsecond⟩ := except_bind_ok hremove
  refine .of_frame hframe (fun _ => notUninit_of_request) ?_
  rw [(alsaplayerUninit_sameIntercom hsecond).missingPackets,
    (alsaplayerRemoveTask_sameIntercom hfirst).missingPackets]

/-- `intercom_uninit` and then `alsaplayer_uninit`. -/
theorem closeBoth_requests {p p₁ : ClientProcess} {hello : Nat} {s' : Client}
    (hsound : p.client.tasks.Sound) (hdevice : DeviceInv p.client.tasks p.client.alsaplayer)
    (hsome : p.helloTask = some hello) (hmade : p.client.tasks.Made hello .hello)
    (hlive : p.client.tasks.running = some hello ∨ p.client.tasks.Waiting .hello hello)
    (hclose : closeIntercom p = .ok p₁) (huninit : alsaplayerUninit p₁.client = .ok s') :
    RequestsKept p.client s' := by
  obtain ⟨tasks, hrun, hframe, -⟩ := closeIntercom_spec hsound hsome hmade hlive
  rw [hrun] at hclose
  cases hclose
  have hfirst : RequestsKept p.client { intercomUninit p.client with tasks } :=
    .of_frame hframe (fun _ => notHello_of_request) (List.nil_sublist _)
  exact hfirst.trans (alsaplayerUninit_requests hframe.sound (hdevice.frame hframe rfl rfl rfl) huninit)

theorem reopenIntercom_requests {clock : ClientClock} {resolved : Bool} {p p' : ClientProcess}
    (hrun : reopenIntercom clock resolved p = .ok p') : RequestsKept p.client p'.client := by
  cases resolved with
  | false => cases hrun
  | true =>
      cases hrun
      exact ⟨fun task htask _ => List.mem_append_left _ htask, fun _ => List.nodup_nil⟩

/-- A request task is executed: the next one is added to the queue. -/
theorem requestTask_requests (clock : ClientClock) (s : Client) (seqno : UInt32) (retriesLeft : UInt8) :
    RequestsKept s (requestTask clock s seqno retriesLeft).1 := by
  unfold requestTask
  dsimp only
  split_ifs
  · exact ⟨fun task htask _ => List.mem_append_left _ htask, id⟩
  · exact .of_eq rfl (List.Sublist.refl _)
  · exact .of_eq rfl List.erase_sublist

/-- The task that is executed leaves the requests in the queue. -/
theorem runClientTask_requests {env : ClientEnv} {clock : ClientClock} {changed resolved : Bool}
    {p p' : ClientProcess} (hinv : ProcessInv p) {task : Posted ClientTask}
    (htask : task ∈ p.client.tasks.queued)
    (hrun : runClientTask env clock changed resolved (p.withTasks (p.client.tasks.start task.id))
      task.code = .ok p') :
    RequestsKept (p.withTasks (p.client.tasks.start task.id)).client p'.client := by
  have hsound := hinv.sound.start htask
  have hmade : p.client.tasks.Made task.id task.code := hinv.sound.made task htask
  have hdevice := hinv.device.start hinv.idle task.id
  have hwaiting : p.client.tasks.Waiting task.code task.id := ⟨task, htask, rfl, rfl⟩
  cases hcode : task.code with
  | hello =>
      rw [hcode] at hwaiting hmade hrun
      obtain ⟨hsome, -, -⟩ := hinv.hello.startHello hwaiting
      cases changed with
      | false =>
          cases hrun
          exact ⟨fun task htask _ => List.mem_append_left _ htask, id⟩
      | true =>
          obtain ⟨p₁, hclose, hrun⟩ := except_bind_ok hrun
          obtain ⟨s', huninit, hrun⟩ := except_bind_ok hrun
          have hclosed : RequestsKept (p.withTasks (p.client.tasks.start task.id)).client s' :=
            closeBoth_requests hsound hdevice hsome hmade (.inl rfl) hclose huninit
          exact hclosed.trans (reopenIntercom_requests hrun)
  | request seqno retriesLeft =>
      rw [hcode] at hrun
      cases hrun
      exact requestTask_requests clock _ seqno retriesLeft
  | alsaplayerUninit =>
      rw [hcode] at hrun
      obtain ⟨s', huninit, hrun⟩ := except_bind_ok hrun
      cases hrun
      exact alsaplayerUninit_requests hsound hdevice huninit
  | intercomReinit =>
      rw [hcode] at hrun
      exact reopenIntercom_requests hrun
  | decodeFirstInput =>
      rw [hcode] at hrun
      obtain ⟨s', hdecode, hrun⟩ := except_bind_ok hrun
      cases hrun
      unfold decodeFirstInput at hdecode
      split at hdecode
      · cases hdecode
        exact .refl _
      · split at hdecode
        · cases hdecode
          exact .refl _
        · obtain ⟨decoded, -, hdecode⟩ := except_bind_ok hdecode
          cases hdecode
          exact .of_eq rfl (List.Sublist.refl _)

theorem dropLate_missing (dropped : Nat) (s : Client) :
    ((fun s => (intercomGetnextaudiochunk s).2)^[dropped] s).missingPackets = s.missingPackets := by
  induction dropped generalizing s with
  | zero => rfl
  | succ dropped ih => exact ih (intercomGetnextaudiochunk s).2

theorem getchunk_requests {env : ClientEnv} {clock : ClientClock} {dropped : Nat} {takes : Bool}
    {p : ClientProcess} (hinv : ProcessInv p) {s' : Client}
    (hrun : getchunk env clock dropped takes p.client = .ok s') : RequestsKept p.client s' := by
  obtain ⟨htasks, hplayer⟩ := dropLate_same dropped p.client
  have hmissing := dropLate_missing dropped p.client
  unfold getchunk at hrun
  dsimp only at hrun
  generalize (fun s => (intercomGetnextaudiochunk s).2)^[dropped] p.client = s at htasks hplayer hmissing hrun
  have hdropped : RequestsKept p.client s := by
    refine .of_eq htasks ?_
    rw [hmissing]
  refine hdropped.trans ?_
  split_ifs at hrun
  · unfold takeChunk intercomGetnextaudiochunk at hrun
    split at hrun
    · rename_i s₁ hnext
      obtain ⟨-, rfl⟩ := Prod.mk.inj hnext
      cases hrun
      exact .of_eq rfl (List.Sublist.refl _)
    · rename_i chunk s₁ hnext
      obtain ⟨-, rfl⟩ := Prod.mk.inj hnext
      obtain ⟨tasks, hmove, hrun⟩ := except_bind_ok hrun
      obtain ⟨decoded, -, hrun⟩ := except_bind_ok hrun
      cases hrun
      have hsound : s.tasks.Sound := htasks ▸ hinv.sound
      have hpost : s.tasks.Frame notDecode (s.tasks.postTask clock.uptime 0 0 .decodeFirstInput).2 :=
        .postTask hsound _ _ _ rfl
      have hclose : ∀ id, s.alsaplayer.closeTask = some id →
          (s.tasks.postTask clock.uptime 0 0 .decodeFirstInput).2.Made id .alsaplayerUninit := by
        intro id hid
        rw [hplayer] at hid
        exact (htasks ▸ hinv.device.made id hid : s.tasks.Made id .alsaplayerUninit).mono hpost.history
      have hmoved : (s.tasks.postTask clock.uptime 0 0 .decodeFirstInput).2.Frame notUninit tasks :=
        .rescheduleTask hpost.sound hclose rfl hmove
      have hfirst : RequestsKept s
          { s with tasks := (s.tasks.postTask clock.uptime 0 0 .decodeFirstInput).2 } :=
        .of_frame hpost (fun _ => notDecode_of_request) (List.Sublist.refl _)
      exact hfirst.trans (.of_frame hmoved (fun _ => notUninit_of_request) (List.Sublist.refl _))
  · cases hrun
    exact .refl _

/-- The event is that the task with the handle is executed. -/
def ProcessEvent.Executes (id : Nat) : ProcessEvent → Prop
  | .fire other _ _ _ => other = id
  | _ => False

/-- A request task stays queued until it is executed, and no number is registered twice. -/
theorem processStep_requests {env : ClientEnv} {p p' : ClientProcess} (hinv : ProcessInv p)
    {event : ProcessEvent} (hrun : processStep env p event = .ok p') :
    (∀ task ∈ p.client.tasks.queued, isRequest task.code = true → ¬event.Executes task.id →
      task ∈ p'.client.tasks.queued) ∧
    (p.client.missingPackets.Nodup → p'.client.missingPackets.Nodup) := by
  have hsame : ∀ {p' : ClientProcess}, RequestsKept p.client p'.client →
      (∀ task ∈ p.client.tasks.queued, isRequest task.code = true → ¬event.Executes task.id →
        task ∈ p'.client.tasks.queued) ∧
      (p.client.missingPackets.Nodup → p'.client.missingPackets.Nodup) :=
    fun hkept => ⟨fun task htask hkind _ => hkept.kept task htask hkind, hkept.nodup⟩
  unfold processStep at hrun
  by_cases hexited : p.exited = true
  · rw [if_pos hexited] at hrun
    cases hrun
    exact hsame (.refl _)
  · rw [if_neg hexited] at hrun
    cases event with
    | datagram packet packetLen clock =>
        dsimp only at hrun
        split_ifs at hrun
        · exact hsame (receiveDatagram_requests hinv hrun).1
        · cases hrun
          exact hsame (.refl _)
    | fire id changed resolved clock =>
        dsimp only [fireClientTask] at hrun
        cases hfind : p.client.tasks.queued.find? (·.id == id) with
        | none =>
            rw [hfind] at hrun
            cases hrun
            exact hsame (.refl _)
        | some task =>
            rw [hfind] at hrun
            dsimp only at hrun
            split_ifs at hrun
            · cases hrun
              exact hsame (.refl _)
            · obtain ⟨p₁, hexecute, hfinish⟩ := except_bind_ok hrun
              cases hfinish
              have hfound := List.find?_some hfind
              have hid : task.id = id := beq_iff_eq.mp hfound
              have hkept := runClientTask_requests hinv (List.mem_of_find?_eq_some hfind) hexecute
              refine ⟨fun other hother hkind hnot => hkept.kept other ?_ hkind, hkept.nodup⟩
              refine List.mem_filter.mpr ⟨hother, bne_iff_ne.mpr fun hsame => hnot ?_⟩
              exact hid.symm.trans hsame.symm
    | networkError clock =>
        dsimp only at hrun
        split_ifs at hrun with hconnected
        · obtain ⟨p₁, hclose, hrun⟩ := except_bind_ok hrun
          obtain ⟨s', huninit, hrun⟩ := except_bind_ok hrun
          cases hrun
          obtain ⟨hello, hsome, hone, -⟩ := hinv.hello.opened hconnected
          have hthere := (hone hello).mpr rfl
          have hkept := closeBoth_requests hinv.sound hinv.device hsome (hthere.made hinv.sound)
            (.inr hthere) hclose huninit
          refine hsame (hkept.trans ⟨fun task htask _ => List.mem_append_left _ htask, id⟩)
        · cases hrun
          exact hsame (.refl _)
    | getchunk dropped takes clock =>
        dsimp only at hrun
        split_ifs at hrun
        · obtain ⟨s', hget, hrun⟩ := except_bind_ok hrun
          cases hrun
          exact hsame (getchunk_requests hinv hget)
        · cases hrun
          exact hsame (.refl _)
    | sigterm =>
        obtain ⟨s₁, hfirst, hrun⟩ := except_bind_ok hrun
        obtain ⟨s₂, hsecond, hrun⟩ := except_bind_ok hrun
        cases hrun
        refine hsame (removeDevice_requests hinv ?_)
        rw [removeDevice, hfirst]
        exact hsecond

/-! ### The chain over a run -/

/-- How far the tasks that began with `first` have come: as long as one is queued, every one before has sent a
request and has left one retry less; the last one has found the packet no longer missing, or no retries. -/
structure ChainInv (first : Posted ClientTask) (seqno : UInt32) (retries : UInt8) (p : ClientProcess)
    (chain : RequestChain) : Prop where
  spaced : Spaced first.due chain.executions
  registered : ∀ execution ∈ chain.executions, execution.sent = true → execution.registered = true
  going : ∀ id, chain.handle = some id → (∀ execution ∈ chain.executions, execution.sent = true) ∧
    ∃ task ∈ p.client.tasks.queued, task.id = id ∧ task.due = nextDue first.due chain.executions ∧
      ∃ retriesLeft, task.code = .request seqno retriesLeft ∧
        retriesLeft.toNat + chain.executions.length = retries.toNat
  ended : chain.handle = none → ∃ earlier last, chain.executions = earlier ++ [last] ∧
    (∀ execution ∈ earlier, execution.sent = true) ∧ last.sent = false ∧
      (last.registered = true → earlier.length = retries.toNat ∧ last.left = false)

/-- The process between two events, where no number is registered twice. -/
structure RegisterInv (p : ClientProcess) : Prop where
  process : ProcessInv p
  nodup : p.client.missingPackets.Nodup

theorem RegisterInv.step {env : ClientEnv} {p p' : ClientProcess} (hinv : RegisterInv p)
    {event : ProcessEvent} (hrun : processStep env p event = .ok p') : RegisterInv p' := by
  obtain ⟨hfreed, hvalid⟩ := processStep_spec env hinv.process event
  have hsafe : RemovesSafely env p event := by
    by_contra hbad
    rw [hfreed hbad] at hrun
    cases hrun
  exact ⟨(hvalid hsafe).of_eq hrun, (processStep_requests hinv.process hrun).2 hinv.nodup⟩

theorem RegisterInv.run {env : ClientEnv} {p q : ClientProcess} (hinv : RegisterInv p)
    {events : List ProcessEvent} (hrun : processRun env p events = .ok q) : RegisterInv q := by
  induction events generalizing p with
  | nil => exact Except.ok.inj hrun ▸ hinv
  | cons event events ih =>
      obtain ⟨p', hstep, hrest⟩ := except_bind_ok hrun
      exact ih (hinv.step hstep) hrest

theorem RegisterInv.fresh (nonce : UInt32) (softvol : Bool) (mixer : Option Mixer) :
    RegisterInv (freshProcess nonce softvol mixer) :=
  ⟨.fresh nonce softvol mixer, List.nodup_nil⟩

/-- The queued task with the handle. -/
theorem find_queued {tasks : TaskPool ClientTask} (hsound : tasks.Sound) {task : Posted ClientTask}
    (htask : task ∈ tasks.queued) : tasks.queued.find? (·.id == task.id) = some task := by
  cases hfind : tasks.queued.find? (·.id == task.id) with
  | none =>
      have hnone := List.find?_eq_none.mp hfind task htask
      exact absurd (beq_self_eq_true task.id) hnone
  | some found =>
      have hfound := List.find?_some hfind
      have hsame := List.inj_on_of_nodup_map hsound.nodup (List.mem_of_find?_eq_some hfind) htask
        (beq_iff_eq.mp hfound)
      rw [hsame]

theorem nextDue_append (due : Timespec) (executions : List RequestExecution) (execution : RequestExecution) :
    nextDue due (executions ++ [execution]) =
      settime execution.executed 0 requestRetryIntervalMs.toNat := by
  rw [nextDue, List.getLast?_concat]

/-- What a request task does. -/
theorem requestTask_cases (clock : ClientClock) (s : Client) (seqno : UInt32) (retriesLeft : UInt8) :
    (0 < retriesLeft ∧ alreadyRequesting s seqno = true ∧ requestTask clock s seqno retriesLeft =
      ({ s with
        nonce := s.nonce + 1
        tasks := (s.tasks.postTask clock.uptime 0 requestRetryIntervalMs.toNat
          (.request seqno (retriesLeft - 1))).2 }, some seqno)) ∨
    (0 < retriesLeft ∧ alreadyRequesting s seqno = false ∧ requestTask clock s seqno retriesLeft =
      ({ s with nonce := s.nonce + 1 }, none)) ∨
    (retriesLeft = 0 ∧ requestTask clock s seqno retriesLeft =
      ({ s with nonce := s.nonce + 1, missingPackets := s.missingPackets.erase seqno }, none)) := by
  have hsame : alreadyRequesting { s with nonce := s.nonce + 1 } seqno = alreadyRequesting s seqno := rfl
  unfold requestTask
  dsimp only
  rw [hsame]
  by_cases hretries : retriesLeft > 0
  · rw [if_pos hretries]
    cases hthere : alreadyRequesting s seqno with
    | true => exact .inl ⟨hretries, rfl, rfl⟩
    | false => exact .inr (.inl ⟨hretries, rfl, rfl⟩)
  · rw [if_neg hretries]
    have hzero : retriesLeft = 0 := by
      have hle : retriesLeft.toNat ≤ 0 := UInt8.le_iff_toNat_le.mp (UInt8.not_lt.mp hretries)
      exact UInt8.toNat_inj.mp (Nat.le_zero.mp hle)
    exact .inr (.inr ⟨hzero, rfl⟩)

/-- The execution of the task of a chain. -/
theorem ChainInv.execute {first task : Posted ClientTask} {seqno : UInt32} {retries retriesLeft : UInt8}
    {p : ClientProcess} {chain : RequestChain} (hchain : ChainInv first seqno retries p chain)
    (hinv : RegisterInv p) (hhandle : chain.handle = some task.id)
    (hcode : task.code = .request seqno retriesLeft)
    (hdue : task.due = nextDue first.due chain.executions)
    (hcount : retriesLeft.toNat + chain.executions.length = retries.toNat) (clock : ClientClock)
    (hlate : ¬timespecCmp task.due clock.uptime > 0) :
    let s := { p.client with tasks := p.client.tasks.start task.id }
    ∀ q : ClientProcess, (∀ other ∈ (requestTask clock s seqno retriesLeft).1.tasks.queued,
        other ∈ q.client.tasks.queued) →
      ChainInv first seqno retries q (chain.execute clock s task) := by
  intro s q hqueued
  obtain ⟨hsent, -⟩ := hchain.going task.id hhandle
  have hexecute : chain.execute clock s task =
      { handle := (requestTask clock s seqno retriesLeft).2.map fun _ => s.tasks.fresh
        executions := chain.executions ++ [{
          due := task.due
          executed := clock.uptime
          registered := alreadyRequesting s seqno
          sent := (requestTask clock s seqno retriesLeft).2.isSome
          left := alreadyRequesting (requestTask clock s seqno retriesLeft).1 seqno }] } := by
    rw [RequestChain.execute, hcode]
  rw [hexecute]
  have hspaced : ∀ registered sent left, Spaced first.due
      (chain.executions ++ [⟨task.due, clock.uptime, registered, sent, left⟩]) :=
    fun _ _ _ => spaced_append hchain.spaced hdue (not_lt.mp hlate)
  -- a task that sends nothing adds nothing to what is known of those that sent
  have hsilent : ∀ registered left, ∀ execution ∈
      chain.executions ++ [⟨task.due, clock.uptime, registered, false, left⟩],
      execution.sent = true → execution.registered = true := by
    intro registered left execution hmem hwas
    rcases List.mem_append.mp hmem with hold | hnew
    · exact hchain.registered execution hold hwas
    · rw [List.mem_singleton.mp hnew] at hwas
      cases hwas
  rcases requestTask_cases clock s seqno retriesLeft with
    ⟨hretries, hthere, hrun⟩ | ⟨hretries, hnot, hrun⟩ | ⟨hzero, hrun⟩
  · rw [hrun] at hqueued ⊢
    refine ⟨hspaced _ _ _, fun execution hmem _ => ?_, fun id hid => ⟨fun execution hmem => ?_, ?_⟩,
      fun hnone => absurd hnone (Option.some_ne_none _)⟩
    · rcases List.mem_append.mp hmem with hold | hnew
      · exact hchain.registered execution hold (hsent execution hold)
      · rw [List.mem_singleton.mp hnew]
        exact hthere
    · rcases List.mem_append.mp hmem with hold | hnew
      · exact hsent execution hold
      · rw [List.mem_singleton.mp hnew]
        rfl
    · refine ⟨_, hqueued _ (List.mem_append_right _ (List.mem_singleton_self _)), Option.some.inj hid, ?_, _,
        rfl, ?_⟩
      · rw [nextDue_append]
      · have hpos : 0 < retriesLeft.toNat := UInt8.lt_iff_toNat_lt.mp hretries
        have hone : (retriesLeft - 1).toNat = retriesLeft.toNat - 1 :=
          UInt8.toNat_sub_of_le _ _ (UInt8.le_iff_toNat_le.mpr hpos)
        rw [hone, List.length_append, List.length_singleton]
        omega
  · rw [hrun]
    refine ⟨hspaced _ _ _, hsilent _ _, fun id hid => ?_, fun _ => ?_⟩
    · cases hid
    · refine ⟨_, _, rfl, hsent, rfl, fun hregistered => ?_⟩
      exact absurd (hnot.symm.trans hregistered) Bool.false_ne_true
  · rw [hrun]
    refine ⟨hspaced _ _ _, hsilent _ _, fun id hid => ?_, fun _ => ?_⟩
    · cases hid
    · refine ⟨_, _, rfl, hsent, rfl, fun _ => ⟨?_, ?_⟩⟩
      · rw [hzero, UInt8.toNat_zero, Nat.zero_add] at hcount
        exact hcount
      · have hgone : seqno ∉ s.missingPackets.erase seqno := fun hmem =>
          (hinv.nodup.mem_erase_iff.mp hmem).1 rfl
        exact Bool.eq_false_iff.mpr fun hthere => hgone (List.contains_iff_mem.mp hthere)

/-- An event that does not execute the task of a chain is nothing for it. -/
theorem follow_of_other {chain : RequestChain} {p : ClientProcess} {event : ProcessEvent}
    (hother : ∀ id, chain.handle = some id → ¬event.Executes id) : chain.follow p event = chain := by
  cases event with
  | fire id changed resolved clock =>
      have hnot : chain.handle ≠ some id := fun hhandle => hother id hhandle rfl
      exact if_pos (.inr hnot)
  | _ => rfl

/-- The task of a chain is executed when it is due. -/
theorem fireRequestTask_eq (env : ClientEnv) {p : ClientProcess} (hsound : p.client.tasks.Sound)
    {task : Posted ClientTask} (htask : task ∈ p.client.tasks.queued) {seqno : UInt32} {retriesLeft : UInt8}
    (hcode : task.code = .request seqno retriesLeft) (changed resolved : Bool) (clock : ClientClock) :
    fireClientTask env clock changed resolved p task.id =
      if timespecCmp task.due clock.uptime > 0 then .ok p
      else
        let s := { p.client with tasks := p.client.tasks.start task.id }
        let s' := (requestTask clock s seqno retriesLeft).1
        .ok { p with client := { s' with tasks := s'.tasks.finish } } := by
  rw [fireClientTask, find_queued hsound htask]
  dsimp only
  rw [hcode]
  rfl

theorem ChainInv.step {env : ClientEnv} {first : Posted ClientTask} {seqno : UInt32} {retries : UInt8}
    {p p' : ClientProcess} {chain : RequestChain} (hchain : ChainInv first seqno retries p chain)
    (hinv : RegisterInv p) {event : ProcessEvent} (hrun : processStep env p event = .ok p') :
    ChainInv first seqno retries p' (chain.follow p event) := by
  obtain ⟨hkept, -⟩ := processStep_requests hinv.process hrun
  by_cases hexecutes : ∃ id, chain.handle = some id ∧ event.Executes id
  · obtain ⟨id, hhandle, hexecutes⟩ := hexecutes
    cases event with
    | fire other changed resolved clock =>
        have hid : other = id := hexecutes
        subst hid
        obtain ⟨hsent, task, htask, rfl, hdue, retriesLeft, hcode, hcount⟩ := hchain.going other hhandle
        rw [processStep] at hrun
        rw [RequestChain.follow]
        by_cases hexited : p.exited = true
        · rw [if_pos hexited] at hrun
          rw [if_pos (.inl hexited), ← Except.ok.inj hrun]
          exact hchain
        · rw [if_neg hexited] at hrun
          rw [if_neg (not_or.mpr ⟨hexited, not_not.mpr hhandle⟩),
            find_queued hinv.process.sound htask]
          dsimp only at hrun ⊢
          rw [fireRequestTask_eq env hinv.process.sound htask hcode] at hrun
          by_cases hearly : timespecCmp task.due clock.uptime > 0
          · rw [if_pos hearly] at hrun ⊢
            rw [← Except.ok.inj hrun]
            exact hchain
          · rw [if_neg hearly] at hrun ⊢
            rw [← Except.ok.inj hrun]
            exact hchain.execute hinv hhandle hcode hdue hcount clock hearly _ fun _ hmem => hmem
    | _ => exact hexecutes.elim
  · have hother : ∀ id, chain.handle = some id → ¬event.Executes id :=
      fun id hhandle hexecutes' => hexecutes ⟨id, hhandle, hexecutes'⟩
    rw [follow_of_other hother]
    refine ⟨hchain.spaced, hchain.registered, fun id hhandle => ?_, hchain.ended⟩
    obtain ⟨hsent, task, htask, rfl, hdue, retriesLeft, hcode, hcount⟩ := hchain.going id hhandle
    have hkind : isRequest task.code = true := by rw [hcode]; rfl
    exact ⟨hsent, task, hkept task htask hkind (hother _ hhandle), rfl, hdue, retriesLeft, hcode, hcount⟩

/-- What holds of a chain holds after every run. -/
theorem ChainInv.run {env : ClientEnv} {first : Posted ClientTask} {seqno : UInt32} {retries : UInt8}
    {p q : ClientProcess} {chain chain' : RequestChain} (hchain : ChainInv first seqno retries p chain)
    (hinv : RegisterInv p) {events : List ProcessEvent}
    (hrun : chainRun env p chain events = .ok (q, chain')) :
    ChainInv first seqno retries q chain' := by
  induction events generalizing p chain with
  | nil =>
      cases hrun
      exact hchain
  | cons event events ih =>
      obtain ⟨p', hstep, hrest⟩ := except_bind_ok hrun
      exact ih (hchain.step hinv hstep) (hinv.step hstep) hrest

/-- A request task that is queued begins a chain. -/
theorem ChainInv.start {p : ClientProcess} {first : Posted ClientTask} {seqno : UInt32} {retries : UInt8}
    (hqueued : first ∈ p.client.tasks.queued) (hcode : first.code = .request seqno retries) :
    ChainInv first seqno retries p ⟨some first.id, []⟩ where
  spaced := trivial
  registered := fun _ hmem => absurd hmem List.not_mem_nil
  going := fun _ hid => ⟨fun _ hmem => absurd hmem List.not_mem_nil, first, hqueued,
    Option.some.inj hid, rfl, retries, hcode, rfl⟩
  ended := fun hnone => absurd hnone (Option.some_ne_none _)

/-- The requests for a packet that stays missing, when there are no more. -/
theorem ChainInv.requests {first : Posted ClientTask} {seqno : UInt32} {retries : UInt8} {p : ClientProcess}
    {chain : RequestChain} (hchain : ChainInv first seqno retries p chain) (hended : chain.handle = none)
    (hmissing : ∀ execution ∈ chain.executions, execution.registered = true) :
    chain.executions.countP RequestExecution.sent = retries.toNat ∧
      ∀ last, chain.executions.getLast? = some last → last.left = false := by
  obtain ⟨earlier, last, hexecutions, hsent, hnot, hlast⟩ := hchain.ended hended
  rw [hexecutions] at hmissing ⊢
  obtain ⟨hlength, hleft⟩ := hlast (hmissing last (List.mem_append_right _ (List.mem_singleton_self _)))
  have hcount : earlier.countP RequestExecution.sent = earlier.length := List.countP_eq_length.mpr hsent
  refine ⟨?_, fun found hfound => ?_⟩
  · rw [List.countP_append, hcount, List.countP_singleton, hnot, hlength]
    rfl
  · rw [List.getLast?_concat] at hfound
    rw [← Option.some.inj hfound]
    exact hleft

/-- With the number of retries the buffer has room for, the budget is kept. -/
theorem ChainInv.keepsBudget {first : Posted ClientTask} {seqno : UInt32} {retries : UInt8}
    {p : ClientProcess} {chain : RequestChain} (hchain : ChainInv first seqno retries p chain)
    {bufferms : UInt16} (hretries : retries.toNat = bufferms.toNat / requestRetryIntervalMs.toNat) :
    chain.KeepsBudget bufferms first.due p where
  spaced := hchain.spaced
  goesOn := fun _ hhandle => by
    obtain ⟨-, task, htask, hid, hdue, retriesLeft, hcode, -⟩ := hchain.going _ hhandle
    have hkind : isRequest task.code = true := by rw [hcode]; rfl
    exact ⟨task, htask, hid, hkind, hdue⟩
  served := fun earlier execution later hexecutions hnot other hother => by
    -- only the last execution can have found the packet no longer missing
    have hunsent : execution.sent = false := by
      refine Bool.eq_false_iff.mpr fun hsent => ?_
      have hmem : execution ∈ chain.executions := by
        rw [hexecutions]
        exact List.mem_append_right _ List.mem_cons_self
      exact Bool.false_ne_true (hnot.symm.trans (hchain.registered execution hmem hsent))
    cases hhandle : chain.handle with
    | some id =>
        have hmem : execution ∈ chain.executions := by
          rw [hexecutions]
          exact List.mem_append_right _ List.mem_cons_self
        exact absurd (hunsent.symm.trans ((hchain.going id hhandle).1 execution hmem)) Bool.false_ne_true
    | none =>
        obtain ⟨before, last, hends, hsent, hlast, -⟩ := hchain.ended hhandle
        rcases List.eq_nil_or_concat later with rfl | ⟨more, final, rfl⟩
        · rw [List.mem_singleton.mp hother]
          exact hunsent
        · rw [hends, List.concat_eq_append, ← List.cons_append, ← List.append_assoc] at hexecutions
          obtain ⟨hbefore, -⟩ := List.append_inj' hexecutions rfl
          have hmem : execution ∈ before := by
            rw [hbefore]
            exact List.mem_append_right _ List.mem_cons_self
          exact absurd (hunsent.symm.trans (hsent execution hmem)) Bool.false_ne_true
  budget := fun hended hmissing => by
    obtain ⟨hcount, hleft⟩ := hchain.requests hended hmissing
    exact ⟨hcount.trans hretries, hleft⟩

/-- The event that a task is executed the moment it is due. -/
def whenDue (task : Posted ClientTask) : ProcessEvent :=
  .fire task.id false false ⟨task.due, task.due, task.due⟩

theorem fireWhenDue (env : ClientEnv) {p : ClientProcess} (hinv : RegisterInv p) (hrunning : p.exited = false)
    (chain : RequestChain) {task : Posted ClientTask} (hhandle : chain.handle = some task.id)
    (htask : task ∈ p.client.tasks.queued) {seqno : UInt32} {retriesLeft : UInt8}
    (hcode : task.code = .request seqno retriesLeft) :
    let s := { p.client with tasks := p.client.tasks.start task.id }
    let s' := (requestTask ⟨task.due, task.due, task.due⟩ s seqno retriesLeft).1
    ∃ p', processStep env p (whenDue task) = .ok p' ∧ p'.exited = false ∧
      p'.client.missingPackets = s'.missingPackets ∧ p'.client.tasks.queued = s'.tasks.queued ∧
      chain.follow p (whenDue task) = chain.execute ⟨task.due, task.due, task.due⟩ s task := by
  intro s s'
  have hdue : ¬timespecCmp task.due task.due > 0 := by
    rw [(timespecCmp_eq_zero_iff task.due task.due).mpr rfl]
    exact lt_irrefl 0
  have hexited : ¬p.exited = true := Bool.eq_false_iff.mp hrunning
  refine ⟨{ p with client := { s' with tasks := s'.tasks.finish } }, ?_, hrunning, rfl, rfl, ?_⟩
  · rw [whenDue, processStep, if_neg hexited,
      fireRequestTask_eq env hinv.process.sound htask hcode, if_neg hdue]
  · rw [whenDue, RequestChain.follow, if_neg (not_or.mpr ⟨hexited, not_not.mpr hhandle⟩),
      find_queued hinv.process.sound htask]
    exact if_neg hdue

theorem execute_registered {p : ClientProcess} (chain : RequestChain) {task : Posted ClientTask}
    {seqno : UInt32} {retriesLeft : UInt8} (hcode : task.code = .request seqno retriesLeft)
    (hthere : alreadyRequesting p.client seqno = true) (clock : ClientClock) :
    let s := { p.client with tasks := p.client.tasks.start task.id }
    ∃ execution, execution.registered = true ∧ chain.execute clock s task =
      ⟨(requestTask clock s seqno retriesLeft).2.map fun _ => s.tasks.fresh,
        chain.executions ++ [execution]⟩ := by
  intro s
  have hsame : alreadyRequesting s seqno = true := hthere
  rw [RequestChain.execute, hcode]
  exact ⟨_, hsame, rfl⟩

/-- A chain comes to its end when each task is executed as soon as it is due. -/
theorem exists_wholeChain (env : ClientEnv) {seqno : UInt32} (retriesLeft : Nat) :
    ∀ {p : ClientProcess} (chain : RequestChain) {task : Posted ClientTask} {retries : UInt8},
      retries.toNat = retriesLeft → RegisterInv p → p.exited = false → chain.handle = some task.id →
      task ∈ p.client.tasks.queued → task.code = .request seqno retries →
      alreadyRequesting p.client seqno = true →
      ∃ events q more, chainRun env p chain events = .ok (q, ⟨none, chain.executions ++ more⟩) ∧
        ∀ execution ∈ more, execution.registered = true := by
  induction retriesLeft with
  | zero =>
      intro p chain task retries hretries hinv hrunning hhandle htask hcode hthere
      obtain ⟨p', hstep, -, -, -, hfollow⟩ := fireWhenDue env hinv hrunning chain hhandle htask hcode
      obtain ⟨execution, hregistered, hexecute⟩ := execute_registered chain hcode hthere
        ⟨task.due, task.due, task.due⟩
      rcases requestTask_cases ⟨task.due, task.due, task.due⟩
          { p.client with tasks := p.client.tasks.start task.id } seqno retries with
        ⟨hpos, -, -⟩ | ⟨hpos, -, -⟩ | ⟨-, hrun⟩
      · exact absurd (UInt8.lt_iff_toNat_lt.mp hpos) (by rw [hretries]; exact lt_irrefl 0)
      · exact absurd (UInt8.lt_iff_toNat_lt.mp hpos) (by rw [hretries]; exact lt_irrefl 0)
      · rw [hrun] at hexecute
        refine ⟨[whenDue task], p', [execution], ?_, fun other hmem => ?_⟩
        · rw [chainRun, hstep, hfollow, hexecute]
          rfl
        · rw [List.mem_singleton.mp hmem]
          exact hregistered
  | succ retriesLeft ih =>
      intro p chain task retries hretries hinv hrunning hhandle htask hcode hthere
      obtain ⟨p', hstep, hrunning', hmissing, hqueued, hfollow⟩ :=
        fireWhenDue env hinv hrunning chain hhandle htask hcode
      obtain ⟨execution, hregistered, hexecute⟩ := execute_registered chain hcode hthere
        ⟨task.due, task.due, task.due⟩
      rcases requestTask_cases ⟨task.due, task.due, task.due⟩
          { p.client with tasks := p.client.tasks.start task.id } seqno retries with
        ⟨hpos, -, hrun⟩ | ⟨-, hnot, -⟩ | ⟨hzero, -⟩
      · have hone : (retries - 1).toNat = retriesLeft := by
          have hle : (1 : UInt8).toNat ≤ retries.toNat := UInt8.lt_iff_toNat_lt.mp hpos
          rw [UInt8.toNat_sub_of_le _ _ (UInt8.le_iff_toNat_le.mpr hle), hretries]
          rfl
        rw [hrun] at hmissing hqueued hexecute
        have hthere' : alreadyRequesting p'.client seqno = true := by
          rw [alreadyRequesting, hmissing]
          exact hthere
        have hnext : (⟨p.client.tasks.fresh, settime task.due 0 requestRetryIntervalMs.toNat,
            .request seqno (retries - 1)⟩ : Posted ClientTask) ∈ p'.client.tasks.queued := by
          rw [hqueued]
          exact List.mem_append_right _ (List.mem_singleton_self _)
        obtain ⟨events, q, more, hrest, hmore⟩ := ih ⟨some p.client.tasks.fresh,
          chain.executions ++ [execution]⟩ hone (hinv.step hstep) hrunning' rfl hnext rfl hthere'
        refine ⟨whenDue task :: events, q, execution :: more, ?_, fun other hmem => ?_⟩
        · have happend : chain.executions ++ execution :: more =
              chain.executions ++ [execution] ++ more := List.append_cons _ _ _
          rw [chainRun, hstep, hfollow, hexecute, happend]
          exact hrest
        · rcases List.mem_cons.mp hmem with rfl | hmem
          · exact hregistered
          · exact hmore other hmem
      · exact absurd (hnot.symm.trans hthere) Bool.false_ne_true
      · rw [hzero] at hretries
        cases hretries

/-- A datagram has registered the packet as missing and posted the task that asks for it. -/
structure BeginsChain (env : ClientEnv) (clock : ClientClock) (p p' : ClientProcess)
    (first : Posted ClientTask) (seqno : UInt32) : Prop where
  received : ∃ packet packetLen, processStep env p (.datagram packet packetLen clock) = .ok p'
  queued : first ∈ p'.client.tasks.queued
  posted : first ∉ p.client.tasks.queued
  code : ∃ retriesLeft, first.code = .request seqno retriesLeft
  registered : seqno ∈ p'.client.missingPackets

theorem retryBudget_toNat (bufferms : UInt16) :
    (retryBudget bufferms).toNat = bufferms.toNat / requestRetryIntervalMs.toNat % 256 := by
  rw [retryBudget, UInt16.toNat_toUInt8, UInt16.toNat_div]

/-- A new chain has the retries that the buffer length says, as far as they fit into eight bits. -/
theorem BeginsChain.start {env : ClientEnv} {clock : ClientClock} {p p' : ClientProcess}
    {first : Posted ClientTask} {seqno : UInt32} (hbegins : BeginsChain env clock p p' first seqno)
    (hinv : RegisterInv p) :
    RegisterInv p' ∧ p'.exited = false ∧ first.due = settime clock.uptime 0 0 ∧
      first.code = .request seqno (retryBudget p'.client.bufferms) := by
  obtain ⟨⟨packet, packetLen, hstep⟩, hqueued, hposted, ⟨retriesLeft, hcode⟩, -⟩ := hbegins
  have hinv' := hinv.step hstep
  have hunchanged : p' ≠ p := fun hsame => hposted (hsame ▸ hqueued)
  unfold processStep at hstep
  by_cases hexited : p.exited = true
  · rw [if_pos hexited] at hstep
    exact absurd (Except.ok.inj hstep).symm hunchanged
  · rw [if_neg hexited] at hstep
    dsimp only at hstep
    split_ifs at hstep
    · obtain ⟨s', rfl, -⟩ := receiveDatagram_handled hstep
      have hkind : isRequest first.code = true := by rw [hcode]; rfl
      obtain ⟨hdue, other, hother⟩ :=
        ((receiveDatagram_requests hinv.process hstep).2 first hqueued hkind).resolve_left hposted
      have hsame : seqno = other := (ClientTask.request.inj (hcode.symm.trans hother)).1
      exact ⟨hinv', Bool.eq_false_iff.mpr hexited, hdue, hsame ▸ hother⟩
    · exact absurd (Except.ok.inj hstep).symm hunchanged

/-- The requests for a missing packet keep to the budget, however the run goes on, exactly when the number of
retries fits into eight bits. -/
theorem requestBudget_iff (env : ClientEnv) (nonce : UInt32) (softvol : Bool) (mixer : Option Mixer)
    (before : List ProcessEvent) {clock : ClientClock} {p p' : ClientProcess} {first : Posted ClientTask}
    {seqno : UInt32} (hbefore : processRun env (freshProcess nonce softvol mixer) before = .ok p)
    (hbegins : BeginsChain env clock p p' first seqno) :
    (∀ events q chain, chainRun env p' ⟨some first.id, []⟩ events = .ok (q, chain) →
      chain.KeepsBudget p'.client.bufferms (settime clock.uptime 0 0) q) ↔
    p'.client.bufferms.toNat < 256 * requestRetryIntervalMs.toNat := by
  obtain ⟨hinv, hrunning, hdue, hcode⟩ := hbegins.start ((RegisterInv.fresh nonce softvol mixer).run hbefore)
  have hstart := ChainInv.start hbegins.queued hcode
  have hfits : p'.client.bufferms.toNat < 256 * requestRetryIntervalMs.toNat ↔
      p'.client.bufferms.toNat / requestRetryIntervalMs.toNat < 256 :=
    (Nat.div_lt_iff_lt_mul (by decide)).symm
  rw [hfits, ← hdue]
  constructor
  · intro hkeeps
    obtain ⟨events, q, more, hrun, hmore⟩ := exists_wholeChain env _ ⟨some first.id, []⟩ rfl hinv
      hrunning rfl hbegins.queued hcode
      (List.contains_iff_mem.mpr hbegins.registered)
    obtain ⟨hcount, -⟩ := (hkeeps events q _ hrun).budget rfl hmore
    rw [((hstart.run hinv hrun).requests rfl hmore).1, retryBudget_toNat] at hcount
    rw [← hcount]
    exact Nat.mod_lt _ (by decide)
  · intro hsmall events q chain hrun
    refine (hstart.run hinv hrun).keepsBudget ?_
    rw [retryBudget_toNat, Nat.mod_eq_of_lt hsmall]

/-- The AUDIO packet with a number, of a server with a buffer length. -/
def bufferedPacket (bufferms : UInt16) (seqno : UInt32) : Nat → UInt8 :=
  (assembleAudio (fun _ => 0) bufferms seqno
    ⟨100, 0, 8000, 1, 1, 8, codecPcm, List.replicate 8 0⟩).1.packet

/-- The task that asks for packet 2 when packet 3 has arrived after packet 1. -/
def secondRequest (bufferms : UInt16) : Posted ClientTask := ⟨2, ⟨9, 0⟩, .request 2 (retryBudget bufferms)⟩

/-- What is to be seen of the two packets. -/
def gapView (bufferms : UInt16) : Except Fault (Bool × Bool × Bool × UInt16) :=
  processRun anyDevice (freshProcess 7 true none)
      [.datagram (bufferedPacket bufferms 1) 35 beforeDue] >>= fun p =>
    (processStep anyDevice p (.datagram (bufferedPacket bufferms 3) 35 beforeDue)).map fun p' =>
      (p.client.tasks.queued.contains (secondRequest bufferms),
        p'.client.tasks.queued.contains (secondRequest bufferms), p'.client.missingPackets.contains 2,
        p'.client.bufferms)

theorem beginsChain_of_gap {bufferms : UInt16} (hview : gapView bufferms = .ok (false, true, true, bufferms)) :
    ∃ p p', processRun anyDevice (freshProcess 7 true none)
        [.datagram (bufferedPacket bufferms 1) 35 beforeDue] = .ok p ∧
      BeginsChain anyDevice beforeDue p p' (secondRequest bufferms) 2 ∧ p'.client.bufferms = bufferms := by
  obtain ⟨p, hbefore, hview⟩ := except_bind_ok hview
  obtain ⟨p', hstep, hview⟩ := except_map_ok hview
  obtain ⟨hposted, hview⟩ := Prod.mk.inj hview
  obtain ⟨hqueued, hview⟩ := Prod.mk.inj hview
  obtain ⟨hregistered, hbufferms⟩ := Prod.mk.inj hview
  refine ⟨p, p', hbefore, ⟨⟨_, _, hstep⟩, List.contains_iff_mem.mp hqueued, fun hmem => ?_, ⟨_, rfl⟩,
    List.contains_iff_mem.mp hregistered⟩, hbufferms⟩
  exact Bool.false_ne_true (hposted.symm.trans (List.contains_iff_mem.mpr hmem))

/-- With a buffer of one second there are ten requests. -/
theorem requestBudget_second :
    ∃ p p', BeginsChain anyDevice beforeDue p p' (secondRequest 1000) 2 ∧ p'.client.bufferms = 1000 ∧
      ∀ events q chain, chainRun anyDevice p' ⟨some 2, []⟩ events = .ok (q, chain) →
        chain.KeepsBudget 1000 (settime beforeDue.uptime 0 0) q := by
  obtain ⟨p, p', hbefore, hbegins, hbufferms⟩ :=
    beginsChain_of_gap (show gapView 1000 = .ok (false, true, true, 1000) by decide +kernel)
  have hkeeps := (requestBudget_iff anyDevice 7 true none _ hbefore hbegins).mpr
    (by rw [hbufferms]; decide)
  rw [hbufferms] at hkeeps
  exact ⟨p, p', hbegins, hbufferms, hkeeps⟩

/-- With a buffer of 25.6 seconds the number of retries is zero: packet 2 is given up without a request. -/
theorem requestBudget_truncated :
    ∃ p p' q chain, BeginsChain anyDevice beforeDue p p' (secondRequest 25600) 2 ∧
      p'.client.bufferms = 25600 ∧
      chainRun anyDevice p' ⟨some 2, []⟩ [whenDue (secondRequest 25600)] = .ok (q, chain) ∧
      chain.handle = none ∧ chain.executions.countP RequestExecution.sent = 0 ∧
      ¬chain.KeepsBudget 25600 (settime beforeDue.uptime 0 0) q := by
  obtain ⟨p, p', hbefore, hbegins, hbufferms⟩ :=
    beginsChain_of_gap (show gapView 25600 = .ok (false, true, true, 25600) by decide +kernel)
  obtain ⟨hinv, hrunning, -, hcode⟩ := hbegins.start ((RegisterInv.fresh 7 true none).run hbefore)
  have hstart := ChainInv.start hbegins.queued hcode
  obtain ⟨p'', hstep, -, -, -, hfollow⟩ :=
    fireWhenDue anyDevice hinv hrunning ⟨some 2, []⟩ rfl hbegins.queued hcode
  obtain ⟨execution, hregistered, hexecute⟩ := execute_registered ⟨some 2, []⟩ hcode
    (List.contains_iff_mem.mpr hbegins.registered)
    ⟨(secondRequest 25600).due, (secondRequest 25600).due, (secondRequest 25600).due⟩
  have hasked : ∀ clock s, (requestTask clock s 2 (retryBudget p'.client.bufferms)).2 = none := by
    intro clock s
    rw [hbufferms]
    rfl
  rw [hasked] at hexecute
  have hrun : chainRun anyDevice p' ⟨some 2, []⟩ [whenDue (secondRequest 25600)] =
      .ok (p'', ⟨none, [execution]⟩) := by
    rw [chainRun, hstep, hfollow, hexecute]
    rfl
  have hmissing : ∀ other ∈ [execution], other.registered = true :=
    fun other hmem => List.mem_singleton.mp hmem ▸ hregistered
  obtain ⟨hcount, -⟩ := (hstart.run hinv hrun).requests rfl hmissing
  rw [hbufferms] at hcount
  refine ⟨p, p', p'', _, hbegins, hbufferms, hrun, rfl, hcount, fun hkeeps => ?_⟩
  have hwant := (hkeeps.budget rfl hmissing).1
  rw [hcount] at hwant
  exact absurd hwant (by decide)

end Snapcastc
