import Snapcastc.ServerRegistry

/-! What an event does to the AUDIO packets that a stream keeps: nothing, or a packet is added behind the
others, or a task removes packets in front. -/

namespace Snapcastc

open Bytes

variable {n : Nat}

def isRemoval (i : Fin (n + 1)) (code : ServerTask n) : Bool := code == .removeOldAudiodata i

/-- A stream as far as its AUDIO packets are concerned, with the length of the buffer. `removals` are the
tasks that remove some. -/
structure StreamAudio (n : Nat) where
  bufferms : UInt16
  packetBuffer : List AudioPacket
  nonce : UInt32
  history : List SentAudio
  initialized : Bool
  removals : List (Posted (ServerTask n))

def Server.audio (s : Server n) (i : Fin (n + 1)) : StreamAudio n :=
  ⟨s.bufferms, (s.streams i).packetBuffer, (s.streams i).nonce, (s.streams i).history,
    (s.streams i).initialized, s.tasks.ofKind (isRemoval i)⟩

theorem isRemoval_notPipeKind (i : Fin (n + 1)) (code : ServerTask n) (hcode : isRemoval i code = true) :
    notPipeKind code = true := by
  obtain rfl : code = .removeOldAudiodata i := eq_of_beq hcode
  rfl

theorem audio_pipeFrame {s s' : Server n} (hframe : PipeFrame s s') : s'.audio = s.audio := by
  funext i
  have hkept := (hframe.tasks.weaken (isRemoval_notPipeKind i)).kept
  rw [Server.audio, Server.audio, hframe.streams i, hkept, hframe.bufferms]

theorem audio_recordFrame {s s' : Server n} (hframe : RecordFrame s s') : s'.audio = s.audio := by
  funext i
  rw [Server.audio, Server.audio, hframe.streams i, hframe.tasks, hframe.bufferms]

/-- Records and pipes of the streams change. -/
theorem audio_setClients (s : Server n) (i : Fin (n + 1)) (clients : List ClientRecord) :
    (s.setClients i clients).audio = s.audio := by
  funext j
  rcases eq_or_ne j i with rfl | hne
  · simp [Server.audio, Server.setClients, Server.setStream]
  · simp [Server.audio, Server.setClients, Server.setStream, Function.update_of_ne hne]

/-- Other tasks change, and what is not the streams'. -/
theorem audio_congr {s s' : Server n} (hbufferms : s'.bufferms = s.bufferms)
    (hstreams : s'.streams = s.streams)
    (htasks : ∀ i, s'.tasks.ofKind (isRemoval i) = s.tasks.ofKind (isRemoval i)) : s'.audio = s.audio := by
  funext i
  rw [Server.audio, Server.audio, hbufferms, hstreams, htasks i]

/-! ### Clients and packets -/

theorem streamClientAdd_audio {opened : Option Nat} {s s' : Server n} {i : Fin (n + 1)}
    {client : ClientRecord} (hinv : HandleInv s)
    (hmade : s.tasks.Made client.purgeTask (.scheduleDeleteClient client.id))
    (hrun : streamClientAdd opened s i client = .ok s') : s'.audio = s.audio :=
  (audio_pipeFrame (streamClientAdd_spec hinv hmade hrun)).trans (audio_setClients s i _)

theorem streamClientRemove_audio {s s' : Server n} {i : Fin (n + 1)} {k : Nat} (hinv : HandleInv s)
    (hrun : streamClientRemove s i k = .ok s') : s'.audio = s.audio :=
  (audio_pipeFrame (streamClientRemove_spec hinv hrun)).trans (audio_setClients s i _)

theorem clientmgrDeleteClient_audio {s s' : Server n} {id : UInt16} (hinv : HandleInv s)
    (hrun : clientmgrDeleteClient s id = .ok s') : s'.audio = s.audio := by
  unfold clientmgrDeleteClient at hrun
  split at hrun
  · cases hrun
    rfl
  · rename_i i k hfind
    unfold deleteClientInternal at hrun
    split at hrun
    · cases hrun
      rfl
    · rename_i client hclient
      obtain ⟨tasks, hdrop, hrun⟩ := except_bind_ok hrun
      have hmade := hinv.purge i client (List.mem_of_getElem? hclient)
      have hhandles : HandleInv { s with tasks } := by
        refine hinv.of (hinv.sound.dropTask hdrop) ?_ rfl (fun _ _ => .inl)
        rw [TaskPool.dropTask_eq hinv.sound hdrop]
      refine (streamClientRemove_audio hhandles hrun).trans (audio_congr rfl rfl fun j => ?_)
      exact (TaskPool.Frame.dropTask hinv.sound hmade rfl hdrop).kept

/-- The server before the first client has come. -/
structure Unstarted (s : Server n) : Prop where
  clients : ∀ i, s.clients i = []
  interest : s.interest = ∅
  pending : s.pending = []
  queued : s.tasks.queued = []
  audio : s.audio 0 = ⟨s.bufferms, [], 0, [], false, []⟩

/-- A server whose first stream is not set up has not been started. -/
def StartInv (s : Server n) : Prop := (s.streams firstStream).initialized = false → Unstarted s

/-- When the first client comes, the first stream is set up. -/
def StreamAudio.started (audio : StreamAudio n) (i : Fin (n + 1)) : StreamAudio n :=
  { audio with initialized := if i = firstStream then true else audio.initialized }

theorem initFirstStream_audio {s : Server n} (hunsent : (s.streams 0).initialized = false →
    (s.streams 0).packetBuffer = [] ∧ (s.streams 0).nonce = 0) :
    (initFirstStream s).audio = fun i => (s.audio i).started i := by
  unfold initFirstStream
  split_ifs with hinit
  · funext i
    rcases eq_or_ne i 0 with rfl | hne
    · simp [StreamAudio.started, Server.audio, hinit]
    · simp [StreamAudio.started, hne]
  · obtain ⟨hbuffer, hnonce⟩ := hunsent (Bool.eq_false_iff.mpr hinit)
    funext i
    rcases eq_or_ne i 0 with rfl | hne
    · simp only [Server.audio, Server.setStream, Function.update_self, streamInit,
        StreamAudio.started, if_pos, hbuffer, hnonce]
    · simp only [Server.audio, Server.setStream, Function.update_of_ne hne, StreamAudio.started,
        if_neg hne]

theorem StartInv.unsent {s : Server n} (hstart : StartInv s) (hinit : (s.streams 0).initialized = false) :
    (s.streams 0).packetBuffer = [] ∧ (s.streams 0).nonce = 0 := by
  have hfields := StreamAudio.mk.inj (hstart hinit).audio
  exact ⟨hfields.2.1, hfields.2.2.1⟩

/-- What keeps the audio of the streams leaves nothing sent on a stream that is not set up. -/
theorem StartInv.unsent_of_audio {s s' : Server n} (hstart : StartInv s) (hsame : s'.audio = s.audio)
    (hinit : (s'.streams 0).initialized = false) :
    (s'.streams 0).packetBuffer = [] ∧ (s'.streams 0).nonce = 0 := by
  have hfields := StreamAudio.mk.inj (congrFun hsame 0)
  obtain ⟨hbuffer, hnonce⟩ := hstart.unsent (hfields.2.2.2.2.1.symm.trans hinit)
  exact ⟨hfields.2.1.trans hbuffer, hfields.2.2.1.trans hnonce⟩

theorem addClient_audio {clock : ServerClock} {opened : Option Nat} {s s' : Server n} {peer : Peer}
    (hinv : HandleInv s) (hunstarted : (s.streams 0).initialized = false → ∀ i, s.clients i = [])
    (hunsent : (s.streams 0).initialized = false →
      (s.streams 0).packetBuffer = [] ∧ (s.streams 0).nonce = 0)
    (hrun : addClient clock opened s peer = .ok s') : s'.audio = fun i => (s.audio i).started i := by
  obtain ⟨s₂, hcreate, hrun⟩ := except_bind_ok hrun
  obtain ⟨s₁, hadd, hgreet⟩ := except_bind_ok hcreate
  have hframe : RecordFrame s₁ s' := by
    split at hrun
    · cases hrun
    · cases hrun
      exact (RecordFrame.greetClient hgreet).trans (.noteSeen clock s₂ 0 _ peer)
  have hposted : TaskPool.Frame (fun code => !(code == ServerTask.scheduleDeleteClient peer.hello.id)) s.tasks
      (s.tasks.postTask clock.uptime 5 0 (.scheduleDeleteClient peer.hello.id)).2 :=
    .postTask hinv.sound _ _ _ (by rw [beq_self_eq_true, Bool.not_true])
  obtain ⟨hhandles, -, hmade⟩ := withPurgeTask_handles hinv hunstarted clock peer.hello.id
  have haudio : Server.audio { s with tasks :=
      (s.tasks.postTask clock.uptime 5 0 (.scheduleDeleteClient peer.hello.id)).2 } = s.audio :=
    audio_congr rfl rfl fun i => (hposted.weaken fun code hcode => by
      obtain rfl : code = .removeOldAudiodata i := eq_of_beq hcode
      rfl).kept
  have hinit := @initFirstStream_audio n { s with tasks :=
      (s.tasks.postTask clock.uptime 5 0 (.scheduleDeleteClient peer.hello.id)).2 } hunsent
  rw [audio_recordFrame hframe, streamClientAdd_audio hhandles hmade hadd]
  exact hinit.trans (by rw [haudio])

/-- `clientmgr_refresh_client` sends packets, but neither keeps nor removes any. -/
theorem clientmgrRefreshClient_audio {clock : ServerClock} {opened : Option Nat} {s s' : Server n}
    {peer : Peer} (hreg : RegistryInv s) (hstart : StartInv s)
    (hrun : clientmgrRefreshClient clock opened s peer = .ok s') :
    s'.audio = s.audio ∨ s'.audio = fun i => (s.audio i).started i := by
  cases refreshedClient hrun with
  | added hfind hrun => exact .inr (addClient_audio hreg.handles hreg.unstarted hstart.unsent hrun)
  | @moved i k existing s₁ _ hfind hclient hid hport hdelete hrun =>
      obtain ⟨hdeleted, -⟩ := clientmgrDeleteClient_spec hreg hdelete
      have hsame := clientmgrDeleteClient_audio hreg.handles hdelete
      have hunsent := hstart.unsent_of_audio hsame
      refine .inr ((addClient_audio hdeleted.handles hdeleted.unstarted hunsent hrun).trans ?_)
      rw [hsame]
  | @seen i k existing tasks hfind hclient hid hport hreschedule =>
      have hmade := hreg.handles.purge i existing (List.mem_of_getElem? hclient)
      have hkept : TaskPool.Frame (fun code => !(code == ServerTask.scheduleDeleteClient existing.id))
          s.tasks tasks := by
        have howned : (fun code => !(code == ServerTask.scheduleDeleteClient existing.id))
            (ServerTask.scheduleDeleteClient (n := n) existing.id) = false := by
          dsimp only
          rw [beq_self_eq_true, Bool.not_true]
        refine .rescheduleTask hreg.handles.sound (fun id hid => ?_) howned hreschedule
        rw [← Option.some.inj hid]
        exact hmade
      refine .inl ((audio_recordFrame (.noteSeen clock { s with tasks } i k peer)).trans ?_)
      exact audio_congr rfl rfl fun j => (hkept.weaken fun code hcode => by
        obtain rfl : code = .removeOldAudiodata j := eq_of_beq hcode
        rfl).kept

theorem handleClientSetstream_audio {opened : Option Nat} {s s' : Server n} {request : JsonrpcRequest}
    {reply : Option SetstreamReply} (hinv : HandleInv s)
    (hrun : handleClientSetstream opened s request = .ok (s', reply)) : s'.audio = s.audio := by
  cases movedClient hrun with
  | stays => rfl
  | @moves client i _ _ _ _ hclient hne hadd hremove =>
      have hstopped : RecordFrame s (intercomStopClientOf s client) := .send s _ _ _ _
      have hhandles := hstopped.handles hinv
      have hmade : (intercomStopClientOf s client).tasks.Made client.purgeTask
          (.scheduleDeleteClient client.id) := hinv.purge i client (List.mem_of_getElem? hclient)
      have hadded := streamClientAdd_spec hhandles hmade hadd
      rw [streamClientRemove_audio hadded.handles hremove, streamClientAdd_audio hhandles hmade hadd,
        audio_recordFrame hstopped]

/-- A packet is sent and kept. The number of its task is not told. -/
def StreamAudio.keep (audio : StreamAudio n) (i : Fin (n + 1)) (chunk : PcmChunk) (now : Timespec)
    (id : Nat) : StreamAudio n :=
  let assembly := (assembleAudio (fun _ => 0) audio.bufferms audio.nonce chunk).1
  let ap := keptPacket (fun _ => 0) assembly
  { audio with
    packetBuffer := audio.packetBuffer ++ [ap]
    nonce := audio.nonce + 1
    history := audio.history ++ [⟨ap.nonce, load assembly.packet 0 assembly.packetLen, now⟩]
    removals := audio.removals ++ [⟨id, settime now (audio.bufferms.toNat / 1000 : Nat)
      (audio.bufferms.toNat % 1000 : Nat), .removeOldAudiodata i⟩] }

def StreamAudio.remove (audio : StreamAudio n) (clients : List ClientRecord) (systime : Timespec)
    (id : Nat) : StreamAudio n :=
  { audio with
    packetBuffer := if clients.length = 0 then audio.packetBuffer
      else removeOldPackets (timeSubMs systime (.ofNat audio.bufferms.toNat)) audio.packetBuffer
    removals := audio.removals.filter (·.id != id) }

theorem keepAudio_audio (clock : ServerClock) (s : Server n) (i : Fin (n + 1)) (chunk : PcmChunk) :
    (keepAudio clock s i (assembleAudio (fun _ => 0) s.bufferms (s.streams i).nonce chunk).1
      ((s.streams i).nonce + 1)).audio =
      Function.update s.audio i ((s.audio i).keep i chunk clock.uptime s.tasks.fresh) := by
  funext j
  rcases eq_or_ne j i with rfl | hne
  · rw [Function.update_self]
    simp only [Server.audio, keepAudio, Server.setStream, Function.update_self, keepPacket, StreamAudio.keep,
      StreamAudio.mk.injEq, true_and]
    change (s.tasks.queued ++ [_]).filter _ = _
    rw [List.filter_append, List.filter_singleton, isRemoval, beq_self_eq_true]
    rfl
  · rw [Function.update_of_ne hne]
    have hother : isRemoval j (.removeOldAudiodata i) = false := by
      rw [isRemoval, beq_eq_false_iff_ne]
      exact fun heq => hne (ServerTask.removeOldAudiodata.inj heq).symm
    simp only [Server.audio, keepAudio, Server.setStream, Function.update_of_ne hne, StreamAudio.mk.injEq,
      true_and]
    change (s.tasks.queued ++ [_]).filter _ = _
    rw [List.filter_append, List.filter_singleton, hother]
    exact List.append_nil _

theorem deliver_keeps {clock : ServerClock} {encoded : Int × List UInt8} {s s' : Server n}
    {i : Fin (n + 1)} {restarted : Bool} (hinv : HandleInv s)
    (hrun : deliver clock encoded s i restarted = .ok s') :
    ∃ pcm chunk id, encodeOpusHandle encoded pcm = .ok chunk ∧
      s'.audio = Function.update s.audio i ((s.audio i).keep i chunk clock.uptime id) := by
  have hstopped : RecordFrame s (if restarted then clientmgrStopClients s i else s) := by
    split_ifs
    · exact .stopClients s i
    · exact .refl s
  obtain ⟨chunk, hencode, hrun⟩ := except_bind_ok hrun
  cases hrun
  generalize (if restarted then clientmgrStopClients s i else s) = s₁ at hstopped hencode ⊢
  have hencoded : PipeFrame s₁ (s₁.setPipe i { s₁.pipe i with chunk }) :=
    .updateCtx (hstopped.handles hinv) s₁.interest (.inl rfl) (.inl rfl)
  have hsame := (audio_pipeFrame hencoded).trans (audio_recordFrame hstopped)
  have hchunk : ((s₁.setPipe i { s₁.pipe i with chunk }).pipe i).chunk = chunk := by
    rw [Server.setPipe_pipe, Function.update_self]
  generalize s₁.setPipe i { s₁.pipe i with chunk } = s₂ at hsame hchunk ⊢
  refine ⟨_, chunk, s₂.tasks.fresh, hencode, ?_⟩
  have hkept := keepAudio_audio clock s₂ i chunk
  rw [hsame] at hkept
  rw [← hkept, intercomSendAudio, hchunk]
  exact audio_recordFrame (.sendToClients _ i _)

/-! ### Events -/

inductive AudioStep (s : Server n) (i : Fin (n + 1)) : ServerEvent → StreamAudio n → Prop
  | same (event : ServerEvent) : AudioStep s i event (s.audio i)
  | started (peer : Peer) (clock : ServerClock) (opened : Option Nat) :
      AudioStep s i (.hello peer clock opened) ((s.audio i).started i)
  | kept (fd : Nat) (input : Option (List UInt8)) (encoded : Int × List UInt8) (clock : ServerClock)
      (pcm chunk : PcmChunk) (id : Nat) : encodeOpusHandle encoded pcm = .ok chunk →
      AudioStep s i (.pipeInput fd input encoded clock) ((s.audio i).keep i chunk clock.uptime id)
  | removed (task : Posted (ServerTask n)) (clock : ServerClock) (opened : Option Nat) :
      task ∈ (s.audio i).removals → timespecCmp task.due clock.uptime ≤ 0 →
      AudioStep s i (.fire task.id clock opened)
        ((s.audio i).remove (s.clients i) clock.systime task.id)

theorem AudioStep.of_eq {s : Server n} {event : ServerEvent} {i : Fin (n + 1)}
    {audio : Fin (n + 1) → StreamAudio n} (hsame : audio = s.audio) : AudioStep s i event (audio i) :=
  hsame ▸ .same event

theorem pipeInput_audio {s s' : Server n} {fd : Nat} {input : Option (List UInt8)}
    {encoded : Int × List UInt8} {clock : ServerClock} (hinv : HandleInv s)
    (hrun : pipeInput clock input encoded s fd = .ok s') (j : Fin (n + 1)) :
    AudioStep s j (.pipeInput fd input encoded clock) (s'.audio j) := by
  unfold pipeInput at hrun
  split at hrun
  · cases hrun
    exact .same _
  · rename_i i _
    obtain ⟨⟨ret, ctx, tasks⟩, hhandle, hrun⟩ := except_bind_ok hrun
    have hframe := PipeFrame.inputpipeHandle hinv hhandle
    have hsame := audio_pipeFrame hframe
    dsimp only at hrun
    split_ifs at hrun
    · exact .of_eq ((audio_pipeFrame (.throttle hframe.handles hrun)).trans hsame)
    · obtain ⟨pcm, chunk, id, hencode, hkept⟩ := deliver_keeps hframe.handles hrun
      rw [hkept, hsame]
      rcases eq_or_ne j i with rfl | hne
      · rw [Function.update_self]
        exact .kept fd input encoded clock pcm chunk id hencode
      · rw [Function.update_of_ne hne]
        exact .same _
    · cases hrun
      exact .of_eq hsame

theorem removeOldAudiodataTask_audio (clock : ServerClock) (s : Server n) (i : Fin (n + 1)) :
    (removeOldAudiodataTask clock s i).audio = Function.update s.audio i { s.audio i with
      packetBuffer := if (s.clients i).length = 0 then (s.audio i).packetBuffer
        else removeOldPackets (timeSubMs clock.systime (.ofNat s.bufferms.toNat)) (s.audio i).packetBuffer } := by
  unfold removeOldAudiodataTask
  funext j
  split_ifs
  · rcases eq_or_ne j i with rfl | hne
    · rw [Function.update_self]
    · rw [Function.update_of_ne hne]
  · rcases eq_or_ne j i with rfl | hne
    · simp [Server.audio, Server.setStream]
    · simp [Server.audio, Server.setStream, Function.update_of_ne hne]

/-- Tasks of other kinds leave the packets alone. -/
theorem fireOther_audio {s s₁ : Server n} (hinv : HandleInv s) {task : Posted (ServerTask n)}
    (htask : task ∈ s.tasks.queued) (hcode : ∀ i, isRemoval i task.code = false)
    (hsame : s₁.audio = Server.audio { s with tasks := s.tasks.start task.id }) :
    Server.audio { s₁ with tasks := s₁.tasks.finish } = s.audio := by
  have hstarted : Server.audio { s with tasks := s.tasks.start task.id } = s.audio :=
    audio_congr rfl rfl fun i => TaskPool.ofKind_start_other hinv.sound htask (hcode i)
  exact (hsame.trans hstarted : s₁.audio = s.audio)

theorem fireTask_audio {s s' : Server n} {clock : ServerClock} {opened : Option Nat} {id : Nat}
    (hinv : HandleInv s) (hrun : fireTask clock opened s id = .ok s') (j : Fin (n + 1)) :
    AudioStep s j (.fire id clock opened) (s'.audio j) := by
  unfold fireTask at hrun
  split at hrun
  · cases hrun
    exact .same _
  · rename_i task hfind
    have htask := List.mem_of_find?_eq_some hfind
    have hid := List.find?_some hfind
    obtain rfl : task.id = id := eq_of_beq hid
    split_ifs at hrun with hdue
    · cases hrun
      exact .same _
    · obtain ⟨s₁, hcall, hrun⟩ := except_bind_ok hrun
      cases hrun
      have hstarted : HandleInv { s with tasks := s.tasks.start task.id } :=
        hinv.of (hinv.sound.start htask) (List.prefix_refl _) rfl fun _ _ => .inl
      cases hcode : task.code with
      | scheduleDeleteClient client =>
          rw [hcode] at hcall
          exact .of_eq (fireOther_audio hinv htask (fun _ => by rw [hcode]; rfl)
            (clientmgrDeleteClient_audio hstarted hcall))
      | inputpipeResumeRead i =>
          rw [hcode] at hcall
          exact .of_eq (fireOther_audio hinv htask (fun _ => by rw [hcode]; rfl)
            (audio_pipeFrame (.inputpipeResumeRead hstarted hcall)))
      | setIdle i =>
          rw [hcode] at hcall
          exact .of_eq (fireOther_audio hinv htask (fun _ => by rw [hcode]; rfl)
            (audio_pipeFrame (.setStreamIdle hstarted hcall)))
      | removeOldAudiodata i =>
          rw [hcode] at hcall
          cases hcall
          change AudioStep s j _ ((removeOldAudiodataTask clock { s with tasks := s.tasks.start task.id } i).audio j)
          rw [removeOldAudiodataTask_audio]
          rcases eq_or_ne j i with rfl | hne
          · rw [Function.update_self]
            have hremoval : task ∈ (s.audio j).removals := by
              rw [Server.audio, TaskPool.mem_ofKind, isRemoval, hcode, beq_self_eq_true]
              exact ⟨htask, rfl⟩
            have hstep := AudioStep.removed (s := s) (i := j) task clock opened hremoval (not_lt.mp hdue)
            rw [StreamAudio.remove] at hstep
            have hqueued := TaskPool.ofKind_start s.tasks (isRemoval j) task.id
            change AudioStep s j _ ⟨_, _, _, _, _, (s.tasks.start task.id).ofKind (isRemoval j)⟩
            rw [hqueued]
            exact hstep
          · rw [Function.update_of_ne hne]
            have hother : isRemoval j task.code = false := by
              rw [hcode, isRemoval, beq_eq_false_iff_ne]
              exact fun heq => hne (ServerTask.removeOldAudiodata.inj heq).symm
            have hqueued := TaskPool.ofKind_start_other hinv.sound htask hother
            change AudioStep s j _ ⟨_, _, _, _, _, (s.tasks.start task.id).ofKind (isRemoval j)⟩
            rw [hqueued]
            exact .same _

/-- What an event does to the AUDIO packets of a stream. -/
theorem serverStep_audio {s s' : Server n} {event : ServerEvent} (hreg : RegistryInv s)
    (hstart : StartInv s) (hrun : serverStep s event = .ok s') (i : Fin (n + 1)) :
    AudioStep s i event (s'.audio i) := by
  cases event with
  | epollWait ready =>
      unfold serverStep at hrun
      dsimp only at hrun
      split_ifs at hrun
      · cases hrun
        exact .of_eq (audio_congr rfl rfl fun _ => rfl)
      · cases hrun
        exact .same _
  | pipeInput fd input encoded clock =>
      unfold serverStep at hrun
      dsimp only at hrun
      split_ifs at hrun
      · have hfirst := takeEvent_spec hreg fd
        have hsame : (takeEvent s fd).audio = s.audio := audio_congr rfl rfl fun _ => rfl
        have hstep := pipeInput_audio hfirst.handles hrun i
        generalize s'.audio i = audio at hstep ⊢
        cases hstep with
        | same => exact @AudioStep.of_eq n s _ i (takeEvent s fd).audio hsame
        | kept fd input encoded clock pcm chunk id hencode =>
            rw [hsame]
            exact .kept fd input encoded clock pcm chunk id hencode
      · cases hrun
        exact .same _
  | pipeHangup fd opened =>
      unfold serverStep at hrun
      dsimp only at hrun
      split_ifs at hrun
      · have hfirst := takeEvent_spec hreg fd
        have hsame : (takeEvent s fd).audio = s.audio := audio_congr rfl rfl fun _ => rfl
        unfold pipeHangup at hrun
        split at hrun
        · cases hrun
          exact .of_eq hsame
        · obtain ⟨s₁, huninit, hresume⟩ := except_bind_ok hrun
          have hframe := PipeFrame.inputpipeUninit hfirst.handles huninit
          have hopened := hframe.trans (.inputpipeResumeRead hframe.handles hresume)
          exact .of_eq ((audio_pipeFrame hopened).trans hsame)
      · cases hrun
        exact .same _
  | hello peer clock opened =>
      rcases clientmgrRefreshClient_audio hreg hstart hrun with hsame | hstarted
      · exact .of_eq hsame
      · rw [hstarted]
        exact .started peer clock opened
  | request clientid nonce ip port =>
      cases hrun
      exact .of_eq (audio_recordFrame (.answerRequest s clientid nonce ip port))
  | setStream request opened =>
      obtain ⟨⟨s₁, reply⟩, hset, hrun⟩ := except_bind_ok hrun
      cases hrun
      exact .of_eq (handleClientSetstream_audio hreg.handles hset)
  | setVolume request =>
      obtain ⟨⟨s₁, reply⟩, hset, hrun⟩ := except_bind_ok hrun
      cases hrun
      exact .of_eq (audio_recordFrame (.setVolume hset))
  | fire id clock opened => exact fireTask_audio hreg.handles hrun i

/-! ### Before the first client -/

/-- An event sets the first stream up or leaves it as it is. -/
theorem AudioStep.initialized {s : Server n} {event : ServerEvent} {audio : StreamAudio n}
    (hstep : AudioStep s 0 event audio) (hinit : audio.initialized = false) :
    (s.streams 0).initialized = false := by
  cases hstep with
  | same => exact hinit
  | started peer clock opened => cases hinit
  | kept fd input encoded clock pcm chunk id hencode => exact hinit
  | removed task clock opened htask hdue => exact hinit

theorem findClient_of_empty {s : Server n} (hempty : ∀ i, s.clients i = []) (id : UInt16) :
    findClient s id = none := by
  cases hfind : findClient s id with
  | none => rfl
  | some found =>
      obtain ⟨client, hclient, -⟩ := findClient_some (i := found.1) (k := found.2) hfind
      rw [Server.clientAt, hempty] at hclient
      cases hclient

/-- Without clients a request finds none. -/
theorem setstreamLoop_of_empty {s : Server n} (hempty : ∀ i, s.clients i = []) (parameters : List Parameter)
    (newstream : Option (Fin (n + 1))) : (setstreamLoop s parameters none newstream).1 = none := by
  cases hfound : (setstreamLoop s parameters none newstream).1 with
  | none => rfl
  | some found =>
      rcases setstreamLoop_client (i := found.1) (k := found.2) hfound with hnone | ⟨id, hfind⟩
      · cases hnone
      · rw [findClient_of_empty hempty] at hfind
        cases hfind

theorem setvolumeLoop_of_empty {s : Server n} (hempty : ∀ i, s.clients i = []) {parameters : List Parameter}
    {found found' : SetvolumeFound n} {jump : SetvolumeExit} (hnone : found.client = none)
    (hloop : setvolumeLoop s parameters found = .ok (found', jump)) : found'.client = none := by
  induction parameters generalizing found with
  | nil =>
      cases hloop
      exact hnone
  | cons p parameters ih =>
      rw [setvolumeLoop, findClient_of_empty hempty] at hloop
      split_ifs at hloop
      · cases hloop
        rfl
      · split at hloop
        · cases hloop
          exact hnone
        · rename_i object _
          obtain ⟨read, hread, hloop⟩ := except_bind_ok hloop
          cases read with
          | none =>
              cases hloop
              exact hnone
          | some found₁ =>
              refine ih ?_ hloop
              unfold readVolume at hread
              split at hread
              · split_ifs at hread
                cases hread
                exact hnone
              · split at hread
                · cases hread
                  exact hnone
                · cases hread
      · exact ih hnone hloop

/-- A server that has no clients and reads from no pipe is only changed by a HELLO. -/
theorem Unstarted.step {s s' : Server n} {event : ServerEvent} (hunstarted : Unstarted s)
    (hhello : ∀ peer clock opened, event ≠ .hello peer clock opened)
    (hrun : serverStep s event = .ok s') : s' = s := by
  cases event with
  | epollWait ready =>
      unfold serverStep at hrun
      dsimp only at hrun
      split_ifs at hrun with hready
      · cases hrun
        have hnone : ready = [] := by
          refine List.eq_nil_iff_forall_not_mem.mpr fun fd hfd => ?_
          have hinterest := hready.2.2 fd hfd
          rw [hunstarted.interest] at hinterest
          exact Finset.notMem_empty fd hinterest
        rw [hnone, ← hunstarted.pending]
      · cases hrun
        rfl
  | pipeInput fd input encoded clock =>
      unfold serverStep at hrun
      rw [hunstarted.pending] at hrun
      cases hrun
      rfl
  | pipeHangup fd opened =>
      unfold serverStep at hrun
      rw [hunstarted.pending] at hrun
      cases hrun
      rfl
  | hello peer clock opened => exact absurd rfl (hhello peer clock opened)
  | request clientid nonce ip port =>
      cases hrun
      rw [answerRequest, findClient_of_empty hunstarted.clients]
  | setStream request opened =>
      obtain ⟨⟨s₁, reply⟩, hset, hrun⟩ := except_bind_ok hrun
      cases hrun
      have hnone := setstreamLoop_of_empty hunstarted.clients request.parameters.reverse none
      unfold handleClientSetstream at hset
      split at hset
      · rename_i hloop
        rw [hloop] at hnone
        cases hnone
      · cases hset
        rfl
  | setVolume request =>
      obtain ⟨⟨s₁, reply⟩, hset, hrun⟩ := except_bind_ok hrun
      cases hrun
      obtain ⟨⟨found, jump⟩, hloop, hset⟩ := except_bind_ok hset
      obtain ⟨s₁, happly, hset⟩ := except_bind_ok hset
      cases hset
      have hnone := setvolumeLoop_of_empty hunstarted.clients rfl hloop
      unfold applySetvolume at happly
      rw [hnone] at happly
      cases jump with
      | reply =>
          cases happly
          rfl
      | apply =>
          cases happly
          rfl
  | fire id clock opened =>
      unfold serverStep fireTask at hrun
      rw [hunstarted.queued] at hrun
      cases hrun
      rfl

theorem StartInv.fresh (bufferms : UInt16) (options : Fin (n + 1) → StreamOptions) :
    StartInv (freshServer bufferms options) := fun _ => ⟨fun _ => rfl, rfl, rfl, rfl, rfl⟩

theorem StartInv.step {s s' : Server n} {event : ServerEvent} (hreg : RegistryInv s) (hstart : StartInv s)
    (hrun : serverStep s event = .ok s') : StartInv s' := by
  intro hinit'
  have hinit := (serverStep_audio hreg hstart hrun 0).initialized hinit'
  have hunstarted := hstart hinit
  by_cases hhello : ∃ peer clock opened, event = .hello peer clock opened
  · obtain ⟨peer, clock, opened, rfl⟩ := hhello
    have hrun : clientmgrRefreshClient clock opened s peer = .ok s' := hrun
    unfold clientmgrRefreshClient at hrun
    rw [findClient_of_empty hunstarted.clients] at hrun
    have haudio := addClient_audio hreg.handles hreg.unstarted hstart.unsent hrun
    have hset : (s'.audio 0).initialized = true := by
      rw [haudio]
      rfl
    exact absurd (hset.symm.trans hinit') (by decide)
  · have hnot : ∀ peer clock opened, event ≠ .hello peer clock opened := fun peer clock opened heq =>
      hhello ⟨peer, clock, opened, heq⟩
    rw [hunstarted.step hnot hrun]
    exact hunstarted

end Snapcastc
