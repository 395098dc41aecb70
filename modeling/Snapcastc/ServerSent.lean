import Snapcastc.ClientmgrMute
import Snapcastc.IntercomSwitch

/-! What the server sends: its operations, and AUDIO packets that one of its streams has made, whether they
are sent for the first time, on a REQUEST or to a client that has just come. -/

namespace Snapcastc

open Bytes

variable {n : Nat}

/-- A server operation, or an AUDIO packet that a stream has sent. -/
inductive Genuine (history : Fin (n + 1) → List SentAudio) : List UInt8 → Prop
  | operation (op : ServerOperation) : Genuine history (operationBytes op)
  | audio (i : Fin (n + 1)) (sent : SentAudio) : sent ∈ history i → Genuine history sent.bytes

/-- The AUDIO packets that the streams have sent so far. -/
def Server.histories (s : Server n) (i : Fin (n + 1)) : List SentAudio := (s.streams i).history

theorem Genuine.mono {history history' : Fin (n + 1) → List SentAudio} (hle : ∀ i, history i ⊆ history' i)
    {bytes : List UInt8} (hgenuine : Genuine history bytes) : Genuine history' bytes := by
  cases hgenuine with
  | operation op => exact .operation op
  | audio i sent hsent => exact .audio i sent (hle i hsent)

theorem Genuine.cases {history : Fin (n + 1) → List SentAudio} {bytes : List UInt8}
    (hgenuine : Genuine history bytes) :
    (∃ i, ∃ sent ∈ history i, bytes = sent.bytes) ∨ ∃ op, bytes = operationBytes op := by
  cases hgenuine with
  | audio i sent hsent => exact .inl ⟨i, sent, hsent, rfl⟩
  | operation op => exact .inr ⟨op, rfl⟩

/-- All datagrams that were sent, with the earlier ones among them, and all packets that are kept to be sent
again are genuine. -/
structure SendsGenuine (history : Fin (n + 1) → List SentAudio) (earlier : List Datagram) (s : Server n) :
    Prop where
  earlier : earlier <+: s.sent
  kept : ∀ i, ∀ ap ∈ (s.streams i).packetBuffer, Genuine history (load ap.data 0 ap.len.toNat)
  sent : ∀ datagram ∈ s.sent, Genuine history datagram.bytes

namespace SendsGenuine

variable {history history' : Fin (n + 1) → List SentAudio} {earlier : List Datagram} {s s' : Server n}

theorem mono (hle : ∀ i, history i ⊆ history' i) (hsends : SendsGenuine history earlier s) :
    SendsGenuine history' earlier s :=
  ⟨hsends.earlier, fun i ap hap => (hsends.kept i ap hap).mono hle,
    fun datagram hsent => (hsends.sent datagram hsent).mono hle⟩

/-- Other packets are not kept, and no datagrams are sent. -/
theorem of_eq (hsends : SendsGenuine history earlier s) (haudio : s'.audio = s.audio) (hsent : s'.sent = s.sent) :
    SendsGenuine history earlier s' := by
  refine ⟨hsent ▸ hsends.earlier, fun i ap hap => ?_, fun datagram hmem => hsends.sent datagram (hsent ▸ hmem)⟩
  have hbuffer : (s'.streams i).packetBuffer = (s.streams i).packetBuffer :=
    congrArg StreamAudio.packetBuffer (congrFun haudio i)
  exact hsends.kept i ap (hbuffer ▸ hap)

/-- Some datagrams are sent. -/
theorem append (hsends : SendsGenuine history earlier s) {more : List Datagram}
    (hmore : ∀ datagram ∈ more, Genuine history datagram.bytes) :
    SendsGenuine history earlier { s with sent := s.sent ++ more } := by
  refine ⟨hsends.earlier.trans (List.prefix_append _ _), hsends.kept, fun datagram hmem => ?_⟩
  rcases List.mem_append.mp hmem with hold | hnew
  · exact hsends.sent datagram hold
  · exact hmore datagram hnew

theorem pipeFrame (hsends : SendsGenuine history earlier s) (hframe : PipeFrame s s') :
    SendsGenuine history earlier s' :=
  hsends.of_eq (audio_pipeFrame hframe) hframe.sent

theorem operation (hsends : SendsGenuine history earlier s) (client : ClientRecord) (op : ServerOperation) :
    SendsGenuine history earlier (sendAssembly s client (operationPacket (fun _ => 0) op)) := by
  refine hsends.append fun datagram hmem => ?_
  rw [List.mem_singleton.mp hmem, (operationPacket_assembled (fun _ => 0) op).load_eq]
  exact .operation op

theorem setClient (hsends : SendsGenuine history earlier s) (i : Fin (n + 1)) (k : Nat) (client : ClientRecord) :
    SendsGenuine history earlier (s.setClient i k client) :=
  hsends.of_eq (audio_setClients s i _) rfl

/-- The packets that are kept are sent to a client. -/
theorem sendAudioBuffer {client : ClientRecord} (hsends : SendsGenuine history earlier s)
    (hrun : clientmgrSendAudioBufferToClient s client = .ok s') : SendsGenuine history earlier s' := by
  unfold clientmgrSendAudioBufferToClient at hrun
  split at hrun
  · cases hrun
  · rename_i i _
    cases hrun
    rw [foldl_send]
    refine hsends.append fun datagram hmem => ?_
    obtain ⟨ap, hap, rfl⟩ := List.mem_map.mp hmem
    exact hsends.kept i ap hap

theorem noteSeen (hsends : SendsGenuine history earlier s) (clock : ServerClock) (i : Fin (n + 1)) (k : Nat)
    (peer : Peer) : SendsGenuine history earlier (noteSeen clock s i k peer) := by
  unfold Snapcastc.noteSeen
  split
  · exact hsends
  · dsimp only
    split_ifs
    · exact hsends.setClient i k _
    · exact (hsends.setClient i k _).operation _ (.volume _)

theorem greetClient {peer : Peer} (hsends : SendsGenuine history earlier s) (hrun : greetClient s peer = .ok s') :
    SendsGenuine history earlier s' := by
  unfold Snapcastc.greetClient at hrun
  split at hrun
  · cases hrun
  · split at hrun
    · cases hrun
    · obtain ⟨s₁, hsend, hrun⟩ := except_bind_ok hrun
      cases hrun
      exact ((hsends.setClient 0 _ _).sendAudioBuffer hsend).setClient 0 _ _

theorem initFirstStream (hsends : SendsGenuine history earlier s) :
    SendsGenuine history earlier (initFirstStream s) := by
  unfold Snapcastc.initFirstStream
  split_ifs
  · exact hsends
  · refine ⟨hsends.earlier, fun i ap hap => ?_, hsends.sent⟩
    rcases eq_or_ne i 0 with rfl | hne
    · simp [Server.setStream, streamInit] at hap
    · simp only [Server.setStream, Function.update_of_ne hne] at hap
      exact hsends.kept i ap hap

theorem addClient {clock : ServerClock} {opened : Option Nat} {peer : Peer} (hreg : RegistryInv s)
    (hsends : SendsGenuine history earlier s) (hrun : addClient clock opened s peer = .ok s') :
    SendsGenuine history earlier s' := by
  obtain ⟨s₂, hcreate, hrun⟩ := except_bind_ok hrun
  obtain ⟨s₁, hadd, hgreet⟩ := except_bind_ok hcreate
  obtain ⟨hhandles, -, hmade⟩ := withPurgeTask_handles hreg.handles hreg.unstarted clock peer.hello.id
  have hposted : SendsGenuine history earlier { s with tasks :=
      (s.tasks.postTask clock.uptime 5 0 (.scheduleDeleteClient peer.hello.id)).2 } :=
    ⟨hsends.earlier, hsends.kept, hsends.sent⟩
  have haudio := streamClientAdd_audio hhandles hmade hadd
  have hsent := (streamClientAdd_spec hhandles hmade hadd).sent
  have hadded : SendsGenuine history earlier s₁ := hposted.initFirstStream.of_eq haudio hsent
  have hgreeted := hadded.greetClient hgreet
  split at hrun
  · cases hrun
  · cases hrun
    exact hgreeted.noteSeen clock 0 _ peer

theorem deleteClient {id : UInt16} (hreg : RegistryInv s) (hsends : SendsGenuine history earlier s)
    (hrun : clientmgrDeleteClient s id = .ok s') : SendsGenuine history earlier s' :=
  hsends.of_eq (clientmgrDeleteClient_audio hreg.handles hrun) (clientmgrDeleteClient_sent hreg.handles hrun)

/-- `clientmgr_refresh_client`. -/
theorem refreshClient {clock : ServerClock} {opened : Option Nat} {peer : Peer} (hreg : RegistryInv s)
    (hsends : SendsGenuine history earlier s) (hrun : clientmgrRefreshClient clock opened s peer = .ok s') :
    SendsGenuine history earlier s' := by
  cases refreshedClient hrun with
  | added hfind hrun => exact addClient hreg hsends hrun
  | moved hfind hclient hid hport hdelete hrun =>
      obtain ⟨hdeleted, -⟩ := clientmgrDeleteClient_spec hreg hdelete
      exact addClient (hdeleted.inv hreg) (deleteClient hreg hsends hdelete) hrun
  | @seen i k existing tasks hfind hclient hid hport hreschedule =>
      have htasks : SendsGenuine history earlier { s with tasks } := ⟨hsends.earlier, hsends.kept, hsends.sent⟩
      exact htasks.noteSeen clock i k peer

/-! ### The control protocol -/

theorem setstream {opened : Option Nat} {request : JsonrpcRequest} {reply : Option SetstreamReply}
    (hreg : RegistryInv s) (hsends : SendsGenuine history earlier s)
    (hrun : handleClientSetstream opened s request = .ok (s', reply)) : SendsGenuine history earlier s' := by
  cases movedClient hrun with
  | stays => exact hsends
  | @moves client i _ _ s₁ _ hclient hne hadd hremove =>
      have hstopped : RecordFrame s (intercomStopClientOf s client) := .send s _ _ _ _
      have hhandles := hstopped.handles hreg.handles
      have hmade := hreg.handles.purge i client (List.mem_of_getElem? hclient)
      have hadded := streamClientAdd_spec hhandles hmade hadd
      have htold : SendsGenuine history earlier (intercomStopClientOf s client) := hsends.operation client .stop
      have hjoined : SendsGenuine history earlier s₁ :=
        htold.of_eq (streamClientAdd_audio hhandles hmade hadd) hadded.sent
      exact hjoined.of_eq (streamClientRemove_audio hadded.handles hremove)
        (streamClientRemove_spec hadded.handles hremove).sent

theorem setmute {i : Fin (n + 1)} {k : Nat} {mute : Bool} (hsends : SendsGenuine history earlier s)
    (hrun : clientmgrClientSetmute s i k mute = .ok s') : SendsGenuine history earlier s' := by
  obtain ⟨client, -, hcases⟩ := clientmgrClientSetmute_cases hrun
  have hset := hsends.setClient i k { client with muted := mute }
  rcases hcases with ⟨-, rfl⟩ | ⟨-, hsend⟩ | rfl
  · exact hset.operation _ .stop
  · exact hset.sendAudioBuffer hsend
  · exact hset

theorem applyVolume {i : Fin (n + 1)} {k : Nat} {volume : Option Int} (hsends : SendsGenuine history earlier s)
    (hrun : applyVolume s i k volume = .ok s') : SendsGenuine history earlier s' := by
  cases volume with
  | none =>
      cases hrun
      exact hsends
  | some volume =>
      unfold Snapcastc.applyVolume at hrun
      dsimp only at hrun
      split at hrun
      · cases hrun
      · rename_i client _
        cases hrun
        exact (hsends.operation client (.volume (UInt8.ofInt volume))).setClient i k _

theorem setvolume {request : JsonrpcRequest} {reply : Option VolumeReply} (hsends : SendsGenuine history earlier s)
    (hrun : handleClientSetvolume s request = .ok (s', reply)) : SendsGenuine history earlier s' := by
  obtain ⟨⟨found, jump⟩, -, hrun⟩ := except_bind_ok hrun
  obtain ⟨s₁, happly, hrun⟩ := except_bind_ok hrun
  cases hrun
  unfold applySetvolume at happly
  cases jump with
  | reply =>
      cases happly
      exact hsends
  | apply =>
      cases hfound : found.client with
      | none =>
          rw [hfound] at happly
          cases happly
          exact hsends
      | some place =>
          rw [hfound] at happly
          obtain ⟨s₂, hvolume, happly⟩ := except_bind_ok happly
          have hadjusted := hsends.applyVolume hvolume
          cases hmute : found.mute with
          | none =>
              rw [hmute] at happly
              cases happly
              exact hadjusted
          | some mute =>
              rw [hmute] at happly
              exact hadjusted.setmute happly

/-- `intercom_send_audio` sends the packet that it adds to the history of the stream. -/
theorem sendAudio {clock : ServerClock} {i : Fin (n + 1)} (hsends : SendsGenuine history earlier s)
    (hhistory : ∀ sent ∈ ((intercomSendAudio clock s i).streams i).history, sent ∈ history i)
    (hkept : ∀ j, ∀ ap ∈ ((intercomSendAudio clock s i).streams j).packetBuffer,
      Genuine history (load ap.data 0 ap.len.toNat)) :
    SendsGenuine history earlier (intercomSendAudio clock s i) := by
  obtain ⟨sent, hadded, hsent⟩ := intercomSendAudio_sent clock s i
  have hprefix : s.sent <+: (intercomSendAudio clock s i).sent := by
    rw [hsent]
    exact List.prefix_append _ _
  refine ⟨hsends.earlier.trans hprefix, hkept, fun datagram hmem => ?_⟩
  rw [hsent] at hmem
  rcases List.mem_append.mp hmem with hold | hnew
  · exact hsends.sent datagram hold
  · obtain ⟨client, -, rfl⟩ := List.mem_map.mp hnew
    exact .audio i sent (hhistory sent (by rw [hadded]; exact List.mem_append_right _ (List.mem_singleton_self _)))

theorem stopClients (hsends : SendsGenuine history earlier s) (i : Fin (n + 1)) :
    SendsGenuine history earlier (clientmgrStopClients s i) := by
  unfold clientmgrStopClients
  generalize (s.clients i).reverse = clients
  induction clients generalizing s with
  | nil => exact hsends
  | cons client clients ih => exact ih (hsends.operation client .stop)

end SendsGenuine

/-- The packets that are kept were sent. -/
theorem KeptInv.genuine {s : Server n} (hinv : KeptInv s) {i : Fin (n + 1)} {ap : AudioPacket}
    (hap : ap ∈ (s.streams i).packetBuffer) : Genuine s.histories (load ap.data 0 ap.len.toNat) := by
  obtain ⟨first, -, hwindow⟩ := (hinv.window i).window
  have hmem : ap ∈ (s.audio i).packetBuffer := hap
  rw [hwindow] at hmem
  obtain ⟨sent, hdrop, rfl⟩ := List.mem_map.mp hmem
  have hsent := List.mem_of_mem_drop hdrop
  obtain ⟨chunk, hbytes⟩ := (hinv.window i).packets sent hsent
  rw [(copy_reads hbytes (hinv.short i sent hsent)).2]
  exact .audio i sent hsent

/-! ### Events -/

theorem answerRequest_genuine {s : Server n} {history : Fin (n + 1) → List SentAudio} {earlier : List Datagram}
    (hsends : SendsGenuine history earlier s) (clientid : UInt16) (nonce : UInt32) (peer : In6Addr) (port : UInt16) :
    SendsGenuine history earlier (answerRequest s clientid nonce peer port) := by
  by_cases hanswerable : Answerable s clientid nonce
  · obtain ⟨i, ap, hap, hsent⟩ := answerRequest_of_answerable hanswerable peer port
    rw [hsent]
    refine hsends.append fun datagram hmem => ?_
    rw [List.mem_singleton.mp hmem]
    exact hsends.kept i ap hap
  · rw [answerRequest_of_not hanswerable]
    exact hsends

/-- A chunk is sent. What is kept afterwards is known to have been sent. -/
theorem deliver_genuine {clock : ServerClock} {encoded : Int × List UInt8} {s s' : Server n} {earlier : List Datagram}
    {i : Fin (n + 1)} {restarted : Bool} (hinv : HandleInv s) (hsends : SendsGenuine s'.histories earlier s)
    (hkept : ∀ j, ∀ ap ∈ (s'.streams j).packetBuffer, Genuine s'.histories (load ap.data 0 ap.len.toNat))
    (hrun : deliver clock encoded s i restarted = .ok s') : SendsGenuine s'.histories earlier s' := by
  have hstopped : RecordFrame s (if restarted then clientmgrStopClients s i else s) ∧
      SendsGenuine s'.histories earlier (if restarted then clientmgrStopClients s i else s) := by
    split_ifs
    · exact ⟨.stopClients s i, hsends.stopClients i⟩
    · exact ⟨.refl s, hsends⟩
  obtain ⟨chunk, -, hrun⟩ := except_bind_ok hrun
  cases hrun
  generalize (if restarted then clientmgrStopClients s i else s) = s₁ at hstopped hkept ⊢
  have hencoded : PipeFrame s₁ (s₁.setPipe i { s₁.pipe i with chunk }) :=
    .updateCtx (hstopped.1.handles hinv) s₁.interest (.inl rfl) (.inl rfl)
  exact SendsGenuine.sendAudio (hstopped.2.pipeFrame hencoded) (fun sent hsent => hsent) hkept

/-- An input event of a pipe. -/
theorem pipeInput_genuine {clock : ServerClock} {input : Option (List UInt8)} {encoded : Int × List UInt8}
    {s s' : Server n} {earlier : List Datagram} {fd : Nat} (hinv : HandleInv s)
    (hsends : SendsGenuine s'.histories earlier s)
    (hkept : ∀ i, ∀ ap ∈ (s'.streams i).packetBuffer, Genuine s'.histories (load ap.data 0 ap.len.toNat))
    (hrun : pipeInput clock input encoded s fd = .ok s') : SendsGenuine s'.histories earlier s' := by
  unfold pipeInput at hrun
  split at hrun
  · cases hrun
    exact hsends
  · rename_i i _
    obtain ⟨⟨ret, ctx, tasks⟩, hhandle, hrun⟩ := except_bind_ok hrun
    have hframe := PipeFrame.inputpipeHandle hinv hhandle
    have hread := hsends.pipeFrame hframe
    dsimp only at hrun
    split_ifs at hrun
    · exact hread.pipeFrame (.throttle hframe.handles hrun)
    · exact deliver_genuine hframe.handles hread hkept hrun
    · cases hrun
      exact hread

theorem serverStep_histories {s s' : Server n} {event : ServerEvent} (hinv : KeptInv s)
    (hrun : serverStep s event = .ok s') (i : Fin (n + 1)) : s.histories i ⊆ s'.histories i := by
  have hprefix : s.histories i <+: s'.histories i := (serverStep_audio hinv.registry hinv.start hrun i).history
  exact hprefix.subset

/-- Whatever the server does, it sends nothing but genuine datagrams. -/
theorem serverStep_genuine {s s' : Server n} {event : ServerEvent} (hinv : KeptInv s) (hinv' : KeptInv s')
    (hsent : ∀ datagram ∈ s.sent, Genuine s.histories datagram.bytes)
    (hrun : serverStep s event = .ok s') :
    s.sent <+: s'.sent ∧ ∀ datagram ∈ s'.sent, Genuine s'.histories datagram.bytes := by
  have hhistory := serverStep_histories hinv hrun
  have hbefore : SendsGenuine s.histories s.sent s :=
    ⟨List.prefix_rfl, fun i ap hap => hinv.genuine hap, hsent⟩
  have hsends : SendsGenuine s'.histories s.sent s := hbefore.mono hhistory
  have hafter : SendsGenuine s'.histories s.sent s' := by
    cases event with
    | epollWait ready =>
        unfold serverStep at hrun
        dsimp only at hrun
        split_ifs at hrun
        · cases hrun
          exact ⟨hsends.earlier, hsends.kept, hsends.sent⟩
        · cases hrun
          exact hsends
    | pipeInput fd input encoded clock =>
        unfold serverStep at hrun
        dsimp only at hrun
        split_ifs at hrun
        · have htaken : SendsGenuine s'.histories s.sent (takeEvent s fd) :=
            ⟨hsends.earlier, hsends.kept, hsends.sent⟩
          exact pipeInput_genuine (takeEvent_spec hinv.registry fd).handles htaken
            (fun i ap hap => hinv'.genuine hap) hrun
        · cases hrun
          exact hsends
    | pipeHangup fd opened =>
        unfold serverStep at hrun
        dsimp only at hrun
        split_ifs at hrun
        · have htaken : SendsGenuine s'.histories s.sent (takeEvent s fd) :=
            ⟨hsends.earlier, hsends.kept, hsends.sent⟩
          unfold pipeHangup at hrun
          split at hrun
          · cases hrun
            exact htaken
          · obtain ⟨s₁, huninit, hresume⟩ := except_bind_ok hrun
            have hframe := PipeFrame.inputpipeUninit (takeEvent_spec hinv.registry fd).handles huninit
            exact htaken.pipeFrame (hframe.trans (.inputpipeResumeRead hframe.handles hresume))
        · cases hrun
          exact hsends
    | hello peer clock opened => exact hsends.refreshClient hinv.registry hrun
    | request clientid nonce ip port =>
        cases hrun
        exact answerRequest_genuine hsends clientid nonce ip port
    | setStream request opened =>
        obtain ⟨⟨s₁, reply⟩, hset, hrun⟩ := except_bind_ok hrun
        cases hrun
        exact hsends.setstream hinv.registry hset
    | setVolume request =>
        obtain ⟨⟨s₁, reply⟩, hset, hrun⟩ := except_bind_ok hrun
        cases hrun
        exact hsends.setvolume hset
    | fire id clock opened =>
        have hsame := fireTask_sent hinv.registry.handles hrun
        refine ⟨hsame ▸ List.prefix_rfl, fun i ap hap => hinv'.genuine hap, fun datagram hmem => ?_⟩
        exact hsends.sent datagram (hsame ▸ hmem)
  exact ⟨hafter.earlier, hafter.sent⟩

/-! ### What the packets carry -/

/-- `opus_encode` returns a number of bytes that it was allowed to write, and has written these. -/
def OpusWrites (encoded : Int × List UInt8) : Prop :=
  1 ≤ encoded.1 ∧ encoded.1 ≤ opusMss ∧ encoded.1 ≤ encoded.2.length

instance (encoded : Int × List UInt8) : Decidable (OpusWrites encoded) :=
  inferInstanceAs (Decidable (_ ∧ _ ∧ _))

/-- `opus_encode` does so if it is called at the event. -/
def ServerEvent.OpusWrites : ServerEvent → Prop
  | .pipeInput _ _ encoded _ => Snapcastc.OpusWrites encoded
  | _ => True

theorem ServerEvent.OpusWrites.returns {event : ServerEvent} (hopus : event.OpusWrites) : event.OpusReturns := by
  cases event with
  | pipeInput fd input encoded clock => exact ⟨hopus.1, hopus.2.1⟩
  | _ => trivial

structure SentAudio.Carries (bufferms : UInt16) (sent : SentAudio) (chunk : PcmChunk) : Prop where
  bytes : sent.bytes = audioBytes bufferms sent.nonce chunk
  data : chunk.data.length = chunk.size.toNat
  fits : chunk.size.toNat ≤ opusMss

def CarryInv (audio : StreamAudio n) : Prop := ∀ sent ∈ audio.history, ∃ chunk, sent.Carries audio.bufferms chunk

/-- Bytes that are not sent do not matter. -/
theorem audioBytes_take (bufferms : UInt16) (nonce : UInt32) (chunk : PcmChunk) :
    audioBytes bufferms nonce { chunk with data := chunk.data.take chunk.size.toNat } =
      audioBytes bufferms nonce chunk := by
  rw [audioBytes, audioBytes, List.take_take, min_self]
  rfl

/-- The encoder fills the chunk up to its new size. -/
theorem encodeOpusHandle_data {encoded : Int × List UInt8} {pcm chunk : PcmChunk} (hopus : OpusWrites encoded)
    (hencode : encodeOpusHandle encoded pcm = .ok chunk) : chunk.size.toNat ≤ chunk.data.length := by
  have hsize := uint16_ofInt_toNat encoded.1
  unfold encodeOpusHandle at hencode
  dsimp only at hencode
  split_ifs at hencode
  cases hencode
  have hmss : opusMss = 1427 := rfl
  obtain ⟨hlo, hhi, hwritten⟩ := hopus
  change (UInt16.ofInt encoded.1).toNat ≤ (encoded.2.take encoded.1.toNat ++ _).length
  rw [List.length_append, List.length_take]
  omega

theorem CarryInv.step {s : Server n} {i : Fin (n + 1)} {event : ServerEvent} {audio : StreamAudio n}
    (hinv : CarryInv (s.audio i)) (hopus : event.OpusWrites) (hstep : AudioStep s i event audio) :
    CarryInv audio := by
  cases hstep with
  | same => exact hinv
  | started peer clock opened => exact hinv
  | removed task clock opened htask hdue => exact hinv
  | kept fd input encoded clock pcm chunk id hencode =>
      obtain ⟨-, hnonce, hbytes⟩ := keptPacket_eq_copy (s.audio i).bufferms (s.audio i).nonce chunk clock.uptime
      intro sent hsent
      rcases List.mem_append.mp hsent with hold | hnew
      · exact hinv sent hold
      · rw [List.mem_singleton.mp hnew]
        have hsize := encodeOpusHandle_size ⟨hopus.1, hopus.2.1⟩ hencode
        refine ⟨{ chunk with data := chunk.data.take chunk.size.toNat }, ?_, ?_, hsize⟩
        · rw [audioBytes_take]
          exact hbytes.trans (by rw [hnonce]; rfl)
        · exact List.length_take_of_le (encodeOpusHandle_data hopus hencode)

/-- Whoever receives the packet reads the chunk that it carries. -/
theorem SentAudio.Carries.received {bufferms : UInt16} {sent : SentAudio} {chunk : PcmChunk}
    (hcarries : sent.Carries bufferms chunk) (stale : Nat → UInt8) :
    audioChunk (received stale 1500 sent.bytes) = chunk ∧
      packetHdr (received stale 1500 sent.bytes) = ⟨packetFormatVersion, audioData, 0, sent.nonce⟩ := by
  have hmss : opusMss = 1427 := rfl
  have hfits : sent.bytes.length ≤ 1500 := by
    rw [hcarries.bytes, audioBytes_length, hcarries.data, min_self]
    have hsize := hcarries.fits
    omega
  have hholds := received_holds stale hfits
  rw [hcarries.bytes] at hholds ⊢
  exact ⟨Holds.audioChunk hcarries.data hholds, (Holds.audioHeader hholds.left).1⟩

/-- What holds of what the server has sent, while the encoder keeps to its limit. -/
structure SentInv (s : Server n) : Prop where
  kept : KeptInv s
  genuine : ∀ datagram ∈ s.sent, Genuine s.histories datagram.bytes
  carries : ∀ i, CarryInv (s.audio i)

theorem SentInv.fresh (bufferms : UInt16) (options : Fin (n + 1) → StreamOptions) :
    SentInv (freshServer bufferms options) where
  kept := .fresh bufferms options
  genuine := fun _ hmem => absurd hmem List.not_mem_nil
  carries := fun _ _ hsent => absurd hsent List.not_mem_nil

theorem serverStep_bufferms {s s' : Server n} {event : ServerEvent} (hinv : KeptInv s)
    (hrun : serverStep s event = .ok s') : s'.bufferms = s.bufferms := by
  have hstep := serverStep_audio hinv.registry hinv.start hrun 0
  change (s'.audio 0).bufferms = (s.audio 0).bufferms
  generalize s'.audio 0 = audio at hstep ⊢
  cases hstep with
  | same => rfl
  | started peer clock opened => rfl
  | kept fd input encoded clock pcm chunk id hencode => rfl
  | removed task clock opened htask hdue => rfl

theorem SentInv.step {s s' : Server n} {event : ServerEvent} (hinv : SentInv s) (hopus : event.OpusWrites)
    (hrun : serverStep s event = .ok s') : SentInv s' where
  kept := hinv.kept.step hopus.returns hrun
  genuine := (serverStep_genuine hinv.kept (hinv.kept.step hopus.returns hrun) hinv.genuine hrun).2
  carries := fun i =>
    (hinv.carries i).step hopus (serverStep_audio hinv.kept.registry hinv.kept.start hrun i)

end Snapcastc
