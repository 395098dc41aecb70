import Snapcastc.IntercomClientPackets
import Snapcastc.IntercomServerWindow
import Snapcastc.SocketSetvolume

/-! What reaches the address of a client that is muted. Chunks are not sent to it and the packets that are
kept are not replayed to it, but the answer to a REQUEST goes to whoever asks. -/

namespace Snapcastc

open Bytes

variable {n : Nat}

def Datagram.AudioFor (d : Datagram) (ip : In6Addr) (port : UInt16) : Prop :=
  d.recipient = ip ∧ d.port = port ∧ d.bytes[1]? = some audioData

/-- None of the datagrams that are sent between the states brings an AUDIO packet to the address. -/
def NoAudioFor (ip : In6Addr) (port : UInt16) (s s' : Server n) : Prop :=
  ∃ sent, s'.sent = s.sent ++ sent ∧ ∀ d ∈ sent, ¬d.AudioFor ip port

namespace NoAudioFor

variable {ip : In6Addr} {port : UInt16} {s s' s'' : Server n}

theorem of_eq (hsent : s'.sent = s.sent) : NoAudioFor ip port s s' :=
  ⟨[], hsent.trans (List.append_nil _).symm, fun _ hd => absurd hd List.not_mem_nil⟩

theorem trans (hfirst : NoAudioFor ip port s s') (hsecond : NoAudioFor ip port s' s'') :
    NoAudioFor ip port s s'' := by
  obtain ⟨first, hsent, hnone⟩ := hfirst
  obtain ⟨second, hsent', hnone'⟩ := hsecond
  refine ⟨first ++ second, ?_, fun d hd => ?_⟩
  · rw [hsent', hsent, List.append_assoc]
  · rcases List.mem_append.mp hd with hd | hd
    · exact hnone d hd
    · exact hnone' d hd

/-- In two parts of a run there is no such datagram if and only if there is none in either. -/
theorem trans_iff (hsent : s.sent <+: s'.sent) (hsent' : s'.sent <+: s''.sent) :
    NoAudioFor ip port s s'' ↔ NoAudioFor ip port s s' ∧ NoAudioFor ip port s' s'' := by
  refine ⟨fun hall => ?_, fun hboth => hboth.1.trans hboth.2⟩
  obtain ⟨first, hfirst⟩ := hsent
  obtain ⟨second, hsecond⟩ := hsent'
  obtain ⟨sent, hwhole, hnone⟩ := hall
  rw [← hsecond, ← hfirst, List.append_assoc] at hwhole
  obtain rfl := List.append_cancel_left hwhole
  exact ⟨⟨first, hfirst.symm, fun d hd => hnone d (List.mem_append_left _ hd)⟩,
    ⟨second, hsecond.symm, fun d hd => hnone d (List.mem_append_right _ hd)⟩⟩

theorem pipeFrame (hframe : PipeFrame s s') : NoAudioFor ip port s s' := .of_eq hframe.sent

end NoAudioFor

/-- A server operation is no AUDIO packet. -/
theorem operation_not_audio (recipient : In6Addr) (port : UInt16) (op : ServerOperation) (ip : In6Addr)
    (port' : UInt16) :
    ¬Datagram.AudioFor ⟨recipient, port, load (operationPacket (fun _ => 0) op).packet 0
      (operationPacket (fun _ => 0) op).packetLen⟩ ip port' := by
  rintro ⟨-, -, htype⟩
  rw [(operationPacket_assembled (fun _ => 0) op).load_eq] at htype
  exact absurd (Option.some.inj htype) (by decide)

theorem NoAudioFor.operation (s : Server n) (client : ClientRecord) (op : ServerOperation) (ip : In6Addr)
    (port : UInt16) : NoAudioFor ip port s (sendAssembly s client (operationPacket (fun _ => 0) op)) := by
  refine ⟨[_], rfl, fun d hd => ?_⟩
  rw [List.mem_singleton.mp hd]
  exact operation_not_audio _ _ op ip port

/-- Every record with the address is muted. -/
def Hushed (s : Server n) (ip : In6Addr) (port : UInt16) : Prop :=
  ∀ i, ∀ client ∈ s.clients i, client.ip = ip → client.port = port → client.muted = true

theorem Hushed.not_audioFor {s : Server n} {ip : In6Addr} {port : UInt16} (hhushed : Hushed s ip port)
    {i : Fin (n + 1)} {client : ClientRecord} (hclient : client ∈ s.clients i)
    (hmuted : client.muted = false) (bytes : List UInt8) :
    ¬Datagram.AudioFor ⟨client.ip, client.port, bytes⟩ ip port := by
  rintro ⟨hip, hport, -⟩
  exact absurd (hmuted.symm.trans (hhushed i client hclient hip hport)) (by decide)

theorem NoAudioFor.stopClients (s : Server n) (i : Fin (n + 1)) (ip : In6Addr) (port : UInt16) :
    NoAudioFor ip port s (clientmgrStopClients s i) ∧ (clientmgrStopClients s i).clients = s.clients := by
  unfold clientmgrStopClients
  generalize (s.clients i).reverse = clients
  induction clients generalizing s with
  | nil => exact ⟨.of_eq rfl, rfl⟩
  | cons client clients ih =>
      obtain ⟨hnone, hclients⟩ := ih (intercomStopClientOf s client)
      exact ⟨.trans (.operation s client .stop ip port) hnone, hclients⟩

/-- A chunk goes to the clients that are not muted. -/
theorem NoAudioFor.sendAudio {clock : ServerClock} {s : Server n} {i : Fin (n + 1)} {ip : In6Addr}
    {port : UInt16} (hhushed : Hushed s ip port) : NoAudioFor ip port s (intercomSendAudio clock s i) := by
  obtain ⟨sent, -, hsent⟩ := intercomSendAudio_sent clock s i
  refine ⟨_, hsent, fun d hd => ?_⟩
  obtain ⟨client, hclient, rfl⟩ := List.mem_map.mp hd
  obtain ⟨hmem, hunmuted⟩ := List.mem_filter.mp hclient
  have hmuted : client.muted = false := by simpa using hunmuted
  exact hhushed.not_audioFor (List.mem_reverse.mp hmem) hmuted sent.bytes

theorem deliver_noAudio {clock : ServerClock} {encoded : Int × List UInt8} {s s' : Server n}
    {i : Fin (n + 1)} {restarted : Bool} {ip : In6Addr} {port : UInt16} (hhushed : Hushed s ip port)
    (hrun : deliver clock encoded s i restarted = .ok s') : NoAudioFor ip port s s' := by
  have hstopped : NoAudioFor ip port s (if restarted then clientmgrStopClients s i else s) ∧
      (if restarted then clientmgrStopClients s i else s).clients = s.clients := by
    split_ifs
    · exact NoAudioFor.stopClients s i ip port
    · exact ⟨.of_eq rfl, rfl⟩
  obtain ⟨chunk, -, hrun⟩ := except_bind_ok hrun
  cases hrun
  generalize (if restarted then clientmgrStopClients s i else s) = s₁ at hstopped ⊢
  obtain ⟨hnone, hclients⟩ := hstopped
  have hencoded : NoAudioFor ip port s₁ (s₁.setPipe i { s₁.pipe i with chunk }) := .of_eq rfl
  have hhushed' : Hushed (s₁.setPipe i { s₁.pipe i with chunk }) ip port := by
    intro j client hclient
    rw [Server.setPipe_clients, hclients] at hclient
    exact hhushed j client hclient
  exact (hnone.trans hencoded).trans (.sendAudio hhushed')

theorem pipeInput_noAudio {clock : ServerClock} {input : Option (List UInt8)}
    {encoded : Int × List UInt8} {s s' : Server n} {fd : Nat} {ip : In6Addr} {port : UInt16}
    (hinv : HandleInv s) (hhushed : Hushed s ip port)
    (hrun : pipeInput clock input encoded s fd = .ok s') : NoAudioFor ip port s s' := by
  unfold pipeInput at hrun
  split at hrun
  · cases hrun
    exact .of_eq rfl
  · rename_i i _
    obtain ⟨⟨ret, ctx, tasks⟩, hhandle, hrun⟩ := except_bind_ok hrun
    have hframe := PipeFrame.inputpipeHandle hinv hhandle
    refine .trans (.pipeFrame hframe) ?_
    dsimp only at hrun
    split_ifs at hrun
    · exact .pipeFrame (.throttle hframe.handles hrun)
    · refine deliver_noAudio (fun j client hclient => ?_) hrun
      rw [hframe.clients] at hclient
      exact hhushed j client hclient
    · cases hrun
      exact .of_eq rfl

theorem sendAudioBuffer_sent {s s' : Server n} {client : ClientRecord}
    (hrun : clientmgrSendAudioBufferToClient s client = .ok s') :
    ∃ packetBuffer, s' = { s with sent := s.sent ++ bufferDatagrams client packetBuffer } := by
  unfold clientmgrSendAudioBufferToClient at hrun
  split at hrun
  · cases hrun
  · rename_i i _
    cases hrun
    exact ⟨(s.streams i).packetBuffer, foldl_send s client.ip client.port _⟩

/-- The packets that are kept are replayed to a client that is not muted. -/
theorem NoAudioFor.sendAudioBuffer {s s' : Server n} {i : Fin (n + 1)} {client : ClientRecord}
    {ip : In6Addr} {port : UInt16} (hclient : client ∈ s.clients i) (hmuted : client.muted = false)
    (hhushed : Hushed s' ip port) (hrun : clientmgrSendAudioBufferToClient s client = .ok s') :
    NoAudioFor ip port s s' := by
  obtain ⟨packetBuffer, rfl⟩ := sendAudioBuffer_sent hrun
  refine ⟨_, rfl, fun d hd => ?_⟩
  obtain ⟨ap, -, rfl⟩ := List.mem_map.mp hd
  exact hhushed.not_audioFor hclient hmuted _

/-- A record with the same address and the same mute flag takes the place of another. -/
theorem hushed_setClient {s : Server n} {i : Fin (n + 1)} {k : Nat} {client client' : ClientRecord}
    {ip : In6Addr} {port : UInt16} (hclient : s.clientAt i k = some client)
    (hsame : (client'.ip, client'.port, client'.muted) = (client.ip, client.port, client.muted))
    (hhushed : Hushed (s.setClient i k client') ip port) : Hushed s ip port := by
  obtain ⟨hat, hothers⟩ := @setClient_clientAt n s i k client client' hclient
  obtain ⟨hip, hrest⟩ := Prod.mk.inj hsame
  obtain ⟨hport, hmuted⟩ := Prod.mk.inj hrest
  intro j other hother
  obtain ⟨l, hl⟩ := List.mem_iff_getElem?.mp hother
  by_cases hplace : (j, l) = (i, k)
  · obtain ⟨rfl, rfl⟩ := Prod.mk.inj hplace
    obtain rfl := Option.some.inj (hclient.symm.trans hl)
    rw [← hip, ← hport, ← hmuted]
    exact hhushed j client' (List.mem_of_getElem? hat)
  · exact hhushed j other (List.mem_of_getElem? ((hothers j l hplace).trans hl))

theorem noteSeen_noAudio {clock : ServerClock} {s : Server n} {i : Fin (n + 1)} {k : Nat} {peer : Peer}
    {ip : In6Addr} {port : UInt16} :
    NoAudioFor ip port s (noteSeen clock s i k peer) ∧
      (Hushed (noteSeen clock s i k peer) ip port → Hushed s ip port) := by
  unfold noteSeen
  cases hclient : s.clientAt i k with
  | none => exact ⟨.of_eq rfl, id⟩
  | some existing =>
      dsimp only
      split_ifs
      · exact ⟨.of_eq rfl, hushed_setClient hclient rfl⟩
      · exact ⟨.trans (.of_eq rfl) (.operation _ _ (.volume _) ip port), hushed_setClient hclient rfl⟩

/-! ### HELLO -/

/-- The record that is greeted is the one that has just been added. -/
theorem greetClient_noAudio {s s' : Server n} {peer : Peer} {ip : In6Addr} {port : UInt16}
    (hnew : ∀ client ∈ s.clients 0, client.id = peer.hello.id → client.muted = false)
    (hhushed : Hushed s' ip port) (hrun : greetClient s peer = .ok s') : NoAudioFor ip port s s' := by
  unfold greetClient at hrun
  split at hrun
  · cases hrun
  · rename_i k hget
    split at hrun
    · cases hrun
    · rename_i existing hclient
      obtain ⟨s₁, hsend, hrun⟩ := except_bind_ok hrun
      cases hrun
      obtain ⟨hlt, hid, -⟩ := List.findIdx?_eq_some_iff_getElem.mp hget
      have hexisting : (s.clients 0)[k] = existing :=
        Option.some.inj ((List.getElem?_eq_getElem hlt).symm.trans hclient)
      have hmuted : existing.muted = false := by
        refine hnew existing (List.mem_of_getElem? hclient) ?_
        rw [← hexisting]
        exact eq_of_beq hid
      have hat := (@setClient_clientAt n s 0 k existing { existing with
        volumePercent := peer.hello.volumePercent } hclient).1
      have hset : NoAudioFor ip port s (s.setClient 0 k { existing with
          volumePercent := peer.hello.volumePercent }) := .of_eq rfl
      have hat' : s₁.clientAt 0 k = some { existing with volumePercent := peer.hello.volumePercent } := by
        obtain ⟨packetBuffer, hs₁⟩ := sendAudioBuffer_sent hsend
        rw [hs₁]
        exact hat
      have hhushed' : Hushed s₁ ip port := by
        refine hushed_setClient hat' ?_ hhushed
        rfl
      have hsent := NoAudioFor.sendAudioBuffer (List.mem_of_getElem? hat) hmuted hhushed' hsend
      exact (hset.trans hsent).trans (.of_eq rfl)

/-- A client that is not known joins the first stream. -/
theorem addClient_noAudio {clock : ServerClock} {opened : Option Nat} {s s' : Server n} {peer : Peer}
    {ip : In6Addr} {port : UInt16} (hreg : RegistryInv s)
    (hnew : ∀ i, ∀ client ∈ s.clients i, client.id ≠ peer.hello.id) (hhushed : Hushed s' ip port)
    (hrun : addClient clock opened s peer = .ok s') : NoAudioFor ip port s s' := by
  obtain ⟨s₂, hcreate, hrun⟩ := except_bind_ok hrun
  obtain ⟨s₁, hadd, hgreet⟩ := except_bind_ok hcreate
  obtain ⟨hhandles, hclients, hmade⟩ := withPurgeTask_handles hreg.handles hreg.unstarted clock
    peer.hello.id
  have hadded := streamClientAdd_spec hhandles hmade hadd
  have hjoined : NoAudioFor ip port s s₁ := by
    refine .of_eq (hadded.sent.trans ?_)
    change (initFirstStream _).sent = s.sent
    unfold initFirstStream
    split_ifs
    · rfl
    · rfl
  have hunmuted : ∀ client ∈ s₁.clients 0, client.id = peer.hello.id → client.muted = false := by
    intro client hclient hid
    rw [hadded.clients, Server.setClients_clients, Function.update_self, hclients] at hclient
    rcases List.mem_append.mp hclient with hold | hjoins
    · exact absurd hid (hnew 0 client hold)
    · rw [List.mem_singleton.mp hjoins]
  have hseen : NoAudioFor ip port s₂ s' ∧ (Hushed s' ip port → Hushed s₂ ip port) := by
    split at hrun
    · cases hrun
    · cases hrun
      exact noteSeen_noAudio
  exact hjoined.trans ((greetClient_noAudio hunmuted (hseen.2 hhushed) hgreet).trans hseen.1)

theorem clientmgrDeleteClient_sent {s s' : Server n} {id : UInt16} (hinv : HandleInv s)
    (hrun : clientmgrDeleteClient s id = .ok s') : s'.sent = s.sent := by
  unfold clientmgrDeleteClient at hrun
  split at hrun
  · cases hrun
    rfl
  · rename_i i k _
    unfold deleteClientInternal at hrun
    split at hrun
    · cases hrun
      rfl
    · rename_i client _
      obtain ⟨tasks, hdrop, hrun⟩ := except_bind_ok hrun
      have hhandles : HandleInv { s with tasks } := by
        refine hinv.of (hinv.sound.dropTask hdrop) ?_ rfl (fun _ _ => .inl)
        rw [TaskPool.dropTask_eq hinv.sound hdrop]
      exact (streamClientRemove_spec hhandles hrun).sent

theorem clientmgrRefreshClient_noAudio {clock : ServerClock} {opened : Option Nat} {s s' : Server n}
    {peer : Peer} {ip : In6Addr} {port : UInt16} (hreg : RegistryInv s) (hhushed : Hushed s' ip port)
    (hrun : clientmgrRefreshClient clock opened s peer = .ok s') : NoAudioFor ip port s s' := by
  cases refreshedClient hrun with
  | added hfind hrun =>
      exact addClient_noAudio hreg (fun i client => findClient_none hfind i) hhushed hrun
  | moved hfind hclient hid hport hdelete hrun =>
      obtain ⟨hdeleted, hnew⟩ := clientmgrDeleteClient_spec hreg hdelete
      refine .trans (.of_eq (clientmgrDeleteClient_sent hreg.handles hdelete)) ?_
      exact addClient_noAudio (hdeleted.inv hreg) hnew hhushed hrun
  | seen hfind hclient hid hport hreschedule => exact .trans (.of_eq rfl) noteSeen_noAudio.1

/-! ### The control protocol, tasks and REQUEST -/

theorem handleClientSetstream_noAudio {opened : Option Nat} {s s' : Server n} {request : JsonrpcRequest}
    {reply : Option SetstreamReply} {ip : In6Addr} {port : UInt16} (hinv : HandleInv s)
    (hrun : handleClientSetstream opened s request = .ok (s', reply)) : NoAudioFor ip port s s' := by
  cases movedClient hrun with
  | stays => exact .of_eq rfl
  | @moves client i _ _ _ _ hclient hne hadd hremove =>
      have hstopped : RecordFrame s (intercomStopClientOf s client) := .send s _ _ _ _
      have hmade := hinv.purge i client (List.mem_of_getElem? hclient)
      have hadded := streamClientAdd_spec (hstopped.handles hinv) hmade hadd
      have hremoved := streamClientRemove_spec hadded.handles hremove
      have hquiet : NoAudioFor ip port s (intercomStopClientOf s client) :=
        .operation s client .stop ip port
      exact hquiet.trans (.of_eq (hremoved.sent.trans hadded.sent))

theorem clientmgrClientSetmute_noAudio {s s' : Server n} {i : Fin (n + 1)} {k : Nat} {mute : Bool}
    {ip : In6Addr} {port : UInt16} (hhushed : Hushed s' ip port)
    (hrun : clientmgrClientSetmute s i k mute = .ok s') : NoAudioFor ip port s s' := by
  obtain ⟨client, hclient, hcases⟩ := clientmgrClientSetmute_cases hrun
  have hset : NoAudioFor ip port s (s.setClient i k { client with muted := mute }) := .of_eq rfl
  rcases hcases with ⟨-, rfl⟩ | ⟨hmute, hsend⟩ | rfl
  · exact hset.trans (.operation _ _ .stop ip port)
  · have hat := (@setClient_clientAt n s i k client { client with muted := mute } hclient).1
    exact hset.trans (.sendAudioBuffer (List.mem_of_getElem? hat) hmute hhushed hsend)
  · exact hset

theorem applyVolume_noAudio {s s' : Server n} {i : Fin (n + 1)} {k : Nat} {volume : Option Int}
    {ip : In6Addr} {port : UInt16} (hrun : applyVolume s i k volume = .ok s') :
    NoAudioFor ip port s s' := by
  cases volume with
  | none =>
      cases hrun
      exact .of_eq rfl
  | some volume =>
      unfold applyVolume at hrun
      dsimp only at hrun
      split at hrun
      · cases hrun
      · rename_i client _
        cases hrun
        have htold : NoAudioFor ip port s (clientmgrClientRefreshvolume s client (UInt8.ofInt volume)) :=
          .operation s client (.volume (UInt8.ofInt volume)) ip port
        exact htold.trans (.of_eq rfl)

theorem handleClientSetvolume_noAudio {s s' : Server n} {request : JsonrpcRequest}
    {reply : Option VolumeReply} {ip : In6Addr} {port : UInt16} (hhushed : Hushed s' ip port)
    (hrun : handleClientSetvolume s request = .ok (s', reply)) : NoAudioFor ip port s s' := by
  obtain ⟨⟨found, jump⟩, -, hrun⟩ := except_bind_ok hrun
  obtain ⟨s₁, happly, hrun⟩ := except_bind_ok hrun
  cases hrun
  unfold applySetvolume at happly
  cases jump with
  | reply =>
      cases happly
      exact .of_eq rfl
  | apply =>
      cases hfound : found.client with
      | none =>
          rw [hfound] at happly
          cases happly
          exact .of_eq rfl
      | some place =>
          rw [hfound] at happly
          obtain ⟨s₂, hvolume, happly⟩ := except_bind_ok happly
          refine (applyVolume_noAudio hvolume).trans ?_
          cases hmute : found.mute with
          | none =>
              rw [hmute] at happly
              cases happly
              exact .of_eq rfl
          | some mute =>
              rw [hmute] at happly
              exact clientmgrClientSetmute_noAudio hhushed happly

theorem fireTask_sent {clock : ServerClock} {opened : Option Nat} {s s' : Server n} {id : Nat}
    (hinv : HandleInv s) (hrun : fireTask clock opened s id = .ok s') : s'.sent = s.sent := by
  unfold fireTask at hrun
  split at hrun
  · cases hrun
    rfl
  · rename_i task hfind
    split_ifs at hrun
    · cases hrun
      rfl
    · obtain ⟨s₁, htask, hrun⟩ := except_bind_ok hrun
      cases hrun
      have hid := List.find?_some hfind
      obtain rfl : task.id = id := eq_of_beq hid
      have hstarted := hinv.start (List.mem_of_find?_eq_some hfind)
      change s₁.sent = s.sent
      cases hcode : task.code with
      | scheduleDeleteClient client =>
          rw [hcode] at htask
          have hdeleted := clientmgrDeleteClient_sent hstarted htask
          exact hdeleted
      | inputpipeResumeRead i =>
          rw [hcode] at htask
          exact (PipeFrame.inputpipeResumeRead hstarted htask).sent
      | setIdle i =>
          rw [hcode] at htask
          exact (PipeFrame.setStreamIdle hstarted htask).sent
      | removeOldAudiodata i =>
          rw [hcode] at htask
          cases htask
          unfold removeOldAudiodataTask
          split_ifs
          · rfl
          · rfl

/-- The server finds the packet with the number for the client. -/
def Answerable (s : Server n) (clientid : UInt16) (nonce : UInt32) : Prop :=
  ∃ found ∈ findClient s clientid, ∃ ap ∈ (s.streams found.1).packetBuffer, ap.nonce = nonce

instance (s : Server n) (clientid : UInt16) (nonce : UInt32) : Decidable (Answerable s clientid nonce) := by
  unfold Answerable
  infer_instance

/-- The event is no REQUEST that comes from the address and is answered. -/
def SparesAddress (ip : In6Addr) (port : UInt16) (s : Server n) : ServerEvent → Prop
  | .request clientid nonce peer port' => peer = ip → port' = port → ¬Answerable s clientid nonce
  | _ => True

instance (ip : In6Addr) (port : UInt16) (s : Server n) (event : ServerEvent) :
    Decidable (SparesAddress ip port s event) :=
  match event with
  | .request clientid nonce peer port' =>
      inferInstanceAs (Decidable (peer = ip → port' = port → ¬Answerable s clientid nonce))
  | .epollWait _ | .pipeInput .. | .pipeHangup .. | .hello .. | .setStream .. | .setVolume _ | .fire .. =>
      .isTrue trivial

theorem answerRequest_of_not {s : Server n} {clientid : UInt16} {nonce : UInt32}
    (hnot : ¬Answerable s clientid nonce) (peer : In6Addr) (port : UInt16) :
    answerRequest s clientid nonce peer port = s := by
  unfold answerRequest
  cases hfind : findClient s clientid with
  | none => rfl
  | some found =>
      dsimp only
      split
      · rfl
      · rename_i ap hap
        have hmatch := List.find?_some hap
        exact absurd ⟨found, hfind, ap, List.mem_of_find?_eq_some hap, eq_of_beq hmatch⟩ hnot

theorem answerRequest_of_answerable {s : Server n} {clientid : UInt16} {nonce : UInt32}
    (hanswerable : Answerable s clientid nonce) (peer : In6Addr) (port : UInt16) :
    ∃ i, ∃ ap ∈ (s.streams i).packetBuffer, answerRequest s clientid nonce peer port =
      { s with sent := s.sent ++ [⟨peer, port, load ap.data 0 ap.len.toNat⟩] } := by
  obtain ⟨⟨i, k⟩, hfind, ap, hmem, hnonce⟩ := hanswerable
  have hsome : ((s.streams i).packetBuffer.find? fun ap => ap.nonce == nonce).isSome :=
    List.find?_isSome.mpr ⟨ap, hmem, beq_iff_eq.mpr hnonce⟩
  obtain ⟨found, hfound⟩ := Option.isSome_iff_exists.mp hsome
  have hfind : findClient s clientid = some (i, k) := hfind
  refine ⟨i, found, List.mem_of_find?_eq_some hfound, ?_⟩
  rw [answerRequest, hfind]
  dsimp only
  rw [hfound]
  rfl

/-- What is kept is an AUDIO packet. -/
theorem KeptInv.kept_audio {s : Server n} (hinv : KeptInv s) {i : Fin (n + 1)} {ap : AudioPacket}
    (hap : ap ∈ (s.streams i).packetBuffer) : (load ap.data 0 ap.len.toNat)[1]? = some audioData := by
  obtain ⟨first, -, hwindow⟩ := (hinv.window i).window
  have hmem : ap ∈ (s.audio i).packetBuffer := hap
  rw [hwindow] at hmem
  obtain ⟨sent, hsent, rfl⟩ := List.mem_map.mp hmem
  obtain ⟨chunk, hbytes⟩ := (hinv.window i).packets sent (List.mem_of_mem_drop hsent)
  rw [(copy_reads hbytes (hinv.short i sent (List.mem_of_mem_drop hsent))).2, hbytes]
  rfl

/-- The answer to a REQUEST brings an AUDIO packet to the address it came from. -/
theorem answerRequest_noAudio_iff {s : Server n} (hinv : KeptInv s) (clientid : UInt16) (nonce : UInt32)
    (peer ip : In6Addr) (port' port : UInt16) :
    NoAudioFor ip port s (answerRequest s clientid nonce peer port') ↔
      (peer = ip → port' = port → ¬Answerable s clientid nonce) := by
  by_cases hanswerable : Answerable s clientid nonce
  · obtain ⟨i, ap, hap, hsent⟩ := answerRequest_of_answerable hanswerable peer port'
    rw [hsent]
    constructor
    · rintro ⟨sent, hwhole, hnone⟩ hip hport -
      obtain rfl := List.append_cancel_left hwhole
      exact hnone _ List.mem_cons_self ⟨hip, hport, hinv.kept_audio hap⟩
    · intro hother
      refine ⟨_, rfl, fun d hd => ?_⟩
      rw [List.mem_singleton.mp hd]
      rintro ⟨hip, hport, -⟩
      exact hother hip hport hanswerable
  · rw [answerRequest_of_not hanswerable]
    exact ⟨fun _ _ _ => hanswerable, fun _ => .of_eq rfl⟩

/-! ### Runs -/

/-- While the records with an address are muted, an event has an AUDIO packet sent there if and only if it is
a REQUEST from there that is answered. -/
theorem serverStep_noAudio_iff {s s' : Server n} {event : ServerEvent} {ip : In6Addr} {port : UInt16}
    (hinv : KeptInv s) (hbefore : Hushed s ip port) (hafter : Hushed s' ip port)
    (hrun : serverStep s event = .ok s') :
    NoAudioFor ip port s s' ↔ SparesAddress ip port s event := by
  have hhandles := hinv.registry.handles
  cases event with
  | epollWait ready =>
      refine iff_of_true ?_ trivial
      unfold serverStep at hrun
      dsimp only at hrun
      split_ifs at hrun
      · cases hrun
        exact .of_eq rfl
      · cases hrun
        exact .of_eq rfl
  | pipeInput fd input encoded clock =>
      refine iff_of_true ?_ trivial
      unfold serverStep at hrun
      dsimp only at hrun
      split_ifs at hrun
      · have htaken : NoAudioFor ip port s (takeEvent s fd) := .of_eq rfl
        exact htaken.trans (pipeInput_noAudio (takeEvent_spec hinv.registry fd).handles hbefore hrun)
      · cases hrun
        exact .of_eq rfl
  | pipeHangup fd opened =>
      refine iff_of_true ?_ trivial
      unfold serverStep at hrun
      dsimp only at hrun
      split_ifs at hrun
      · unfold pipeHangup at hrun
        split at hrun
        · cases hrun
          exact .of_eq rfl
        · obtain ⟨s₁, huninit, hresume⟩ := except_bind_ok hrun
          have hframe := PipeFrame.inputpipeUninit (takeEvent_spec hinv.registry fd).handles huninit
          have hopened := hframe.trans (.inputpipeResumeRead hframe.handles hresume)
          exact .of_eq hopened.sent
      · cases hrun
        exact .of_eq rfl
  | hello peer clock opened =>
      exact iff_of_true (clientmgrRefreshClient_noAudio hinv.registry hafter hrun) trivial
  | request clientid nonce peer port' =>
      cases hrun
      exact answerRequest_noAudio_iff hinv clientid nonce peer ip port' port
  | setStream request opened =>
      obtain ⟨⟨s₁, reply⟩, hset, hrun⟩ := except_bind_ok hrun
      cases hrun
      exact iff_of_true (handleClientSetstream_noAudio hhandles hset) trivial
  | setVolume request =>
      obtain ⟨⟨s₁, reply⟩, hset, hrun⟩ := except_bind_ok hrun
      cases hrun
      exact iff_of_true (handleClientSetvolume_noAudio hafter hset) trivial
  | fire id clock opened => exact iff_of_true (.of_eq (fireTask_sent hhandles hrun)) trivial

/-- What was sent stays. -/
theorem serverStep_sent_prefix {s s' : Server n} {event : ServerEvent} {ip : In6Addr} {port : UInt16}
    (hinv : KeptInv s) (hbefore : Hushed s ip port) (hafter : Hushed s' ip port)
    (hrun : serverStep s event = .ok s') : s.sent <+: s'.sent := by
  by_cases hspares : SparesAddress ip port s event
  · obtain ⟨sent, hsent, -⟩ := (serverStep_noAudio_iff hinv hbefore hafter hrun).mpr hspares
    rw [hsent]
    exact List.prefix_append _ _
  · cases event with
    | request clientid nonce peer port' =>
        cases hrun
        by_cases hanswerable : Answerable s clientid nonce
        · obtain ⟨i, ap, -, hsent⟩ := answerRequest_of_answerable hanswerable peer port'
          rw [hsent]
          exact List.prefix_append _ _
        · rw [answerRequest_of_not hanswerable]
    | epollWait ready => exact absurd trivial hspares
    | pipeInput fd input encoded clock => exact absurd trivial hspares
    | pipeHangup fd opened => exact absurd trivial hspares
    | hello peer clock opened => exact absurd trivial hspares
    | setStream request opened => exact absurd trivial hspares
    | setVolume request => exact absurd trivial hspares
    | fire id clock opened => exact absurd trivial hspares

/-- The client is muted, or deleted, and no record that is not muted has its address. -/
def StaysMuted (client : ClientRecord) (s : Server n) : Prop :=
  ∀ i, ∀ other ∈ s.clients i, other.id = client.id ∨ other.ip = client.ip ∧ other.port = client.port →
    other.muted = true

theorem StaysMuted.hushed {client : ClientRecord} {s : Server n} (hmuted : StaysMuted client s) :
    Hushed s client.ip client.port :=
  fun i other hother hip hport => hmuted i other hother (.inr ⟨hip, hport⟩)

theorem serverRun_noAudio_iff {client : ClientRecord} {s s' : Server n} {events : List ServerEvent}
    (hinv : KeptInv s) (hopus : ∀ event ∈ events, event.OpusReturns)
    (hmuted : EveryStep (fun s _ s' => StaysMuted client s ∧ StaysMuted client s') s events)
    (hrun : serverRun s events = .ok s') :
    s.sent <+: s'.sent ∧ (NoAudioFor client.ip client.port s s' ↔
      EveryStep (fun s event _ => SparesAddress client.ip client.port s event) s events) := by
  induction events generalizing s with
  | nil =>
      cases hrun
      exact ⟨List.prefix_refl _, iff_of_true (.of_eq rfl) trivial⟩
  | cons event events ih =>
      obtain ⟨s₁, hstep, hrun⟩ := except_bind_ok hrun
      obtain ⟨hfirst, hrest⟩ := List.forall_mem_cons.mp hopus
      obtain ⟨⟨hbefore, hafter⟩, hmuted⟩ := hmuted s₁ hstep
      obtain ⟨hinitial, hiff⟩ := ih (hinv.step hfirst hstep) hrest hmuted hrun
      have hsent := serverStep_sent_prefix hinv hbefore.hushed hafter.hushed hstep
      refine ⟨hsent.trans hinitial, ?_⟩
      rw [NoAudioFor.trans_iff hsent hinitial, hiff,
        serverStep_noAudio_iff hinv hbefore.hushed hafter.hushed hstep]
      constructor
      · rintro ⟨hspares, hlater⟩ s₂ hstep'
        obtain rfl := Except.ok.inj (hstep.symm.trans hstep')
        exact ⟨hspares, hlater⟩
      · exact fun hall => hall s₁ hstep

/-- As long as a client stays muted, no AUDIO packet is sent to it if and only if no REQUEST that comes from
its address is answered. -/
theorem muteEffective_iff (bufferms : UInt16) (options : Fin (n + 1) → StreamOptions)
    {earlier events : List ServerEvent} (hopus : ∀ event ∈ earlier ++ events, event.OpusReturns)
    {s s' : Server n} (hrun : serverRun (freshServer bufferms options) earlier = .ok s)
    (hrun' : serverRun s events = .ok s') {client : ClientRecord}
    (hmuted : EveryStep (fun s _ s' => StaysMuted client s ∧ StaysMuted client s') s events) :
    NoAudioFor client.ip client.port s s' ↔
      EveryStep (fun s event _ => SparesAddress client.ip client.port s event) s events := by
  obtain ⟨hearlier, hevents⟩ := List.forall_mem_append.mp hopus
  exact (serverRun_noAudio_iff ((KeptInv.fresh bufferms options).run hearlier hrun) hevents hmuted hrun').2

instance (client : ClientRecord) (s : Server n) : Decidable (StaysMuted client s) := by
  unfold StaysMuted
  infer_instance

def mutedEvents : List ServerEvent := oneChunkEvents ++ [.setVolume (volumeRequest none (some true))]

def mutedServer : Server 0 :=
  ((serverRun (freshServer 1000 oneStream) mutedEvents).toOption).getD (freshServer 1000 oneStream)

theorem mutedServer_run : serverRun (freshServer 1000 oneStream) mutedEvents = .ok mutedServer := by
  obtain ⟨s, hrun, -⟩ := except_map_ok (show (serverRun (freshServer 1000 oneStream) mutedEvents).map
    (fun _ => ()) = .ok () by decide +kernel)
  rw [mutedServer, hrun]
  rfl

/-- A chunk is sent while client 1 is muted, and it asks for a packet that is not kept. -/
def quietEvents : List ServerEvent :=
  [.epollWait [4], .pipeInput 4 (some (List.replicate 20 7)) (2, [8, 9]) (clockAt 2), .request 1 7 ⟨1⟩ 100]

theorem muteEffective_iff_quiet :
    ∃ s', serverRun mutedServer quietEvents = .ok s' ∧ NoAudioFor ⟨1⟩ 100 mutedServer s' := by
  obtain ⟨s', hrun', -⟩ := except_map_ok (show (serverRun mutedServer quietEvents).map (fun _ => ()) =
    .ok () by decide +kernel)
  have hopus : ∀ event ∈ mutedEvents ++ quietEvents, event.OpusReturns := by
    simp [mutedEvents, oneChunkEvents, quietEvents, helloFrom, ServerEvent.OpusReturns, opusMss]
  have hmuted : EveryStep (fun s _ s' => StaysMuted (listener true) s ∧ StaysMuted (listener true) s')
      mutedServer quietEvents := by decide +kernel
  exact ⟨s', hrun', (muteEffective_iff 1000 oneStream hopus mutedServer_run hrun' hmuted).mpr
    (by decide +kernel)⟩

/-- The muted client asks for the packet, and gets it. -/
theorem muted_request_answered :
    ¬∀ (bufferms : UInt16) (options : Fin (0 + 1) → StreamOptions) (earlier events : List ServerEvent),
      (∀ event ∈ earlier ++ events, event.OpusReturns) → ∀ s s' : Server 0,
        serverRun (freshServer bufferms options) earlier = .ok s → serverRun s events = .ok s' →
          ∀ client : ClientRecord, client ∈ s.clients 0 →
            EveryStep (fun s _ s' => StaysMuted client s ∧ StaysMuted client s') s events →
              NoAudioFor client.ip client.port s s' := by
  intro hall
  have hopus : ∀ event ∈ mutedEvents ++ [.request 1 0 ⟨1⟩ 100], event.OpusReturns := by
    simp [mutedEvents, oneChunkEvents, helloFrom, ServerEvent.OpusReturns, opusMss]
  obtain ⟨sent, hsent, hnone⟩ := hall 1000 oneStream mutedEvents [.request 1 0 ⟨1⟩ 100] hopus mutedServer
    (answerRequest mutedServer 1 0 ⟨1⟩ 100) mutedServer_run rfl (listener true) (by decide +kernel)
    (by decide +kernel)
  have hview : (answerRequest mutedServer 1 0 ⟨1⟩ 100).sent.drop mutedServer.sent.length =
      [⟨⟨1⟩, 100, audioBytes 1000 0 ⟨2, 100000000, 1000, 1, 1, 2, codecOpus, [8, 9]⟩⟩] := by
    decide +kernel
  rw [hsent, List.drop_left] at hview
  refine hnone ⟨⟨1⟩, 100, audioBytes 1000 0 ⟨2, 100000000, 1000, 1, 1, 2, codecOpus, [8, 9]⟩⟩ ?_
    ⟨rfl, rfl, rfl⟩
  rw [hview]
  exact List.mem_cons_self

end Snapcastc
