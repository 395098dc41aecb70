import Snapcastc.ClientRequests
import Snapcastc.ClientChunks
import Snapcastc.ServerSent
import Snapcastc.ServerMain
import Snapcastc.IntercomOperations

/-! One REQUEST that gets through and one answer that comes back in time are enough for a lost packet: the server
finds it among those it has kept (`intercom_srv.c`), and the client takes it (`intercom_client.c`). -/

namespace Snapcastc

open Bytes

variable {n : Nat}

/-- The AUDIO packet that was accepted last is not registered as missing, so that the answer to a REQUEST is not
taken for a repetition of it. -/
def LastNotMissing (s : Client) : Prop :=
  ∀ hdr, s.recentPackets.getLast? = some hdr → hdr.type = audioData → hdr.nonce ∉ s.missingPackets

theorem Forgets.lastNotMissing {s s' : Client} (hforgets : Forgets s s') (hlast : LastNotMissing s) :
    LastNotMissing s' := by
  intro hdr hhdr htype hmem
  rcases hforgets.recent with hsame | hnone
  · rw [hsame] at hhdr
    exact hlast hdr hhdr htype (hforgets.missing hmem)
  · rw [hnone] at hhdr
    cases hhdr

/-- An AUDIO packet that was handled is not missing any more. -/
theorem handleAudio_unregisters {env : ClientEnv} {clock : ClientClock} {s : Client} {packet : Nat → UInt8}
    (hnodup : s.missingPackets.Nodup) (hok : (intercomHandleAudio env clock s packet).fault = none) :
    (packetHdr packet).nonce ∉ (intercomHandleAudio env clock s packet).state.missingPackets := by
  have hgone : (packetHdr packet).nonce ∉ s.missingPackets.erase (packetHdr packet).nonce :=
    fun hmem => (hnodup.mem_erase_iff.mp hmem).1 rfl
  rcases handleAudio_cases env clock s packet with
    ⟨fault, -, hrun⟩ | ⟨s₁, chunk, buffer, hensure, ⟨-, hrun⟩ | ⟨-, hrun⟩⟩
  · rw [hrun] at hok
    exact absurd hok (Option.some_ne_none fault)
  · have hmissing := (ensureReceivebuffer_stored hensure).2.2.1
    have hcount := (storeAudio_notes clock s₁ buffer (packetHdr packet).nonce chunk).1
    rw [hmissing, removeRequest, List.count_eq_zero.mpr hgone] at hcount
    rw [hrun, (sameIntercom_openDevice env clock _ chunk).missingPackets]
    exact List.count_eq_zero.mp (Nat.le_zero.mp hcount)
  · have hmissing := (ensureReceivebuffer_stored hensure).2.2.1
    rw [hrun]
    intro hmem
    have hraised := List.mem_of_mem_filter hmem
    rw [(raiseSeqno_record _ _).1] at hraised
    have herased : (packetHdr packet).nonce ∈ s₁.missingPackets := hraised
    rw [hmissing] at herased
    exact hgone herased

theorem executeAll_recent (s : Client) (ops : List ServerOperation) :
    (ops.foldl execute s).recentPackets = s.recentPackets := by
  induction ops generalizing s with
  | nil => rfl
  | cons op ops ih => exact (ih (execute s op)).trans (execute_recentPackets s op)

/-- A packet of another type was accepted last. -/
theorem LastNotMissing.other {s : Client} {hdr : IntercomPacketHdr} (hlast : s.recentPackets.getLast? = some hdr)
    (htype : ¬hdr.type = audioData) : LastNotMissing s := by
  intro last hsome haudio
  rw [hlast] at hsome
  cases hsome
  exact absurd haudio htype

theorem handlePacket_lastNotMissing {env : ClientEnv} {clock : ClientClock} {s : Client} {packet : Nat → UInt8}
    {packetLen : Nat} (hnodup : s.missingPackets.Nodup) (hlast : LastNotMissing s)
    (hok : (intercomHandlePacket env clock s packet packetLen).fault = none) :
    LastNotMissing (intercomHandlePacket env clock s packet packetLen).state := by
  obtain ⟨hmissing, -⟩ := noteRecent_record s (packetHdr packet)
  have hnoted : (noteRecent s (packetHdr packet)).recentPackets.getLast? = some (packetHdr packet) := by
    rw [noteRecent_recentPackets, intercomRecentlySeenAdd_getLast?]
  unfold intercomHandlePacket at hok ⊢
  dsimp only at hok ⊢
  split_ifs at hok ⊢ with hversion hseen hoperation haudio
  · exact hlast
  · obtain ⟨ops, hops⟩ := handleServerOperation_executes hok
    rw [hops]
    have hsame : (ops.foldl execute (noteRecent s (packetHdr packet))).recentPackets.getLast? =
        some (packetHdr packet) := by
      rw [executeAll_recent, hnoted]
    refine .other hsame ?_
    rw [hoperation]
    decide
  · have heffect := handleAudio_effect env clock (noteRecent s (packetHdr packet)) packet
    have hnotedNodup : (noteRecent s (packetHdr packet)).missingPackets.Nodup := by
      rw [hmissing]
      exact hnodup
    have hgone := handleAudio_unregisters hnotedNodup hok
    intro hdr hhdr htype
    rw [heffect.recentPackets, hnoted] at hhdr
    cases hhdr
    exact hgone
  · exact .other hnoted haudio
  · exact hlast

/-- What holds of the packets that the client has registered. -/
structure RecoverInv (p : ClientProcess) : Prop where
  register : RegisterInv p
  last : LastNotMissing p.client

theorem RecoverInv.step {env : ClientEnv} {p p' : ClientProcess} (hinv : RecoverInv p) {event : ProcessEvent}
    (hrun : processStep env p event = .ok p') : RecoverInv p' := by
  refine ⟨hinv.register.step hrun, ?_⟩
  by_cases hdatagram : ∃ packet packetLen clock, event = .datagram packet packetLen clock
  · obtain ⟨packet, packetLen, clock, rfl⟩ := hdatagram
    unfold processStep at hrun
    dsimp only at hrun
    split_ifs at hrun
    · cases hrun
      exact hinv.last
    · unfold receiveDatagram at hrun
      split at hrun
      · cases hrun
      · rename_i hok
        cases hrun
        exact handlePacket_lastNotMissing hinv.register.nodup hinv.last hok
    · cases hrun
      exact hinv.last
  · push Not at hdatagram
    exact (processStep_forgets hdatagram hrun).lastNotMissing hinv.last

theorem RecoverInv.run {env : ClientEnv} {nonce : UInt32} {softvol : Bool} {mixer : Option Mixer}
    {events : List ProcessEvent} {p : ClientProcess}
    (hrun : processRun env (freshProcess nonce softvol mixer) events = .ok p) : RecoverInv p := by
  have hfresh : RecoverInv (freshProcess nonce softvol mixer) :=
    ⟨.fresh nonce softvol mixer, fun _ _ _ => List.not_mem_nil⟩
  rw [processRun_eq_run] at hrun
  exact Runs.run_keeps RecoverInv (fun hinv hstep => hinv.step hstep) hfresh hrun

/-- A chunk is stored in a buffer with room. -/
theorem handleAudio_stores {env : ClientEnv} {clock : ClientClock} {s : Client} {packet : Nat → UInt8}
    (hontime : timespecCmp (chunkGetPlayAt (some (audioChunk packet))) clock.ctime > 0)
    (hok : (intercomHandleAudio env clock s packet).fault = none)
    (hroom : ∀ buffer, s.receivebuffer = some buffer → buffer.queue.size < buffer.capacity) :
    ∃ chunk, Derived env.opus (audioChunk packet) chunk ∧
      ⟨chunk, (packetHdr packet).nonce⟩ ∈ heldChunks (intercomHandleAudio env clock s packet).state := by
  obtain ⟨s₁, chunk, buffer, hensure, hsame⟩ := handleAudio_accepts env hontime hok
  obtain ⟨hderived, -⟩ := ensureReceivebuffer_chunks hensure
  obtain ⟨-, -, -, -, hbuffer⟩ := ensureReceivebuffer_stored hensure
  have hspace : buffer.queue.size < buffer.capacity := by
    rcases hbuffer with ⟨-, hempty⟩ | hsome
    · rw [hempty]
      exact buffer.capacity_pos
    · exact hroom buffer hsome
  refine ⟨chunk, hderived, ?_⟩
  rw [heldChunks, hsame.receivebuffer]
  exact (storeAudio_stored_iff clock _ chunk hspace.le).mpr (.inl hspace)

/-- What the client has made of the answer: the packet is not missing any more, and its chunk is in the receive
buffer if that had room. -/
structure Recovered (opus : OpusDecoder) (seqno : UInt32) (chunk : PcmChunk) (s s' : Client) : Prop where
  unregistered : seqno ∉ s'.missingPackets
  stored : (∀ buffer, s.receivebuffer = some buffer → buffer.queue.size < buffer.capacity) →
    ∃ chunk', Derived opus chunk chunk' ∧ ⟨chunk', seqno⟩ ∈ heldChunks s'

/-- The client misses a packet, and the packet arrives in time. -/
theorem receiveMissing {env : ClientEnv} {clock : ClientClock} {p p' : ClientProcess} (hinv : RecoverInv p)
    (hrunning : p.exited = false) (hconnected : p.connected = true) {packet : Nat → UInt8} {packetLen : Nat}
    (haudio : IsAudioPacket packet) (hmissing : (packetHdr packet).nonce ∈ p.client.missingPackets)
    (hontime : timespecCmp (chunkGetPlayAt (some (audioChunk packet))) clock.ctime > 0)
    (hrun : processStep env p (.datagram packet packetLen clock) = .ok p') :
    Recovered env.opus (packetHdr packet).nonce (audioChunk packet) p.client p'.client := by
  have hnew : intercomRecentlySeen p.client.recentPackets (packetHdr packet) = false := by
    refine Bool.eq_false_iff.mpr fun hseen => ?_
    obtain ⟨ref, hlast, hnonce, htype⟩ := intercomRecentlySeen_iff.mp hseen
    rw [haudio.2] at htype
    exact hinv.last ref hlast htype (hnonce ▸ hmissing)
  obtain ⟨hnoted, -, hbuffer⟩ := noteRecent_record p.client (packetHdr packet)
  rw [processStep, hrunning, if_neg Bool.false_ne_true, if_pos hconnected,
    receiveDatagram, handlePacket_of_audio haudio hnew] at hrun
  split at hrun
  · cases hrun
  · rename_i hok
    cases hrun
    have hnodup : (noteRecent p.client (packetHdr packet)).missingPackets.Nodup := by
      rw [hnoted]
      exact hinv.register.nodup
    refine ⟨handleAudio_unregisters hnodup hok, fun hroom => handleAudio_stores hontime hok ?_⟩
    rw [hbuffer]
    exact hroom

/-! ### The server answers -/

/-- The datagram that asks for a packet: `intercom_send_request` has assembled it. -/
def requestBytes (nonce : UInt32) (nodeid : UInt16) (seqno : UInt32) : List UInt8 :=
  hdrBytes ⟨packetFormatVersion, clientOperation, nodeid, nonce % nonceMax⟩ ++
    [ClientTlv.request seqno].flatMap clientTlvBytes

@[simp] theorem requestBytes_length (nonce : UInt32) (nodeid : UInt16) (seqno : UInt32) :
    (requestBytes nonce nodeid seqno).length = sizeofHdr + 6 := rfl

theorem Assembled.unique {assembly : Assembly} {bytes bytes' : List UInt8} (hbytes : Assembled assembly bytes)
    (hbytes' : Assembled assembly bytes') : bytes = bytes' := by
  calc
    bytes = load assembly.packet 0 bytes.length := hbytes.holds.load_eq.symm
    _ = load assembly.packet 0 bytes'.length := by rw [← hbytes.length, hbytes'.length]
    _ = bytes' := hbytes'.holds.load_eq

theorem requestBytes_of_assembled {packet : Nat → UInt8} {nonce : UInt32} {nodeid : UInt16} {seqno : UInt32}
    {request : List UInt8}
    (hrequest : Assembled (clientOperationPacket packet nonce nodeid [.request seqno]) request) :
    request = requestBytes nonce nodeid seqno :=
  hrequest.unique
    ((assembleHeader_assembled packet clientOperation (some nonce) nodeid).put (clientTlvBytes (.request seqno)))

/-- Which packets were accepted before does not matter for an answer. -/
theorem answerRequest_recent (s : Server n) (recentPackets : List IntercomPacketHdr) (clientid : UInt16)
    (nonce : UInt32) (ip : In6Addr) (port : UInt16) :
    answerRequest { s with recentPackets } clientid nonce ip port =
      { answerRequest s clientid nonce ip port with recentPackets } := by
  unfold answerRequest
  have hfind : findClient { s with recentPackets } clientid = findClient s clientid := rfl
  rw [hfind]
  cases findClient s clientid with
  | none => rfl
  | some found =>
      dsimp only
      cases (s.streams found.1).packetBuffer.find? fun ap => ap.nonce == nonce with
      | none => rfl
      | some ap => rfl

/-- The server handles a datagram that asks for a packet. -/
theorem serverHandlePacket_request (clock : ServerClock) (opened : Option Nat) (s : Server n)
    (buf : Nat → UInt8) (nonce : UInt32) (nodeid : UInt16) (seqno : UInt32) (ip : In6Addr) (port : UInt16) :
    ∃ recentPackets, serverHandlePacket clock opened (requestBytes nonce nodeid seqno).length s
        (received buf intercomMtu (requestBytes nonce nodeid seqno)) (requestBytes nonce nodeid seqno).length
        ip port = some (.ok { answerRequest s nodeid seqno ip port with recentPackets }) := by
  have hfits : (requestBytes nonce nodeid seqno).length ≤ intercomMtu := by
    rw [requestBytes_length]
    decide
  have hmem := received_holds buf hfits
  generalize received buf intercomMtu (requestBytes nonce nodeid seqno) = mem at hmem ⊢
  have hhdr := packetHdr_of_holds hmem.left
  refine ⟨intercomRecentlySeenAdd s.recentPackets (packetHdr mem), ?_⟩
  rw [← answerRequest_recent, serverHandlePacket]
  generalize intercomRecentlySeenAdd s.recentPackets (packetHdr mem) = recentPackets
  dsimp only
  rw [if_pos (by rw [hhdr]), if_pos (by rw [hhdr])]
  have hafter := clientTlvs_handled hmem (serverEffects (n := n) clock opened ip port)
    (pure { s with recentPackets })
  exact OffsetLoop.run_of_after_eq hafter le_rfl 13

/-- A packet that a stream has sent and still keeps is sent once more to a client of the stream that asks. -/
theorem KeptInv.answers {s : Server n} (hinv : KeptInv s) {i : Fin (n + 1)}
    (hfew : (s.streams i).history.length < 2 ^ 32 - 1) {sent : SentAudio} (hsent : sent ∈ (s.streams i).history)
    (hkept : ∃ ap ∈ (s.streams i).packetBuffer, ap.nonce = sent.nonce) {nodeid : UInt16}
    (hin : InStream s i nodeid) (ip : In6Addr) (port : UInt16) :
    answerRequest s nodeid sent.nonce ip port = { s with sent := s.sent ++ [⟨ip, port, sent.bytes⟩] } := by
  obtain ⟨first, hwindow, hanswers⟩ := hinv.answersFrom hfew
  obtain ⟨k, hk⟩ := List.mem_iff_getElem?.mp hsent
  have hplace : sent.nonce.toNat = k := (hinv.numbered i hfew).nonces k sent hk
  obtain ⟨ap, hap, hnonce⟩ := hkept
  have hrange : sent.nonce.toNat ∈ List.range' first ((s.streams i).history.length - first) := by
    rw [← hwindow.nonces, ← hnonce]
    exact List.mem_map_of_mem hap
  have hfirst : first ≤ sent.nonce.toNat := (List.mem_range'_1.mp hrange).1
  exact (hanswers nodeid hin sent.nonce ip port).inside sent hfirst (hplace ▸ hk)

/-- A lost packet is recovered by one REQUEST: a client that misses a packet asks for it, and the server answers
with the datagram that it has sent before, as long as the client is in the stream and the stream keeps the packet;
when the answer comes back before it is to be played, whatever else has happened at the client until then, the
packet is not missing any more, and its chunk is in the receive buffer if that had room. -/
theorem request_recovers (env : ClientEnv) (nonce : UInt32) (softvol : Bool) (mixer : Option Mixer)
    (clientEvents : List ProcessEvent) (p : ClientProcess)
    (hclient : processRun env (freshProcess nonce softvol mixer) clientEvents = .ok p)
    (hrunning : p.exited = false) (hconnected : p.connected = true) (bufferms : UInt16)
    (options : Fin (n + 1) → StreamOptions) (serverEvents : List ServerEvent)
    (hopus : ∀ event ∈ serverEvents, event.OpusWrites) (s : Server n)
    (hserver : serverRun (freshServer bufferms options) serverEvents = .ok s) (i : Fin (n + 1))
    (hfew : (s.streams i).history.length < 2 ^ 32 - 1) (sent : SentAudio) (hsent : sent ∈ (s.streams i).history)
    (hkept : ∃ ap ∈ (s.streams i).packetBuffer, ap.nonce = sent.nonce) (nodeid : UInt16)
    (hin : InStream s i nodeid) (hmissing : sent.nonce ∈ p.client.missingPackets) :
    (∀ packet requestNonce request buf clock opened ip port,
      Assembled (clientOperationPacket packet requestNonce nodeid [.request sent.nonce]) request →
      ∃ recentPackets,
        serverHandlePacket clock opened request.length s (received buf intercomMtu request) request.length ip port =
          some (.ok { s with sent := s.sent ++ [⟨ip, port, sent.bytes⟩], recentPackets })) ∧
    ∃ chunk, sent.Carries s.bufferms chunk ∧ ∀ stale clock p',
      timespecCmp (chunkGetPlayAt (some chunk)) clock.ctime > 0 →
      processStep env p (.datagram (received stale clientMtu sent.bytes) sent.bytes.length clock) = .ok p' →
        Recovered env.opus sent.nonce chunk p.client p'.client := by
  have hinv : SentInv s := serverRun_invariant (fun hinv hevent hstep => hinv.step hevent hstep)
    (.fresh bufferms options) hopus hserver
  have hrecover : RecoverInv p := .run hclient
  constructor
  · intro packet requestNonce request buf clock opened ip port hrequest
    obtain ⟨recentPackets, hhandled⟩ :=
      serverHandlePacket_request clock opened s buf requestNonce nodeid sent.nonce ip port
    rw [hinv.kept.answers hfew hsent hkept hin ip port, ← requestBytes_of_assembled hrequest] at hhandled
    exact ⟨recentPackets, hhandled⟩
  · obtain ⟨chunk, hcarries⟩ := hinv.carries i sent hsent
    refine ⟨chunk, hcarries, fun stale clock p' hontime hrun => ?_⟩
    obtain ⟨hchunk, hhdr⟩ := hcarries.received stale
    change audioChunk (received stale clientMtu sent.bytes) = chunk at hchunk
    change packetHdr (received stale clientMtu sent.bytes) = _ at hhdr
    have haudio : IsAudioPacket (received stale clientMtu sent.bytes) := by
      rw [IsAudioPacket, hhdr]
      exact ⟨rfl, rfl⟩
    have hseqno : (packetHdr (received stale clientMtu sent.bytes)).nonce = sent.nonce := by rw [hhdr]
    rw [← hseqno] at hmissing
    rw [← hchunk] at hontime
    have hrecovered := receiveMissing hrecover hrunning hconnected haudio hmissing hontime hrun
    rwa [hseqno, hchunk] at hrecovered

def chunkRead (time : Int) : List ServerEvent :=
  [.epollWait [4], .pipeInput 4 (some (List.replicate 20 7)) (2, [8, 9]) (clockAt time)]

def threeChunks : List ServerEvent := helloFrom 1 100 1 :: (chunkRead 2 ++ chunkRead 2 ++ chunkRead 2)

theorem request_recovers_second :
    ∃ p s, processRun anyDevice (freshProcess 7 true none) askedEvents = .ok p ∧
      serverRun (freshServer 1000 oneStream) threeChunks = .ok s ∧
      ∃ sent ∈ (s.streams 0).history, sent.nonce = 2 ∧
        (∀ packet requestNonce request buf clock opened ip port,
          Assembled (clientOperationPacket packet requestNonce 1 [.request sent.nonce]) request →
          ∃ recentPackets,
            serverHandlePacket clock opened request.length s (received buf intercomMtu request) request.length ip port =
              some (.ok { s with sent := s.sent ++ [⟨ip, port, sent.bytes⟩], recentPackets })) ∧
        ∃ chunk, sent.Carries s.bufferms chunk ∧ ∀ stale clock p',
          timespecCmp (chunkGetPlayAt (some chunk)) clock.ctime > 0 →
          processStep anyDevice p (.datagram (received stale clientMtu sent.bytes) sent.bytes.length clock) = .ok p' →
            Recovered anyDevice.opus sent.nonce chunk p.client p'.client := by
  obtain ⟨p, hclient, hmisses⟩ := except_map_ok (show (processRun anyDevice (freshProcess 7 true none)
    askedEvents).map (fun p => decide (2 ∈ p.client.missingPackets ∧ p.exited = false ∧ p.connected = true)) =
      .ok true by decide +kernel)
  obtain ⟨s, hserver, hkeeps⟩ := except_map_ok (show (serverRun (freshServer 1000 oneStream) threeChunks).map
    (fun s => decide ((s.streams 0).history.length < 2 ^ 32 - 1 ∧
      (∃ sent ∈ (s.streams 0).history, sent.nonce = 2) ∧
      (∃ ap ∈ (s.streams 0).packetBuffer, ap.nonce = 2) ∧ ∃ client ∈ s.clients 0, client.id = 1)) =
      .ok true by decide +kernel)
  have hopus : ∀ event ∈ threeChunks, event.OpusWrites := by
    simp [threeChunks, chunkRead, helloFrom, ServerEvent.OpusWrites, OpusWrites, opusMss]
  obtain ⟨hmissing, hrunning, hconnected⟩ := of_decide_eq_true hmisses
  obtain ⟨hfew, ⟨sent, hsent, hnonce⟩, hkept, hin⟩ := of_decide_eq_true hkeeps
  exact ⟨p, s, hclient, hserver, sent, hsent, hnonce,
    request_recovers anyDevice 7 true none askedEvents p hclient hrunning hconnected 1000 oneStream threeChunks
      hopus s hserver 0 hfew sent hsent (hnonce ▸ hkept) 1 hin (hnonce ▸ hmissing)⟩

end Snapcastc
