import Snapcastc.IntercomWire
import Snapcastc.ServerAudio
import Snapcastc.ServerDescriptorsRun
import Snapcastc.SocketSetstream

/-! The AUDIO packets that the server keeps for retransmission: in every run they are the last ones that the
stream has sent, and a REQUEST is answered with the packet as it was sent. -/

namespace Snapcastc

open Bytes

variable {n : Nat}

theorem foldl_sendToClients (s : Server n) (assembly : Assembly) (clients : List ClientRecord) :
    clients.foldl (fun s client => if client.muted then s else sendAssembly s client assembly) s =
      { s with sent := s.sent ++ (clients.filter fun client => !client.muted).map fun client =>
        ⟨client.ip, client.port, load assembly.packet 0 assembly.packetLen⟩ } := by
  induction clients generalizing s with
  | nil =>
      rw [List.filter_nil, List.map_nil, List.append_nil]
      rfl
  | cons client clients ih =>
      rw [List.foldl_cons, ih]
      cases hmuted : client.muted with
      | true => simp [hmuted]
      | false => simp [hmuted, sendAssembly, intercomSendPacketUnicast]

/-- `intercom_send_audio` sends the packet that it records to every client of the stream that is not muted,
and nothing else. -/
theorem intercomSendAudio_sent (clock : ServerClock) (s : Server n) (i : Fin (n + 1)) :
    ∃ sent : SentAudio, ((intercomSendAudio clock s i).streams i).history = (s.streams i).history ++ [sent] ∧
      (intercomSendAudio clock s i).sent = s.sent ++
        ((s.clients i).reverse.filter fun client => !client.muted).map fun client =>
          ⟨client.ip, client.port, sent.bytes⟩ := by
  rw [intercomSendAudio]
  dsimp only
  generalize hassembly : assembleAudio (fun _ => 0) s.bufferms (s.streams i).nonce (s.pipe i).chunk = assembled
  obtain ⟨assembly, nonce⟩ := assembled
  dsimp only
  rw [sendToClients, foldl_sendToClients]
  have hclients : (keepAudio clock s i assembly (nonce.getD (s.streams i).nonce)).clients i = s.clients i := by
    simp [Server.clients, keepAudio, Server.setStream, keepPacket]
  refine ⟨⟨(keptPacket (fun _ => 0) assembly).nonce, load assembly.packet 0 assembly.packetLen,
    clock.uptime⟩, ?_, ?_⟩
  · simp [keepAudio, Server.setStream, keepPacket]
  · rw [hclients]
    rfl

/-! ### The window -/

def SentAudio.copy (sent : SentAudio) : AudioPacket :=
  ⟨store (fun _ => 0) 0 sent.bytes, UInt16.ofNat sent.bytes.length, sent.nonce⟩

/-- The packets that are kept are the last ones that were sent, and all were AUDIO packets. -/
structure WindowInv (audio : StreamAudio n) : Prop where
  window : ∃ first ≤ audio.history.length,
    audio.packetBuffer = (audio.history.drop first).map SentAudio.copy
  packets : ∀ sent ∈ audio.history, ∃ chunk, sent.bytes = audioBytes audio.bufferms sent.nonce chunk

theorem removeOldPackets_suffix (age : Timespec) (packetBuffer : List AudioPacket) :
    ∃ more, removeOldPackets age packetBuffer = packetBuffer.drop more ∧ more ≤ packetBuffer.length := by
  induction packetBuffer with
  | nil => exact ⟨0, rfl, le_rfl⟩
  | cons ap packetBuffer ih =>
      rw [removeOldPackets]
      split_ifs
      · obtain ⟨more, hmore, hle⟩ := ih
        exact ⟨more + 1, hmore, Nat.succ_le_succ hle⟩
      · exact ⟨1, rfl, Nat.succ_le_succ (Nat.zero_le _)⟩

/-- What is kept of the packet that `intercom_send_audio` assembles. -/
theorem keptPacket_eq_copy (bufferms : UInt16) (nonce : UInt32) (chunk : PcmChunk) (now : Timespec) :
    let assembly := (assembleAudio (fun _ => 0) bufferms nonce chunk).1
    let ap := keptPacket (fun _ => 0) assembly
    ap = SentAudio.copy ⟨ap.nonce, load assembly.packet 0 assembly.packetLen, now⟩ ∧
      ap.nonce = nonce % nonceMax ∧
      load assembly.packet 0 assembly.packetLen = audioBytes bufferms (nonce % nonceMax) chunk := by
  intro assembly ap
  have hbytes := assembleAudio_assembled (fun _ => 0) bufferms nonce chunk
  have hload : load assembly.packet 0 assembly.packetLen = audioBytes bufferms (nonce % nonceMax) chunk :=
    hbytes.load_eq
  have hnonce : ap.nonce = nonce % nonceMax :=
    congrArg IntercomPacketHdr.nonce (Holds.audioHeader hbytes.holds.left).1
  refine ⟨?_, hnonce, hload⟩
  have hlength : (load assembly.packet 0 assembly.packetLen).length = assembly.packetLen := by
    rw [hload, ← hbytes.length]
  rw [SentAudio.copy, hlength]
  rfl

theorem WindowInv.step {s : Server n} {i : Fin (n + 1)} {event : ServerEvent} {audio : StreamAudio n}
    (hinv : WindowInv (s.audio i)) (hstep : AudioStep s i event audio) : WindowInv audio := by
  obtain ⟨first, hfirst, hwindow⟩ := hinv.window
  cases hstep with
  | same => exact hinv
  | started peer clock opened => exact ⟨⟨first, hfirst, hwindow⟩, hinv.packets⟩
  | kept fd input encoded clock pcm chunk id hencode =>
      obtain ⟨hcopy, hnonce, hbytes⟩ :=
        keptPacket_eq_copy (s.audio i).bufferms (s.audio i).nonce chunk clock.uptime
      refine ⟨⟨first, ?_, ?_⟩, fun sent hsent => ?_⟩
      · rw [StreamAudio.keep, List.length_append]
        exact hfirst.trans (Nat.le_add_right _ _)
      · dsimp only [StreamAudio.keep]
        rw [List.drop_append_of_le_length hfirst, List.map_append, hwindow, List.map_singleton]
        exact congrArg (fun ap => (List.drop first (s.audio i).history).map SentAudio.copy ++ [ap]) hcopy
      · rcases List.mem_append.mp hsent with hold | hnew
        · exact hinv.packets sent hold
        · rw [List.mem_singleton.mp hnew]
          exact ⟨chunk, hbytes.trans (by rw [hnonce]; rfl)⟩
  | removed task clock opened htask hdue =>
      refine ⟨?_, hinv.packets⟩
      dsimp only [StreamAudio.remove]
      split_ifs
      · exact ⟨first, hfirst, hwindow⟩
      · obtain ⟨more, hmore, hle⟩ := removeOldPackets_suffix
          (timeSubMs clock.systime (.ofNat (s.audio i).bufferms.toNat)) (s.audio i).packetBuffer
        rw [hwindow, List.length_map, List.length_drop] at hle
        refine ⟨first + more, by omega, ?_⟩
        rw [hmore, hwindow, ← List.map_drop, List.drop_drop]

/-- While fewer than `2 ^ 32 - 1` packets were sent, a packet's number is its place among them. -/
structure Numbered (audio : StreamAudio n) : Prop where
  next : audio.nonce.toNat = audio.history.length
  nonces : ∀ (k : Nat) (sent : SentAudio), audio.history[k]? = some sent → sent.nonce.toNat = k

theorem Numbered.step {s : Server n} {i : Fin (n + 1)} {event : ServerEvent} {audio : StreamAudio n}
    (hinv : (s.audio i).history.length < 2 ^ 32 - 1 → Numbered (s.audio i))
    (hstep : AudioStep s i event audio) (hfew : audio.history.length < 2 ^ 32 - 1) : Numbered audio := by
  cases hstep with
  | same => exact hinv hfew
  | started peer clock opened => exact ⟨(hinv hfew).next, (hinv hfew).nonces⟩
  | kept fd input encoded clock pcm chunk id hencode =>
      have hmore : (s.audio i).history.length + 1 < 2 ^ 32 - 1 := by
        rw [StreamAudio.keep, List.length_append] at hfew
        exact hfew
      have hold := hinv (by omega)
      obtain ⟨-, hnonce, -⟩ :=
        keptPacket_eq_copy (s.audio i).bufferms (s.audio i).nonce chunk clock.uptime
      have hmod : ((s.audio i).nonce % nonceMax).toNat = (s.audio i).history.length := by
        have hmax : nonceMax.toNat = 2 ^ 32 - 1 := rfl
        rw [UInt32.toNat_mod, hold.next, hmax]
        exact Nat.mod_eq_of_lt (by omega)
      refine ⟨?_, fun k sent hsent => ?_⟩
      · dsimp only [StreamAudio.keep]
        rw [UInt32.toNat_add, hold.next, List.length_append]
        exact Nat.mod_eq_of_lt (by change (s.audio i).history.length + 1 < 2 ^ 32; omega)
      · dsimp only [StreamAudio.keep] at hsent
        rcases Nat.lt_or_ge k (s.audio i).history.length with hlt | hge
        · rw [List.getElem?_append_left hlt] at hsent
          exact hold.nonces k sent hsent
        · obtain ⟨hlt, hget⟩ := List.getElem?_eq_some_iff.mp hsent
          rw [List.length_append, List.length_singleton] at hlt
          obtain rfl : k = (s.audio i).history.length := by omega
          rw [← hget, List.getElem_concat_length rfl]
          exact (congrArg UInt32.toNat hnonce).trans hmod
  | removed task clock opened htask hdue => exact ⟨(hinv hfew).next, (hinv hfew).nonces⟩

/-- `opus_encode` returns a number of bytes that it was allowed to write. -/
def ServerEvent.OpusReturns : ServerEvent → Prop
  | .pipeInput _ _ encoded _ => 1 ≤ encoded.1 ∧ encoded.1 ≤ opusMss
  | _ => True

/-- The packets are short enough for their length to be noted. -/
def Short (audio : StreamAudio n) : Prop := ∀ sent ∈ audio.history, sent.bytes.length < 2 ^ 16

theorem encodeOpusHandle_size {encoded : Int × List UInt8} {pcm chunk : PcmChunk}
    (hopus : 1 ≤ encoded.1 ∧ encoded.1 ≤ opusMss) (hencode : encodeOpusHandle encoded pcm = .ok chunk) :
    chunk.size.toNat ≤ opusMss := by
  have hmss : opusMss = 1427 := rfl
  unfold encodeOpusHandle at hencode
  dsimp only at hencode
  split_ifs at hencode
  cases hencode
  have hsize := uint16_ofInt_toNat encoded.1
  change (UInt16.ofInt encoded.1).toNat ≤ opusMss
  omega

theorem Short.step {s : Server n} {i : Fin (n + 1)} {event : ServerEvent} {audio : StreamAudio n}
    (hinv : Short (s.audio i)) (hopus : event.OpusReturns) (hstep : AudioStep s i event audio) :
    Short audio := by
  cases hstep with
  | same => exact hinv
  | started peer clock opened => exact hinv
  | kept fd input encoded clock pcm chunk id hencode =>
      obtain ⟨-, -, hbytes⟩ :=
        keptPacket_eq_copy (s.audio i).bufferms (s.audio i).nonce chunk clock.uptime
      have hsize := encodeOpusHandle_size hopus hencode
      have hmss : opusMss = 1427 := rfl
      intro sent hsent
      rcases List.mem_append.mp hsent with hold | hnew
      · exact hinv sent hold
      · rw [List.mem_singleton.mp hnew]
        change (load _ 0 _).length < 2 ^ 16
        rw [hbytes]
        have hlength := audioBytes_length (s.audio i).bufferms ((s.audio i).nonce % nonceMax) chunk
        omega
  | removed task clock opened htask hdue => exact hinv

theorem WindowInv.fresh (bufferms : UInt16) (options : Fin (n + 1) → StreamOptions) (i : Fin (n + 1)) :
    WindowInv ((freshServer bufferms options).audio i) :=
  ⟨⟨0, le_rfl, rfl⟩, fun _ hsent => absurd hsent List.not_mem_nil⟩

/-- What holds of the AUDIO packets of all streams in a run in which the encoder keeps to its limit. -/
structure KeptInv (s : Server n) : Prop where
  registry : RegistryInv s
  start : StartInv s
  window : ∀ i, WindowInv (s.audio i)
  numbered : ∀ i, (s.audio i).history.length < 2 ^ 32 - 1 → Numbered (s.audio i)
  short : ∀ i, Short (s.audio i)

theorem KeptInv.fresh (bufferms : UInt16) (options : Fin (n + 1) → StreamOptions) :
    KeptInv (freshServer bufferms options) where
  registry := .fresh bufferms options
  start := .fresh bufferms options
  window := .fresh bufferms options
  numbered := fun _ _ => ⟨rfl, fun _ _ hsent => by cases hsent⟩
  short := fun _ _ hsent => absurd hsent List.not_mem_nil

theorem KeptInv.step {s s' : Server n} {event : ServerEvent} (hinv : KeptInv s) (hopus : event.OpusReturns)
    (hrun : serverStep s event = .ok s') : KeptInv s' := by
  have hstep := serverStep_audio hinv.registry hinv.start hrun
  exact ⟨(serverStep_spec hinv.registry hrun).inv hinv.registry, hinv.start.step hinv.registry hrun,
    fun i => (hinv.window i).step (hstep i), fun i => .step (hinv.numbered i) (hstep i),
    fun i => (hinv.short i).step hopus (hstep i)⟩

theorem KeptInv.run {s s' : Server n} {events : List ServerEvent} (hinv : KeptInv s)
    (hopus : ∀ event ∈ events, event.OpusReturns) (hrun : serverRun s events = .ok s') : KeptInv s' :=
  serverRun_invariant (fun hinv hevent hstep => hinv.step hevent hstep) hinv hopus hrun

/-! ### Answers -/

/-- The packets from a number on are kept, each under the number in its header. -/
structure HoldsWindow (stream : Stream) (first : Nat) : Prop where
  first_le : first ≤ stream.history.length
  nonces : stream.packetBuffer.map (fun ap => ap.nonce.toNat) =
    List.range' first (stream.history.length - first)
  headers : ∀ ap ∈ stream.packetBuffer, (packetHdr ap.data).nonce = ap.nonce

/-- A REQUEST from a client is answered with the packet that was sent under the number, if that is in the
window, and with nothing otherwise. -/
structure AnswersFrom (s : Server n) (i : Fin (n + 1)) (first : Nat) (clientid : UInt16) (nonce : UInt32)
    (ip : In6Addr) (port : UInt16) : Prop where
  inside : ∀ sent, first ≤ nonce.toNat → (s.streams i).history[nonce.toNat]? = some sent →
    answerRequest s clientid nonce ip port = { s with sent := s.sent ++ [⟨ip, port, sent.bytes⟩] }
  outside : nonce.toNat < first ∨ (s.streams i).history.length ≤ nonce.toNat →
    answerRequest s clientid nonce ip port = s

theorem nonces_eq_range {history : List SentAudio} {first : Nat}
    (hnumbered : ∀ (k : Nat) (sent : SentAudio), history[k]? = some sent → sent.nonce.toNat = k) :
    (history.drop first).map (fun sent => sent.nonce.toNat) = List.range' first (history.length - first) := by
  refine List.ext_getElem? fun k => ?_
  rw [List.getElem?_map, List.getElem?_drop]
  rcases Nat.lt_or_ge (first + k) history.length with hlt | hge
  · rw [List.getElem?_eq_getElem hlt, List.getElem?_range' (by omega), Option.map_some,
      hnumbered (first + k) _ (List.getElem?_eq_getElem hlt), Nat.one_mul]
  · rw [List.getElem?_eq_none hge, Option.map_none]
    refine (List.getElem?_eq_none ?_).symm
    rw [List.length_range']
    omega

/-- The copy of an AUDIO packet, as it is found and read. -/
theorem copy_reads {sent : SentAudio} {bufferms : UInt16} {chunk : PcmChunk}
    (hbytes : sent.bytes = audioBytes bufferms sent.nonce chunk) (hshort : sent.bytes.length < 2 ^ 16) :
    packetHdr sent.copy.data = ⟨packetFormatVersion, audioData, 0, sent.nonce⟩ ∧
      load sent.copy.data 0 sent.copy.len.toNat = sent.bytes := by
  have hholds : Holds sent.copy.data 0 sent.bytes := holds_store (fun _ => 0) 0 sent.bytes
  refine ⟨?_, ?_⟩
  · rw [hbytes] at hholds
    exact (Holds.audioHeader hholds.left).1
  · have hlen : sent.copy.len.toNat = sent.bytes.length := UInt16.toNat_ofNat_of_lt' hshort
    rw [hlen]
    exact hholds.load_eq

/-- Among packets with different numbers the search finds the one with the number. -/
theorem find_copy {history : List SentAudio} {first : Nat} (nonce : UInt32)
    (hnumbered : ∀ (k : Nat) (sent : SentAudio), history[k]? = some sent → sent.nonce.toNat = k) :
    ((history.drop first).map SentAudio.copy).find? (fun ap => ap.nonce == nonce) =
      if first ≤ nonce.toNat then (history[nonce.toNat]?).map SentAudio.copy else none := by
  have hiff : ∀ sent ∈ history.drop first, (sent.copy.nonce == nonce) = true →
      first ≤ nonce.toNat ∧ history[nonce.toNat]? = some sent := by
    intro sent hmem hnonce
    obtain ⟨k, hk⟩ := List.mem_iff_getElem?.mp hmem
    rw [List.getElem?_drop] at hk
    have hplace := hnumbered (first + k) sent hk
    have heq : sent.nonce = nonce := eq_of_beq hnonce
    rw [heq] at hplace
    rw [hplace]
    exact ⟨Nat.le_add_right _ _, hk⟩
  cases hfind : ((history.drop first).map SentAudio.copy).find? (fun ap => ap.nonce == nonce) with
  | some ap =>
      have hmem := List.mem_of_find?_eq_some hfind
      have hmatch := List.find?_some hfind
      obtain ⟨sent, hsent, rfl⟩ := List.mem_map.mp hmem
      obtain ⟨hle, hget⟩ := hiff sent hsent hmatch
      rw [if_pos hle, hget]
      rfl
  | none =>
      have hnone := List.find?_eq_none.mp hfind
      split_ifs with hle
      · cases hget : history[nonce.toNat]? with
        | none => rfl
        | some sent =>
            have hmem : sent ∈ history.drop first := by
              refine List.mem_iff_getElem?.mpr ⟨nonce.toNat - first, ?_⟩
              rw [List.getElem?_drop, Nat.add_sub_cancel' hle, hget]
            have hmatch : (sent.copy.nonce == nonce) = true :=
              beq_iff_eq.mpr (UInt32.toNat_inj.mp (hnumbered nonce.toNat sent hget))
            exact absurd hmatch (hnone sent.copy (List.mem_map_of_mem hmem))
      · rfl

theorem findClient_of_inStream {s : Server n} (hreg : RegistryInv s) {i : Fin (n + 1)} {id : UInt16}
    (hin : InStream s i id) : ∃ k, findClient s id = some (i, k) := by
  cases hfind : findClient s id with
  | none =>
      obtain ⟨client, hclient, hid⟩ := hin
      exact absurd hid (findClient_none hfind i hclient)
  | some found =>
      obtain ⟨j, k⟩ := found
      obtain ⟨client, hclient, rfl⟩ := findClient_some hfind
      obtain rfl := (hreg.inStream_iff_eq hclient i).mp hin
      exact ⟨k, rfl⟩

theorem KeptInv.answersFrom {s : Server n} (hinv : KeptInv s) {i : Fin (n + 1)}
    (hfew : (s.streams i).history.length < 2 ^ 32 - 1) :
    ∃ first, HoldsWindow (s.streams i) first ∧ ∀ clientid, InStream s i clientid →
      ∀ nonce ip port, AnswersFrom s i first clientid nonce ip port := by
  obtain ⟨first, hfirst, hwindow⟩ := (hinv.window i).window
  have hnumbered := (hinv.numbered i hfew).nonces
  have hreads : ∀ sent ∈ (s.streams i).history,
      packetHdr sent.copy.data = ⟨packetFormatVersion, audioData, 0, sent.nonce⟩ ∧
        load sent.copy.data 0 sent.copy.len.toNat = sent.bytes := by
    intro sent hsent
    obtain ⟨chunk, hbytes⟩ := (hinv.window i).packets sent hsent
    exact copy_reads hbytes (hinv.short i sent hsent)
  refine ⟨first, ⟨hfirst, ?_, fun ap hap => ?_⟩, fun clientid hin nonce ip port => ?_⟩
  · change (s.audio i).packetBuffer.map _ = _
    rw [hwindow, List.map_map]
    exact nonces_eq_range hnumbered
  · have hap : ap ∈ (s.audio i).packetBuffer := hap
    rw [hwindow] at hap
    obtain ⟨sent, hsent, rfl⟩ := List.mem_map.mp hap
    rw [(hreads sent (List.mem_of_mem_drop hsent)).1]
    rfl
  · obtain ⟨k, hfind⟩ := findClient_of_inStream hinv.registry hin
    have hlookup : (s.streams i).packetBuffer.find? (fun ap => ap.nonce == nonce) = _ :=
      (congrArg (List.find? fun ap => ap.nonce == nonce) hwindow).trans (find_copy nonce hnumbered)
    refine ⟨fun sent hle hget => ?_, fun hout => ?_⟩
    · rw [if_pos hle, show (s.audio i).history[nonce.toNat]? = some sent from hget] at hlookup
      rw [answerRequest, hfind]
      dsimp only
      rw [hlookup]
      dsimp only [Option.map_some, intercomSendPacketUnicast]
      rw [(hreads sent (List.mem_of_getElem? hget)).2]
    · have hnone : (if first ≤ nonce.toNat then
          ((s.audio i).history[nonce.toNat]?).map SentAudio.copy else none) = none := by
        split_ifs with hle
        · have hge : (s.audio i).history.length ≤ nonce.toNat := hout.resolve_left (Nat.not_lt.mpr hle)
          rw [List.getElem?_eq_none hge]
          rfl
        · rfl
      rw [answerRequest, hfind]
      dsimp only
      rw [hlookup, hnone]

/-- In every run in which a stream has sent fewer than `2 ^ 32 - 1` AUDIO packets, it keeps the last ones
under ascending numbers that are those in their headers, and a REQUEST TLV of a client of the stream
is answered with the packet that was sent under the number if and only if that is among them. -/
theorem retransmission_faithful (bufferms : UInt16) (options : Fin (n + 1) → StreamOptions)
    {events : List ServerEvent} (hopus : ∀ event ∈ events, event.OpusReturns) {s : Server n}
    (hrun : serverRun (freshServer bufferms options) events = .ok s) {i : Fin (n + 1)}
    (hfew : (s.streams i).history.length < 2 ^ 32 - 1) :
    ∃ first, HoldsWindow (s.streams i) first ∧
      ∀ clock opened ip port (mem : Nat → UInt8) offset, mem offset = tlvRequest →
        InStream s i (packetHdr mem).clientid →
          clientOperationHandle (serverEffects clock opened ip port) mem (pure s) offset =
              pure (answerRequest s (packetHdr mem).clientid (parseRequest mem offset).1 ip port) ∧
            AnswersFrom s i first (packetHdr mem).clientid (parseRequest mem offset).1 ip port := by
  obtain ⟨first, hwindow, hanswers⟩ := ((KeptInv.fresh bufferms options).run hopus hrun).answersFrom hfew
  refine ⟨first, hwindow, fun clock opened ip port mem offset htype hin => ⟨?_, hanswers _ hin _ ip port⟩⟩
  have hother : ¬mem offset = tlvHello := by
    rw [htype]
    decide
  rw [clientOperationHandle, if_neg hother, if_pos htype]
  rfl

/-- A client has come, and one chunk was read and sent. -/
def oneChunkEvents : List ServerEvent :=
  [helloFrom 1 100 1, .epollWait [4], .pipeInput 4 (some (List.replicate 20 7)) (2, [8, 9]) (clockAt 2)]

/-- A REQUEST TLV of client 1 for the packet 0. -/
def firstRequest : List UInt8 :=
  hdrBytes ⟨packetFormatVersion, clientOperation, 1, 5⟩ ++ [tlvRequest, 6] ++ net32 0

/-- The client asks for the packet, and it is sent once more. -/
theorem retransmission_faithful_request :
    ∃ s, serverRun (freshServer 1000 oneStream) oneChunkEvents = .ok s ∧
      ∃ first, HoldsWindow (s.streams 0) first ∧
        clientOperationHandle (serverEffects (clockAt 3) none ⟨1⟩ 100) (store (fun _ => 0) 0 firstRequest)
            (pure s) sizeofHdr = pure (answerRequest s 1 0 ⟨1⟩ 100) ∧
          AnswersFrom s 0 first 1 0 ⟨1⟩ 100 := by
  obtain ⟨s, hrun, hview⟩ := except_map_ok (show (serverRun (freshServer 1000 oneStream)
    oneChunkEvents).map (fun s => ((s.streams 0).history.length, (s.clients 0).map ClientRecord.id)) =
      .ok (1, [1]) by decide +kernel)
  obtain ⟨hlength, hids⟩ := Prod.mk.inj hview
  obtain ⟨client, hclient, hid⟩ := List.map_eq_singleton_iff.mp hids
  have hin : InStream s 0 1 := ⟨client, hclient ▸ List.mem_cons_self, hid⟩
  have hopus : ∀ event ∈ oneChunkEvents, event.OpusReturns := by
    simp [oneChunkEvents, helloFrom, ServerEvent.OpusReturns, opusMss]
  obtain ⟨first, hwindow, hanswers⟩ := retransmission_faithful 1000 oneStream hopus hrun (i := 0) (by omega)
  refine ⟨s, hrun, first, hwindow, ?_⟩
  exact hanswers (clockAt 3) none ⟨1⟩ 100 (store (fun _ => 0) 0 firstRequest) sizeofHdr (by decide) hin

end Snapcastc
