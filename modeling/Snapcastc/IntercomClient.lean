import Snapcastc.Client

/-! The client's side of the intercom (`intercom_client.c`): what it does with the packets it
receives. -/

namespace Snapcastc

open Bytes

def requestRetryIntervalMs : UInt16 := 100

def removeRequest (s : Client) (nonce : UInt32) : Client :=
  { s with missingPackets := s.missingPackets.erase nonce }

def alreadyRequesting (s : Client) (nonce : UInt32) : Bool := s.missingPackets.contains nonce

def limitMissingPackets (maxsize : Nat) (missingPackets : List UInt32) : List UInt32 :=
  dropOldest maxsize missingPackets

def pruneMissingPackets (s : Client) (oldestnonce : UInt32) : Client :=
  { s with missingPackets := s.missingPackets.filter fun nonce => oldestnonce < nonce }

def intercomSendRequest (clock : ClientClock) (s : Client) (seqno : UInt32) : Client :=
  let retriesLeft := (s.bufferms / requestRetryIntervalMs).toUInt8
  { s with
    nonce := s.nonce + 1
    tasks := (s.tasks.postTask clock.uptime 0 0 (.request seqno retriesLeft)).2 }

def registerMissing (capacity : Nat) (s : Client) (nonce : UInt32) : Client :=
  { s with missingPackets := limitMissingPackets capacity (s.missingPackets ++ [nonce]) }

/-- The body of the loop that requests the packets of a gap. -/
def requestMissing (clock : ClientClock) (capacity : Nat) (s : Client) (i : Nat) : Client :=
  let nonce := UInt32.ofNat i
  if alreadyRequesting s nonce then s
  else intercomSendRequest clock (registerMissing capacity s nonce) nonce

/-- A `size_t` passed as an `int`. -/
def asInt (x : Int) : Int := x.bmod (2 ^ 32)

/-- `max_requests`: the arguments and the result of `max` are `int`s, and so is the sum; it is then
converted to `size_t`. -/
def maxRequests (lastreceviedseqno thisSeqno capacity : Nat) : Nat :=
  (asInt (max (asInt lastreceviedseqno) (asInt (thisSeqno - capacity)) + 1) % 2 ^ 64).toNat

/-- The loop that requests the packets from `first` up to `thisSeqno`. -/
def requestRange (clock : ClientClock) (capacity : Nat) (s : Client) (first thisSeqno : Nat) :
    Client :=
  (List.range' first (thisSeqno - first)).foldl (requestMissing clock capacity) s

/-! ### Packets -/

def isNextChunk (lastreceviedseqno : Nat) (seq : UInt32) : Bool :=
  (seq == 0 && lastreceviedseqno == nonceMax.toNat) ||
    ((seq - 1).toNat == lastreceviedseqno && lastreceviedseqno != nonceMax.toNat)

theorem elements_le (serverbufferms : UInt16) (chunkMs : Nat) :
    serverbufferms.toNat / chunkMs + 1 ≤ 65536 := by
  have hlt := serverbufferms.toNat_lt
  have hdiv := Nat.div_le_self serverbufferms.toNat chunkMs
  omega

/-- `realloc_intercom_buffer_when_required`. -/
def reallocWhenRequired (s : Client) (serverbufferms : UInt16) (chunkMs : Nat) :
    Except Fault (Client × ReceiveBuffer) :=
  if chunkMs = 0 then throw .divisionByZero
  else
    let fresh := ReceiveBuffer.new (serverbufferms.toNat / chunkMs + 1) (Nat.succ_pos _)
      (elements_le serverbufferms chunkMs)
    match s.receivebuffer with
    | some buffer =>
        if fresh.capacity ≠ buffer.capacity then pure ({ s with bufferms := serverbufferms }, fresh)
        else pure (s, buffer)
    | none => pure ({ s with bufferms := serverbufferms }, fresh)

/-- The part of `intercom_handle_audio` that allocates the receive buffer. To find out how long a
chunk is, an opus chunk is decoded in place. -/
def ensureReceivebuffer (env : ClientEnv) (s : Client) (serverbufferms : UInt16) (chunk : PcmChunk) :
    Except Fault (Client × PcmChunk × ReceiveBuffer) :=
  let allocate : Except Fault (Client × PcmChunk × ReceiveBuffer) := do
    let (decoded, chunkMs) ← chunkGetdurationMs env.opus s.decoder chunk
    let s := { s with decoder := s.decoder || chunk.codec == codecOpus }
    let (s, buffer) ← reallocWhenRequired s serverbufferms chunkMs
    pure (s, decoded, buffer)
  match s.receivebuffer with
  | some buffer => if buffer.capacity ≠ 0 then pure (s, chunk, buffer) else allocate
  | none => allocate

/-- What `intercom_handle_audio` does about a packet that is not the next one. -/
def noteLoss (clock : ClientClock) (s : Client) (buffer : ReceiveBuffer) (thisSeqno : UInt32) :
    Client × ReceiveBuffer :=
  if isNextChunk s.lastreceviedseqno thisSeqno then (s, buffer)
  else
    let isChunkRetransmit := decide (thisSeqno.toNat < s.lastreceviedseqno)
    if isChunkRetransmit then (s, buffer)
    else if thisSeqno.toNat - s.lastreceviedseqno ≥ buffer.capacity then
      ({ s with lastreceviedseqno := thisSeqno.toNat },
        ReceiveBuffer.new buffer.capacity buffer.capacity_pos buffer.capacity_le)
    else
      (requestRange clock buffer.capacity s
        (maxRequests s.lastreceviedseqno thisSeqno.toNat buffer.capacity) thisSeqno.toNat, buffer)

/-- The client after the sequence number of a packet was noted. -/
def raiseSeqno (s : Client) (thisSeqno : UInt32) : Client :=
  if thisSeqno.toNat > s.lastreceviedseqno then { s with lastreceviedseqno := thisSeqno.toNat } else s

def withReceivebuffer (s : Client) (buffer : ReceiveBuffer) : Client :=
  { s with receivebuffer := some buffer }

/-- The part of `intercom_handle_audio` that closes a device with another format. -/
def closeDevice (s : Client) (chunk : PcmChunk) : Except Fault Client :=
  if chunk.frameSize ≠ s.alsaplayer.frameSize ∨ chunk.channels ≠ s.alsaplayer.channels ∨
      chunk.samples ≠ s.alsaplayer.rate then do
    let s ← alsaplayerRemoveTask s
    alsaplayerUninit s
  else pure s

def withFormat (s : Client) (chunk : PcmChunk) : Client :=
  { s with
    alsaplayer := { s.alsaplayer with
      frameSize := chunk.frameSize, channels := chunk.channels, rate := chunk.samples } }

/-- The end of `intercom_handle_audio`: the device is opened for the format of the chunk. -/
def openDevice (env : ClientEnv) (clock : ClientClock) (s : Client) (chunk : PcmChunk) :
    Except Fault Client := do
  let s ← closeDevice s chunk
  if s.alsaplayer.initialized then pure s
  else do
    let s ← alsaplayerInit env clock (withFormat s chunk)
    initAlsafd env s

/-- What `intercom_handle_audio` does with a chunk that is on time, up to the opening of the device. -/
def storeAudio (clock : ClientClock) (s : Client) (buffer : ReceiveBuffer) (thisSeqno : UInt32)
    (chunk : PcmChunk) : Client :=
  let (s, buffer) := noteLoss clock s buffer thisSeqno
  let s := withReceivebuffer s (buffer.putChunk clock.later ⟨chunk, thisSeqno⟩)
  raiseSeqno s thisSeqno

/-- `intercom_handle_audio`; it returns true when the chunk is on time. -/
def intercomHandleAudio (env : ClientEnv) (clock : ClientClock) (s : Client) (packet : Nat → UInt8) :
    Outcome Client :=
  let thisSeqno := (packetHdr packet).nonce
  let s := removeRequest s thisSeqno
  match ensureReceivebuffer env s (audioBufferms packet) (audioChunk packet) with
  | .error fault => ⟨s, some fault⟩
  | .ok (s, chunk, buffer) =>
      if timespecCmp (chunkGetPlayAt (some chunk)) clock.ctime > 0 then
        let s := storeAudio clock s buffer thisSeqno chunk
        Outcome.ofExcept s (openDevice env clock s chunk)
      else
        let s := raiseSeqno (withReceivebuffer s buffer) thisSeqno
        ⟨pruneMissingPackets s thisSeqno, none⟩

def stopClient (s : Client) : Client :=
  { s with
    missingPackets := []
    receivebuffer := none
    lastreceviedseqno := 0
    operations := s.operations ++ [.stop] }

def setClientVolume (s : Client) (percent : UInt8) : Client :=
  { s with
    alsaplayer := adjustVolume s.alsaplayer percent
    operations := s.operations ++ [.volume percent] }

def clientEffects : ServerOperationEffects Client where
  stop := stopClient
  adjustVolume := setClientVolume

/-- `intercom_handle_server_operation` on a datagram. A loop that has not ended after as many rounds
as the datagram has bytes never ends. -/
def handleServerOperation (s : Client) (packet : Nat → UInt8) (packetLen : Nat) : Outcome Client :=
  match intercomHandleServerOperation clientEffects packetLen s packet packetLen with
  | some s => ⟨s, none⟩
  | none => ⟨s, some .endless⟩

/-- The client after a packet was added to the recently seen ones. -/
def noteRecent (s : Client) (hdr : IntercomPacketHdr) : Client :=
  { s with recentPackets := intercomRecentlySeenAdd s.recentPackets hdr }

/-- `intercom_handle_packet` of the client. -/
def intercomHandlePacket (env : ClientEnv) (clock : ClientClock) (s : Client) (packet : Nat → UInt8)
    (packetLen : Nat) : Outcome Client :=
  let hdr := packetHdr packet
  if hdr.version = packetFormatVersion then
    if intercomRecentlySeen s.recentPackets hdr then ⟨s, none⟩
    else if hdr.type = serverOperation then handleServerOperation (noteRecent s hdr) packet packetLen
    else if hdr.type = audioData then intercomHandleAudio env clock (noteRecent s hdr) packet
    else ⟨noteRecent s hdr, none⟩
  else ⟨s, none⟩

/-- `intercom_getnextaudiochunk`: the chunk and the client afterwards. -/
def intercomGetnextaudiochunk (s : Client) : Option PcmChunk × Client :=
  (s.receivebuffer.bind ReceiveBuffer.peek,
    { s with receivebuffer := s.receivebuffer.map ReceiveBuffer.dequeue })

/-- What can happen to the client's receive buffer: a datagram arrives, or the player takes the next
chunk. -/
inductive ClientEvent where
  | datagram (packet : Nat → UInt8) (packetLen : Nat) (clock : ClientClock)
  | nextChunk

def clientStep (env : ClientEnv) (s : Client) : ClientEvent → Outcome Client
  | .datagram packet packetLen clock => intercomHandlePacket env clock s packet packetLen
  | .nextChunk => ⟨(intercomGetnextaudiochunk s).2, none⟩

/-- The client after a sequence of events, or when one of them has ended the process. -/
def clientRun (env : ClientEnv) : Client → List ClientEvent → Outcome Client
  | s, [] => ⟨s, none⟩
  | s, event :: events =>
      match (clientStep env s event).fault with
      | none => clientRun env (clientStep env s event).state events
      | some _ => clientStep env s event

end Snapcastc
