import Snapcastc.Clientmgr

/-! The server's side of the intercom (`intercom_srv.c`): AUDIO packets, the copies of them that are
kept for a while, and the packets the server receives. -/

namespace Snapcastc

open Bytes

variable {n : Nat}

/-- The largest payload that the encoder of a stream is created for: what `stream_parse` leaves of the
mtu of 1500 bytes. -/
def opusMss : Nat := 1427

/-- `encode_opus_handle`, where `encoded` is the result of `opus_encode` and the bytes it has written. -/
def encodeOpusHandle (encoded : Int × List UInt8) (chunk : PcmChunk) : Except Fault PcmChunk :=
  if chunk.frameSize = 0 ∨ chunk.channels = 0 then throw .divisionByZero
  else
    let nbBytes := encoded.1.toNat
    if encoded.1 < 0 ∨ chunk.data.length < nbBytes then throw .outOfBounds
    else
      pure { chunk with
        size := UInt16.ofInt encoded.1
        data := encoded.2.take nbBytes ++ chunk.data.drop nbBytes
        codec := codecOpus }

/-- The server after an AUDIO packet was sent to the clients of a stream that are not muted, the last
one first. -/
def sendToClients (s : Server n) (i : Fin (n + 1)) (assembly : Assembly) : Server n :=
  (s.clients i).reverse.foldl
    (fun s client => if client.muted then s else sendAssembly s client assembly) s

def keepPacket (stream : Stream) (assembly : Assembly) (nonce : UInt32) (time : Timespec) : Stream :=
  let ap := keptPacket (fun _ => 0) assembly
  { stream with
    nonce
    packetBuffer := stream.packetBuffer ++ [ap]
    history := stream.history ++ [⟨ap.nonce, load assembly.packet 0 assembly.packetLen, time⟩] }

/-- The part of `intercom_send_audio` that keeps a packet and posts the task that removes one. -/
def keepAudio (clock : ServerClock) (s : Server n) (i : Fin (n + 1)) (assembly : Assembly)
    (nonce : UInt32) : Server n :=
  let tasks := (s.tasks.postTask clock.uptime (s.bufferms.toNat / 1000 : Nat)
    (s.bufferms.toNat % 1000 : Nat) (.removeOldAudiodata i)).2
  { s with tasks }.setStream i (keepPacket (s.streams i) assembly nonce clock.uptime)

def intercomSendAudio (clock : ServerClock) (s : Server n) (i : Fin (n + 1)) : Server n :=
  let (assembly, nonce) :=
    assembleAudio (fun _ => 0) s.bufferms (s.streams i).nonce (s.pipe i).chunk
  sendToClients (keepAudio clock s i assembly (nonce.getD (s.streams i).nonce)) i assembly

/-- The loop of `remove_old_audiodata_task`: the oldest packet goes, and the loop goes on as long as the
packet it has removed was to be played longer than the buffer length ago. -/
def removeOldPackets (age : Timespec) : List AudioPacket → List AudioPacket
  | [] => []
  | ap :: packetBuffer =>
      if packetBuffer.length ≠ 0 ∧ timespecCmp age (keptPlayAt ap) > 0 then
        removeOldPackets age packetBuffer
      else packetBuffer

def removeOldAudiodataTask (clock : ServerClock) (s : Server n) (i : Fin (n + 1)) : Server n :=
  if (s.clients i).length = 0 then s
  else
    let age := timeSubMs clock.systime (.ofNat s.bufferms.toNat)
    s.setStream i { s.streams i with
      packetBuffer := removeOldPackets age (s.streams i).packetBuffer }

def answerRequest (s : Server n) (clientid : UInt16) (nonce : UInt32) (peer : In6Addr)
    (port : UInt16) : Server n :=
  match findClient s clientid with
  | none => s
  | some (i, _) =>
      match (s.streams i).packetBuffer.find? fun ap => ap.nonce == nonce with
      | none => s
      | some ap => intercomSendPacketUnicast s peer ap.data ap.len.toNat port

/-- What the server does with the TLVs of a client operation. Once the process has ended, nothing. -/
def serverEffects (clock : ServerClock) (opened : Option Nat) (ip : In6Addr) (port : UInt16) :
    ClientOperationEffects (Except Fault (Server n)) where
  refreshClient := fun s hello => do clientmgrRefreshClient clock opened (← s) ⟨hello, ip, port⟩
  answerRequest := fun s clientid nonce => do pure (answerRequest (← s) clientid nonce ip port)

/-- `intercom_handle_packet` of the server, with a bound on the rounds of the loop over the TLVs. -/
def serverHandlePacket (clock : ServerClock) (opened : Option Nat) (rounds : Nat) (s : Server n)
    (packet : Nat → UInt8) (packetLen : Nat) (peer : In6Addr) (port : UInt16) :
    Option (Except Fault (Server n)) :=
  let hdr := packetHdr packet
  if hdr.version = packetFormatVersion then
    let s := { s with recentPackets := intercomRecentlySeenAdd s.recentPackets hdr }
    if hdr.type = clientOperation then
      intercomHandleClientOperation (serverEffects clock opened peer port) rounds (pure s) packet
        packetLen
    else some (pure s)
  else some (pure s)

end Snapcastc
