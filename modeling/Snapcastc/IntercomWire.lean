import Snapcastc.Intercom

/-! The AUDIO packet on the wire: what the server assembles is what the client reads, and what the
server reads again when it removes the packet. Both readings follow from one description of the
packet as a string of bytes. -/

namespace Snapcastc

open Bytes

/-- The packet consists of the bytes. -/
structure Assembled (assembly : Assembly) (bytes : List UInt8) : Prop where
  length : assembly.packetLen = bytes.length
  holds : Holds assembly.packet 0 bytes

theorem Assembled.empty (packet : Nat → UInt8) : Assembled ⟨packet, 0⟩ [] :=
  ⟨rfl, fun _ hi => absurd hi (Nat.not_lt_zero _)⟩

theorem Assembled.put {assembly : Assembly} {bytes : List UInt8} (hbytes : Assembled assembly bytes)
    (more : List UInt8) : Assembled (assembly.put more) (bytes ++ more) where
  length := by rw [Assembly.put, hbytes.length, List.length_append]
  holds := by
    have hbehind : assembly.packetLen = 0 + bytes.length := by rw [hbytes.length, Nat.zero_add]
    refine (hbytes.holds.store_behind more hbehind.ge).append ?_
    rw [← hbehind]
    exact holds_store assembly.packet assembly.packetLen more

theorem Assembled.load_eq {assembly : Assembly} {bytes : List UInt8}
    (hbytes : Assembled assembly bytes) : load assembly.packet 0 assembly.packetLen = bytes := by
  rw [hbytes.length]
  exact hbytes.holds.load_eq

/-- A datagram that fits the receive buffer is received whole. -/
theorem received_holds (stale : Nat → UInt8) {mtu : Nat} {datagram : List UInt8}
    (hfits : datagram.length ≤ mtu) : Holds (received stale mtu datagram) 0 datagram := by
  rw [received, List.take_of_length_le hfits]
  exact holds_store stale 0 datagram

/-- A packet that consists of the bytes, received in a buffer that held something else before. -/
theorem Assembled.received_holds {assembly : Assembly} {bytes : List UInt8}
    (hbytes : Assembled assembly bytes) (stale : Nat → UInt8) :
    Holds (received stale assembly.packetLen (load assembly.packet 0 assembly.packetLen)) 0 bytes := by
  rw [hbytes.load_eq]
  exact Snapcastc.received_holds stale hbytes.length.ge

/-- A header on the wire. -/
def hdrBytes (hdr : IntercomPacketHdr) : List UInt8 :=
  [hdr.version] ++ [hdr.type] ++ net16 hdr.clientid ++ net32 hdr.nonce

@[simp] theorem hdrBytes_length (hdr : IntercomPacketHdr) : (hdrBytes hdr).length = sizeofHdr := rfl

theorem assembleHeader_assembled (packet : Nat → UInt8) (type : UInt8) (nonce : Option UInt32)
    (clientid : UInt16) :
    Assembled (assembleHeader packet type nonce clientid).1
      (hdrBytes ⟨packetFormatVersion, type, clientid, (getNonce nonce).1⟩) :=
  ((((Assembled.empty packet).put [packetFormatVersion]).put [type]).put (net16 clientid)).put
    (net32 (getNonce nonce).1)

theorem packetHdr_of_holds {mem : Nat → UInt8} {hdr : IntercomPacketHdr} (hmem : Holds mem 0 (hdrBytes hdr)) :
    packetHdr mem = hdr := by
  have hversion := hmem.left.left.left
  have htype := hmem.left.left.right
  have hclientid := hmem.left.right
  have hnonce := hmem.right
  rw [packetHdr]
  exact congr (congr (congrArg₂ IntercomPacketHdr.mk hversion.head_eq htype.head_eq)
    hclientid.host16_eq) hnonce.host32_eq

/-- The header of an AUDIO packet on the wire, with the buffer length behind it. -/
def audioHeaderBytes (bufferms : UInt16) (seqno : UInt32) : List UInt8 :=
  [packetFormatVersion] ++ [audioData] ++ net16 0 ++ net32 seqno ++ net16 bufferms

def chunkHeaderBytes (chunk : PcmChunk) : List UInt8 :=
  net32 chunk.playAtTvSec ++ net32 chunk.playAtTvNsec ++ net32 chunk.samples ++
    [chunk.frameSize] ++ [chunk.channels] ++ net16 chunk.size ++ [chunk.codec]

/-- An AUDIO packet on the wire. -/
def audioBytes (bufferms : UInt16) (seqno : UInt32) (chunk : PcmChunk) : List UInt8 :=
  audioHeaderBytes bufferms seqno ++ (chunkHeaderBytes chunk ++ chunk.data.take chunk.size.toNat)

theorem assembleAudio_assembled (packet : Nat → UInt8) (bufferms : UInt16) (nonce : UInt32)
    (chunk : PcmChunk) :
    Assembled (assembleAudio packet bufferms nonce chunk).1
      (audioBytes bufferms (nonce % nonceMax) chunk) := by
  have hput := (((((((((((((Assembled.empty packet).put [packetFormatVersion]).put
    [audioData]).put (net16 0)).put (net32 (nonce % nonceMax))).put (net16 bufferms)).put
    (net32 chunk.playAtTvSec)).put (net32 chunk.playAtTvNsec)).put (net32 chunk.samples)).put
    [chunk.frameSize]).put [chunk.channels]).put (net16 chunk.size)).put [chunk.codec]).put
    (chunk.data.take chunk.size.toNat)
  rw [audioBytes, audioHeaderBytes, chunkHeaderBytes]
  simp only [List.nil_append, List.append_assoc] at hput ⊢
  exact hput

/-- Whoever reads a buffer that starts with an AUDIO packet finds the header it was sent with. -/
theorem Holds.audioHeader {mem : Nat → UInt8} {bufferms : UInt16} {seqno : UInt32}
    (hmem : Holds mem 0 (audioHeaderBytes bufferms seqno)) :
    packetHdr mem = ⟨packetFormatVersion, audioData, 0, seqno⟩ ∧ audioBufferms mem = bufferms := by
  have hversion := hmem.left.left.left.left
  have htype := hmem.left.left.left.right
  have hclientid := hmem.left.left.right
  have hnonce := hmem.left.right
  have hbufferms := hmem.right
  refine ⟨?_, hbufferms.host16_eq⟩
  simp only [packetHdr, IntercomPacketHdr.mk.injEq]
  exact ⟨hversion.head_eq, htype.head_eq, hclientid.host16_eq, hnonce.host32_eq⟩

/-- Whoever reads the chunk header finds the chunk it was made from, but for its data. -/
theorem Holds.chunkMeta {mem : Nat → UInt8} {packetpointer : Nat} {chunk : PcmChunk}
    (hmem : Holds mem packetpointer (chunkHeaderBytes chunk)) :
    chunkMeta mem packetpointer = { chunk with data := [] } := by
  have hsec := hmem.left.left.left.left.left.left
  have hnsec := hmem.left.left.left.left.left.right
  have hsamples := hmem.left.left.left.left.right
  have hframeSize := hmem.left.left.left.right
  have hchannels := hmem.left.left.right
  have hsize := hmem.left.right
  have hcodec := hmem.right
  simp only [Snapcastc.chunkMeta, PcmChunk.mk.injEq]
  exact ⟨hsec.host32_eq, hnsec.host32_eq, hsamples.host32_eq, hframeSize.head_eq,
    hchannels.head_eq, hsize.host16_eq, hcodec.head_eq, trivial⟩

/-- The client reads the chunk that the packet was made from. -/
theorem Holds.audioChunk {mem : Nat → UInt8} {bufferms : UInt16} {seqno : UInt32}
    {chunk : PcmChunk} (hdata : chunk.data.length = chunk.size.toNat)
    (hmem : Holds mem 0 (audioBytes bufferms seqno chunk)) : audioChunk mem = chunk := by
  have hmeta := Holds.chunkMeta hmem.right.left
  have hload := hmem.right.right.load_eq
  rw [List.take_of_length_le hdata.le, hdata] at hload
  rw [Snapcastc.audioChunk, show sizeofAudio = 0 + (audioHeaderBytes bufferms seqno).length from rfl,
    hmeta]
  rw [show chunkHeaderSize + (0 + (audioHeaderBytes bufferms seqno).length) =
    0 + (audioHeaderBytes bufferms seqno).length + (chunkHeaderBytes chunk).length from rfl, hload]

/-- An AUDIO packet has 27 bytes before the payload. -/
theorem audioBytes_length (bufferms : UInt16) (nonce : UInt32) (chunk : PcmChunk) :
    (audioBytes bufferms nonce chunk).length = 27 + min chunk.size.toNat chunk.data.length := by
  have hheader : (audioHeaderBytes bufferms nonce).length = 10 := rfl
  have hchunk : (chunkHeaderBytes chunk).length = 17 := rfl
  rw [audioBytes, List.length_append, List.length_append, List.length_take, hheader, hchunk, ← Nat.add_assoc]

/-- The AUDIO packet of a chunk, sent by the server and received by the client in a buffer that may
hold anything, is read as the same chunk, buffer length and sequence number; and the server reads the
same play time from its own copy. -/
theorem audioPacket_roundTrip (packet allocated stale : Nat → UInt8) (mtu : Nat)
    (bufferms : UInt16) (nonce : UInt32) (chunk : PcmChunk)
    (hdata : chunk.data.length = chunk.size.toNat) (hmtu : 27 + chunk.size.toNat ≤ mtu) :
    let assembly := (assembleAudio packet bufferms nonce chunk).1
    let ap := keptPacket allocated assembly
    let buf := received stale mtu (load assembly.packet 0 assembly.packetLen)
    assembly.packetLen = 27 + chunk.size.toNat ∧
      audioChunk buf = chunk ∧ audioBufferms buf = bufferms ∧
      packetHdr buf = ⟨packetFormatVersion, audioData, 0, ap.nonce⟩ ∧
      ap.nonce = nonce % nonceMax ∧
      keptPlayAt ap = chunkGetPlayAt (some chunk) := by
  intro assembly ap buf
  have hbytes : Assembled assembly (audioBytes bufferms (nonce % nonceMax) chunk) :=
    assembleAudio_assembled packet bufferms nonce chunk
  have hlength : (audioBytes bufferms (nonce % nonceMax) chunk).length =
      27 + chunk.size.toNat := by
    rw [audioBytes_length, hdata, min_self]
  have hbuf : Holds buf 0 (audioBytes bufferms (nonce % nonceMax) chunk) := by
    simp only [buf, hbytes.load_eq]
    exact received_holds stale (hlength.trans_le hmtu)
  have hap : Holds ap.data 0 (audioBytes bufferms (nonce % nonceMax) chunk) := by
    have hstore := holds_store allocated 0 (load assembly.packet 0 assembly.packetLen)
    simpa only [ap, keptPacket, hbytes.load_eq] using hstore
  have hnonce : ap.nonce = nonce % nonceMax := by
    have hhdr := (Holds.audioHeader hbytes.holds.left).1
    exact congrArg IntercomPacketHdr.nonce hhdr
  obtain ⟨hhdr, hbufferms⟩ := Holds.audioHeader hbuf.left
  refine ⟨hbytes.length.trans hlength, Holds.audioChunk hdata hbuf, hbufferms, ?_, hnonce, ?_⟩
  · rw [hhdr, hnonce]
  · have hmeta := Holds.chunkMeta hap.right.left
    rw [keptPlayAt, show sizeofAudio =
      0 + (audioHeaderBytes bufferms (nonce % nonceMax)).length from rfl, hmeta]
    rfl

/-- Two stereo frames, sent as the packet with the last number before the counter wraps around. -/
theorem audioPacket_roundTrip_stereo :
    let chunk : PcmChunk := ⟨1700000000, 250000000, 48000, 2, 2, 8, codecPcm, [1, 2, 3, 4, 5, 6, 7, 8]⟩
    let assembly := (assembleAudio (fun _ => 0) 1000 0xFFFFFFFE chunk).1
    audioChunk (received (fun _ => 255) 1500 (load assembly.packet 0 assembly.packetLen)) = chunk :=
  (audioPacket_roundTrip (fun _ => 0) (fun _ => 0) (fun _ => 255) 1500 1000 0xFFFFFFFE
    ⟨1700000000, 250000000, 48000, 2, 2, 8, codecPcm, [1, 2, 3, 4, 5, 6, 7, 8]⟩ rfl (by decide)).2.1

end Snapcastc
