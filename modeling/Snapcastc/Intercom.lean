import Snapcastc.LibraryBytes
import Snapcastc.Pcmchunk

/-! What server and client share of the intercom protocol (`intercom.c`, `intercom_common.h`): packet
headers, the AUDIO packet as `intercom_send_audio` assembles it and as both sides read it, and the
list of recently seen packets. A packet is a buffer with a length; the bytes behind the length are
whatever was there before. -/

namespace Snapcastc

open Bytes

def packetFormatVersion : UInt8 := 1

def intercomMaxRecent : Nat := 1000

def nonceMax : UInt32 := 0xFFFFFFFF

/-! The packet types. -/

def clientOperation : UInt8 := 0

def audioData : UInt8 := 1

def serverOperation : UInt8 := 2

/-- `intercom_packet_hdr`, its integers in host byte order. -/
structure IntercomPacketHdr where
  version : UInt8
  type : UInt8
  clientid : UInt16
  nonce : UInt32
  deriving DecidableEq, Repr

/-- `sizeof(intercom_packet_hdr)`. -/
def sizeofHdr : Nat := 8

/-- `sizeof(intercom_packet_audio)`: the header and `bufferms`. -/
def sizeofAudio : Nat := 10

/-- `get_nonce`, at a counter or at `NULL`: the number and the counter afterwards. -/
def getNonce : Option UInt32 → UInt32 × Option UInt32
  | some counter => (counter % nonceMax, some (counter + 1))
  | none => (0, none)

/-- The header of the packet in a buffer. -/
def packetHdr (packet : Nat → UInt8) : IntercomPacketHdr where
  version := packet 0
  type := packet 1
  clientid := host16 packet 2
  nonce := host32 packet 4

/-- The header is read from the first eight bytes. -/
theorem packetHdr_agree {n : Nat} {packet packet' : Nat → UInt8} (hagree : AgreeBelow n packet packet')
    (hle : sizeofHdr ≤ n) : packetHdr packet' = packetHdr packet := by
  have hsize : sizeofHdr = 8 := rfl
  rw [packetHdr, packetHdr, hagree 0 (by omega), hagree 1 (by omega), hagree.host16_eq (by omega),
    hagree.host32_eq (by omega)]

/-- The test of `intercom_recently_seen` on one entry. -/
def sameNonceAndType (hdr ref : IntercomPacketHdr) : Bool :=
  ref.nonce == hdr.nonce && ref.type == hdr.type

/-- `intercom_recently_seen`. The loop starts at the last entry and counts upwards, so it looks at
that entry only; without entries the start index wraps around and it looks at none. -/
def intercomRecentlySeen (recentPackets : List IntercomPacketHdr) (hdr : IntercomPacketHdr) : Bool :=
  (recentPackets.drop (recentPackets.length - 1)).any (sameNonceAndType hdr)

/-- A vector after its first elements were deleted until it has at most `maxsize` of them. -/
def dropOldest {α : Type} (maxsize : Nat) (entries : List α) : List α :=
  entries.drop (entries.length - maxsize)

def intercomRecentlySeenAdd (recentPackets : List IntercomPacketHdr) (hdr : IntercomPacketHdr) :
    List IntercomPacketHdr :=
  dropOldest intercomMaxRecent recentPackets ++ [hdr]

theorem intercomRecentlySeen_iff {recentPackets : List IntercomPacketHdr} {hdr : IntercomPacketHdr} :
    intercomRecentlySeen recentPackets hdr = true ↔
      ∃ ref, recentPackets.getLast? = some ref ∧ ref.nonce = hdr.nonce ∧ ref.type = hdr.type := by
  rcases List.eq_nil_or_concat recentPackets with rfl | ⟨entries, last, rfl⟩
  · simp [intercomRecentlySeen]
  · simp [intercomRecentlySeen, sameNonceAndType]

@[simp] theorem intercomRecentlySeenAdd_getLast? (recentPackets : List IntercomPacketHdr)
    (hdr : IntercomPacketHdr) :
    (intercomRecentlySeenAdd recentPackets hdr).getLast? = some hdr := by
  simp [intercomRecentlySeenAdd]

/-- A packet under construction: the buffer and `packet_len`. -/
structure Assembly where
  packet : Nat → UInt8
  packetLen : Nat

/-- Bytes written at `packet[packet_len]`, with `packet_len` advanced by their number. -/
def Assembly.put (assembly : Assembly) (bytes : List UInt8) : Assembly :=
  ⟨store assembly.packet assembly.packetLen bytes, assembly.packetLen + bytes.length⟩

/-- `assemble_header`, on a packet with nothing in it yet. -/
def assembleHeader (packet : Nat → UInt8) (type : UInt8) (nonce : Option UInt32)
    (clientid : UInt16) : Assembly × Option UInt32 :=
  (((((Assembly.mk packet 0).put [packetFormatVersion]).put [type]).put (net16 clientid)).put
    (net32 (getNonce nonce).1), (getNonce nonce).2)

def assemble16 (assembly : Assembly) (src : UInt16) : Assembly := assembly.put (net16 src)

def assemble32 (assembly : Assembly) (src : UInt32) : Assembly := assembly.put (net32 src)

/-- The AUDIO packet that `intercom_send_audio` assembles from a chunk, in a buffer with arbitrary
contents, and the stream's counter afterwards. -/
def assembleAudio (packet : Nat → UInt8) (bufferms : UInt16) (nonce : UInt32) (chunk : PcmChunk) :
    Assembly × Option UInt32 :=
  let (assembly, nonce) := assembleHeader packet audioData (some nonce) 0
  let assembly := assembly.put (net16 bufferms)
  let assembly := assemble32 assembly chunk.playAtTvSec
  let assembly := assemble32 assembly chunk.playAtTvNsec
  let assembly := assemble32 assembly chunk.samples
  let assembly := assembly.put [chunk.frameSize]
  let assembly := assembly.put [chunk.channels]
  let assembly := assemble16 assembly chunk.size
  let assembly := assembly.put [chunk.codec]
  (assembly.put (chunk.data.take chunk.size.toNat), nonce)

structure AudioPacket where
  data : Nat → UInt8
  len : UInt16
  nonce : UInt32

/-- The copy of an AUDIO packet that `intercom_send_audio` keeps: `packet_len` bytes in a fresh
allocation. -/
def keptPacket (allocated : Nat → UInt8) (assembly : Assembly) : AudioPacket where
  data := store allocated 0 (load assembly.packet 0 assembly.packetLen)
  len := UInt16.ofNat assembly.packetLen
  nonce := (packetHdr assembly.packet).nonce

/-- `chunk_copy_meta` and `chunk_ntoh` on the `pcmChunk` that starts at `packetpointer`. The fields
of the structure are at their natural alignment; its `data` pointer is not copied. -/
def chunkMeta (packet : Nat → UInt8) (packetpointer : Nat) : PcmChunk where
  playAtTvSec := host32 packet packetpointer
  playAtTvNsec := host32 packet (packetpointer + 4)
  samples := host32 packet (packetpointer + 8)
  frameSize := packet (packetpointer + 12)
  channels := packet (packetpointer + 13)
  size := host16 packet (packetpointer + 14)
  codec := packet (packetpointer + 16)
  data := []

/-- The chunk `intercom_handle_audio` reads from a packet. -/
def audioChunk (packet : Nat → UInt8) : PcmChunk :=
  let chunk := chunkMeta packet sizeofAudio
  { chunk with data := load packet (chunkHeaderSize + sizeofAudio) chunk.size.toNat }

/-- `ntohs(packet->bufferms)`. -/
def audioBufferms (packet : Nat → UInt8) : UInt16 := host16 packet sizeofHdr

/-- The `play_at` that `remove_old_audiodata_task` reads from a kept packet. -/
def keptPlayAt (ap : AudioPacket) : Timespec :=
  chunkGetPlayAt (some (chunkMeta ap.data sizeofAudio))

/-- The receive buffer of `intercom_handle_in` after `recvfrom` has stored a datagram in it. -/
def received (stale : Nat → UInt8) (mtu : Nat) (datagram : List UInt8) : Nat → UInt8 :=
  store stale 0 (datagram.take mtu)

end Snapcastc
