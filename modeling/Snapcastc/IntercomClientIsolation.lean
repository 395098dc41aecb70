import Snapcastc.IntercomClientLoss

/-! Which bytes of its buffer `intercom_handle_audio` lets into the receive buffer. It reads as many bytes
as the packet declares, whatever the length of the datagram. -/

namespace Snapcastc

open Bytes

def declaredSize (packet : Nat → UInt8) : Nat := (host16 packet (sizeofAudio + 14)).toNat

/-- The datagram in the first `n` bytes of a buffer determines what is in the receive buffer after
`intercom_handle_audio`. -/
def DeterminesStored (n : Nat) (packet : Nat → UInt8) : Prop :=
  ∀ packet', AgreeBelow n packet packet' → ∀ env clock s,
    (intercomHandleAudio env clock s packet').state.receivebuffer.map ReceiveBuffer.contents =
      (intercomHandleAudio env clock s packet).state.receivebuffer.map ReceiveBuffer.contents

theorem chunkMeta_agree {n offset : Nat} {packet packet' : Nat → UInt8}
    (hagree : AgreeBelow n packet packet') (hle : offset + chunkHeaderSize ≤ n) :
    chunkMeta packet' offset = chunkMeta packet offset := by
  have hsize : chunkHeaderSize = 17 := rfl
  rw [chunkMeta, chunkMeta, hagree.host32_eq (by omega), hagree.host32_eq (by omega),
    hagree.host32_eq (by omega), hagree (offset + 12) (by omega), hagree (offset + 13) (by omega),
    hagree.host16_eq (by omega), hagree (offset + 16) (by omega)]

/-- A packet that declares no more data than it brings is read as a whole from the datagram. -/
theorem intercomHandleAudio_agree {n : Nat} {packet packet' : Nat → UInt8}
    (hagree : AgreeBelow n packet packet')
    (hle : sizeofAudio + chunkHeaderSize + declaredSize packet ≤ n) (env : ClientEnv)
    (clock : ClientClock) (s : Client) :
    intercomHandleAudio env clock s packet' = intercomHandleAudio env clock s packet := by
  have hhdr : sizeofHdr = 8 := rfl
  have haudio : sizeofAudio = 10 := rfl
  have hchunk : chunkHeaderSize = 17 := rfl
  have hmeta : chunkMeta packet' sizeofAudio = chunkMeta packet sizeofAudio :=
    chunkMeta_agree hagree (by omega)
  have hdata : audioChunk packet' = audioChunk packet := by
    have hload : load packet' (chunkHeaderSize + sizeofAudio) (chunkMeta packet sizeofAudio).size.toNat =
        load packet (chunkHeaderSize + sizeofAudio) (chunkMeta packet sizeofAudio).size.toNat := by
      refine hagree.load_eq ?_
      change chunkHeaderSize + sizeofAudio + declaredSize packet ≤ n
      omega
    rw [audioChunk, audioChunk, hmeta, hload]
  have hnonce : packetHdr packet' = packetHdr packet := packetHdr_agree hagree (by omega)
  have hbufferms : audioBufferms packet' = audioBufferms packet := hagree.host16_eq (by omega)
  rw [intercomHandleAudio, intercomHandleAudio, hnonce, hbufferms, hdata]

/-! ### A client that stores whatever it gets -/

/-- A client with an empty receive buffer of one element. -/
def waitingClient : Client :=
  withReceivebuffer (freshClient 0 false none) (.new 1 (by decide) (by decide))

/-- Readings of clocks that are before every time a packet can name. -/
def earlyClock : ClientClock := ⟨⟨-1, 0⟩, ⟨0, 0⟩, ⟨0, 0⟩⟩

/-- Libraries of which nothing is used. -/
def idleEnv : ClientEnv := ⟨⟨fun _ _ => 0, fun _ _ => (0, [])⟩, id, 0, 0⟩

theorem noteLoss_new (clock : ClientClock) (s : Client) (elements : Nat) (hpos : 0 < elements)
    (hle : elements ≤ 65536) (seqno : UInt32) :
    (noteLoss clock s (.new elements hpos hle) seqno).2 = .new elements hpos hle := by
  unfold noteLoss
  dsimp only
  split_ifs <;> rfl

theorem putChunk_new (ctime : Timespec) (elements : Nat) (hpos : 0 < elements) (hle : elements ≤ 65536)
    (stored : StoredChunk) :
    ((ReceiveBuffer.new elements hpos hle).putChunk ctime stored).contents = [stored] := by
  have hempty : (ReceiveBuffer.new elements hpos hle).removeOldData ctime = .new elements hpos hle := by
    unfold ReceiveBuffer.removeOldData
    rw [show (ReceiveBuffer.new elements hpos hle).peek = none from rfl]
  have hperm : ((ReceiveBuffer.new elements hpos hle).enqueue stored).contents.Perm [stored] :=
    PQueue.enqueue_contents (PQueue.new (fun _ => default) storedCmp elements) stored hpos
  rw [ReceiveBuffer.putChunk, hempty]
  exact List.perm_singleton.mp hperm

/-- A chunk that is stored in an empty buffer is what the buffer holds. -/
theorem storeAudio_new (clock : ClientClock) (s : Client) (elements : Nat) (hpos : 0 < elements)
    (hle : elements ≤ 65536) (seqno : UInt32) (chunk : PcmChunk) :
    (storeAudio clock s (.new elements hpos hle) seqno chunk).receivebuffer.map ReceiveBuffer.contents =
      some [⟨chunk, seqno⟩] := by
  have hraise : ∀ s : Client, (raiseSeqno s seqno).receivebuffer = s.receivebuffer := by
    intro s
    rw [raiseSeqno]
    split_ifs <;> rfl
  rw [storeAudio]
  dsimp only
  rw [hraise, withReceivebuffer, Option.map_some, noteLoss_new, putChunk_new]

/-- The waiting client stores the chunk of the packet. -/
theorem waitingClient_stores (packet : Nat → UInt8) :
    (intercomHandleAudio idleEnv earlyClock waitingClient packet).state.receivebuffer.map
        ReceiveBuffer.contents = some [⟨audioChunk packet, (packetHdr packet).nonce⟩] := by
  have hbuffer : waitingClient.receivebuffer = some (.new 1 (by decide) (by decide)) := rfl
  have hontime : timespecCmp (chunkGetPlayAt (some (audioChunk packet))) earlyClock.ctime > 0 := by
    rw [gt_iff_lt, timespecCmp_pos_iff]
    simp only [chunkGetPlayAt, earlyClock]
    omega
  rw [(handleAudio_onTime idleEnv hbuffer hontime).receivebuffer, storeAudio_new]

/-- From a shorter packet the client reads bytes behind it, and stores them. -/
theorem not_determinesStored {n : Nat} {packet : Nat → UInt8}
    (hshort : n < sizeofAudio + chunkHeaderSize + declaredSize packet) : ¬DeterminesStored n packet := by
  intro hdetermines
  have haudio : sizeofAudio = 10 := rfl
  have hchunk : chunkHeaderSize = 17 := rfl
  -- a byte behind the datagram that is read: the codec, or else the first missing data byte
  have hbyte : packet (max n 26) + 1 ≠ packet (max n 26) := by
    intro heq
    have := congrArg UInt8.toNat heq
    rw [UInt8.toNat_add] at this
    have hone : (1 : UInt8).toNat = 1 := rfl
    have := (packet (max n 26)).toNat_lt
    omega
  have hagree := AgreeBelow.update packet (le_max_left n 26) (packet (max n 26) + 1)
  have hstored := hdetermines _ hagree idleEnv earlyClock waitingClient
  rw [waitingClient_stores, waitingClient_stores] at hstored
  have hchunks : audioChunk (Function.update packet (max n 26) (packet (max n 26) + 1)) =
      audioChunk packet :=
    congrArg StoredChunk.chunk (List.head_eq_of_cons_eq (Option.some.inj hstored))
  rcases le_or_gt n 26 with hle | hgt
  · rw [max_eq_right hle] at hchunks hbyte
    have hcodec : Function.update packet 26 (packet 26 + 1) 26 = packet 26 :=
      congrArg PcmChunk.codec hchunks
    rw [Function.update_self] at hcodec
    exact hbyte hcodec
  · rw [max_eq_left hgt.le] at hchunks hbyte
    have hsame : declaredSize (Function.update packet n (packet n + 1)) = declaredSize packet :=
      congrArg (fun chunk => chunk.size.toNat) hchunks
    have hdata : (audioChunk (Function.update packet n (packet n + 1))).data[n - 27]? =
        (audioChunk packet).data[n - 27]? := by
      rw [hchunks]
    have hread : ∀ mem, declaredSize mem = declaredSize packet →
        (audioChunk mem).data[n - 27]? = some (mem n) := by
      intro mem hsize
      change (load mem (chunkHeaderSize + sizeofAudio) (declaredSize mem))[n - 27]? = _
      have hlt : n - 27 < declaredSize mem := by omega
      simp only [load, List.getElem?_map, List.getElem?_range hlt, Option.map_some]
      congr 2
      omega
    rw [hread _ hsame, hread _ rfl, Function.update_self] at hdata
    exact hbyte (Option.some.inj hdata)

/-- The datagram determines what is stored exactly when it brings all the data it declares. -/
theorem determinesStored_iff (n : Nat) (packet : Nat → UInt8) :
    DeterminesStored n packet ↔ sizeofAudio + chunkHeaderSize + declaredSize packet ≤ n := by
  refine ⟨fun hdetermines => ?_, fun hle packet' hagree env clock s => ?_⟩
  · by_contra hshort
    exact not_determinesStored (not_le.mp hshort) hdetermines
  · rw [intercomHandleAudio_agree hagree hle]

/-- An AUDIO packet of 27 bytes that declares one data byte and brings none. -/
def lyingPacket : Nat → UInt8 :=
  store (fun _ => 0) 0 [1, 1, 0, 0, 0, 0, 0, 7, 3, 232, 0, 0, 0, 9, 0, 0, 0, 0, 0, 0, 187, 128, 2, 2, 0, 1, 0]

theorem lyingPacket_not_determined : ¬DeterminesStored 27 lyingPacket :=
  not_determinesStored (by decide)

end Snapcastc
