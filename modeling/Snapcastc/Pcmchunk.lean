import Snapcastc.Timespec
import Snapcastc.Process

/-! Audio chunks (`pcmchunk.c`) and their opus decoding (`opuscodec.c`). The opus library itself is a
parameter: it is third-party code. -/

namespace Snapcastc

def codecPcm : UInt8 := 0

def codecOpus : UInt8 := 1

/-- `CHUNK_HEADER_SIZE`: the size of the chunk header in an AUDIO packet. -/
def chunkHeaderSize : Nat := 17

/-- `pcmChunk`. -/
structure PcmChunk where
  playAtTvSec : UInt32
  playAtTvNsec : UInt32
  samples : UInt32
  frameSize : UInt8
  channels : UInt8
  size : UInt16
  codec : UInt8
  data : List UInt8
  deriving DecidableEq, Repr, Inhabited

/-- What is read of a number that was stored in a field of 32 bits. -/
theorem uint32_ofInt_toNat (x : Int) : ((UInt32.ofInt x).toNat : Int) = x % 2 ^ 32 := by
  rw [UInt32.ofInt, UInt32.toNat_ofNat']
  omega

theorem uint16_ofInt_toNat (x : Int) : ((UInt16.ofInt x).toNat : Int) = x % 2 ^ 16 := by
  rw [UInt16.ofInt, UInt16.toNat_ofNat']
  omega

/-- `chunk_get_play_at`, at a chunk or at `NULL`. -/
def chunkGetPlayAt : Option PcmChunk → Timespec
  | some chunk => ⟨chunk.playAtTvSec.toNat, chunk.playAtTvNsec.toNat⟩
  | none => ⟨0, 0⟩

def chunkCmp (c1 c2 : PcmChunk) : Int :=
  if c1.playAtTvSec > c2.playAtTvSec then 1
  else if c1.playAtTvSec < c2.playAtTvSec then -1
  else if c1.playAtTvNsec > c2.playAtTvNsec then 1
  else if c1.playAtTvNsec < c2.playAtTvNsec then -1
  else 0

def chunkFreeMembers (chunk : PcmChunk) : PcmChunk :=
  { chunk with playAtTvSec := 0, data := [], size := 0 }

/-- `get_emptychunk`: the size is computed in 32 bits and stored in 16. -/
def getEmptychunk (ret : PcmChunk) (lengthMs : UInt32) : PcmChunk :=
  let size :=
    (ret.samples * lengthMs * ret.channels.toUInt32 * ret.frameSize.toUInt32 / 1000).toUInt16
  { ret with
    size
    playAtTvSec := 0
    playAtTvNsec := 0
    data := List.replicate size.toNat 0
    codec := codecPcm }

/-- What the client uses of libopus: `opus_decoder_create`, by its error code, and `opus_decode` on
the payload with room for a number of frames, by its result and the samples it wrote. -/
structure OpusDecoder where
  create : (samples : UInt32) → (channels : UInt8) → Int
  decode : (data : List UInt8) → (maxFrames : Int) → Int × List UInt8

def opusInitDecoder (opus : OpusDecoder) (samples : UInt32) (channels : UInt8) : Except Fault Unit :=
  if opus.create samples channels < 0 then throw (.exitError "failed to create decoder: %s\n")
  else pure ()

/-- `decode_opus_handle`. The decoder is created on the first call, which is when `decoder` is
false. -/
def decodeOpusHandle (opus : OpusDecoder) (decoder : Bool) (chunk : PcmChunk) :
    Except Fault PcmChunk := do
  if !decoder then opusInitDecoder opus chunk.samples chunk.channels
  if chunk.channels = 0 ∨ chunk.frameSize = 0 ∨ chunk.size = 0 then
    throw (.exitError "chunk empty, cannot decode. This is a bug\n")
  let maxFrames : Int := (chunk.samples * 120 / 1000).toNat
  let (frames, out) := opus.decode chunk.data maxFrames
  if frames ≤ 0 then
    let empty := getEmptychunk { chunk with codec := 0, size := 0, data := [] } 5
    pure { chunk with data := empty.data, size := empty.size, codec := codecPcm }
  else
    let size := UInt16.ofNat (frames.toNat * chunk.channels.toNat * chunk.frameSize.toNat)
    pure { chunk with size, codec := codecPcm, data := out.take size.toNat }

def chunkDecode (opus : OpusDecoder) (decoder : Bool) (chunk : PcmChunk) : Except Fault PcmChunk :=
  if chunk.codec = codecOpus then decodeOpusHandle opus decoder chunk else pure chunk

/-- `chunk_getduration_ms`: the chunk is decoded in place, then its duration is computed. -/
def chunkGetdurationMs (opus : OpusDecoder) (decoder : Bool) (chunk : PcmChunk) :
    Except Fault (PcmChunk × Nat) := do
  let chunk ← chunkDecode opus decoder chunk
  pure (chunk,
    if chunk.channels ≠ 0 ∧ chunk.frameSize ≠ 0 ∧ chunk.samples ≠ 0 then
      1000 * chunk.size.toNat / chunk.channels.toNat / chunk.frameSize.toNat / chunk.samples.toNat
    else 0)

/-- The chunk that `decode_opus_handle` leaves behind when it decodes. -/
def opusDecoded (opus : OpusDecoder) (chunk : PcmChunk) : PcmChunk :=
  let (frames, out) := opus.decode chunk.data ((chunk.samples * 120 / 1000).toNat : Nat)
  if frames ≤ 0 then
    let empty := getEmptychunk { chunk with codec := 0, size := 0, data := [] } 5
    { chunk with data := empty.data, size := empty.size, codec := codecPcm }
  else
    let size := UInt16.ofNat (frames.toNat * chunk.channels.toNat * chunk.frameSize.toNat)
    { chunk with size, codec := codecPcm, data := out.take size.toNat }

theorem decodeOpusHandle_of_decoder (opus : OpusDecoder) (chunk : PcmChunk) :
    decodeOpusHandle opus true chunk =
      if chunk.channels = 0 ∨ chunk.frameSize = 0 ∨ chunk.size = 0 then
        .error (.exitError "chunk empty, cannot decode. This is a bug\n")
      else .ok (opusDecoded opus chunk) := by
  unfold decodeOpusHandle opusDecoded
  rw [if_neg (by decide : ¬(!true) = true)]
  split
  · rfl
  · dsimp only
    split
    · rfl
    · rfl

theorem decodeOpusHandle_eq (opus : OpusDecoder) (decoder : Bool) (chunk : PcmChunk) :
    decodeOpusHandle opus decoder chunk =
      if decoder = false ∧ opus.create chunk.samples chunk.channels < 0 then
        .error (.exitError "failed to create decoder: %s\n")
      else if chunk.channels = 0 ∨ chunk.frameSize = 0 ∨ chunk.size = 0 then
        .error (.exitError "chunk empty, cannot decode. This is a bug\n")
      else .ok (opusDecoded opus chunk) := by
  rw [← decodeOpusHandle_of_decoder]
  cases decoder with
  | true => rw [if_neg fun hcreate => absurd hcreate.1 (by decide)]
  | false =>
      unfold decodeOpusHandle opusInitDecoder
      by_cases hcreate : opus.create chunk.samples chunk.channels < 0
      · rw [if_pos (And.intro rfl hcreate), if_pos (by decide : (!false) = true), if_pos hcreate]
        rfl
      · rw [if_neg (show ¬(false = false ∧ _) from fun hboth => hcreate hboth.2),
          if_pos (by decide : (!false) = true), if_neg hcreate, if_neg (by decide : ¬(!true) = true)]
        rfl

@[simp] theorem opusDecoded_playAt (opus : OpusDecoder) (chunk : PcmChunk) :
    chunkGetPlayAt (some (opusDecoded opus chunk)) = chunkGetPlayAt (some chunk) := by
  unfold opusDecoded
  dsimp only
  split
  · rfl
  · rfl

theorem chunkDecode_playAt {opus : OpusDecoder} {decoder : Bool} {chunk decoded : PcmChunk}
    (hdecode : chunkDecode opus decoder chunk = .ok decoded) :
    chunkGetPlayAt (some decoded) = chunkGetPlayAt (some chunk) := by
  rw [chunkDecode, decodeOpusHandle_eq] at hdecode
  split_ifs at hdecode
  · rw [← Except.ok.inj hdecode, opusDecoded_playAt]
  · rw [← Except.ok.inj hdecode]

theorem chunkCmp_eq_timespecCmp (c1 c2 : PcmChunk) :
    chunkCmp c1 c2 = timespecCmp (chunkGetPlayAt (some c1)) (chunkGetPlayAt (some c2)) := by
  have hsec : ∀ a b : UInt32, a < b ↔ (a.toNat : Int) < b.toNat := by
    intro a b
    rw [UInt32.lt_iff_toNat_lt]
    omega
  simp only [chunkCmp, timespecCmp, chunkGetPlayAt, gt_iff_lt, hsec]
  split_ifs <;> omega

end Snapcastc
