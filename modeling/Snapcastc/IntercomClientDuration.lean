import Snapcastc.IntercomClientStorage
import Snapcastc.LibraryCalls
import Snapcastc.PcmchunkSilence

/-! What the header of an AUDIO packet can do to the client. The receive buffer is sized by the duration
of the first chunk, which is computed from the header: a chunk that is shorter than a millisecond, as
far as the computation goes, ends the process with a division by zero. -/

namespace Snapcastc

open Calls

/-- The ways the values of a header can end the process: a division by zero, or the `exit_error` of
`decode_opus_handle`. -/
def Fault.HeaderValues : Fault → Prop
  | .divisionByZero => True
  | .exitError message => message = "chunk empty, cannot decode. This is a bug\n"
  | _ => False

theorem exitError_harmless {message : String}
    (hother : message ≠ "chunk empty, cannot decode. This is a bug\n") :
    ¬Fault.HeaderValues (.exitError message) := hother

/-- So many bytes of samples in the format of a chunk last for a millisecond or longer. -/
def LastsMs (chunk : PcmChunk) (size : Nat) : Prop :=
  (chunk.channels ≠ 0 ∧ chunk.frameSize ≠ 0 ∧ chunk.samples ≠ 0) ∧
    chunk.channels.toNat * chunk.frameSize.toNat * chunk.samples.toNat ≤ 1000 * size

instance (chunk : PcmChunk) (size : Nat) : Decidable (LastsMs chunk size) :=
  inferInstanceAs (Decidable (_ ∧ _))

def decodedMs (chunk : PcmChunk) : Nat :=
  if chunk.channels ≠ 0 ∧ chunk.frameSize ≠ 0 ∧ chunk.samples ≠ 0 then
    1000 * chunk.size.toNat / chunk.channels.toNat / chunk.frameSize.toNat / chunk.samples.toNat
  else 0

theorem chunkGetdurationMs_eq (opus : OpusDecoder) (decoder : Bool) (chunk : PcmChunk) :
    chunkGetdurationMs opus decoder chunk =
      (chunkDecode opus decoder chunk).map fun decoded => (decoded, decodedMs decoded) := by
  unfold chunkGetdurationMs decodedMs
  cases chunkDecode opus decoder chunk with
  | error fault => rfl
  | ok decoded => rfl

theorem decodedMs_eq_zero_iff (chunk : PcmChunk) :
    decodedMs chunk = 0 ↔ ¬LastsMs chunk chunk.size.toNat := by
  rw [decodedMs, LastsMs]
  by_cases hformat : chunk.channels ≠ 0 ∧ chunk.frameSize ≠ 0 ∧ chunk.samples ≠ 0
  · have hchannels : 0 < chunk.channels.toNat := by
      have hne : chunk.channels.toNat ≠ 0 := fun hzero => hformat.1 (UInt8.toNat_inj.mp hzero)
      omega
    have hframe : 0 < chunk.frameSize.toNat := by
      have hne : chunk.frameSize.toNat ≠ 0 := fun hzero => hformat.2.1 (UInt8.toNat_inj.mp hzero)
      omega
    have hsamples : 0 < chunk.samples.toNat := by
      have hne : chunk.samples.toNat ≠ 0 := fun hzero => hformat.2.2 (UInt32.toNat_inj.mp hzero)
      omega
    have hproduct := Nat.mul_pos (Nat.mul_pos hchannels hframe) hsamples
    rw [if_pos hformat, Nat.div_div_eq_div_mul, Nat.div_div_eq_div_mul, ← Nat.mul_assoc,
      Nat.div_eq_zero_iff]
    constructor
    · intro hshort
      exact fun hlong => absurd hlong.2 (by omega)
    · intro hshort
      refine .inr ?_
      by_contra hlong
      exact hshort ⟨hformat, Nat.le_of_not_lt hlong⟩
  · rw [if_neg hformat]
    exact ⟨fun _ hlong => hformat hlong.1, fun _ => rfl⟩

/-- The size of a chunk after it was decoded, by the number of frames that `opus_decode` returned: an
error gives an empty chunk of five milliseconds. -/
def decodedSize (chunk : PcmChunk) (frames : Int) : Nat :=
  if frames ≤ 0 then
    5 * chunk.samples.toNat * chunk.channels.toNat * chunk.frameSize.toNat % 2 ^ 32 / 1000 % 2 ^ 16
  else frames.toNat * chunk.channels.toNat * chunk.frameSize.toNat % 2 ^ 16

/-- What `opus_decode` returns for a chunk. -/
def opusFrames (opus : OpusDecoder) (chunk : PcmChunk) : Int :=
  (opus.decode chunk.data ((chunk.samples * 120 / 1000).toNat : Nat)).1

theorem opusDecoded_format (opus : OpusDecoder) (chunk : PcmChunk) :
    (opusDecoded opus chunk).channels = chunk.channels ∧
      (opusDecoded opus chunk).frameSize = chunk.frameSize ∧
      (opusDecoded opus chunk).samples = chunk.samples := by
  unfold opusDecoded
  dsimp only
  split
  · exact ⟨rfl, rfl, rfl⟩
  · exact ⟨rfl, rfl, rfl⟩

theorem opusDecoded_size (opus : OpusDecoder) (chunk : PcmChunk) :
    (opusDecoded opus chunk).size.toNat = decodedSize chunk (opusFrames opus chunk) := by
  unfold opusDecoded decodedSize opusFrames
  dsimp only
  split
  · exact getEmptychunk_size _ 5
  · exact UInt16.toNat_ofNat

theorem lastsMs_opusDecoded (opus : OpusDecoder) (chunk : PcmChunk) (size : Nat) :
    LastsMs (opusDecoded opus chunk) size ↔ LastsMs chunk size := by
  obtain ⟨hchannels, hframe, hsamples⟩ := opusDecoded_format opus chunk
  rw [LastsMs, LastsMs, hchannels, hframe, hsamples]

/-! ### The receive buffer and the device -/

/-- The duration of the chunk can be computed, and it is a millisecond or longer; or the client ends
before, because no decoder can be created for the chunk. -/
def Measurable (opus : OpusDecoder) (decoder : Bool) (chunk : PcmChunk) : Prop :=
  if chunk.codec = codecOpus then
    decoder = false ∧ opus.create chunk.samples chunk.channels < 0 ∨
      chunk.size ≠ 0 ∧ LastsMs chunk (decodedSize chunk (opusFrames opus chunk))
  else LastsMs chunk chunk.size.toNat

instance (opus : OpusDecoder) (decoder : Bool) (chunk : PcmChunk) :
    Decidable (Measurable opus decoder chunk) :=
  inferInstanceAs (Decidable (if chunk.codec = codecOpus then
    decoder = false ∧ opus.create chunk.samples chunk.channels < 0 ∨
      chunk.size ≠ 0 ∧ LastsMs chunk (decodedSize chunk (opusFrames opus chunk))
    else LastsMs chunk chunk.size.toNat))

/-- Without a receive buffer, the chunk is measured, and a buffer is made when it has a duration. -/
theorem ensureReceivebuffer_of_none (env : ClientEnv) {s : Client} (hnone : s.receivebuffer = none)
    (serverbufferms : UInt16) (chunk : PcmChunk) :
    ensureReceivebuffer env s serverbufferms chunk =
      (chunkDecode env.opus s.decoder chunk >>= fun decoded =>
        if decodedMs decoded = 0 then .error .divisionByZero
        else .ok ({ s with decoder := s.decoder || chunk.codec == codecOpus, bufferms := serverbufferms },
          decoded, .new (serverbufferms.toNat / decodedMs decoded + 1) (Nat.succ_pos _)
            (elements_le serverbufferms (decodedMs decoded)))) := by
  rw [ensureReceivebuffer, hnone]
  dsimp only
  rw [chunkGetdurationMs_eq]
  cases chunkDecode env.opus s.decoder chunk with
  | error fault => rfl
  | ok decoded =>
      change (reallocWhenRequired _ serverbufferms (decodedMs decoded) >>= _) = _
      rw [reallocWhenRequired_of_none rfl]
      change _ = if decodedMs decoded = 0 then _ else _
      split
      · rfl
      · rfl

/-- How measuring a decoded chunk ends. -/
theorem measure_harmless_iff {α : Type} (decoded : PcmChunk) (result : α) :
    (∀ fault, (if decodedMs decoded = 0 then .error .divisionByZero else .ok result) =
        (.error fault : Except Fault α) → ¬fault.HeaderValues) ↔
      LastsMs decoded decoded.size.toNat := by
  have hzero := decodedMs_eq_zero_iff decoded
  split
  · rename_i hshort
    exact ⟨fun hharmless => absurd trivial (hharmless _ rfl), fun hlong => absurd hlong (hzero.mp hshort)⟩
  · rename_i hlong
    refine ⟨fun _ => not_not.mp (mt hzero.mpr hlong), fun _ fault hfault => ?_⟩
    cases hfault

/-- Without a receive buffer, allocating one is harmless exactly when the chunk can be measured. -/
theorem ensureReceivebuffer_harmless_iff (env : ClientEnv) {s : Client}
    (hnone : s.receivebuffer = none) (serverbufferms : UInt16) (chunk : PcmChunk) :
    (∀ fault, ensureReceivebuffer env s serverbufferms chunk = .error fault → ¬fault.HeaderValues) ↔
      Measurable env.opus s.decoder chunk := by
  rw [ensureReceivebuffer_of_none env hnone, chunkDecode, Measurable]
  by_cases hopus : chunk.codec = codecOpus
  · rw [if_pos hopus, if_pos hopus, decodeOpusHandle_eq]
    by_cases hcreate : s.decoder = false ∧ env.opus.create chunk.samples chunk.channels < 0
    · rw [if_pos hcreate]
      refine ⟨fun _ => .inl hcreate, fun _ fault hfault => ?_⟩
      cases hfault
      exact exitError_harmless (by decide)
    · rw [if_neg hcreate, or_iff_right hcreate]
      by_cases hempty : chunk.channels = 0 ∨ chunk.frameSize = 0 ∨ chunk.size = 0
      · rw [if_pos hempty]
        refine ⟨fun hharmless => absurd rfl (hharmless _ rfl), fun hlong => ?_⟩
        obtain ⟨hsize, ⟨hchannels, hframe, -⟩, -⟩ := hlong
        exact absurd hempty (by simp [hsize, hchannels, hframe])
      · rw [if_neg hempty]
        have hsize : chunk.size ≠ 0 := fun hzero => hempty (.inr (.inr hzero))
        refine (measure_harmless_iff (opusDecoded env.opus chunk) _).trans ?_
        rw [lastsMs_opusDecoded, opusDecoded_size, and_iff_right hsize]
  · rw [if_neg hopus, if_neg hopus]
    exact measure_harmless_iff chunk _

/-- A call that fails, if it does, in another way. -/
def Harmless {α : Type} (call : Except Fault α) : Prop :=
  Meets (fun fault => ¬fault.HeaderValues) (fun _ => True) call

theorem dropHandle_harmless (pool : TaskPool ClientTask) (handle : Option Nat) :
    Harmless (pool.dropHandle handle) := by
  cases handle with
  | none => trivial
  | some id =>
      unfold TaskPool.dropHandle TaskPool.dropTask
      dsimp only
      split
      · trivial
      · split
        · trivial
        · exact fun habsurd => habsurd

theorem closeDevice_harmless (s : Client) (chunk : PcmChunk) : Harmless (closeDevice s chunk) := by
  unfold closeDevice
  split
  · have hremove : Harmless (alsaplayerRemoveTask s) :=
      (dropHandle_harmless s.tasks s.alsaplayer.closeTask).bind fun tasks _ => Meets.pure trivial
    refine hremove.bind fun s' _ => ?_
    unfold alsaplayerUninit
    split
    · exact (dropHandle_harmless _ _).bind fun tasks _ => Meets.pure trivial
    · exact Meets.pure trivial
  · exact Meets.pure trivial

theorem alsaplayerInit_harmless (env : ClientEnv) (clock : ClientClock) (s : Client) :
    Harmless (alsaplayerInit env clock s) := by
  unfold alsaplayerInit
  dsimp only
  split_ifs
  · trivial
  · exact exitError_harmless (by decide)
  · exact fun habsurd => habsurd
  · exact exitError_harmless (by decide)
  · trivial

/-- Opening the device does not divide, and decodes nothing. -/
theorem openDevice_harmless (env : ClientEnv) (clock : ClientClock) (s : Client) (chunk : PcmChunk) :
    Harmless (openDevice env clock s chunk) := by
  refine (closeDevice_harmless s chunk).bind fun s₁ _ => ?_
  split
  · trivial
  · refine (alsaplayerInit_harmless env clock (withFormat s₁ chunk)).bind fun s₂ _ => ?_
    unfold initAlsafd
    split
    · exact exitError_harmless (by decide)
    · trivial

theorem ofExcept_fault {σ : Type} {entered : σ} {call : Except Fault σ} {fault : Fault}
    (hfault : (Outcome.ofExcept entered call).fault = some fault) : call = .error fault := by
  cases call with
  | error other => exact congrArg Except.error (Option.some.inj hfault)
  | ok s => exact absurd hfault (Option.some_ne_none fault).symm

/-- `intercom_handle_audio` fails because of the header exactly when allocating the receive buffer
does. -/
theorem handleAudio_fault_iff (env : ClientEnv) (clock : ClientClock) (s : Client)
    (packet : Nat → UInt8) :
    (∀ fault ∈ (intercomHandleAudio env clock s packet).fault, ¬fault.HeaderValues) ↔
      ∀ fault, ensureReceivebuffer env (removeRequest s (packetHdr packet).nonce)
        (audioBufferms packet) (audioChunk packet) = .error fault → ¬fault.HeaderValues := by
  rcases handleAudio_cases env clock s packet with
    ⟨fault, hensure, hrun⟩ | ⟨s₁, chunk, buffer, hensure, ⟨-, hrun⟩ | ⟨-, hrun⟩⟩
  · rw [hrun, hensure]
    constructor
    · intro hharmless other hother
      cases hother
      exact hharmless fault rfl
    · intro hharmless other hother
      cases hother
      exact hharmless fault rfl
  · rw [hrun, hensure]
    refine ⟨fun _ fault hfault => (by cases hfault), fun _ fault hfault => ?_⟩
    exact (openDevice_harmless env clock _ chunk).of_error (ofExcept_fault hfault)
  · rw [hrun, hensure]
    refine ⟨fun _ fault hfault => (by cases hfault), fun _ fault hfault => ?_⟩
    exact absurd hfault (Option.not_mem_none fault)

/-- The first AUDIO packet of a stream, with half a millisecond of 16-bit stereo samples at 8000 Hz. -/
def shortAudioPacket : Nat → UInt8 :=
  (assembleAudio (fun _ => 0) 1000 1 ⟨100, 0, 8000, 2, 2, 16, codecPcm, List.replicate 16 0⟩).1.packet

end Snapcastc
