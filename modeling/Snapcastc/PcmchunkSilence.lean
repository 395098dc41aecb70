import Snapcastc.Pcmchunk

/-! Silence (`get_emptychunk`). The number of bytes is computed in 32 bits and stored in 16; what is lost
there makes the chunk shorter, never longer. -/

namespace Snapcastc

/-- The bytes of a millisecond, at a rate that is a multiple of 1000. -/
def bytesPerMs (chunk : PcmChunk) : Nat :=
  chunk.samples.toNat / 1000 * chunk.channels.toNat * chunk.frameSize.toNat

variable (p : PcmChunk) (lengthMs : UInt32)

/-- The size `get_emptychunk` computes. -/
theorem getEmptychunk_size :
    (getEmptychunk p lengthMs).size.toNat =
      lengthMs.toNat * p.samples.toNat * p.channels.toNat * p.frameSize.toNat % 2 ^ 32 / 1000 % 2 ^ 16 := by
  have hthousand : (1000 : UInt32).toNat = 1000 := rfl
  simp only [getEmptychunk, UInt32.toNat_toUInt16, UInt32.toNat_div, UInt32.toNat_mul,
    UInt8.toNat_toUInt32, hthousand, Nat.mod_mul_mod, Nat.mul_comm p.samples.toNat]

@[simp] theorem getEmptychunk_data :
    (getEmptychunk p lengthMs).data = List.replicate (getEmptychunk p lengthMs).size.toNat 0 := rfl

@[simp] theorem getEmptychunk_playAt :
    chunkGetPlayAt (some (getEmptychunk p lengthMs)) = ⟨0, 0⟩ := rfl

/-- Silence is never longer than what was asked for. -/
theorem getEmptychunk_size_le :
    (getEmptychunk p lengthMs).size.toNat * 1000 ≤
      lengthMs.toNat * p.samples.toNat * p.channels.toNat * p.frameSize.toNat := by
  rw [getEmptychunk_size]
  generalize lengthMs.toNat * p.samples.toNat * p.channels.toNat * p.frameSize.toNat = bytes
  omega

def playingNs (chunk : PcmChunk) : ℚ :=
  chunk.size.toNat * 10 ^ 9 / (chunk.channels.toNat * chunk.frameSize.toNat * chunk.samples.toNat)

theorem playingNs_getEmptychunk_le : playingNs (getEmptychunk p lengthMs) ≤ lengthMs.toNat * 10 ^ 6 := by
  have hsize := getEmptychunk_size_le p lengthMs
  change ((getEmptychunk p lengthMs).size.toNat * 10 ^ 9 : ℚ) /
    (p.channels.toNat * p.frameSize.toNat * p.samples.toNat) ≤ _
  refine div_le_of_le_mul₀ (by positivity) (by positivity) ?_
  have hcast : ((getEmptychunk p lengthMs).size.toNat : ℚ) * 1000 ≤
      lengthMs.toNat * p.samples.toNat * p.channels.toNat * p.frameSize.toNat := by
    exact_mod_cast hsize
  calc ((getEmptychunk p lengthMs).size.toNat * 10 ^ 9 : ℚ)
      = (getEmptychunk p lengthMs).size.toNat * 1000 * 10 ^ 6 := by ring
    _ ≤ lengthMs.toNat * p.samples.toNat * p.channels.toNat * p.frameSize.toNat * 10 ^ 6 :=
        mul_le_mul_of_nonneg_right hcast (by positivity)
    _ = lengthMs.toNat * 10 ^ 6 * (p.channels.toNat * p.frameSize.toNat * p.samples.toNat) := by ring

/-- What is stored of a number of whole bytes that was multiplied by 1000. -/
theorem stored_eq {bytes : Nat} (hfits : bytes < 2 ^ 16) : 1000 * bytes % 2 ^ 32 / 1000 % 2 ^ 16 = bytes := by
  rw [Nat.mod_eq_of_lt (by omega : 1000 * bytes < 2 ^ 32), Nat.mul_div_cancel_left bytes (by decide),
    Nat.mod_eq_of_lt hfits]

variable {p lengthMs}

/-- At a rate that is a multiple of 1000 the size is the whole number of bytes as long as it fits. -/
theorem getEmptychunk_size_of_dvd (hrate : 1000 ∣ p.samples.toNat) :
    (getEmptychunk p lengthMs).size.toNat =
      1000 * (lengthMs.toNat * bytesPerMs p) % 2 ^ 32 / 1000 % 2 ^ 16 := by
  obtain ⟨k, hk⟩ := hrate
  rw [getEmptychunk_size, bytesPerMs, hk, Nat.mul_div_cancel_left k (by decide)]
  ring_nf

/-- `chunk_getduration_ms` on silence: it is not decoded, and the divisions cut off what is left of a
millisecond. -/
theorem getEmptychunk_duration (opus : OpusDecoder) (decoder : Bool) (hrate : 1000 ∣ p.samples.toNat)
    (hsamples : p.samples ≠ 0) (hchannels : p.channels ≠ 0) (hframeSize : p.frameSize ≠ 0) :
    chunkGetdurationMs opus decoder (getEmptychunk p lengthMs) =
      .ok (getEmptychunk p lengthMs, (getEmptychunk p lengthMs).size.toNat / bytesPerMs p) := by
  obtain ⟨k, hk⟩ := hrate
  have hdecode : chunkDecode opus decoder (getEmptychunk p lengthMs) = .ok (getEmptychunk p lengthMs) :=
    if_neg (show ¬codecPcm = codecOpus by decide)
  rw [chunkGetdurationMs, hdecode, except_ok_bind]
  change Except.ok (_, if p.channels ≠ 0 ∧ p.frameSize ≠ 0 ∧ p.samples ≠ 0 then
    1000 * _ / p.channels.toNat / p.frameSize.toNat / p.samples.toNat else 0) = _
  rw [if_pos ⟨hchannels, hframeSize, hsamples⟩, Nat.div_div_eq_div_mul, Nat.div_div_eq_div_mul, bytesPerMs,
    hk, Nat.mul_div_cancel_left k (by decide)]
  have hbytes : p.channels.toNat * (p.frameSize.toNat * (1000 * k)) =
      1000 * (k * p.channels.toNat * p.frameSize.toNat) := by ring
  rw [hbytes, Nat.mul_div_mul_left _ _ (by decide)]

theorem toNat_pos_of_ne_zero {n : UInt8} (hn : n ≠ 0) : 0 < n.toNat := by
  refine Nat.pos_of_ne_zero fun hzero => hn ?_
  rw [← UInt8.toNat_inj, hzero]
  rfl

theorem bytesPerMs_pos (hrate : 1000 ∣ p.samples.toNat) (hsamples : p.samples ≠ 0) (hchannels : p.channels ≠ 0)
    (hframeSize : p.frameSize ≠ 0) : 0 < bytesPerMs p := by
  have hpos : 0 < p.samples.toNat := by
    refine Nat.pos_of_ne_zero fun hzero => hsamples ?_
    rw [← UInt32.toNat_inj, hzero]
    rfl
  have hquotient : 0 < p.samples.toNat / 1000 := Nat.div_pos (Nat.le_of_dvd hpos hrate) (by decide)
  exact Nat.mul_pos (Nat.mul_pos hquotient (toNat_pos_of_ne_zero hchannels)) (toNat_pos_of_ne_zero hframeSize)

/-- Silence has the requested length when its bytes fit in the 16 bits of the size, and only then. All its
bytes are zero in any case. -/
theorem silence_requested_iff (opus : OpusDecoder) (decoder : Bool) (hrate : 1000 ∣ p.samples.toNat)
    (hsamples : p.samples ≠ 0) (hchannels : p.channels ≠ 0) (hframeSize : p.frameSize ≠ 0) :
    (chunkGetdurationMs opus decoder (getEmptychunk p lengthMs) =
        .ok (getEmptychunk p lengthMs, lengthMs.toNat) ∧
      (getEmptychunk p lengthMs).data = List.replicate (getEmptychunk p lengthMs).size.toNat 0) ↔
    lengthMs.toNat * bytesPerMs p < 2 ^ 16 := by
  have hpos := bytesPerMs_pos hrate hsamples hchannels hframeSize
  rw [getEmptychunk_duration opus decoder hrate hsamples hchannels hframeSize]
  constructor
  · rintro ⟨hms, -⟩
    have hquotient : (getEmptychunk p lengthMs).size.toNat / bytesPerMs p = lengthMs.toNat :=
      congrArg Prod.snd (Except.ok.inj hms)
    calc lengthMs.toNat * bytesPerMs p
        = (getEmptychunk p lengthMs).size.toNat / bytesPerMs p * bytesPerMs p := by rw [hquotient]
      _ ≤ (getEmptychunk p lengthMs).size.toNat := Nat.div_mul_le_self _ _
      _ < 2 ^ 16 := (getEmptychunk p lengthMs).size.toNat_lt
  · intro hfits
    refine ⟨?_, getEmptychunk_data p lengthMs⟩
    rw [getEmptychunk_size_of_dvd hrate, stored_eq hfits, Nat.mul_div_cancel _ hpos]

/-- Audio at 48 kHz with two channels of 16 bits. -/
def stereoFormat : PcmChunk := ⟨0, 0, 48000, 2, 2, 0, 0, []⟩

/-- 341 milliseconds of it are 65472 bytes. -/
theorem silence_requested_stereo :
    chunkGetdurationMs ⟨fun _ _ => 0, fun _ _ => (0, [])⟩ true (getEmptychunk stereoFormat 341) =
      .ok (getEmptychunk stereoFormat 341, (341 : UInt32).toNat) :=
  ((@silence_requested_iff stereoFormat 341 ⟨fun _ _ => 0, fun _ _ => (0, [])⟩ true (by decide) (by decide)
    (by decide) (by decide)).mpr (by decide)).1

/-- 350 milliseconds of it are 67200 bytes, of which 1664 are left: 8 milliseconds. -/
theorem silence_short :
    ¬∀ (opus : OpusDecoder) (p : PcmChunk) (lengthMs : UInt32), 1000 ∣ p.samples.toNat → p.samples ≠ 0 →
      p.channels ≠ 0 → 1 ≤ p.frameSize ∧ p.frameSize ≤ 4 → lengthMs ≤ 999 →
        chunkGetdurationMs opus true (getEmptychunk p lengthMs) =
          .ok (getEmptychunk p lengthMs, lengthMs.toNat) := by
  intro hall
  have hms := hall ⟨fun _ _ => 0, fun _ _ => (0, [])⟩ stereoFormat 350 (by decide) (by decide) (by decide)
    (by decide) (by decide)
  rw [getEmptychunk_duration _ true (by decide) (by decide) (by decide) (by decide)] at hms
  exact absurd (congrArg Prod.snd (Except.ok.inj hms)) (by decide)

end Snapcastc
