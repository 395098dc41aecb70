import Snapcastc.InputpipeAlignment
import Snapcastc.IntercomWire
import Snapcastc.StreamParseUri

/-! What becomes of the result of `opus_encode`: whether it is put into the chunk that it was made from, and
whether the packet that the chunk is sent in fits the link. -/

namespace Snapcastc

open Bytes

variable {n : Nat}

/-- A chunk that was read completely has the size that `inputpipe_init` has computed and allocated. -/
structure CompleteChunk (ctx : InputpipeCtx) : Prop where
  size : ctx.chunk.size = ctx.chunksize
  allocated : ctx.chunk.data.length = ctx.chunksize.toNat

/-- When `inputpipe_handle` returns more than zero, the chunk is complete. -/
theorem inputpipeHandle_complete {bufferms : UInt16} {clock : ServerClock} {stream : Fin (n + 1)}
    {input : Option (List UInt8)} {ctx ctx' : InputpipeCtx} {ret : Int}
    {tasks tasks' : TaskPool (ServerTask n)} (hallocated : ctx.chunk.data.length = ctx.chunksize.toNat)
    (hdataRead : ctx.dataRead ≤ ctx.chunksize.toNat) (hret : 0 < ret)
    (hrun : inputpipeHandle bufferms clock stream input ctx tasks = .ok (ret, ctx', tasks')) :
    CompleteChunk ctx' := by
  rcases inputpipeHandle_cases hrun with ⟨-, rfl, -⟩ | ⟨-, mid, hread, hfinish⟩
  · exact absurd hret (by decide)
  · have hbytes := readBytes_length_le bufferms clock input ctx
    have hlength : mid.chunk.data.length = mid.chunksize.toNat := by
      rw [hread.data, hread.chunksize, List.length_append, List.length_append, List.length_take,
        List.length_drop]
      omega
    have hcomplete : isChunkComplete mid = true := by
      by_contra hnot
      rw [finishChunk, if_neg hnot] at hfinish
      obtain ⟨rfl, -⟩ := Prod.mk.inj hfinish
      exact absurd hret (lt_irrefl 0)
    obtain ⟨hdata, hsize, -⟩ := @finishChunk_data clock mid hcomplete
    have hchunksize := (finishChunk_fields clock mid).2.1
    rw [hfinish] at hdata hsize hchunksize
    dsimp only at hdata hsize hchunksize
    exact ⟨by rw [hsize, hchunksize], by rw [hdata, hlength, hchunksize]⟩

/-! ### Encoding -/

/-- The result of `opus_encode` does no harm: a payload is in the chunk and within its allocation, and after
a failure the chunk is what it was and the main loop sends nothing for it. -/
structure EncodeHarmless (clock : ServerClock) (s : Server n) (i : Fin (n + 1)) (restarted : Bool)
    (encoded : Int × List UInt8) : Prop where
  payload : 0 ≤ encoded.1 → ∃ chunk, encodeOpusHandle encoded (s.pipe i).chunk = .ok chunk ∧
    (chunk.size.toNat : Int) = encoded.1 ∧ chunk.data.take chunk.size.toNat = encoded.2 ∧
      chunk.size.toNat ≤ (s.pipe i).chunksize.toNat
  failure : encoded.1 < 0 → encodeOpusHandle encoded (s.pipe i).chunk = .ok (s.pipe i).chunk ∧
    ∃ s', deliver clock encoded s i restarted = .ok s' ∧
      s'.sent = (if restarted then clientmgrStopClients s i else s).sent

/-- `encode_opus_handle` returns when the payload can be copied. -/
theorem encodeOpusHandle_ok_iff {encoded : Int × List UInt8} {chunk chunk' : PcmChunk} :
    encodeOpusHandle encoded chunk = .ok chunk' ↔
      (chunk.frameSize ≠ 0 ∧ chunk.channels ≠ 0) ∧ (0 ≤ encoded.1 ∧ encoded.1.toNat ≤ chunk.data.length) ∧
        chunk' = { chunk with
          size := UInt16.ofInt encoded.1
          data := encoded.2.take encoded.1.toNat ++ chunk.data.drop encoded.1.toNat
          codec := codecOpus } := by
  unfold encodeOpusHandle
  dsimp only
  constructor
  · intro hrun
    split_ifs at hrun with hformat hbounds
    rw [not_or] at hformat hbounds
    exact ⟨hformat, ⟨not_lt.mp hbounds.1, not_lt.mp hbounds.2⟩, (Except.ok.inj hrun).symm⟩
  · rintro ⟨hformat, hbounds, rfl⟩
    rw [if_neg (not_or.mpr hformat), if_neg (not_or.mpr ⟨not_lt.mpr hbounds.1, not_lt.mpr hbounds.2⟩)]
    rfl

theorem CompleteChunk.harmless_iff {clock : ServerClock} {s : Server n} {i : Fin (n + 1)}
    (hcomplete : CompleteChunk (s.pipe i)) (restarted : Bool) {encoded : Int × List UInt8}
    (hwritten : 0 ≤ encoded.1 → (encoded.2.length : Int) = encoded.1) :
    EncodeHarmless clock s i restarted encoded ↔
      ((s.pipe i).chunk.frameSize ≠ 0 ∧ (s.pipe i).chunk.channels ≠ 0) ∧
        0 ≤ encoded.1 ∧ encoded.1 ≤ (s.pipe i).chunksize.toNat := by
  have hallocated := hcomplete.allocated
  constructor
  · rintro ⟨hpayload, hfailure⟩
    rcases lt_or_ge encoded.1 0 with hneg | hpos
    · -- the copy of a negative number of bytes does not return
      obtain ⟨-, hbounds, -⟩ := encodeOpusHandle_ok_iff.mp (hfailure hneg).1
      omega
    · obtain ⟨chunk, hrun, -⟩ := hpayload hpos
      obtain ⟨hformat, hbounds, -⟩ := encodeOpusHandle_ok_iff.mp hrun
      exact ⟨hformat, hpos, by omega⟩
  · rintro ⟨hformat, hpos, hfits⟩
    refine ⟨fun _ => ?_, fun hneg => absurd hpos (not_le.mpr hneg)⟩
    have hlt := (s.pipe i).chunksize.toNat_lt
    have hsize := uint16_ofInt_toNat encoded.1
    rw [Int.emod_eq_of_lt hpos (by omega)] at hsize
    refine ⟨_, encodeOpusHandle_ok_iff.mpr ⟨hformat, ⟨hpos, by omega⟩, rfl⟩, hsize, ?_, ?_⟩
    · have hlength : encoded.2.length = (UInt16.ofInt encoded.1).toNat := by
        have := hwritten hpos
        omega
      have hwhole : encoded.2.take encoded.1.toNat = encoded.2 := List.take_of_length_le (by omega)
      change ((encoded.2.take encoded.1.toNat ++ _).take (UInt16.ofInt encoded.1).toNat) = encoded.2
      rw [hwhole, ← hlength, List.take_left]
    · change (UInt16.ofInt encoded.1).toNat ≤ _
      omega

/-- A pipe whose chunk `inputpipe_init` has allocated, after a call of `inputpipe_handle` has reported it. -/
def Reported (ctx' : InputpipeCtx) : Prop :=
  ∃ (n : Nat) (bufferms : UInt16) (clock : ServerClock) (stream : Fin (n + 1)) (input : Option (List UInt8))
    (ctx : InputpipeCtx) (ret : Int) (tasks tasks' : TaskPool (ServerTask n)),
    ctx.chunk.data.length = ctx.chunksize.toNat ∧ ctx.dataRead ≤ ctx.chunksize.toNat ∧ 0 < ret ∧
      inputpipeHandle bufferms clock stream input ctx tasks = .ok (ret, ctx', tasks')

theorem Reported.complete {ctx : InputpipeCtx} (hreported : Reported ctx) : CompleteChunk ctx := by
  obtain ⟨n, bufferms, clock, stream, input, before, ret, tasks, tasks', hallocated, hread, hret, hrun⟩ :=
    hreported
  exact inputpipeHandle_complete hallocated hread hret hrun

/-- Encoding does no harm exactly when it succeeds with no more bytes than the chunk has room for, on a chunk
that has frames. The chunk is one that is complete, as those are that `inputpipe_handle` reports. -/
theorem encodeHarmless_iff {clock : ServerClock} {s : Server n} {i : Fin (n + 1)} (restarted : Bool)
    {encoded : Int × List UInt8} (hcomplete : CompleteChunk (s.pipe i) ∨ Reported (s.pipe i))
    (hwritten : 0 ≤ encoded.1 → (encoded.2.length : Int) = encoded.1) :
    EncodeHarmless clock s i restarted encoded ↔
      ((s.pipe i).chunk.frameSize ≠ 0 ∧ (s.pipe i).chunk.channels ≠ 0) ∧
        0 ≤ encoded.1 ∧ encoded.1 ≤ (s.pipe i).chunksize.toNat :=
  (hcomplete.elim id Reported.complete).harmless_iff restarted hwritten

/-- A server with one stream of 8 kHz, whose chunk of 20 milliseconds with 16-bit samples is complete. -/
def narrowServer : Server 0 :=
  (freshServer 1000 fun _ => ⟨[], 20, 8000, 2, 1⟩).setPipe 0
    ⟨⟨1000, 0, 8000, 2, 1, 320, codecPcm, List.replicate 320 7⟩, .playing, 0, 20, 8000, 2, 1, 4, 320, true,
      none, none⟩

theorem narrowServer_complete : CompleteChunk (narrowServer.pipe 0) := ⟨rfl, List.length_replicate⟩

theorem encodeHarmless_narrow :
    EncodeHarmless ⟨⟨1000, 0⟩, ⟨1000, 0⟩⟩ narrowServer 0 false (240, List.replicate 240 9) :=
  (encodeHarmless_iff false (.inl narrowServer_complete) fun _ => congrArg Nat.cast List.length_replicate).mpr
    (by decide)

/-- A failure is not harmless: it ends in a copy of a negative number of bytes. -/
theorem encodeHarmless_failed :
    ¬∀ (clock : ServerClock) (s : Server 0) (i : Fin 1) (restarted : Bool) (encoded : Int × List UInt8),
      CompleteChunk (s.pipe i) → (0 ≤ encoded.1 → (encoded.2.length : Int) = encoded.1) →
        encoded.1 < 0 ∨ 1 ≤ encoded.1 ∧ encoded.1 ≤ opusMss → EncodeHarmless clock s i restarted encoded := by
  intro hall
  have hharmless := hall ⟨⟨1000, 0⟩, ⟨1000, 0⟩⟩ narrowServer 0 false (-4, []) narrowServer_complete
    (fun hpos => absurd hpos (by decide)) (by decide)
  have hbounds := (encodeOpusHandle_ok_iff.mp (hharmless.failure (by decide)).1).2.1
  exact absurd hbounds.1 (by decide)

/-! ### The size of the packets -/

/-- `stream_parse` creates the encoder for payloads of this size. -/
theorem streamParse_mss {opus : OpusEncoder} {mtu : Int} {s parsed : ParsedStream} {raw : List UInt8}
    (hrun : streamParse opus mtu s raw = .ok (true, parsed)) :
    parsed.opuscodecCtx.mss =
      longToInt (mtu - ipoverheadBytes - sizeofHdr - chunkHeaderSize - udpoverheadBytes) := by
  rw [streamParse_eq] at hrun
  split_ifs at hrun
  · cases hrun
  · split at hrun
    · cases hrun
    · obtain ⟨⟨accepted, s'⟩, -, hrun⟩ := except_bind_ok hrun
      unfold initParsed at hrun
      dsimp only at hrun
      split_ifs at hrun
      · obtain ⟨ctx, hinit, hrun⟩ := except_bind_ok hrun
        cases hrun
        unfold opusInitEncoder at hinit
        split_ifs at hinit
        cases hinit
        rfl
      · cases hrun

/-- The datagram of an encoded chunk fits the link, with the headers of IPv6 and UDP, exactly when the payload
is two bytes smaller than what the encoder is allowed: `stream_parse` does not count `bufferms`. -/
theorem datagram_fits_iff {opus : OpusEncoder} {mtu : Int} {s parsed : ParsedStream} {raw : List UInt8}
    (hmtu : 73 ≤ mtu ∧ mtu < 2 ^ 31) (hparse : streamParse opus mtu s raw = .ok (true, parsed))
    (packet : Nat → UInt8) (bufferms : UInt16) (nonce : UInt32) {chunk : PcmChunk}
    (hdata : chunk.size.toNat ≤ chunk.data.length) :
    let assembly := (assembleAudio packet bufferms nonce chunk).1
    ((load assembly.packet 0 assembly.packetLen).length : Int) + 8 + 40 ≤ mtu ↔
      (chunk.size.toNat : Int) ≤ parsed.opuscodecCtx.mss - 2 := by
  intro assembly
  have hmss := streamParse_mss hparse
  have hnarrow :
      longToInt (mtu - ipoverheadBytes - sizeofHdr - chunkHeaderSize - udpoverheadBytes) = mtu - 73 := by
    unfold ipoverheadBytes sizeofHdr chunkHeaderSize udpoverheadBytes
    rw [longToInt_of_lt (by omega) (by omega)]
    omega
  have hassembled := assembleAudio_assembled packet bufferms nonce chunk
  have hlength : (load assembly.packet 0 assembly.packetLen).length = 27 + chunk.size.toNat := by
    rw [hassembled.load_eq, audioBytes_length, Nat.min_eq_left hdata]
  rw [hlength, hmss, hnarrow]
  omega

def defaultUri : List UInt8 := streamUri pathSnapfifo (fourOptions 20 .opus textDefault 48000 16 2)

/-- An encoded chunk with a payload of so many bytes. -/
def encodedChunk (size : UInt16) : PcmChunk :=
  ⟨1000, 0, 48000, 2, 2, size, codecOpus, List.replicate size.toNat 0⟩

theorem datagram_fits_small :
    ((load (assembleAudio (fun _ => 0) 1000 0 (encodedChunk 240)).1.packet 0
      (assembleAudio (fun _ => 0) 1000 0 (encodedChunk 240)).1.packetLen).length : Int) + 8 + 40 ≤ 1500 := by
  obtain ⟨⟨accepted, parsed⟩, hparse, hview⟩ := except_map_ok (show (streamParse anyEncoder 1500 emptyStream
    defaultUri).map (fun result => (result.1, result.2.opuscodecCtx.mss)) = .ok (true, 1427) by decide +kernel)
  obtain ⟨rfl, hmss⟩ := Prod.mk.inj hview
  refine (datagram_fits_iff (by decide) hparse (fun _ => 0) 1000 0 List.length_replicate.ge).mpr ?_
  rw [hmss]
  decide

/-- With a payload of the size that the encoder is allowed, the datagram is 1502 bytes long. -/
theorem datagram_fits_not :
    ¬∀ (opus : OpusEncoder) (mtu : Int) (s parsed : ParsedStream) (raw : List UInt8) (packet : Nat → UInt8)
      (bufferms : UInt16) (nonce : UInt32) (chunk : PcmChunk), 73 ≤ mtu ∧ mtu < 2 ^ 31 →
      streamParse opus mtu s raw = .ok (true, parsed) → chunk.size.toNat ≤ chunk.data.length →
      (chunk.size.toNat : Int) ≤ parsed.opuscodecCtx.mss →
        ((load (assembleAudio packet bufferms nonce chunk).1.packet 0
          (assembleAudio packet bufferms nonce chunk).1.packetLen).length : Int) + 8 + 40 ≤ mtu := by
  intro hall
  obtain ⟨⟨accepted, parsed⟩, hparse, hview⟩ := except_map_ok (show (streamParse anyEncoder 1500 emptyStream
    defaultUri).map (fun result => (result.1, result.2.opuscodecCtx.mss)) = .ok (true, 1427) by decide +kernel)
  obtain ⟨rfl, hmss⟩ := Prod.mk.inj hview
  have hdata : (encodedChunk 1427).size.toNat ≤ (encodedChunk 1427).data.length :=
    List.length_replicate.ge
  have hfits := hall anyEncoder 1500 emptyStream parsed defaultUri (fun _ => 0) 1000 0 (encodedChunk 1427)
    (by decide) hparse hdata (by rw [hmss]; decide)
  rw [(assembleAudio_assembled _ _ _ _).load_eq, audioBytes_length, Nat.min_eq_left hdata] at hfits
  exact absurd hfits (by decide)

end Snapcastc
