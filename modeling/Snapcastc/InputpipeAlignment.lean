import Snapcastc.InputpipeRun

/-! Where the chunks of an input pipe lie in the bytes that were read. A chunk is filled by reads of any
length; when the pipe is set idle, what the chunk has so far is thrown away, wherever that ends. -/

namespace Snapcastc

variable {n : Nat}

/-- What holds of the bytes that were read from an open pipe. The chunk that is being filled begins with the
bytes that were read last; the chunks that were completed lie before it, apart from what was thrown away. -/
structure SegmentInv (log : PipeLog) : Prop where
  dataRead_le : log.ctx.dataRead ≤ log.ctx.chunk.data.length
  length_le : log.ctx.chunk.data.length ≤ log.ctx.chunksize.toNat
  filled : log.ctx.chunk.data.take log.ctx.dataRead =
    log.bytes.drop (log.dropped + log.ctx.chunksize.toNat * log.chunks.length)
  segment : ∀ c ∈ log.chunks, c.start + log.ctx.chunksize.toNat ≤
      log.dropped + log.ctx.chunksize.toNat * log.chunks.length ∧
    c.chunk.data = (log.bytes.drop c.start).take log.ctx.chunksize.toNat ∧
      c.chunk.size = log.ctx.chunksize
  length : log.bytes.length = log.dropped + log.ctx.chunksize.toNat * log.chunks.length + log.ctx.dataRead
  starts : ∀ k c, log.chunks[k]? = some c → c.start = c.dropped + log.ctx.chunksize.toNat * k
  ordered : log.chunks.Pairwise fun a b => a.start + log.ctx.chunksize.toNat ≤ b.start

theorem readBytes_length_le (bufferms : UInt16) (clock : ServerClock) (input : Option (List UInt8))
    (ctx : InputpipeCtx) : (readBytes bufferms clock input ctx).length ≤ ctx.chunksize.toNat - ctx.dataRead := by
  unfold readBytes
  split_ifs
  · exact Nat.zero_le _
  · cases input with
    | none => exact Nat.zero_le _
    | some input => exact List.length_take_le _ _

theorem encodeCompleted_length_le {encoded : Option (Int × List UInt8)} {chunk chunk' : PcmChunk}
    (hrun : encodeCompleted encoded chunk = .ok chunk') : chunk'.data.length ≤ chunk.data.length := by
  cases encoded with
  | none =>
      cases hrun
      exact le_rfl
  | some encoded =>
      unfold encodeCompleted encodeOpusHandle at hrun
      dsimp only at hrun
      split_ifs at hrun with hformat hbounds
      cases hrun
      rw [List.length_append, List.length_take, List.length_drop]
      omega

/-- Bytes that are read later do not change a segment that was read. -/
theorem segment_append {bytes more : List UInt8} {start size : Nat} (hle : start + size ≤ bytes.length) :
    ((bytes ++ more).drop start).take size = (bytes.drop start).take size := by
  rw [List.drop_append_of_le_length (by omega), List.take_append_of_le_length]
  rw [List.length_drop]
  omega

/-- Nothing has happened since the pipe was opened or closed. -/
theorem SegmentInv.of_new {ctx : InputpipeCtx} (hread : ctx.dataRead = 0)
    (hlength : ctx.chunk.data.length ≤ ctx.chunksize.toNat) : SegmentInv ⟨ctx, [], 0, 0, none, []⟩ where
  dataRead_le := by
    rw [hread]
    exact Nat.zero_le _
  length_le := hlength
  filled := by
    rw [hread]
    rfl
  segment := fun _ hc => absurd hc List.not_mem_nil
  length := by
    rw [hread]
    rfl
  starts := fun _ _ hc => by cases hc
  ordered := .nil

/-- What a call has read is behind what the chunk had before. -/
structure Filled (log : PipeLog) (clock : ServerClock) (bytes : List UInt8) (mid : InputpipeCtx) : Prop where
  dataRead_le : mid.dataRead ≤ mid.chunk.data.length
  length_le : mid.chunk.data.length ≤ mid.chunksize.toNat
  filled : mid.chunk.data.take mid.dataRead =
    (log.bytes ++ bytes).drop (log.dropped + mid.chunksize.toNat * log.chunks.length)
  length : (log.bytes ++ bytes).length =
    log.dropped + mid.chunksize.toNat * log.chunks.length + mid.dataRead

theorem SegmentInv.read {bufferms : UInt16} {log : PipeLog} {clock : ServerClock}
    {input : Option (List UInt8)} {mid : InputpipeCtx} (hinv : SegmentInv log)
    (hread : ReadCtx clock (readBytes bufferms clock input log.ctx) log.ctx mid) :
    Filled log clock (readBytes bufferms clock input log.ctx) mid := by
  have hbytes := readBytes_length_le bufferms clock input log.ctx
  have hle := hinv.dataRead_le
  have hle' := hinv.length_le
  have hlength := hinv.length
  generalize readBytes bufferms clock input log.ctx = bytes at hread hbytes ⊢
  have hdata : mid.chunk.data.length = max log.ctx.chunk.data.length (log.ctx.dataRead + bytes.length) := by
    rw [hread.data, List.length_append, List.length_append, List.length_take, List.length_drop]
    omega
  have hfilled := hinv.filled
  rw [← hread.chunksize] at hbytes hle' hlength hfilled
  refine ⟨?_, ?_, ?_, ?_⟩
  · rw [hdata, hread.dataRead]
    exact le_max_right _ _
  · omega
  · have hbefore : (log.ctx.chunk.data.take log.ctx.dataRead).length = log.ctx.dataRead :=
      List.length_take_of_le hle
    rw [hread.data, hread.dataRead, List.append_assoc, List.drop_append_of_le_length (by omega), ← hfilled,
      List.take_append, hbefore, Nat.add_sub_cancel_left, List.take_of_length_le (by rw [hbefore]; omega),
      List.take_append_of_le_length le_rfl, List.take_length]
  · rw [List.length_append, hlength, hread.dataRead]
    omega

/-- A chunk that is complete consists of the bytes that were read last. -/
theorem Filled.segment {log : PipeLog} {clock : ServerClock} {bytes : List UInt8} {mid : InputpipeCtx}
    (hfilled : Filled log clock bytes mid) (hcomplete : isChunkComplete mid = true) :
    (log.bytes ++ bytes).length - mid.chunksize.toNat =
        log.dropped + mid.chunksize.toNat * log.chunks.length ∧
      mid.chunk.data = ((log.bytes ++ bytes).drop (log.dropped +
        mid.chunksize.toNat * log.chunks.length)).take mid.chunksize.toNat := by
  have hread : mid.chunksize.toNat = mid.dataRead := eq_of_beq hcomplete
  have hlength := hfilled.length
  have hle := hfilled.dataRead_le
  have hle' := hfilled.length_le
  have hwhole : mid.chunk.data.take mid.dataRead = mid.chunk.data := List.take_of_length_le (by omega)
  refine ⟨by omega, ?_⟩
  rw [← hfilled.filled, hwhole]
  exact (List.take_of_length_le hle').symm

theorem finishChunk_data {clock : ServerClock} {mid : InputpipeCtx} (hcomplete : isChunkComplete mid = true) :
    (finishChunk clock mid).2.chunk.data = mid.chunk.data ∧
      (finishChunk clock mid).2.chunk.size = mid.chunksize ∧ (finishChunk clock mid).2.dataRead = 0 := by
  have hread : mid.chunksize.toNat = mid.dataRead := eq_of_beq hcomplete
  have hsize : UInt16.ofNat mid.dataRead = mid.chunksize := by
    rw [← hread, UInt16.ofNat_toNat]
  rw [finishChunk, if_pos hcomplete]
  dsimp only
  rw [hsize]
  exact ⟨rfl, rfl, rfl⟩

theorem SegmentInv.step {bufferms : UInt16} (log : PipeLog) (event : PipeEvent n) (log' : PipeLog)
    (hinv : SegmentInv log) (hstep : PipeStep bufferms log event log') : SegmentInv log' := by
  cases hstep with
  | same => exact hinv
  | opened opened ctx hinit =>
      obtain ⟨-, -, -, hlength, hread⟩ := inputpipeInit_ctx hinit
      exact .of_new hread hlength.le
  | closed tasks idleTask => exact .of_new rfl (Nat.zero_le _)
  | read clock input encoded tasks mid hopen hroom hread hcomplete =>
      have hfilled := hinv.read hread
      have hsize := hread.chunksize
      have hlength := hinv.length
      refine ⟨hfilled.dataRead_le, hfilled.length_le, hfilled.filled, fun c hc => ?_, hfilled.length, ?_, ?_⟩
      · obtain ⟨hbefore, hdata, hchunk⟩ := hinv.segment c hc
        dsimp only
        rw [hsize]
        refine ⟨hbefore, ?_, hchunk⟩
        exact hdata.trans (segment_append (by omega)).symm
      · dsimp only
        rw [hsize]
        exact hinv.starts
      · dsimp only
        rw [hsize]
        exact hinv.ordered
  | completed clock input encoded tasks mid chunk hopen hroom hread hcomplete hencode =>
      have hfilled := hinv.read hread
      obtain ⟨hstart, hdata⟩ := hfilled.segment hcomplete
      obtain ⟨hdata', hsize', hread'⟩ := @finishChunk_data clock _ hcomplete
      have hfull : mid.chunksize.toNat = mid.dataRead := eq_of_beq hcomplete
      have hencoded := encodeCompleted_length_le hencode
      rw [hdata'] at hencoded
      have hsize := (finishChunk_fields clock mid).2.1
      have hlength := hfilled.length
      have hbefore := hinv.segment
      have hold := hinv.length
      have hcount : ∀ c : Completed, mid.chunksize.toNat * (log.chunks ++ [c]).length =
          mid.chunksize.toNat * log.chunks.length + mid.chunksize.toNat := fun c => by
        rw [List.length_append, List.length_singleton, Nat.mul_succ]
      rw [← hread.chunksize] at hbefore hold
      refine ⟨?_, ?_, ?_, fun c hc => ?_, ?_, fun k c hc => ?_, ?_⟩
      · dsimp only
        rw [hread']
        exact Nat.zero_le _
      · dsimp only
        rw [hsize]
        exact hencoded.trans hfilled.length_le
      · dsimp only [PipeLog.complete, PipeLog.read]
        rw [hread', List.take_zero, hsize, hcount]
        refine (List.drop_of_length_le ?_).symm
        omega
      · dsimp only [PipeLog.complete, PipeLog.read] at hc ⊢
        rw [hsize] at hc ⊢
        rw [hcount]
        rcases List.mem_append.mp hc with hc | hc
        · obtain ⟨hle, hsegment, hchunk⟩ := hbefore c hc
          refine ⟨by omega, ?_, hchunk⟩
          exact hsegment.trans (segment_append (by omega)).symm
        · rw [List.mem_singleton.mp hc]
          dsimp only
          rw [hstart, hdata']
          exact ⟨by omega, hdata, hsize'⟩
      · dsimp only [PipeLog.complete, PipeLog.read]
        rw [hread', hsize, hcount, hlength]
        omega
      · dsimp only [PipeLog.complete, PipeLog.read] at hc ⊢
        rw [hsize] at hc ⊢
        rcases Nat.lt_or_ge k log.chunks.length with hlt | hge
        · rw [List.getElem?_append_left hlt] at hc
          have hstarts := hinv.starts k c hc
          rw [← hread.chunksize] at hstarts
          exact hstarts
        · obtain ⟨hlt, hget⟩ := List.getElem?_eq_some_iff.mp hc
          rw [List.length_append, List.length_singleton] at hlt
          obtain rfl : k = log.chunks.length := by omega
          rw [← hget, List.getElem_concat_length rfl]
          exact hstart
      · dsimp only [PipeLog.complete, PipeLog.read]
        rw [hsize]
        have hordered := hinv.ordered
        rw [← hread.chunksize] at hordered
        refine List.pairwise_append.mpr ⟨hordered, List.pairwise_singleton _ _, fun a ha b hb => ?_⟩
        rw [List.mem_singleton.mp hb]
        dsimp only
        rw [hstart]
        exact (hbefore a ha).1
  | idle tasks idleTask =>
      have hlength := hinv.length
      refine ⟨Nat.zero_le _, hinv.length_le, ?_, fun c hc => ?_, ?_, hinv.starts, hinv.ordered⟩
      · refine (List.drop_of_length_le ?_).symm
        dsimp only
        omega
      · obtain ⟨hbefore, hsegment⟩ := hinv.segment c hc
        refine ⟨?_, hsegment⟩
        dsimp only
        omega
      · dsimp only
        omega
  | marked state resumeTask =>
      exact ⟨hinv.dataRead_le, hinv.length_le, hinv.filled, hinv.segment, hinv.length, hinv.starts,
        hinv.ordered⟩

/-! ### Runs -/

theorem SegmentInv.run {bufferms : UInt16} {stream : Fin (n + 1)} {options : StreamOptions}
    {events : List (PipeEvent n)} {log : PipeLog}
    (hrun : pipeRun bufferms stream (freshPipe options) events = .ok log) : SegmentInv log :=
  @pipeRun_inv n bufferms stream SegmentInv (fun _ => True)
    (fun log event log' _ => SegmentInv.step log event log') (freshPipe options) log events
    (fun _ _ => trivial) (.of_new rfl (Nat.zero_le _)) hrun

/-- A chunk consists of consecutive bytes of those that were read, from a place that is a multiple of the
size of a frame. -/
structure AlignedChunk (log : PipeLog) (c : Completed) : Prop where
  inside : c.start + log.ctx.chunksize.toNat ≤ log.bytes.length
  data : c.chunk.data = (log.bytes.drop c.start).take log.ctx.chunksize.toNat
  size : c.chunk.size = log.ctx.chunksize
  aligned : log.ctx.channels * log.ctx.samplesize ∣ (c.start : Int)

/-- The chunks that were completed since the pipe was opened are aligned and do not overlap. -/
structure Aligned (log : PipeLog) : Prop where
  chunks : ∀ c ∈ log.chunks, AlignedChunk log c
  ordered : log.chunks.Pairwise fun a b => a.start + log.ctx.chunksize.toNat ≤ b.start

/-- Chunks are cut out of what is read at frame boundaries if and only if, whenever a chunk is completed, whole
frames have been thrown away so far. -/
theorem aligned_iff (bufferms : UInt16) (stream : Fin (n + 1)) (options : StreamOptions)
    (events : List (PipeEvent n)) (log : PipeLog)
    (hrun : pipeRun bufferms stream (freshPipe options) events = .ok log)
    (hframes : log.ctx.channels * log.ctx.samplesize ∣ (log.ctx.chunksize.toNat : Int)) :
    Aligned log ↔ ∀ c ∈ log.chunks, log.ctx.channels * log.ctx.samplesize ∣ (c.dropped : Int) := by
  have hinv := SegmentInv.run hrun
  have hiff : ∀ c ∈ log.chunks, (log.ctx.channels * log.ctx.samplesize ∣ (c.start : Int) ↔
      log.ctx.channels * log.ctx.samplesize ∣ (c.dropped : Int)) := by
    intro c hc
    obtain ⟨k, hk⟩ := List.mem_iff_getElem?.mp hc
    rw [hinv.starts k c hk, Nat.cast_add, Nat.cast_mul]
    exact (Int.dvd_add_left (Dvd.dvd.mul_right hframes k))
  have hlength := hinv.length
  constructor
  · intro haligned c hc
    exact (hiff c hc).mp (haligned.chunks c hc).aligned
  · intro hdropped
    refine ⟨fun c hc => ?_, hinv.ordered⟩
    obtain ⟨hle, hdata, hsize⟩ := hinv.segment c hc
    exact ⟨by omega, hdata, hsize, (hiff c hc).mpr (hdropped c hc)⟩

/-- A stereo stream with chunks of two frames of 4 bytes. -/
def stereoStream : StreamOptions := ⟨[97], 1, 2000, 2, 2⟩

/-- One chunk is read in two parts, then one frame is thrown away, and another chunk is read. -/
theorem aligned_iff_wholeFrame :
    ∃ log, pipeRun 1000 0 (freshPipe stereoStream) [.init (some 4), .mark .playing none, readAt 1 3,
        readAt 1 5, readAt 1 4, .setIdle .empty, readAt 1 8] = .ok log ∧ log.chunks.length = 2 ∧
      Aligned log := by
  obtain ⟨log, hrun, hview⟩ := except_map_ok (show (pipeRun 1000 0 (freshPipe stereoStream)
    [.init (some 4), .mark .playing none, readAt 1 3, readAt 1 5, readAt 1 4, .setIdle .empty,
      readAt 1 8]).map (fun log => (log.chunks.length, decide (log.ctx.channels * log.ctx.samplesize ∣
        (log.ctx.chunksize.toNat : Int)), decide (∀ c ∈ log.chunks,
          log.ctx.channels * log.ctx.samplesize ∣ (c.dropped : Int)))) = .ok (2, true, true) by
            decide +kernel)
  obtain ⟨hlength, hview⟩ := Prod.mk.inj hview
  obtain ⟨hframes, hdropped⟩ := Prod.mk.inj hview
  exact ⟨log, hrun, hlength, (aligned_iff 1000 0 stereoStream _ log hrun (of_decide_eq_true hframes)).mpr
    (of_decide_eq_true hdropped)⟩

/-- The pipe is set idle when half a frame was read: the next chunk begins in the middle of that frame. -/
theorem chunk_misaligned :
    ¬∀ (options : StreamOptions) (events : List (PipeEvent 0)) (log : PipeLog),
      pipeRun 1000 0 (freshPipe options) events = .ok log →
        log.ctx.channels * log.ctx.samplesize ∣ (log.ctx.chunksize.toNat : Int) → Aligned log := by
  intro hall
  obtain ⟨log, hrun, hview⟩ := except_map_ok (show (pipeRun 1000 0 (freshPipe stereoStream)
    [.init (some 4), .mark .playing none, readAt 1 2, .setIdle .empty, readAt 1 8]).map (fun log =>
      (decide (log.ctx.channels * log.ctx.samplesize ∣ (log.ctx.chunksize.toNat : Int)),
        decide (∀ c ∈ log.chunks, log.ctx.channels * log.ctx.samplesize ∣ (c.start : Int)))) =
          .ok (true, false) by decide +kernel)
  obtain ⟨hframes, hstart⟩ := Prod.mk.inj hview
  have haligned := hall stereoStream _ log hrun (of_decide_eq_true hframes)
  exact of_decide_eq_false hstart fun c hc => (haligned.chunks c hc).aligned

end Snapcastc
