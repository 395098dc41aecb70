import Snapcastc.InputpipeRun

/-! When the chunks of an input pipe are to be played. The time is kept in the chunk that is being filled. It
moves on by the length of a chunk when a chunk is completed, and when reading starts again after the pipe
was idle. -/

namespace Snapcastc

variable {n : Nat}

/-- `read_ms` as it is passed to `timeAddMs`. -/
def passedMs (readMs : Int) : Int := (Int32.ofInt readMs).toInt

theorem passedMs_of_lt {readMs : Int} (hms : 0 ≤ readMs) (hlt : readMs < 2 ^ 31) : passedMs readMs = readMs :=
  Int32.toInt_ofInt_of_le (by omega) (by omega)

theorem passedMs_le {readMs : Int} (hms : 0 ≤ readMs) : passedMs readMs ≤ readMs := by
  have hsize : Int32.size = 2 ^ 32 := rfl
  rw [passedMs, Int32.toInt_ofInt, Int.bmod_def, hsize]
  split_ifs <;> omega

theorem passedMs_range (readMs : Int) : -2 ^ 31 ≤ passedMs readMs ∧ passedMs readMs < 2 ^ 31 :=
  ⟨(Int32.ofInt readMs).le_toInt, (Int32.ofInt readMs).toInt_lt⟩

theorem timeAddMs_passed {t : Timespec} (ht : t.Normalised) {readMs : Int} (hms : 0 ≤ passedMs readMs) :
    (timeAddMs t (.ofInt readMs)).Normalised ∧
      (timeAddMs t (.ofInt readMs)).toNs = t.toNs + passedMs readMs * 1000000 := timeAddMs_spec ht hms

/-- A length that moves the dates forward, unless it is zero. -/
structure Advances (readMs : Int) : Prop where
  nonneg : 0 ≤ passedMs readMs
  zero : passedMs readMs = 0 → readMs = 0

theorem Advances.of_lt {readMs : Int} (hms : 0 ≤ readMs) (hlt : readMs < 2 ^ 31) : Advances readMs := by
  have hsame := passedMs_of_lt hms hlt
  exact ⟨hsame.ge.trans' hms, fun hzero => hsame.symm.trans hzero⟩

/-- How far ahead of the clock a chunk may be dated, in milliseconds. -/
def aheadMs (bufferms : UInt16) (ms : Int) : Int :=
  max ((bufferms.toNat * 95 / 100 : Nat) + 2 * ms) (coldStartOffsetMs.toInt + ms)

/-- The clock shows a time at which seconds fit in 32 bits, also those of the dates that a call can give. -/
structure FitsClock (bufferms : UInt16) (readMs : Int) (time : Timespec) : Prop where
  normal : time.Normalised
  nonneg : 0 ≤ time.tvSec
  fits : time.toNs + aheadMs bufferms (passedMs readMs) * 1000000 < 2 ^ 32 * billion

instance (bufferms : UInt16) (readMs : Int) (time : Timespec) : Decidable (FitsClock bufferms readMs time) :=
  decidable_of_iff (time.Normalised ∧ 0 ≤ time.tvSec ∧
      time.toNs + aheadMs bufferms (passedMs readMs) * 1000000 < 2 ^ 32 * billion)
    ⟨fun h => ⟨h.1, h.2.1, h.2.2⟩, fun h => ⟨h.normal, h.nonneg, h.fits⟩⟩

theorem FitsClock.toNs_nonneg {bufferms : UInt16} {readMs : Int} {time : Timespec}
    (hfits : FitsClock bufferms readMs time) : 0 ≤ time.toNs := by
  have hnonneg := hfits.nonneg
  have hnsec := hfits.normal.1
  unfold Timespec.toNs
  positivity

/-- The clock of a call shows such a time. -/
def PipeEvent.Fits (bufferms : UInt16) (readMs : Int) : PipeEvent n → Prop
  | .handle clock _ _ _ => FitsClock bufferms readMs clock.systime
  | _ => True

instance (bufferms : UInt16) (readMs : Int) (event : PipeEvent n) : Decidable (event.Fits bufferms readMs) := by
  cases event <;> unfold PipeEvent.Fits <;> infer_instance

/-- A date that fits in the chunk is read back. -/
theorem withPlayAt_playAt {chunk : PcmChunk} {playAt : Timespec} (hnormal : playAt.Normalised)
    (hnonneg : 0 ≤ playAt.toNs) (hfits : playAt.toNs < 2 ^ 32 * billion) :
    chunkGetPlayAt (some (withPlayAt chunk playAt)) = playAt := by
  obtain ⟨hlo, hhi⟩ := hnormal
  have hsec : 0 ≤ playAt.tvSec ∧ playAt.tvSec < 2 ^ 32 := by
    unfold Timespec.toNs billion at *
    omega
  have hnsec : playAt.tvNsec < 2 ^ 32 := by
    unfold billion at hhi
    omega
  have hread : ∀ x : Int, 0 ≤ x → x < 2 ^ 32 → ((UInt32.ofInt x).toNat : Int) = x := by
    intro x hx hlt
    rw [uint32_ofInt_toNat, Int.emod_eq_of_lt hx hlt]
  change Timespec.mk ((UInt32.ofInt playAt.tvSec).toNat : Int) ((UInt32.ofInt playAt.tvNsec).toNat : Int) =
    playAt
  rw [hread _ hsec.1 hsec.2, hread _ hlo hnsec]

/-- The date after a call: it stays, or playing starts again with the first bytes after a pause. -/
structure Dated (clock : ServerClock) (ms : Int) (restarted : Prop) (before after : Timespec) : Prop where
  normal : after.Normalised
  stays : ¬restarted → after = before
  starts : restarted → before.toNs < clock.systime.toNs ∧
      after.toNs = clock.systime.toNs + coldStartOffsetMs.toInt * 1000000 ∨
    clock.systime.toNs ≤ before.toNs ∧ after.toNs = before.toNs + ms * 1000000

theorem bufferFull_eq_false_iff {bufferms : UInt16} {clock : ServerClock} {ctx : InputpipeCtx}
    (hclock : clock.systime.Normalised) (hnormal : (chunkGetPlayAt (some ctx.chunk)).Normalised) :
    bufferFull bufferms clock ctx = false ↔ (chunkGetPlayAt (some ctx.chunk)).toNs ≤
      clock.systime.toNs + ((bufferms.toNat * 95 / 100 : Nat) : Int) * 1000000 := by
  have hbufferms := bufferms.toNat_lt
  have hms : (Int32.ofNat (bufferms.toNat * 95 / 100)).toInt = (bufferms.toNat * 95 / 100 : Nat) :=
    Int32.toInt_ofNat_of_lt (by omega)
  obtain ⟨hadded, hsum⟩ := timeAddMs_spec hclock (hms ▸ Int.natCast_nonneg (bufferms.toNat * 95 / 100))
  rw [hms] at hsum
  rw [bufferFull, decide_eq_false_iff_not, gt_iff_lt, timespecCmp_pos_iff_toNs hnormal hadded, hsum, not_lt]

theorem ReadCtx.dated {bufferms : UInt16} {clock : ServerClock} {bytes : List UInt8}
    {ctx mid : InputpipeCtx} (hread : ReadCtx clock bytes ctx mid) (hms : 0 ≤ passedMs ctx.readMs)
    (hclock : FitsClock bufferms ctx.readMs clock.systime)
    (hnormal : (chunkGetPlayAt (some ctx.chunk)).Normalised)
    (hroom : bufferFull bufferms clock ctx = false) :
    Dated clock (passedMs ctx.readMs) (ctx.state = .idle ∧ bytes ≠ []) (chunkGetPlayAt (some ctx.chunk))
      (chunkGetPlayAt (some mid.chunk)) := by
  have hle := (bufferFull_eq_false_iff hclock.normal hnormal).mp hroom
  have hnow := hclock.toNs_nonneg
  have hfits := hclock.fits
  unfold aheadMs at hfits
  rw [hread.playAt]
  split_ifs with hrestart
  · have hstart : ∀ start : Timespec, start = startPlayingAt clock ctx → start.Normalised →
        clock.systime.toNs ≤ start.toNs → start.toNs ≤ clock.systime.toNs +
          max ((bufferms.toNat * 95 / 100 : Nat) + 2 * passedMs ctx.readMs)
            (coldStartOffsetMs.toInt + passedMs ctx.readMs) * 1000000 →
        chunkGetPlayAt (some (withPlayAt ctx.chunk (startPlayingAt clock ctx))) = start := by
      rintro start rfl hnormal' hge hlt
      exact withPlayAt_playAt hnormal' (by omega) (by omega)
    have hcold : 0 ≤ coldStartOffsetMs.toInt := by decide
    by_cases hlate : (chunkGetPlayAt (some ctx.chunk)).toNs < clock.systime.toNs
    · obtain ⟨hadded, hsum⟩ := timeAddMs_spec hclock.normal hcold
      have heq : timeAddMs clock.systime coldStartOffsetMs = startPlayingAt clock ctx := by
        rw [startPlayingAt, if_pos ((timespecCmp_pos_iff_toNs hclock.normal hnormal).mpr hlate)]
      rw [hstart _ heq hadded (by omega) (by omega)]
      exact ⟨hadded, fun h => absurd hrestart h, fun _ => .inl ⟨hlate, hsum⟩⟩
    · obtain ⟨hadded, hsum⟩ := timeAddMs_passed hnormal hms
      have heq : timeAddMs (chunkGetPlayAt (some ctx.chunk)) (.ofInt ctx.readMs) = startPlayingAt clock ctx := by
        rw [startPlayingAt, if_neg (mt (timespecCmp_pos_iff_toNs hclock.normal hnormal).mp hlate)]
      rw [hstart _ heq hadded (by omega) (by omega)]
      exact ⟨hadded, fun h => absurd hrestart h, fun _ => .inr ⟨not_lt.mp hlate, hsum⟩⟩
  · exact ⟨hnormal, fun _ => rfl, fun h => absurd h hrestart⟩

/-- The date of a chunk that is complete: it moves on by the length of a chunk, or it is set anew. -/
structure Finished (clock : ServerClock) (ms : Int) (before after : Timespec) (ret : Int) : Prop where
  normal : after.Normalised
  reset : ret = 2 → before.toNs < clock.systime.toNs ∧
    after.toNs = clock.systime.toNs + coldStartOffsetMs.toInt * 1000000
  goesOn : ret = 1 → clock.systime.toNs ≤ before.toNs ∧ after.toNs = before.toNs + ms * 1000000
  result : ret = 1 ∨ ret = 2

theorem finishChunk_playAt {clock : ServerClock} {mid : InputpipeCtx} (hcomplete : isChunkComplete mid = true) :
    chunkGetPlayAt (some (finishChunk clock mid).2.chunk) = chunkGetPlayAt (some (withPlayAt mid.chunk
      (if timespecCmp clock.systime (chunkGetPlayAt (some mid.chunk)) > 0 then
        timeAddMs clock.systime coldStartOffsetMs
      else timeAddMs (chunkGetPlayAt (some mid.chunk)) (.ofInt mid.readMs)))) ∧
    (finishChunk clock mid).1 =
      if timespecCmp clock.systime (chunkGetPlayAt (some mid.chunk)) > 0 then 2 else 1 := by
  rw [finishChunk, if_pos hcomplete]
  dsimp only
  exact ⟨rfl, rfl⟩

/-- A chunk is dated when it is complete, at most as far ahead as what was read ahead and another chunk. -/
theorem finishChunk_finished {bufferms : UInt16} {clock : ServerClock} {mid : InputpipeCtx}
    (hms : Advances mid.readMs) (hclock : FitsClock bufferms mid.readMs clock.systime)
    (hnormal : (chunkGetPlayAt (some mid.chunk)).Normalised)
    (hahead : (chunkGetPlayAt (some mid.chunk)).toNs + passedMs mid.readMs * 1000000 ≤
      clock.systime.toNs + aheadMs bufferms (passedMs mid.readMs) * 1000000)
    (hcomplete : isChunkComplete mid = true) :
    Finished clock (passedMs mid.readMs) (chunkGetPlayAt (some mid.chunk))
      (chunkGetPlayAt (some (finishChunk clock mid).2.chunk)) (finishChunk clock mid).1 := by
  have hnow := hclock.toNs_nonneg
  have hfits := hclock.fits
  have hcold : 0 ≤ coldStartOffsetMs.toInt := by decide
  obtain ⟨hplayAt, hret⟩ := @finishChunk_playAt clock _ hcomplete
  rw [hplayAt, hret]
  by_cases hlate : (chunkGetPlayAt (some mid.chunk)).toNs < clock.systime.toNs
  · have hcmp := (timespecCmp_pos_iff_toNs hclock.normal hnormal).mpr hlate
    obtain ⟨hadded, hsum⟩ := timeAddMs_spec hclock.normal hcold
    have hbound : coldStartOffsetMs.toInt ≤ aheadMs bufferms (passedMs mid.readMs) := by
      have hnonneg := hms.nonneg
      unfold aheadMs
      omega
    rw [if_pos hcmp, if_pos hcmp, withPlayAt_playAt hadded (by omega) (by omega)]
    exact ⟨hadded, fun _ => ⟨hlate, hsum⟩, fun h => absurd h (by decide), .inr rfl⟩
  · have hcmp := mt (timespecCmp_pos_iff_toNs hclock.normal hnormal).mp hlate
    obtain ⟨hadded, hsum⟩ := timeAddMs_passed hnormal hms.nonneg
    have hnonneg := hms.nonneg
    rw [if_neg hcmp, if_neg hcmp, withPlayAt_playAt hadded (by omega) (by omega)]
    exact ⟨hadded, fun h => absurd h (by decide), fun _ => ⟨not_lt.mp hlate, hsum⟩, .inl rfl⟩

/-! ### The invariant -/

/-- What holds of the dates of the chunks of an open pipe. Chunks follow each other at the distance of their
length unless the clock had passed the earlier one, and the date of the chunk that is being filled moves on
when playing starts again. -/
structure DateInv (bufferms : UInt16) (readMs : Int) (log : PipeLog) : Prop where
  readMs_eq : log.ctx.readMs = readMs
  still : readMs = 0 → log.ctx.chunksize = 0
  normal : log.playAt.Normalised
  before : ∀ c ∈ log.chunks, c.playAt.Normalised ∧ c.playAt.toNs ≤ log.playAt.toNs
  spaced : log.chunks.Pairwise fun a b =>
    a.playAt.toNs + passedMs readMs * 1000000 ≤ b.playAt.toNs ∨ a.playAt.toNs < b.time.toNs
  ahead : ∀ c ∈ log.chunks, c.time.toNs ≤ c.playAt.toNs ∧
    c.playAt.toNs ≤ c.time.toNs + aheadMs bufferms (passedMs readMs) * 1000000
  last : ∀ c ∈ log.chunks.getLast?, c.playAt.toNs ≤ log.playAt.toNs ∧
    (log.restarts = 0 ↔ log.playAt.toNs = c.playAt.toNs)
  goesOn : log.chunks.IsChain fun a b => b.ret = 1 →
    (b.playAt.toNs = a.playAt.toNs + passedMs readMs * 1000000 ↔ b.restarts = 0)

/-- Nothing has happened since the pipe was opened or closed. -/
theorem DateInv.of_new {bufferms : UInt16} {readMs : Int} {ctx : InputpipeCtx} (hms : ctx.readMs = readMs)
    (hstill : readMs = 0 → ctx.chunksize = 0) (hnormal : (chunkGetPlayAt (some ctx.chunk)).Normalised) :
    DateInv bufferms readMs ⟨ctx, [], 0, 0, none, []⟩ where
  readMs_eq := hms
  still := hstill
  normal := hnormal
  before := fun _ hc => absurd hc List.not_mem_nil
  spaced := .nil
  ahead := fun _ hc => absurd hc List.not_mem_nil
  last := fun _ hc => by cases hc
  goesOn := .nil

theorem DateInv.fresh (bufferms : UInt16) (options : StreamOptions) :
    DateInv bufferms options.readMs (freshPipe options) :=
  .of_new rfl (fun _ => rfl) ⟨le_rfl, Int.natCast_pos.mpr (by decide)⟩

/-- Where nothing fits, nothing is read. -/
theorem DateInv.readMs_pos {bufferms : UInt16} {readMs : Int} {log : PipeLog} {clock : ServerClock}
    {input : Option (List UInt8)} (hinv : DateInv bufferms readMs log) (hms : Advances readMs)
    (hbytes : readBytes bufferms clock input log.ctx ≠ []) : 0 < passedMs readMs := by
  refine lt_of_le_of_ne hms.nonneg fun hzero => hbytes ?_
  rw [readBytes, hinv.still (hms.zero hzero.symm)]
  split_ifs
  · rfl
  · cases input with
    | none => rfl
    | some input => simp

/-- What a call has read, with the date that it has given to the chunk. -/
structure DatedLog (bufferms : UInt16) (readMs : Int) (log : PipeLog) (clock : ServerClock)
    (bytes : List UInt8) (playAt : Timespec) : Prop where
  normal : playAt.Normalised
  mono : log.playAt.toNs ≤ playAt.toNs
  ahead : playAt.toNs + passedMs readMs * 1000000 ≤
    clock.systime.toNs + aheadMs bufferms (passedMs readMs) * 1000000
  last : ∀ c ∈ log.chunks.getLast?, c.playAt.toNs ≤ playAt.toNs ∧
    ((log.read clock bytes).restarts = 0 ↔ playAt.toNs = c.playAt.toNs)

theorem DateInv.read {bufferms : UInt16} {readMs : Int} {log : PipeLog} {clock : ServerClock}
    {input : Option (List UInt8)} {mid : InputpipeCtx} (hinv : DateInv bufferms readMs log)
    (hms : Advances readMs) (hclock : FitsClock bufferms readMs clock.systime)
    (hroom : bufferFull bufferms clock log.ctx = false)
    (hread : ReadCtx clock (readBytes bufferms clock input log.ctx) log.ctx mid) :
    DatedLog bufferms readMs log clock (readBytes bufferms clock input log.ctx)
      (chunkGetPlayAt (some mid.chunk)) := by
  obtain rfl := hinv.readMs_eq
  have hfull := (bufferFull_eq_false_iff hclock.normal hinv.normal).mp hroom
  obtain ⟨hnormal, hstays, hstarts⟩ := hread.dated hms.nonneg hclock hinv.normal hroom
  have hcold : coldStartOffsetMs.toInt = 100 := rfl
  have hnonneg := hms.nonneg
  by_cases hrestart : log.ctx.state = .idle ∧ readBytes bufferms clock input log.ctx ≠ []
  · have hpos := hinv.readMs_pos hms hrestart.2
    have hmono : log.playAt.toNs < (chunkGetPlayAt (some mid.chunk)).toNs := by
      rcases hstarts hrestart with ⟨hlate, heq⟩ | ⟨hearly, heq⟩
      · change (chunkGetPlayAt (some log.ctx.chunk)).toNs < _
        omega
      · change (chunkGetPlayAt (some log.ctx.chunk)).toNs < _
        omega
    refine ⟨hnormal, hmono.le, ?_, fun c hc => ?_⟩
    · unfold aheadMs
      rcases hstarts hrestart with ⟨hlate, heq⟩ | ⟨hearly, heq⟩
      · omega
      · omega
    · have hlast := (hinv.last c hc).1
      rw [PipeLog.read, if_pos hrestart]
      dsimp only
      omega
  · rw [hstays hrestart] at hnormal ⊢
    refine ⟨hnormal, le_rfl, ?_, fun c hc => ?_⟩
    · unfold aheadMs
      omega
    · rw [PipeLog.read, if_neg hrestart]
      exact hinv.last c hc

theorem DateInv.step {bufferms : UInt16} {readMs : Int} (hms : Advances readMs) (log : PipeLog)
    (event : PipeEvent n) (log' : PipeLog) (hfits : event.Fits bufferms readMs)
    (hinv : DateInv bufferms readMs log) (hstep : PipeStep bufferms log event log') :
    DateInv bufferms readMs log' := by
  cases hstep with
  | same => exact hinv
  | opened opened ctx hinit =>
      obtain ⟨hplayAt, hreadMs, hchunksize, -⟩ := inputpipeInit_ctx hinit
      refine .of_new (hreadMs.trans hinv.readMs_eq) (fun hzero => ?_) ?_
      · rw [hchunksize, hinv.readMs_eq, hzero, Int.mul_zero]
        rfl
      · rw [hplayAt]
        exact hinv.normal
  | closed tasks idleTask =>
      exact .of_new hinv.readMs_eq hinv.still ⟨hinv.normal.1, hinv.normal.2⟩
  | read clock input encoded tasks mid hopen hroom hread hcomplete =>
      obtain ⟨hnormal, hmono, hahead, hlast⟩ := hinv.read hms hfits hroom hread
      exact ⟨hread.readMs.trans hinv.readMs_eq, fun hzero => hread.chunksize.trans (hinv.still hzero), hnormal,
        fun c hc => ⟨(hinv.before c hc).1, (hinv.before c hc).2.trans hmono⟩, hinv.spaced, hinv.ahead, hlast,
        hinv.goesOn⟩
  | completed clock input encoded tasks mid chunk hopen hroom hread hcomplete hencode =>
      obtain ⟨hnormal, hmono, hahead, hlast⟩ := hinv.read hms hfits hroom hread
      obtain ⟨hreadMs, hchunksize, -, -⟩ := finishChunk_fields clock mid
      have hmid : mid.readMs = readMs := hread.readMs.trans hinv.readMs_eq
      obtain rfl := hmid
      have hnonneg := hms.nonneg
      obtain ⟨hnormal', hreset, hgoesOn, hret⟩ := finishChunk_finished hms hfits hnormal hahead hcomplete
      have hencoded := encodeCompleted_playAt hencode
      have hcold : coldStartOffsetMs.toInt = 100 := rfl
      have hlater : (chunkGetPlayAt (some mid.chunk)).toNs ≤
          (chunkGetPlayAt (some (finishChunk clock mid).2.chunk)).toNs := by
        rcases hret with hret | hret
        · have := hgoesOn hret
          omega
        · have := hreset hret
          omega
      refine ⟨hreadMs, fun hzero => (hchunksize.trans hread.chunksize).trans (hinv.still hzero), ?_, fun c hc => ?_,
        ?_, fun c hc => ?_, fun c hc => ?_, ?_⟩
      · change (chunkGetPlayAt (some chunk)).Normalised
        rw [hencoded]
        exact hnormal'
      · change c.playAt.Normalised ∧ c.playAt.toNs ≤ (chunkGetPlayAt (some chunk)).toNs
        rw [hencoded]
        rcases List.mem_append.mp hc with hc | hc
        · exact ⟨(hinv.before c hc).1, ((hinv.before c hc).2.trans hmono).trans hlater⟩
        · rw [List.mem_singleton.mp hc]
          exact ⟨hnormal', le_rfl⟩
      · refine List.pairwise_append.mpr ⟨hinv.spaced, List.pairwise_singleton _ _, fun a ha b hb => ?_⟩
        have hbefore := (hinv.before a ha).2.trans hmono
        rw [List.mem_singleton.mp hb]
        rcases hret with hret | hret
        · refine .inl ?_
          have hdate := (hgoesOn hret).2
          change _ ≤ (chunkGetPlayAt (some (finishChunk clock mid).2.chunk)).toNs
          omega
        · exact .inr (hbefore.trans_lt (hreset hret).1)
      · rcases List.mem_append.mp hc with hc | hc
        · exact hinv.ahead c hc
        · rw [List.mem_singleton.mp hc]
          change clock.systime.toNs ≤ (chunkGetPlayAt (some (finishChunk clock mid).2.chunk)).toNs ∧
            (chunkGetPlayAt (some (finishChunk clock mid).2.chunk)).toNs ≤
              clock.systime.toNs + aheadMs bufferms (passedMs mid.readMs) * 1000000
          rcases hret with hret | hret
          · have := hgoesOn hret
            omega
          · have := (hreset hret).2
            unfold aheadMs
            omega
      · rw [PipeLog.complete, List.getLast?_concat] at hc
        obtain rfl := Option.some.inj hc
        change (chunkGetPlayAt (some (finishChunk clock mid).2.chunk)).toNs ≤
          (chunkGetPlayAt (some chunk)).toNs ∧ (0 = 0 ↔ (chunkGetPlayAt (some chunk)).toNs =
            (chunkGetPlayAt (some (finishChunk clock mid).2.chunk)).toNs)
        rw [hencoded]
        exact ⟨le_rfl, iff_of_true rfl rfl⟩
      · refine List.isChain_append.mpr ⟨hinv.goesOn, .singleton _, fun a ha b hb hret => ?_⟩
        obtain rfl := Option.some.inj hb
        have hdate := (hgoesOn hret).2
        have hprevious := (hlast a ha).2
        change (chunkGetPlayAt (some (finishChunk clock mid).2.chunk)).toNs = _ ↔
          (log.read clock (readBytes bufferms clock input log.ctx)).restarts = 0
        rw [hprevious]
        omega
  | idle tasks idleTask =>
      exact ⟨hinv.readMs_eq, hinv.still, hinv.normal, hinv.before, hinv.spaced, hinv.ahead, hinv.last,
        hinv.goesOn⟩
  | marked state resumeTask =>
      exact ⟨hinv.readMs_eq, hinv.still, hinv.normal, hinv.before, hinv.spaced, hinv.ahead, hinv.last,
        hinv.goesOn⟩

theorem DateInv.run {bufferms : UInt16} {stream : Fin (n + 1)} {options : StreamOptions}
    {events : List (PipeEvent n)} {log : PipeLog} (hms : Advances options.readMs)
    (hfits : ∀ event ∈ events, event.Fits bufferms options.readMs)
    (hrun : pipeRun bufferms stream (freshPipe options) events = .ok log) :
    DateInv bufferms options.readMs log :=
  pipeRun_inv (DateInv.step hms) hfits (.fresh bufferms options) hrun

/-! ### Increasing dates -/

/-- When the first chunk is read, so late in a second that nothing is borrowed from it. -/
def firstRead : Timespec := ⟨3000000, 899000000⟩

/-- When that chunk is to be played, and the others are read. -/
def firstDate : Timespec := ⟨3000000, 999000000⟩

theorem firstDate_fits {bufferms : UInt16} {readMs : Int} :
    FitsClock bufferms readMs firstRead ∧ FitsClock bufferms readMs firstDate := by
  have hbufferms := bufferms.toNat_lt
  obtain ⟨-, hhi⟩ := passedMs_range readMs
  have hcold : coldStartOffsetMs.toInt = 100 := rfl
  have hahead : aheadMs bufferms (passedMs readMs) ≤ 2 ^ 33 := by
    unfold aheadMs
    omega
  exact ⟨⟨by decide, by decide, by unfold Timespec.toNs firstRead billion; dsimp only; omega⟩,
    by decide, by decide, by unfold Timespec.toNs firstDate billion; dsimp only; omega⟩

/-- The date lies late in a second, so the milliseconds that are left over do not reach below it. -/
theorem firstDate_moved (readMs : Int) :
    (timeAddMs firstDate (.ofInt readMs)).Normalised ∧
      (timeAddMs firstDate (.ofInt readMs)).toNs = firstDate.toNs + passedMs readMs * 1000000 := by
  have hclock : firstDate.Normalised := ⟨by decide, by decide⟩
  have habove := Int.lt_tmod_of_pos (Int32.ofInt readMs).toInt (show (0 : Int) < 1000 by decide)
  obtain ⟨hnormal, hsum⟩ := timeAddMs_signed hclock (.ofInt readMs)
  rw [if_neg (by unfold firstDate; dsimp only; omega), Int.add_zero] at hsum
  exact ⟨hnormal, hsum⟩

/-- The bytes in a chunk of a stream. -/
def streamChunksize (options : StreamOptions) : UInt16 :=
  UInt16.ofInt ((options.samples * options.channels * options.samplesize * options.readMs).tdiv 1000)

def firstChunk (n : Nat) : List (PipeEvent n) := .init (some 4) :: wholeChunk ⟨firstRead, firstRead⟩

theorem firstChunk_fits {bufferms : UInt16} {readMs : Int} :
    ∀ event ∈ firstChunk n, event.Fits bufferms readMs :=
  List.forall_mem_cons.mpr ⟨trivial, wholeChunk_allowed trivial fun _ => firstDate_fits.1⟩

structure FirstChunk (options : StreamOptions) (log : PipeLog) (first : Completed) : Prop where
  between : BetweenChunks log
  readMs : log.ctx.readMs = options.readMs
  chunksize : log.ctx.chunksize = streamChunksize options
  restarts : log.restarts = 0
  playAt : log.playAt = firstDate
  chunks : log.chunks = [first]
  time : first.time = firstRead
  date : first.playAt = firstDate

/-- The first chunk is late, so it is dated anew. -/
theorem firstChunk_run (bufferms : UInt16) (stream : Fin (n + 1)) (options : StreamOptions) :
    ∃ log first, pipeRun bufferms stream (freshPipe options) (firstChunk n) = .ok log ∧
      FirstChunk options log first := by
  obtain ⟨opened, hopened, hbetween, hplayAt, hnone, hreadMs, hsize, hrestarts⟩ : ∃ opened,
      pipeStep bufferms stream (freshPipe options) (.init (some 4)) = .ok opened ∧ BetweenChunks opened ∧
        opened.playAt = ⟨0, 0⟩ ∧ opened.chunks = [] ∧ opened.ctx.readMs = options.readMs ∧
          opened.ctx.chunksize = streamChunksize options ∧ opened.restarts = 0 :=
    ⟨_, rfl, ⟨rfl, rfl, rfl⟩, rfl, rfl, rfl, rfl, rfl⟩
  have hclock : firstRead.Normalised := ⟨by decide, by decide⟩
  have hnormal : (chunkGetPlayAt (some opened.ctx.chunk)).Normalised := by
    change opened.playAt.Normalised
    rw [hplayAt]
    exact ⟨by decide, by decide⟩
  have hroom : bufferFull bufferms ⟨firstRead, firstRead⟩ opened.ctx = false := by
    rw [bufferFull_eq_false_iff hclock hnormal]
    change opened.playAt.toNs ≤ firstRead.toNs + _
    have hpos : (0 : Int) ≤ firstRead.toNs := by decide
    rw [hplayAt, show Timespec.toNs ⟨0, 0⟩ = 0 from rfl]
    omega
  obtain ⟨mid, log, first, hrun, hwhole⟩ := wholeChunk_completed hbetween hroom
  have hdate : log.playAt = firstDate := by
    rw [hwhole.dated, (finishChunk_playAt hwhole.complete).1, hwhole.playAt, hplayAt,
      if_pos (by decide)]
    exact withPlayAt_playAt ⟨by decide, by decide⟩ (by decide) (by decide)
  refine ⟨log, first, ?_, hwhole.between, hwhole.same.1.trans hreadMs, hwhole.same.2.trans hsize,
    hwhole.restarts.1, hdate, ?_, hwhole.time, hwhole.date.trans hdate⟩
  · rw [firstChunk, pipeRun, hopened, except_ok_bind]
    exact hrun
  · rw [hwhole.chunks, hnone]
    rfl

/-- The second chunk is read when the first one is to be played, and dated behind it by what is passed. -/
theorem secondChunk_run (bufferms : UInt16) (stream : Fin (n + 1)) (options : StreamOptions) :
    ∃ log first second, pipeRun bufferms stream (freshPipe options)
        (firstChunk n ++ wholeChunk ⟨firstDate, firstDate⟩) = .ok log ∧ log.chunks = [first, second] ∧
      first.playAt = firstDate ∧ second.ret = 1 ∧ second.restarts = 0 ∧
      (streamChunksize options ≠ 0 → second.first = some firstDate) ∧
      second.playAt.toNs = firstDate.toNs + passedMs options.readMs * 1000000 := by
  obtain ⟨log₁, first, hfirst, hlog⟩ := firstChunk_run bufferms stream options
  have hclock : firstDate.Normalised := ⟨by decide, by decide⟩
  have hplayAt : chunkGetPlayAt (some log₁.ctx.chunk) = firstDate := hlog.playAt
  have hroom : bufferFull bufferms ⟨firstDate, firstDate⟩ log₁.ctx = false := by
    rw [bufferFull_eq_false_iff hclock (hplayAt ▸ hclock), hplayAt]
    dsimp only
    omega
  obtain ⟨mid, log, second, hrun, hwhole⟩ := wholeChunk_completed hlog.between hroom
  have hontime : ¬timespecCmp firstDate firstDate > 0 := by decide
  obtain ⟨hdated, hret⟩ := @finishChunk_playAt ⟨firstDate, firstDate⟩ _ hwhole.complete
  rw [hwhole.playAt, hlog.playAt, if_neg hontime] at hdated hret
  rw [hwhole.readMs, hlog.readMs] at hdated
  obtain ⟨hnormal, hsum⟩ := firstDate_moved options.readMs
  obtain ⟨hlo, hhi⟩ := passedMs_range options.readMs
  have hvalue : firstDate.toNs = 3000000999000000 := by decide
  have hdate : log.playAt = timeAddMs firstDate (.ofInt options.readMs) := by
    rw [hwhole.dated, hdated]
    refine withPlayAt_playAt hnormal ?_ ?_
    · omega
    · unfold billion
      omega
  refine ⟨log, first, second, ?_, ?_, hlog.date, hwhole.ret.trans hret,
    hwhole.restarts.2.trans hlog.restarts, fun hpos => hwhole.first (hlog.chunksize ▸ hpos), ?_⟩
  · rw [pipeRun_append hfirst]
    exact hrun
  · rw [hwhole.chunks, hlog.chunks]
    rfl
  · rw [hwhole.date, hdate, hsum]

theorem secondChunk_fits {bufferms : UInt16} {readMs : Int} :
    ∀ event ∈ firstChunk n ++ wholeChunk ⟨firstDate, firstDate⟩, event.Fits bufferms readMs :=
  List.forall_mem_append.mpr ⟨firstChunk_fits, wholeChunk_allowed trivial fun _ => firstDate_fits.2⟩

/-- The dates are strictly increasing, each no earlier than the time of the call and no later than what may
be read ahead. -/
def Disciplined (bufferms : UInt16) (readMs : Int) (chunks : List Completed) : Prop :=
  (chunks.Pairwise fun a b => a.playAt.toNs < b.playAt.toNs) ∧
    ∀ c ∈ chunks, c.time.toNs ≤ c.playAt.toNs ∧ c.playAt.toNs ≤ c.time.toNs +
      max ((bufferms.toNat * 95 / 100 : Nat) + 2 * readMs) (100 + readMs) * 1000000

instance (bufferms : UInt16) (readMs : Int) (chunks : List Completed) :
    Decidable (Disciplined bufferms readMs chunks) := inferInstanceAs (Decidable (_ ∧ _))

theorem DateInv.disciplined {bufferms : UInt16} {readMs : Int} {log : PipeLog}
    (hinv : DateInv bufferms readMs log) (hms : 0 < readMs) (hpassed : 0 < passedMs readMs) :
    Disciplined bufferms readMs log.chunks := by
  have hcold : coldStartOffsetMs.toInt = 100 := rfl
  have hle := passedMs_le hms.le
  refine ⟨hinv.spaced.imp_of_mem fun {a b} _ hb hspaced => ?_, fun c hc => ?_⟩
  · have hahead := (hinv.ahead b hb).1
    rcases hspaced with hspaced | hbefore
    · omega
    · exact hbefore.trans_le hahead
  · obtain ⟨hnow, hahead⟩ := hinv.ahead c hc
    refine ⟨hnow, hahead.trans ?_⟩
    unfold aheadMs
    omega

/-- In every run the chunks that a pipe has completed since it was opened are dated like that, if and only if
the length of a chunk is positive when it is passed to `timeAddMs`. -/
theorem timestamps_disciplined_iff (bufferms : UInt16) (stream : Fin (n + 1)) (options : StreamOptions)
    (hms : 0 < options.readMs) :
    (∀ (events : List (PipeEvent n)) (log : PipeLog),
        (∀ event ∈ events, event.Fits bufferms options.readMs) →
        pipeRun bufferms stream (freshPipe options) events = .ok log →
          Disciplined bufferms options.readMs log.chunks) ↔
      0 < passedMs options.readMs := by
  constructor
  · intro hall
    obtain ⟨log, first, second, hrun, hchunks, hfirst, -, -, -, hsecond⟩ :=
      secondChunk_run bufferms stream options
    have hordered := (hall _ log secondChunk_fits hrun).1
    rw [hchunks] at hordered
    have hlater := List.rel_of_pairwise_cons hordered (List.mem_singleton_self second)
    rw [hfirst] at hlater
    omega
  · intro hpassed events log hfits hrun
    exact (DateInv.run ⟨hpassed.le, fun hzero => absurd hzero hpassed.ne'⟩ hfits hrun).disciplined hms hpassed

/-- A mono stream with chunks of 20 bytes and 20 ms. -/
def monoStream : StreamOptions := ⟨[97], 20, 1000, 1, 1⟩

/-- The pipe is opened and two chunks are read, the second one in two parts. -/
def twoChunks : List (PipeEvent 0) :=
  [.init (some 4), .mark .playing none, readAt 1 20, readAt 1 5, readAt 1 15]

theorem timestamps_disciplined_twoChunks :
    ∃ log, pipeRun 1000 0 (freshPipe monoStream) twoChunks = .ok log ∧ log.chunks.length = 2 ∧
      Disciplined 1000 20 log.chunks := by
  obtain ⟨log, hrun, hlength⟩ := except_map_ok (show (pipeRun 1000 0 (freshPipe monoStream)
    twoChunks).map (fun log => log.chunks.length) = .ok 2 by decide +kernel)
  exact ⟨log, hrun, hlength, (timestamps_disciplined_iff 1000 0 monoStream (by decide)).mpr (by decide)
    twoChunks log (by decide) hrun⟩

/-- Chunks of 20 bytes and almost 50 days, 131 seconds short of 2^32 milliseconds. -/
def longStream : StreamOptions := ⟨[97], 4294836244, 1000, 1, 1⟩

/-- The second chunk is to be played 131 seconds before the first. -/
theorem timestamps_disciplined_not :
    ¬∀ (options : StreamOptions) (events : List (PipeEvent 0)) (log : PipeLog), 0 < options.readMs →
      (∀ event ∈ events, event.Fits 1000 options.readMs) →
      pipeRun 1000 0 (freshPipe options) events = .ok log → Disciplined 1000 options.readMs log.chunks := by
  intro hall
  let second : PipeEvent 0 :=
    .handle ⟨⟨1000, 100000000⟩, ⟨1000, 100000000⟩⟩ (some (List.replicate 20 7)) none .empty
  obtain ⟨log, hrun, hview⟩ := except_map_ok (show (pipeRun 1000 0 (freshPipe longStream)
    [.init (some 4), .mark .playing none, readAt 1000 20, second]).map
      (fun log => log.chunks.map fun c => c.playAt.toNs) = .ok [1000100000000, 869048000000] by
        decide +kernel)
  have hdates := List.pairwise_map.mpr (hall longStream _ log (by decide) (by decide) hrun).1
  rw [hview] at hdates
  revert hdates
  decide

/-! ### Chunks that follow each other -/

/-- The chunk follows the one before at the distance of its length, if it was dated without a reset and the
time of the one before had not passed when its first bytes were read. -/
def Follows (readMs : Int) (previous c : Completed) : Prop :=
  c.ret = 1 → (∃ time ∈ c.first, time.toNs ≤ previous.playAt.toNs) →
    c.playAt.toNs = previous.playAt.toNs + readMs * 1000000

/-- Under the same conditions, no bytes were read in the state IDLE since the chunk before. -/
def NotRestarted (previous c : Completed) : Prop :=
  c.ret = 1 → (∃ time ∈ c.first, time.toNs ≤ previous.playAt.toNs) → c.restarts = 0

theorem DateInv.follows_iff {bufferms : UInt16} {readMs : Int} {log : PipeLog}
    (hinv : DateInv bufferms readMs log) :
    log.chunks.IsChain (Follows (passedMs readMs)) ↔ log.chunks.IsChain NotRestarted := by
  constructor
  · intro hfollows
    refine List.isChain_iff_getElem.mpr fun k hk hret hfirst => ?_
    have hiff := List.isChain_iff_getElem.mp hinv.goesOn k hk hret
    exact hiff.mp (List.isChain_iff_getElem.mp hfollows k hk hret hfirst)
  · intro hnot
    refine List.isChain_iff_getElem.mpr fun k hk hret hfirst => ?_
    have hiff := List.isChain_iff_getElem.mp hinv.goesOn k hk hret
    exact hiff.mpr (List.isChain_iff_getElem.mp hnot k hk hret hfirst)

/-- With a length that fits in an `int`, the chunks that a pipe has completed since it was opened follow each
other without a gap if and only if no bytes were read in the state IDLE between them. With a length that does
not fit there are chunks that do not follow each other, although no bytes were. -/
theorem timestamps_contiguous_iff (bufferms : UInt16) (stream : Fin (n + 1)) (options : StreamOptions)
    (hms : 0 ≤ options.readMs) :
    (options.readMs < 2 ^ 31 → ∀ (events : List (PipeEvent n)) (log : PipeLog),
      (∀ event ∈ events, event.Fits bufferms options.readMs) →
      pipeRun bufferms stream (freshPipe options) events = .ok log →
        (log.chunks.IsChain (Follows options.readMs) ↔ log.chunks.IsChain NotRestarted)) ∧
    (2 ^ 31 ≤ options.readMs → streamChunksize options ≠ 0 → ∃ (events : List (PipeEvent n)) (log : PipeLog),
      (∀ event ∈ events, event.Fits bufferms options.readMs) ∧
      pipeRun bufferms stream (freshPipe options) events = .ok log ∧
        log.chunks.IsChain NotRestarted ∧ ¬log.chunks.IsChain (Follows options.readMs)) := by
  constructor
  · intro hlt events log hfits hrun
    have hiff := (DateInv.run (.of_lt hms hlt) hfits hrun).follows_iff
    rwa [passedMs_of_lt hms hlt] at hiff
  · intro hge hsize
    obtain ⟨log, first, second, hrun, hchunks, hfirst, hret, hrestarts, hread, hsecond⟩ :=
      secondChunk_run bufferms stream options
    refine ⟨_, log, secondChunk_fits, hrun, ?_, fun hfollows => ?_⟩
    · rw [hchunks]
      exact List.isChain_pair.mpr fun _ _ => hrestarts
    · rw [hchunks] at hfollows
      have hdate := List.isChain_pair.mp hfollows hret ⟨firstDate, hread hsize, by rw [hfirst]⟩
      obtain ⟨-, hlt⟩ := passedMs_range options.readMs
      rw [hfirst] at hdate
      omega

instance (readMs : Int) (previous c : Completed) : Decidable (Follows readMs previous c) := by
  unfold Follows
  infer_instance

instance (previous c : Completed) : Decidable (NotRestarted previous c) := by
  unfold NotRestarted
  infer_instance

theorem timestamps_contiguous_twoChunks :
    ∃ log, pipeRun 1000 0 (freshPipe monoStream) twoChunks = .ok log ∧ log.chunks.length = 2 ∧
      log.chunks.IsChain (Follows 20) := by
  obtain ⟨log, hrun, hview⟩ := except_map_ok (show (pipeRun 1000 0 (freshPipe monoStream) twoChunks).map
    (fun log => (log.chunks.length, decide (log.chunks.IsChain NotRestarted))) = .ok (2, true) by
      decide +kernel)
  obtain ⟨hlength, hnot⟩ := Prod.mk.inj hview
  exact ⟨log, hrun, hlength, ((timestamps_contiguous_iff 1000 0 monoStream (by decide)).1 (by decide)
    twoChunks log (by decide) hrun).mpr (of_decide_eq_true hnot)⟩

/-- The pipe runs empty after the first chunk, and the second one comes at once: it is to be played 20 ms too
late. -/
theorem timestamps_gap :
    ¬∀ (options : StreamOptions) (events : List (PipeEvent 0)),
      (∀ event ∈ events, event.Fits 1000 options.readMs) → 0 ≤ options.readMs → ∀ log,
        pipeRun 1000 0 (freshPipe options) events = .ok log → log.chunks.IsChain (Follows options.readMs) := by
  intro hall
  obtain ⟨log, hrun, hview⟩ := except_map_ok (show (pipeRun 1000 0 (freshPipe monoStream)
    [.init (some 4), .mark .playing none, readAt 1 20, readAt 1 0, readAt 1 20]).map
      (fun log => decide (log.chunks.IsChain (Follows 20))) = .ok false by decide +kernel)
  exact of_decide_eq_false hview (hall monoStream _ (by decide) (by decide) log hrun)

end Snapcastc
