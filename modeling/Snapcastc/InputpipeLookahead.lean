import Snapcastc.InputpipeTimestamps

/-! How many chunks of an input pipe wait to be played. Nothing is read while the last date is more than 95
percent of the buffer ahead, and the dates are a chunk length apart, so the chunks that were completed at a
time and are to be played later are no more than fit in that span, and the last one. -/

namespace Snapcastc

variable {n : Nat}

/-- Points of an interval that are a step apart do not take more room than the interval and one step. -/
theorem spaced_length {points : List Int} {step lo hi : Int} (hstep : 0 ≤ step) (hrange : lo ≤ hi)
    (hspaced : points.Pairwise fun a b => a + step ≤ b) (hmem : ∀ x ∈ points, lo ≤ x ∧ x ≤ hi) :
    points.length * step ≤ hi - lo + step := by
  induction points generalizing lo with
  | nil =>
      rw [List.length_nil, Nat.cast_zero, Int.zero_mul]
      omega
  | cons x points ih =>
      obtain ⟨hbehind, hspaced⟩ := List.pairwise_cons.mp hspaced
      obtain ⟨hx, hrest⟩ := List.forall_mem_cons.mp hmem
      rw [List.length_cons, Nat.cast_succ, Int.add_mul, Int.one_mul]
      cases points with
      | nil =>
          rw [List.length_nil, Nat.cast_zero, Int.zero_mul]
          omega
      | cons y points =>
          have hy := hbehind y List.mem_cons_self
          have hyhi := (hrest y List.mem_cons_self).2
          have hcount := @ih (x + step) (hy.trans hyhi) hspaced
            fun z hz => ⟨hbehind z hz, (hrest z hz).2⟩
          omega

/-- How far ahead is read, in milliseconds: 95 percent of the buffer. -/
def lookaheadMs (bufferms : UInt16) : Nat := bufferms.toNat * 95 / 100

/-- When a chunk was completed, the dates of those before it were not more than the look-ahead away. -/
def Within (bufferms : UInt16) (log : PipeLog) : Prop :=
  log.chunks.Pairwise fun a b : Completed =>
    a.playAt.toNs ≤ b.time.toNs + (lookaheadMs bufferms : Int) * 1000000

/-- The dates of an open pipe, and how far ahead they were. -/
structure LookaheadInv (bufferms : UInt16) (readMs : Int) (log : PipeLog) : Prop where
  dates : DateInv bufferms readMs log
  within : Within bufferms log

theorem LookaheadInv.step {bufferms : UInt16} {readMs : Int} (hms : Advances readMs) (log : PipeLog)
    (event : PipeEvent n) (log' : PipeLog) (hfits : event.Fits bufferms readMs)
    (hinv : LookaheadInv bufferms readMs log) (hstep : PipeStep bufferms log event log') :
    LookaheadInv bufferms readMs log' := by
  refine ⟨hinv.dates.step hms log event log' hfits hstep, ?_⟩
  have hwithin := hinv.within
  cases hstep with
  | same => exact hwithin
  | opened => exact .nil
  | closed => exact .nil
  | read => exact hwithin
  | completed clock input encoded tasks mid chunk hopen hroom hread hcomplete hencode =>
      have hfull := (bufferFull_eq_false_iff hfits.normal hinv.dates.normal).mp hroom
      refine List.pairwise_append.mpr ⟨hwithin, List.pairwise_singleton _ _, fun a ha b hb => ?_⟩
      rw [List.mem_singleton.mp hb]
      exact (hinv.dates.before a ha).2.trans hfull
  | idle => exact hwithin
  | marked => exact hwithin

theorem LookaheadInv.run {bufferms : UInt16} {stream : Fin (n + 1)} {options : StreamOptions}
    {events : List (PipeEvent n)} {log : PipeLog} (hms : Advances options.readMs)
    (hfits : ∀ event ∈ events, event.Fits bufferms options.readMs)
    (hrun : pipeRun bufferms stream (freshPipe options) events = .ok log) :
    LookaheadInv bufferms options.readMs log :=
  pipeRun_inv (LookaheadInv.step hms) hfits ⟨.fresh bufferms options, .nil⟩ hrun

/-! ### Chunks that wait -/

/-- Chunks that were completed up to a time, with dates from that time on up to the look-ahead of it, are no
more than fit. -/
theorem waiting_length {bufferms : UInt16} {readMs : Nat} {chunks : List Completed} {now : Int}
    (hms : 0 < readMs)
    (hspaced : chunks.Pairwise fun a b =>
      a.playAt.toNs + (readMs : Int) * 1000000 ≤ b.playAt.toNs ∨ a.playAt.toNs < b.time.toNs)
    (hwaits : ∀ c ∈ chunks, c.time.toNs ≤ now ∧ now ≤ c.playAt.toNs ∧
      c.playAt.toNs ≤ now + lookaheadMs bufferms * 1000000) :
    chunks.length ≤ lookaheadMs bufferms / readMs + 1 := by
  have hapart : (chunks.map fun c => c.playAt.toNs).Pairwise
      fun a b => a + (readMs : Int) * 1000000 ≤ b := by
    refine List.pairwise_map.mpr (hspaced.imp_of_mem fun {a b} ha hb hpair => ?_)
    rcases hpair with hpair | hpassed
    · exact hpair
    · -- the clock had not passed the earlier date
      have hbefore := (hwaits a ha).2.1
      have hcompleted := (hwaits b hb).1
      omega
  have hcount := @spaced_length _ _ now (now + lookaheadMs bufferms * 1000000) (by omega) (by omega)
    hapart fun x hx => by
      obtain ⟨c, hc, rfl⟩ := List.mem_map.mp hx
      exact (hwaits c hc).2
  rw [List.length_map] at hcount
  have hmul : chunks.length * readMs ≤ lookaheadMs bufferms + readMs := by
    have hint : ((chunks.length * readMs : Nat) : Int) * 1000000 ≤
        ((lookaheadMs bufferms + readMs : Nat) : Int) * 1000000 := by
      push_cast
      calc
        (chunks.length : Int) * readMs * 1000000 = chunks.length * ((readMs : Int) * 1000000) := by ring
        _ ≤ now + lookaheadMs bufferms * 1000000 - now + (readMs : Int) * 1000000 := hcount
        _ = ((lookaheadMs bufferms : Int) + readMs) * 1000000 := by ring
    omega
  calc
    chunks.length ≤ (lookaheadMs bufferms + readMs) / readMs := (Nat.le_div_iff_mul_le hms).mpr hmul
    _ = lookaheadMs bufferms / readMs + 1 := Nat.add_div_right _ hms

/-- The chunks that were completed up to a time and are to be played later. -/
def laterChunks (log : PipeLog) (now : Timespec) : List Completed :=
  log.chunks.filter fun c => c.time.toNs ≤ now.toNs ∧ now.toNs < c.playAt.toNs

/-- Chunks that wait before one that is completed at a time no later. -/
theorem LookaheadInv.waiting_before {bufferms : UInt16} {readMs : Nat} {log : PipeLog}
    (hinv : LookaheadInv bufferms readMs log) (hms : 0 < readMs) (hlt : readMs < 2 ^ 31)
    {before : List Completed} {c : Completed} (hchunks : (before ++ [c]).Sublist log.chunks) {now : Int} (hc : c.time.toNs ≤ now)
    (hwaits : ∀ b ∈ before, b.time.toNs ≤ now ∧ now ≤ b.playAt.toNs) :
    before.length ≤ lookaheadMs bufferms / readMs + 1 := by
  have hspaced := List.Pairwise.sublist hchunks hinv.dates.spaced
  rw [passedMs_of_lt (Int.natCast_nonneg readMs) (by omega)] at hspaced
  have hwithin := List.Pairwise.sublist hchunks hinv.within
  refine @waiting_length bufferms readMs before now hms (List.pairwise_append.mp hspaced).1 fun b hb => ?_
  have hb' := (List.pairwise_append.mp hwithin).2.2 b hb c (List.mem_singleton_self c)
  obtain ⟨hcompleted, hlater⟩ := hwaits b hb
  exact ⟨hcompleted, hlater, by omega⟩

/-- Of the chunks that wait at a time, all but the last one fit in the look-ahead. -/
theorem LookaheadInv.laterChunks_length {bufferms : UInt16} {readMs : Nat} {log : PipeLog}
    (hinv : LookaheadInv bufferms readMs log) (hms : 0 < readMs) (hlt : readMs < 2 ^ 31) (now : Timespec) :
    (laterChunks log now).length ≤ lookaheadMs bufferms / readMs + 2 := by
  have hsub : (laterChunks log now).Sublist log.chunks := List.filter_sublist
  have hmem : ∀ c ∈ laterChunks log now, c.time.toNs ≤ now.toNs ∧ now.toNs < c.playAt.toNs := by
    intro c hc
    have := (List.mem_filter.mp hc).2
    simpa using this
  generalize laterChunks log now = later at hsub hmem
  induction later using List.reverseRecOn with
  | nil => exact Nat.zero_le _
  | append_singleton before c _ =>
      obtain ⟨hbefore, hc⟩ := List.forall_mem_append.mp hmem
      have hlast := (hc c (List.mem_singleton_self c)).1
      have hlength := hinv.waiting_before hms hlt hsub hlast fun b hb => ⟨(hbefore b hb).1, (hbefore b hb).2.le⟩
      rw [List.length_append, List.length_singleton]
      omega

/-! ### The look-ahead is used up -/

/-- The clock of a call does not show the first second of the epoch. -/
def PipeEvent.AfterEpoch : PipeEvent n → Prop
  | .handle clock _ _ _ => billion ≤ clock.systime.toNs
  | _ => True

theorem completed_afterEpoch {bufferms : UInt16} {stream : Fin (n + 1)} {options : StreamOptions}
    {events : List (PipeEvent n)} {log : PipeLog} (hevents : ∀ event ∈ events, event.AfterEpoch)
    (hrun : pipeRun bufferms stream (freshPipe options) events = .ok log) :
    ∀ c ∈ log.chunks, billion ≤ c.time.toNs := by
  refine @pipeRun_inv n bufferms stream (fun log => ∀ c ∈ log.chunks, billion ≤ c.time.toNs)
    PipeEvent.AfterEpoch ?_ _ _ events hevents (fun c hc => absurd hc List.not_mem_nil) hrun
  intro log event log' hevent hinv hstep
  cases hstep with
  | same => exact hinv
  | opened => exact fun c hc => absurd hc List.not_mem_nil
  | closed => exact fun c hc => absurd hc List.not_mem_nil
  | read => exact hinv
  | completed =>
      intro c hc
      rcases List.mem_append.mp hc with hc | hc
      · exact hinv c hc
      · rw [List.mem_singleton.mp hc]
        exact hevent
  | idle => exact hinv
  | marked => exact hinv

/-- The chunk that is read is completed at that time, and dated behind the one before it unless the clock
has passed that. -/
theorem wholeChunk_run {bufferms : UInt16} {readMs : Int} {stream : Fin (n + 1)} {log : PipeLog}
    {clock : ServerClock} (hms : Advances readMs) (hinv : DateInv bufferms readMs log)
    (hbetween : BetweenChunks log) (hfits : FitsClock bufferms readMs clock.systime)
    (hroom : log.playAt.toNs ≤ clock.systime.toNs + (lookaheadMs bufferms : Int) * 1000000) :
    ∃ log' c, pipeRun bufferms stream log (wholeChunk clock) = .ok log' ∧ DateInv bufferms readMs log' ∧
      BetweenChunks log' ∧ log'.chunks = log.chunks ++ [c] ∧ c.time = clock.systime ∧
        c.playAt = log'.playAt ∧
        log'.playAt.toNs = if log.playAt.toNs < clock.systime.toNs then
          clock.systime.toNs + coldStartOffsetMs.toInt * 1000000
        else log.playAt.toNs + passedMs readMs * 1000000 := by
  have hfull : bufferFull bufferms clock log.ctx = false :=
    (bufferFull_eq_false_iff hfits.normal hinv.normal).mpr hroom
  obtain ⟨mid, log', c, hrun, hwhole⟩ := @wholeChunk_completed n bufferms stream log clock hbetween hfull
  have hinv' : DateInv bufferms readMs log' :=
    pipeRun_inv (DateInv.step hms) (wholeChunk_allowed trivial fun _ => hfits) hinv hrun
  have hmidMs : mid.readMs = readMs := hwhole.readMs.trans hinv.readMs_eq
  obtain rfl := hmidMs
  have hahead : (chunkGetPlayAt (some mid.chunk)).toNs + passedMs mid.readMs * 1000000 ≤
      clock.systime.toNs + aheadMs bufferms (passedMs mid.readMs) * 1000000 := by
    rw [hwhole.playAt]
    unfold aheadMs lookaheadMs at *
    have hnonneg := hms.nonneg
    omega
  obtain ⟨-, hreset, hgoesOn, hret⟩ :=
    finishChunk_finished hms hfits (hwhole.playAt ▸ hinv.normal) hahead hwhole.complete
  refine ⟨log', c, hrun, hinv', hwhole.between, hwhole.chunks, hwhole.time, hwhole.date, ?_⟩
  rw [hwhole.dated, ← hwhole.playAt]
  rcases hret with hret | hret
  · obtain ⟨hontime, hsum⟩ := hgoesOn hret
    rw [if_neg (not_lt.mpr hontime), hsum]
  · obtain ⟨hlate, hsum⟩ := hreset hret
    rw [if_pos hlate, hsum]

/-- As long as the last date is not too far ahead, chunk after chunk can be read at one time. -/
theorem wholeChunks_run {bufferms : UInt16} {readMs : Int} {stream : Fin (n + 1)} {clock : ServerClock}
    (hms : 0 < passedMs readMs) (hfits : FitsClock bufferms readMs clock.systime) (count : Nat) {log : PipeLog}
    (hinv : DateInv bufferms readMs log) (hbetween : BetweenChunks log)
    (hontime : clock.systime.toNs ≤ log.playAt.toNs)
    (hroom : ∀ i < count, log.playAt.toNs + i * (passedMs readMs * 1000000) ≤
      clock.systime.toNs + (lookaheadMs bufferms : Int) * 1000000) :
    ∃ log' rest, pipeRun bufferms stream log (List.replicate count (wholeChunk clock)).flatten = .ok log' ∧
      log'.chunks = log.chunks ++ rest ∧ rest.length = count ∧
        ∀ c ∈ rest, c.time = clock.systime ∧ c.time.toNs < c.playAt.toNs := by
  have hadvances : Advances readMs := ⟨hms.le, fun hzero => absurd hzero hms.ne'⟩
  induction count generalizing log with
  | zero => exact ⟨log, [], rfl, (List.append_nil _).symm, rfl, fun c hc => absurd hc List.not_mem_nil⟩
  | succ count ih =>
      have hfirst := hroom 0 (Nat.succ_pos count)
      rw [Nat.cast_zero, Int.zero_mul, Int.add_zero] at hfirst
      obtain ⟨log₁, c, hrun, hinv₁, hbetween₁, hchunks, htime, hplayAt, hdate⟩ :=
        @wholeChunk_run n bufferms readMs stream log clock hadvances hinv hbetween hfits hfirst
      rw [if_neg (not_lt.mpr hontime)] at hdate
      obtain ⟨log', rest, hrest, hall, hlength, hmem⟩ := ih hinv₁ hbetween₁ (by omega) fun i hi => by
        have hnext := hroom (i + 1) (by omega)
        rw [Nat.cast_succ, Int.add_mul, Int.one_mul] at hnext
        omega
      refine ⟨log', c :: rest, ?_, ?_, ?_, ?_⟩
      · rw [List.replicate_succ, List.flatten_cons, pipeRun_append hrun]
        exact hrest
      · rw [hall, hchunks, List.append_assoc]
        rfl
      · rw [List.length_cons, hlength]
      · refine List.forall_mem_cons.mpr ⟨⟨htime, ?_⟩, hmem⟩
        rw [htime, hplayAt]
        omega

/-- A mono stream with chunks of so many milliseconds, and as many bytes. -/
def streamOf (readMs : Nat) : StreamOptions := ⟨[97], readMs, 1000, 1, 1⟩

/-- A run that reads as far ahead as it can. -/
def usedUpEvents (n : Nat) (count : Nat) : List (PipeEvent n) :=
  firstChunk n ++ (List.replicate count (wholeChunk ⟨firstDate, firstDate⟩)).flatten

theorem usedUpEvents_fit {bufferms : UInt16} {readMs : Nat} (count : Nat) :
    ∀ event ∈ usedUpEvents n count, event.Fits bufferms readMs ∧ event.AfterEpoch := by
  obtain ⟨hfirst, hothers⟩ := @firstDate_fits bufferms readMs
  have hwhole : ∀ clock : ServerClock, FitsClock bufferms readMs clock.systime →
      billion ≤ clock.systime.toNs →
      ∀ event ∈ (wholeChunk clock : List (PipeEvent n)), event.Fits bufferms readMs ∧ event.AfterEpoch :=
    fun _ hclock hepoch => wholeChunk_allowed ⟨trivial, trivial⟩ fun _ => ⟨hclock, hepoch⟩
  refine List.forall_mem_append.mpr ⟨List.forall_mem_cons.mpr ⟨⟨trivial, trivial⟩, ?_⟩, ?_⟩
  · exact hwhole ⟨firstRead, firstRead⟩ hfirst (by decide)
  · intro event hevent
    obtain ⟨events, hevents, hmem⟩ := List.mem_flatten.mp hevent
    rw [List.eq_of_mem_replicate hevents] at hmem
    exact hwhole ⟨firstDate, firstDate⟩ hothers (by decide) event hmem

/-- One chunk is completed at the first time, and at its date as many as fit in the look-ahead, rounded down,
and another one. -/
theorem lookahead_usedUp {bufferms : UInt16} {readMs : Nat} (hms : 0 < readMs) (hlt : readMs < 2 ^ 31)
    (stream : Fin (n + 1)) :
    ∃ log first rest, pipeRun bufferms stream (freshPipe (streamOf readMs))
        (usedUpEvents n (lookaheadMs bufferms / readMs + 1)) = .ok log ∧ log.chunks = first :: rest ∧
      rest.length = lookaheadMs bufferms / readMs + 1 ∧ first.time = firstRead ∧
      first.playAt.toNs = firstDate.toNs ∧
        ∀ c ∈ rest, c.time = firstDate ∧ c.time.toNs < c.playAt.toNs := by
  obtain ⟨-, hfitsOthers⟩ := @firstDate_fits bufferms readMs
  have hpassed : passedMs readMs = readMs := passedMs_of_lt (Int.natCast_nonneg readMs) (by omega)
  obtain ⟨log₁, first, hrun₁, hlog₁⟩ := firstChunk_run bufferms stream (streamOf readMs)
  have hadvances : Advances readMs := .of_lt (Int.natCast_nonneg readMs) (by omega)
  have hinv₁ : DateInv bufferms readMs log₁ := @DateInv.run n bufferms stream (streamOf readMs) _ _ hadvances
    firstChunk_fits hrun₁
  have hfirst : log₁.playAt.toNs = firstDate.toNs := congrArg Timespec.toNs hlog₁.playAt
  obtain ⟨log, rest, hrun, hchunks, hlength, hmem⟩ := @wholeChunks_run n bufferms readMs stream
    ⟨firstDate, firstDate⟩ (by omega) hfitsOthers
      (lookaheadMs bufferms / readMs + 1) log₁ hinv₁ hlog₁.between hfirst.ge fun i hi => by
        have hle : i * readMs ≤ lookaheadMs bufferms :=
          (Nat.mul_le_mul_right readMs (Nat.lt_succ_iff.mp hi)).trans (Nat.div_mul_le_self _ _)
        have hint : (i : Int) * readMs ≤ lookaheadMs bufferms := by exact_mod_cast hle
        rw [hfirst, hpassed]
        dsimp only
        calc
          firstDate.toNs + (i : Int) * ((readMs : Int) * 1000000)
              = firstDate.toNs + (i : Int) * readMs * 1000000 := by ring
          _ ≤ firstDate.toNs + (lookaheadMs bufferms : Int) * 1000000 := by omega
  refine ⟨log, first, rest, ?_, ?_, hlength, hlog₁.time, congrArg Timespec.toNs hlog₁.date, hmem⟩
  · rw [usedUpEvents, pipeRun_append hrun₁]
    exact hrun
  · rw [hchunks, hlog₁.chunks]
    rfl

end Snapcastc
