import Snapcastc.ServerLoop

/-! One input pipe over time: it is opened and closed, `inputpipe_handle` reads from it, and it is set idle.
What is read and the chunks that are completed are written down. -/

namespace Snapcastc

variable {n : Nat}

/-- What a call of `inputpipe_handle` reads. -/
def readBytes (bufferms : UInt16) (clock : ServerClock) (input : Option (List UInt8))
    (ctx : InputpipeCtx) : List UInt8 :=
  if bufferFull bufferms clock ctx then []
  else (input.map (List.take (ctx.chunksize.toNat - ctx.dataRead))).getD []

/-- The context after a call has read the bytes, but for the state and the task that sets the pipe idle. -/
structure ReadCtx (clock : ServerClock) (bytes : List UInt8) (ctx ctx' : InputpipeCtx) : Prop where
  dataRead : ctx'.dataRead = ctx.dataRead + bytes.length
  data : ctx'.chunk.data = ctx.chunk.data.take ctx.dataRead ++ bytes ++
    ctx.chunk.data.drop (ctx.dataRead + bytes.length)
  playAt : chunkGetPlayAt (some ctx'.chunk) = if ctx.state = .idle ∧ bytes ≠ [] then
    chunkGetPlayAt (some (withPlayAt ctx.chunk (startPlayingAt clock ctx))) else chunkGetPlayAt (some ctx.chunk)
  chunksize : ctx'.chunksize = ctx.chunksize
  readMs : ctx'.readMs = ctx.readMs
  format : ctx'.samplesize = ctx.samplesize ∧ ctx'.channels = ctx.channels
  initialized : ctx'.initialized = ctx.initialized

/-- Nothing was read. -/
theorem ReadCtx.of_nil {clock : ServerClock} {ctx ctx' : InputpipeCtx} (hdata : ctx'.dataRead = ctx.dataRead)
    (hchunk : ctx'.chunk = ctx.chunk) (hchunksize : ctx'.chunksize = ctx.chunksize)
    (hreadMs : ctx'.readMs = ctx.readMs)
    (hformat : ctx'.samplesize = ctx.samplesize ∧ ctx'.channels = ctx.channels)
    (hinitialized : ctx'.initialized = ctx.initialized) : ReadCtx clock [] ctx ctx' where
  dataRead := hdata
  data := by
    rw [hchunk, List.append_nil, List.length_nil, Nat.add_zero, List.take_append_drop]
  playAt := by
    rw [if_neg fun h => h.2 rfl, hchunk]
  chunksize := hchunksize
  readMs := hreadMs
  format := hformat
  initialized := hinitialized

theorem readInput_ctx {bufferms : UInt16} {clock : ServerClock} {stream : Fin (n + 1)}
    {input : Option (List UInt8)} {ctx ctx' : InputpipeCtx} {tasks tasks' : TaskPool (ServerTask n)}
    (hroom : bufferFull bufferms clock ctx = false)
    (hrun : readInput bufferms clock stream input ctx tasks = .ok (ctx', tasks')) :
    ReadCtx clock (readBytes bufferms clock input ctx) ctx ctx' := by
  rw [readBytes, hroom, if_neg Bool.false_ne_true]
  unfold readInput at hrun
  split at hrun
  · rename_i hnone
    cases hrun
    rw [hnone]
    exact .of_nil rfl rfl rfl rfl ⟨rfl, rfl⟩ rfl
  · rename_i hnil
    cases hrun
    rw [hnil]
    exact .of_nil rfl rfl rfl rfl ⟨rfl, rfl⟩ rfl
  · rename_i bytes hne hbytes
    rw [hbytes, Option.getD_some]
    split_ifs at hrun with hidle
    · cases hrun
      exact ⟨rfl, rfl, by rw [if_pos ⟨hidle, hne⟩]; rfl, rfl, rfl, ⟨rfl, rfl⟩, rfl⟩
    · obtain ⟨tasks₁, -, hrun⟩ := except_bind_ok hrun
      cases hrun
      exact ⟨rfl, rfl, by rw [if_neg fun h => hidle h.1]; rfl, rfl, rfl, ⟨rfl, rfl⟩, rfl⟩

/-- What a call of `inputpipe_handle` does to the context: nothing if enough was read ahead, and otherwise
it reads, and dates the chunk if that is complete. -/
theorem inputpipeHandle_cases {bufferms : UInt16} {clock : ServerClock} {stream : Fin (n + 1)}
    {input : Option (List UInt8)} {ctx ctx' : InputpipeCtx} {ret : Int}
    {tasks tasks' : TaskPool (ServerTask n)}
    (hrun : inputpipeHandle bufferms clock stream input ctx tasks = .ok (ret, ctx', tasks')) :
    bufferFull bufferms clock ctx = true ∧ ret = -1 ∧ ctx' = ctx ∨
      bufferFull bufferms clock ctx = false ∧ ∃ mid,
        ReadCtx clock (readBytes bufferms clock input ctx) ctx mid ∧ finishChunk clock mid = (ret, ctx') := by
  unfold inputpipeHandle at hrun
  split_ifs at hrun with hfull
  · cases hrun
    exact .inl ⟨hfull, rfl, rfl⟩
  · obtain ⟨⟨mid, tasks₁⟩, hread, hrun⟩ := except_bind_ok hrun
    cases hrun
    have hroom := Bool.eq_false_iff.mpr hfull
    exact .inr ⟨hroom, mid, readInput_ctx hroom hread, rfl⟩

/-! ### Runs -/

/-- A chunk that was completed, with the time of the call and its result. `start` is the place of its first
byte among the bytes that were read, and `dropped` the number of bytes that had been thrown away;
`restarts` says how often playing had started anew since the chunk before it, and `first` when its first
bytes were read. -/
structure Completed where
  time : Timespec
  ret : Int
  chunk : PcmChunk
  start : Nat
  dropped : Nat
  restarts : Nat
  first : Option Timespec

def Completed.playAt (completed : Completed) : Timespec := chunkGetPlayAt (some completed.chunk)

/-- An input pipe, and what has happened since it was opened, which the program does not keep. -/
structure PipeLog where
  ctx : InputpipeCtx
  bytes : List UInt8
  dropped : Nat
  restarts : Nat
  first : Option Timespec
  chunks : List Completed

/-- When the chunk that is being filled is to be played, so far. -/
def PipeLog.playAt (log : PipeLog) : Timespec := chunkGetPlayAt (some log.ctx.chunk)

/-- What can happen to an input pipe. The tasks that are queued at that time can be any. `encoded` is what
the encoder makes of a chunk if one is completed and encoded, and `mark` stands for the changes of the
state by the main loop and by `inputpipe_resume_read`. -/
inductive PipeEvent (n : Nat) where
  | init (opened : Option Nat)
  | uninit (tasks : TaskPool (ServerTask n))
  | handle (clock : ServerClock) (input : Option (List UInt8)) (encoded : Option (Int × List UInt8))
      (tasks : TaskPool (ServerTask n))
  | setIdle (tasks : TaskPool (ServerTask n))
  | mark (state : InputpipeState) (resumeTask : Option Nat)

/-- What is written down about bytes that are read. -/
def PipeLog.read (log : PipeLog) (clock : ServerClock) (bytes : List UInt8) : PipeLog :=
  { log with
    bytes := log.bytes ++ bytes
    restarts := if log.ctx.state = .idle ∧ bytes ≠ [] then log.restarts + 1 else log.restarts
    first := if log.ctx.dataRead = 0 ∧ bytes ≠ [] then some clock.systime else log.first }

/-- What is written down about a chunk that is completed. -/
def PipeLog.complete (log : PipeLog) (clock : ServerClock) (ret : Int) (ctx : InputpipeCtx) : PipeLog :=
  { log with
    ctx
    restarts := 0
    first := none
    chunks := log.chunks ++ [⟨clock.systime, ret, ctx.chunk, log.bytes.length - ctx.chunksize.toNat,
      log.dropped, log.restarts, log.first⟩] }

/-- A chunk after it was completed: the main loop has it encoded in place. -/
def encodeCompleted (encoded : Option (Int × List UInt8)) (chunk : PcmChunk) : Except Fault PcmChunk :=
  match encoded with
  | none => pure chunk
  | some encoded => encodeOpusHandle encoded chunk

/-- The pipe after an event. Only a pipe that is open is read from. -/
def pipeStep (bufferms : UInt16) (stream : Fin (n + 1)) (log : PipeLog) :
    PipeEvent n → Except Fault PipeLog
  | .init opened => do
      let ctx ← inputpipeInit opened log.ctx
      pure ⟨ctx, [], 0, 0, none, []⟩
  | .uninit tasks => do
      let (ctx, _) ← setIdle log.ctx tasks
      pure ⟨{ ctx with chunk := chunkFreeMembers ctx.chunk, initialized := false }, [], 0, 0, none, []⟩
  | .handle clock input encoded tasks =>
      if log.ctx.initialized then do
        let (ret, ctx, _) ← inputpipeHandle bufferms clock stream input log.ctx tasks
        let log := log.read clock (readBytes bufferms clock input log.ctx)
        if ret > 0 then do
          let chunk ← encodeCompleted encoded ctx.chunk
          pure { log.complete clock ret ctx with ctx := { ctx with chunk } }
        else pure { log with ctx }
      else pure log
  | .setIdle tasks => do
      let (ctx, _) ← setIdle log.ctx tasks
      pure { log with ctx, dropped := log.dropped + log.ctx.dataRead }
  | .mark state resumeTask => pure { log with ctx := { log.ctx with state, resumeTask } }

/-- The pipe after a sequence of events, or how one of them has ended the process. -/
def pipeRun (bufferms : UInt16) (stream : Fin (n + 1)) : PipeLog → List (PipeEvent n) → Except Fault PipeLog
  | log, [] => pure log
  | log, event :: events => do
      let log ← pipeStep bufferms stream log event
      pipeRun bufferms stream log events

/-! ### What an event does -/

inductive PipeStep (bufferms : UInt16) (log : PipeLog) : PipeEvent n → PipeLog → Prop
  | same (event : PipeEvent n) : PipeStep bufferms log event log
  | opened (opened : Option Nat) (ctx : InputpipeCtx) : inputpipeInit opened log.ctx = .ok ctx →
      PipeStep bufferms log (.init opened) ⟨ctx, [], 0, 0, none, []⟩
  | closed (tasks : TaskPool (ServerTask n)) (idleTask : Option Nat) :
      PipeStep bufferms log (.uninit tasks) ⟨{ log.ctx with
        state := .idle
        idleTask
        dataRead := 0
        chunk := chunkFreeMembers log.ctx.chunk
        initialized := false }, [], 0, 0, none, []⟩
  | read (clock : ServerClock) (input : Option (List UInt8)) (encoded : Option (Int × List UInt8))
      (tasks : TaskPool (ServerTask n)) (mid : InputpipeCtx) : log.ctx.initialized = true →
      bufferFull bufferms clock log.ctx = false →
      ReadCtx clock (readBytes bufferms clock input log.ctx) log.ctx mid → isChunkComplete mid = false →
      PipeStep bufferms log (.handle clock input encoded tasks)
        { log.read clock (readBytes bufferms clock input log.ctx) with ctx := mid }
  | completed (clock : ServerClock) (input : Option (List UInt8)) (encoded : Option (Int × List UInt8))
      (tasks : TaskPool (ServerTask n)) (mid : InputpipeCtx) (chunk : PcmChunk) :
      log.ctx.initialized = true → bufferFull bufferms clock log.ctx = false →
      ReadCtx clock (readBytes bufferms clock input log.ctx) log.ctx mid → isChunkComplete mid = true →
      encodeCompleted encoded (finishChunk clock mid).2.chunk = .ok chunk →
      PipeStep bufferms log (.handle clock input encoded tasks)
        { (log.read clock (readBytes bufferms clock input log.ctx)).complete clock (finishChunk clock mid).1
            (finishChunk clock mid).2 with ctx := { (finishChunk clock mid).2 with chunk } }
  | idle (tasks : TaskPool (ServerTask n)) (idleTask : Option Nat) :
      PipeStep bufferms log (.setIdle tasks) { log with
        ctx := { log.ctx with state := .idle, idleTask, dataRead := 0 }
        dropped := log.dropped + log.ctx.dataRead }
  | marked (state : InputpipeState) (resumeTask : Option Nat) :
      PipeStep bufferms log (.mark state resumeTask) { log with ctx := { log.ctx with state, resumeTask } }

theorem PipeLog.read_nil (log : PipeLog) (clock : ServerClock) : log.read clock [] = log := by
  simp [PipeLog.read]

theorem finishChunk_incomplete {clock : ServerClock} {mid : InputpipeCtx}
    (hcomplete : isChunkComplete mid = false) : finishChunk clock mid = (0, mid) := by
  rw [finishChunk, hcomplete, if_neg Bool.false_ne_true]

theorem finishChunk_ret_pos {clock : ServerClock} {mid : InputpipeCtx}
    (hcomplete : isChunkComplete mid = true) : 0 < (finishChunk clock mid).1 := by
  rw [finishChunk, if_pos hcomplete]
  dsimp only
  split_ifs
  · decide
  · decide

theorem pipeStep_spec {bufferms : UInt16} {stream : Fin (n + 1)} {log log' : PipeLog} {event : PipeEvent n}
    (hrun : pipeStep bufferms stream log event = .ok log') : PipeStep bufferms log event log' := by
  cases event with
  | init opened =>
      obtain ⟨ctx, hinit, hrun⟩ := except_bind_ok hrun
      cases hrun
      exact .opened opened ctx hinit
  | uninit tasks =>
      obtain ⟨⟨ctx, tasks'⟩, hidle, hrun⟩ := except_bind_ok hrun
      cases hrun
      obtain ⟨tasks₁, -, hidle⟩ := except_bind_ok hidle
      cases hidle
      exact .closed tasks _
  | handle clock input encoded tasks =>
      unfold pipeStep at hrun
      dsimp only at hrun
      split_ifs at hrun with hopen
      · obtain ⟨⟨ret, ctx, tasks'⟩, hhandle, hrun⟩ := except_bind_ok hrun
        dsimp only at hrun
        rcases inputpipeHandle_cases hhandle with ⟨hfull, rfl, rfl⟩ | ⟨hroom, mid, hread, hfinish⟩
        · rw [if_neg (by decide), readBytes, if_pos hfull, PipeLog.read_nil] at hrun
          cases hrun
          exact .same _
        · cases hcomplete : isChunkComplete mid with
          | false =>
              rw [finishChunk_incomplete hcomplete] at hfinish
              obtain ⟨rfl, rfl⟩ := Prod.mk.inj hfinish
              rw [if_neg (by decide)] at hrun
              cases hrun
              exact .read clock input encoded tasks _ hopen hroom hread hcomplete
          | true =>
              obtain rfl : (finishChunk clock mid).1 = ret := congrArg Prod.fst hfinish
              obtain rfl : (finishChunk clock mid).2 = ctx := congrArg Prod.snd hfinish
              rw [if_pos (finishChunk_ret_pos hcomplete)] at hrun
              obtain ⟨chunk, hencode, hrun⟩ := except_bind_ok hrun
              cases hrun
              exact .completed clock input encoded tasks mid chunk hopen hroom hread hcomplete hencode
      · cases hrun
        exact .same _
  | setIdle tasks =>
      obtain ⟨⟨ctx, tasks'⟩, hidle, hrun⟩ := except_bind_ok hrun
      cases hrun
      obtain ⟨tasks₁, -, hidle⟩ := except_bind_ok hidle
      cases hidle
      exact .idle tasks _
  | mark state resumeTask =>
      cases hrun
      exact .marked state resumeTask

/-- A pipe as `main` sets it up. -/
def freshPipe (options : StreamOptions) : PipeLog := ⟨(freshStream options).inputpipe, [], 0, 0, none, []⟩

/-- What holds at first and is kept by every event that is allowed holds after every run of such events. -/
theorem pipeRun_inv {bufferms : UInt16} {stream : Fin (n + 1)} {inv : PipeLog → Prop}
    {allowed : PipeEvent n → Prop}
    (hstep : ∀ log event log', allowed event → inv log → PipeStep bufferms log event log' → inv log')
    {log log' : PipeLog} {events : List (PipeEvent n)} (hevents : ∀ event ∈ events, allowed event)
    (hinv : inv log) (hrun : pipeRun bufferms stream log events = .ok log') : inv log' := by
  induction events generalizing log with
  | nil =>
      cases hrun
      exact hinv
  | cons event events ih =>
      obtain ⟨log₁, hfirst, hrun⟩ := except_bind_ok hrun
      obtain ⟨hevent, hrest⟩ := List.forall_mem_cons.mp hevents
      exact ih hrest (hstep log event log₁ hevent hinv (pipeStep_spec hfirst)) hrun

theorem inputpipeInit_ctx {opened : Option Nat} {ctx ctx' : InputpipeCtx}
    (hrun : inputpipeInit opened ctx = .ok ctx') :
    chunkGetPlayAt (some ctx'.chunk) = chunkGetPlayAt (some ctx.chunk) ∧ ctx'.readMs = ctx.readMs ∧
      ctx'.chunksize = UInt16.ofInt ((ctx.samples * ctx.channels * ctx.samplesize * ctx.readMs).tdiv 1000) ∧
        ctx'.chunk.data.length = ctx'.chunksize.toNat ∧ ctx'.dataRead = 0 := by
  cases opened with
  | none => cases hrun
  | some fd =>
      cases hrun
      exact ⟨rfl, rfl, rfl, List.length_replicate, rfl⟩

theorem finishChunk_fields (clock : ServerClock) (mid : InputpipeCtx) :
    (finishChunk clock mid).2.readMs = mid.readMs ∧ (finishChunk clock mid).2.chunksize = mid.chunksize ∧
      (finishChunk clock mid).2.samplesize = mid.samplesize ∧
        (finishChunk clock mid).2.channels = mid.channels := by
  unfold finishChunk
  dsimp only
  split_ifs
  · exact ⟨rfl, rfl, rfl, rfl⟩
  · exact ⟨rfl, rfl, rfl, rfl⟩
  · exact ⟨rfl, rfl, rfl, rfl⟩

theorem finishChunk_reset {clock : ServerClock} {mid : InputpipeCtx} (hcomplete : isChunkComplete mid = true) :
    (finishChunk clock mid).2.initialized = mid.initialized ∧ (finishChunk clock mid).2.dataRead = 0 ∧
      (finishChunk clock mid).2.idleTask = mid.idleTask := by
  rw [finishChunk, if_pos hcomplete]
  exact ⟨rfl, rfl, rfl⟩

/-- The encoder does not change when a chunk is to be played. -/
theorem encodeCompleted_playAt {encoded : Option (Int × List UInt8)} {chunk chunk' : PcmChunk}
    (hrun : encodeCompleted encoded chunk = .ok chunk') :
    chunkGetPlayAt (some chunk') = chunkGetPlayAt (some chunk) := by
  cases encoded with
  | none =>
      cases hrun
      rfl
  | some encoded =>
      unfold encodeCompleted encodeOpusHandle at hrun
      dsimp only at hrun
      split_ifs at hrun
      cases hrun
      rfl

/-- A pipe that is open, between two chunks, and is not going to be set idle. -/
structure BetweenChunks (log : PipeLog) : Prop where
  opened : log.ctx.initialized = true
  dataRead : log.ctx.dataRead = 0
  idleTask : log.ctx.idleTask = none

/-- At a time, the main loop reads a whole chunk from the pipe. -/
def wholeChunk (clock : ServerClock) : List (PipeEvent n) :=
  [.mark .playing none, .handle clock (some (List.replicate 65536 7)) none .empty]

theorem wholeChunk_allowed {clock : ServerClock} {allowed : PipeEvent n → Prop}
    (hmark : allowed (.mark .playing none))
    (hhandle : ∀ input, allowed (.handle clock (some input) none .empty)) :
    ∀ event ∈ wholeChunk clock, allowed event :=
  List.forall_mem_cons.mpr ⟨hmark, List.forall_mem_singleton.mpr (hhandle _)⟩

theorem readInput_whole {bufferms : UInt16} {clock : ServerClock} {stream : Fin (n + 1)} {ctx : InputpipeCtx}
    (hstate : ctx.state = .playing) (hidleTask : ctx.idleTask = none) (hread : ctx.dataRead = 0) :
    ∃ mid tasks, readInput bufferms clock stream (some (List.replicate 65536 7)) ctx .empty =
      .ok (mid, tasks) ∧ mid.initialized = ctx.initialized ∧ mid.idleTask = none ∧
        mid.dataRead = ctx.chunksize.toNat ∧ mid.chunksize = ctx.chunksize := by
  have hlt := ctx.chunksize.toNat_lt
  have htake : (List.replicate 65536 (7 : UInt8)).take (ctx.chunksize.toNat - ctx.dataRead) =
      List.replicate ctx.chunksize.toNat 7 := by
    rw [hread, List.take_replicate, Nat.sub_zero, Nat.min_eq_left (by omega)]
  unfold readInput
  rw [Option.map_some, htake]
  cases hsize : ctx.chunksize.toNat with
  | zero => exact ⟨_, _, rfl, rfl, hidleTask, hread, rfl⟩
  | succ size =>
      rw [List.replicate_succ]
      dsimp only
      rw [if_neg (by rw [hstate]; decide), hidleTask]
      refine ⟨_, _, rfl, rfl, hidleTask, ?_, rfl⟩
      change ctx.dataRead + (7 :: List.replicate size (7 : UInt8)).length = size + 1
      rw [hread, List.length_cons, List.length_replicate, Nat.zero_add]

/-- What such a call does, with the context before the chunk is dated. -/
structure WholeChunk (clock : ServerClock) (log : PipeLog) (mid : InputpipeCtx) (log' : PipeLog) (c : Completed) :
    Prop where
  complete : isChunkComplete mid = true
  playAt : chunkGetPlayAt (some mid.chunk) = log.playAt
  readMs : mid.readMs = log.ctx.readMs
  between : BetweenChunks log'
  same : log'.ctx.readMs = log.ctx.readMs ∧ log'.ctx.chunksize = log.ctx.chunksize
  chunks : log'.chunks = log.chunks ++ [c]
  restarts : log'.restarts = 0 ∧ c.restarts = log.restarts
  time : c.time = clock.systime
  ret : c.ret = (finishChunk clock mid).1
  date : c.playAt = log'.playAt
  dated : log'.playAt = chunkGetPlayAt (some (finishChunk clock mid).2.chunk)
  first : log.ctx.chunksize ≠ 0 → c.first = some clock.systime

theorem wholeChunk_completed {bufferms : UInt16} {stream : Fin (n + 1)} {log : PipeLog} {clock : ServerClock}
    (hbetween : BetweenChunks log) (hroom : bufferFull bufferms clock log.ctx = false) :
    ∃ mid log' c, pipeRun bufferms stream log (wholeChunk clock) = .ok log' ∧
      WholeChunk clock log mid log' c := by
  obtain ⟨ctx, hctx⟩ : ∃ ctx, ctx = { log.ctx with state := .playing, resumeTask := none } := ⟨_, rfl⟩
  have hstate : ctx.state = .playing := by rw [hctx]
  have hopen : ctx.initialized = true := by rw [hctx]; exact hbetween.opened
  have hidleTask : ctx.idleTask = none := by rw [hctx]; exact hbetween.idleTask
  have hread : ctx.dataRead = 0 := by rw [hctx]; exact hbetween.dataRead
  have hdate : chunkGetPlayAt (some ctx.chunk) = log.playAt := by rw [hctx]; rfl
  have hfull : bufferFull bufferms clock ctx = false := by rw [hctx]; exact hroom
  obtain ⟨mid, tasks, hinput, hinit, hidle, hmid, hsize⟩ :=
    @readInput_whole n bufferms clock stream ctx hstate hidleTask hread
  have hafter := readInput_ctx hfull hinput
  have hcomplete : isChunkComplete mid = true := by
    rw [isChunkComplete, hmid, hsize]
    exact beq_self_eq_true _
  have hhandle : inputpipeHandle bufferms clock stream (some (List.replicate 65536 7)) ctx .empty =
      .ok ((finishChunk clock mid).1, (finishChunk clock mid).2, tasks) := by
    unfold inputpipeHandle
    rw [hfull, if_neg Bool.false_ne_true, hinput, except_ok_bind]
    rfl
  obtain ⟨bytes, hbytes⟩ : ∃ bytes, bytes = readBytes bufferms clock (some (List.replicate 65536 7)) ctx :=
    ⟨_, rfl⟩
  rw [← hbytes] at hafter
  obtain ⟨log', hlog'⟩ : ∃ log', log' = (({ log with ctx := ctx } : PipeLog).read clock bytes).complete clock
      (finishChunk clock mid).1 (finishChunk clock mid).2 := ⟨_, rfl⟩
  have hrun : pipeRun bufferms stream log (wholeChunk clock) = .ok log' := by
    have hstep : pipeStep bufferms stream { log with ctx := ctx }
        (.handle clock (some (List.replicate 65536 7)) none .empty) = .ok log' := by
      unfold pipeStep
      dsimp only
      rw [if_pos hopen, hhandle, except_ok_bind]
      dsimp only
      rw [if_pos (finishChunk_ret_pos hcomplete), ← hbytes, hlog']
      rfl
    rw [wholeChunk, pipeRun, pipeStep, ← hctx]
    change pipeRun bufferms stream { log with ctx := ctx } _ = _
    rw [pipeRun, hstep, except_ok_bind]
    rfl
  obtain ⟨hfinishMs, hfinishSize, -, -⟩ := finishChunk_fields clock mid
  obtain ⟨hfinishOpen, hfinishRead, hfinishIdle⟩ := @finishChunk_reset clock mid hcomplete
  have hlogMs : ctx.readMs = log.ctx.readMs := by rw [hctx]
  have hlogSize : ctx.chunksize = log.ctx.chunksize := by rw [hctx]
  obtain rfl := hlog'
  refine ⟨mid, _, _, hrun, hcomplete, ?_, hafter.readMs.trans hlogMs, ?_, ?_, rfl, ⟨rfl, ?_⟩, rfl, rfl, rfl, rfl,
    fun hpos => ?_⟩
  · rw [hafter.playAt, if_neg, hdate]
    rw [hstate]
    exact fun h => absurd h.1 (by decide)
  · exact ⟨hfinishOpen.trans (hinit.trans hopen), hfinishRead, hfinishIdle.trans hidle⟩
  · exact ⟨hfinishMs.trans (hafter.readMs.trans hlogMs), hfinishSize.trans (hafter.chunksize.trans hlogSize)⟩
  · change (if ctx.state = .idle ∧ bytes ≠ [] then log.restarts + 1 else log.restarts) = _
    rw [if_neg]
    rw [hstate]
    exact fun h => absurd h.1 (by decide)
  · change (if ctx.dataRead = 0 ∧ bytes ≠ [] then some clock.systime else log.first) = _
    rw [if_pos]
    refine ⟨hread, ?_⟩
    rintro rfl
    have hlength := hafter.dataRead
    rw [hmid, hread, hlogSize] at hlength
    exact hpos (UInt16.toNat_inj.mp hlength)

theorem pipeRun_append {bufferms : UInt16} {stream : Fin (n + 1)} {log log' : PipeLog}
    {events more : List (PipeEvent n)} (hrun : pipeRun bufferms stream log events = .ok log') :
    pipeRun bufferms stream log (events ++ more) = pipeRun bufferms stream log' more := by
  induction events generalizing log with
  | nil =>
      cases hrun
      rfl
  | cons event events ih =>
      obtain ⟨log₁, hfirst, hrest⟩ := except_bind_ok hrun
      rw [List.cons_append, pipeRun, hfirst, except_ok_bind]
      exact ih hrest

/-- A call at a time at which the pipe offers a number of bytes. -/
def readAt (time : Int) (bytes : Nat) : PipeEvent 0 :=
  .handle ⟨⟨time, 0⟩, ⟨time, 0⟩⟩ (some (List.replicate bytes 7)) none .empty

end Snapcastc
