import Snapcastc.Pcmchunk
import Snapcastc.Tasks

/-! The input pipes of the server (`inputpipe.c`): what is read from a pipe and when it is to be played,
and the tasks that belong to a pipe. The streams are numbered; a task knows the number of its stream. -/

namespace Snapcastc

def coldStartOffsetMs : Int32 := 100

/-- The tasks of a server with `n + 1` streams. -/
inductive ServerTask (n : Nat) where
  | scheduleDeleteClient (id : UInt16)
  | inputpipeResumeRead (stream : Fin (n + 1))
  | setIdle (stream : Fin (n + 1))
  | removeOldAudiodata (stream : Fin (n + 1))
  deriving DecidableEq, Repr

/-- `enum inputpipe_state`. -/
inductive InputpipeState where
  | idle
  | playing
  | throttle
  deriving DecidableEq, Repr

/-- `inputpipe_ctx`, less the name of the file. -/
structure InputpipeCtx where
  chunk : PcmChunk
  state : InputpipeState
  dataRead : Nat
  readMs : Int
  samples : Int
  samplesize : Int
  channels : Int
  fd : Nat
  chunksize : UInt16
  initialized : Bool
  resumeTask : Option Nat
  idleTask : Option Nat
  deriving DecidableEq

/-- The clock readings of one call: the system time and the monotonic time. -/
structure ServerClock where
  systime : Timespec
  uptime : Timespec
  deriving DecidableEq, Repr

def withPlayAt (chunk : PcmChunk) (playAt : Timespec) : PcmChunk :=
  { chunk with
    playAtTvSec := UInt32.ofInt playAt.tvSec
    playAtTvNsec := UInt32.ofInt playAt.tvNsec }

def isChunkComplete (ctx : InputpipeCtx) : Bool := ctx.chunksize.toNat == ctx.dataRead

section

variable {n : Nat}

def setIdle (ctx : InputpipeCtx) (tasks : TaskPool (ServerTask n)) :
    Except Fault (InputpipeCtx × TaskPool (ServerTask n)) := do
  let tasks ← tasks.dropHandle ctx.idleTask
  pure ({ ctx with state := .idle, idleTask := none, dataRead := 0 }, tasks)

/-- The test of `inputpipe_handle` whether enough was read ahead. -/
def bufferFull (bufferms : UInt16) (clock : ServerClock) (ctx : InputpipeCtx) : Bool :=
  timespecCmp (chunkGetPlayAt (some ctx.chunk))
    (timeAddMs clock.systime (.ofNat (bufferms.toNat * 95 / 100))) > 0

/-- The context after `read` has stored bytes behind those that are there. -/
def storeInput (ctx : InputpipeCtx) (bytes : List UInt8) : InputpipeCtx :=
  { ctx with
    dataRead := ctx.dataRead + bytes.length
    chunk := { ctx.chunk with
      data := ctx.chunk.data.take ctx.dataRead ++ bytes ++
        ctx.chunk.data.drop (ctx.dataRead + bytes.length) } }

/-- When playing starts with the first bytes after a pause. `read_ms` is passed as an `int`. -/
def startPlayingAt (clock : ServerClock) (ctx : InputpipeCtx) : Timespec :=
  if timespecCmp clock.systime (chunkGetPlayAt (some ctx.chunk)) > 0 then
    timeAddMs clock.systime coldStartOffsetMs
  else timeAddMs (chunkGetPlayAt (some ctx.chunk)) (.ofInt ctx.readMs)

/-- The part of `inputpipe_handle` that reads, where `input` is what `read` has to offer, or `none`
when it fails. Of that it takes no more than the chunk has room for. -/
def readInput (bufferms : UInt16) (clock : ServerClock) (stream : Fin (n + 1))
    (input : Option (List UInt8)) (ctx : InputpipeCtx) (tasks : TaskPool (ServerTask n)) :
    Except Fault (InputpipeCtx × TaskPool (ServerTask n)) :=
  match input.map (List.take (ctx.chunksize.toNat - ctx.dataRead)) with
  | none => pure (ctx, tasks)
  | some [] => pure ({ ctx with state := .idle }, tasks)
  | some bytes =>
      if ctx.state = .idle then
        let (task, tasks) :=
          tasks.postTask clock.uptime bufferms.toNat (bufferms.toNat % 1000 : Nat) (.setIdle stream)
        let stored := storeInput ctx bytes
        pure ({ stored with
          state := .playing
          chunk := withPlayAt stored.chunk (startPlayingAt clock ctx)
          idleTask := some task }, tasks)
      else do
        let tasks ← tasks.rescheduleTask clock.uptime (bufferms.toNat / 1000 : Nat)
          (bufferms.toNat % 1000 : Nat) ctx.idleTask
        pure (storeInput ctx bytes, tasks)

/-- The part of `inputpipe_handle` that dates a complete chunk: its result and the context. -/
def finishChunk (clock : ServerClock) (ctx : InputpipeCtx) : Int × InputpipeCtx :=
  if isChunkComplete ctx then
    let late := timespecCmp clock.systime (chunkGetPlayAt (some ctx.chunk)) > 0
    let playAt :=
      if late then timeAddMs clock.systime coldStartOffsetMs
      else timeAddMs (chunkGetPlayAt (some ctx.chunk)) (.ofInt ctx.readMs)
    (if late then 2 else 1,
      { ctx with
        chunk := { withPlayAt ctx.chunk playAt with
          size := UInt16.ofNat ctx.dataRead
          frameSize := UInt8.ofInt ctx.samplesize
          samples := UInt32.ofInt ctx.samples
          channels := UInt8.ofInt ctx.channels
          codec := codecPcm }
        dataRead := 0 })
  else (0, ctx)

/-- `inputpipe_handle`: its result, the context and the tasks. -/
def inputpipeHandle (bufferms : UInt16) (clock : ServerClock) (stream : Fin (n + 1))
    (input : Option (List UInt8)) (ctx : InputpipeCtx) (tasks : TaskPool (ServerTask n)) :
    Except Fault (Int × InputpipeCtx × TaskPool (ServerTask n)) :=
  if bufferFull bufferms clock ctx then pure (-1, ctx, tasks)
  else do
    let (ctx, tasks) ← readInput bufferms clock stream input ctx tasks
    let (ret, ctx) := finishChunk clock ctx
    pure (ret, ctx, tasks)

/-- `inputpipe_init`, when `open` gives a descriptor. The bytes of the new chunk are not looked at
before they were read from the pipe. -/
def inputpipeInit (opened : Option Nat) (ctx : InputpipeCtx) : Except Fault InputpipeCtx :=
  let chunksize := UInt16.ofInt
    ((ctx.samples * ctx.channels * ctx.samplesize * ctx.readMs).tdiv 1000)
  match opened with
  | none => throw (.exitError "unable to open input pipe %s")
  | some fd =>
      pure { ctx with
        chunksize
        chunk := { ctx.chunk with
          size := chunksize
          samples := UInt32.ofInt ctx.samples
          frameSize := UInt8.ofInt ctx.samplesize
          channels := UInt8.ofInt ctx.channels
          data := List.replicate chunksize.toNat 0 }
        dataRead := 0
        fd
        initialized := true }

end

end Snapcastc
