import Snapcastc.IntercomClientMissing
import Snapcastc.AlsaplayerVolume

/-! The client's main loop (`client.c`) with the tasks it runs, as far as the device and the intercom are
opened and closed there. The handles of the tasks are kept in the player and in the intercom. -/

namespace Snapcastc

/-- The client while it runs. `helloTask` is `intercom_ctx.hello_task`; without a socket the process is
`connected` to nothing. `exited` says that SIGTERM has ended it. -/
structure ClientProcess where
  client : Client
  helloTask : Option Nat
  connected : Bool
  exited : Bool

/-- The client when it enters the loop. -/
def freshProcess (nonce : UInt32) (softvol : Bool) (mixer : Option Mixer) : ClientProcess :=
  ⟨freshClient nonce softvol mixer, some 0, true, false⟩

/-- `intercom_uninit`: what the task holds is freed before the task is dropped, so its handle may not be
`NULL`. -/
def closeIntercom (p : ClientProcess) : Except Fault ClientProcess :=
  match p.helloTask with
  | none => throw .nullPointer
  | some id => do
      let tasks ← p.client.tasks.dropTask id
      pure { p with client := { intercomUninit p.client with tasks }, connected := false }

/-- `intercom_reinit` with `intercom_hello`. -/
def reopenIntercom (clock : ClientClock) (resolved : Bool) (p : ClientProcess) :
    Except Fault ClientProcess := do
  let client ← intercomReinit clock resolved p.client
  pure { p with client, helloTask := some p.client.tasks.fresh, connected := true }

/-- `hello_task`, where `changed` says that the server was found at another address. -/
def helloTask (clock : ClientClock) (changed resolved : Bool) (p : ClientProcess) :
    Except Fault ClientProcess :=
  if changed then do
    let p ← closeIntercom p
    let client ← alsaplayerUninit p.client
    reopenIntercom clock resolved { p with client }
  else
    let (task, tasks) := p.client.tasks.postTask clock.uptime 1 500 .hello
    pure { p with
      client := { p.client with
        nonce := p.client.nonce + 1
        alsaplayer := (obtainVolume p.client.alsaplayer).2
        tasks }
      helloTask := some task }

/-- `chunk_decode` in place, on the chunk that is played next. -/
def decodeFirstInput (env : ClientEnv) (s : Client) : Except Fault Client :=
  match s.receivebuffer with
  | none => pure s
  | some buffer =>
      match buffer.peek with
      | none => pure s
      | some chunk => do
          let decoded ← chunkDecode env.opus s.decoder chunk
          let first : StoredChunk := { buffer.queue.data 0 with chunk := decoded }
          pure { s with
            decoder := s.decoder || chunk.codec == codecOpus
            receivebuffer := some { buffer with
              queue := { buffer.queue with data := Function.update buffer.queue.data 0 first } } }

/-- The part of `getchunk` that takes a chunk to play. -/
def takeChunk (env : ClientEnv) (clock : ClientClock) (s : Client) : Except Fault Client :=
  match intercomGetnextaudiochunk s with
  | (none, s) =>
      let emptyChunksInRow := s.alsaplayer.emptyChunksInRow + 1
      pure { s with alsaplayer := { s.alsaplayer with
        emptyChunksInRow
        playing := if emptyChunksInRow > 5 then false else s.alsaplayer.playing } }
  | (some chunk, s) => do
      let closeMs := s.bufferms.toNat * 6 / 5
      let posted := (s.tasks.postTask clock.uptime 0 0 .decodeFirstInput).2
      let tasks ← posted.rescheduleTask clock.uptime (closeMs / 1000 : Nat) (closeMs % 1000 : Nat)
        s.alsaplayer.closeTask
      let _ ← chunkDecode env.opus s.decoder chunk
      pure { s with
        tasks
        decoder := s.decoder || chunk.codec == codecOpus
        alsaplayer := { s.alsaplayer with playing := true, emptyChunksInRow := 0 } }

/-- `getchunk`. What the clock says decides how many chunks are dropped because they are late, and whether
one is taken. -/
def getchunk (env : ClientEnv) (clock : ClientClock) (dropped : Nat) (takes : Bool) (s : Client) :
    Except Fault Client :=
  let s := (fun s => (intercomGetnextaudiochunk s).2)^[dropped] s
  if takes then takeChunk env clock s else pure s

def runClientTask (env : ClientEnv) (clock : ClientClock) (changed resolved : Bool) (p : ClientProcess) :
    ClientTask → Except Fault ClientProcess
  | .hello => helloTask clock changed resolved p
  | .request reqNonce retriesLeft =>
      pure { p with client := (requestTask clock p.client reqNonce retriesLeft).1 }
  | .alsaplayerUninit => do
      let client ← alsaplayerUninit p.client
      pure { p with client }
  | .intercomReinit => reopenIntercom clock resolved p
  | .decodeFirstInput => do
      let client ← decodeFirstInput env p.client
      pure { p with client }

def ClientProcess.withTasks (p : ClientProcess) (tasks : TaskPool ClientTask) : ClientProcess :=
  { p with client := { p.client with tasks } }

/-- `taskqueue_run` executes the task with the handle if that is due. -/
def fireClientTask (env : ClientEnv) (clock : ClientClock) (changed resolved : Bool) (p : ClientProcess)
    (id : Nat) : Except Fault ClientProcess :=
  match p.client.tasks.queued.find? (·.id == id) with
  | none => pure p
  | some task =>
      if timespecCmp task.due clock.uptime > 0 then pure p
      else do
        let p ← runClientTask env clock changed resolved (p.withTasks (p.client.tasks.start task.id))
          task.code
        pure (p.withTasks p.client.tasks.finish)

/-- What can happen: a datagram arrives, a task is executed, the socket reports an error, the device is
ready for a chunk, and SIGTERM. -/
inductive ProcessEvent where
  | datagram (packet : Nat → UInt8) (packetLen : Nat) (clock : ClientClock)
  | fire (id : Nat) (changed resolved : Bool) (clock : ClientClock)
  | networkError (clock : ClientClock)
  | getchunk (dropped : Nat) (takes : Bool) (clock : ClientClock)
  | sigterm

def networkError (clock : ClientClock) (p : ClientProcess) : Except Fault ClientProcess := do
  let p ← closeIntercom p
  let client ← alsaplayerUninit p.client
  pure { p with client :=
    { client with tasks := (client.tasks.postTask clock.uptime 1 0 .intercomReinit).2 } }

def sigTermHandler (p : ClientProcess) : Except Fault ClientProcess := do
  let client ← alsaplayerRemoveTask p.client
  let client ← alsaplayerUninit client
  pure { p with client, exited := true }

/-- `intercom_handle_packet`, where it returns. -/
def receiveDatagram (env : ClientEnv) (clock : ClientClock) (p : ClientProcess) (packet : Nat → UInt8)
    (packetLen : Nat) : Except Fault ClientProcess :=
  match (intercomHandlePacket env clock p.client packet packetLen).fault with
  | some fault => throw fault
  | none => pure { p with client := (intercomHandlePacket env clock p.client packet packetLen).state }

/-- What the client does at an event. A socket that was closed neither receives anything nor reports an
error (`poll` says POLLNVAL of it), and only an open device asks for chunks. -/
def processStep (env : ClientEnv) (p : ClientProcess) (event : ProcessEvent) :
    Except Fault ClientProcess :=
  if p.exited then pure p
  else match event with
    | .datagram packet packetLen clock =>
        if p.connected then receiveDatagram env clock p packet packetLen else pure p
    | .fire id changed resolved clock => fireClientTask env clock changed resolved p id
    | .networkError clock => if p.connected then networkError clock p else pure p
    | .getchunk dropped takes clock =>
        if p.client.alsaplayer.initialized then do
          let client ← getchunk env clock dropped takes p.client
          pure { p with client }
        else pure p
    | .sigterm => sigTermHandler p

/-- The client after a sequence of events, or how one of them has ended the process. -/
def processRun (env : ClientEnv) : ClientProcess → List ProcessEvent → Except Fault ClientProcess
  | p, [] => pure p
  | p, event :: events => do
      let p ← processStep env p event
      processRun env p events

end Snapcastc
