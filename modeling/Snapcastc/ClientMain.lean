import Snapcastc.LibraryRuns
import Snapcastc.AlsaplayerGetchunk
import Snapcastc.AlsaplayerHandle

/-! The client's main loop as a whole (`loop` in `client.c`). The entry of the intercom in the poll set has a
copy of the number of its socket; `resume_polling` brings it up to date. Here are also the datagrams of the
intercom as they come in (`intercom_handle_in` in `intercom.c`) and the calls of the player. -/

namespace Snapcastc

/-- What `poll` reports of an entry: POLLIN, POLLERR and POLLNVAL. -/
structure Revents where
  input : Bool
  error : Bool
  invalid : Bool
  deriving DecidableEq, Repr

/-- An entry of the poll set of which something is reported. The entries of the device come first, and that
of the intercom is the last one. -/
inductive ReadyEntry where
  | device
  | taskqueue
  | intercom (revents : Revents)
  deriving DecidableEq, Repr

/-- The client process. `intercomFd` is the number in `intercom_ctx`, also while the socket is closed, and
`polled` the one in the poll set, `none` for -1. `resumes` are the due times of the tasks that bring it up to
date. `batch` are the entries of the last `poll` that are still to be handled, `fetched` the chunks that
`getchunk` has given and `played` the frames that the device has taken; the program keeps neither of these. -/
structure ClientMain where
  process : ClientProcess
  intercomFd : Nat
  polled : Option Nat
  resumes : List Timespec
  batch : List ReadyEntry
  fetched : List PcmChunk
  played : List (List UInt8)

/-- What the client is started with, and the libraries it uses. -/
structure ClientConfig where
  env : ClientEnv
  speed : SpeedAdjustment
  latencyMs : UInt32

/-- A datagram that waits to be read, with the clocks when it is handled. -/
structure ClientDatagram where
  bytes : List UInt8
  clock : ClientClock

/-- A task that is executed: one of the process, with what it finds out about the address of the server and
the number that `socket` returns to it, or one that resumes polling. -/
inductive ClientTaskRun where
  | task (id : Nat) (changed resolved : Bool) (socket : Nat) (clock : ClientClock)
  | resumePolling (k : Nat)

/-- What the calls return that are made while an entry is handled: the clocks, which tasks are executed,
`snd_pcm_delay` and `snd_pcm_writei`, what is on the stack, and the datagrams that wait. -/
structure ClientResults where
  clock : ClientClock
  runs : List ClientTaskRun
  delayp : Option Int64
  device : DeviceResults
  buf : Nat → UInt8
  datagrams : List ClientDatagram

/-- The task makes `intercom_reinit` open a socket. -/
def reopens (changed : Bool) : ClientTask → Bool
  | .hello => changed
  | .intercomReinit => true
  | _ => false

/-- A task with this due time is executed now, and no task is due before it. -/
def startsNext (m : ClientMain) (now due : Timespec) : Bool :=
  decide (timespecCmp due now ≤ 0) &&
    (m.process.client.tasks.queued.all fun task => decide (timespecCmp due task.due ≤ 0)) &&
      m.resumes.all fun other => decide (timespecCmp due other ≤ 0)

/-- One task, if its turn has come. -/
def runNext (env : ClientEnv) (now : Timespec) (m : ClientMain) : ClientTaskRun → Except Fault ClientMain
  | .task id changed resolved socket clock =>
      match m.process.client.tasks.queued.find? (·.id == id) with
      | none => pure m
      | some task =>
          if startsNext m now task.due && decide (timespecCmp now clock.uptime ≤ 0) then do
            let process ← fireClientTask env clock changed resolved m.process id
            pure { m with
              process
              intercomFd := if reopens changed task.code then socket else m.intercomFd }
          else pure m
  | .resumePolling k =>
      match m.resumes[k]? with
      | none => pure m
      | some due =>
          if startsNext m now due then
            pure { m with polled := some m.intercomFd, resumes := m.resumes.eraseIdx k }
          else pure m

/-- `taskqueue_run`. `runs` says which of the tasks that are due at the same time comes first; where it ends
too early the loop is still running. -/
def clientRunQueue (env : ClientEnv) (now : Timespec) (runs : List ClientTaskRun) (m : ClientMain) :
    Except Fault ClientMain := do
  let m ← Runs.run (runNext env now) m runs
  if (m.process.client.tasks.queued.all fun task => decide (timespecCmp task.due now > 0)) &&
      m.resumes.all fun due => decide (timespecCmp due now > 0) then pure m
  else throw .endless

/-- The largest datagram that is read. -/
def clientMtu : Nat := 1500

/-- `intercom_handle_in`: datagrams are read until there are no more, or one of them is empty. They are read
into the same buffer. -/
def clientHandleIn (env : ClientEnv) :
    List ClientDatagram → (Nat → UInt8) → ClientProcess → Except Fault ClientProcess
  | [], _, p => pure p
  | datagram :: datagrams, buf, p =>
      let count := (datagram.bytes.take clientMtu).length
      if count = 0 then pure p
      else do
        let buf := received buf clientMtu datagram.bytes
        let p ← receiveDatagram env datagram.clock p buf count
        clientHandleIn env datagrams buf p

/-- The process after a call of the player. -/
def ClientMain.afterPlayer (m : ClientMain) (client : Client) (alsaplayer : AlsaplayerCtx)
    (fetched : List PcmChunk) (played : List (List UInt8)) : ClientMain :=
  { m with
    process := { m.process with client := { client with alsaplayer } }
    fetched := m.fetched ++ fetched
    played := m.played ++ played }

/-- `alsaplayer_handle`: `getchunk` is called unless there is an overflow. -/
def handlePlayer (config : ClientConfig) (results : ClientResults) (m : ClientMain) :
    Except Fault ClientMain :=
  match m.process.client.alsaplayer.overflow with
  | some chunk => do
      let (alsaplayer, played) ← alsaplayerHandle m.process.client.alsaplayer chunk results.device
      pure (m.afterPlayer m.process.client alsaplayer [] played)
  | none => do
      let fetched ← Player.handleGetchunk config.env config.speed results.clock config.latencyMs
        results.delayp m.process.client
      let (alsaplayer, played) ← alsaplayerHandle fetched.client.alsaplayer fetched.chunk results.device
      pure (m.afterPlayer fetched.client alsaplayer [fetched.chunk] played)

/-! ### The loop -/

/-- The entry of the intercom, when its number is the one in `intercom_ctx`. -/
def handleIntercom (env : ClientEnv) (results : ClientResults) (m : ClientMain) (revents : Revents) :
    Except Fault ClientMain :=
  if m.polled = some m.intercomFd then
    if revents.input then
      if m.process.connected then do
        let process ← clientHandleIn env results.datagrams results.buf m.process
        pure { m with process }
      else pure m
    else if revents.error then
      if m.process.connected then do
        let process ← networkError results.clock m.process
        pure { m with process }
      else pure m
    else if revents.invalid then
      pure { m with polled := none, resumes := m.resumes ++ [settime results.clock.uptime 1 0] }
    else pure m
  else pure m

def handleEntry (config : ClientConfig) (results : ClientResults) (m : ClientMain) :
    ReadyEntry → Except Fault ClientMain
  | .device => if m.process.client.alsaplayer.initialized then handlePlayer config results m else pure m
  | .taskqueue => clientRunQueue config.env results.clock.uptime results.runs m
  | .intercom revents => handleIntercom config.env results m revents

/-- What `poll` can report of the entry of the intercom: of a number that was closed POLLNVAL, of the socket
anything else. The number may be that of another file by now if it is not the one in `intercom_ctx`. -/
def mayReport (m : ClientMain) (revents : Revents) : Bool :=
  match m.polled with
  | none => false
  | some fd =>
      fd != m.intercomFd ||
        (if m.process.connected then !revents.invalid else revents == ⟨false, false, true⟩)

/-- What can happen: `poll` returns entries, the next one of these is handled, and SIGTERM, which `loop` also
calls for when `poll` fails. -/
inductive ClientMainEvent where
  | poll (devices : Nat) (taskqueue : Bool) (revents : Option Revents)
  | handle (results : ClientResults)
  | terminate

def clientMainStep (config : ClientConfig) (m : ClientMain) (event : ClientMainEvent) :
    Except Fault ClientMain :=
  if m.process.exited then pure m
  else match event with
    | .poll devices taskqueue revents =>
        if m.batch = [] ∧ revents.all (mayReport m) = true then
          pure { m with
            batch := List.replicate devices .device ++ (if taskqueue then [.taskqueue] else []) ++
              (revents.map ReadyEntry.intercom).toList }
        else pure m
    | .handle results =>
        match m.batch with
        | [] => pure m
        | entry :: batch => handleEntry config results { m with batch } entry
    | .terminate => do
        let process ← sigTermHandler m.process
        pure { m with process }

/-- The process after a number of steps, or how one of them has ended it. -/
def clientMainRun (config : ClientConfig) : ClientMain → List ClientMainEvent → Except Fault ClientMain :=
  Runs.run (clientMainStep config)

/-- The process when it enters the loop, with the number of its socket. -/
def enterClientLoop (nonce : UInt32) (softvol : Bool) (mixer : Option Mixer) (intercomFd : Nat) :
    ClientMain :=
  ⟨freshProcess nonce softvol mixer, intercomFd, some intercomFd, [], [], [], []⟩

end Snapcastc
