import Snapcastc.IntercomServer
import Snapcastc.SocketRequests

/-! The server's main loop (`server.c`). `epoll_wait` returns a batch of events. While the batch is
handled, an input pipe can be taken from the descriptors that are watched although its own event is
still to come. -/

namespace Snapcastc

variable {n : Nat}

def runTask (clock : ServerClock) (opened : Option Nat) (s : Server n) :
    ServerTask n → Except Fault (Server n)
  | .scheduleDeleteClient id => clientmgrDeleteClient s id
  | .inputpipeResumeRead i => inputpipeResumeRead opened s i
  | .setIdle i => setStreamIdle s i
  | .removeOldAudiodata i => pure (removeOldAudiodataTask clock s i)

/-- `taskqueue_run` executes the task with the handle if that is due: it is running while its function
is, and freed afterwards. -/
def fireTask (clock : ServerClock) (opened : Option Nat) (s : Server n) (id : Nat) :
    Except Fault (Server n) :=
  match s.tasks.queued.find? (·.id == id) with
  | none => pure s
  | some task =>
      if timespecCmp task.due clock.uptime > 0 then pure s
      else do
        let s ← runTask clock opened { s with tasks := s.tasks.start id } task.code
        pure { s with tasks := s.tasks.finish }

/-- The server after a pipe has delivered more than is needed for now. -/
def throttle (clock : ServerClock) (s : Server n) (i : Fin (n + 1)) (fd : Nat) :
    Except Fault (Server n) := do
  let s ← s.delFd fd
  let readMs := (s.pipe i).readMs
  let (task, tasks) := s.tasks.postTask clock.uptime (readMs.tdiv 1000) (readMs.tmod 1000)
    (.inputpipeResumeRead i)
  pure ({ s with tasks }.setPipe i { s.pipe i with state := .throttle, resumeTask := some task })

/-- The server after a chunk was read; `restarted` says that the clients have to start anew. -/
def deliver (clock : ServerClock) (encoded : Int × List UInt8) (s : Server n) (i : Fin (n + 1))
    (restarted : Bool) : Except Fault (Server n) := do
  let s := if restarted then clientmgrStopClients s i else s
  let chunk ← encodeOpusHandle encoded (s.pipe i).chunk
  pure (intercomSendAudio clock (s.setPipe i { s.pipe i with chunk }) i)

def pipeInput (clock : ServerClock) (input : Option (List UInt8)) (encoded : Int × List UInt8)
    (s : Server n) (fd : Nat) : Except Fault (Server n) :=
  match streamFindFd s fd with
  | none => pure s
  | some i => do
      let (ret, ctx, tasks) ← inputpipeHandle s.bufferms clock i input (s.pipe i) s.tasks
      let s := { s with tasks }.setPipe i ctx
      if ret = -1 then throttle clock s i fd
      else if ret > 0 then deliver clock encoded s i (ret = 2)
      else pure s

/-- An error or hang-up event of an input pipe. -/
def pipeHangup (opened : Option Nat) (s : Server n) (fd : Nat) : Except Fault (Server n) :=
  match streamFindFd s fd with
  | none => pure s
  | some i => do
      let s ← inputpipeUninit s i
      inputpipeResumeRead opened s i

/-! ### Runs -/

/-- What can happen: `epoll_wait` returns events of input pipes, one for a descriptor; one of these is
handled; a TLV of a client is handled; a request of the control protocol is handled; a task is
executed. `opened` is what `open` gives should it be called. -/
inductive ServerEvent where
  | epollWait (ready : List Nat)
  | pipeInput (fd : Nat) (input : Option (List UInt8)) (encoded : Int × List UInt8) (clock : ServerClock)
  | pipeHangup (fd : Nat) (opened : Option Nat)
  | hello (peer : Peer) (clock : ServerClock) (opened : Option Nat)
  | request (clientid : UInt16) (nonce : UInt32) (ip : In6Addr) (port : UInt16)
  | setStream (request : JsonrpcRequest) (opened : Option Nat)
  | setVolume (request : JsonrpcRequest)
  | fire (id : Nat) (clock : ServerClock) (opened : Option Nat)

/-- The server without the event of a pipe that it is about to handle. -/
def takeEvent (s : Server n) (fd : Nat) : Server n := { s with pending := s.pending.erase fd }

/-- What the server does at an event. A pipe has an event to be handled only if `epoll_wait` has
returned it, and `epoll_wait` is called when the last batch is done and returns descriptors that are
watched. -/
def serverStep (s : Server n) : ServerEvent → Except Fault (Server n)
  | .epollWait ready =>
      if s.pending = [] ∧ ready.Nodup ∧ ∀ fd ∈ ready, fd ∈ s.interest then
        pure { s with pending := ready }
      else pure s
  | .pipeInput fd input encoded clock =>
      if fd ∈ s.pending then pipeInput clock input encoded (takeEvent s fd) fd else pure s
  | .pipeHangup fd opened =>
      if fd ∈ s.pending then pipeHangup opened (takeEvent s fd) fd else pure s
  | .hello peer clock opened => clientmgrRefreshClient clock opened s peer
  | .request clientid nonce ip port => pure (answerRequest s clientid nonce ip port)
  | .setStream request opened => do
      let (s, _) ← handleClientSetstream opened s request
      pure s
  | .setVolume request => do
      let (s, _) ← handleClientSetvolume s request
      pure s
  | .fire id clock opened => fireTask clock opened s id

/-- The server after a sequence of events, or how one of them has ended the process. -/
def serverRun : Server n → List ServerEvent → Except Fault (Server n)
  | s, [] => pure s
  | s, event :: events => do
      let s ← serverStep s event
      serverRun s events

/-- What every step keeps holds after a run. -/
theorem serverRun_invariant {inv : Server n → Prop} {allowed : ServerEvent → Prop}
    (hkeep : ∀ {s s' event}, inv s → allowed event → serverStep s event = .ok s' → inv s')
    {s s' : Server n} {events : List ServerEvent} (hinv : inv s)
    (hevents : ∀ event ∈ events, allowed event) (hrun : serverRun s events = .ok s') : inv s' := by
  induction events generalizing s with
  | nil =>
      cases hrun
      exact hinv
  | cons event events ih =>
      obtain ⟨s₁, hstep, hrun⟩ := except_bind_ok hrun
      obtain ⟨hfirst, hrest⟩ := List.forall_mem_cons.mp hevents
      exact ih (hkeep hinv hfirst hstep) hrest hrun

/-- Every step of a run from the state is one of these. -/
def EveryStep (step : Server n → ServerEvent → Server n → Prop) : Server n → List ServerEvent → Prop
  | _, [] => True
  | s, event :: events => ∀ s', serverStep s event = .ok s' → step s event s' ∧ EveryStep step s' events

instance (step : Server n → ServerEvent → Server n → Prop) [∀ s event s', Decidable (step s event s')] :
    (s : Server n) → (events : List ServerEvent) → Decidable (EveryStep step s events)
  | _, [] => .isTrue trivial
  | s, event :: events =>
      match hstep : serverStep s event with
      | .error _ => .isTrue fun s' hs' => by rw [hstep] at hs'; cases hs'
      | .ok s' =>
          have := instDecidableEveryStep step s' events
          decidable_of_iff (step s event s' ∧ EveryStep step s' events) (by simp [EveryStep, hstep])

/-- What `stream_parse` finds about a stream. -/
structure StreamOptions where
  name : List UInt8
  readMs : Int
  samples : Int
  samplesize : Int
  channels : Int

/-- A stream as `main` sets it up. -/
def freshStream (options : StreamOptions) : Stream where
  inputpipe := ⟨⟨0, 0, 0, 0, 0, 0, 0, []⟩, .idle, 0, options.readMs, options.samples,
    options.samplesize, options.channels, 0, 0, false, none, none⟩
  clients := []
  packetBuffer := []
  nonce := 0
  name := options.name
  initialized := false
  history := []

/-- The server when it enters the loop. -/
def freshServer (bufferms : UInt16) (options : Fin (n + 1) → StreamOptions) : Server n where
  streams := fun i => freshStream (options i)
  tasks := .empty
  interest := ∅
  pending := []
  recentPackets := []
  bufferms
  sent := []

end Snapcastc
