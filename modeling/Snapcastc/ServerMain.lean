import Snapcastc.LibrarySessions
import Snapcastc.Jsonrpc
import Snapcastc.SocketLines

/-! The server's main loop as a whole (`loop` in `server.c`): `epoll_wait` reports descriptors, and which of
them belongs to what is found out by their numbers. Here are also the datagrams of the intercom as they come
in (`intercom_handle_in` in `intercom.c`) and the connections of the control protocol (`socket.c`). -/

namespace Snapcastc

variable {n : Nat}

/-- A task that is executed, with the clocks at that time and what `open` gives should it be called. -/
structure TaskRun where
  id : Nat
  clock : ServerClock
  opened : Option Nat

/-- The task with the handle is due, and no task is due before it. -/
def isNextDue {κ : Type} (tasks : TaskPool κ) (now : Timespec) (id : Nat) : Bool :=
  tasks.queued.any fun task => task.id == id && decide (timespecCmp task.due now ≤ 0) &&
    tasks.queued.all fun other => decide (timespecCmp task.due other.due ≤ 0)

/-- The loop of `taskqueue_run`. `runs` says which of the tasks that are due at the same time comes first;
where it ends too early the loop is still running. -/
def runQueue (now : Timespec) : List TaskRun → Server n → Except Fault (Server n)
  | [], s =>
      if s.tasks.queued.all fun task => decide (timespecCmp task.due now > 0) then pure s
      else throw .endless
  | run :: runs, s =>
      if isNextDue s.tasks now run.id then do
        let s ← fireTask run.clock run.opened s run.id
        runQueue now runs s
      else runQueue now runs s

/-- The largest datagram that is read. -/
def intercomMtu : Nat := 1500

/-- A datagram that waits to be read, with the clocks when it is handled and what `open` gives should it be
called then. -/
structure WaitingDatagram where
  bytes : List UInt8
  peer : In6Addr
  port : UInt16
  clock : ServerClock
  opened : Option Nat

/-- `intercom_handle_in`: datagrams are read until there are no more, or one of them is empty. They are read
into the same buffer. A loop over TLVs that needs more rounds than there are bytes has no end. -/
def intercomHandleIn : List WaitingDatagram → (Nat → UInt8) → Server n → Except Fault (Server n)
  | [], _, s => pure s
  | datagram :: datagrams, buf, s =>
      let count := (datagram.bytes.take intercomMtu).length
      if count = 0 then pure s
      else
        let buf := received buf intercomMtu datagram.bytes
        match serverHandlePacket datagram.clock datagram.opened count s buf count datagram.peer
            datagram.port with
        | none => throw .endless
        | some handled => do
            let s ← handled
            intercomHandleIn datagrams buf s

/-- A connection of the control protocol: `socketclient`. -/
structure Connection where
  fd : Nat
  socket : Socket.Socketclient

/-- What `epoll_wait` reports of a descriptor: that it can be read from, or an error or a hang-up. -/
inductive Readiness where
  | input
  | hangup
  deriving DecidableEq, Repr

/-- The server process. The `interest` of `server` has all descriptors that `epoll` watches, and `batch` are
the events of the last `epoll_wait` that are still to be handled. `log` is what was opened, read, handed to
`handle_line` and closed under the numbers of connections and input pipes, and `responses` is what was printed
to connections; the program keeps neither. -/
structure ServerMain (n : Nat) where
  server : Server n
  taskqueueFd : Nat
  intercomFd : Nat
  socketFd : Nat
  connections : List Connection
  batch : List (Nat × Readiness)
  log : List (Sessions.Entry Nat Socket.ReadResult (List UInt8))
  responses : List (Nat × RpcResponse)

/-- What the calls return that are made while an event is handled: the clocks, `open`, which tasks are
executed, a read from an input pipe, `opus_encode`, what is on the stack, the datagrams that wait, `accept`,
and what waits at a connection. -/
structure CallResults where
  clock : ServerClock
  opened : Option Nat
  runs : List TaskRun
  input : Option (List UInt8)
  encoded : Int × List UInt8
  buf : Nat → UInt8
  datagrams : List WaitingDatagram
  accepted : Option Nat
  received : Socket.ReadResult

/-- `socket_get_client`: the loop starts at the last connection. -/
def socketGetClient (connections : List Connection) (fd : Nat) : Option Nat :=
  (List.range connections.length).reverse.find? fun i => connections[i]?.map Connection.fd == some fd

/-- A connection is closed: `del_fd` and `socket_client_remove`. -/
def closeConnection (m : ServerMain n) (i : Nat) (connection : Connection) :
    Except Fault (ServerMain n) := do
  let server ← m.server.delFd connection.fd
  pure { m with
    server := server.closeFd connection.fd
    connections := m.connections.eraseIdx i
    log := m.log ++ [.closed connection.fd] }

/-- `socket_handle_in`, with the `add_fd` behind it. The descriptor of a failed `accept` has no flags. -/
def socketHandleIn (m : ServerMain n) : Option Nat → Except Fault (ServerMain n)
  | none => throw (.exitError "could not set socket to non-blocking\n")
  | some fd => do
      let m := { m with
        connections := m.connections ++ [⟨fd, Socket.fresh⟩]
        log := m.log ++ [.opened fd] }
      if fd > 0 then do
        let server ← m.server.addFd fd
        pure { m with server }
      else pure m

/-- What `read` returns to `socket_handle_client`, of what waits at the connection: no more than there is room
for. Nothing at all is taken for the end. -/
def readLine (sc : Socket.Socketclient) : Socket.ReadResult → Socket.ReadResult
  | .data bytes =>
      if (bytes.take (Socket.linebufferSize - sc.lineOffset - 1)).isEmpty then .eof
      else .data (bytes.take (Socket.linebufferSize - sc.lineOffset - 1))
  | .eof => .eof
  | .error again => .error again

/-- The lines that `jsonrpc_parse_string` accepts. -/
def acceptsLine (jc : JsonC) (line : List UInt8) : Bool :=
  match jsonrpcParseString jc line with
  | .ok (some _) => true
  | _ => false

/-- `handle_line` on lines, and what it prints. -/
def handleLines (opened : Option Nat) (jc : JsonC) (view : UnionView) :
    List (List UInt8) → Server n → Except Fault (Server n × List RpcResponse)
  | [], s => pure (s, [])
  | line :: lines, s => do
      let (s, response) ← handleLine opened jc view s line
      let (s, responses) ← handleLines opened jc view lines s
      pure (s, response.toList ++ responses)

/-- An input event of a connection. -/
def handleConnection (jc : JsonC) (view : UnionView) (results : CallResults) (m : ServerMain n) (i : Nat)
    (connection : Connection) : Except Fault (ServerMain n) := do
  let result := readLine connection.socket results.received
  let handled := Socket.socketHandleClient (acceptsLine jc) connection.socket result
  let (server, responses) ← handleLines results.opened jc view handled.lines m.server
  let m := { m with
    server
    connections := m.connections.set i { connection with socket := handled.client }
    log := m.log ++ Sessions.stepEntries connection.fd result handled.lines
    responses := m.responses ++ responses.map fun response => (connection.fd, response) }
  if handled.ret < 0 then closeConnection m i connection else pure m

/-! ### Events -/

def serverSigTermHandler : Fault := .exitError "Exiting.\n"

/-- What is read from an input pipe by `inputpipe_handle`. -/
def pipeReads (clock : ServerClock) (input : Option (List UInt8)) (s : Server n) (fd : Nat)
    (i : Fin (n + 1)) : List (Sessions.Entry Nat Socket.ReadResult (List UInt8)) :=
  if bufferFull s.bufferms clock (s.pipe i) then []
  else
    match input with
    | none => [.took fd (.error true)]
    | some bytes => [.took fd (.data (bytes.take ((s.pipe i).chunksize.toNat - (s.pipe i).dataRead)))]

/-- An event with an error or a hang-up. -/
def handleHangup (results : CallResults) (m : ServerMain n) (fd : Nat) : Except Fault (ServerMain n) :=
  match streamFindFd m.server fd with
  | some _ => do
      let server ← pipeHangup results.opened m.server fd
      pure { m with server, log := m.log ++ [.closed fd] }
  | none =>
      match socketGetClient m.connections fd with
      | none => throw serverSigTermHandler
      | some i =>
          match m.connections[i]? with
          | none => throw .nullPointer
          | some connection => closeConnection m i connection

/-- An event of a descriptor that can be read from, if it belongs to something; otherwise the rest of the
batch is left. -/
def handleInput (jc : JsonC) (view : UnionView) (results : CallResults) (m : ServerMain n) (fd : Nat) :
    Except Fault (ServerMain n) :=
  if m.taskqueueFd = fd then do
    let server ← runQueue results.clock.uptime results.runs m.server
    pure { m with server }
  else
    match streamFindFd m.server fd with
    | some i => do
        let server ← pipeInput results.clock results.input results.encoded m.server fd
        pure { m with server, log := m.log ++ pipeReads results.clock results.input m.server fd i }
    | none =>
        if m.intercomFd = fd then do
          let server ← intercomHandleIn results.datagrams results.buf m.server
          pure { m with server }
        else if m.socketFd = fd then socketHandleIn m results.accepted
        else
          match socketGetClient m.connections fd with
          | none => pure { m with batch := [], server := { m.server with pending := [] } }
          | some i =>
              match m.connections[i]? with
              | none => throw .nullPointer
              | some connection => handleConnection jc view results m i connection

/-- What can happen: `epoll_wait` returns events, or the next one of these is handled. -/
inductive MainEvent where
  | epollWait (ready : List (Nat × Readiness))
  | handle (results : CallResults)

def maxevents : Nat := 64

/-- A step of the main loop. `epoll_wait` is called when a batch is done; it returns descriptors that are
watched, each once. -/
def mainStep (jc : JsonC) (view : UnionView) (m : ServerMain n) : MainEvent → Except Fault (ServerMain n)
  | .epollWait ready =>
      if m.batch = [] ∧ ready.length ≤ maxevents ∧ (ready.map Prod.fst).Nodup ∧
          ∀ event ∈ ready, event.1 ∈ m.server.interest then
        pure { m with batch := ready, server := { m.server with pending := ready.map Prod.fst } }
      else pure m
  | .handle results =>
      match m.batch with
      | [] => pure m
      | (fd, readiness) :: batch =>
          let m := { m with batch, server := takeEvent m.server fd }
          match readiness with
          | .hangup => handleHangup results m fd
          | .input => handleInput jc view results m fd

/-- The process after a number of steps, or how one of them has ended it. -/
def mainRun (jc : JsonC) (view : UnionView) : ServerMain n → List MainEvent → Except Fault (ServerMain n)
  | m, [] => pure m
  | m, event :: events => do
      let m ← mainStep jc view m event
      mainRun jc view m events

/-- The process when it enters the loop. -/
def enterLoop (bufferms : UInt16) (options : Fin (n + 1) → StreamOptions)
    (taskqueueFd intercomFd socketFd : Nat) : Except Fault (ServerMain n) := do
  let server ← (freshServer bufferms options).addFd taskqueueFd
  let server ← server.addFd intercomFd
  let server ← server.addFd socketFd
  pure ⟨server, taskqueueFd, intercomFd, socketFd, [], [], [], []⟩

/-- What every step keeps holds after a run. -/
theorem mainRun_invariant {jc : JsonC} {view : UnionView} (inv : ServerMain n → Prop)
    (hkeep : ∀ {m m' event}, inv m → mainStep jc view m event = .ok m' → inv m') {m m' : ServerMain n}
    {events : List MainEvent} (hinv : inv m) (hrun : mainRun jc view m events = .ok m') : inv m' := by
  induction events generalizing m with
  | nil =>
      cases hrun
      exact hinv
  | cons event events ih =>
      obtain ⟨m₁, hstep, hrun⟩ := except_bind_ok hrun
      exact ih (hkeep hinv hstep) hrun

end Snapcastc
