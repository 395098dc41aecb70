import Snapcastc.Inputpipe
import Snapcastc.Intercom

/-! The server's streams (`stream.c`), with the clients that listen to them, and the descriptors that
`epoll` watches (`util.c`). The vector of streams does not change after the start of the server, so a
pointer to a stream is its number, and a pointer to a client is the stream's number and a position. -/

namespace Snapcastc

/-- `strncmp`, on strings without their terminating zeros. -/
def strncmp : List UInt8 → List UInt8 → Nat → Int
  | _, _, 0 => 0
  | [], [], _ => 0
  | [], _ :: _, _ => -1
  | _ :: _, [], _ => 1
  | a :: as, b :: bs, n + 1 => if a = b then strncmp as bs n else if a < b then -1 else 1

/-- A comparison over the length of the first string asks whether the second one begins with it. -/
theorem strncmp_length_eq_zero_iff (a b : List UInt8) : strncmp a b a.length = 0 ↔ a <+: b := by
  induction a generalizing b with
  | nil => simp [strncmp]
  | cons x a ih =>
      cases b with
      | nil => simp [strncmp]
      | cons y b =>
          rw [List.length_cons, strncmp, List.cons_prefix_cons]
          split_ifs with heq hlt
          · rw [ih, and_iff_right heq]
          · simp [heq]
          · simp [heq]

/-! ### The state -/

/-- `struct in6_addr`. -/
structure In6Addr where
  address : BitVec 128
  deriving DecidableEq, Repr

/-- `client_t`, as far as the server uses it. -/
structure ClientRecord where
  ip : In6Addr
  port : UInt16
  id : UInt16
  connected : Bool
  lastseen : Timespec
  protoversion : UInt8
  latency : UInt32
  volumePercent : UInt8
  muted : Bool
  purgeTask : Nat
  deriving DecidableEq

/-- An AUDIO packet as it was sent, and the monotonic time of that. -/
structure SentAudio where
  nonce : UInt32
  bytes : List UInt8
  time : Timespec
  deriving DecidableEq

/-- `stream`. `history` are the AUDIO packets sent so far, which the program does not keep. -/
structure Stream where
  inputpipe : InputpipeCtx
  clients : List ClientRecord
  packetBuffer : List AudioPacket
  nonce : UInt32
  name : List UInt8
  initialized : Bool
  history : List SentAudio

/-- A datagram that was sent. -/
structure Datagram where
  recipient : In6Addr
  port : UInt16
  bytes : List UInt8
  deriving DecidableEq

/-- The server with `n + 1` streams. `interest` are the input pipes that `epoll` watches, `pending` those
among the events of the last `epoll_wait` that are still to be handled. `sent` are the datagrams sent
so far, which the program does not keep. -/
structure Server (n : Nat) where
  streams : Fin (n + 1) → Stream
  tasks : TaskPool (ServerTask n)
  interest : Finset Nat
  pending : List Nat
  recentPackets : List IntercomPacketHdr
  bufferms : UInt16
  sent : List Datagram

variable {n : Nat}

namespace Server

def setStream (s : Server n) (i : Fin (n + 1)) (stream : Stream) : Server n :=
  { s with streams := Function.update s.streams i stream }

def setPipe (s : Server n) (i : Fin (n + 1)) (inputpipe : InputpipeCtx) : Server n :=
  s.setStream i { s.streams i with inputpipe }

def setClients (s : Server n) (i : Fin (n + 1)) (clients : List ClientRecord) : Server n :=
  s.setStream i { s.streams i with clients }

def pipe (s : Server n) (i : Fin (n + 1)) : InputpipeCtx := (s.streams i).inputpipe

def clients (s : Server n) (i : Fin (n + 1)) : List ClientRecord := (s.streams i).clients

/-- `add_fd`: `epoll_ctl` refuses a descriptor that is watched already. -/
def addFd (s : Server n) (fd : Nat) : Except Fault (Server n) :=
  if fd ∈ s.interest then throw (.addFd fd) else pure { s with interest := insert fd s.interest }

/-- `del_fd`: `epoll_ctl` refuses a descriptor that is not watched. -/
def delFd (s : Server n) (fd : Nat) : Except Fault (Server n) :=
  if fd ∈ s.interest then pure { s with interest := s.interest.erase fd } else throw (.delFd fd)

/-- `close`: the kernel stops to watch the descriptor. -/
def closeFd (s : Server n) (fd : Nat) : Server n := { s with interest := s.interest.erase fd }

end Server

/-- `get_client`: the position of the client in the stream. -/
def getClient (stream : Stream) (id : UInt16) : Option Nat :=
  stream.clients.findIdx? fun client => client.id == id

def findClient (s : Server n) (id : UInt16) : Option (Fin (n + 1) × Nat) :=
  (List.finRange (n + 1)).findSome? fun i => (getClient (s.streams i) id).map fun k => (i, k)

/-- `stream_find`, for the client with the id. -/
def streamFind (s : Server n) (id : UInt16) : Option (Fin (n + 1)) :=
  (List.finRange (n + 1)).find? fun i => (getClient (s.streams i) id).isSome

/-- `stream_find_name`: the loop starts at the last stream. -/
def streamFindName (s : Server n) (name : List UInt8) : Option (Fin (n + 1)) :=
  (List.finRange (n + 1)).reverse.find? fun i =>
    strncmp (s.streams i).name name (s.streams i).name.length == 0

/-- `stream_find_fd`: the loop starts at the last stream. -/
def streamFindFd (s : Server n) (fd : Nat) : Option (Fin (n + 1)) :=
  (List.finRange (n + 1)).reverse.find? fun i => fd == (s.pipe i).fd

/-- The context of a pipe that is to be read from: it is opened unless it is open. -/
def openPipe (opened : Option Nat) (ctx : InputpipeCtx) : Except Fault InputpipeCtx :=
  if ctx.initialized then pure ctx else inputpipeInit opened ctx

/-- `inputpipe_resume_read`, where `opened` is what `open` gives if the pipe has to be opened. -/
def inputpipeResumeRead (opened : Option Nat) (s : Server n) (i : Fin (n + 1)) :
    Except Fault (Server n) :=
  if (s.clients i).length ≠ 0 ∧ (s.pipe i).state ≠ .playing then do
    let ctx ← openPipe opened (s.pipe i)
    let s ← s.addFd ctx.fd
    pure (s.setPipe i { ctx with state := .playing, resumeTask := none })
  else pure s

/-- The part of `inputpipe_hold` before the pipe is set idle. In the state THROTTLE there is a task to
resume reading, and `drop_task` is not guarded. -/
def stopReading (s : Server n) (i : Fin (n + 1)) : Except Fault (Server n) :=
  match (s.pipe i).state with
  | .playing => s.delFd (s.pipe i).fd
  | .throttle =>
      match (s.pipe i).resumeTask with
      | none => throw .nullPointer
      | some task => do
          let tasks ← s.tasks.dropTask task
          pure ({ s with tasks }.setPipe i { s.pipe i with resumeTask := none })
  | .idle => pure s

/-- The server after `set_idle` on the pipe of a stream. -/
def setStreamIdle (s : Server n) (i : Fin (n + 1)) : Except Fault (Server n) := do
  let (ctx, tasks) ← setIdle (s.pipe i) s.tasks
  pure ({ s with tasks }.setPipe i ctx)

def inputpipeHold (s : Server n) (i : Fin (n + 1)) : Except Fault (Server n) := do
  let s ← stopReading s i
  setStreamIdle s i

/-- `inputpipe_uninit`. The number of the descriptor is kept. -/
def inputpipeUninit (s : Server n) (i : Fin (n + 1)) : Except Fault (Server n) := do
  let s ← inputpipeHold s i
  let ctx := s.pipe i
  pure ((s.closeFd ctx.fd).setPipe i
    { ctx with chunk := chunkFreeMembers ctx.chunk, initialized := false })

/-- The part of `stream_client_add` that starts to read for the first client. -/
def startReading (opened : Option Nat) (s : Server n) (i : Fin (n + 1)) : Except Fault (Server n) :=
  if (s.clients i).length = 1 ∧ (s.pipe i).state = .idle then do
    let tasks ← s.tasks.dropHandle (s.pipe i).resumeTask
    inputpipeResumeRead opened ({ s with tasks }.setPipe i { s.pipe i with resumeTask := none }) i
  else pure s

def streamClientAdd (opened : Option Nat) (s : Server n) (i : Fin (n + 1)) (client : ClientRecord) :
    Except Fault (Server n) :=
  startReading opened (s.setClients i (s.clients i ++ [client])) i

/-- `stream_client_remove`, for the client at a position. -/
def streamClientRemove (s : Server n) (i : Fin (n + 1)) (k : Nat) : Except Fault (Server n) :=
  let s := s.setClients i ((s.clients i).eraseIdx k)
  if (s.clients i).length = 0 then inputpipeHold s i else pure s

def streamInit (stream : Stream) : Stream :=
  { stream with clients := [], packetBuffer := [], nonce := 0, initialized := true }

end Snapcastc
