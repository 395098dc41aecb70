import Snapcastc.PqueueContents
import Snapcastc.IntercomTlv
import Snapcastc.Tasks

/-! The client's state, and what the intercom uses of the player (`alsaplayer.c`): the format of the
device, its volume and the task that closes it. The ALSA and opus libraries are parameters. -/

namespace Snapcastc

/-- A chunk in the receive buffer. The program does not keep the sequence number it came with. -/
structure StoredChunk where
  chunk : PcmChunk
  seqno : UInt32
  deriving DecidableEq, Repr, Inhabited

/-- `receivebuffer_cmp` on stored chunks. -/
def storedCmp (c1 c2 : StoredChunk) : Int := receivebufferCmp c1.chunk c2.chunk

/-- The receive buffer. Its capacity is a 16-bit number of milliseconds divided by the length of a
chunk, plus one. -/
structure ReceiveBuffer where
  queue : PQueue StoredChunk
  capacity_pos : 0 < queue.capacity
  capacity_le : queue.capacity ≤ 65536

namespace ReceiveBuffer

/-- `realloc_intercom_buffer`, for a number of elements. -/
def new (elements : Nat) (hpos : 0 < elements) (hle : elements ≤ 65536) : ReceiveBuffer :=
  ⟨PQueue.new (fun _ => default) storedCmp elements, hpos, hle⟩

def capacity (buffer : ReceiveBuffer) : Nat := buffer.queue.capacity

def contents (buffer : ReceiveBuffer) : List StoredChunk := buffer.queue.contents

def peek (buffer : ReceiveBuffer) : Option PcmChunk := buffer.queue.peek.map StoredChunk.chunk

def enqueue (buffer : ReceiveBuffer) (stored : StoredChunk) : ReceiveBuffer where
  queue := buffer.queue.enqueue stored
  capacity_pos := by simpa using buffer.capacity_pos
  capacity_le := by simpa using buffer.capacity_le

def dequeue (buffer : ReceiveBuffer) : ReceiveBuffer where
  queue := buffer.queue.dequeue.2
  capacity_pos := by simpa using buffer.capacity_pos
  capacity_le := by simpa using buffer.capacity_le

/-- The loop of `remove_old_data_from_receivebuffer`. The variable `oldest` that the loop tests is
not the one the body assigns, so the test is on the time alone. -/
def removeOldLoop (ctime : Timespec) : Nat → ReceiveBuffer → Timespec → ReceiveBuffer
  | 0, buffer, _ => buffer
  | rounds + 1, buffer, oldestPlayAt =>
      if oldestPlayAt.tvSec ≠ 0 ∧ timespecCmp ctime oldestPlayAt > 0 then
        removeOldLoop ctime rounds buffer.dequeue (chunkGetPlayAt buffer.dequeue.peek)
      else buffer

/-- `remove_old_data_from_receivebuffer`: every round of the loop removes a chunk, and without a
chunk the time is zero. -/
def removeOldData (ctime : Timespec) (buffer : ReceiveBuffer) : ReceiveBuffer :=
  match buffer.peek with
  | none => buffer
  | some oldest => removeOldLoop ctime buffer.queue.size buffer (chunkGetPlayAt (some oldest))

/-- `intercom_put_chunk`. -/
def putChunk (ctime : Timespec) (buffer : ReceiveBuffer) (stored : StoredChunk) : ReceiveBuffer :=
  (buffer.removeOldData ctime).enqueue stored

end ReceiveBuffer

/-! ### The state and the player -/

inductive ClientTask where
  | hello
  | request (seqno : UInt32) (retriesLeft : UInt8)
  | alsaplayerUninit
  | intercomReinit
  | decodeFirstInput
  deriving DecidableEq, Repr

/-- The server operations a client can execute. -/
inductive ServerOperation where
  | stop
  | volume (percent : UInt8)
  deriving DecidableEq, Repr

/-- A mixer element: `mixer_max` and the volume it is set to, both `long`s. -/
structure Mixer where
  max : Int64
  volume : Int64
  deriving DecidableEq, Repr

/-- `alsaplayer_ctx`, as far as the intercom uses it. `mixer` is the element of the device that
`mixer_init` finds. -/
structure AlsaplayerCtx where
  rate : UInt32
  channels : UInt8
  frameSize : UInt8
  initialized : Bool
  playing : Bool
  emptyChunksInRow : Nat
  overflow : Option PcmChunk
  isSoftvol : Bool
  softvolLevel : UInt8
  mixer : Option Mixer
  closeTask : Option Nat

/-- The client. `operations` are the server operations it has executed so far, which the program does
not keep. -/
structure Client where
  recentPackets : List IntercomPacketHdr
  missingPackets : List UInt32
  lastreceviedseqno : Nat
  receivebuffer : Option ReceiveBuffer
  bufferms : UInt16
  nonce : UInt32
  decoder : Bool
  alsaplayer : AlsaplayerCtx
  tasks : TaskPool ClientTask
  operations : List ServerOperation

/-- The client that `main` and `intercom_init` set up, with a random nonce. -/
def freshClient (nonce : UInt32) (softvol : Bool) (mixer : Option Mixer) : Client where
  recentPackets := []
  missingPackets := []
  lastreceviedseqno := 0
  receivebuffer := none
  bufferms := 1000
  nonce := nonce
  decoder := false
  alsaplayer := ⟨0, 0, 0, false, false, 0, none, softvol, 0, mixer, none⟩
  tasks := (TaskPool.empty.postTask ⟨0, 0⟩ 0 0 .hello).2
  operations := []

/-- What the client uses of libopus and of ALSA: the rate a device chooses for a requested one, how
many poll descriptors it has and whether it hands them out. -/
structure ClientEnv where
  opus : OpusDecoder
  setRateNear : UInt32 → UInt32
  pollDescriptorsCount : Int
  pollDescriptors : Int

/-- The clock readings of one call: the system time when the packet is looked at, the system time
when the chunk is stored, and the monotonic time. -/
structure ClientClock where
  ctime : Timespec
  later : Timespec
  uptime : Timespec

def mixerInit (ctx : AlsaplayerCtx) : AlsaplayerCtx :=
  match ctx.mixer with
  | some _ => ctx
  | none => { ctx with isSoftvol := true, softvolLevel := 100 }

def adjustVolume (ctx : AlsaplayerCtx) (volume : UInt8) : AlsaplayerCtx :=
  if ctx.isSoftvol then { ctx with softvolLevel := volume }
  else
    let ctx := mixerInit ctx
    { ctx with
      mixer := ctx.mixer.map fun mixer =>
        { mixer with volume := .ofNat volume.toNat * mixer.max / 100 } }

def alsaplayerRemoveTask (s : Client) : Except Fault Client := do
  let tasks ← s.tasks.dropHandle s.alsaplayer.closeTask
  pure { s with tasks, alsaplayer := { s.alsaplayer with closeTask := none } }

/-- `alsaplayer_uninit`. The handle of the task is kept. -/
def alsaplayerUninit (s : Client) : Except Fault Client :=
  if s.alsaplayer.initialized then do
    let tasks ← s.tasks.dropHandle s.alsaplayer.closeTask
    pure { s with
      tasks
      alsaplayer := { s.alsaplayer with initialized := false, playing := false } }
  else pure s

/-- `alsaplayer_init`. The device is closed again after 1.2 times the buffer length, which is computed
in floating point but exactly. -/
def alsaplayerInit (env : ClientEnv) (clock : ClientClock) (s : Client) : Except Fault Client :=
  let ctx :=
    { s.alsaplayer with emptyChunksInRow := 0, playing := false, overflow := none }
  if ctx.initialized then pure { s with alsaplayer := ctx }
  else if ctx.frameSize.toNat < 1 ∨ 4 < ctx.frameSize.toNat then
    throw (.exitError "unsupported format: frame_size %lu\n")
  else if env.pollDescriptorsCount ≤ 0 then throw .assertion
  else if env.pollDescriptors < 0 then
    throw (.exitError "Unable to obtain poll descriptors for playback: %s\n")
  else
    let closeMs := s.bufferms.toNat * 6 / 5
    let (task, tasks) :=
      s.tasks.postTask clock.uptime (closeMs / 1000 : Nat) (closeMs % 1000 : Nat) .alsaplayerUninit
    pure { s with
      tasks
      alsaplayer :=
        { ctx with rate := env.setRateNear ctx.rate, closeTask := some task, initialized := true } }

def initAlsafd (env : ClientEnv) (s : Client) : Except Fault Client :=
  if env.pollDescriptors < 0 then
    throw (.exitError "Unable to obtain ALSA poll descriptors for audio playback: %s\n")
  else pure s

end Snapcastc
