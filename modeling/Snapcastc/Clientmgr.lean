import Snapcastc.Stream
import Snapcastc.IntercomTlv

/-! The client manager (`clientmgr.c`) and what it sends to clients (`intercom_srv.c`). A client that
was not heard of for five seconds is deleted by its purge task. -/

namespace Snapcastc

open Bytes

variable {n : Nat}

def intercomSendPacketUnicast (s : Server n) (recipient : In6Addr) (packet : Nat → UInt8)
    (packetLen : Nat) (port : UInt16) : Server n :=
  { s with sent := s.sent ++ [⟨recipient, port, load packet 0 packetLen⟩] }

/-- The server after it has sent an assembled packet to a client. What was on the stack before does not
get into the packet. -/
def sendAssembly (s : Server n) (client : ClientRecord) (assembly : Assembly) : Server n :=
  intercomSendPacketUnicast s client.ip assembly.packet assembly.packetLen client.port

/-- `intercom_set_volume`. -/
def intercomSetVolumeOf (s : Server n) (client : ClientRecord) (volume : UInt8) : Server n :=
  sendAssembly s client (intercomSetVolume (fun _ => 0) volume)

/-- `intercom_stop_client`. -/
def intercomStopClientOf (s : Server n) (client : ClientRecord) : Server n :=
  sendAssembly s client (intercomStopClient fun _ => 0)

def clientmgrSendAudioBufferToClient (s : Server n) (client : ClientRecord) :
    Except Fault (Server n) :=
  match streamFind s client.id with
  | none => throw .nullPointer
  | some i =>
      pure ((s.streams i).packetBuffer.foldl (fun s ap =>
        intercomSendPacketUnicast s client.ip ap.data ap.len.toNat client.port) s)

def clientmgrClientRefreshvolume (s : Server n) (client : ClientRecord) (volume : UInt8) : Server n :=
  intercomSetVolumeOf s client volume

def clientmgrStopClients (s : Server n) (i : Fin (n + 1)) : Server n :=
  (s.clients i).reverse.foldl intercomStopClientOf s

/-! ### Records -/

/-- What `intercom_handle_client_operation` knows of the sender of a HELLO. -/
structure Peer where
  hello : Hello
  ip : In6Addr
  port : UInt16
  deriving DecidableEq, Repr

/-- `new_client`: the record and the tasks afterwards. -/
def newClient (clock : ServerClock) (tasks : TaskPool (ServerTask n)) (id : UInt16) (ip : In6Addr)
    (port : UInt16) : ClientRecord × TaskPool (ServerTask n) :=
  let (purgeTask, tasks) := tasks.postTask clock.uptime 5 0 (.scheduleDeleteClient id)
  (⟨ip, port, id, false, ⟨0, 0⟩, 0, 0, 0, false, purgeTask⟩, tasks)

def Server.clientAt (s : Server n) (i : Fin (n + 1)) (k : Nat) : Option ClientRecord :=
  (s.clients i)[k]?

def Server.setClient (s : Server n) (i : Fin (n + 1)) (k : Nat) (client : ClientRecord) : Server n :=
  s.setClients i ((s.clients i).set k client)

/-- `delete_client_internal`, for the client at a position. -/
def deleteClientInternal (s : Server n) (i : Fin (n + 1)) (k : Nat) : Except Fault (Server n) :=
  match s.clientAt i k with
  | none => pure s
  | some client => do
      let tasks ← s.tasks.dropTask client.purgeTask
      streamClientRemove { s with tasks } i k

def clientmgrDeleteClient (s : Server n) (id : UInt16) : Except Fault (Server n) :=
  match findClient s id with
  | none => pure s
  | some (i, k) => deleteClientInternal s i k

def isRoughly (a b : UInt8) : Bool := a == b || decide (((a.toNat : Int) - b.toNat).natAbs < 2)

/-- The stream that a client joins when it comes. -/
abbrev firstStream : Fin (n + 1) := 0

def initFirstStream (s : Server n) : Server n :=
  if (s.streams 0).initialized then s else s.setStream 0 (streamInit (s.streams 0))

/-- What `clientmgr_refresh_client` does with a record it has just added. -/
def greetClient (s : Server n) (peer : Peer) : Except Fault (Server n) :=
  match getClient (s.streams 0) peer.hello.id with
  | none => throw .nullPointer
  | some k =>
      match s.clientAt 0 k with
      | none => throw .nullPointer
      | some existing => do
          let existing := { existing with volumePercent := peer.hello.volumePercent }
          let s ← clientmgrSendAudioBufferToClient (s.setClient 0 k existing) existing
          pure (s.setClient 0 k { existing with protoversion := 2 })

/-- The part of `clientmgr_refresh_client` that creates the record of a client, in the first stream. -/
def createClient (clock : ServerClock) (opened : Option Nat) (s : Server n) (peer : Peer) :
    Except Fault (Server n) := do
  let (client, tasks) := newClient clock s.tasks peer.hello.id peer.ip peer.port
  let s ← streamClientAdd opened (initFirstStream { s with tasks }) 0 client
  greetClient s peer

/-- The end of `clientmgr_refresh_client`: what it notes in the record at a position. -/
def noteSeen (clock : ServerClock) (s : Server n) (i : Fin (n + 1)) (k : Nat) (peer : Peer) :
    Server n :=
  match s.clientAt i k with
  | none => s
  | some existing =>
      let existing := { existing with
        connected := true, lastseen := clock.systime, latency := peer.hello.latency }
      let s := s.setClient i k existing
      if isRoughly peer.hello.volumePercent existing.volumePercent then s
      else clientmgrClientRefreshvolume s existing existing.volumePercent

/-- The part of `clientmgr_refresh_client` for a client that is not known. -/
def addClient (clock : ServerClock) (opened : Option Nat) (s : Server n) (peer : Peer) :
    Except Fault (Server n) := do
  let s ← createClient clock opened s peer
  match getClient (s.streams 0) peer.hello.id with
  | none => throw .nullPointer
  | some k => pure (noteSeen clock s 0 k peer)

/-- `clientmgr_refresh_client`. A client that comes from another port is taken to be another instance. -/
def clientmgrRefreshClient (clock : ServerClock) (opened : Option Nat) (s : Server n) (peer : Peer) :
    Except Fault (Server n) :=
  match findClient s peer.hello.id with
  | none => addClient clock opened s peer
  | some (i, k) =>
      match s.clientAt i k with
      | none => throw .nullPointer
      | some existing =>
          if peer.port ≠ existing.port then do
            let s ← clientmgrDeleteClient s peer.hello.id
            addClient clock opened s peer
          else do
            let tasks ← s.tasks.rescheduleTask clock.uptime 5 0 (some existing.purgeTask)
            pure (noteSeen clock { s with tasks } i k peer)

/-- `clientmgr_client_setmute`, for the client at a position. -/
def clientmgrClientSetmute (s : Server n) (i : Fin (n + 1)) (k : Nat) (mute : Bool) :
    Except Fault (Server n) :=
  match s.clientAt i k with
  | none => throw .nullPointer
  | some client => do
      let s := s.setClient i k { client with muted := mute }
      if mute then pure (intercomStopClientOf s { client with muted := mute })
      else if client.muted ≠ mute then
        clientmgrSendAudioBufferToClient s { client with muted := mute }
      else pure s

end Snapcastc
