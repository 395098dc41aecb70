import Snapcastc.ClientChunks
import Snapcastc.ServerSent

/-! The server and the main loop of a client with the network between them. Datagrams get lost, arrive in any
order, at any time and more than once, but what arrives was sent. Then the client plays nothing but silence and
what the streams have sent to it, and it obeys no operation but those of the server. -/

namespace Snapcastc

open Provenance

variable {n : Nat}

/-- The server and a client. -/
structure Network (n : Nat) where
  server : Server n
  client : ClientMain

/-- What can happen: an event of the server or a step of the client. -/
inductive NetworkEvent where
  | server (event : ServerEvent)
  | client (event : ClientMainEvent)

def networkStep (config : ClientConfig) (w : Network n) : NetworkEvent → Except Fault (Network n)
  | .server event => do
      let server ← serverStep w.server event
      pure { w with server }
  | .client event => do
      let client ← clientMainStep config w.client event
      pure { w with client }

/-- What waits at the socket of the client, which has the address, is any of the datagrams that the server has
sent there so far; the encoder keeps to its limit. -/
def WasSent (ip : In6Addr) (port : UInt16) (w : Network n) : NetworkEvent → Prop
  | .server event => event.OpusWrites
  | .client (.handle results) =>
      ∀ datagram ∈ results.datagrams, ⟨ip, port, datagram.bytes⟩ ∈ w.server.sent
  | .client _ => True

instance (event : ServerEvent) : Decidable event.OpusWrites :=
  match event with
  | .pipeInput _ _ encoded _ => inferInstanceAs (Decidable (OpusWrites encoded))
  | .epollWait _ | .pipeHangup .. | .hello .. | .request .. | .setStream .. | .setVolume _ | .fire .. =>
      .isTrue trivial

instance (ip : In6Addr) (port : UInt16) (w : Network n) (event : NetworkEvent) :
    Decidable (WasSent ip port w event) :=
  match event with
  | .server event => inferInstanceAs (Decidable event.OpusWrites)
  | .client (.handle results) => inferInstanceAs (Decidable (∀ datagram ∈ results.datagrams, _ ∈ w.server.sent))
  | .client (.poll ..) | .client .terminate => .isTrue trivial

/-- Both parties when they enter their loops. -/
def freshNetwork (bufferms : UInt16) (options : Fin (n + 1) → StreamOptions) (nonce : UInt32) (softvol : Bool)
    (mixer : Option Mixer) (intercomFd : Nat) : Network n :=
  ⟨freshServer bufferms options, enterClientLoop nonce softvol mixer intercomFd⟩

def packetsTo (s : Server n) (ip : In6Addr) (port : UInt16) : Set SentAudio :=
  { sent | (∃ i, sent ∈ s.histories i) ∧ ⟨ip, port, sent.bytes⟩ ∈ s.sent }

/-- Nothing that was sent to the address is taken back. -/
theorem serverStep_packetsTo {s s' : Server n} {event : ServerEvent} (hsent : SentInv s)
    (hopus : event.OpusWrites) (hrun : serverStep s event = .ok s') (ip : In6Addr) (port : UInt16) :
    packetsTo s ip port ⊆ packetsTo s' ip port ∧ s'.bufferms = s.bufferms ∧ s.sent ⊆ s'.sent := by
  obtain ⟨hmore, -⟩ := serverStep_genuine hsent.kept (hsent.kept.step hopus.returns hrun) hsent.genuine hrun
  refine ⟨fun sent hmem => ?_, serverStep_bufferms hsent.kept hrun, hmore.subset⟩
  obtain ⟨⟨i, hhistory⟩, haddressed⟩ := hmem
  exact ⟨⟨i, serverStep_histories hsent.kept hrun i hhistory⟩, hmore.subset haddressed⟩

/-- The stored chunk is the one in the packet, decoded or not, under the number of the packet. -/
def StoredOf (opus : OpusDecoder) (bufferms : UInt16) (sent : SentAudio) (stored : StoredChunk) : Prop :=
  ∃ chunk, sent.Carries bufferms chunk ∧ StoredDerived opus ⟨chunk, sent.nonce⟩ stored

/-- What the player is given is the chunk in the packet. -/
def PlayedOf (config : ClientConfig) (bufferms : UInt16) (sent : SentAudio) (played : PcmChunk) : Prop :=
  ∃ chunk, sent.Carries bufferms chunk ∧ Handed config.env.opus config.speed ⟨chunk, sent.nonce⟩ played

theorem StoredOf.derived {opus : OpusDecoder} {bufferms : UInt16} {sent : SentAudio} {before after : StoredChunk}
    (hstored : StoredOf opus bufferms sent before) (hderived : StoredDerived opus before after) :
    StoredOf opus bufferms sent after := by
  obtain ⟨chunk, hcarries, hbefore⟩ := hstored
  exact ⟨chunk, hcarries, hbefore.trans hderived⟩

theorem StoredOf.handed {config : ClientConfig} {bufferms : UInt16} {sent : SentAudio} {stored : StoredChunk}
    {played : PcmChunk} (hstored : StoredOf config.env.opus bufferms sent stored)
    (hhanded : Handed config.env.opus config.speed stored played) : PlayedOf config bufferms sent played := by
  obtain ⟨chunk, hcarries, hderived⟩ := hstored
  exact ⟨chunk, hcarries, hhanded.of_derived hderived⟩

/-! ### The client -/

/-- What the process keeps and has done goes back to the server. -/
structure FromServer (opus : OpusDecoder) (s : Server n) (ip : In6Addr) (port : UInt16) (client : Client) :
    Prop where
  chunks : Drawn (StoredOf opus s.bufferms) (packetsTo s ip port) (keptChunks client)
  operations : ∀ op ∈ client.operations, ⟨ip, port, operationBytes op⟩ ∈ s.sent

namespace FromServer

variable {opus : OpusDecoder} {s : Server n} {ip : In6Addr} {port : UInt16} {client client' : Client}

theorem nothingNew (hfrom : FromServer opus s ip port client) (hnew : NothingNew opus client client') :
    FromServer opus s ip port client' := by
  refine ⟨.trans (fun {_ _ _} hstored hderived => hstored.derived hderived) hfrom.chunks hnew.chunks, ?_⟩
  rw [hnew.operations]
  exact hfrom.operations

/-- An AUDIO packet arrives that was sent. -/
theorem audio {env : ClientEnv} (hsent : SentInv s) (hfrom : FromServer env.opus s ip port client)
    (clock : ClientClock) {sent : SentAudio} (hmem : sent ∈ packetsTo s ip port) (stale : Nat → UInt8)
    (packetLen : Nat) :
    FromServer env.opus s ip port
      (intercomHandlePacket env clock client (received stale clientMtu sent.bytes) packetLen).state := by
  obtain ⟨i, hhistory⟩ := hmem.1
  obtain ⟨chunk, hcarries⟩ := hsent.carries i sent hhistory
  obtain ⟨hchunk, hhdr⟩ := hcarries.received stale
  have haudio : IsAudioPacket (received stale clientMtu sent.bytes) := by
    rw [IsAudioPacket, clientMtu, hhdr]
    exact ⟨rfl, rfl⟩
  have hstored : packetStored (received stale clientMtu sent.bytes) = ⟨chunk, sent.nonce⟩ := by
    rw [packetStored, clientMtu, hchunk, hhdr]
  obtain ⟨hchunks, hops⟩ := handlePacket_audio_chunks env clock client packetLen haudio
  rw [hstored] at hchunks
  have hsource : Drawn (StoredOf env.opus s.bufferms) (packetsTo s ip port)
      (insert ⟨chunk, sent.nonce⟩ (keptChunks client)) := by
    rintro stored (rfl | hold)
    · exact ⟨sent, hmem, chunk, hcarries, .refl _ _⟩
    · exact hfrom.chunks stored hold
  refine ⟨.trans (fun {_ _ _} hstored hderived => hstored.derived hderived) hsource hchunks, ?_⟩
  rw [hops]
  exact hfrom.operations

/-- A server operation arrives that was sent. -/
theorem operation {env : ClientEnv} (hfrom : FromServer env.opus s ip port client) (clock : ClientClock)
    {op : ServerOperation} (hop : ⟨ip, port, operationBytes op⟩ ∈ s.sent) (stale : Nat → UInt8) :
    FromServer env.opus s ip port (intercomHandlePacket env clock client
      (received stale clientMtu (operationBytes op)) (operationBytes op).length).state := by
  obtain ⟨hchunks, hops⟩ := handlePacket_operation_chunks env clock client op stale
  refine ⟨.trans (fun {_ _ _} hstored hderived => hstored.derived hderived) hfrom.chunks hchunks, ?_⟩
  intro other hother
  rcases hops with hsame | hmore
  · exact hfrom.operations other (hsame ▸ hother)
  · have hother : other ∈ client.operations ++ [op] := hmore ▸ hother
    rcases List.mem_append.mp hother with hold | hlast
    · exact hfrom.operations other hold
    · rw [List.mem_singleton.mp hlast]
      exact hop

/-- Any datagram arrives that the server has sent. -/
theorem packet {env : ClientEnv} (hsent : SentInv s) (hfrom : FromServer env.opus s ip port client)
    (clock : ClientClock) {bytes : List UInt8} (hbytes : ⟨ip, port, bytes⟩ ∈ s.sent) (stale : Nat → UInt8) :
    FromServer env.opus s ip port (intercomHandlePacket env clock client (received stale clientMtu bytes)
      (bytes.take clientMtu).length).state := by
  rcases (hsent.genuine _ hbytes).cases with ⟨i, sent, hmem, rfl⟩ | ⟨op, rfl⟩
  · exact hfrom.audio hsent clock ⟨⟨i, hmem⟩, hbytes⟩ stale _
  · have hlength : (operationBytes op).take clientMtu = operationBytes op :=
      List.take_of_length_le (operationBytes_length_le op)
    rw [hlength]
    exact hfrom.operation clock hbytes stale

/-- The socket brings a datagram or an error. -/
theorem socket {env : ClientEnv} {p p' : ClientProcess} (hsent : SentInv s)
    (hfrom : FromServer env.opus s ip port p.client) {results : ClientResults} {event : ProcessEvent}
    (hevent : socketEvent results event)
    (hwas : ∀ datagram ∈ results.datagrams, ⟨ip, port, datagram.bytes⟩ ∈ s.sent)
    (hrun : processStep env p event = .ok p') : FromServer env.opus s ip port p'.client := by
  cases event with
  | datagram packet packetLen clock =>
      obtain ⟨datagram, hmem, -, rfl, stale, rfl⟩ := hevent
      unfold processStep at hrun
      split at hrun
      · cases hrun
        exact hfrom
      · dsimp only at hrun
        split_ifs at hrun
        · unfold receiveDatagram at hrun
          split at hrun
          · cases hrun
          · cases hrun
            exact hfrom.packet hsent clock (hwas datagram hmem) stale
        · cases hrun
          exact hfrom
  | networkError clock =>
      exact hfrom.nothingNew (processStep_nothingNew hrun fun _ _ _ hdatagram => by cases hdatagram)
  | fire id changed resolved clock => exact hevent.elim
  | getchunk dropped takes clock => exact hevent.elim
  | sigterm => exact hevent.elim

/-- A step of the main loop. -/
theorem step {config : ClientConfig} {m m' : ClientMain} (hsent : SentInv s)
    (hfrom : FromServer config.env.opus s ip port m.process.client) {event : ClientMainEvent}
    (hwas : ∀ results, event = .handle results →
      ∀ datagram ∈ results.datagrams, ⟨ip, port, datagram.bytes⟩ ∈ s.sent)
    (hrun : clientMainStep config m event = .ok m') :
    FromServer config.env.opus s ip port m'.process.client := by
  have hmoves : ClientMoves config.env (fun e => ownEvent e ∨ ∃ results, event = .handle results ∧
      socketEvent results e) m.process m'.process :=
    .mainStep (fun e hown => .inl hown) (fun results hhandle _ e hsocket => .inr ⟨results, hhandle, hsocket⟩) hrun
  let inv (p : ClientProcess) : Prop := FromServer config.env.opus s ip port p.client
  refine @ClientMoves.invariant config.env _ m.process m'.process inv ?_ ?_ hfrom hmoves
  · rintro p p' e (hown | ⟨results, hhandle, hsocket⟩) hfrom hstep
    · refine hfrom.nothingNew (processStep_nothingNew hstep fun packet packetLen clock hdatagram => ?_)
      rw [hdatagram] at hown
      exact hown
    · exact hfrom.socket hsent hsocket (hwas results hhandle) hstep
  · exact fun overflow hfrom => ⟨hfrom.chunks, hfrom.operations⟩

/-- The server sends more. -/
theorem server {s' : Server n} {event : ServerEvent} (hsent : SentInv s) (hopus : event.OpusWrites)
    (hfrom : FromServer opus s ip port client) (hrun : serverStep s event = .ok s') :
    FromServer opus s' ip port client := by
  obtain ⟨hpackets, hbufferms, hmore⟩ := serverStep_packetsTo hsent hopus hrun ip port
  refine ⟨?_, fun op hop => hmore (hfrom.operations op hop)⟩
  rw [hbufferms]
  exact hfrom.chunks.mono hpackets (Set.Subset.refl _)

end FromServer

/-! ### Runs -/

/-- Everything that the client has kept, played and done goes back to the server. -/
structure NetworkInv (config : ClientConfig) (ip : In6Addr) (port : UInt16) (w : Network n) : Prop where
  sent : SentInv w.server
  process : FromServer config.env.opus w.server ip port w.client.process.client
  played : Drawn (PlayedOf config w.server.bufferms) (packetsTo w.server ip port) (soundOf w.client.fetched)

theorem NetworkInv.step {config : ClientConfig} {ip : In6Addr} {port : UInt16} {w w' : Network n}
    {event : NetworkEvent} (hinv : NetworkInv config ip port w) (hwas : WasSent ip port w event)
    (hrun : networkStep config w event = .ok w') : NetworkInv config ip port w' := by
  cases event with
  | server event =>
      obtain ⟨server, hstep, hrun⟩ := except_bind_ok hrun
      cases hrun
      obtain ⟨hpackets, hbufferms, -⟩ := serverStep_packetsTo hinv.sent hwas hstep ip port
      refine ⟨hinv.sent.step hwas hstep, hinv.process.server hinv.sent hwas hstep, ?_⟩
      dsimp only
      rw [hbufferms]
      exact hinv.played.mono hpackets (Set.Subset.refl _)
  | client event =>
      obtain ⟨client, hstep, hrun⟩ := except_bind_ok hrun
      cases hrun
      have hwaiting : ∀ results, event = .handle results →
          ∀ datagram ∈ results.datagrams, ⟨ip, port, datagram.bytes⟩ ∈ w.server.sent := by
        rintro results rfl
        exact hwas
      refine ⟨hinv.sent, hinv.process.step hinv.sent hwaiting hstep, ?_⟩
      obtain ⟨more, hfetched, hmore⟩ := clientMainStep_fetches hstep
      have hnew : Drawn (PlayedOf config w.server.bufferms) (packetsTo w.server ip port) (soundOf more) :=
        .trans (fun {_ _ _} hstored hhanded => hstored.handed hhanded) hinv.process.chunks hmore
      refine (hinv.played.union hnew).mono (Set.Subset.refl _) fun chunk hchunk => ?_
      obtain ⟨hmem, hsound⟩ := hchunk
      dsimp only at hmem
      rw [hfetched] at hmem
      exact (List.mem_append.mp hmem).imp (fun hold => ⟨hold, hsound⟩) fun hlast => ⟨hlast, hsound⟩

theorem NetworkInv.fresh (config : ClientConfig) (bufferms : UInt16) (options : Fin (n + 1) → StreamOptions)
    (nonce : UInt32) (softvol : Bool) (mixer : Option Mixer) (intercomFd : Nat) (ip : In6Addr) (port : UInt16) :
    NetworkInv config ip port (freshNetwork bufferms options nonce softvol mixer intercomFd) where
  sent := .fresh bufferms options
  process := ⟨fun _ hkept => absurd hkept List.not_mem_nil, fun _ hop => absurd hop List.not_mem_nil⟩
  played := fun _ hplayed => absurd hplayed.1 List.not_mem_nil

/-- Whatever happens to datagrams on their way, everything but silence that the player of a client is given is
the chunk of an AUDIO packet that a stream of the server has sent to the client, decoded and at its speed; and
the client executes only operations that were sent to it. -/
theorem playback_genuine (config : ClientConfig) (bufferms : UInt16) (options : Fin (n + 1) → StreamOptions)
    (nonce : UInt32) (softvol : Bool) (mixer : Option Mixer) (intercomFd : Nat) (ip : In6Addr) (port : UInt16)
    (events : List NetworkEvent) (w : Network n)
    (hrun : Runs.run (networkStep config) (freshNetwork bufferms options nonce softvol mixer intercomFd) events =
      .ok w)
    (hwas : Runs.Along (networkStep config) (WasSent ip port)
      (freshNetwork bufferms options nonce softvol mixer intercomFd) events) :
    (∀ played ∈ w.client.fetched, ¬Silent played →
      ∃ sent ∈ packetsTo w.server ip port, PlayedOf config w.server.bufferms sent played) ∧
      ∀ op ∈ w.client.process.client.operations, ⟨ip, port, operationBytes op⟩ ∈ w.server.sent := by
  have hinv := Runs.run_invariant (NetworkInv config ip port)
    (fun _ hinv hwas hstep => hinv.step hwas hstep)
    (.fresh config bufferms options nonce softvol mixer intercomFd ip port) hwas hrun
  exact ⟨fun played hmem hsound => hinv.played played ⟨hmem, hsound⟩, hinv.process.operations⟩

/-- A decoder that gives the bytes back as two frames. -/
def echoDevice : ClientEnv := ⟨⟨fun _ _ => 0, fun data _ => (2, data)⟩, id, 1, 0⟩

/-- What the server sends with its first chunk. -/
def firstDatagrams : List ClientDatagram :=
  [⟨operationBytes .stop, secondOf 2⟩,
    ⟨audioBytes 1000 0 ⟨2, 100000000, 1000, 1, 1, 2, codecOpus, [8, 9]⟩, secondOf 2⟩]

/-- The client says hello, the server reads a chunk from the pipe, and the client receives and plays it. -/
def chunkPlayed : List NetworkEvent :=
  oneChunkEvents.map .server ++ [.client (.poll 0 false (some ⟨true, false, false⟩)),
    .client (.handle (resultsAt (secondOf 2) [] firstDatagrams)), .client (.poll 1 false none),
    .client (.handle (resultsAt ⟨⟨2, 100000000⟩, ⟨2, 100000000⟩, ⟨2, 100000000⟩⟩ [] []))]

theorem playback_genuine_chunk :
    ∃ w, Runs.run (networkStep ⟨echoDevice, sameSpeed, 0⟩) (freshNetwork 1000 oneStream 7 true none 4) chunkPlayed =
        .ok w ∧ ∃ played ∈ w.client.fetched, played.data = [8, 9] ∧
          ∃ sent ∈ packetsTo w.server ⟨1⟩ 100, PlayedOf ⟨echoDevice, sameSpeed, 0⟩ w.server.bufferms sent played := by
  obtain ⟨w, hrun, hview⟩ := except_map_ok (show (Runs.run (networkStep ⟨echoDevice, sameSpeed, 0⟩)
    (freshNetwork 1000 oneStream 7 true none 4) chunkPlayed).map (fun w => w.client.fetched.map fun chunk =>
      (chunk.data, chunk.size)) = .ok [([8, 9], 2)] by decide +kernel)
  obtain ⟨hfetched, -⟩ := playback_genuine ⟨echoDevice, sameSpeed, 0⟩ 1000 oneStream 7 true none 4 ⟨1⟩ 100
    chunkPlayed w hrun (by decide +kernel)
  obtain ⟨played, hmem, hdata⟩ := List.mem_map.mp (hview ▸ List.mem_singleton_self _)
  obtain ⟨hdata, hsize⟩ := Prod.mk.inj hdata
  refine ⟨w, hrun, played, hmem, hdata, hfetched played hmem fun hsilent => ?_⟩
  rw [Silent, hdata, hsize] at hsilent
  exact absurd hsilent (by decide)

end Snapcastc
