import Snapcastc.NetworkPlayback
import Snapcastc.ServerInput

/-! From the pipes of the server to the player of a client: what is played was read from one pipe, one byte after
the other, encoded by the server and decoded by the client. -/

namespace Snapcastc

variable {n : Nat}

def noteInput (w : Network n) (event : NetworkEvent) (read : Fin (n + 1) → List UInt8) : Fin (n + 1) → List UInt8 :=
  match event with
  | .server event => noteRead w.server event read
  | .client _ => read

/-- Datagrams that arrive were sent, and `encodes` is what the encoder does. -/
def SentEncoded (encodes : List UInt8 → List UInt8 → Prop) (ip : In6Addr) (port : UInt16) (w : Network n)
    (event : NetworkEvent) : Prop :=
  WasSent ip port w event ∧
    match event with
    | .server event => EncodesWith encodes w.server event
    | .client _ => True

instance {encodes : List UInt8 → List UInt8 → Prop} [∀ pcm packet, Decidable (encodes pcm packet)] (ip : In6Addr)
    (port : UInt16) (w : Network n) (event : NetworkEvent) : Decidable (SentEncoded encodes ip port w event) := by
  unfold SentEncoded
  split <;> infer_instance

/-- What the player is given is what the decoder makes of an encoding of the bytes, at its speed. -/
def PlayedFrom (config : ClientConfig) (encodes : List UInt8 → List UInt8 → Prop) (pcm : List UInt8)
    (played : PcmChunk) : Prop :=
  ∃ packet : PcmChunk, encodes pcm packet.data ∧
    (played = opusDecoded config.env.opus packet ∨ ∃ start next,
      played = { opusDecoded config.env.opus packet with
        size := (config.speed (opusDecoded config.env.opus packet) start next).1
        data := (config.speed (opusDecoded config.env.opus packet) start next).2 })

/-- There is only one chunk in a packet. -/
theorem SentAudio.Carries.unique {bufferms : UInt16} {sent : SentAudio} {chunk chunk' : PcmChunk}
    (hcarries : sent.Carries bufferms chunk) (hcarries' : sent.Carries bufferms chunk') : chunk' = chunk := by
  rw [← (hcarries.received fun _ => 0).1, (hcarries'.received fun _ => 0).1]

theorem MadeOf.played {config : ClientConfig} {encodes : List UInt8 → List UInt8 → Prop} {bufferms : UInt16}
    {read : List UInt8} {sent : SentAudio} {played : PcmChunk} (hmade : MadeOf encodes bufferms read sent)
    (hplayed : PlayedOf config bufferms sent played) :
    ∃ pcm, pcm <:+: read ∧ PlayedFrom config encodes pcm played := by
  obtain ⟨chunk, hcarries, hcodec, pcm, hpart, hencodes⟩ := hmade
  obtain ⟨chunk', hcarries', decoded, hderived, hplain, hchunk⟩ := hplayed
  obtain rfl := hcarries.unique hcarries'
  rcases hderived with rfl | ⟨-, rfl⟩
  · exact absurd hcodec hplain
  · exact ⟨pcm, hpart, chunk', hencodes, hchunk⟩

theorem InputInv.networkStep {config : ClientConfig} {encodes : List UInt8 → List UInt8 → Prop} {ip : In6Addr}
    {port : UInt16} {read : Fin (n + 1) → List UInt8} {w w' : Network n} {event : NetworkEvent}
    (hinv : InputInv encodes read w.server) (hkept : KeptInv w.server) (hsent : SentEncoded encodes ip port w event)
    (hrun : networkStep config w event = .ok w') : InputInv encodes (noteInput w event read) w'.server := by
  cases event with
  | server event =>
      obtain ⟨server, hserver, hrun⟩ := except_bind_ok hrun
      cases hrun
      exact hinv.step hkept hsent.2 hserver
  | client event =>
      obtain ⟨client, -, hrun⟩ := except_bind_ok hrun
      cases hrun
      exact hinv

/-- Whatever happens to datagrams on their way, everything but silence that the player of a client is given is
what the decoder makes of an encoding of consecutive bytes that the server has read from the pipe of a stream. -/
theorem playback_from_pipe (config : ClientConfig) (encodes : List UInt8 → List UInt8 → Prop) (bufferms : UInt16)
    (options : Fin (n + 1) → StreamOptions) (nonce : UInt32) (softvol : Bool) (mixer : Option Mixer)
    (intercomFd : Nat) (ip : In6Addr) (port : UInt16) (events : List NetworkEvent) (w : Network n)
    (hrun : Runs.run (networkStep config) (freshNetwork bufferms options nonce softvol mixer intercomFd) events =
      .ok w)
    (hsent : Runs.Along (networkStep config) (SentEncoded encodes ip port)
      (freshNetwork bufferms options nonce softvol mixer intercomFd) events) :
    ∀ played ∈ w.client.fetched, ¬Silent played → ∃ i pcm,
      pcm <:+: Runs.record (networkStep config) noteInput
        (freshNetwork bufferms options nonce softvol mixer intercomFd) events (fun _ => []) i ∧
      PlayedFrom config encodes pcm played := by
  have hfresh : NetworkInv config ip port (freshNetwork bufferms options nonce softvol mixer intercomFd) :=
    .fresh config bufferms options nonce softvol mixer intercomFd ip port
  obtain ⟨hnetwork, hinput⟩ := Runs.run_record noteInput
    (fun read w => NetworkInv config ip port w ∧ InputInv encodes read w.server)
    (fun hinv hsent hstep => ⟨hinv.1.step hsent.1 hstep, hinv.2.networkStep hinv.1.sent.kept hsent hstep⟩)
    ⟨hfresh, .fresh encodes bufferms options⟩ hsent hrun
  intro played hmem hsound
  obtain ⟨sent, ⟨⟨i, hhistory⟩, -⟩, hplayed⟩ := hnetwork.played played ⟨hmem, hsound⟩
  exact ⟨i, (hinput.packets i sent hhistory).played hplayed⟩

def firstTwo (pcm packet : List UInt8) : Prop := packet = pcm.take 2

instance (pcm packet : List UInt8) : Decidable (firstTwo pcm packet) :=
  inferInstanceAs (Decidable (packet = pcm.take 2))

/-- The client says hello, 20 bytes are read from the pipe, and the client plays what was encoded. -/
def pipePlayed : List NetworkEvent :=
  [.server (helloFrom 1 100 1), .server (.epollWait [4]),
    .server (.pipeInput 4 (some (List.replicate 20 7)) (2, [7, 7]) (clockAt 2)),
    .client (.poll 0 false (some ⟨true, false, false⟩)),
    .client (.handle (resultsAt (secondOf 2) [] [⟨operationBytes .stop, secondOf 2⟩,
      ⟨audioBytes 1000 0 ⟨2, 100000000, 1000, 1, 1, 2, codecOpus, [7, 7]⟩, secondOf 2⟩])),
    .client (.poll 1 false none),
    .client (.handle (resultsAt ⟨⟨2, 100000000⟩, ⟨2, 100000000⟩, ⟨2, 100000000⟩⟩ [] []))]

theorem playback_from_pipe_first :
    ∃ w : Network 0, Runs.run (networkStep ⟨echoDevice, sameSpeed, 0⟩) (freshNetwork 1000 oneStream 7 true none 4)
        pipePlayed = .ok w ∧ ∃ played ∈ w.client.fetched, played.data = [7, 7] ∧
          ∃ pcm, pcm <:+: List.replicate 20 7 ∧ PlayedFrom ⟨echoDevice, sameSpeed, 0⟩ firstTwo pcm played := by
  obtain ⟨w, hrun, hview⟩ := except_map_ok (show (Runs.run (networkStep ⟨echoDevice, sameSpeed, 0⟩)
    (freshNetwork 1000 oneStream 7 true none 4) pipePlayed).map (fun w => w.client.fetched.map fun chunk =>
      (chunk.data, chunk.size)) = .ok [([7, 7], 2)] by decide +kernel)
  have hfetched := playback_from_pipe ⟨echoDevice, sameSpeed, 0⟩ firstTwo 1000 oneStream 7 true none 4 ⟨1⟩ 100
    pipePlayed w hrun (by decide +kernel)
  obtain ⟨played, hmem, hdata⟩ := List.mem_map.mp (hview ▸ List.mem_singleton_self _)
  obtain ⟨hdata, hsize⟩ := Prod.mk.inj hdata
  obtain ⟨i, pcm, hpart, hplayed⟩ := hfetched played hmem fun hsilent => by
    rw [Silent, hdata, hsize] at hsilent
    exact absurd hsilent (by decide)
  obtain rfl : i = 0 := Fin.fin_one_eq_zero i
  refine ⟨w, hrun, played, hmem, hdata, pcm, ?_, hplayed⟩
  have hread : Runs.record (networkStep ⟨echoDevice, sameSpeed, 0⟩) noteInput
      (freshNetwork 1000 oneStream 7 true none 4) pipePlayed (fun _ => []) 0 = List.replicate 20 7 := by
    decide +kernel
  exact hread ▸ hpart

end Snapcastc
