import Snapcastc.InputpipeAlignment
import Snapcastc.ServerSent

/-! What the server reads from its pipes, over whole runs. Whatever happens to a pipe, what its chunk has so far
are the bytes that were read last, so that an AUDIO packet was encoded from consecutive bytes of one pipe. -/

namespace Snapcastc

variable {n : Nat}

/-- What the chunk has so far are the last ones of the bytes that were read. -/
structure Fills (read : List UInt8) (ctx : InputpipeCtx) : Prop where
  dataRead_le : ctx.dataRead ≤ ctx.chunk.data.length
  length_le : ctx.chunk.data.length ≤ ctx.chunksize.toNat
  filled : ctx.chunk.data.take ctx.dataRead <:+ read

/-- Nothing is read, whatever else happens to the pipe. -/
def Rests (ctx ctx' : InputpipeCtx) : Prop := ∀ read, Fills read ctx → Fills read ctx'

namespace Rests

variable {ctx ctx' ctx'' : InputpipeCtx}

theorem refl (ctx : InputpipeCtx) : Rests ctx ctx := fun _ hfills => hfills

theorem trans (hfirst : Rests ctx ctx') (hsecond : Rests ctx' ctx'') : Rests ctx ctx'' :=
  fun read hfills => hsecond read (hfirst read hfills)

/-- The chunk begins anew. -/
theorem of_new (hread : ctx'.dataRead = 0)
    (hlength : ctx.chunk.data.length ≤ ctx.chunksize.toNat → ctx'.chunk.data.length ≤ ctx'.chunksize.toNat) :
    Rests ctx ctx' := by
  intro read hfills
  refine ⟨?_, hlength hfills.length_le, ?_⟩
  · rw [hread]
    exact Nat.zero_le _
  · rw [hread, List.take_zero]
    exact List.nil_suffix

theorem of_eq (hread : ctx'.dataRead = ctx.dataRead) (hdata : ctx'.chunk.data = ctx.chunk.data)
    (hchunksize : ctx'.chunksize = ctx.chunksize) : Rests ctx ctx' := by
  rintro read ⟨hle, hle', hfilled⟩
  refine ⟨?_, ?_, ?_⟩
  · rw [hread, hdata]
    exact hle
  · rw [hdata, hchunksize]
    exact hle'
  · rw [hread, hdata]
    exact hfilled

end Rests

/-- A call reads some bytes. -/
theorem Fills.read {read : List UInt8} {bufferms : UInt16} {clock : ServerClock} {input : Option (List UInt8)}
    {ctx mid : InputpipeCtx} (hfills : Fills read ctx)
    (hread : ReadCtx clock (readBytes bufferms clock input ctx) ctx mid) :
    Fills (read ++ readBytes bufferms clock input ctx) mid := by
  have hbytes := readBytes_length_le bufferms clock input ctx
  have hle := hfills.dataRead_le
  have hle' := hfills.length_le
  generalize readBytes bufferms clock input ctx = bytes at hread hbytes ⊢
  have hbefore : (ctx.chunk.data.take ctx.dataRead).length = ctx.dataRead := List.length_take_of_le hle
  have hnew : (ctx.chunk.data.take ctx.dataRead ++ bytes).length = mid.dataRead := by
    rw [List.length_append, hbefore, hread.dataRead]
  have hlength : mid.chunk.data.length = max ctx.chunk.data.length (ctx.dataRead + bytes.length) := by
    rw [hread.data, List.length_append, List.length_append, hbefore, List.length_drop]
    omega
  refine ⟨?_, ?_, ?_⟩
  · rw [hlength, hread.dataRead]
    exact le_max_right _ _
  · rw [hlength, hread.chunksize]
    omega
  · rw [hread.data, ← hnew, List.take_left]
    obtain ⟨earlier, hearlier⟩ := hfills.filled
    exact ⟨earlier, by rw [← List.append_assoc, hearlier]⟩

/-- A chunk that is complete consists of the bytes that were read last. -/
theorem Fills.complete {read : List UInt8} {clock : ServerClock} {mid ctx : InputpipeCtx} {ret : Int}
    (hfills : Fills read mid) (hfinish : finishChunk clock mid = (ret, ctx)) :
    Fills read ctx ∧ (ret > 0 → ctx.chunk.data <:+ read ∧ ctx.dataRead = 0) := by
  cases hcomplete : isChunkComplete mid with
  | false =>
      rw [finishChunk_incomplete hcomplete] at hfinish
      obtain ⟨rfl, rfl⟩ := Prod.mk.inj hfinish
      exact ⟨hfills, fun hpos => absurd hpos (lt_irrefl 0)⟩
  | true =>
      obtain ⟨hdata, -, hread⟩ := @finishChunk_data clock mid hcomplete
      have hchunksize := (finishChunk_fields clock mid).2.1
      rw [hfinish] at hdata hread hchunksize
      have hfull : mid.chunksize.toNat = mid.dataRead := eq_of_beq hcomplete
      have hwhole : mid.chunk.data.take mid.dataRead = mid.chunk.data :=
        List.take_of_length_le (hfull ▸ hfills.length_le)
      have hsuffix : ctx.chunk.data <:+ read := by
        rw [hdata, ← hwhole]
        exact hfills.filled
      refine ⟨⟨?_, ?_, ?_⟩, fun _ => ⟨hsuffix, hread⟩⟩
      · rw [hread]
        exact Nat.zero_le _
      · rw [hdata, hchunksize]
        exact hfills.length_le
      · rw [hread, List.take_zero]
        exact List.nil_suffix

/-! ### Pipes that are not read from -/

def PipesRest (s s' : Server n) : Prop := ∀ i, Rests (s.pipe i) (s'.pipe i)

namespace PipesRest

variable {s s' s'' : Server n}

theorem of_eq (hpipe : s'.pipe = s.pipe) : PipesRest s s' := by
  intro i
  rw [hpipe]
  exact .refl _

theorem refl (s : Server n) : PipesRest s s := of_eq rfl

theorem trans (hfirst : PipesRest s s') (hsecond : PipesRest s' s'') : PipesRest s s'' :=
  fun i => (hfirst i).trans (hsecond i)

theorem setPipe {i : Fin (n + 1)} {ctx : InputpipeCtx} (hrests : Rests (s.pipe i) ctx) :
    PipesRest s (s.setPipe i ctx) := by
  intro j
  rw [Server.setPipe_pipe]
  rcases eq_or_ne j i with rfl | hne
  · rw [Function.update_self]
    exact hrests
  · rw [Function.update_of_ne hne]
    exact .refl _

theorem delFd {fd : Nat} (hrun : s.delFd fd = .ok s') : PipesRest s s' := by
  unfold Server.delFd at hrun
  split_ifs at hrun
  cases hrun
  exact .refl s

theorem setStreamIdle {i : Fin (n + 1)} (hrun : setStreamIdle s i = .ok s') : PipesRest s s' := by
  obtain ⟨⟨ctx, tasks⟩, hidle, hrun⟩ := except_bind_ok hrun
  cases hrun
  obtain ⟨tasks', -, hidle⟩ := except_bind_ok hidle
  cases hidle
  have hrests : Rests (s.pipe i) { s.pipe i with state := .idle, idleTask := none, dataRead := 0 } :=
    .of_new rfl id
  exact @setPipe n { s with tasks } i _ hrests

theorem stopReading {i : Fin (n + 1)} (hrun : stopReading s i = .ok s') : PipesRest s s' := by
  unfold Snapcastc.stopReading at hrun
  split at hrun
  · exact delFd hrun
  · split at hrun
    · cases hrun
    · obtain ⟨tasks, -, hrun⟩ := except_bind_ok hrun
      cases hrun
      have hrests : Rests (s.pipe i) { s.pipe i with resumeTask := none } := .of_eq rfl rfl rfl
      exact @setPipe n { s with tasks } i _ hrests
  · cases hrun
    exact .refl s

theorem inputpipeHold {i : Fin (n + 1)} (hrun : inputpipeHold s i = .ok s') : PipesRest s s' := by
  obtain ⟨s₁, hstop, hidle⟩ := except_bind_ok hrun
  exact (stopReading hstop).trans (setStreamIdle hidle)

theorem inputpipeHold_dataRead {i : Fin (n + 1)} (hrun : Snapcastc.inputpipeHold s i = .ok s') :
    (s'.pipe i).dataRead = 0 := by
  obtain ⟨s₁, -, hrun⟩ := except_bind_ok hrun
  obtain ⟨⟨ctx, tasks⟩, hidle, hrun⟩ := except_bind_ok hrun
  cases hrun
  obtain ⟨tasks', -, hidle⟩ := except_bind_ok hidle
  cases hidle
  rw [Server.setPipe_pipe, Function.update_self]

theorem inputpipeUninit {i : Fin (n + 1)} (hrun : inputpipeUninit s i = .ok s') : PipesRest s s' := by
  obtain ⟨s₁, hhold, hrun⟩ := except_bind_ok hrun
  cases hrun
  have hrests : Rests (s₁.pipe i)
      { s₁.pipe i with chunk := chunkFreeMembers (s₁.pipe i).chunk, initialized := false } :=
    .of_new (inputpipeHold_dataRead hhold) fun _ => Nat.zero_le _
  exact (inputpipeHold hhold).trans (@setPipe n (s₁.closeFd (s₁.pipe i).fd) i _ hrests)

theorem openPipe {opened : Option Nat} {ctx ctx' : InputpipeCtx} (hrun : openPipe opened ctx = .ok ctx') :
    Rests ctx ctx' := by
  unfold Snapcastc.openPipe at hrun
  split_ifs at hrun
  · cases hrun
    exact .refl ctx
  · obtain ⟨-, -, -, hlength, hread⟩ := inputpipeInit_ctx hrun
    exact .of_new hread fun _ => hlength.le

theorem inputpipeResumeRead {opened : Option Nat} {i : Fin (n + 1)}
    (hrun : inputpipeResumeRead opened s i = .ok s') : PipesRest s s' := by
  unfold Snapcastc.inputpipeResumeRead at hrun
  split_ifs at hrun
  · obtain ⟨ctx, hopen, hrun⟩ := except_bind_ok hrun
    obtain ⟨s₁, hadd, hrun⟩ := except_bind_ok hrun
    cases hrun
    have hpipe := PipeFrame.addFd_pipe hadd
    have hresumed : Rests ctx { ctx with state := .playing, resumeTask := none } := .of_eq rfl rfl rfl
    refine PipesRest.trans (.of_eq hpipe) (setPipe ?_)
    rw [hpipe]
    exact (openPipe hopen).trans hresumed
  · cases hrun
    exact .refl s

theorem startReading {opened : Option Nat} {i : Fin (n + 1)} (hrun : startReading opened s i = .ok s') :
    PipesRest s s' := by
  unfold Snapcastc.startReading at hrun
  split_ifs at hrun
  · obtain ⟨tasks, -, hrun⟩ := except_bind_ok hrun
    have hrests : Rests (s.pipe i) { s.pipe i with resumeTask := none } := .of_eq rfl rfl rfl
    exact (@setPipe n { s with tasks } i _ hrests).trans (inputpipeResumeRead hrun)
  · cases hrun
    exact .refl s

theorem streamClientAdd {opened : Option Nat} {i : Fin (n + 1)} {client : ClientRecord}
    (hrun : streamClientAdd opened s i client = .ok s') : PipesRest s s' :=
  PipesRest.trans (.of_eq (Server.setClients_pipe s i _)) (startReading hrun)

theorem streamClientRemove {i : Fin (n + 1)} {k : Nat} (hrun : streamClientRemove s i k = .ok s') :
    PipesRest s s' := by
  unfold Snapcastc.streamClientRemove at hrun
  dsimp only at hrun
  have hremoved : PipesRest s (s.setClients i ((s.clients i).eraseIdx k)) := .of_eq (Server.setClients_pipe s i _)
  split_ifs at hrun
  · exact hremoved.trans (inputpipeHold hrun)
  · cases hrun
    exact hremoved

theorem recordFrame (hframe : RecordFrame s s') : PipesRest s s' := .of_eq hframe.pipe

theorem deleteClient {id : UInt16} (hrun : clientmgrDeleteClient s id = .ok s') : PipesRest s s' := by
  unfold clientmgrDeleteClient deleteClientInternal at hrun
  split at hrun
  · cases hrun
    exact .refl s
  · split at hrun
    · cases hrun
      exact .refl s
    · obtain ⟨tasks, -, hrun⟩ := except_bind_ok hrun
      have hremoved := streamClientRemove hrun
      exact hremoved

theorem addClient {clock : ServerClock} {opened : Option Nat} {peer : Peer} (hinv : RegistryInv s)
    (hrun : addClient clock opened s peer = .ok s') : PipesRest s s' := by
  obtain ⟨s₂, hcreate, hrun⟩ := except_bind_ok hrun
  obtain ⟨s₁, hadd, hgreet⟩ := except_bind_ok hcreate
  obtain ⟨hpipe, -, -, -⟩ := withPurgeTask_fields hinv.unstarted clock peer.hello.id
  have hposted : PipesRest s (withPurgeTask clock s peer.hello.id) := .of_eq hpipe
  have hgreeted := (hposted.trans (streamClientAdd hadd)).trans (.recordFrame (.greetClient hgreet))
  split at hrun
  · cases hrun
  · cases hrun
    exact hgreeted.trans (.recordFrame (.noteSeen clock s₂ 0 _ peer))

/-- `clientmgr_refresh_client`. -/
theorem refreshClient {clock : ServerClock} {opened : Option Nat} {peer : Peer} (hinv : RegistryInv s)
    (hrun : clientmgrRefreshClient clock opened s peer = .ok s') : PipesRest s s' := by
  cases refreshedClient hrun with
  | added hfind hrun => exact addClient hinv hrun
  | moved hfind hclient hid hport hdelete hrun =>
      obtain ⟨hdeleted, -⟩ := clientmgrDeleteClient_spec hinv hdelete
      exact (deleteClient hdelete).trans (addClient (hdeleted.inv hinv) hrun)
  | @seen i k existing tasks hfind hclient hid hport hreschedule =>
      have hseen : RecordFrame { s with tasks } (noteSeen clock { s with tasks } i k peer) :=
        .noteSeen clock _ i k peer
      exact .of_eq hseen.pipe

theorem setstream {opened : Option Nat} {request : JsonrpcRequest} {reply : Option SetstreamReply}
    (hrun : handleClientSetstream opened s request = .ok (s', reply)) : PipesRest s s' := by
  cases movedClient hrun with
  | stays => exact .refl s
  | @moves client i j k s₁ _ hclient hne hadd hremove =>
      have hstopped : PipesRest s (intercomStopClientOf s client) := .recordFrame (.send s _ _ _ _)
      exact (hstopped.trans (streamClientAdd hadd)).trans (streamClientRemove hremove)

theorem setStream_pipe {i : Fin (n + 1)} {stream : Stream} (hsame : stream.inputpipe = s.pipe i) :
    (s.setStream i stream).pipe = s.pipe := by
  funext j
  rcases eq_or_ne j i with rfl | hne
  · simpa [Server.pipe, Server.setStream] using hsame
  · simp [Server.pipe, Server.setStream, Function.update_of_ne hne]

theorem removeOldAudiodata (clock : ServerClock) (s : Server n) (i : Fin (n + 1)) :
    PipesRest s (removeOldAudiodataTask clock s i) := by
  unfold removeOldAudiodataTask
  split_ifs
  · exact .refl s
  · exact .of_eq (setStream_pipe rfl)

theorem fireTask {clock : ServerClock} {opened : Option Nat} {id : Nat}
    (hrun : fireTask clock opened s id = .ok s') : PipesRest s s' := by
  unfold Snapcastc.fireTask at hrun
  split at hrun
  · cases hrun
    exact .refl s
  · rename_i task _
    split_ifs at hrun
    · cases hrun
      exact .refl s
    · obtain ⟨after, hcall, hrun⟩ := except_bind_ok hrun
      cases hrun
      have hexecuted : PipesRest { s with tasks := s.tasks.start id } after := by
        generalize task.code = code at hcall
        cases code with
        | scheduleDeleteClient id => exact deleteClient hcall
        | inputpipeResumeRead i => exact inputpipeResumeRead hcall
        | setIdle i => exact setStreamIdle hcall
        | removeOldAudiodata i =>
            cases hcall
            exact removeOldAudiodata clock _ i
      exact hexecuted

theorem throttle {clock : ServerClock} {i : Fin (n + 1)} {fd : Nat} (hrun : throttle clock s i fd = .ok s') :
    PipesRest s s' := by
  obtain ⟨s₁, hdel, hrun⟩ := except_bind_ok hrun
  cases hrun
  have hrests : Rests (s₁.pipe i) { s₁.pipe i with state := .throttle, resumeTask := some s₁.tasks.fresh } :=
    .of_eq rfl rfl rfl
  have hthrottled := setPipe hrests
  exact (delFd hdel).trans hthrottled

end PipesRest

/-! ### What is read -/

/-- What the event reads from the pipe of a stream. -/
def readFrom (s : Server n) (event : ServerEvent) (i : Fin (n + 1)) : List UInt8 :=
  match event with
  | .pipeInput fd input _ clock =>
      if fd ∈ s.pending ∧ streamFindFd s fd = some i then readBytes s.bufferms clock input (s.pipe i) else []
  | _ => []

/-- What has been read from the pipes since the start of the server, which the program does not keep. -/
def noteRead (s : Server n) (event : ServerEvent) (read : Fin (n + 1) → List UInt8) : Fin (n + 1) → List UInt8 :=
  fun i => read i ++ readFrom s event i

def encodedAt (s : Server n) : ServerEvent → Option PcmChunk
  | .pipeInput fd input _ clock =>
      if fd ∈ s.pending then
        (streamFindFd s fd).bind fun i =>
          match inputpipeHandle s.bufferms clock i input (s.pipe i) s.tasks with
          | .ok (ret, ctx, _) => if ret > 0 then some ctx.chunk else none
          | .error _ => none
      else none
  | _ => none

/-- `opus_encode` keeps to its limit, and `encodes` is what it makes of a chunk. -/
def EncodesWith (encodes : List UInt8 → List UInt8 → Prop) (s : Server n) (event : ServerEvent) : Prop :=
  match event with
  | .pipeInput _ _ encoded _ =>
      OpusWrites encoded ∧ ∀ pcm ∈ encodedAt s event, encodes pcm.data (encoded.2.take encoded.1.toNat)
  | _ => True

/-- The packet carries what was made of consecutive bytes of those that were read. -/
def MadeOf (encodes : List UInt8 → List UInt8 → Prop) (bufferms : UInt16) (read : List UInt8) (sent : SentAudio) :
    Prop :=
  ∃ chunk, sent.Carries bufferms chunk ∧ chunk.codec = codecOpus ∧ ∃ pcm, pcm <:+: read ∧ encodes pcm chunk.data

theorem MadeOf.mono {encodes : List UInt8 → List UInt8 → Prop} {bufferms : UInt16} {read more : List UInt8}
    {sent : SentAudio} (hmade : MadeOf encodes bufferms read sent) : MadeOf encodes bufferms (read ++ more) sent := by
  obtain ⟨chunk, hcarries, hcodec, pcm, hpart, hencodes⟩ := hmade
  exact ⟨chunk, hcarries, hcodec, pcm, hpart.trans (List.prefix_append read more).isInfix, hencodes⟩

/-- What holds of the server and of what it has read so far. -/
structure InputInv (encodes : List UInt8 → List UInt8 → Prop) (read : Fin (n + 1) → List UInt8) (s : Server n) :
    Prop where
  fills : ∀ i, Fills (read i) (s.pipe i)
  packets : ∀ i, ∀ sent ∈ s.histories i, MadeOf encodes s.bufferms (read i) sent

variable {encodes : List UInt8 → List UInt8 → Prop} {s s' : Server n} {read : Fin (n + 1) → List UInt8}

theorem histories_pipeFrame (hframe : PipeFrame s s') : s'.histories = s.histories := by
  funext i
  rw [Server.histories, hframe.streams i]
  rfl

theorem histories_recordFrame (hframe : RecordFrame s s') : s'.histories = s.histories := by
  funext i
  rw [Server.histories, hframe.streams i]
  rfl

/-- A packet is kept, with the bytes that are sent. -/
theorem keepAudio_keeps (clock : ServerClock) (s : Server n) (i : Fin (n + 1)) (chunk : PcmChunk) (nonce : UInt32) :
    let assembly := (assembleAudio (fun _ => 0) s.bufferms (s.streams i).nonce chunk).1
    (keepAudio clock s i assembly nonce).pipe = s.pipe ∧
      ∃ sent, (keepAudio clock s i assembly nonce).histories =
        Function.update s.histories i (s.histories i ++ [sent]) ∧
          sent.bytes = audioBytes s.bufferms sent.nonce chunk := by
  intro assembly
  obtain ⟨-, hnonce, hbytes⟩ := keptPacket_eq_copy s.bufferms (s.streams i).nonce chunk clock.uptime
  refine ⟨PipesRest.setStream_pipe rfl, ⟨(keptPacket (fun _ => 0) assembly).nonce,
    Bytes.load assembly.packet 0 assembly.packetLen, clock.uptime⟩, ?_, ?_⟩
  · funext j
    rcases eq_or_ne j i with rfl | hne
    · simp [Server.histories, keepAudio, Server.setStream, keepPacket]
    · simp [Server.histories, keepAudio, Server.setStream, Function.update_of_ne hne]
  · exact hbytes.trans (by rw [hnonce])

/-- A chunk is encoded and sent. -/
theorem deliver_encodes {clock : ServerClock} {encoded : Int × List UInt8} {i : Fin (n + 1)} {restarted : Bool}
    (hrun : deliver clock encoded s i restarted = .ok s') :
    ∃ chunk sent, encodeOpusHandle encoded (s.pipe i).chunk = .ok chunk ∧
      s'.pipe = Function.update s.pipe i { s.pipe i with chunk } ∧
      s'.histories = Function.update s.histories i (s.histories i ++ [sent]) ∧
      s'.bufferms = s.bufferms ∧ sent.bytes = audioBytes s.bufferms sent.nonce chunk := by
  have hstopped : RecordFrame s (if restarted then clientmgrStopClients s i else s) := by
    split_ifs
    · exact .stopClients s i
    · exact .refl s
  obtain ⟨chunk, hencode, hrun⟩ := except_bind_ok hrun
  cases hrun
  generalize (if restarted then clientmgrStopClients s i else s) = s₁ at hstopped hencode ⊢
  have hbefore := histories_recordFrame hstopped
  rw [hstopped.pipe] at hencode ⊢
  have hpipe : (s₁.setPipe i { s.pipe i with chunk }).pipe = Function.update s.pipe i { s.pipe i with chunk } := by
    rw [Server.setPipe_pipe, hstopped.pipe]
  have hhistories : (s₁.setPipe i { s.pipe i with chunk }).histories = s.histories := by
    funext j
    rw [← hbefore, Server.histories, Server.setPipe_streams]
    rfl
  have hbufferms : (s₁.setPipe i { s.pipe i with chunk }).bufferms = s.bufferms := hstopped.bufferms
  generalize s₁.setPipe i { s.pipe i with chunk } = s₂ at hpipe hhistories hbufferms ⊢
  have hchunk : (s₂.pipe i).chunk = chunk := by
    rw [hpipe, Function.update_self]
  rw [intercomSendAudio, hchunk]
  obtain ⟨hkeeps, sent, hadded, hbytes⟩ := keepAudio_keeps clock s₂ i chunk ((s₂.streams i).nonce + 1)
  have hsends := RecordFrame.sendToClients (keepAudio clock s₂ i
    (assembleAudio (fun _ => 0) s₂.bufferms (s₂.streams i).nonce chunk).1 ((s₂.streams i).nonce + 1)) i
    (assembleAudio (fun _ => 0) s₂.bufferms (s₂.streams i).nonce chunk).1
  refine ⟨chunk, sent, hencode, ?_, ?_, ?_, ?_⟩
  · exact (hsends.pipe.trans hkeeps).trans hpipe
  · exact (histories_recordFrame hsends).trans (hadded.trans (by rw [hhistories]))
  · exact hsends.bufferms.trans hbufferms
  · rw [hbytes, hbufferms]

/-! ### Events -/

def ReadsNothing (event : ServerEvent) : Prop := ∀ fd input encoded clock, event ≠ .pipeInput fd input encoded clock

theorem ReadsNothing.noteRead {event : ServerEvent} (hnothing : ReadsNothing event) (s : Server n) :
    noteRead s event read = read := by
  funext i
  cases event with
  | pipeInput fd input encoded clock => exact absurd rfl (hnothing fd input encoded clock)
  | _ => exact List.append_nil _

theorem serverStep_rests {event : ServerEvent} (hreg : RegistryInv s) (hnothing : ReadsNothing event)
    (hrun : serverStep s event = .ok s') : PipesRest s s' := by
  cases event with
  | epollWait ready =>
      unfold serverStep at hrun
      dsimp only at hrun
      split_ifs at hrun
      · cases hrun
        exact .of_eq rfl
      · cases hrun
        exact .refl s
  | pipeInput fd input encoded clock => exact absurd rfl (hnothing fd input encoded clock)
  | pipeHangup fd opened =>
      unfold serverStep at hrun
      dsimp only at hrun
      split_ifs at hrun
      · have htaken : PipesRest s (takeEvent s fd) := .of_eq rfl
        unfold pipeHangup at hrun
        split at hrun
        · cases hrun
          exact htaken
        · obtain ⟨s₁, huninit, hresume⟩ := except_bind_ok hrun
          exact (htaken.trans (.inputpipeUninit huninit)).trans (.inputpipeResumeRead hresume)
      · cases hrun
        exact .refl s
  | hello peer clock opened => exact .refreshClient hreg hrun
  | request clientid nonce ip port =>
      cases hrun
      exact .recordFrame (.answerRequest s clientid nonce ip port)
  | setStream request opened =>
      obtain ⟨⟨s₁, reply⟩, hset, hrun⟩ := except_bind_ok hrun
      cases hrun
      exact .setstream hset
  | setVolume request =>
      obtain ⟨⟨s₁, reply⟩, hset, hrun⟩ := except_bind_ok hrun
      cases hrun
      exact .recordFrame (.setVolume hset)
  | fire id clock opened => exact .fireTask hrun

theorem serverStep_sends_nothing {event : ServerEvent} (hkept : KeptInv s) (hnothing : ReadsNothing event)
    (hrun : serverStep s event = .ok s') : s'.histories = s.histories := by
  funext i
  have hstep := serverStep_audio hkept.registry hkept.start hrun i
  change (s'.audio i).history = (s.audio i).history
  generalize s'.audio i = audio at hstep ⊢
  cases hstep with
  | same => rfl
  | started peer clock opened => rfl
  | kept fd input encoded clock pcm chunk id hencode => exact absurd rfl (hnothing fd input encoded clock)
  | removed task clock opened htask hdue => rfl

/-- What the packet carries that was made of the chunk. -/
theorem madeOf_encoded {encoded : Int × List UInt8} {bufferms : UInt16} {read : List UInt8} {pcm chunk : PcmChunk}
    {sent : SentAudio} (hopus : OpusWrites encoded) (hencodes : encodes pcm.data (encoded.2.take encoded.1.toNat))
    (hpart : pcm.data <:+: read) (hencode : encodeOpusHandle encoded pcm = .ok chunk)
    (hbytes : sent.bytes = audioBytes bufferms sent.nonce chunk) : MadeOf encodes bufferms read sent := by
  have hfilled := encodeOpusHandle_data hopus hencode
  have hfits := encodeOpusHandle_size ⟨hopus.1, hopus.2.1⟩ hencode
  have hsize := uint16_ofInt_toNat encoded.1
  have hmss : opusMss = 1427 := rfl
  obtain ⟨hlo, hhi, hwritten⟩ := hopus
  have hdata : chunk.data.take chunk.size.toNat = encoded.2.take encoded.1.toNat ∧ chunk.codec = codecOpus := by
    unfold encodeOpusHandle at hencode
    dsimp only at hencode
    split_ifs at hencode
    cases hencode
    have hlength : (encoded.2.take encoded.1.toNat).length = (UInt16.ofInt encoded.1).toNat := by
      rw [List.length_take]
      omega
    exact ⟨List.take_left' hlength, rfl⟩
  refine ⟨{ chunk with data := chunk.data.take chunk.size.toNat }, ⟨?_, ?_, hfits⟩, hdata.2, pcm.data, hpart, ?_⟩
  · rw [audioBytes_take]
    exact hbytes
  · exact List.length_take_of_le hfilled
  · dsimp only
    rw [hdata.1]
    exact hencodes

/-- What a call of `inputpipe_handle` reads and completes. -/
theorem Fills.handle {bufferms : UInt16} {clock : ServerClock} {i : Fin (n + 1)} {input : Option (List UInt8)}
    {read : List UInt8} {ctx ctx' : InputpipeCtx} {ret : Int} {tasks tasks' : TaskPool (ServerTask n)}
    (hfills : Fills read ctx)
    (hrun : inputpipeHandle bufferms clock i input ctx tasks = .ok (ret, ctx', tasks')) :
    Fills (read ++ readBytes bufferms clock input ctx) ctx' ∧
      (ret > 0 → ctx'.chunk.data <:+ read ++ readBytes bufferms clock input ctx ∧ ctx'.dataRead = 0) := by
  rcases inputpipeHandle_cases hrun with ⟨hfull, rfl, rfl⟩ | ⟨-, mid, hread, hfinish⟩
  · rw [readBytes, hfull, if_pos rfl, List.append_nil]
    exact ⟨hfills, fun hpos => absurd hpos (by decide)⟩
  · exact (hfills.read hread).complete hfinish

/-- A chunk is sent that was read. -/
theorem InputInv.deliver {clock : ServerClock} {encoded : Int × List UInt8} {i : Fin (n + 1)} {restarted : Bool}
    (hinv : InputInv encodes read s) (hread : (s.pipe i).dataRead = 0) (hpart : (s.pipe i).chunk.data <:+: read i)
    (hopus : OpusWrites encoded)
    (hencodes : encodes (s.pipe i).chunk.data (encoded.2.take encoded.1.toNat))
    (hrun : deliver clock encoded s i restarted = .ok s') : InputInv encodes read s' := by
  obtain ⟨chunk, sent, hencode, hpipe, hhistories, hbufferms, hbytes⟩ := deliver_encodes hrun
  refine ⟨fun j => ?_, fun j other hother => ?_⟩
  · rw [hpipe]
    rcases eq_or_ne j i with rfl | hne
    · rw [Function.update_self]
      have hlength := @encodeCompleted_length_le (some encoded) (s.pipe j).chunk chunk hencode
      have hencoded : Rests (s.pipe j) { s.pipe j with chunk } := .of_new hread fun hle => hlength.trans hle
      exact hencoded _ (hinv.fills j)
    · rw [Function.update_of_ne hne]
      exact hinv.fills j
  · rw [hbufferms]
    rw [hhistories] at hother
    rcases eq_or_ne j i with rfl | hne
    · rw [Function.update_self] at hother
      rcases List.mem_append.mp hother with hold | hnew
      · exact hinv.packets j other hold
      · rw [List.mem_singleton.mp hnew]
        exact madeOf_encoded hopus hencodes hpart hencode hbytes
    · rw [Function.update_of_ne hne] at hother
      exact hinv.packets j other hother

/-- Some bytes are read from the pipe of a stream. -/
theorem noteRead_input {fd : Nat} {i : Fin (n + 1)} (hpending : fd ∈ s.pending) (hfind : streamFindFd s fd = some i)
    (input : Option (List UInt8)) (encoded : Int × List UInt8) (clock : ServerClock) :
    noteRead s (.pipeInput fd input encoded clock) read =
      Function.update read i (read i ++ readBytes s.bufferms clock input (s.pipe i)) := by
  funext j
  rw [noteRead, readFrom, hfind]
  rcases eq_or_ne j i with rfl | hne
  · rw [Function.update_self, if_pos ⟨hpending, rfl⟩]
  · rw [Function.update_of_ne hne, if_neg fun hread => hne (Option.some.inj hread.2).symm, List.append_nil]

/-- `inputpipe_handle` reads from the pipe of a stream. -/
theorem InputInv.handle {i : Fin (n + 1)} {input : Option (List UInt8)} {clock : ServerClock} {ret : Int}
    {ctx : InputpipeCtx} {tasks : TaskPool (ServerTask n)} (hinv : InputInv encodes read s)
    (hhandle : inputpipeHandle s.bufferms clock i input (s.pipe i) s.tasks = .ok (ret, ctx, tasks))
    (hpipe : s'.pipe = Function.update s.pipe i ctx) (hhistories : s'.histories = s.histories)
    (hbufferms : s'.bufferms = s.bufferms) :
    InputInv encodes (Function.update read i (read i ++ readBytes s.bufferms clock input (s.pipe i))) s' := by
  obtain ⟨hfills, -⟩ := (hinv.fills i).handle hhandle
  refine ⟨fun j => ?_, fun j sent hsent => ?_⟩
  · rw [hpipe]
    rcases eq_or_ne j i with rfl | hne
    · rw [Function.update_self, Function.update_self]
      exact hfills
    · rw [Function.update_of_ne hne, Function.update_of_ne hne]
      exact hinv.fills j
  · rw [hbufferms]
    rw [hhistories] at hsent
    rcases eq_or_ne j i with rfl | hne
    · rw [Function.update_self]
      exact (hinv.packets j sent hsent).mono
    · rw [Function.update_of_ne hne]
      exact hinv.packets j sent hsent

/-- An input event of a pipe. -/
theorem InputInv.pipeInput {fd : Nat} {input : Option (List UInt8)} {encoded : Int × List UInt8}
    {clock : ServerClock} (hreg : RegistryInv s) (hinv : InputInv encodes read s)
    (hencodes : EncodesWith encodes s (.pipeInput fd input encoded clock)) (hpending : fd ∈ s.pending)
    (hrun : pipeInput clock input encoded (takeEvent s fd) fd = .ok s') :
    InputInv encodes (noteRead s (.pipeInput fd input encoded clock) read) s' := by
  unfold Snapcastc.pipeInput at hrun
  split at hrun
  · rename_i hnone
    cases hrun
    have hfind : streamFindFd s fd = none := hnone
    have hsame : noteRead s (.pipeInput fd input encoded clock) read = read := by
      funext i
      rw [noteRead, readFrom, hfind, if_neg fun hread => Option.some_ne_none i hread.2.symm, List.append_nil]
    rw [hsame]
    exact ⟨hinv.fills, hinv.packets⟩
  · rename_i i hfind
    have hfind : streamFindFd s fd = some i := hfind
    obtain ⟨⟨ret, ctx, tasks⟩, hhandle, hrun⟩ := except_bind_ok hrun
    have hhandle : inputpipeHandle s.bufferms clock i input (s.pipe i) s.tasks = .ok (ret, ctx, tasks) := hhandle
    have hframe : PipeFrame (takeEvent s fd) ({ takeEvent s fd with tasks }.setPipe i ctx) :=
      .inputpipeHandle (takeEvent_spec hreg fd).handles hhandle
    have hpipe : ({ takeEvent s fd with tasks }.setPipe i ctx).pipe = Function.update s.pipe i ctx :=
      Server.setPipe_pipe _ i ctx
    have htaken : (takeEvent s fd).histories = s.histories := rfl
    have hread := hinv.handle hhandle hpipe ((histories_pipeFrame hframe).trans htaken) rfl
    rw [noteRead_input hpending hfind]
    dsimp only at hrun
    split_ifs at hrun with hthrottle hpos
    · have hthrottled := PipeFrame.throttle hframe.handles hrun
      refine ⟨fun j => PipesRest.throttle hrun j _ (hread.fills j), ?_⟩
      rw [histories_pipeFrame hthrottled, hthrottled.bufferms]
      exact hread.packets
    · obtain ⟨hsuffix, hbegun⟩ := ((hinv.fills i).handle hhandle).2 hpos
      have hgiven : encodedAt s (.pipeInput fd input encoded clock) = some ctx.chunk := by
        rw [encodedAt, if_pos hpending, hfind, Option.bind_some, hhandle]
        exact if_pos hpos
      have hsame : ({ takeEvent s fd with tasks }.setPipe i ctx).pipe i = ctx := by
        rw [hpipe, Function.update_self]
      refine hread.deliver ?_ ?_ hencodes.1 ?_ hrun
      · rw [hsame]
        exact hbegun
      · rw [hsame, Function.update_self]
        exact hsuffix.isInfix
      · rw [hsame]
        exact hencodes.2 ctx.chunk hgiven
    · cases hrun
      exact hread

theorem InputInv.step {event : ServerEvent} (hkept : KeptInv s) (hinv : InputInv encodes read s)
    (hencodes : EncodesWith encodes s event) (hrun : serverStep s event = .ok s') :
    InputInv encodes (noteRead s event read) s' := by
  by_cases hnothing : ReadsNothing event
  · rw [hnothing.noteRead]
    refine ⟨fun i => serverStep_rests hkept.registry hnothing hrun i _ (hinv.fills i), ?_⟩
    rw [serverStep_sends_nothing hkept hnothing hrun, serverStep_bufferms hkept hrun]
    exact hinv.packets
  · cases event with
    | pipeInput fd input encoded clock =>
        unfold serverStep at hrun
        dsimp only at hrun
        split_ifs at hrun with hpending
        · exact hinv.pipeInput hkept.registry hencodes hpending hrun
        · cases hrun
          have hsame : Snapcastc.noteRead s (.pipeInput fd input encoded clock) read = read := by
            funext i
            rw [Snapcastc.noteRead, readFrom, if_neg fun hread => hpending hread.1, List.append_nil]
          rw [hsame]
          exact hinv
    | _ => exact absurd (fun _ _ _ _ hevent => by cases hevent) hnothing

theorem InputInv.fresh (encodes : List UInt8 → List UInt8 → Prop) (bufferms : UInt16)
    (options : Fin (n + 1) → StreamOptions) : InputInv encodes (fun _ => []) (freshServer bufferms options) where
  fills := fun _ => ⟨le_rfl, le_rfl, List.nil_suffix⟩
  packets := fun _ _ hsent => absurd hsent List.not_mem_nil

instance [∀ pcm packet, Decidable (encodes pcm packet)] (s : Server n) (event : ServerEvent) :
    Decidable (EncodesWith encodes s event) :=
  match event with
  | .pipeInput _ _ encoded _ =>
      inferInstanceAs (Decidable (OpusWrites encoded ∧ ∀ pcm ∈ encodedAt s _, encodes pcm.data _))
  | .epollWait _ | .pipeHangup .. | .hello .. | .request .. | .setStream .. | .setVolume _ | .fire .. =>
      .isTrue trivial

end Snapcastc
