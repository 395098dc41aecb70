import Snapcastc.ServerSent
import Snapcastc.ClientmgrHello

/-! Who listens is sent everything: while a client is in a stream, is not muted and keeps its address, every AUDIO
packet that the stream sends goes to it, in the order of their numbers. When a client comes, it is sent what the
stream has kept before. -/

namespace Snapcastc

open Bytes

variable {n : Nat} {s s' s'' : Server n} {i : Fin (n + 1)} {ip : In6Addr} {port : UInt16}

/-- A client with the address is in the stream and not muted. -/
def Listens (i : Fin (n + 1)) (ip : In6Addr) (port : UInt16) (s : Server n) : Prop :=
  ∃ client ∈ s.clients i, client.ip = ip ∧ client.port = port ∧ client.muted = false

instance (i : Fin (n + 1)) (ip : In6Addr) (port : UInt16) (s : Server n) : Decidable (Listens i ip port s) :=
  inferInstanceAs (Decidable (∃ client ∈ s.clients i, _ ∧ _ ∧ _))

/-- What is in those of the datagrams that go to the address. -/
def sentTo (datagrams : List Datagram) (ip : In6Addr) (port : UInt16) : List (List UInt8) :=
  (datagrams.filter fun datagram => datagram.recipient = ip ∧ datagram.port = port).map Datagram.bytes

@[simp] theorem sentTo_append (datagrams more : List Datagram) :
    sentTo (datagrams ++ more) ip port = sentTo datagrams ip port ++ sentTo more ip port := by
  simp [sentTo]

/-- What the stream has sent from one state to the other is among the datagrams for the address that were sent
meanwhile, in the same order. -/
def SentAll (i : Fin (n + 1)) (ip : In6Addr) (port : UInt16) (s s' : Server n) : Prop :=
  ∃ audio more, s'.histories i = s.histories i ++ audio ∧ s'.sent = s.sent ++ more ∧
    (audio.map SentAudio.bytes).Sublist (sentTo more ip port)

theorem SentAll.of_same (hhistory : s'.histories i = s.histories i) (hmore : s.sent <+: s'.sent) :
    SentAll i ip port s s' := by
  obtain ⟨more, hmore⟩ := hmore
  exact ⟨[], more, by rw [hhistory, List.append_nil], hmore.symm, List.nil_sublist _⟩

theorem SentAll.refl (s : Server n) : SentAll i ip port s s := .of_same rfl List.prefix_rfl

theorem SentAll.trans (hfirst : SentAll i ip port s s') (hsecond : SentAll i ip port s' s'') :
    SentAll i ip port s s'' := by
  obtain ⟨audio, more, hhistory, hsent, hsub⟩ := hfirst
  obtain ⟨audio', more', hhistory', hsent', hsub'⟩ := hsecond
  refine ⟨audio ++ audio', more ++ more', ?_, ?_, ?_⟩
  · rw [hhistory', hhistory, List.append_assoc]
  · rw [hsent', hsent, List.append_assoc]
  · rw [List.map_append, sentTo_append]
    exact hsub.append hsub'

/-! ### Steps and runs -/

theorem PipeFrame.histories (hframe : PipeFrame s s') (i : Fin (n + 1)) : s'.histories i = s.histories i := by
  rw [Server.histories, hframe.streams i]
  rfl

theorem Listens.pipeFrame (hlistens : Listens i ip port s) (hframe : PipeFrame s s') : Listens i ip port s' := by
  rw [Listens, hframe.clients]
  exact hlistens

/-- A chunk of the stream goes to all who listen. -/
theorem sendAudio_sentAll (clock : ServerClock) (hlistens : Listens i ip port s) :
    SentAll i ip port s (intercomSendAudio clock s i) := by
  obtain ⟨sent, hhistory, hsent⟩ := intercomSendAudio_sent clock s i
  obtain ⟨client, hclient, rfl, rfl, hmuted⟩ := hlistens
  have hunmuted : client ∈ (s.clients i).reverse.filter fun client => !client.muted :=
    List.mem_filter.mpr ⟨List.mem_reverse.mpr hclient, by rw [hmuted]; rfl⟩
  refine ⟨[sent], _, hhistory, hsent, List.singleton_sublist.mpr ?_⟩
  refine List.mem_map.mpr ⟨⟨client.ip, client.port, sent.bytes⟩, List.mem_filter.mpr ⟨?_, by simp⟩, rfl⟩
  exact List.mem_map_of_mem hunmuted

theorem deliver_sentAll {clock : ServerClock} {encoded : Int × List UInt8} {restarted : Bool} (hinv : HandleInv s)
    (hlistens : Listens i ip port s) (hrun : deliver clock encoded s i restarted = .ok s') :
    SentAll i ip port s s' := by
  have hstopped : RecordFrame s (if restarted then clientmgrStopClients s i else s) ∧
      (if restarted then clientmgrStopClients s i else s).clients = s.clients ∧
      s.sent <+: (if restarted then clientmgrStopClients s i else s).sent := by
    split_ifs
    · obtain ⟨⟨more, hmore, -⟩, hclients⟩ := NoAudioFor.stopClients s i ip port
      exact ⟨.stopClients s i, hclients, more, hmore.symm⟩
    · exact ⟨.refl s, rfl, List.prefix_rfl⟩
  obtain ⟨chunk, -, hrun⟩ := except_bind_ok hrun
  cases hrun
  generalize (if restarted then clientmgrStopClients s i else s) = s₁ at hstopped ⊢
  obtain ⟨hframe, hclients, hmore⟩ := hstopped
  have hhistory : s₁.histories i = s.histories i := by
    rw [Server.histories, hframe.streams i]
    rfl
  have hencoded : PipeFrame s₁ (s₁.setPipe i { s₁.pipe i with chunk }) :=
    .updateCtx (hframe.handles hinv) s₁.interest (.inl rfl) (.inl rfl)
  have hlistens₁ : Listens i ip port s₁ := by
    rw [Listens, hclients]
    exact hlistens
  have hread : SentAll i ip port s₁ (s₁.setPipe i { s₁.pipe i with chunk }) :=
    .of_same (hencoded.histories i) (hencoded.sent ▸ List.prefix_rfl)
  have hsends := sendAudio_sentAll clock (hlistens₁.pipeFrame hencoded)
  exact (SentAll.of_same hhistory hmore).trans (hread.trans hsends)

theorem pipeInput_sentAll {clock : ServerClock} {input : Option (List UInt8)} {encoded : Int × List UInt8}
    {fd : Nat} (hinv : HandleInv s) (hlistens : Listens i ip port s)
    (hmore : s.sent <+: s'.sent) (hrun : pipeInput clock input encoded s fd = .ok s') :
    SentAll i ip port s s' := by
  unfold pipeInput at hrun
  split at hrun
  · cases hrun
    exact .refl s
  · rename_i j _
    obtain ⟨⟨ret, ctx, tasks⟩, hhandle, hrun⟩ := except_bind_ok hrun
    have hframe := PipeFrame.inputpipeHandle hinv hhandle
    dsimp only at hrun
    split_ifs at hrun
    · have hthrottled : PipeFrame _ s' := .throttle hframe.handles hrun
      exact .of_same ((hthrottled.histories i).trans (hframe.histories i)) hmore
    · rcases eq_or_ne i j with rfl | hne
      · have hread : SentAll i ip port s ({ s with tasks }.setPipe i ctx) :=
          .of_same (hframe.histories i) (hframe.sent ▸ List.prefix_rfl)
        exact hread.trans (deliver_sentAll hframe.handles (hlistens.pipeFrame hframe) hrun)
      · obtain ⟨pcm, chunk, id, -, haudio⟩ := deliver_keeps hframe.handles hrun
        have hother : s'.histories i = _ := congrArg StreamAudio.history (congrFun haudio i)
        rw [Function.update_of_ne hne] at hother
        exact .of_same (hother.trans (hframe.histories i)) hmore
    · cases hrun
      exact .of_same (hframe.histories i) hmore

theorem AudioStep.history_same {event : ServerEvent} {audio : StreamAudio n} (hstep : AudioStep s i event audio)
    (hother : ∀ fd input encoded clock, event ≠ .pipeInput fd input encoded clock) :
    audio.history = (s.audio i).history := by
  cases hstep with
  | same => rfl
  | started => rfl
  | kept fd input encoded clock => exact absurd rfl (hother fd input encoded clock)
  | removed => rfl

/-- Whatever the server does, it sends what the stream sends to who listens. -/
theorem serverStep_sentAll {event : ServerEvent} (hinv : SentInv s) (hopus : event.OpusWrites)
    (hlistens : Listens i ip port s) (hrun : serverStep s event = .ok s') : SentAll i ip port s s' := by
  have hmore := (serverStep_genuine hinv.kept (hinv.kept.step hopus.returns hrun) hinv.genuine hrun).1
  by_cases hpipe : ∃ fd input encoded clock, event = .pipeInput fd input encoded clock
  · obtain ⟨fd, input, encoded, clock, rfl⟩ := hpipe
    unfold serverStep at hrun
    dsimp only at hrun
    split_ifs at hrun
    · have htaken : Listens i ip port (takeEvent s fd) := hlistens
      have hall : SentAll i ip port (takeEvent s fd) s' :=
        pipeInput_sentAll (takeEvent_spec hinv.kept.registry fd).handles htaken hmore hrun
      exact hall
    · cases hrun
      exact .refl s
  · push Not at hpipe
    have haudio := serverStep_audio hinv.kept.registry hinv.kept.start hrun i
    exact .of_same (haudio.history_same hpipe) hmore

theorem serverRun_sentAll {events : List ServerEvent} (hinv : SentInv s)
    (hopus : ∀ event ∈ events, event.OpusWrites)
    (hlistens : EveryStep (fun s _ _ => Listens i ip port s) s events) (hrun : serverRun s events = .ok s') :
    SentAll i ip port s s' := by
  induction events generalizing s with
  | nil =>
      cases hrun
      exact .refl _
  | cons event events ih =>
      obtain ⟨s₁, hstep, hrun⟩ := except_bind_ok hrun
      obtain ⟨hfirst, hrest⟩ := List.forall_mem_cons.mp hopus
      obtain ⟨hnow, hlater⟩ := hlistens s₁ hstep
      exact (serverStep_sentAll hinv hfirst hnow hstep).trans (ih (hinv.step hfirst hstep) hrest hlater hrun)

/-- Who listens is sent everything: in a run from any state that the server reaches, as long as a client is in the
stream, is not muted and has the address, what the stream sends in the run is among the datagrams that are sent to
the address in the run, in the order in which the stream has numbered it. -/
theorem listener_sent_all (bufferms : UInt16) (options : Fin (n + 1) → StreamOptions)
    (before events : List ServerEvent) (hopus : ∀ event ∈ before ++ events, event.OpusWrites) (s s' : Server n)
    (hbefore : serverRun (freshServer bufferms options) before = .ok s)
    (hrun : serverRun s events = .ok s') (i : Fin (n + 1)) (ip : In6Addr) (port : UInt16)
    (hlistens : EveryStep (fun s _ _ => Listens i ip port s) s events) :
    ∃ audio more, s'.histories i = s.histories i ++ audio ∧ s'.sent = s.sent ++ more ∧
      (audio.map SentAudio.bytes).Sublist (sentTo more ip port) := by
  have hinv : SentInv s := serverRun_invariant (fun hinv hevent hstep => hinv.step hevent hstep)
    (.fresh bufferms options) (fun event hevent => hopus event (List.mem_append_left _ hevent)) hbefore
  exact serverRun_sentAll hinv (fun event hevent => hopus event (List.mem_append_right _ hevent)) hlistens hrun

/-- Client 1 listens while a chunk is sent. -/
theorem listener_sent_all_first :
    ∃ s s' sent, serverRun (freshServer 1000 oneStream) [helloFrom 1 100 1] = .ok s ∧
      serverRun s quietEvents = .ok s' ∧ s'.histories 0 = [sent] ∧ sent.bytes ∈ sentTo s'.sent ⟨1⟩ 100 := by
  obtain ⟨s, hbefore, hview⟩ := except_map_ok (show (serverRun (freshServer 1000 oneStream)
    [helloFrom 1 100 1]).map (fun s => decide (EveryStep (fun s _ _ => Listens 0 ⟨1⟩ 100 s) s quietEvents ∧
      s.histories 0 = [] ∧ ((serverRun s quietEvents).map fun s' => (s'.histories 0).length).toOption = some 1)) =
        .ok true by decide +kernel)
  obtain ⟨hlistens, hnone, hone⟩ := of_decide_eq_true hview
  have hopus : ∀ event ∈ [helloFrom 1 100 1] ++ quietEvents, event.OpusWrites := by
    simp [quietEvents, helloFrom, ServerEvent.OpusWrites, OpusWrites, opusMss]
  obtain ⟨s', hrun, hlength⟩ := except_map_some hone
  obtain ⟨sent, hhistory⟩ := List.length_eq_one_iff.mp hlength
  obtain ⟨audio, more, haudio, hmore, hsub⟩ := listener_sent_all 1000 oneStream [helloFrom 1 100 1]
    quietEvents hopus s s' hbefore hrun 0 ⟨1⟩ 100 hlistens
  rw [hhistory, hnone, List.nil_append] at haudio
  rw [← haudio] at hsub
  refine ⟨s, s', sent, hbefore, hrun, hhistory, ?_⟩
  rw [hmore, sentTo_append]
  exact List.mem_append_right _ (List.singleton_sublist.mp hsub)

/-! ### Newcomers -/

/-- What is kept of the packets of a stream are the last ones it has sent. -/
theorem KeptInv.kept_bytes (hinv : KeptInv s) (i : Fin (n + 1)) :
    (s.streams i).packetBuffer.map (fun ap => load ap.data 0 ap.len.toNat) =
      ((s.histories i).drop ((s.histories i).length - (s.streams i).packetBuffer.length)).map SentAudio.bytes := by
  obtain ⟨first, hle, hwindow⟩ := (hinv.window i).window
  change (s.streams i).packetBuffer = ((s.histories i).drop first).map SentAudio.copy at hwindow
  change first ≤ (s.histories i).length at hle
  have hfirst : (s.histories i).length - (s.streams i).packetBuffer.length = first := by
    rw [hwindow, List.length_map, List.length_drop]
    omega
  rw [hfirst, hwindow, List.map_map]
  refine List.map_congr_left fun sent hdrop => ?_
  have hsent : sent ∈ (s.audio i).history := List.mem_of_mem_drop hdrop
  obtain ⟨chunk, hbytes⟩ := (hinv.window i).packets sent hsent
  exact (copy_reads hbytes (hinv.short i sent hsent)).2

/-- The packets that a stream keeps, sent to a peer. -/
def replayTo (stream : Stream) (peer : Peer) : List Datagram :=
  stream.packetBuffer.map fun ap => ⟨peer.ip, peer.port, load ap.data 0 ap.len.toNat⟩

theorem sentTo_replayTo (stream : Stream) (peer : Peer) :
    sentTo (replayTo stream peer) peer.ip peer.port =
      stream.packetBuffer.map fun ap => load ap.data 0 ap.len.toNat := by
  have hall : ∀ datagram ∈ replayTo stream peer,
      decide (datagram.recipient = peer.ip ∧ datagram.port = peer.port) = true := by
    intro datagram hmem
    obtain ⟨ap, -, rfl⟩ := List.mem_map.mp hmem
    exact decide_eq_true ⟨rfl, rfl⟩
  rw [sentTo, List.filter_eq_self.mpr hall, replayTo, List.map_map]
  rfl

theorem noteSeen_sent_prefix (clock : ServerClock) (s : Server n) (i : Fin (n + 1)) (k : Nat) (peer : Peer) :
    s.sent <+: (noteSeen clock s i k peer).sent := by
  unfold noteSeen
  split
  · exact List.prefix_rfl
  · dsimp only
    split_ifs
    · exact List.prefix_rfl
    · exact List.prefix_append _ _

/-- A client that has just joined the first stream is sent what that keeps. -/
theorem greetClient_replays {peer : Peer} {clients : Fin (n + 1) → List ClientRecord} {client : ClientRecord}
    (hjoined : s.clients = joined clients client) (hnew : ∀ other ∈ clients 0, other.id ≠ peer.hello.id)
    (hid : client.id = peer.hello.id) (hip : client.ip = peer.ip) (hport : client.port = peer.port)
    (hrun : greetClient s peer = .ok s') : s'.sent = s.sent ++ replayTo (s.streams 0) peer := by
  rw [greetClient, getClient_joined hjoined hnew hid] at hrun
  dsimp only at hrun
  rw [clientAt_joined hjoined] at hrun
  obtain ⟨s₁, hsend, hrun⟩ := except_bind_ok hrun
  cases hrun
  have hset : (s.setClient 0 (clients 0).length
      { client with volumePercent := peer.hello.volumePercent }).clients =
        joined clients { client with volumePercent := peer.hello.volumePercent } := setClient_joined hjoined
  rw [← hid] at hnew
  have hstream := streamFind_of_findClient (findClient_of_first (getClient_joined hset hnew rfl))
  rw [clientmgrSendAudioBufferToClient] at hsend
  dsimp only at hsend
  rw [hstream] at hsend
  cases hsend
  rw [foldl_send]
  have hbuffer : ∀ record, ((s.setClient 0 (clients 0).length record).streams 0).packetBuffer =
      (s.streams 0).packetBuffer :=
    fun record => congrArg StreamAudio.packetBuffer (congrFun (audio_setClients s 0 _) 0)
  change s.sent ++ _ = _
  rw [hbuffer, hip, hport, replayTo]

theorem addClient_replays {clock : ServerClock} {opened : Option Nat} {peer : Peer} (hreg : RegistryInv s)
    (hunsent : (s.streams 0).initialized = false → (s.streams 0).packetBuffer = [] ∧ (s.streams 0).nonce = 0)
    (hnew : ∀ client ∈ s.clients 0, client.id ≠ peer.hello.id)
    (hrun : addClient clock opened s peer = .ok s') : s.sent ++ replayTo (s.streams 0) peer <+: s'.sent := by
  obtain ⟨s₂, hcreate, hrun⟩ := except_bind_ok hrun
  obtain ⟨s₁, hadd, hgreet⟩ := except_bind_ok hcreate
  obtain ⟨hhandles, hclients, hmade⟩ := withPurgeTask_handles hreg.handles hreg.unstarted clock peer.hello.id
  have hadded := streamClientAdd_spec hhandles hmade hadd
  have hfirst : s₁.clients = joined s.clients
      (newClient clock s.tasks peer.hello.id peer.ip peer.port).1 := by
    rw [hadded.clients, Server.setClients_clients, hclients]
    rfl
  have hgreeted := greetClient_replays hfirst hnew rfl rfl rfl hgreet
  have hsent : s₁.sent = s.sent := by
    rw [hadded.sent]
    change (initFirstStream _).sent = _
    unfold initFirstStream
    split_ifs <;> rfl
  have hbuffer : (s₁.streams 0).packetBuffer = (s.streams 0).packetBuffer := by
    have haudio := (streamClientAdd_audio hhandles hmade hadd).trans (initFirstStream_audio hunsent)
    exact congrArg StreamAudio.packetBuffer (congrFun haudio 0)
  have hreplay : replayTo (s₁.streams 0) peer = replayTo (s.streams 0) peer := by rw [replayTo, hbuffer, replayTo]
  rw [hsent, hreplay] at hgreeted
  rw [← hgreeted]
  split at hrun
  · cases hrun
  · cases hrun
    exact noteSeen_sent_prefix clock s₂ 0 _ peer

/-- A client that is not known under its port is sent what the first stream keeps. -/
theorem refreshClient_replays {clock : ServerClock} {opened : Option Nat} {peer : Peer} (hreg : RegistryInv s)
    (hstart : StartInv s)
    (hcomes : ∀ i, ∀ client ∈ s.clients i, client.id = peer.hello.id → client.port ≠ peer.port)
    (hrun : clientmgrRefreshClient clock opened s peer = .ok s') :
    s.sent ++ replayTo (s.streams 0) peer <+: s'.sent := by
  cases refreshedClient hrun with
  | added hfind hrun => exact addClient_replays hreg hstart.unsent (fun client => findClient_none hfind 0) hrun
  | @moved i k existing s₁ _ hfind hclient hid hport hdelete hrun =>
      obtain ⟨hdeleted, hgone⟩ := clientmgrDeleteClient_spec hreg hdelete
      have hsame := clientmgrDeleteClient_audio hreg.handles hdelete
      have hbuffer : (s₁.streams 0).packetBuffer = (s.streams 0).packetBuffer :=
        congrArg StreamAudio.packetBuffer (congrFun hsame 0)
      have hreplays := addClient_replays (hdeleted.inv hreg) (hstart.unsent_of_audio hsame) (hgone 0) hrun
      rw [clientmgrDeleteClient_sent hreg.handles hdelete, replayTo, hbuffer] at hreplays
      exact hreplays
  | @seen i k existing tasks hfind hclient hid hport hreschedule =>
      exact absurd hport.symm (hcomes i existing (List.mem_of_getElem? hclient) hid)

/-- A client that comes is sent the stream without a gap: what the first stream keeps at that time, and, as long as
the client stays in the stream, is not muted and keeps its address, everything that the stream sends from then on,
all in the order in which the stream has numbered it. -/
theorem newcomer_sent_all (bufferms : UInt16) (options : Fin (n + 1) → StreamOptions)
    (before events : List ServerEvent) (hopus : ∀ event ∈ before ++ events, event.OpusWrites) (s s₁ s' : Server n)
    (hbefore : serverRun (freshServer bufferms options) before = .ok s) (peer : Peer) (clock : ServerClock)
    (opened : Option Nat)
    (hcomes : ∀ i, ∀ client ∈ s.clients i, client.id = peer.hello.id → client.port ≠ peer.port)
    (hjoin : serverStep s (.hello peer clock opened) = .ok s₁) (hrun : serverRun s₁ events = .ok s')
    (hlistens : EveryStep (fun s _ _ => Listens 0 peer.ip peer.port s) s₁ events) :
    ∃ more, s'.sent = s.sent ++ more ∧
      (((s'.histories 0).drop ((s.histories 0).length - (s.streams 0).packetBuffer.length)).map
        SentAudio.bytes).Sublist (sentTo more peer.ip peer.port) := by
  have hinv : SentInv s := serverRun_invariant (fun hinv hevent hstep => hinv.step hevent hstep)
    (.fresh bufferms options) (fun event hevent => hopus event (List.mem_append_left _ hevent)) hbefore
  have hquiet : ServerEvent.OpusWrites (.hello peer clock opened) := trivial
  have hinv₁ : SentInv s₁ := hinv.step hquiet hjoin
  obtain ⟨audio, more, hhistory, hsent, hsub⟩ := serverRun_sentAll hinv₁
    (fun event hevent => hopus event (List.mem_append_right _ hevent)) hlistens hrun
  obtain ⟨volume, hgreeted⟩ := refreshClient_replays hinv.kept.registry hinv.kept.start hcomes hjoin
  have haudio := serverStep_audio hinv.kept.registry hinv.kept.start hjoin 0
  have hsame : s₁.histories 0 = s.histories 0 := haudio.history_same fun _ _ _ _ hevent => by cases hevent
  refine ⟨replayTo (s.streams 0) peer ++ (volume ++ more), ?_, ?_⟩
  · rw [hsent, ← hgreeted, List.append_assoc, List.append_assoc]
  · rw [hhistory, hsame, List.drop_append_of_le_length (Nat.sub_le _ _), List.map_append,
      ← hinv.kept.kept_bytes 0, sentTo_append, sentTo_append, sentTo_replayTo]
    exact (List.Sublist.refl _).append (hsub.trans (List.sublist_append_right _ _))

/-- Client 2 comes when a chunk was sent, and listens while another one is. -/
theorem newcomer_sent_all_second :
    ∃ s s₁ s', serverRun (freshServer 1000 oneStream) oneChunkEvents = .ok s ∧
      serverStep s (helloFrom 2 200 2) = .ok s₁ ∧ serverRun s₁ quietEvents = .ok s' ∧
      (s'.histories 0).length = 2 ∧ ((s'.histories 0).map SentAudio.bytes).Sublist (sentTo s'.sent ⟨1⟩ 200) := by
  obtain ⟨s, hbefore, hview⟩ := except_map_ok (show (serverRun (freshServer 1000 oneStream) oneChunkEvents).map
    (fun s => decide ((∀ i, ∀ client ∈ s.clients i, client.id = 2 → client.port ≠ 200) ∧
      (s.histories 0).length - (s.streams 0).packetBuffer.length = 0 ∧
      ((serverStep s (helloFrom 2 200 2)).map fun s₁ =>
        decide (EveryStep (fun s _ _ => Listens 0 ⟨1⟩ 200 s) s₁ quietEvents ∧
          ((serverRun s₁ quietEvents).map fun s' => (s'.histories 0).length).toOption = some 2)).toOption =
            some true)) = .ok true by decide +kernel)
  obtain ⟨hcomes, hall, hview⟩ := of_decide_eq_true hview
  obtain ⟨s₁, hjoin, hview⟩ := except_map_some hview
  obtain ⟨hlistens, hview⟩ := of_decide_eq_true hview
  obtain ⟨s', hrun, htwo⟩ := except_map_some hview
  have hopus : ∀ event ∈ oneChunkEvents ++ quietEvents, event.OpusWrites := by
    simp [oneChunkEvents, quietEvents, helloFrom, ServerEvent.OpusWrites, OpusWrites, opusMss]
  obtain ⟨more, hsent, hsub⟩ := newcomer_sent_all 1000 oneStream oneChunkEvents quietEvents hopus s s₁ s' hbefore
    ⟨⟨2, 0, 50⟩, ⟨1⟩, 200⟩ ⟨⟨2, 0⟩, ⟨2, 0⟩⟩ (some 5) hcomes hjoin hrun hlistens
  refine ⟨s, s₁, s', hbefore, hjoin, hrun, htwo, ?_⟩
  rw [hall] at hsub
  rw [hsent, sentTo_append]
  exact hsub.trans (List.sublist_append_right _ _)

end Snapcastc
