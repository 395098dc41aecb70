import Snapcastc.ServerMain

/-! Whatever the main loop does with the server, it does it by events of the server. What every event keeps
therefore holds in every state of the process: the registry of the clients is in order, whatever arrives in
datagrams and is written to control connections. -/

namespace Snapcastc

variable {n : Nat}

/-- An event of the server, or a change of the descriptors that are watched, of those that have an event, or
of the packets that were seen recently. -/
inductive ServerMove (s : Server n) : Server n → Prop
  | event {event : ServerEvent} {s' : Server n} : serverStep s event = .ok s' → ServerMove s s'
  | apart (interest : Finset Nat) (pending : List Nat) (recentPackets : List IntercomPacketHdr) :
      ServerMove s { s with interest, pending, recentPackets }

/-- Any number of moves. -/
def ServerMoves : Server n → Server n → Prop := Relation.ReflTransGen ServerMove

namespace ServerMoves

theorem refl (s : Server n) : ServerMoves s s := Relation.ReflTransGen.refl

theorem trans {s s' s'' : Server n} (hfirst : ServerMoves s s') (hsecond : ServerMoves s' s'') :
    ServerMoves s s'' :=
  Relation.ReflTransGen.trans hfirst hsecond

theorem event {s s' : Server n} (event : ServerEvent) (hstep : serverStep s event = .ok s') :
    ServerMoves s s' :=
  .single (.event hstep)

theorem apart (s : Server n) (interest : Finset Nat) (pending : List Nat)
    (recentPackets : List IntercomPacketHdr) :
    ServerMoves s { s with interest, pending, recentPackets } :=
  .single (.apart interest pending recentPackets)

/-- What every move keeps holds after any number of them. -/
theorem invariant {inv : Server n → Prop}
    (hevent : ∀ {s s' : Server n} {event}, inv s → serverStep s event = .ok s' → inv s')
    (hapart : ∀ {s : Server n} interest pending recentPackets, inv s →
      inv { s with interest, pending, recentPackets })
    {s s' : Server n} (hinv : inv s) (hmoves : ServerMoves s s') : inv s' := by
  induction hmoves with
  | refl => exact hinv
  | tail _ hmove ih =>
      cases hmove with
      | event hstep => exact hevent ih hstep
      | apart interest pending recentPackets => exact hapart interest pending recentPackets ih

theorem addFd {s s' : Server n} {fd : Nat} (hrun : s.addFd fd = .ok s') : ServerMoves s s' := by
  unfold Server.addFd at hrun
  split_ifs at hrun
  cases hrun
  exact apart s _ _ _

theorem delFd {s s' : Server n} {fd : Nat} (hrun : s.delFd fd = .ok s') : ServerMoves s s' := by
  unfold Server.delFd at hrun
  split_ifs at hrun
  cases hrun
  exact apart s _ _ _

theorem closeFd (s : Server n) (fd : Nat) : ServerMoves s (s.closeFd fd) := apart s _ _ _

/-- An event for a descriptor whose turn it is. -/
theorem turn {s s' : Server n} (fd : Nat) (event : ServerEvent)
    (hstep : serverStep { s with pending := fd :: s.pending } event = .ok s') : ServerMoves s s' :=
  (apart s s.interest (fd :: s.pending) s.recentPackets).trans (.event event hstep)

theorem takeEvent_cons (s : Server n) (fd : Nat) : takeEvent { s with pending := fd :: s.pending } fd = s := by
  unfold takeEvent
  rw [List.erase_cons_head]

theorem pipeInput {clock : ServerClock} {input : Option (List UInt8)} {encoded : Int × List UInt8}
    {s s' : Server n} {fd : Nat} (hrun : Snapcastc.pipeInput clock input encoded s fd = .ok s') :
    ServerMoves s s' := by
  refine turn fd (.pipeInput fd input encoded clock) ?_
  rw [serverStep, if_pos List.mem_cons_self, takeEvent_cons]
  exact hrun

theorem pipeHangup {opened : Option Nat} {s s' : Server n} {fd : Nat}
    (hrun : Snapcastc.pipeHangup opened s fd = .ok s') : ServerMoves s s' := by
  refine turn fd (.pipeHangup fd opened) ?_
  rw [serverStep, if_pos List.mem_cons_self, takeEvent_cons]
  exact hrun

/-- `taskqueue_run`. The induction is on the executed tasks. -/
theorem runQueue {now : Timespec} (runs : List TaskRun) {s s' : Server n}
    (hrun : Snapcastc.runQueue now runs s = .ok s') : ServerMoves s s' := by
  induction runs generalizing s with
  | nil =>
      unfold Snapcastc.runQueue at hrun
      split_ifs at hrun
      cases hrun
      exact refl _
  | cons run runs ih =>
      unfold Snapcastc.runQueue at hrun
      split_ifs at hrun
      · obtain ⟨s₁, hfire, hrun⟩ := except_bind_ok hrun
        exact (event (.fire run.id run.clock run.opened) hfire).trans (ih hrun)
      · exact ih hrun

/-- `intercom_handle_client_operation`: every TLV that does something is an event. -/
theorem handleClientOperation {clock : ServerClock} {opened : Option Nat} {peer : In6Addr} {port : UInt16}
    {rounds : Nat} {s s' : Server n} {packet : Nat → UInt8} {packetLen : Nat}
    (hrun : intercomHandleClientOperation (serverEffects clock opened peer port) rounds
      (.ok s : Except Fault (Server n)) packet packetLen = some (.ok s')) : ServerMoves s s' := by
  have hround : ∀ (reached : Except Fault (Server n)) (offset : Nat), offset < packetLen →
      (∀ s₁, reached = .ok s₁ → ServerMoves s s₁) →
        ∀ s₂, clientOperationHandle (serverEffects clock opened peer port) packet reached offset = .ok s₂ →
          ServerMoves s s₂ := by
    intro reached offset _ hreached s₂ hhandle
    unfold clientOperationHandle serverEffects at hhandle
    dsimp only at hhandle
    split_ifs at hhandle
    · obtain ⟨s₁, hreach, hrefresh⟩ := except_bind_ok hhandle
      exact (hreached s₁ hreach).trans (event (.hello ⟨_, peer, port⟩ clock opened) hrefresh)
    · obtain ⟨s₁, hreach, hanswer⟩ := except_bind_ok hhandle
      exact (hreached s₁ hreach).trans (event (.request _ _ peer port) hanswer)
    · exact hreached s₂ hhandle
  refine OffsetLoop.run_invariant (P := fun reached => ∀ s₁, reached = .ok s₁ → ServerMoves s s₁) hround
    (fun s₁ hs₁ => ?_) hrun s' rfl
  cases hs₁
  exact refl _

/-- `intercom_handle_packet`. -/
theorem handlePacket {clock : ServerClock} {opened : Option Nat} {peer : In6Addr} {port : UInt16}
    {rounds : Nat} {s s' : Server n} {packet : Nat → UInt8} {packetLen : Nat}
    (hrun : serverHandlePacket clock opened rounds s packet packetLen peer port = some (.ok s')) :
    ServerMoves s s' := by
  unfold serverHandlePacket at hrun
  dsimp only at hrun
  split_ifs at hrun
  · exact (apart s s.interest s.pending _).trans (handleClientOperation hrun)
  · cases hrun
    exact apart _ _ _ _
  · cases hrun
    exact refl _

/-- `intercom_handle_in`. The induction is on the datagrams. -/
theorem handleIn (datagrams : List WaitingDatagram) {buf : Nat → UInt8} {s s' : Server n}
    (hrun : intercomHandleIn datagrams buf s = .ok s') : ServerMoves s s' := by
  induction datagrams generalizing buf s with
  | nil =>
      cases hrun
      exact refl _
  | cons datagram datagrams ih =>
      unfold intercomHandleIn at hrun
      dsimp only at hrun
      split_ifs at hrun
      · cases hrun
        exact refl _
      · split at hrun
        · cases hrun
        · rename_i handled hhandled
          obtain ⟨s₁, rfl, hrun⟩ := except_bind_ok hrun
          exact (handlePacket hhandled).trans (ih hrun)

/-- `handle_line`. -/
theorem handleLine {opened : Option Nat} {jc : JsonC} {view : UnionView} {s s' : Server n}
    {line : List UInt8} {response : Option RpcResponse}
    (hrun : Snapcastc.handleLine opened jc view s line = .ok (s', response)) : ServerMoves s s' := by
  obtain ⟨parsed, -, hrun⟩ := except_bind_ok hrun
  cases parsed with
  | none =>
      cases hrun
      exact refl _
  | some parsed =>
      change handleRequest opened s parsed.method (parsed.request jc view) = .ok (s', response) at hrun
      unfold handleRequest at hrun
      split at hrun
      · cases hrun
        exact refl _
      · obtain ⟨result, hset, hrun⟩ := except_bind_ok hrun
        cases hrun
        refine event (.setStream (parsed.request jc view) opened) ?_
        rw [serverStep, hset]
        rfl
      · obtain ⟨result, hset, hrun⟩ := except_bind_ok hrun
        cases hrun
        refine event (.setVolume (parsed.request jc view)) ?_
        rw [serverStep, hset]
        rfl
      · cases hrun
        exact refl _
      · cases hrun
        exact refl _

theorem handleLines {opened : Option Nat} {jc : JsonC} {view : UnionView} (lines : List (List UInt8))
    {s s' : Server n} {responses : List RpcResponse}
    (hrun : Snapcastc.handleLines opened jc view lines s = .ok (s', responses)) : ServerMoves s s' := by
  induction lines generalizing s responses with
  | nil =>
      cases hrun
      exact refl _
  | cons line lines ih =>
      obtain ⟨first, hfirst, hrun⟩ := except_bind_ok hrun
      obtain ⟨rest, hrest, hrun⟩ := except_bind_ok hrun
      cases hrun
      exact (handleLine hfirst).trans (ih hrest)

/-! ### The main loop -/

theorem closeConnection {m m' : ServerMain n} {i : Nat} {connection : Connection}
    (hrun : Snapcastc.closeConnection m i connection = .ok m') : ServerMoves m.server m'.server := by
  obtain ⟨server, hdel, hrun⟩ := except_bind_ok hrun
  cases hrun
  exact (delFd hdel).trans (closeFd server connection.fd)

theorem socketHandleIn {m m' : ServerMain n} {accepted : Option Nat}
    (hrun : Snapcastc.socketHandleIn m accepted = .ok m') : ServerMoves m.server m'.server := by
  cases accepted with
  | none => cases hrun
  | some fd =>
      unfold Snapcastc.socketHandleIn at hrun
      dsimp only at hrun
      split_ifs at hrun
      · obtain ⟨server, hadd, hrun⟩ := except_bind_ok hrun
        cases hrun
        exact addFd hadd
      · cases hrun
        exact refl _

theorem handleConnection {jc : JsonC} {view : UnionView} {results : CallResults} {m m' : ServerMain n}
    {i : Nat} {connection : Connection}
    (hrun : Snapcastc.handleConnection jc view results m i connection = .ok m') :
    ServerMoves m.server m'.server := by
  obtain ⟨handled, hlines, hrun⟩ := except_bind_ok hrun
  have hmoves := handleLines _ hlines
  dsimp only at hrun
  split_ifs at hrun
  · exact hmoves.trans (closeConnection hrun)
  · cases hrun
    exact hmoves

theorem handleHangup {results : CallResults} {m m' : ServerMain n} {fd : Nat}
    (hrun : Snapcastc.handleHangup results m fd = .ok m') : ServerMoves m.server m'.server := by
  unfold Snapcastc.handleHangup at hrun
  split at hrun
  · obtain ⟨server, hhangup, hrun⟩ := except_bind_ok hrun
    cases hrun
    exact pipeHangup hhangup
  · split at hrun
    · cases hrun
    · split at hrun
      · cases hrun
      · exact closeConnection hrun

theorem handleInput {jc : JsonC} {view : UnionView} {results : CallResults} {m m' : ServerMain n} {fd : Nat}
    (hrun : Snapcastc.handleInput jc view results m fd = .ok m') : ServerMoves m.server m'.server := by
  unfold Snapcastc.handleInput at hrun
  split at hrun
  · obtain ⟨server, hqueue, hrun⟩ := except_bind_ok hrun
    cases hrun
    exact runQueue _ hqueue
  · split at hrun
    · obtain ⟨server, hpipe, hrun⟩ := except_bind_ok hrun
      cases hrun
      exact pipeInput hpipe
    · split at hrun
      · obtain ⟨server, hin, hrun⟩ := except_bind_ok hrun
        cases hrun
        exact handleIn _ hin
      · split at hrun
        · exact socketHandleIn hrun
        · split at hrun
          · cases hrun
            exact apart _ _ _ _
          · split at hrun
            · cases hrun
            · exact handleConnection hrun

/-- A step of the main loop. -/
theorem mainStep {jc : JsonC} {view : UnionView} {m m' : ServerMain n} {event : MainEvent}
    (hrun : Snapcastc.mainStep jc view m event = .ok m') : ServerMoves m.server m'.server := by
  cases event with
  | epollWait ready =>
      unfold Snapcastc.mainStep at hrun
      dsimp only at hrun
      split_ifs at hrun
      · cases hrun
        exact apart m.server m.server.interest _ m.server.recentPackets
      · cases hrun
        exact refl _
  | handle results =>
      unfold Snapcastc.mainStep at hrun
      dsimp only at hrun
      split at hrun
      · cases hrun
        exact refl _
      · rename_i fd readiness batch _
        have hturn := apart m.server m.server.interest (m.server.pending.erase fd) m.server.recentPackets
        cases readiness with
        | hangup => exact hturn.trans (handleHangup hrun)
        | input => exact hturn.trans (handleInput hrun)

theorem mainRun {jc : JsonC} {view : UnionView} {m m' : ServerMain n} {events : List MainEvent}
    (hrun : Snapcastc.mainRun jc view m events = .ok m') : ServerMoves m.server m'.server :=
  mainRun_invariant (fun reached => ServerMoves m.server reached.server)
    (fun hmoves hstep => hmoves.trans (mainStep hstep)) (refl m.server) hrun

theorem enterLoop {bufferms : UInt16} {options : Fin (n + 1) → StreamOptions}
    {taskqueueFd intercomFd socketFd : Nat} {m : ServerMain n}
    (hrun : Snapcastc.enterLoop bufferms options taskqueueFd intercomFd socketFd = .ok m) :
    ServerMoves (freshServer bufferms options) m.server := by
  obtain ⟨first, hfirst, hrun⟩ := except_bind_ok hrun
  obtain ⟨second, hsecond, hrun⟩ := except_bind_ok hrun
  obtain ⟨third, hthird, hrun⟩ := except_bind_ok hrun
  cases hrun
  exact ((addFd hfirst).trans (addFd hsecond)).trans (addFd hthird)

end ServerMoves

/-- In every state that the main loop reaches, whatever arrives in datagrams, is written to connections and is
reported by `epoll_wait`, the server is one that its events lead to, up to the descriptors and the packets
seen recently; its clients and their purge tasks are in order. -/
theorem mainRun_registry (bufferms : UInt16) (options : Fin (n + 1) → StreamOptions)
    (taskqueueFd intercomFd socketFd : Nat) (jc : JsonC) (view : UnionView) (events : List MainEvent)
    (m₀ m : ServerMain n) (henter : enterLoop bufferms options taskqueueFd intercomFd socketFd = .ok m₀)
    (hrun : mainRun jc view m₀ events = .ok m) :
    ServerMoves (freshServer bufferms options) m.server ∧ RegistryInv m.server := by
  have hmoves := (ServerMoves.enterLoop henter).trans (.mainRun hrun)
  refine ⟨hmoves, ServerMoves.invariant (fun hinv hstep => (serverStep_spec hinv hstep).inv hinv)
    (fun {s} interest pending recentPackets hinv => ?_) (RegistryInv.fresh bufferms options) hmoves⟩
  exact RegistrySteps.inv (.same hinv hinv.handles.sound (List.prefix_refl _) rfl rfl rfl rfl) hinv

/-- A HELLO from client 1 with a REQUEST behind it, as it comes in. -/
def helloDatagram : WaitingDatagram where
  bytes := [1, 0, 0, 1, 0, 0, 0, 5, 1, 9, 0, 1, 0, 0, 0, 0, 50, 0, 6, 0, 0, 0, 7]
  peer := ⟨1⟩
  port := 100
  clock := ⟨⟨1, 0⟩, ⟨1, 0⟩⟩
  opened := some 8

/-- The datagram comes while a connection is accepted, and five seconds later the client is purged. -/
def helloBatch : List MainEvent :=
  [.epollWait [(4, .input), (5, .input)],
    .handle ⟨⟨⟨1, 0⟩, ⟨1, 0⟩⟩, none, [], none, (0, []), fun _ => 0, [helloDatagram], none, .eof⟩,
    .handle ⟨⟨⟨1, 0⟩, ⟨1, 0⟩⟩, none, [], none, (0, []), fun _ => 0, [], some 6, .eof⟩,
    .epollWait [(3, .input)],
    .handle ⟨⟨⟨7, 0⟩, ⟨7, 0⟩⟩, none, [⟨0, ⟨⟨7, 0⟩, ⟨7, 0⟩⟩, none⟩], none, (0, []), fun _ => 0, [], none, .eof⟩]

theorem mainRun_registry_purged :
    ∃ m₀ m : ServerMain 1, enterLoop 1000 twoStreams 3 4 5 = .ok m₀ ∧
      mainRun stringVolumeJson pointerView m₀ helloBatch = .ok m ∧
        m.server.tasks.history = [.scheduleDeleteClient 1] ∧ RegistryInv m.server := by
  obtain ⟨m, hrun, hview⟩ := except_map_ok (show ((enterLoop 1000 twoStreams 3 4 5 :
    Except Fault (ServerMain 1)).bind fun m₀ => mainRun stringVolumeJson pointerView m₀ helloBatch).map
      (fun m => m.server.tasks.history) = .ok [.scheduleDeleteClient 1] by decide +kernel)
  obtain ⟨m₀, henter, hmain⟩ := except_bind_ok hrun
  exact ⟨m₀, m, henter, hmain, hview, (mainRun_registry 1000 twoStreams 3 4 5 stringVolumeJson pointerView
    helloBatch m₀ m henter hmain).2⟩

end Snapcastc
