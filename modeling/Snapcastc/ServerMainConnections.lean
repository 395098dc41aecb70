import Snapcastc.ServerMainRun

/-! The connections of the control protocol do not get in each other's way, nor does the rest of the server,
as long as no input pipe has kept the number of a connection: whatever happens in between, the lines of a
connection are those of a socket that is served alone. -/

namespace Snapcastc

variable {n : Nat}

/-- A result of a `read` that was offered as many bytes as there is room for. -/
def Readable (sc : Socket.Socketclient) : Socket.ReadResult → Prop
  | .data bytes => bytes ≠ [] ∧ bytes.length ≤ Socket.linebufferSize - sc.lineOffset - 1
  | _ => True

theorem readLine_readable (sc : Socket.Socketclient) (result : Socket.ReadResult) :
    Readable sc (readLine sc result) := by
  cases result with
  | data bytes =>
      unfold readLine
      dsimp only
      split_ifs with hempty
      · trivial
      · rw [List.isEmpty_iff] at hempty
        exact ⟨hempty, List.length_take_le _ _⟩
  | eof => trivial
  | error again => trivial

/-- A connection: what is read goes in, and the lines for `handle_line` come out. It stays open as long as
`socket_handle_client` does not return -1. -/
def connectionMachine (jc : JsonC) :
    Sessions.Machine Socket.Socketclient Socket.ReadResult (List UInt8) where
  start := Socket.fresh
  step := fun sc result => ((Socket.socketHandleClient (acceptsLine jc) sc result).client,
    (Socket.socketHandleClient (acceptsLine jc) sc result).lines)
  stays := fun sc result => Readable sc result ∧ 0 ≤ (Socket.socketHandleClient (acceptsLine jc) sc result).ret

def receivedBytes : Socket.ReadResult → Option (List UInt8)
  | .data bytes => some bytes
  | _ => none

theorem socketHandleClient_eof (parse : List UInt8 → Bool) (sc : Socket.Socketclient) :
    (Socket.socketHandleClient parse sc .eof).ret = -1 := by
  unfold Socket.socketHandleClient
  split_ifs <;> rfl

theorem socketHandleClient_error (parse : List UInt8 → Bool) (sc : Socket.Socketclient) (again : Bool) :
    (Socket.socketHandleClient parse sc (.error again)).client = sc ∧
      (Socket.socketHandleClient parse sc (.error again)).lines = [] := by
  unfold Socket.socketHandleClient
  split_ifs <;> exact ⟨rfl, rfl⟩

/-- What is read from a connection that stays open is what can be read from a socket, and it gives the same
lines, with more to come or not. -/
theorem connection_feed {jc : JsonC} {inputs : List Socket.ReadResult}
    (hopen : (connectionMachine jc).Open inputs) (more : List (List UInt8)) :
    (Socket.Possible (acceptsLine jc) Socket.fresh (inputs.filterMap receivedBytes ++ more) ↔
      Socket.Possible (acceptsLine jc) ((connectionMachine jc).run inputs).1 more) ∧
    Socket.feed (acceptsLine jc) Socket.fresh (inputs.filterMap receivedBytes ++ more) =
      ((connectionMachine jc).run inputs).2 ++
        Socket.feed (acceptsLine jc) ((connectionMachine jc).run inputs).1 more := by
  induction hopen generalizing more with
  | start => exact ⟨Iff.rfl, rfl⟩
  | @next inputs input hopen hstays ih =>
      obtain ⟨hreadable, hret⟩ := hstays
      rw [Sessions.Machine.run_concat, List.filterMap_append, List.append_assoc]
      generalize hsc : ((connectionMachine jc).run inputs).1 = sc at hreadable hret ih
      cases input with
      | data bytes =>
          obtain ⟨hnonempty, hroom⟩ := hreadable
          obtain ⟨hpossible, hfeed⟩ := ih (bytes :: more)
          refine ⟨hpossible.trans ?_, hfeed.trans ?_⟩
          · rw [Socket.Possible, and_iff_right hnonempty, and_iff_right hroom]
            rfl
          · rw [Socket.feed, if_neg (not_lt.mpr hret), List.append_assoc]
            rfl
      | eof =>
          rw [socketHandleClient_eof] at hret
          exact absurd hret (by decide)
      | error again =>
          obtain ⟨hclient, hlines⟩ := socketHandleClient_error (acceptsLine jc) sc again
          obtain ⟨hpossible, hfeed⟩ := ih more
          refine ⟨hpossible.trans ?_, hfeed.trans ?_⟩
          · change _ ↔ Socket.Possible _
              (Socket.socketHandleClient (acceptsLine jc) sc (.error again)).client more
            rw [hclient]
          · change _ = (_ ++ (Socket.socketHandleClient (acceptsLine jc) sc (.error again)).lines) ++
              Socket.feed _ (Socket.socketHandleClient (acceptsLine jc) sc (.error again)).client more
            rw [hclient, hlines, List.append_nil]

/-! ### The connections of the process -/

/-- The connections by their numbers. -/
def connectionTable (m : ServerMain n) : List (Nat × Socket.Socketclient) :=
  m.connections.map fun connection => (connection.fd, connection.socket)

/-- The open connections are in the states in which what they have read has put them. -/
def ConnectionsInv (jc : JsonC) (m : ServerMain n) : Prop :=
  Sessions.Follows (connectionMachine jc) (connectionTable m) m.log

/-- No connection has the number that a stream has for its input pipe, or has kept of a closed one. -/
def ServerMain.Unshared (m : ServerMain n) : Prop :=
  ∀ connection ∈ m.connections, streamFindFd m.server connection.fd = none

/-- `accept` returns no number of an open connection. -/
def AcceptsNew (m : ServerMain n) : MainEvent → Prop
  | .epollWait _ => True
  | .handle results => ∀ fd ∈ results.accepted, ∀ connection ∈ m.connections, connection.fd ≠ fd

/-- In every state of the run no descriptor of a connection is shared. -/
def UnsharedRun (jc : JsonC) (view : UnionView) : ServerMain n → List MainEvent → Prop
  | m, [] => m.Unshared
  | m, event :: events => m.Unshared ∧ AcceptsNew m event ∧
      ∀ m', mainStep jc view m event = .ok m' → UnsharedRun jc view m' events

instance (m : ServerMain n) : Decidable m.Unshared := by
  unfold ServerMain.Unshared
  infer_instance

instance (m : ServerMain n) (event : MainEvent) : Decidable (AcceptsNew m event) := by
  cases event <;> unfold AcceptsNew <;> infer_instance

instance (jc : JsonC) (view : UnionView) :
    (m : ServerMain n) → (events : List MainEvent) → Decidable (UnsharedRun jc view m events)
  | m, [] => inferInstanceAs (Decidable m.Unshared)
  | m, event :: events =>
      match hstep : mainStep jc view m event with
      | .error _ => decidable_of_iff (m.Unshared ∧ AcceptsNew m event) (by simp [UnsharedRun, hstep])
      | .ok m' =>
          have := instDecidableUnsharedRun jc view m' events
          decidable_of_iff (m.Unshared ∧ AcceptsNew m event ∧ UnsharedRun jc view m' events)
            (by simp [UnsharedRun, hstep])

section

variable {jc : JsonC} {m m' : ServerMain n}

theorem connectionTable_keys (m : ServerMain n) :
    (connectionTable m).map Prod.fst = m.connections.map Connection.fd := by
  rw [connectionTable, List.map_map]
  rfl

theorem connectionTable_getElem? {i : Nat} {connection : Connection}
    (hget : m.connections[i]? = some connection) :
    (connectionTable m)[i]? = some (connection.fd, connection.socket) := by
  rw [connectionTable, List.getElem?_map, hget]
  rfl

/-- Neither the connections nor their log have changed. -/
theorem ConnectionsInv.congr (hinv : ConnectionsInv jc m) (hconnections : m'.connections = m.connections)
    (hlog : m'.log = m.log) : ConnectionsInv jc m' := by
  unfold ConnectionsInv connectionTable at *
  rw [hconnections, hlog]
  exact hinv

/-- Something was done under the number of an input pipe. -/
theorem ConnectionsInv.pipe (hinv : ConnectionsInv jc m) (hunshared : m.Unshared) {fd : Nat}
    {i : Fin (n + 1)} (hfind : streamFindFd m.server fd = some i)
    {entries : List (Sessions.Entry Nat Socket.ReadResult (List UInt8))}
    (hkeys : ∀ entry ∈ entries, entry.key = fd ∧ ∀ key, entry ≠ .opened key)
    (hconnections : m'.connections = m.connections) (hlog : m'.log = m.log ++ entries) :
    ConnectionsInv jc m' := by
  unfold ConnectionsInv connectionTable at *
  rw [hconnections, hlog]
  refine hinv.apart (fun entry hentry hmem => ?_) fun entry hentry => (hkeys entry hentry).2
  rw [(hkeys entry hentry).1, List.map_map] at hmem
  obtain ⟨connection, hconnection, hfd⟩ := List.mem_map.mp hmem
  have hnone := hunshared connection hconnection
  rw [show connection.fd = fd from hfd, hfind] at hnone
  cases hnone

/-- A connection is closed, whatever it has done just before. -/
theorem ConnectionsInv.close (hinv : ConnectionsInv jc m) {i : Nat} {connection : Connection}
    (hget : m.connections[i]? = some connection)
    {entries : List (Sessions.Entry Nat Socket.ReadResult (List UInt8))}
    (hown : ∀ entry ∈ entries, entry.key = connection.fd) {before : ServerMain n} {after : Connection}
    (hbefore : before.connections.eraseIdx i = m.connections.eraseIdx i) (hlog : before.log = m.log ++ entries)
    (hafter : after.fd = connection.fd) (hrun : closeConnection before i after = .ok m') :
    ConnectionsInv jc m' := by
  obtain ⟨server, -, hrun⟩ := except_bind_ok hrun
  cases hrun
  have hclosed := Sessions.Follows.closed hinv (connectionTable_getElem? hget) hown
  unfold ConnectionsInv connectionTable at *
  dsimp only
  rw [hbefore, hlog, hafter, ← List.eraseIdx_map]
  exact hclosed

/-- A connection is accepted. -/
theorem ConnectionsInv.accept (hinv : ConnectionsInv jc m) {accepted : Option Nat}
    (hnew : ∀ fd ∈ accepted, ∀ connection ∈ m.connections, connection.fd ≠ fd)
    (hrun : socketHandleIn m accepted = .ok m') : ConnectionsInv jc m' := by
  cases accepted with
  | none => cases hrun
  | some fd =>
      have hopened : ConnectionsInv jc { m with
          connections := m.connections ++ [⟨fd, Socket.fresh⟩], log := m.log ++ [.opened fd] } := by
        have hnot : fd ∉ (connectionTable m).map Prod.fst := by
          rw [connectionTable_keys, List.mem_map]
          rintro ⟨connection, hconnection, hfd⟩
          exact hnew fd rfl connection hconnection hfd
        have hfollows := Sessions.Follows.opened hinv hnot
        unfold ConnectionsInv connectionTable
        rw [List.map_append]
        exact hfollows
      unfold socketHandleIn at hrun
      dsimp only at hrun
      split at hrun
      · obtain ⟨server, -, hrun⟩ := except_bind_ok hrun
        cases hrun
        exact hopened.congr rfl rfl
      · cases hrun
        exact hopened

/-- A connection has something to read. -/
theorem ConnectionsInv.handle {view : UnionView} {results : CallResults} (hinv : ConnectionsInv jc m)
    {i : Nat} {connection : Connection} (hget : m.connections[i]? = some connection)
    (hrun : handleConnection jc view results m i connection = .ok m') : ConnectionsInv jc m' := by
  obtain ⟨⟨server, responses⟩, -, hrun⟩ := except_bind_ok hrun
  dsimp only at hrun
  split at hrun
  · exact hinv.close hget (fun entry => Sessions.stepEntries_key) (List.eraseIdx_set_eq ..) rfl rfl hrun
  · rename_i hret
    cases hrun
    have hfollows := Sessions.Follows.took hinv (connectionTable_getElem? hget)
      ⟨readLine_readable connection.socket results.received, not_lt.mp hret⟩
    unfold ConnectionsInv connectionTable
    dsimp only
    rw [List.map_set]
    exact hfollows

theorem pipeReads_key {clock : ServerClock} {input : Option (List UInt8)} {s : Server n} {fd : Nat}
    {i : Fin (n + 1)} {entry : Sessions.Entry Nat Socket.ReadResult (List UInt8)}
    (hentry : entry ∈ pipeReads clock input s fd i) : entry.key = fd ∧ ∀ key, entry ≠ .opened key := by
  unfold pipeReads at hentry
  split at hentry
  · cases hentry
  · split at hentry
    · rw [List.mem_singleton.mp hentry]
      exact ⟨rfl, fun key => nofun⟩
    · rw [List.mem_singleton.mp hentry]
      exact ⟨rfl, fun key => nofun⟩

theorem ConnectionsInv.hangup {results : CallResults} (hinv : ConnectionsInv jc m) (hunshared : m.Unshared)
    {fd : Nat} (hrun : handleHangup results m fd = .ok m') : ConnectionsInv jc m' := by
  unfold handleHangup at hrun
  split at hrun
  · rename_i i hfind
    obtain ⟨server, -, hrun⟩ := except_bind_ok hrun
    cases hrun
    refine hinv.pipe hunshared hfind (fun entry hentry => ?_) rfl rfl
    rw [List.mem_singleton.mp hentry]
    exact ⟨rfl, fun key => nofun⟩
  · split at hrun
    · cases hrun
    · split at hrun
      · cases hrun
      · rename_i connection hget
        exact hinv.close hget (fun _ hentry => absurd hentry List.not_mem_nil) rfl
          (List.append_nil _).symm rfl hrun

theorem ConnectionsInv.input {view : UnionView} {results : CallResults} (hinv : ConnectionsInv jc m)
    (hunshared : m.Unshared)
    (hnew : ∀ fd ∈ results.accepted, ∀ connection ∈ m.connections, connection.fd ≠ fd) {fd : Nat}
    (hrun : handleInput jc view results m fd = .ok m') : ConnectionsInv jc m' := by
  unfold handleInput at hrun
  split at hrun
  · obtain ⟨server, -, hrun⟩ := except_bind_ok hrun
    cases hrun
    exact hinv.congr rfl rfl
  · split at hrun
    · rename_i i hfind
      obtain ⟨server, -, hrun⟩ := except_bind_ok hrun
      cases hrun
      exact hinv.pipe hunshared hfind (fun entry => pipeReads_key) rfl rfl
    · split at hrun
      · obtain ⟨server, -, hrun⟩ := except_bind_ok hrun
        cases hrun
        exact hinv.congr rfl rfl
      · split at hrun
        · exact hinv.accept hnew hrun
        · split at hrun
          · cases hrun
            exact hinv.congr rfl rfl
          · split at hrun
            · cases hrun
            · rename_i connection hget
              exact hinv.handle hget hrun

/-- A step of the main loop. -/
theorem ConnectionsInv.step {view : UnionView} {event : MainEvent} (hinv : ConnectionsInv jc m)
    (hunshared : m.Unshared) (hnew : AcceptsNew m event) (hrun : mainStep jc view m event = .ok m') :
    ConnectionsInv jc m' := by
  cases event with
  | epollWait ready =>
      unfold mainStep at hrun
      dsimp only at hrun
      split at hrun
      · cases hrun
        exact hinv.congr rfl rfl
      · cases hrun
        exact hinv
  | handle results =>
      unfold mainStep at hrun
      dsimp only at hrun
      split at hrun
      · cases hrun
        exact hinv
      · rename_i fd readiness batch _
        have hturn : ConnectionsInv jc { m with batch, server := takeEvent m.server fd } :=
          hinv.congr rfl rfl
        cases readiness with
        | hangup => exact hturn.hangup hunshared hrun
        | input => exact hturn.input hunshared hnew hrun

/-- A run of the main loop. The induction is on the events. -/
theorem ConnectionsInv.run {view : UnionView} {events : List MainEvent} (hinv : ConnectionsInv jc m)
    (hunshared : UnsharedRun jc view m events) (hrun : mainRun jc view m events = .ok m') :
    ConnectionsInv jc m' := by
  induction events generalizing m with
  | nil =>
      cases hrun
      exact hinv
  | cons event events ih =>
      obtain ⟨m₁, hstep, hrun⟩ := except_bind_ok hrun
      obtain ⟨hfirst, hnew, hrest⟩ := hunshared
      exact ih (hinv.step hfirst hnew hstep) (hrest m₁ hstep) hrun

end

/-- In every state of a run in which no descriptor of a connection is shared: the sessions in the log that
are open are those of the connections, the connections have different numbers, and the lines that were
handed over for a connection are those that a socket which is served alone hands over for what was read from
it, all of which was really read. -/
theorem connections_isolated (bufferms : UInt16) (options : Fin (n + 1) → StreamOptions)
    (taskqueueFd intercomFd socketFd : Nat) (jc : JsonC) (view : UnionView) (events : List MainEvent)
    (m₀ m : ServerMain n) (henter : enterLoop bufferms options taskqueueFd intercomFd socketFd = .ok m₀)
    (hunshared : UnsharedRun jc view m₀ events) (hrun : mainRun jc view m₀ events = .ok m) :
    (m.connections.map Connection.fd).Nodup ∧ ∀ fd,
      (Sessions.session m.log fd ≠ none ↔ ∃ connection ∈ m.connections, connection.fd = fd) ∧
        ∀ current, Sessions.session m.log fd = some current →
          Socket.Possible (acceptsLine jc) Socket.fresh (current.inputs.filterMap receivedBytes) ∧
            current.outputs =
              Socket.feed (acceptsLine jc) Socket.fresh (current.inputs.filterMap receivedBytes) := by
  have hstart : ConnectionsInv jc m₀ := by
    obtain ⟨first, -, henter⟩ := except_bind_ok henter
    obtain ⟨second, -, henter⟩ := except_bind_ok henter
    obtain ⟨third, -, henter⟩ := except_bind_ok henter
    cases henter
    exact Sessions.Follows.nil _
  have hinv : Sessions.Follows (connectionMachine jc) (connectionTable m) m.log :=
    hstart.run hunshared hrun
  have hnodup := hinv.nodup
  rw [connectionTable_keys] at hnodup
  refine ⟨hnodup, fun fd => ⟨?_, fun current hcurrent => ?_⟩⟩
  · rw [ne_eq, hinv.session_none_iff, not_not, connectionTable_keys, List.mem_map]
  · have hlisted := hinv.listed fd (hcurrent ▸ Option.some_ne_none current)
    obtain ⟨entry, hentry, rfl⟩ := List.mem_map.mp hlisted
    obtain ⟨same, hsame, hopen, hstate⟩ := hinv.state entry hentry
    obtain rfl := Option.some.inj (hcurrent.symm.trans hsame)
    obtain ⟨hpossible, hfeed⟩ := connection_feed hopen []
    rw [List.append_nil] at hpossible hfeed
    refine ⟨hpossible.mpr trivial, ?_⟩
    rw [hfeed, hstate, Socket.feed, List.append_nil]

/-- What the calls return when a connection is accepted, or has something to read. -/
def socketResults (accepted : Option Nat) (received : Socket.ReadResult) : CallResults :=
  ⟨⟨⟨1, 0⟩, ⟨1, 0⟩⟩, none, [], none, (0, []), fun _ => 0, [], accepted, received⟩

/-- Two connections are accepted, and each writes a line; the line of the first one comes in two pieces. -/
def twoConnections : List MainEvent :=
  [.epollWait [(5, .input)], .handle (socketResults (some 6) .eof),
    .epollWait [(5, .input)], .handle (socketResults (some 7) .eof),
    .epollWait [(6, .input), (7, .input)], .handle (socketResults none (.data [97])),
    .handle (socketResults none (.data [98, 10])),
    .epollWait [(6, .input)], .handle (socketResults none (.data [99, 10]))]

theorem connections_isolated_two :
    ∃ m₀ m : ServerMain 1, enterLoop 1000 twoStreams 3 4 5 = .ok m₀ ∧
      mainRun stringVolumeJson pointerView m₀ twoConnections = .ok m ∧
        ∃ current, Sessions.session m.log 6 = some current ∧ current.outputs = [[97, 99, 10]] := by
  obtain ⟨m, hrun, hview⟩ := except_map_ok (show ((enterLoop 1000 twoStreams 3 4 5 :
    Except Fault (ServerMain 1)).bind fun m₀ => (mainRun stringVolumeJson pointerView m₀ twoConnections).bind
      fun m => if UnsharedRun stringVolumeJson pointerView m₀ twoConnections then .ok m
        else .error .assertion).map (fun m => (Sessions.session m.log 6).map
          fun current => current.inputs.filterMap receivedBytes) = .ok (some [[97], [99, 10]]) by decide +kernel)
  obtain ⟨m₀, henter, hrun⟩ := except_bind_ok hrun
  obtain ⟨m', hmain, hrun⟩ := except_bind_ok hrun
  split_ifs at hrun with hunshared
  cases hrun
  obtain ⟨current, hcurrent, hinputs⟩ := Option.map_eq_some_iff.mp hview
  obtain ⟨-, hsession⟩ := connections_isolated 1000 twoStreams 3 4 5 stringVolumeJson pointerView
    twoConnections m₀ m henter hunshared hmain
  obtain ⟨-, hfeed⟩ := (hsession 6).2 current hcurrent
  rw [hinputs] at hfeed
  exact ⟨m₀, m, henter, hmain, current, hcurrent, hfeed.trans (by decide +kernel)⟩

end Snapcastc
