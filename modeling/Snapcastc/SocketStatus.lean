import Snapcastc.Jsonrpc
import Snapcastc.ServerLease
import Snapcastc.StreamParseUri

/-! The responses to requests (`socket.c`): what the handlers print is built from what the server keeps about its
streams and their clients. A reader of the response to Server.GetStatus finds the clients there. -/

namespace Snapcastc

variable {n : Nat}

/-- What a response also has: texts about the streams and the clients that nothing else looks at, the name of the
host and the texts of addresses. -/
structure StatusTexts (n : Nat) where
  fname : Fin (n + 1) → List UInt8
  raw : Fin (n + 1) → List UInt8
  codec : Fin (n + 1) → StreamCodec
  protocol : Fin (n + 1) → StreamProtocol
  clientName : ClientRecord → List UInt8
  mac : ClientRecord → List UInt8
  ip : In6Addr → List UInt8
  hostname : List UInt8

def printCodec : StreamCodec → List UInt8
  | .pcm => literal "pcm"
  | .opus => literal "opus"
  | .invalid => literal "unknown"

def printStreamProtocol : StreamProtocol → List UInt8
  | .pipe => literal "pipe"

def printInputpipeStatus : InputpipeState → List UInt8
  | .idle => literal "idle"
  | .playing => literal "playing"
  | .throttle => literal "throttle"

/-- An integer as `snprintf` prints it. -/
def printInt (x : Int) : List UInt8 := if x < 0 then literal "-" ++ decimal x.natAbs else decimal x.natAbs

/-- `streamformat`, of which `snprintf` leaves as much as there is room for. -/
def printStreamformat (pipe : InputpipeCtx) : List UInt8 :=
  (printInt pipe.samples ++ literal ":" ++ printInt (pipe.samplesize * 8) ++ literal ":" ++
    printInt pipe.channels).take 19

/-! ### Building -/

/-- A member of an object. -/
def member (key : String) (value : JsonValue) : List UInt8 × JsonValue := (literal key, value)

def JsonValue.text (text : String) : JsonValue := .string (literal text)

def jsonBuildHost (arch ip mac name os : List UInt8) : JsonValue :=
  .object [member "arch" (.string arch), member "ip" (.string ip), member "mac" (.string mac),
    member "name" (.string name), member "os" (.string os)]

def jsonrpcBuildresult (id : Int) (result : JsonValue) : JsonValue :=
  .object [member "id" (.int id), member "jsonrpc" (.text "2.0"), member "result" result]

def groupGetMuted (_ : Stream) : Bool := false

def groupGetId (_ : Stream) : List UInt8 := literal "2427bc26-e219-8d33-901c-20493f46eb42"

def groupGetName (stream : Stream) : List UInt8 := stream.name

def groupGetStreamId (stream : Stream) : List UInt8 := groupGetName stream

def jsonAddTime (t : Timespec) : JsonValue :=
  .object [member "sec" (.int (longToInt t.tvSec)), member "usec" (.int (longToInt (t.tvNsec.tdiv 1000)))]

/-- The body of the loop of `json_add_group`. -/
def jsonClient (texts : StatusTexts n) (c : ClientRecord) : JsonValue :=
  .object
    [member "config" (.object
      [member "instance" (.int 1),
        member "latency" (.int (longToInt c.latency.toNat)),
        member "name" (.text ""),
        member "volume" (.object
          [member "muted" (.boolean c.muted), member "percent" (.int c.volumePercent.toNat)])]),
      member "connected" (.boolean c.connected),
      member "host" (jsonBuildHost (literal "unknown") (texts.ip c.ip) (texts.mac c) (texts.clientName c)
        (literal "unknown")),
      member "id" (.int c.id.toNat),
      member "lastSeen" (jsonAddTime c.lastseen),
      member "snapclient" (.object
        [member "name" (.text "Snapclient"), member "protocolVersion" (.int c.protoversion.toNat),
          member "version" (.text "unknown")])]

/-- `json_add_group`. The loop starts at the last client. -/
def jsonAddGroup (texts : StatusTexts n) (stream : Stream) : JsonValue :=
  .object
    [member "clients" (.array (stream.clients.reverse.map (jsonClient texts))),
      member "id" (.string (groupGetId stream)),
      member "muted" (.boolean (groupGetMuted stream)),
      member "name" (.string (groupGetName stream)),
      member "stream_id" (.string (groupGetStreamId stream))]

/-- `json_add_groups`. -/
def jsonAddGroups (texts : StatusTexts n) (s : Server n) : JsonValue :=
  .array ((List.finRange (n + 1)).map fun i => jsonAddGroup texts (s.streams i))

/-- The body of the loop of `json_build_serverstatus_streams`. -/
def jsonStream (texts : StatusTexts n) (s : Server n) (i : Fin (n + 1)) : JsonValue :=
  .object
    [member "id" (.string (s.streams i).name),
      member "meta" (.object [member "STREAM" (.string (s.streams i).name)]),
      member "status" (.string (printInputpipeStatus (s.pipe i).state)),
      member "uri" (.object
        [member "fragment" (.text ""), member "host" (.text ""), member "path" (.string (texts.fname i)),
          member "query" (.object
            [member "buffer_ms" (.int (longToInt (s.pipe i).readMs)),
              member "codec" (.string (printCodec (texts.codec i))),
              member "name" (.string (s.streams i).name),
              member "sampleformat" (.string (printStreamformat (s.pipe i)))]),
          member "raw" (.string (texts.raw i)),
          member "scheme" (.string (printStreamProtocol (texts.protocol i)))])]

/-- `json_build_serverstatus_streams`. The loop starts at the last stream. -/
def jsonBuildServerstatusStreams (texts : StatusTexts n) (s : Server n) : JsonValue :=
  .array ((List.finRange (n + 1)).reverse.map (jsonStream texts s))

def jsonBuildServerstatusServer (texts : StatusTexts n) : JsonValue :=
  .object
    [member "host" (jsonBuildHost (literal "unknown_arch") [] [] texts.hostname (literal "Linux")),
      member "snapserver" (.object
        [member "controlProtocolVersion" (.int 1), member "name" (.text "Snapserver"),
          member "protocolVersion" (.int packetFormatVersion.toNat), member "version" (.text "0.0.1")])]

def jsonBuildServerstatus (texts : StatusTexts n) (s : Server n) : JsonValue :=
  .object [member "server" (.object
    [member "groups" (jsonAddGroups texts s), member "server" (jsonBuildServerstatusServer texts),
      member "streams" (jsonBuildServerstatusStreams texts s)])]

/-- The result of `handle_client_setstream`. -/
def jsonSetstream : Option SetstreamReply → JsonValue
  | none => .object []
  | some reply => .object [member "stream" (.string reply.stream), member "client" (.int reply.client.toNat)]

/-- The result of `handle_client_setvolume`. -/
def jsonSetvolume : Option VolumeReply → JsonValue
  | none => .object [member "volume" (.object [])]
  | some reply => .object [member "volume"
      (.object [member "muted" (.boolean reply.muted), member "percent" (.int reply.percent.toNat)])]

/-- The result of `handle_GetRPCVersion`. -/
def jsonRpcVersion : JsonValue :=
  .object [member "major" (.text "0"), member "minor" (.text "0"), member "patch" (.text "1")]

/-- What a handler prints in the state in which it has left the server. -/
def responseJson (texts : StatusTexts n) (s : Server n) (response : RpcResponse) : JsonValue :=
  jsonrpcBuildresult response.id
    (match response.result with
      | .rpcVersion => jsonRpcVersion
      | .stream reply => jsonSetstream reply
      | .volume reply => jsonSetvolume reply
      | .status => jsonBuildServerstatus texts s)

/-! ### Reading -/

/-- The value at the end of a path of keys. -/
def JsonValue.follow (value : JsonValue) (path : List String) : Option JsonValue :=
  path.foldlM (fun value key => value.objectGetEx (literal key)) value

/-- An integer at the end of a path, and a boolean, a string and an array. -/
def JsonValue.intAt (value : JsonValue) (path : List String) : Option Int :=
  match value.follow path with
  | some (.int x) => some x
  | _ => none

def JsonValue.booleanAt (value : JsonValue) (path : List String) : Option Bool :=
  match value.follow path with
  | some (.boolean b) => some b
  | _ => none

def JsonValue.stringAt (value : JsonValue) (path : List String) : Option (List UInt8) :=
  match value.follow path with
  | some (.string bytes) => some bytes
  | _ => none

def JsonValue.arrayAt (value : JsonValue) (path : List String) : Option (List JsonValue) :=
  match value.follow path with
  | some (.array elements) => some elements
  | _ => none

/-- What a response says of a client. -/
structure ClientStatus where
  id : Int
  connected : Bool
  latency : Int
  muted : Bool
  percent : Int
  sec : Int
  usec : Int
  deriving DecidableEq, Repr

/-- What a response says of a stream and its clients. -/
structure GroupStatus where
  streamId : List UInt8
  clients : List ClientStatus
  deriving DecidableEq, Repr

def readClient (client : JsonValue) : Option ClientStatus := do
  let id ← client.intAt ["id"]
  let connected ← client.booleanAt ["connected"]
  let latency ← client.intAt ["config", "latency"]
  let muted ← client.booleanAt ["config", "volume", "muted"]
  let percent ← client.intAt ["config", "volume", "percent"]
  let sec ← client.intAt ["lastSeen", "sec"]
  let usec ← client.intAt ["lastSeen", "usec"]
  pure ⟨id, connected, latency, muted, percent, sec, usec⟩

def readGroup (group : JsonValue) : Option GroupStatus := do
  let streamId ← group.stringAt ["stream_id"]
  let clients ← group.arrayAt ["clients"]
  let clients ← clients.mapM readClient
  pure ⟨streamId, clients⟩

def readGroups (response : JsonValue) : Option (List GroupStatus) := do
  let groups ← response.arrayAt ["result", "server", "groups"]
  groups.mapM readGroup

/-- What a response says of an input pipe. -/
structure StreamStatus where
  id : List UInt8
  state : InputpipeState
  deriving DecidableEq, Repr

def readState (text : List UInt8) : Option InputpipeState :=
  [.idle, .playing, .throttle].find? fun state => printInputpipeStatus state == text

def readStream (stream : JsonValue) : Option StreamStatus := do
  let id ← stream.stringAt ["id"]
  let text ← stream.stringAt ["status"]
  let state ← readState text
  pure ⟨id, state⟩

def readStreams (response : JsonValue) : Option (List StreamStatus) := do
  let streams ← response.arrayAt ["result", "server", "streams"]
  streams.mapM readStream

def clientStatus (c : ClientRecord) : ClientStatus :=
  ⟨c.id.toNat, c.connected, longToInt c.latency.toNat, c.muted, c.volumePercent.toNat, longToInt c.lastseen.tvSec,
    longToInt (c.lastseen.tvNsec.tdiv 1000)⟩

def groupStatus (stream : Stream) : GroupStatus := ⟨stream.name, stream.clients.reverse.map clientStatus⟩

def serverStatus (s : Server n) : List GroupStatus := (List.finRange (n + 1)).map fun i => groupStatus (s.streams i)

/-- What there is to be said of an input pipe. -/
def streamStatus (s : Server n) (i : Fin (n + 1)) : StreamStatus := ⟨(s.streams i).name, (s.pipe i).state⟩

/-- Values that are built from elements are read one by one. -/
theorem mapM_built {α β : Type} {read : JsonValue → Option β} {build : α → JsonValue} {said : α → β}
    (hread : ∀ x, read (build x) = some (said x)) (xs : List α) :
    (xs.map build).mapM read = some (xs.map said) := by
  rw [List.mapM_map]
  have hpure : read ∘ build = fun x => pure (said x) := funext hread
  rw [hpure, List.mapM_pure]
  rfl

theorem readClient_built (texts : StatusTexts n) (c : ClientRecord) :
    readClient (jsonClient texts c) = some (clientStatus c) := rfl

theorem readGroup_built (texts : StatusTexts n) (stream : Stream) :
    readGroup (jsonAddGroup texts stream) = some (groupStatus stream) := by
  have hstream : (jsonAddGroup texts stream).stringAt ["stream_id"] = some stream.name := rfl
  have hclients : (jsonAddGroup texts stream).arrayAt ["clients"] =
      some (stream.clients.reverse.map (jsonClient texts)) := rfl
  rw [readGroup, hstream, hclients]
  dsimp only [Option.bind_eq_bind, Option.bind_some]
  rw [mapM_built (readClient_built texts)]
  rfl

/-- The response to Server.GetStatus is read as what there is to be said of the streams. -/
theorem readGroups_built (texts : StatusTexts n) (s : Server n) (id : Int) :
    readGroups (responseJson texts s ⟨id, .status⟩) = some (serverStatus s) := by
  have hgroups : (responseJson texts s ⟨id, .status⟩).arrayAt ["result", "server", "groups"] =
      some ((List.finRange (n + 1)).map fun i => jsonAddGroup texts (s.streams i)) := rfl
  rw [readGroups, hgroups]
  exact mapM_built (fun i => readGroup_built texts (s.streams i)) (List.finRange (n + 1))

theorem readState_printed (state : InputpipeState) : readState (printInputpipeStatus state) = some state := by
  cases state <;> decide +kernel

theorem readStream_built (texts : StatusTexts n) (s : Server n) (i : Fin (n + 1)) :
    readStream (jsonStream texts s i) = some (streamStatus s i) := by
  have hid : (jsonStream texts s i).stringAt ["id"] = some (s.streams i).name := rfl
  have htext : (jsonStream texts s i).stringAt ["status"] = some (printInputpipeStatus (s.pipe i).state) := rfl
  rw [readStream, hid, htext]
  dsimp only [Option.bind_eq_bind, Option.bind_some]
  rw [readState_printed]
  rfl

theorem readStreams_built (texts : StatusTexts n) (s : Server n) (id : Int) :
    readStreams (responseJson texts s ⟨id, .status⟩) =
      some ((List.finRange (n + 1)).reverse.map (streamStatus s)) := by
  have hstreams : (responseJson texts s ⟨id, .status⟩).arrayAt ["result", "server", "streams"] =
      some ((List.finRange (n + 1)).reverse.map (jsonStream texts s)) := rfl
  rw [readStreams, hstreams]
  exact mapM_built (readStream_built texts s) (List.finRange (n + 1)).reverse

/-! ### What the status tells -/

/-- The clients that a response tells of. -/
def toldClients (groups : List GroupStatus) : List ClientStatus := groups.flatMap GroupStatus.clients

theorem mem_toldClients {s : Server n} {status : ClientStatus} :
    status ∈ toldClients (serverStatus s) ↔
      ∃ i, ∃ client ∈ s.clients i, clientStatus client = status := by
  rw [toldClients, serverStatus, List.flatMap_map, List.mem_flatMap]
  constructor
  · rintro ⟨i, -, hmem⟩
    obtain ⟨client, hclient, hstatus⟩ := List.mem_map.mp hmem
    exact ⟨i, client, List.mem_reverse.mp hclient, hstatus⟩
  · rintro ⟨i, client, hclient, hstatus⟩
    exact ⟨i, List.mem_finRange i, List.mem_map.mpr ⟨client, List.mem_reverse.mpr hclient, hstatus⟩⟩

/-- No id occurs twice, since none has two records. -/
theorem told_ids_nodup {s : Server n} (hinv : RegistryInv s) :
    ((toldClients (serverStatus s)).map ClientStatus.id).Nodup := by
  have hids : (toldClients (serverStatus s)).map ClientStatus.id =
      ((List.finRange (n + 1)).flatMap fun i => (s.clients i).reverse.map ClientRecord.id).map
        fun id => (id.toNat : Int) := by
    rw [toldClients, serverStatus, List.flatMap_map, List.map_flatMap, List.map_flatMap]
    refine List.flatMap_congr fun i _ => ?_
    change ((s.clients i).reverse.map clientStatus).map ClientStatus.id = _
    rw [List.map_map, List.map_map]
    rfl
  have hinjective : Function.Injective fun id : UInt16 => (id.toNat : Int) :=
    fun first second heq => UInt16.toNat_inj.mp (Int.ofNat.inj heq)
  rw [hids]
  refine List.Nodup.map hinjective (List.nodup_flatMap.mpr ⟨fun i _ => ?_, ?_⟩)
  · have hnodup := hinv.inOrder.nodup i
    change (((s.clients i).map ClientRecord.key).map Prod.fst).Nodup at hnodup
    rw [List.map_map] at hnodup
    rw [List.map_reverse, List.nodup_reverse]
    exact hnodup
  · refine (List.nodup_finRange (n + 1)).imp fun {i j} hne id hfirst hsecond => hne ?_
    obtain ⟨client, hclient, rfl⟩ := List.mem_map.mp hfirst
    obtain ⟨other, hother, hid⟩ := List.mem_map.mp hsecond
    have hmember : (client.id, client.purgeTask) ∈ (roster s).members i :=
      List.mem_map.mpr ⟨client, List.mem_reverse.mp hclient, rfl⟩
    have hmember' : (client.id, other.purgeTask) ∈ (roster s).members j :=
      List.mem_map.mpr ⟨other, List.mem_reverse.mp hother, Prod.ext hid rfl⟩
    exact hinv.inOrder.disjoint i j _ _ _ hmember hmember'

/-- The response to Server.GetStatus tells the truth: it has every stream with its name, the state of its input
pipe and what the server keeps about its clients, no client occurs twice, and when `taskqueue_run` has executed
everything that is due, it has a client if and only if a HELLO from it has come in the last five seconds. The
server stays as it is. -/
theorem status_tells (texts : StatusTexts n) (bufferms : UInt16) (options : Fin (n + 1) → StreamOptions)
    (events : List ServerEvent) (s : Server n)
    (hrun : serverRun (freshServer bufferms options) events = .ok s) (now : Timespec) (hnow : now.Normalised)
    (hclock : UptimesAscend events now) (hdone : ∀ task ∈ s.tasks.queued, timespecCmp task.due now > 0)
    (opened : Option Nat) (method : List UInt8) (request : JsonrpcRequest)
    (hmethod : rpcMethod method = some .getStatus) :
    ∃ response groups, handleRequest opened s method request = .ok (s, some response) ∧
      readGroups (responseJson texts s response) = some groups ∧
      groups = serverStatus s ∧
      readStreams (responseJson texts s response) = some ((List.finRange (n + 1)).reverse.map (streamStatus s)) ∧
      ((toldClients groups).map ClientStatus.id).Nodup ∧
      ∀ id : UInt16, (∃ client ∈ toldClients groups, client.id = id.toNat) ↔
        ∃ peer clock opened, .hello peer clock opened ∈ events ∧ peer.hello.id = id ∧
          now.toNs - clock.uptime.toNs < 5 * billion := by
  have hinv := (RegistryInv.fresh bufferms options).run hrun
  refine ⟨⟨request.id, .status⟩, _, ?_, readGroups_built texts s request.id, rfl,
    readStreams_built texts s request.id, told_ids_nodup hinv, fun id => ?_⟩
  · rw [handleRequest, hmethod]
    rfl
  · rw [← renewed_iff_heard hnow hclock, ← registered_iff_renewed hrun hnow hclock hdone]
    constructor
    · rintro ⟨status, hstatus, hid⟩
      obtain ⟨i, client, hclient, rfl⟩ := mem_toldClients.mp hstatus
      exact ⟨i, client, hclient, UInt16.toNat_inj.mp (Int.ofNat.inj hid)⟩
    · rintro ⟨i, client, hclient, rfl⟩
      exact ⟨clientStatus client, mem_toldClients.mpr ⟨i, client, hclient, rfl⟩, rfl⟩

/-- Two streams and their clients without texts. -/
def noTexts : StatusTexts 1 :=
  ⟨fun _ => [], fun _ => [], fun _ => .opus, fun _ => .pipe, fun _ => [], fun _ => [], fun _ => [], []⟩

theorem status_tells_purged :
    ∃ s response groups, serverRun (freshServer 1000 twoStreams) silentEvents = .ok s ∧
      handleRequest none s (literal "Server.GetStatus") ⟨5, []⟩ = .ok (s, some response) ∧
      readGroups (responseJson noTexts s response) = some groups ∧
      ¬(∃ client ∈ toldClients groups, client.id = 1) ∧ ∃ client ∈ toldClients groups, client.id = 2 := by
  obtain ⟨s, hrun, hview⟩ := except_map_ok (show (serverRun (freshServer 1000 twoStreams)
    silentEvents).map (fun s => decide (∀ task ∈ s.tasks.queued, timespecCmp task.due ⟨6, 0⟩ > 0)) =
      .ok true by decide +kernel)
  obtain ⟨response, groups, hhandled, hread, -, -, -, htold⟩ := status_tells noTexts 1000 twoStreams
    silentEvents s hrun ⟨6, 0⟩ (by decide) (by decide) (of_decide_eq_true hview) none
    (literal "Server.GetStatus") ⟨5, []⟩ (by decide +kernel)
  refine ⟨s, response, groups, hrun, hhandled, hread, ?_, ?_⟩
  · intro hfirst
    obtain ⟨peer, clock, opened, hevent, hid, hrecent⟩ := (htold 1).mp hfirst
    rcases List.mem_cons.mp hevent with hfirst | hevent
    · cases hfirst
      exact absurd hrecent (by decide)
    · rcases List.mem_cons.mp hevent with hsecond | hevent
      · cases hsecond
        exact absurd hid (by decide)
      · cases List.mem_singleton.mp hevent
  · exact (htold 2).mpr ⟨_, _, _, List.mem_cons_of_mem _ List.mem_cons_self, rfl, by decide⟩

end Snapcastc
