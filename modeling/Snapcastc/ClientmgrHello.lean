import Snapcastc.SocketSetvolume

/-! What a HELLO changes in the registry. A client that comes from another port gets a new record; one
that comes from the same port keeps its record, and with it the address it had before. -/

namespace Snapcastc

open Bytes

variable {n : Nat}

/-- What a HELLO is to bring about: the record of the client is connected and has the address, the port
and the latency that came with the HELLO, operations for the client are sent to that address, and the
records of all other clients stay as they are. -/
structure NotesHello (s s' : Server n) (peer : Peer) : Prop where
  noted : ∃ i k client, findClient s' peer.hello.id = some (i, k) ∧ s'.clientAt i k = some client ∧
    client.connected = true ∧ client.ip = peer.ip ∧ client.port = peer.port ∧
    client.latency = peer.hello.latency ∧
    ∀ assembly, (sendAssembly s' client assembly).sent =
      s'.sent ++ [⟨peer.ip, peer.port, load assembly.packet 0 assembly.packetLen⟩]
  others : ∀ i, (s'.clients i).filter (·.id != peer.hello.id) =
    (s.clients i).filter (·.id != peer.hello.id)

section Records

variable {id : UInt16} {clients : List ClientRecord} {client client' : ClientRecord} {k : Nat}

theorem others_append (hid : client.id = id) :
    (clients ++ [client]).filter (·.id != id) = clients.filter (·.id != id) := by
  have hnone : [client].filter (·.id != id) = [] := by
    rw [List.filter_cons_of_neg (by simp [hid]), List.filter_nil]
  rw [List.filter_append, hnone, List.append_nil]

theorem others_eraseIdx (hclient : clients[k]? = some client) (hid : client.id = id) :
    (clients.eraseIdx k).filter (·.id != id) = clients.filter (·.id != id) := by
  obtain ⟨hlt, hget⟩ := List.getElem?_eq_some_iff.mp hclient
  have hsplit : clients = clients.take k ++ client :: clients.drop (k + 1) := by
    rw [← hget, List.getElem_cons_drop, List.take_append_drop]
  conv_rhs => rw [hsplit]
  rw [List.eraseIdx_eq_take_drop_succ, List.filter_append, List.filter_append, List.filter_cons,
    if_neg (by simp [hid])]

theorem others_set (hclient : clients[k]? = some client) (hid : client.id = id)
    (hid' : client'.id = id) :
    (clients.set k client').filter (·.id != id) = clients.filter (·.id != id) := by
  obtain ⟨hlt, -⟩ := List.getElem?_eq_some_iff.mp hclient
  have herase : (clients.set k client').eraseIdx k = clients.eraseIdx k := List.eraseIdx_set_eq
  rw [← others_eraseIdx hclient hid, ← herase]
  exact (others_eraseIdx (List.getElem?_set_self hlt) hid').symm

/-- A record that is added last is found there, when there was none with its id. -/
theorem findIdx?_joined (hnew : ∀ other ∈ clients, other.id ≠ id) (hid : client.id = id) :
    (clients ++ [client]).findIdx? (fun other => other.id == id) = some clients.length := by
  have hnone : clients.findIdx? (fun other => other.id == id) = none :=
    List.findIdx?_eq_none_iff.mpr fun other hother => beq_eq_false_iff_ne.mpr (hnew other hother)
  rw [List.findIdx?_append, hnone, List.findIdx?_singleton, if_pos (by simp [hid])]
  simp

end Records

/-! ### A client that is not known -/

/-- The clients after one has joined the first stream. -/
def joined (clients : Fin (n + 1) → List ClientRecord) (client : ClientRecord) :
    Fin (n + 1) → List ClientRecord :=
  Function.update clients firstStream (clients firstStream ++ [client])

section Joined

variable {clients : Fin (n + 1) → List ClientRecord} {client client' : ClientRecord} {s s' : Server n}

theorem getClient_joined (hjoined : s.clients = joined clients client) {id : UInt16}
    (hnew : ∀ other ∈ clients 0, other.id ≠ id) (hid : client.id = id) :
    getClient (s.streams 0) id = some (clients 0).length := by
  have hfirst : (s.streams 0).clients = clients 0 ++ [client] := by
    rw [show (s.streams 0).clients = s.clients 0 from rfl, hjoined, joined, Function.update_self]
  rw [getClient, hfirst]
  exact findIdx?_joined hnew hid

theorem clientAt_joined (hjoined : s.clients = joined clients client) :
    s.clientAt 0 (clients 0).length = some client := by
  rw [Server.clientAt, hjoined, joined, Function.update_self, List.getElem?_concat_length]

theorem setClient_joined (hjoined : s.clients = joined clients client) :
    (s.setClient 0 (clients 0).length client').clients = joined clients client' := by
  rw [Server.setClient, Server.setClients_clients, hjoined, joined, Function.update_self, joined,
    Function.update_idem, List.set_append_right _ _ le_rfl, Nat.sub_self, List.set_cons_zero]

theorem sendAudioBuffer_clients (hrun : clientmgrSendAudioBufferToClient s client = .ok s') :
    s'.clients = s.clients := by
  unfold clientmgrSendAudioBufferToClient at hrun
  split at hrun
  · cases hrun
  · cases hrun
    rw [foldl_send]
    rfl

theorem greetClient_joined (hjoined : s.clients = joined clients client) {peer : Peer}
    (hnew : ∀ other ∈ clients 0, other.id ≠ peer.hello.id) (hid : client.id = peer.hello.id)
    (hrun : greetClient s peer = .ok s') :
    s'.clients = joined clients { client with
      volumePercent := peer.hello.volumePercent, protoversion := 2 } := by
  rw [greetClient, getClient_joined hjoined hnew hid] at hrun
  dsimp only at hrun
  rw [clientAt_joined hjoined] at hrun
  obtain ⟨s₁, hsend, hrun⟩ := except_bind_ok hrun
  cases hrun
  exact setClient_joined ((sendAudioBuffer_clients hsend).trans (setClient_joined hjoined))

/-- The record after `clientmgr_refresh_client` has noted a HELLO in it. -/
def seenRecord (clock : ServerClock) (client : ClientRecord) (peer : Peer) : ClientRecord :=
  { client with connected := true, lastseen := clock.systime, latency := peer.hello.latency }

theorem noteSeen_clients {clock : ServerClock} {i : Fin (n + 1)} {k : Nat} {peer : Peer}
    (hclient : s.clientAt i k = some client) :
    (noteSeen clock s i k peer).clients = (s.setClient i k (seenRecord clock client peer)).clients := by
  rw [noteSeen, hclient]
  dsimp only
  split
  · rfl
  · rfl

end Joined

/-- A client that is not known gets a record in the first stream, with what the HELLO says. -/
theorem addClient_joined {clock : ServerClock} {opened : Option Nat} {s s' : Server n} {peer : Peer}
    (hreg : RegistryInv s) (hnew : ∀ client ∈ s.clients 0, client.id ≠ peer.hello.id)
    (hrun : addClient clock opened s peer = .ok s') :
    ∃ client, s'.clients = joined s.clients client ∧ client.id = peer.hello.id ∧
      client.connected = true ∧ client.ip = peer.ip ∧ client.port = peer.port ∧
      client.latency = peer.hello.latency := by
  obtain ⟨s₂, hcreate, hrun⟩ := except_bind_ok hrun
  obtain ⟨s₁, hadd, hgreet⟩ := except_bind_ok hcreate
  obtain ⟨hhandles, hclients, hmade⟩ := withPurgeTask_handles hreg.handles hreg.unstarted clock
    peer.hello.id
  have hadded := streamClientAdd_spec hhandles hmade hadd
  have hfirst : s₁.clients = joined s.clients
      (newClient clock s.tasks peer.hello.id peer.ip peer.port).1 := by
    rw [hadded.clients, Server.setClients_clients, hclients]
    rfl
  have hsecond := greetClient_joined hfirst hnew rfl hgreet
  rw [getClient_joined hsecond hnew rfl] at hrun
  cases hrun
  refine ⟨_, (noteSeen_clients (clientAt_joined hsecond)).trans (setClient_joined hsecond), rfl, rfl,
    rfl, rfl, rfl⟩

/-! ### A client that is known -/

/-- `clientmgr_delete_client` deletes the record that `find_client` finds. -/
theorem clientmgrDeleteClient_clients {s s' : Server n} {id : UInt16} {i : Fin (n + 1)} {k : Nat}
    (hinv : HandleInv s) (hfind : findClient s id = some (i, k))
    (hrun : clientmgrDeleteClient s id = .ok s') :
    s'.clients = Function.update s.clients i ((s.clients i).eraseIdx k) := by
  obtain ⟨client, hclient, -⟩ := findClient_some hfind
  rw [clientmgrDeleteClient, hfind] at hrun
  dsimp only at hrun
  rw [deleteClientInternal, hclient] at hrun
  obtain ⟨tasks, hdrop, hrun⟩ := except_bind_ok hrun
  have hhandles : HandleInv { s with tasks } := by
    refine hinv.of (hinv.sound.dropTask hdrop) ?_ rfl (fun _ _ => .inl)
    rw [TaskPool.dropTask_eq hinv.sound hdrop]
  rw [(streamClientRemove_spec hhandles hrun).clients, Server.setClients_clients]
  rfl

/-- There is one record with an id. -/
theorem record_unique {s : Server n} (hreg : RegistryInv s) {i : Fin (n + 1)} {existing : ClientRecord}
    {id : UInt16} (hexisting : existing ∈ s.clients i) (hid : existing.id = id) (j : Fin (n + 1))
    (client : ClientRecord) (hclient : client ∈ s.clients j) (hsame : client.id = id) :
    client = existing := by
  have hmember : (id, existing.purgeTask) ∈ (roster s).members i := by
    rw [← hid]
    exact List.mem_map_of_mem hexisting
  have hmember' : (id, client.purgeTask) ∈ (roster s).members j := by
    rw [← hsame]
    exact List.mem_map_of_mem hclient
  obtain rfl := hreg.inOrder.disjoint i j id _ _ hmember hmember'
  have hnodup := hreg.inOrder.nodup i
  rw [roster, List.map_map] at hnodup
  exact List.inj_on_of_nodup_map hnodup hclient hexisting (hsame.trans hid.symm)

theorem update_others {clients : Fin (n + 1) → List ClientRecord} {i : Fin (n + 1)}
    {changed : List ClientRecord} {id : UInt16}
    (hsame : changed.filter (·.id != id) = (clients i).filter (·.id != id)) (j : Fin (n + 1)) :
    (Function.update clients i changed j).filter (·.id != id) = (clients j).filter (·.id != id) := by
  rcases eq_or_ne j i with rfl | hne
  · rw [Function.update_self, hsame]
  · rw [Function.update_of_ne hne]

/-- `find_client` starts at the first stream. -/
theorem findClient_of_first {s : Server n} {id : UInt16} {k : Nat}
    (hfirst : getClient (s.streams 0) id = some k) : findClient s id = some (0, k) := by
  rw [findClient, List.finRange_succ, List.findSome?_cons, hfirst]
  rfl

theorem RecordFrame.findClient {s s' : Server n} (hframe : RecordFrame s s') (id : UInt16) :
    findClient s' id = findClient s id := by
  unfold Snapcastc.findClient
  refine congrArg (List.findSome? · _) (funext fun i => ?_)
  rw [hframe.getClient i id]

theorem sendAssembly_sent (s : Server n) (client : ClientRecord) (assembly : Assembly) :
    (sendAssembly s client assembly).sent =
      s.sent ++ [⟨client.ip, client.port, load assembly.packet 0 assembly.packetLen⟩] := rfl

/-- A new record notes all that the HELLO says. -/
theorem addClient_notes {clock : ServerClock} {opened : Option Nat} {s s₀ s' : Server n} {peer : Peer}
    (hreg : RegistryInv s) (hnew : ∀ client ∈ s.clients 0, client.id ≠ peer.hello.id)
    (hothers : ∀ i, (s.clients i).filter (·.id != peer.hello.id) =
      (s₀.clients i).filter (·.id != peer.hello.id))
    (hrun : addClient clock opened s peer = .ok s') : NotesHello s₀ s' peer := by
  obtain ⟨client, hjoined, hid, hconnected, hip, hport, hlatency⟩ := addClient_joined hreg hnew hrun
  refine ⟨⟨0, _, client, findClient_of_first (getClient_joined hjoined hnew hid),
    clientAt_joined hjoined, hconnected, hip, hport, hlatency, fun assembly => ?_⟩, fun i => ?_⟩
  · rw [sendAssembly_sent, hip, hport]
  · rw [hjoined, joined, update_others (others_append hid), hothers]

/-- A record that is kept notes all that the HELLO says, if it has the address already. -/
theorem noteSeen_notes {clock : ServerClock} {s s₀ : Server n} {i : Fin (n + 1)} {k : Nat} {peer : Peer}
    {client : ClientRecord} (hclients : s.clients = s₀.clients)
    (hfind : findClient s peer.hello.id = some (i, k)) (hclient : s.clientAt i k = some client)
    (hid : client.id = peer.hello.id) (hport : client.port = peer.port) :
    NotesHello s₀ (noteSeen clock s i k peer) peer ↔ client.ip = peer.ip := by
  have hset : (noteSeen clock s i k peer).clients =
      (s.setClient i k (seenRecord clock client peer)).clients := noteSeen_clients hclient
  have hstays : ((s.clients i).set k (seenRecord clock client peer)).filter (·.id != peer.hello.id) =
      (s.clients i).filter (·.id != peer.hello.id) := others_set hclient hid hid
  have hfind' := (RecordFrame.noteSeen clock s i k peer).findClient peer.hello.id
  rw [hfind] at hfind'
  have hat : (noteSeen clock s i k peer).clientAt i k = some (seenRecord clock client peer) := by
    rw [Server.clientAt, hset]
    exact (setClient_clientAt hclient).1
  constructor
  · rintro ⟨⟨j, l, other, hother, hplace, -, hip, -⟩, -⟩
    obtain ⟨rfl, rfl⟩ := Prod.mk.inj (Option.some.inj (hfind'.symm.trans hother))
    obtain rfl := Option.some.inj (hat.symm.trans hplace)
    exact hip
  · intro hip
    refine ⟨⟨i, k, _, hfind', hat, rfl, hip, hport, rfl, fun assembly => ?_⟩, fun j => ?_⟩
    · rw [sendAssembly_sent]
      exact congrArg₂ (fun ip port => _ ++ [(⟨ip, port, _⟩ : Datagram)]) hip hport
    · rw [hset, Server.setClient, Server.setClients_clients, update_others hstays, hclients]

/-- After `clientmgr_refresh_client`, the record of the client has what came with the HELLO exactly
when no record of the client with the same port and another address was there before. -/
theorem helloNoted_iff (bufferms : UInt16) (options : Fin (n + 1) → StreamOptions)
    {events : List ServerEvent} {s s' : Server n} {clock : ServerClock} {opened : Option Nat}
    {peer : Peer} (hrun : serverRun (freshServer bufferms options) events = .ok s)
    (hrefresh : clientmgrRefreshClient clock opened s peer = .ok s') :
    NotesHello s s' peer ↔ ∀ i, ∀ client ∈ s.clients i,
      client.id = peer.hello.id → client.port = peer.port → client.ip = peer.ip := by
  have hreg := (RegistryInv.fresh bufferms options).run hrun
  cases refreshedClient hrefresh with
  | added hfind hrefresh =>
      have hnew := findClient_none hfind
      refine ⟨fun _ i client hclient hid => absurd hid (hnew i hclient), fun _ => ?_⟩
      exact addClient_notes hreg (fun client => hnew 0) (fun i => rfl) hrefresh
  | @moved i k existing s₁ _ hfind hclient hid hport hdelete hrefresh =>
      obtain ⟨hdeleted, hnew⟩ := clientmgrDeleteClient_spec hreg hdelete
      have hclients := clientmgrDeleteClient_clients hreg.handles hfind hdelete
      refine ⟨fun _ j client hmem hsame hsamePort => ?_, fun _ => ?_⟩
      · rw [record_unique hreg (List.mem_of_getElem? hclient) hid j client hmem hsame] at hsamePort
        exact absurd hsamePort.symm hport
      · refine addClient_notes (hdeleted.inv hreg) (hnew 0) (fun j => ?_) hrefresh
        rw [hclients, update_others (others_eraseIdx hclient hid)]
  | @seen i k existing tasks hfind hclient hid hport hreschedule =>
      have hnotes := @noteSeen_notes n clock { s with tasks } s i k peer existing rfl hfind hclient hid
        hport.symm
      refine hnotes.trans ⟨fun hip j client hmem hsame _ => ?_, fun hall => ?_⟩
      · rw [record_unique hreg (List.mem_of_getElem? hclient) hid j client hmem hsame]
        exact hip
      · exact hall i existing (List.mem_of_getElem? hclient) hid hport.symm

/-- The HELLO of client 1 from port 100, at an address. -/
def helloAt (address : BitVec 128) : Peer := ⟨⟨1, 7, 50⟩, ⟨address⟩, 100⟩

/-- A stream with the name `a`. -/
def plainStream (_ : Fin 1) : StreamOptions := ⟨[97], 20, 48000, 2, 2⟩

/-- The server after client 1 has come from port 100 at the address 1. -/
def greetedEvents : List ServerEvent :=
  [.hello (helloAt 1) ⟨⟨1, 0⟩, ⟨1, 0⟩⟩ (some 4)]

/-- A HELLO that comes again from the same address. -/
theorem helloNoted_again :
    ∃ s s' : Server 0, serverRun (freshServer 1000 plainStream) greetedEvents = .ok s ∧
      clientmgrRefreshClient ⟨⟨2, 0⟩, ⟨2, 0⟩⟩ none s (helloAt 1) = .ok s' ∧
      NotesHello s s' (helloAt 1) := by
  obtain ⟨s, hrun, hrest⟩ := except_bind_ok (show (serverRun (freshServer 1000 plainStream)
    greetedEvents >>= fun s => (clientmgrRefreshClient ⟨⟨2, 0⟩, ⟨2, 0⟩⟩ none s (helloAt 1)).map
      fun _ => s.clients 0) = .ok [⟨⟨1⟩, 100, 1, true, ⟨1, 0⟩, 2, 7, 50, false, 0⟩] by decide +kernel)
  obtain ⟨s', hrefresh, hclients⟩ := except_map_ok hrest
  refine ⟨s, s', hrun, hrefresh, (helloNoted_iff 1000 plainStream hrun hrefresh).mpr ?_⟩
  intro i client hclient _ _
  rw [Fin.fin_one_eq_zero i] at hclient
  change client ∈ s.clients 0 at hclient
  rw [hclients] at hclient
  rw [List.mem_singleton.mp hclient]
  rfl

/-- A HELLO that comes from the same port and from the address 2: the record keeps the address 1. -/
theorem helloAddress_kept :
    ∃ s s' : Server 0, serverRun (freshServer 1000 plainStream) greetedEvents = .ok s ∧
      clientmgrRefreshClient ⟨⟨2, 0⟩, ⟨2, 0⟩⟩ none s (helloAt 2) = .ok s' ∧
      ¬NotesHello s s' (helloAt 2) := by
  obtain ⟨s, hrun, hrest⟩ := except_bind_ok (show (serverRun (freshServer 1000 plainStream)
    greetedEvents >>= fun s => (clientmgrRefreshClient ⟨⟨2, 0⟩, ⟨2, 0⟩⟩ none s (helloAt 2)).map
      fun s' => (findClient s' 1, (s'.clientAt 0 0).map ClientRecord.ip)) =
        .ok (some (0, 0), some ⟨1⟩) by decide +kernel)
  obtain ⟨s', hrefresh, hview⟩ := except_map_ok hrest
  obtain ⟨hfind, hip⟩ := Prod.mk.inj hview
  refine ⟨s, s', hrun, hrefresh, fun hnotes => ?_⟩
  obtain ⟨i, k, client, hfound, hclient, -, hclientIp, -⟩ := hnotes.noted
  obtain ⟨rfl, rfl⟩ := Prod.mk.inj (Option.some.inj (hfind.symm.trans hfound))
  rw [hclient] at hip
  exact absurd (hclientIp.symm.trans (Option.some.inj hip)) (by decide)

end Snapcastc
