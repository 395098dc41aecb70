import Snapcastc.ClientmgrHello
import Snapcastc.SocketSetstream

/-! The reply to Client.SetStream. It is written after the client was moved, from a pointer to where its
record was: to the next record of that stream then, unless it was the last one. -/

namespace Snapcastc

variable {n : Nat}

/-- Where the client was, its record is deleted. -/
theorem changeStream_clients {opened : Option Nat} {s s' : Server n} {client : ClientRecord}
    {i j : Fin (n + 1)} {k : Nat} (hhandles : HandleInv s) (hclient : s.clientAt i k = some client)
    (hchanged : clientStreamIsChanged s i j = true)
    (hrun : changeStream opened s client i k j = .ok s') :
    s'.clients i = (s.clients i).eraseIdx k := by
  have hne := ne_of_clientStreamIsChanged hchanged
  unfold changeStream at hrun
  rw [if_pos hchanged] at hrun
  obtain ⟨s₁, hadd, hremove⟩ := except_bind_ok hrun
  have hstopped : RecordFrame s (intercomStopClientOf s client) := .send s _ _ _ _
  have hhandles' := hstopped.handles hhandles
  have hadded := streamClientAdd_spec hhandles' (hhandles'.purge i client (List.mem_of_getElem? hclient)) hadd
  have hstays : s₁.clients i = s.clients i := by
    rw [hadded.clients, Server.setClients_clients, Function.update_of_ne hne]
    rfl
  rw [(streamClientRemove_spec hadded.handles hremove).clients, Server.setClients_clients,
    Function.update_self, hstays]

/-- The record that is read for the reply is that of the client exactly when no record came after it. -/
theorem replyRecord_iff {s s' : Server n} (hreg : RegistryInv s) {i : Fin (n + 1)} {k : Nat}
    {client : ClientRecord} (hclient : s.clientAt i k = some client)
    (herased : s'.clients i = (s.clients i).eraseIdx k) :
    ((s'.clientAt i k).getD client).id = client.id ↔ k + 1 = (s.clients i).length := by
  obtain ⟨hlt, hget⟩ := List.getElem?_eq_some_iff.mp hclient
  have hnext : s'.clientAt i k = (s.clients i)[k + 1]? := by
    rw [Server.clientAt, herased, List.getElem?_eraseIdx_of_ge le_rfl]
  rw [hnext]
  constructor
  · intro hid
    by_contra hmore
    have hlt' : k + 1 < (s.clients i).length := by omega
    rw [List.getElem?_eq_getElem hlt', Option.getD_some] at hid
    have hsame := record_unique hreg (List.mem_of_getElem? hclient) rfl i _ (List.getElem_mem hlt') hid
    have hnodup := hreg.inOrder.nodup i
    rw [roster, List.map_map] at hnodup
    have hindex := (hnodup.of_map _).getElem_inj_iff.mp (hsame.trans hget.symm)
    omega
  · intro hlast
    rw [List.getElem?_eq_none (by omega), Option.getD_none]

/-- The reply to Client.SetStream names the client of the request exactly when the client is not moved,
or its record was the last one of its stream. -/
theorem setstreamReply_iff (bufferms : UInt16) (options : Fin (n + 1) → StreamOptions)
    {events : List ServerEvent} {s s' : Server n}
    (hrun : serverRun (freshServer bufferms options) events = .ok s) {opened : Option Nat}
    {request : JsonrpcRequest} {reply : Option SetstreamReply} {name : List UInt8} {i j : Fin (n + 1)}
    {k : Nat} {client : ClientRecord} (hfind : findClient s client.id = some (i, k))
    (hclient : s.clientAt i k = some client) (hasks : AsksStream request client.id name)
    (hname : streamFindName s name = some j)
    (hset : handleClientSetstream opened s request = .ok (s', reply)) :
    reply.map SetstreamReply.client = some client.id ↔
      s.name i <+: s.name j ∨ k + 1 = (s.clients i).length := by
  have hreg := (RegistryInv.fresh bufferms options).run hrun
  rw [handleClientSetstream_eq hfind hclient hasks hname] at hset
  obtain ⟨s₁, hchange, hpair⟩ := except_map_ok hset
  obtain ⟨rfl, rfl⟩ := Prod.mk.inj hpair
  rw [Option.map_some, Option.some_inj]
  by_cases hsame : s.name i <+: s.name j
  · have hstays : s₁ = s := by
      unfold changeStream at hchange
      rw [if_neg (not_not.mpr hsame ∘ clientStreamIsChanged_iff.mp)] at hchange
      exact (Except.ok.inj hchange).symm
    rw [hstays, hclient, Option.getD_some]
    exact ⟨fun _ => .inl hsame, fun _ => rfl⟩
  · have hchanged := clientStreamIsChanged_iff.mpr hsame
    rw [or_iff_right hsame]
    exact replyRecord_iff hreg hclient (changeStream_clients hreg.handles hclient hchanged hchange)

/-- Two clients come, from the ports 100 and 200. -/
def twoHellos : List ServerEvent := [helloFrom 1 100 1, helloFrom 2 200 2]

def secondListener : ClientRecord := ⟨⟨1⟩, 200, 2, true, ⟨2, 0⟩, 2, 0, 50, false, 1⟩

/-- The second of two clients is moved, and the reply is about it. -/
theorem setstreamReply_last :
    ∃ s s' : Server 1, ∃ reply, serverRun (freshServer 1000 twoStreams) twoHellos = .ok s ∧
      handleClientSetstream (some 9) s (setStreamRequest 2 [98]) = .ok (s', reply) ∧
      reply.map SetstreamReply.client = some 2 := by
  obtain ⟨s, hrun, hrest⟩ := except_bind_ok (show (serverRun (freshServer 1000 twoStreams) twoHellos >>=
    fun s => (handleClientSetstream (some 9) s (setStreamRequest 2 [98])).map fun _ =>
      (findClient s 2, s.clientAt 0 1, streamFindName s [98], (s.clients 0).length)) =
        .ok (some (0, 1), some secondListener, some 1, 2) by decide +kernel)
  obtain ⟨⟨s', reply⟩, hset, hview⟩ := except_map_ok hrest
  obtain ⟨hfind, hview⟩ := Prod.mk.inj hview
  obtain ⟨hclient, hview⟩ := Prod.mk.inj hview
  obtain ⟨hname, hlength⟩ := Prod.mk.inj hview
  have hasks : AsksStream (setStreamRequest 2 [98]) 2 [98] := ⟨by decide, by decide, by decide, by decide⟩
  exact ⟨s, s', reply, hrun, hset,
    (setstreamReply_iff 1000 twoStreams hrun hfind hclient hasks hname hset).mpr (.inr hlength.symm)⟩

/-- The first of two clients is moved, and the reply is about the second one. -/
theorem setstreamReply_other :
    ∃ s s' : Server 1, ∃ reply, serverRun (freshServer 1000 twoStreams) twoHellos = .ok s ∧
      findClient s 1 = some (0, 0) ∧ streamFindName s [98] = some 1 ∧
      AsksStream (setStreamRequest 1 [98]) 1 [98] ∧
      handleClientSetstream (some 9) s (setStreamRequest 1 [98]) = .ok (s', reply) ∧
      reply.map SetstreamReply.client ≠ some 1 := by
  obtain ⟨s, hrun, hrest⟩ := except_bind_ok (show (serverRun (freshServer 1000 twoStreams) twoHellos >>=
    fun s => (handleClientSetstream (some 9) s (setStreamRequest 1 [98])).map fun result =>
      (findClient s 1, streamFindName s [98], result.2)) =
        .ok (some (0, 0), some 1, some ⟨[98], 2⟩) by decide +kernel)
  obtain ⟨⟨s', reply⟩, hset, hview⟩ := except_map_ok hrest
  obtain ⟨hfind, hview⟩ := Prod.mk.inj hview
  obtain ⟨hname, rfl⟩ := Prod.mk.inj hview
  exact ⟨s, s', _, hrun, hfind, hname, ⟨by decide, by decide, by decide, by decide⟩, hset, by decide⟩

end Snapcastc
