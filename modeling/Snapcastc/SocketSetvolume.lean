import Snapcastc.ServerRegistry

/-! Client.SetVolume. The volume and the mute flag are optional members of the volume object, and the code
looks for both in one condition: it does not come to the second when it has found the first. -/

namespace Snapcastc

open Bytes

variable {n : Nat}

/-- The request asks for a volume in percent, for a mute flag, or for both, for the client with the id. -/
structure AsksVolume (request : JsonrpcRequest) (id : UInt16) (percent : Option Nat)
    (muted : Option Bool) : Prop where
  hasId : ∃ p ∈ request.parameters, p.named nameId
  ids : ∀ p ∈ request.parameters, p.named nameId → p.number = id.toNat
  hasVolume : ∃ p ∈ request.parameters, p.named nameVolume
  volumes : ∀ p ∈ request.parameters, p.named nameVolume →
    p.jsonString = some ⟨percent.map fun v : Nat => some (v : Int), muted.map some⟩
  given : percent ≠ none ∨ muted ≠ none
  range : ∀ v ∈ percent, v ≤ 100

def volumeDatagram (client : ClientRecord) (volume : UInt8) : Datagram :=
  ⟨client.ip, client.port, load (intercomSetVolume (fun _ => 0) volume).packet 0
    (intercomSetVolume (fun _ => 0) volume).packetLen⟩

def stopDatagram (client : ClientRecord) : Datagram :=
  ⟨client.ip, client.port, load (intercomStopClient fun _ => 0).packet 0
    (intercomStopClient fun _ => 0).packetLen⟩

/-- The datagrams that bring a client the packets that are kept. -/
def bufferDatagrams (client : ClientRecord) (packetBuffer : List AudioPacket) : List Datagram :=
  packetBuffer.map fun ap => ⟨client.ip, client.port, load ap.data 0 ap.len.toNat⟩

/-- The datagrams for a client of a stream that is to be muted or not. -/
def muteDatagrams (client : ClientRecord) (packetBuffer : List AudioPacket) : Option Bool → List Datagram
  | none => []
  | some true => [stopDatagram client]
  | some false => if client.muted then bufferDatagrams client packetBuffer else []

/-- What was asked for was done: the record has the volume and the mute flag that were given and keeps
what was not given, the client was told, the reply reports the record, and no other record changes. -/
structure SetvolumeApplied (s : Server n) (i : Fin (n + 1)) (k : Nat) (client : ClientRecord)
    (percent : Option Nat) (muted : Option Bool) (s' : Server n) (reply : Option VolumeReply) :
    Prop where
  record : ∃ client', s'.clientAt i k = some client' ∧
    client'.volumePercent.toNat = percent.getD client.volumePercent.toNat ∧
    client'.muted = muted.getD client.muted ∧ reply = some ⟨client'.muted, client'.volumePercent⟩
  sent : s'.sent = s.sent ++ (percent.map fun v => volumeDatagram client v.toUInt8).toList ++
    muteDatagrams client (s.streams i).packetBuffer muted
  others : ∀ j l, (j, l) ≠ (i, k) → s'.clientAt j l = s.clientAt j l

/-! ### The loop over the parameters -/

/-- What the loop finds in the requests that ask for a volume. -/
def volumeFound (target : Fin (n + 1) × Nat) (object : VolumeObject) : SetvolumeFound n :=
  ⟨some target, object.percent.join, if object.percent.isSome then none else object.muted.join⟩

theorem setvolumeLoop_eq {s : Server n} {target : Fin (n + 1) × Nat} {object : VolumeObject}
    {parameters : List Parameter} {found : SetvolumeFound n}
    (hids : ∀ p ∈ parameters, p.named nameId → findClient s (UInt16.ofInt p.number) = some target)
    (hvolumes : ∀ p ∈ parameters, p.named nameVolume → p.jsonString = some object)
    (hgiven : object.percent ≠ none ∨ object.muted ≠ none)
    (hclient : found.client = some target ∨ ∃ p ∈ parameters, p.named nameId)
    (hread : found.volPercent = (volumeFound target object).volPercent ∧
        found.mute = (volumeFound target object).mute ∨
      found.mute = none ∧ ∃ p ∈ parameters, p.named nameVolume) :
    setvolumeLoop s parameters found = .ok (volumeFound target object, .apply) := by
  induction parameters generalizing found with
  | nil =>
      rcases hclient with hclient | ⟨p, hp, -⟩
      · rcases hread with ⟨hvol, hmute⟩ | ⟨-, p, hp, -⟩
        · obtain ⟨client, volPercent, mute⟩ := found
          dsimp only at hclient hvol hmute
          rw [setvolumeLoop, hclient, hvol, hmute]
          rfl
        · cases hp
      · cases hp
  | cons p parameters ih =>
      rw [List.forall_mem_cons] at hids hvolumes
      simp only [List.exists_mem_cons_iff] at hclient hread
      rw [setvolumeLoop]
      split_ifs with hid hvolume
      · rw [hids.1 hid]
        have hnot : ¬p.named nameVolume = true := fun hvolume =>
          absurd (named_head hid hvolume) (by decide)
        exact ih hids.2 hvolumes.2 (.inl rfl) (hread.imp_right (And.imp_right (Or.resolve_left · hnot)))
      · rw [hvolumes.1 hvolume]
        have hclient' := hclient.imp_right (Or.resolve_left · hid)
        dsimp only
        cases hpercent : object.percent with
        | some percent =>
            -- a mute flag cannot have been found before
            have hmute : found.mute = none := by
              rcases hread with ⟨-, hmute⟩ | ⟨hmute, -⟩
              · rw [hmute, volumeFound, hpercent]
                rfl
              · exact hmute
            have hstep : readVolume found object = .ok (some { found with volPercent := percent }) := by
              rw [readVolume, hpercent, hmute]
              rfl
            rw [hstep]
            refine ih hids.2 hvolumes.2 hclient' (.inl ⟨?_, ?_⟩)
            · rw [volumeFound, hpercent]
              rfl
            · rw [volumeFound, hpercent]
              exact hmute
        | none =>
            cases hmuted : object.muted with
            | none => exact absurd hmuted (hgiven.resolve_left (not_not.mpr hpercent))
            | some muted =>
                have hstep : readVolume found object =
                    .ok (some { found with volPercent := none, mute := muted }) := by
                  rw [readVolume, hpercent, hmuted]
                  rfl
                rw [hstep]
                refine ih hids.2 hvolumes.2 hclient' (.inl ⟨?_, ?_⟩)
                · rw [volumeFound, hpercent]
                  rfl
                · rw [volumeFound, hpercent, hmuted]
                  rfl
      · exact ih hids.2 hvolumes.2 (hclient.imp_right (Or.resolve_left · hid))
          (hread.imp_right (And.imp_right (Or.resolve_left · hvolume)))

/-- The loop finds the client and one of the members. -/
theorem AsksVolume.loop {s : Server n} {request : JsonrpcRequest} {id : UInt16} {percent : Option Nat}
    {muted : Option Bool} {target : Fin (n + 1) × Nat} (hasks : AsksVolume request id percent muted)
    (hfind : findClient s id = some target) :
    setvolumeLoop s request.parameters.reverse ⟨none, none, none⟩ =
      .ok (⟨some target, percent.map fun v : Nat => (v : Int), if percent.isSome then none else muted⟩,
        .apply) := by
  have hloop : setvolumeLoop s request.parameters.reverse ⟨none, none, none⟩ =
      .ok (volumeFound target ⟨percent.map fun v : Nat => some (v : Int), muted.map some⟩, .apply) := by
    refine setvolumeLoop_eq (fun p hp hid => ?_) (fun p hp => ?_) ?_ (.inr ?_) (.inr ⟨rfl, ?_⟩)
    · rw [hasks.ids p (List.mem_reverse.mp hp) hid, ofInt_toNat]
      exact hfind
    · exact hasks.volumes p (List.mem_reverse.mp hp)
    · rcases hasks.given with hgiven | hgiven
      · exact .inl fun hnone => hgiven (Option.map_eq_none_iff.mp hnone)
      · exact .inr fun hnone => hgiven (Option.map_eq_none_iff.mp hnone)
    · obtain ⟨p, hp, hid⟩ := hasks.hasId
      exact ⟨p, List.mem_reverse.mpr hp, hid⟩
    · obtain ⟨p, hp, hvolume⟩ := hasks.hasVolume
      exact ⟨p, List.mem_reverse.mpr hp, hvolume⟩
  rw [hloop, volumeFound]
  cases percent with
  | some v => rfl
  | none =>
      cases muted with
      | some mute => rfl
      | none => rfl

/-! ### What the code does -/

theorem foldl_send (s : Server n) (ip : In6Addr) (port : UInt16) (packetBuffer : List AudioPacket) :
    packetBuffer.foldl (fun s ap => intercomSendPacketUnicast s ip ap.data ap.len.toNat port) s =
      { s with sent := s.sent ++ packetBuffer.map fun ap => ⟨ip, port, load ap.data 0 ap.len.toNat⟩ } := by
  induction packetBuffer generalizing s with
  | nil => rw [List.foldl_nil, List.map_nil, List.append_nil]
  | cons ap packetBuffer ih =>
      rw [List.foldl_cons, ih, List.map_cons, intercomSendPacketUnicast]
      dsimp only
      rw [List.append_assoc]
      rfl

theorem setClient_clientAt {s : Server n} {i : Fin (n + 1)} {k : Nat} {client client' : ClientRecord}
    (hclient : s.clientAt i k = some client) :
    (s.setClient i k client').clientAt i k = some client' ∧
      ∀ j l, (j, l) ≠ (i, k) → (s.setClient i k client').clientAt j l = s.clientAt j l := by
  obtain ⟨hlt, -⟩ := List.getElem?_eq_some_iff.mp hclient
  have hclients : (s.setClient i k client').clients =
      Function.update s.clients i ((s.clients i).set k client') := Server.setClients_clients ..
  refine ⟨?_, fun j l hne => ?_⟩
  · rw [Server.clientAt, hclients, Function.update_self, List.getElem?_set_self hlt]
  · rw [Server.clientAt, Server.clientAt, hclients]
    rcases eq_or_ne j i with rfl | hj
    · have hl : k ≠ l := fun heq => hne (congrArg (Prod.mk j) heq.symm)
      rw [Function.update_self, List.getElem?_set_ne hl]
    · rw [Function.update_of_ne hj]

theorem applyVolume_eq {s : Server n} {i : Fin (n + 1)} {k : Nat} {client : ClientRecord}
    (hclient : s.clientAt i k = some client) (volume : Int) :
    applyVolume s i k (some volume) =
      .ok ({ s with sent := s.sent ++ [volumeDatagram client (UInt8.ofInt volume)] }.setClient i k
        { client with volumePercent := UInt8.ofInt volume }) := by
  unfold applyVolume
  rw [hclient]
  rfl

/-- `clientmgr_client_setmute`. -/
theorem clientmgrClientSetmute_eq {s : Server n} {i : Fin (n + 1)} {k : Nat} {client : ClientRecord}
    (hfind : findClient s client.id = some (i, k)) (hclient : s.clientAt i k = some client)
    (mute : Bool) :
    clientmgrClientSetmute s i k mute =
      .ok { s.setClient i k { client with muted := mute } with
        sent := s.sent ++ muteDatagrams client (s.streams i).packetBuffer (some mute) } := by
  have hset : RecordFrame s (s.setClient i k { client with muted := mute }) := .setClient hclient rfl
  have hstream : streamFind (s.setClient i k { client with muted := mute }) client.id = some i := by
    rw [hset.streamFind]
    exact streamFind_of_findClient hfind
  have hbuffer : ((s.setClient i k { client with muted := mute }).streams i).packetBuffer =
      (s.streams i).packetBuffer := by
    rw [hset.streams i]
  unfold clientmgrClientSetmute
  rw [hclient]
  dsimp only
  cases mute with
  | true => rfl
  | false =>
      rw [if_neg Bool.false_ne_true]
      cases hmuted : client.muted with
      | true =>
          rw [if_pos (by decide)]
          unfold clientmgrSendAudioBufferToClient
          dsimp only
          rw [hstream]
          dsimp only
          rw [foldl_send, hbuffer, muteDatagrams, if_pos hmuted]
          rfl
      | false =>
          rw [if_neg (by decide), muteDatagrams, hmuted, if_neg Bool.false_ne_true, List.append_nil]
          rfl

theorem setClient_self {s : Server n} {i : Fin (n + 1)} {k : Nat} {client : ClientRecord}
    (hclient : s.clientAt i k = some client) : s.setClient i k client = s := by
  obtain ⟨hlt, rfl⟩ := List.getElem?_eq_some_iff.mp hclient
  rw [Server.setClient, List.set_getElem_self, Server.setClients, Server.setStream]
  exact congrArg (fun streams => ({ s with streams } : Server n)) (Function.update_eq_self i s.streams)

theorem applyMute_sent {s s' : Server n} {i : Fin (n + 1)} {k : Nat} {mute : Option Bool}
    (hrun : applyMute s i k mute = .ok s') : s.sent <+: s'.sent := by
  cases mute with
  | none =>
      cases hrun
      exact List.prefix_rfl
  | some mute =>
      change clientmgrClientSetmute s i k mute = .ok s' at hrun
      unfold clientmgrClientSetmute at hrun
      cases hclient : s.clientAt i k with
      | none =>
          rw [hclient] at hrun
          cases hrun
      | some client =>
          rw [hclient] at hrun
          dsimp only at hrun
          split_ifs at hrun
          · cases hrun
            exact List.prefix_append _ _
          · unfold clientmgrSendAudioBufferToClient at hrun
            split at hrun
            · cases hrun
            · cases hrun
              rw [foldl_send]
              exact List.prefix_append _ _
          · cases hrun
            exact List.prefix_rfl

/-- A mute flag leaves the server as it is only if it is false and the client is not muted. -/
theorem clientmgrClientSetmute_same_iff {s : Server n} {i : Fin (n + 1)} {k : Nat} {mute : Bool} :
    clientmgrClientSetmute s i k mute = .ok s ↔
      mute = false ∧ ∃ client, s.clientAt i k = some client ∧ client.muted = false := by
  unfold clientmgrClientSetmute
  cases hclient : s.clientAt i k with
  | none => exact iff_of_false (fun hrun => nomatch hrun) fun ⟨_, _, hsome, _⟩ => nomatch hsome
  | some client =>
      dsimp only
      have hset := (@setClient_clientAt n s i k client { client with muted := mute } hclient).1
      cases mute with
      | true =>
          refine iff_of_false (fun hrun => ?_) (fun hfalse => nomatch hfalse.1)
          have hsent : s.sent ++ [_] = s.sent := congrArg Server.sent (Except.ok.inj hrun)
          exact absurd hsent (by simp)
      | false =>
          cases hmuted : client.muted with
          | true =>
              refine iff_of_false (fun hrun => ?_) fun ⟨_, other, hother, hfalse⟩ => ?_
              · unfold clientmgrSendAudioBufferToClient at hrun
                rw [if_neg Bool.false_ne_true, if_pos (by decide)] at hrun
                split at hrun
                · cases hrun
                · have hsame := congrArg (fun s => s.clientAt i k) (Except.ok.inj hrun)
                  dsimp only at hsame
                  rw [foldl_send] at hsame
                  have hrecord := Option.some.inj (hset.symm.trans (hsame.trans hclient))
                  rw [← hrecord] at hmuted
                  cases hmuted
              · cases hother
                exact absurd (hmuted.symm.trans hfalse) (by decide)
          | false =>
              refine iff_of_true ?_ ⟨rfl, client, rfl, hmuted⟩
              rw [if_neg Bool.false_ne_true, if_neg (by decide), ← hmuted]
              exact congrArg Except.ok (setClient_self hclient)

/-- What was found leaves the server as it is only if there is no client, or no volume and no mute flag other
than one that is false for a client that is not muted. -/
theorem applySetvolume_same_iff {s : Server n} {found : SetvolumeFound n} :
    applySetvolume s found .apply = .ok s ↔
      ∀ target ∈ found.client, found.volPercent = none ∧ ∀ mute ∈ found.mute,
        mute = false ∧ ∃ client, s.clientAt target.1 target.2 = some client ∧ client.muted = false := by
  obtain ⟨client, volPercent, mute⟩ := found
  unfold applySetvolume
  cases client with
  | none => exact iff_of_true rfl fun _ hmem => nomatch hmem
  | some target =>
      obtain ⟨i, k⟩ := target
      dsimp only
      cases volPercent with
      | some volume =>
          refine iff_of_false (fun hrun => ?_) fun hall => nomatch (hall (i, k) rfl).1
          obtain ⟨s₁, hvolume, hmute⟩ := except_bind_ok hrun
          have hprefix := (applyMute_sent hmute).length_le
          cases hclient : s.clientAt i k with
          | none =>
              rw [applyVolume, hclient] at hvolume
              cases hvolume
          | some client =>
              rw [applyVolume_eq hclient] at hvolume
              cases hvolume
              change (s.sent ++ [_]).length ≤ s.sent.length at hprefix
              rw [List.length_append, List.length_singleton] at hprefix
              omega
      | none =>
          change applyMute s i k mute = .ok s ↔ _
          cases mute with
          | none => exact iff_of_true rfl fun _ _ => ⟨rfl, fun _ hmem => nomatch hmem⟩
          | some mute =>
              refine clientmgrClientSetmute_same_iff.trans ⟨?_, ?_⟩
              · intro hsame target htarget
                cases htarget
                exact ⟨rfl, fun other hother => Option.mem_some.mp hother ▸ hsame⟩
              · intro hall
                exact (hall (i, k) rfl).2 mute rfl

theorem volumeReply_eq {s : Server n} {i : Fin (n + 1)} {k : Nat} {client : ClientRecord}
    (hclient : s.clientAt i k = some client) :
    volumeReply s (some (i, k)) = some ⟨client.muted, client.volumePercent⟩ := by
  simp [volumeReply, hclient]

/-- What `handle_client_setvolume` does with a volume: it does not look at the mute flag. -/
theorem handleClientSetvolume_percent {s : Server n} {request : JsonrpcRequest} {i : Fin (n + 1)}
    {k : Nat} {client : ClientRecord} {volume : Nat} {muted : Option Bool}
    (hfind : findClient s client.id = some (i, k)) (hclient : s.clientAt i k = some client)
    (hasks : AsksVolume request client.id (some volume) muted) :
    handleClientSetvolume s request =
      .ok ({ s with sent := s.sent ++ [volumeDatagram client volume.toUInt8] }.setClient i k
        { client with volumePercent := volume.toUInt8 }, some ⟨client.muted, volume.toUInt8⟩) := by
  have hvolume : UInt8.ofInt volume = volume.toUInt8 := by
    have hrange := hasks.range volume rfl
    rw [UInt8.ofInt, Int.emod_eq_of_lt (by omega) (by omega), Int.toNat_natCast]
  have hat := (@setClient_clientAt n { s with sent := s.sent ++ [volumeDatagram client volume.toUInt8] }
    i k client { client with volumePercent := volume.toUInt8 } hclient).1
  unfold handleClientSetvolume
  rw [hasks.loop hfind]
  change (applyVolume s i k (some (volume : Int)) >>= fun s => applyMute s i k none) >>= _ = _
  rw [applyVolume_eq hclient, hvolume]
  exact congrArg Except.ok (Prod.ext rfl (volumeReply_eq hat))

/-- What `handle_client_setvolume` does with a mute flag alone. -/
theorem handleClientSetvolume_muted {s : Server n} {request : JsonrpcRequest} {i : Fin (n + 1)}
    {k : Nat} {client : ClientRecord} {mute : Bool}
    (hfind : findClient s client.id = some (i, k)) (hclient : s.clientAt i k = some client)
    (hasks : AsksVolume request client.id none (some mute)) :
    handleClientSetvolume s request =
      .ok ({ s.setClient i k { client with muted := mute } with
        sent := s.sent ++ muteDatagrams client (s.streams i).packetBuffer (some mute) },
          some ⟨mute, client.volumePercent⟩) := by
  have hat := (@setClient_clientAt n s i k client { client with muted := mute } hclient).1
  unfold handleClientSetvolume
  rw [hasks.loop hfind]
  change clientmgrClientSetmute s i k mute >>= _ = _
  rw [clientmgrClientSetmute_eq hfind hclient]
  exact congrArg Except.ok (Prod.ext rfl (volumeReply_eq hat))

/-- Client.SetVolume does what it was asked for if and only if it was not asked for a volume and a mute
flag together, unless the flag is false and the client is not muted. -/
theorem setvolumeApplied_iff (s : Server n) (request : JsonrpcRequest) (i : Fin (n + 1)) (k : Nat)
    (client : ClientRecord) (percent : Option Nat) (muted : Option Bool)
    (hfind : findClient s client.id = some (i, k)) (hclient : s.clientAt i k = some client)
    (hasks : AsksVolume request client.id percent muted) :
    (∃ s' reply, handleClientSetvolume s request = .ok (s', reply) ∧
        SetvolumeApplied s i k client percent muted s' reply) ↔
      (percent ≠ none → ∀ mute ∈ muted, mute = false ∧ client.muted = false) := by
  cases percent with
  | none =>
      refine ⟨fun _ hnone => absurd rfl hnone, fun _ => ?_⟩
      obtain ⟨mute, rfl⟩ := Option.ne_none_iff_exists'.mp (hasks.given.resolve_left (not_not.mpr rfl))
      have hat := @setClient_clientAt n s i k client { client with muted := mute } hclient
      refine ⟨_, _, handleClientSetvolume_muted hfind hclient hasks, ⟨_, hat.1, rfl, rfl, rfl⟩, ?_, hat.2⟩
      rw [Option.map_none, Option.toList_none, List.append_nil]
  | some volume =>
      have hat := @setClient_clientAt n
        { s with sent := s.sent ++ [volumeDatagram client volume.toUInt8] } i k client
        { client with volumePercent := volume.toUInt8 } hclient
      rw [handleClientSetvolume_percent hfind hclient hasks]
      constructor
      · rintro ⟨s', reply, hrun, happlied⟩ - mute rfl
        cases hrun
        obtain ⟨client', hclient', -, hmuted, -⟩ := happlied.record
        have hsame : client.muted = mute := by
          rw [hat.1] at hclient'
          rw [← Option.some.inj hclient'] at hmuted
          exact hmuted
        -- no datagram was sent for the mute flag
        have hnone : muteDatagrams client (s.streams i).packetBuffer (some mute) = [] :=
          List.self_eq_append_right.mp happlied.sent
        cases mute with
        | true => cases hnone
        | false => exact ⟨rfl, hsame⟩
      · intro hcondition
        have hvolume : volume.toUInt8.toNat = volume := by
          have hrange := hasks.range volume rfl
          exact Nat.mod_eq_of_lt (by omega)
        refine ⟨_, _, rfl, ⟨_, hat.1, hvolume, ?_, rfl⟩, ?_, hat.2⟩
        · cases muted with
          | none => rfl
          | some mute =>
              obtain ⟨rfl, hmuted⟩ := hcondition (Option.some_ne_none _) mute rfl
              exact hmuted
        · have hnone : muteDatagrams client (s.streams i).packetBuffer muted = [] := by
            cases muted with
            | none => rfl
            | some mute =>
                obtain ⟨rfl, hmuted⟩ := hcondition (Option.some_ne_none _) mute rfl
                rw [muteDatagrams, hmuted]
                rfl
          rw [hnone, List.append_nil]
          rfl

def serverWith (client : ClientRecord) : Server 1 := (freshServer 1000 twoStreams).setClients firstStream [client]

/-- A Client.SetVolume request for the client with the id 1, the volume first. -/
def volumeRequest (percent : Option Nat) (muted : Option Bool) : JsonrpcRequest :=
  ⟨1, [⟨nameVolume, 0, [], some ⟨percent.map fun v : Nat => some (v : Int), muted.map some⟩⟩,
    ⟨nameId, 1, [], none⟩]⟩

theorem setvolumeApplied_unmuted :
    ∃ s' reply, handleClientSetvolume (serverWith (listener true)) (volumeRequest none (some false)) =
        .ok (s', reply) ∧
      SetvolumeApplied (serverWith (listener true)) 0 0 (listener true) none (some false) s' reply :=
  (setvolumeApplied_iff (serverWith (listener true)) (volumeRequest none (some false)) 0 0
    (listener true) none (some false) (by decide) (by decide)
    ⟨by decide, by decide, by decide, by decide, by decide, by decide⟩).mpr (by decide)

/-- Asked for 30 percent and for silence, the server turns the client down only. -/
theorem muted_not_applied :
    findClient (serverWith (listener false)) 1 = some (0, 0) ∧
      (serverWith (listener false)).clientAt 0 0 = some (listener false) ∧
      AsksVolume (volumeRequest (some 30) (some true)) 1 (some 30) (some true) ∧
      ¬∃ s' reply, handleClientSetvolume (serverWith (listener false))
          (volumeRequest (some 30) (some true)) = .ok (s', reply) ∧
        SetvolumeApplied (serverWith (listener false)) 0 0 (listener false) (some 30) (some true) s'
          reply := by
  refine ⟨by decide, by decide, ⟨by decide, by decide, by decide, by decide, by decide, by decide⟩, ?_⟩
  rintro ⟨s', reply, hrun, happlied⟩
  have hview : (handleClientSetvolume (serverWith (listener false)) (volumeRequest (some 30)
      (some true))).map (fun result => (result.1.clientAt 0 0).map ClientRecord.muted) =
        .ok (some false) := by decide +kernel
  obtain ⟨client', hclient', -, hmuted, -⟩ := happlied.record
  rw [hrun] at hview
  have hflag := Except.ok.inj hview
  dsimp only at hflag
  rw [hclient', Option.map_some, hmuted] at hflag
  cases hflag

end Snapcastc
