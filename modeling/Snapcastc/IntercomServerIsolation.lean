import Snapcastc.ServerRegistry

/-! Which bytes of its buffer the server lets into what it does with a datagram. The buffer is used for one
datagram after the other, and the TLVs are read without a look at the length of the datagram. -/

namespace Snapcastc

open Bytes

/-- What `intercom_handle_packet` has done after a number of rounds of its loop, and whether it has
returned by then. -/
def handlePacketAfter {n : Nat} (clock : ServerClock) (opened : Option Nat) (rounds : Nat)
    (s : Server n) (packet : Nat → UInt8) (packetLen : Nat) (peer : In6Addr) (port : UInt16) :
    Except Fault (Server n) × Bool :=
  let hdr := packetHdr packet
  let noted := { s with recentPackets := intercomRecentlySeenAdd s.recentPackets hdr }
  if hdr.version = packetFormatVersion then
    if hdr.type = clientOperation then
      let reached := OffsetLoop.after (clientOperationAdvance packet)
        (clientOperationHandle (serverEffects clock opened peer port) packet) packetLen rounds
        (pure noted) sizeofHdr
      (reached.1, !decide (reached.2 < packetLen))
    else (pure noted, true)
  else (pure s, true)

theorem serverHandlePacket_eq {n : Nat} (clock : ServerClock) (opened : Option Nat) (rounds : Nat)
    (s : Server n) (packet : Nat → UInt8) (packetLen : Nat) (peer : In6Addr) (port : UInt16) :
    serverHandlePacket clock opened rounds s packet packetLen peer port =
      if (handlePacketAfter clock opened rounds s packet packetLen peer port).2 then
        some (handlePacketAfter clock opened rounds s packet packetLen peer port).1
      else none := by
  unfold serverHandlePacket handlePacketAfter
  dsimp only
  by_cases hversion : (packetHdr packet).version = packetFormatVersion
  · by_cases htype : (packetHdr packet).type = clientOperation
    · simp only [hversion, htype, if_true]
      rw [intercomHandleClientOperation, OffsetLoop.run_eq_after]
      split_ifs with hlt hended hended
      · simp [hlt] at hended
      · rfl
      · rfl
      · simp [hlt] at hended
    · simp only [hversion, htype, if_true, if_false]
  · simp only [hversion, if_true, if_false]

theorem handlePacketAfter_of_operation {n : Nat} {packet : Nat → UInt8}
    (hversion : (packetHdr packet).version = packetFormatVersion)
    (htype : (packetHdr packet).type = clientOperation) (clock : ServerClock) (opened : Option Nat)
    (rounds : Nat) (s : Server n) (packetLen : Nat) (peer : In6Addr) (port : UInt16) :
    handlePacketAfter clock opened rounds s packet packetLen peer port =
      let reached := OffsetLoop.after (clientOperationAdvance packet)
        (clientOperationHandle (serverEffects clock opened peer port) packet) packetLen rounds
        (pure { s with recentPackets := intercomRecentlySeenAdd s.recentPackets (packetHdr packet) })
        sizeofHdr
      (reached.1, !decide (reached.2 < packetLen)) := by
  rw [handlePacketAfter, if_pos hversion, if_pos htype]

/-- The server without the headers it has noted, which it does not look at. -/
def forgetRecent {n : Nat} (s : Server n) : Server n := { s with recentPackets := [] }

theorem forgetRecent_noted {n : Nat} (s : Server n) (recentPackets : List IntercomPacketHdr) :
    forgetRecent { s with recentPackets } = forgetRecent s := rfl

/-- The effect on clients, streams and sent datagrams, and whether the handler has returned. -/
def effectAfter {n : Nat} (clock : ServerClock) (opened : Option Nat) (rounds : Nat) (s : Server n)
    (packet : Nat → UInt8) (packetLen : Nat) (peer : In6Addr) (port : UInt16) :
    Except Fault (Server n) × Bool :=
  ((handlePacketAfter clock opened rounds s packet packetLen peer port).1.map forgetRecent,
    (handlePacketAfter clock opened rounds s packet packetLen peer port).2)

/-- The datagram in the first bytes of a buffer determines its effect on every server, whatever is behind
it in the buffer. -/
def DeterminesEffect (packetLen : Nat) (packet : Nat → UInt8) : Prop :=
  ∀ packet', AgreeBelow packetLen packet packet' → ∀ (n : Nat) (s : Server n) clock opened peer port
    rounds, effectAfter clock opened rounds s packet' packetLen peer port =
      effectAfter clock opened rounds s packet packetLen peer port

/-! ### TLVs inside the datagram -/

/-- The number of bytes that a TLV of a type is read from. -/
def tlvSize (type : UInt8) : Nat := if type = tlvHello then 9 else if type = tlvRequest then 6 else 3

/-- The TLV at the offset is read from the datagram alone. -/
def Inside (packetLen : Nat) (packet : Nat → UInt8) (offset : Nat) : Prop :=
  offset + tlvSize (packet offset) ≤ packetLen

instance (packetLen : Nat) (packet : Nat → UInt8) (offset : Nat) :
    Decidable (Inside packetLen packet offset) :=
  inferInstanceAs (Decidable (offset + tlvSize (packet offset) ≤ packetLen))

section

variable {packetLen : Nat} {packet packet' : Nat → UInt8}

theorem tlvSize_pos (type : UInt8) : 3 ≤ tlvSize type := by
  unfold tlvSize
  split_ifs <;> omega

/-- At such a TLV the loop does the same with every buffer that holds the datagram. -/
theorem Inside.agree {offset : Nat} (hinside : Inside packetLen packet offset)
    (hagree : AgreeBelow packetLen packet packet') (hhdr : sizeofHdr ≤ packetLen) :
    clientOperationAdvance packet' offset = clientOperationAdvance packet offset ∧
      ∀ (σ : Type) (effects : ClientOperationEffects σ) (s : σ),
        clientOperationHandle effects packet' s offset = clientOperationHandle effects packet s offset := by
  have hsize := tlvSize_pos (packet offset)
  unfold Inside at hinside
  have htype : packet' offset = packet offset := hagree offset (by omega)
  have hclientid : packetHdr packet' = packetHdr packet := packetHdr_agree hagree hhdr
  unfold clientOperationAdvance clientOperationHandle
  dsimp only
  rw [htype, hclientid]
  unfold tlvSize at hinside
  split_ifs at hinside ⊢ with hhello hrequest
  · have hparse : parseHello packet' offset = parseHello packet offset := by
      rw [parseHello, parseHello, hagree.host16_eq (by omega), hagree.host32_eq (by omega),
        hagree (offset + 8) (by omega), hagree (offset + 1) (by omega)]
    rw [hparse]
    exact ⟨rfl, fun _ _ _ => rfl⟩
  · have hparse : parseRequest packet' offset = parseRequest packet offset := by
      rw [parseRequest, parseRequest, hagree.host32_eq (by omega), hagree (offset + 1) (by omega)]
    rw [hparse]
    exact ⟨rfl, fun _ _ _ => rfl⟩
  · refine ⟨?_, fun _ _ _ => rfl⟩
    rw [unknownLength, unknownLength, hagree (offset + 2) (by omega)]

/-- A datagram without a TLV has no effect. -/
theorem effectAfter_short {n : Nat} (hshort : packetLen ≤ sizeofHdr) (clock : ServerClock)
    (opened : Option Nat) (rounds : Nat) (s : Server n) (peer : In6Addr) (port : UInt16) :
    effectAfter clock opened rounds s packet packetLen peer port = (.ok (forgetRecent s), true) := by
  unfold effectAfter handlePacketAfter
  dsimp only
  rw [OffsetLoop.after_of_ge (not_lt.mpr hshort)]
  split_ifs
  · simp only [not_lt.mpr hshort, decide_false, Bool.not_false]
    exact congrArg (fun s => (Except.ok s, true)) (forgetRecent_noted s _)
  · exact congrArg (fun s => (Except.ok s, true)) (forgetRecent_noted s _)
  · rfl

/-- Datagrams whose TLVs lie inside determine their effect. -/
theorem determinesEffect_of_inside
    (hinside : (packetHdr packet).version = packetFormatVersion → (packetHdr packet).type = clientOperation →
      ∀ offset, OffsetLoop.Visits (clientOperationAdvance packet) packetLen sizeofHdr offset →
        offset < packetLen → Inside packetLen packet offset) : DeterminesEffect packetLen packet := by
  intro packet' hagree n s clock opened peer port rounds
  rcases le_or_gt packetLen sizeofHdr with hshort | hlong
  · rw [effectAfter_short hshort, effectAfter_short hshort]
  · have hhdr : packetHdr packet' = packetHdr packet := packetHdr_agree hagree hlong.le
    have hsame : handlePacketAfter clock opened rounds s packet' packetLen peer port =
        handlePacketAfter clock opened rounds s packet packetLen peer port := by
      unfold handlePacketAfter
      dsimp only
      rw [hhdr]
      split_ifs with hversion htype
      · have hafter : ∀ noted, OffsetLoop.after (clientOperationAdvance packet')
            (clientOperationHandle (serverEffects (n := n) clock opened peer port) packet') packetLen rounds
            noted sizeofHdr = OffsetLoop.after (clientOperationAdvance packet)
            (clientOperationHandle (serverEffects clock opened peer port) packet) packetLen rounds
            noted sizeofHdr := by
          refine OffsetLoop.after_congr (fun offset hvisit hlt => ?_) rounds
          obtain ⟨hadvance, hhandle⟩ :=
            (hinside hversion htype offset hvisit hlt).agree hagree hlong.le
          exact ⟨hadvance, hhandle _ _⟩
        rw [hafter]
      · rfl
      · rfl
    rw [effectAfter, effectAfter, hsame]

end

/-! ### A server that knows every client

To every HELLO such a server answers with a volume unless that is what the client has, and to a REQUEST
with the packet if it is kept, so that bytes behind a datagram show in the number of datagrams it sends. -/

/-- Every id is that of a client of the only stream; all of them have the same port and half the volume. -/
structure Attended (port : UInt16) (kept : List AudioPacket) (s : Server 0) : Prop where
  every : ∀ id, ∃ client ∈ s.clients 0, client.id = id
  alike : ∀ client ∈ s.clients 0,
    client.port = port ∧ client.volumePercent = 50 ∧ s.tasks.isQueued client.purgeTask = true
  running : s.tasks.running = none
  kept : (s.streams 0).packetBuffer = kept

namespace Attended

variable {port : UInt16} {kept : List AudioPacket} {s : Server 0}

theorem find (hattended : Attended port kept s) (id : UInt16) :
    ∃ k client, findClient s id = some (0, k) ∧ s.clientAt 0 k = some client ∧
      client ∈ s.clients 0 := by
  cases hfind : findClient s id with
  | none =>
      obtain ⟨client, hclient, hid⟩ := hattended.every id
      exact absurd hid (findClient_none hfind 0 hclient)
  | some found =>
      obtain ⟨i, k⟩ := found
      obtain rfl : i = 0 := Fin.fin_one_eq_zero i
      obtain ⟨client, hclient, -⟩ := findClient_some hfind
      exact ⟨k, client, rfl, hclient, List.mem_of_getElem? hclient⟩

theorem withRecent (hattended : Attended port kept s) (recentPackets : List IntercomPacketHdr) :
    Attended port kept { s with recentPackets } :=
  ⟨hattended.every, hattended.alike, hattended.running, hattended.kept⟩

theorem send (hattended : Attended port kept s) (recipient : In6Addr) (packet : Nat → UInt8)
    (packetLen : Nat) (destination : UInt16) :
    Attended port kept (intercomSendPacketUnicast s recipient packet packetLen destination) :=
  ⟨hattended.every, hattended.alike, hattended.running, hattended.kept⟩

/-- The record of a client may change in what is noted at a HELLO. -/
theorem setClient (hattended : Attended port kept s) {k : Nat} {client client' : ClientRecord}
    (hclient : s.clientAt 0 k = some client) (hkey : client'.key = client.key)
    (hport : client'.port = client.port) (hvolume : client'.volumePercent = client.volumePercent) :
    Attended port kept (s.setClient 0 k client') := by
  have hframe : RecordFrame s (s.setClient 0 k client') := .setClient hclient hkey
  refine ⟨fun id => ?_, fun other hother => ?_, hattended.running, ?_⟩
  · obtain ⟨other, hother, hid⟩ := hattended.every id
    have hmem : other.key ∈ ((s.setClient 0 k client').clients 0).map ClientRecord.key := by
      rw [hframe.keys 0]
      exact List.mem_map_of_mem hother
    obtain ⟨same, hsame, hkeys⟩ := List.mem_map.mp hmem
    exact ⟨same, hsame, (congrArg Prod.fst hkeys).trans hid⟩
  · rw [Server.setClient, Server.setClients_clients, Function.update_self] at hother
    rcases List.mem_or_eq_of_mem_set hother with hother | rfl
    · exact hattended.alike other hother
    · rw [hport, hvolume, show other.purgeTask = client.purgeTask from congrArg Prod.snd hkey]
      exact hattended.alike client (List.mem_of_getElem? hclient)
  · rw [hframe.streams 0]
    exact hattended.kept

theorem reschedule (hattended : Attended port kept s) (now : Timespec) {client : ClientRecord}
    (hclient : client ∈ s.clients 0) :
    ∃ tasks, s.tasks.rescheduleTask now 5 0 (some client.purgeTask) = .ok tasks ∧
      Attended port kept { s with tasks } := by
  have hrunning : ¬s.tasks.running = some client.purgeTask := by
    rw [hattended.running]
    exact (Option.some_ne_none _).symm
  rw [TaskPool.rescheduleTask, if_neg hrunning, if_pos (hattended.alike client hclient).2.2]
  refine ⟨_, rfl, hattended.every, fun other hother => ?_, hattended.running, hattended.kept⟩
  obtain ⟨hport, hvolume, hqueued⟩ := hattended.alike other hother
  refine ⟨hport, hvolume, ?_⟩
  rw [TaskPool.isQueued, List.any_map, ← hqueued, TaskPool.isQueued]
  refine congrArg (List.any _) (funext fun task => ?_)
  rw [Function.comp_apply]
  split_ifs <;> rfl

/-- At a HELLO one datagram is sent unless the client has the volume. -/
theorem refresh (hattended : Attended port kept s) (clock : ServerClock) (opened : Option Nat)
    (hello : Hello) (ip : In6Addr) :
    ∃ s', clientmgrRefreshClient clock opened s ⟨hello, ip, port⟩ = .ok s' ∧ Attended port kept s' ∧
      s'.sent.length = s.sent.length + if isRoughly hello.volumePercent 50 then 0 else 1 := by
  obtain ⟨k, client, hfind, hclient, hmem⟩ := hattended.find hello.id
  obtain ⟨hport, hvolume, -⟩ := hattended.alike client hmem
  obtain ⟨tasks, hreschedule, hthen⟩ := hattended.reschedule clock.uptime hmem
  have hnoted : Attended port kept (Server.setClient { s with tasks } 0 k { client with
      connected := true, lastseen := clock.systime, latency := hello.latency }) :=
    hthen.setClient hclient rfl rfl rfl
  have hclient' : Server.clientAt { s with tasks } 0 k = some client := hclient
  rw [clientmgrRefreshClient, hfind]
  dsimp only
  rw [hclient]
  dsimp only
  rw [if_neg (not_not.mpr hport.symm), hreschedule]
  refine ⟨_, rfl, ?_⟩
  rw [noteSeen, hclient']
  dsimp only
  rw [hvolume] at hnoted ⊢
  split_ifs with hroughly
  · exact ⟨hnoted, rfl⟩
  · refine ⟨hnoted.send _ _ _ _, ?_⟩
    exact List.length_append

/-- At a REQUEST one datagram is sent if the packet is kept. -/
theorem answer (hattended : Attended port kept s) (clientid : UInt16) (nonce : UInt32) (ip : In6Addr)
    (destination : UInt16) :
    Attended port kept (answerRequest s clientid nonce ip destination) ∧
      (answerRequest s clientid nonce ip destination).sent.length =
        s.sent.length + if (kept.find? fun ap => ap.nonce == nonce).isSome then 1 else 0 := by
  obtain ⟨k, client, hfind, -, -⟩ := hattended.find clientid
  rw [answerRequest, hfind]
  dsimp only
  rw [hattended.kept]
  cases kept.find? fun ap => ap.nonce == nonce with
  | none => exact ⟨hattended, rfl⟩
  | some ap => exact ⟨hattended.send _ _ _ _, List.length_append⟩

end Attended

/-- How many datagrams a server that knows every client sends for the TLV at an offset. -/
def answers (kept : List AudioPacket) (packet : Nat → UInt8) (offset : Nat) : Nat :=
  if packet offset = tlvHello then
    if isRoughly (parseHello packet offset).1.volumePercent 50 then 0 else 1
  else if packet offset = tlvRequest then
    if (kept.find? fun ap => ap.nonce == (parseRequest packet offset).1).isSome then 1 else 0
  else 0

theorem answers_request {packet : Nat → UInt8} {offset : Nat} (hrequest : packet offset = tlvRequest)
    (ap : AudioPacket) :
    answers [ap] packet offset = if ap.nonce == (parseRequest packet offset).1 then 1 else 0 := by
  rw [answers, if_neg (by rw [hrequest]; decide), if_pos hrequest]
  cases hsame : ap.nonce == (parseRequest packet offset).1 with
  | false => rw [List.find?_cons, hsame]; rfl
  | true => rw [List.find?_cons, hsame]; rfl

theorem Attended.handle {port : UInt16} {kept : List AudioPacket} {s : Server 0}
    (hattended : Attended port kept s) (clock : ServerClock) (opened : Option Nat) (ip : In6Addr)
    (packet : Nat → UInt8) (offset : Nat) :
    ∃ s', clientOperationHandle (serverEffects clock opened ip port) packet (.ok s) offset = .ok s' ∧
      Attended port kept s' ∧ s'.sent.length = s.sent.length + answers kept packet offset := by
  unfold clientOperationHandle answers
  dsimp only
  split_ifs with hhello hroughly hrequest hkept
  · obtain ⟨s', hrun, hthen, hsent⟩ :=
      hattended.refresh clock opened (parseHello packet offset).1 ip
    rw [if_pos hroughly] at hsent
    exact ⟨s', hrun, hthen, hsent⟩
  · obtain ⟨s', hrun, hthen, hsent⟩ :=
      hattended.refresh clock opened (parseHello packet offset).1 ip
    rw [if_neg hroughly] at hsent
    exact ⟨s', hrun, hthen, hsent⟩
  · obtain ⟨hthen, hsent⟩ :=
      hattended.answer (packetHdr packet).clientid (parseRequest packet offset).1 ip port
    rw [if_pos hkept] at hsent
    exact ⟨_, rfl, hthen, hsent⟩
  · obtain ⟨hthen, hsent⟩ :=
      hattended.answer (packetHdr packet).clientid (parseRequest packet offset).1 ip port
    rw [if_neg hkept] at hsent
    exact ⟨_, rfl, hthen, hsent⟩
  · exact ⟨s, rfl, hattended, rfl⟩

/-- The clients of a server that knows every one of them. -/
def everyClient (port : UInt16) : List ClientRecord :=
  (List.range 65536).map fun id => ⟨⟨1⟩, port, UInt16.ofNat id, true, ⟨1, 0⟩, 2, 0, 50, false, id⟩

def everyPurge : List (Posted (ServerTask 0)) :=
  (List.range 65536).map fun id => ⟨id, ⟨6, 0⟩, .scheduleDeleteClient (UInt16.ofNat id)⟩

/-- A server that knows every client. -/
def attendedServer (port : UInt16) (kept : List AudioPacket) : Server 0 where
  streams := fun _ =>
    { freshStream ⟨[97], 20, 48000, 2, 2⟩ with
      clients := everyClient port, packetBuffer := kept, initialized := true }
  tasks := ⟨everyPurge, none, 65536, everyPurge.map Posted.code⟩
  interest := ∅
  pending := []
  recentPackets := []
  bufferms := 1000
  sent := []

theorem mem_everyClient {port : UInt16} {client : ClientRecord} :
    client ∈ everyClient port ↔
      ∃ id < 65536, ⟨⟨1⟩, port, UInt16.ofNat id, true, ⟨1, 0⟩, 2, 0, 50, false, id⟩ = client := by
  rw [everyClient, List.mem_map]
  exact exists_congr fun id => and_congr_left' List.mem_range

theorem everyPurge_any {id : Nat} (hid : id < 65536) : everyPurge.any (·.id == id) = true := by
  rw [everyPurge, List.any_map]
  exact List.any_eq_true.mpr ⟨id, List.mem_range.mpr hid, beq_self_eq_true id⟩

theorem attendedServer_attended (port : UInt16) (kept : List AudioPacket) :
    Attended port kept (attendedServer port kept) := by
  have hclients : (attendedServer port kept).clients 0 = everyClient port := by
    rw [Server.clients, attendedServer]
  have hqueued : (attendedServer port kept).tasks.queued = everyPurge := by
    rw [attendedServer]
  refine ⟨fun id => ?_, fun client hclient => ?_, rfl, rfl⟩
  · rw [hclients]
    exact ⟨_, mem_everyClient.mpr ⟨id.toNat, id.toNat_lt, rfl⟩, UInt16.ofNat_toNat⟩
  · rw [hclients] at hclient
    obtain ⟨id, hid, rfl⟩ := mem_everyClient.mp hclient
    refine ⟨rfl, rfl, ?_⟩
    rw [TaskPool.isQueued, hqueued]
    exact everyPurge_any hid

/-! ### TLVs that are cut off -/

section

variable {packetLen offset : Nat} {packet : Nat → UInt8}

/-- The buffer with another byte at the end of the TLV at an offset. -/
def withLastByte (packet : Nat → UInt8) (offset : Nat) (byte : UInt8) : Nat → UInt8 :=
  Function.update packet (offset + tlvSize (packet offset) - 1) byte

/-- Up to the first TLV that is cut off the server does the same whatever the last byte of that TLV is,
and with that TLV it does what the byte says. -/
theorem effectAfter_withLastByte (hversion : (packetHdr packet).version = packetFormatVersion)
    (htype : (packetHdr packet).type = clientOperation)
    (hreaches : OffsetLoop.Reaches (Inside packetLen packet) (clientOperationAdvance packet) packetLen
      sizeofHdr offset) (hlt : offset < packetLen) (hcut : ¬Inside packetLen packet offset)
    (clock : ServerClock) (ip : In6Addr) (port : UInt16) (kept : List AudioPacket) :
    ∃ rounds before, ∀ byte, ∃ s', effectAfter clock none rounds (attendedServer port kept)
        (withLastByte packet offset byte) packetLen ip port = (.ok (forgetRecent s'),
          !decide (offset + clientOperationAdvance (withLastByte packet offset byte) offset < packetLen)) ∧
      s'.sent.length = before + answers kept (withLastByte packet offset byte) offset := by
  have hstart := hreaches.start_le
  have hagree : ∀ byte, AgreeBelow packetLen packet (withLastByte packet offset byte) := by
    intro byte
    refine AgreeBelow.update packet ?_ byte
    unfold Inside at hcut
    omega
  obtain ⟨rounds, hsame⟩ := hreaches.after_eq
    (clientOperationHandle (serverEffects (n := 0) clock none ip port) packet)
  -- the state in which the TLV is come to
  let noted : Server 0 := { attendedServer port kept with
    recentPackets := intercomRecentlySeenAdd (attendedServer port kept).recentPackets (packetHdr packet) }
  obtain ⟨s, hs, hattended⟩ : ∃ s, (OffsetLoop.after (clientOperationAdvance packet)
      (clientOperationHandle (serverEffects clock none ip port) packet) packetLen rounds
      (.ok noted) sizeofHdr).1 = .ok s ∧ Attended port kept s := by
    refine OffsetLoop.after_invariant
      (P := fun reached : Except Fault (Server 0) => ∃ s, reached = .ok s ∧ Attended port kept s)
      (fun reached offset _ hreached => ?_)
      ⟨noted, rfl, (attendedServer_attended port kept).withRecent _⟩ rounds sizeofHdr
    obtain ⟨s, rfl, hattended⟩ := hreached
    obtain ⟨s', hrun, hthen, -⟩ := hattended.handle clock none ip packet offset
    exact ⟨s', hrun, hthen⟩
  refine ⟨rounds + 1, s.sent.length, fun byte => ?_⟩
  have hhdr : packetHdr (withLastByte packet offset byte) = packetHdr packet :=
    packetHdr_agree (hagree byte) (hstart.trans hlt.le)
  obtain ⟨s', hrun, -, hsent⟩ := hattended.handle clock none ip (withLastByte packet offset byte) offset
  have hafter : OffsetLoop.after (clientOperationAdvance (withLastByte packet offset byte))
      (clientOperationHandle (serverEffects clock none ip port) (withLastByte packet offset byte))
      packetLen (rounds + 1) (.ok noted) sizeofHdr =
        (.ok s', offset + clientOperationAdvance (withLastByte packet offset byte) offset) := by
    rw [OffsetLoop.after_succ, hsame _ _
      (fun offset hinside => (hinside.agree (hagree byte) (hstart.trans hlt.le)).1)
      (fun offset hinside => (hinside.agree (hagree byte) (hstart.trans hlt.le)).2 _ _),
      hs, OffsetLoop.round, if_pos hlt]
    dsimp only
    rw [hrun]
  refine ⟨s', ?_, hsent⟩
  rw [effectAfter, handlePacketAfter_of_operation (hhdr ▸ hversion) (hhdr ▸ htype), hhdr]
  dsimp only
  rw [show (pure noted : Except Fault (Server 0)) = .ok noted from rfl, hafter]
  rfl

/-- So the number of answers and whether the loop has ended do not depend on that byte when the datagram
determines its effect. -/
theorem DeterminesEffect.lastByte (hdetermines : DeterminesEffect packetLen packet)
    (hversion : (packetHdr packet).version = packetFormatVersion)
    (htype : (packetHdr packet).type = clientOperation)
    (hreaches : OffsetLoop.Reaches (Inside packetLen packet) (clientOperationAdvance packet) packetLen
      sizeofHdr offset) (hlt : offset < packetLen) (hcut : ¬Inside packetLen packet offset)
    (kept : List AudioPacket) (byte byte' : UInt8) :
    answers kept (withLastByte packet offset byte) offset =
        answers kept (withLastByte packet offset byte') offset ∧
      (offset + clientOperationAdvance (withLastByte packet offset byte) offset < packetLen ↔
        offset + clientOperationAdvance (withLastByte packet offset byte') offset < packetLen) := by
  obtain ⟨rounds, before, heffect⟩ :=
    effectAfter_withLastByte hversion htype hreaches hlt hcut ⟨⟨1, 0⟩, ⟨1, 0⟩⟩ ⟨1⟩ 100 kept
  have hsame : ∀ byte, effectAfter ⟨⟨1, 0⟩, ⟨1, 0⟩⟩ none rounds (attendedServer 100 kept)
      (withLastByte packet offset byte) packetLen ⟨1⟩ 100 =
        effectAfter ⟨⟨1, 0⟩, ⟨1, 0⟩⟩ none rounds (attendedServer 100 kept) packet packetLen ⟨1⟩ 100 := by
    intro byte
    refine hdetermines _ (AgreeBelow.update packet ?_ byte) 0 _ _ _ _ _ _
    unfold Inside at hcut
    omega
  obtain ⟨s, hs, hsent⟩ := heffect byte
  obtain ⟨s', hs', hsent'⟩ := heffect byte'
  rw [hsame] at hs hs'
  obtain ⟨hstate, hended⟩ := Prod.mk.inj (hs.symm.trans hs')
  have hlength : (forgetRecent s).sent.length = (forgetRecent s').sent.length := by
    rw [Except.ok.inj hstate]
  change s.sent.length = s'.sent.length at hlength
  refine ⟨by omega, ?_⟩
  exact decide_eq_decide.mp (Bool.not_inj hended)

/-- The TLV is read up to its last byte. -/
theorem withLastByte_type (hcut : ¬Inside packetLen packet offset) (hlt : offset < packetLen)
    (byte : UInt8) : withLastByte packet offset byte offset = packet offset := by
  refine Function.update_of_ne ?_ _ _
  unfold Inside at hcut
  omega

theorem withLastByte_last (packet : Nat → UInt8) (offset : Nat) (byte : UInt8) :
    withLastByte packet offset byte (offset + tlvSize (packet offset) - 1) = byte :=
  Function.update_self _ _ _

/-- What the server does with a datagram in which a TLV is cut off depends on what is behind it. -/
theorem not_determinesEffect (hversion : (packetHdr packet).version = packetFormatVersion)
    (htype : (packetHdr packet).type = clientOperation)
    (hreaches : OffsetLoop.Reaches (Inside packetLen packet) (clientOperationAdvance packet) packetLen
      sizeofHdr offset) (hlt : offset < packetLen) (hcut : ¬Inside packetLen packet offset) :
    ¬DeterminesEffect packetLen packet := by
  intro hdetermines
  have hsame := hdetermines.lastByte hversion htype hreaches hlt hcut
  have hkind := withLastByte_type hcut hlt
  have hlast := withLastByte_last packet offset
  by_cases hhello : packet offset = tlvHello
  · -- half the volume is not answered, full volume is
    have hanswers := (hsame [] 50 100).1
    have hsize : offset + tlvSize (packet offset) - 1 = offset + 8 := by rw [tlvSize, if_pos hhello]; rfl
    rw [hsize] at hlast
    rw [answers, answers, hkind, hkind, if_pos hhello, if_pos hhello, parseHello, parseHello] at hanswers
    dsimp only at hanswers
    rw [hlast, hlast, if_pos (by decide), if_neg (by decide)] at hanswers
    exact absurd hanswers Nat.zero_ne_one
  · by_cases hrequest : packet offset = tlvRequest
    · -- the packet is kept that is requested with one byte but not with the other
      have hsize : offset + tlvSize (packet offset) - 1 = offset + 5 := by
        rw [tlvSize, if_neg hhello, if_pos hrequest]
        rfl
      rw [hsize] at hlast
      have hanswers := (hsame [⟨fun _ => 0, 0, (parseRequest (withLastByte packet offset 50) offset).1⟩]
        50 100).1
      rw [answers_request ((hkind 50).trans hrequest), answers_request ((hkind 100).trans hrequest),
        if_pos (beq_self_eq_true _)] at hanswers
      split_ifs at hanswers with heq
      have hmod : ∀ byte, (parseRequest (withLastByte packet offset byte) offset).1.toNat % 2 ^ 8 =
          byte.toNat := by
        intro byte
        rw [parseRequest, host32_mod, hlast]
      have hbytes := hmod 100
      rw [← eq_of_beq heq, hmod 50] at hbytes
      exact absurd hbytes (by decide)
    · -- from the byte the loop takes how far it goes
      have hended := (hsame [] 0 2).2
      have hsize : tlvSize (packet offset) = 3 := by rw [tlvSize, if_neg hhello, if_neg hrequest]
      have hlast : ∀ byte, withLastByte packet offset byte (offset + 2) = byte := by
        rw [hsize] at hlast
        exact hlast
      have hcut' : ¬offset + 3 ≤ packetLen := by
        rw [← hsize]
        exact hcut
      rw [clientOperationAdvance, clientOperationAdvance, hkind, hkind, if_neg hhello, if_neg hhello,
        if_neg hrequest, if_neg hrequest, unknownLength, unknownLength, hlast, hlast] at hended
      have htwo : (2 : UInt8).toNat = 2 := rfl
      have hzero : (0 : UInt8).toNat = 0 := rfl
      omega

/-- What the handler returns is the effect after the rounds that it makes. -/
theorem serverHandlePacket_effect {n : Nat} (clock : ServerClock) (opened : Option Nat) (rounds : Nat)
    (s : Server n) (packet : Nat → UInt8) (packetLen : Nat) (peer : In6Addr) (port : UInt16) :
    (serverHandlePacket clock opened rounds s packet packetLen peer port).map (Except.map forgetRecent) =
      if (effectAfter clock opened rounds s packet packetLen peer port).2 then
        some (effectAfter clock opened rounds s packet packetLen peer port).1
      else none := by
  rw [serverHandlePacket_eq]
  change _ = if (handlePacketAfter clock opened rounds s packet packetLen peer port).2 then _ else none
  split_ifs
  · rfl
  · rfl

/-- The datagram determines its effect exactly when every TLV the server comes to lies inside, and then it
determines what the handler returns. -/
theorem determinesEffect_iff (packetLen : Nat) (packet : Nat → UInt8) :
    (DeterminesEffect packetLen packet ↔
      ((packetHdr packet).version = packetFormatVersion → (packetHdr packet).type = clientOperation →
        ∀ offset, OffsetLoop.Visits (clientOperationAdvance packet) packetLen sizeofHdr offset →
          offset < packetLen → Inside packetLen packet offset)) ∧
    (DeterminesEffect packetLen packet → ∀ packet', AgreeBelow packetLen packet packet' →
      ∀ (n : Nat) (s : Server n) clock opened peer port rounds,
        (serverHandlePacket clock opened rounds s packet' packetLen peer port).map (Except.map forgetRecent) =
          (serverHandlePacket clock opened rounds s packet packetLen peer port).map
            (Except.map forgetRecent)) := by
  refine ⟨⟨fun hdetermines hversion htype => ?_, determinesEffect_of_inside⟩, ?_⟩
  · by_contra hnot
    obtain ⟨offset, hreaches, hlt, hcut⟩ := OffsetLoop.exists_first hnot
    exact not_determinesEffect hversion htype hreaches hlt hcut hdetermines
  · intro hdetermines packet' hagree n s clock opened peer port rounds
    rw [serverHandlePacket_effect, serverHandlePacket_effect,
      hdetermines packet' hagree n s clock opened peer port rounds]

/-- A HELLO that is cut off before the volume, with nothing behind it. -/
def cutHello : Nat → UInt8 := store (fun _ => 0) 0 [1, 0, 0, 1, 0, 0, 0, 7, 1, 9, 0, 1, 0, 0, 0, 0]

theorem cutHello_not_determined : ¬DeterminesEffect 16 cutHello :=
  not_determinesEffect (by decide) (by decide) .start (by decide) (by decide)

end

end Snapcastc
