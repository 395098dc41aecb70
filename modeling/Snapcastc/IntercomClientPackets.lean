import Snapcastc.IntercomClientLoss
import Snapcastc.IntercomWire

/-! Which packets the client acts on. `intercom_recently_seen` compares a packet with the last one
accepted only, and the server gives the nonce 0 to all its operations: an operation is lost when it
follows another one directly, and a repeated AUDIO packet is noticed only when it follows the packet
it repeats directly. -/

namespace Snapcastc

open Bytes

/-- The sequence numbers of the chunks in the receive buffer. -/
def heldSeqnos (s : Client) : List UInt32 :=
  (s.receivebuffer.elim [] ReceiveBuffer.contents).map StoredChunk.seqno

theorem heldSeqnos_congr {s s' : Client} (hbuffer : s'.receivebuffer = s.receivebuffer) :
    heldSeqnos s' = heldSeqnos s := by
  rw [heldSeqnos, heldSeqnos, hbuffer]

theorem heldSeqnos_removeRequest (s : Client) (nonce : UInt32) :
    heldSeqnos (removeRequest s nonce) = heldSeqnos s := rfl

theorem heldSeqnos_pruneMissingPackets (s : Client) (nonce : UInt32) :
    heldSeqnos (pruneMissingPackets s nonce) = heldSeqnos s := rfl

/-- Two chunks may have the same number or play time, so the view need not be injective. -/
theorem subperm_map {α β : Type} (view : α → β) {l l' : List α} (hsub : l.Subperm l') :
    (l.map view).Subperm (l'.map view) := by
  obtain ⟨middle, hperm, hsublist⟩ := hsub
  exact ⟨middle.map view, hperm.map view, hsublist.map view⟩

namespace ReceiveBuffer

theorem dequeue_subperm (buffer : ReceiveBuffer) :
    buffer.dequeue.contents.Subperm buffer.contents := by
  rcases Nat.eq_zero_or_pos buffer.queue.size with hzero | hpos
  · have hsame : buffer.dequeue.queue = buffer.queue :=
      congrArg Prod.snd (PQueue.dequeue_of_empty hzero)
    rw [contents, hsame]
    exact List.Subperm.refl _
  · exact (List.subperm_cons_self).trans (buffer.queue.dequeue_contents hpos).subperm

theorem enqueue_subperm (buffer : ReceiveBuffer) (stored : StoredChunk) :
    (buffer.enqueue stored).contents.Subperm (stored :: buffer.contents) := by
  rcases Nat.lt_or_ge buffer.queue.size buffer.queue.capacity with hroom | hfull
  · exact ((buffer.queue.enqueue_contents stored hroom).trans
      (List.perm_append_singleton _ _)).subperm
  · have hsame : (buffer.enqueue stored).queue = buffer.queue :=
      buffer.queue.enqueue_of_full stored hfull
    rw [contents, hsame]
    exact List.subperm_cons_self

theorem removeOldLoop_subperm (ctime : Timespec) (rounds : Nat) (buffer : ReceiveBuffer)
    (oldestPlayAt : Timespec) :
    (removeOldLoop ctime rounds buffer oldestPlayAt).contents.Subperm buffer.contents := by
  induction rounds generalizing buffer oldestPlayAt with
  | zero => exact List.Subperm.refl _
  | succ rounds ih =>
      rw [removeOldLoop]
      split
      · exact (ih buffer.dequeue _).trans buffer.dequeue_subperm
      · exact List.Subperm.refl _

theorem putChunk_subperm (ctime : Timespec) (buffer : ReceiveBuffer) (stored : StoredChunk) :
    (buffer.putChunk ctime stored).contents.Subperm (stored :: buffer.contents) := by
  refine (enqueue_subperm _ stored).trans ?_
  rw [List.subperm_cons]
  unfold removeOldData
  split
  · exact List.Subperm.refl _
  · exact removeOldLoop_subperm _ _ _ _

end ReceiveBuffer

/-- What an AUDIO packet with a number can do: it leaves the recent packets and the operations alone,
and the receive buffer holds at most one chunk more, which has that number. -/
structure AudioEffect (seqno : UInt32) (s s' : Client) : Prop where
  recentPackets : s'.recentPackets = s.recentPackets
  operations : s'.operations = s.operations
  held : (heldSeqnos s').Subperm (seqno :: heldSeqnos s)

theorem ensureReceivebuffer_fields {env : ClientEnv} {s s' : Client} {serverbufferms : UInt16}
    {chunk chunk' : PcmChunk} {buffer : ReceiveBuffer}
    (hrun : ensureReceivebuffer env s serverbufferms chunk = .ok (s', chunk', buffer)) :
    s'.recentPackets = s.recentPackets ∧ s'.operations = s.operations ∧
      (buffer.contents = [] ∨ s.receivebuffer = some buffer) := by
  rcases ensureReceivebuffer_cases hrun with ⟨hbuffer, rfl, -⟩ | ⟨-, _, -, -, rfl, rfl⟩
  · exact ⟨rfl, rfl, .inr hbuffer⟩
  · exact ⟨rfl, rfl, .inl rfl⟩

theorem noteLoss_fields (clock : ClientClock) (s : Client) (buffer : ReceiveBuffer)
    (seqno : UInt32) :
    (noteLoss clock s buffer seqno).1.recentPackets = s.recentPackets ∧
      (noteLoss clock s buffer seqno).1.operations = s.operations ∧
      (noteLoss clock s buffer seqno).2.contents.Subperm buffer.contents := by
  unfold noteLoss
  split
  · exact ⟨rfl, rfl, List.Subperm.refl _⟩
  · dsimp only
    split
    · exact ⟨rfl, rfl, List.Subperm.refl _⟩
    · split
      · exact ⟨rfl, rfl, List.nil_subperm⟩
      · have hsame := requestAll_same clock buffer.capacity s
          (List.range' (maxRequests s.lastreceviedseqno seqno.toNat buffer.capacity)
            (seqno.toNat - maxRequests s.lastreceviedseqno seqno.toNat buffer.capacity))
        exact ⟨hsame.recentPackets, hsame.operations, List.Subperm.refl _⟩

theorem raiseSeqno_same (s : Client) (seqno : UInt32) :
    (raiseSeqno s seqno).recentPackets = s.recentPackets ∧
      (raiseSeqno s seqno).operations = s.operations ∧
      (raiseSeqno s seqno).receivebuffer = s.receivebuffer := by
  unfold raiseSeqno
  split
  · exact ⟨rfl, rfl, rfl⟩
  · exact ⟨rfl, rfl, rfl⟩

theorem heldSeqnos_of_some {s : Client} {buffer : ReceiveBuffer}
    (hbuffer : s.receivebuffer = some buffer) :
    heldSeqnos s = buffer.contents.map StoredChunk.seqno := by
  rw [heldSeqnos, hbuffer]
  rfl

theorem storeAudio_effect (clock : ClientClock) (s : Client) (buffer : ReceiveBuffer)
    (seqno : UInt32) (chunk : PcmChunk) :
    (storeAudio clock s buffer seqno chunk).recentPackets = s.recentPackets ∧
      (storeAudio clock s buffer seqno chunk).operations = s.operations ∧
      (heldSeqnos (storeAudio clock s buffer seqno chunk)).Subperm
        (seqno :: buffer.contents.map StoredChunk.seqno) := by
  obtain ⟨hrecent, hops, hcontents⟩ := noteLoss_fields clock s buffer seqno
  unfold storeAudio
  dsimp only
  obtain ⟨hrecent', hops', hbuffer'⟩ := raiseSeqno_same (withReceivebuffer
    (noteLoss clock s buffer seqno).1
    ((noteLoss clock s buffer seqno).2.putChunk clock.later ⟨chunk, seqno⟩)) seqno
  refine ⟨hrecent'.trans hrecent, hops'.trans hops, ?_⟩
  rw [heldSeqnos_of_some hbuffer']
  have hput := subperm_map StoredChunk.seqno
    ((noteLoss clock s buffer seqno).2.putChunk_subperm clock.later ⟨chunk, seqno⟩)
  exact hput.trans ((List.subperm_cons _).mpr (subperm_map StoredChunk.seqno hcontents))

theorem lateAudio_effect (s : Client) (buffer : ReceiveBuffer) (seqno : UInt32) :
    (pruneMissingPackets (raiseSeqno (withReceivebuffer s buffer) seqno) seqno).recentPackets =
        s.recentPackets ∧
      (pruneMissingPackets (raiseSeqno (withReceivebuffer s buffer) seqno) seqno).operations =
        s.operations ∧
      heldSeqnos (pruneMissingPackets (raiseSeqno (withReceivebuffer s buffer) seqno) seqno) =
        buffer.contents.map StoredChunk.seqno := by
  obtain ⟨hrecent, hops, hbuffer⟩ := raiseSeqno_same (withReceivebuffer s buffer) seqno
  refine ⟨hrecent, hops, ?_⟩
  rw [heldSeqnos_pruneMissingPackets]
  exact heldSeqnos_of_some hbuffer

/-- `intercom_handle_audio` has the effect of an AUDIO packet. -/
theorem handleAudio_effect (env : ClientEnv) (clock : ClientClock) (s : Client)
    (packet : Nat → UInt8) :
    AudioEffect (packetHdr packet).nonce s (intercomHandleAudio env clock s packet).state := by
  rcases handleAudio_cases env clock s packet with ⟨fault, -, hrun⟩ | ⟨s₁, chunk, buffer, hensure, hrun⟩
  · rw [hrun]
    refine ⟨rfl, rfl, ?_⟩
    rw [heldSeqnos_removeRequest]
    exact List.subperm_cons_self
  · generalize (packetHdr packet).nonce = seqno at hensure hrun ⊢
    obtain ⟨hrecent, hops, hcontents⟩ := ensureReceivebuffer_fields hensure
    have hheld : (buffer.contents.map StoredChunk.seqno).Subperm (heldSeqnos s) := by
      rcases hcontents with hempty | hsome
      · rw [hempty]
        exact List.nil_subperm
      · rw [← heldSeqnos_of_some hsome, heldSeqnos_removeRequest]
    rcases hrun with ⟨-, hrun⟩ | ⟨-, hrun⟩
    · rw [hrun]
      have hsame := sameIntercom_openDevice env clock (storeAudio clock s₁ buffer seqno chunk) chunk
      obtain ⟨hrecent', hops', hheld'⟩ := storeAudio_effect clock s₁ buffer seqno chunk
      refine ⟨hsame.recentPackets.trans (hrecent'.trans hrecent),
        hsame.operations.trans (hops'.trans hops), ?_⟩
      rw [heldSeqnos_congr hsame.receivebuffer]
      exact hheld'.trans ((List.subperm_cons _).mpr hheld)
    · rw [hrun]
      obtain ⟨hrecent', hops', hheld'⟩ := lateAudio_effect s₁ buffer seqno
      refine ⟨hrecent'.trans hrecent, hops'.trans hops, ?_⟩
      rw [hheld']
      exact hheld.trans List.subperm_cons_self

@[simp] theorem noteRecent_operations (s : Client) (hdr : IntercomPacketHdr) :
    (noteRecent s hdr).operations = s.operations := by
  rw [noteRecent]

theorem heldSeqnos_noteRecent (s : Client) (hdr : IntercomPacketHdr) :
    heldSeqnos (noteRecent s hdr) = heldSeqnos s := by
  rw [heldSeqnos, noteRecent, heldSeqnos]

@[simp] theorem noteRecent_recentPackets (s : Client) (hdr : IntercomPacketHdr) :
    (noteRecent s hdr).recentPackets = intercomRecentlySeenAdd s.recentPackets hdr := rfl

/-- The packet is an AUDIO packet of the version the client knows. -/
def IsAudioPacket (packet : Nat → UInt8) : Prop :=
  (packetHdr packet).version = packetFormatVersion ∧ (packetHdr packet).type = audioData

instance (packet : Nat → UInt8) : Decidable (IsAudioPacket packet) :=
  inferInstanceAs (Decidable (_ ∧ _))

theorem handlePacket_of_seen {env : ClientEnv} {clock : ClientClock} {s : Client}
    {packet : Nat → UInt8} {packetLen : Nat}
    (hseen : intercomRecentlySeen s.recentPackets (packetHdr packet) = true) :
    intercomHandlePacket env clock s packet packetLen = ⟨s, none⟩ := by
  unfold intercomHandlePacket
  dsimp only
  rw [if_pos hseen, ite_self]

theorem handlePacket_of_audio {env : ClientEnv} {clock : ClientClock} {s : Client}
    {packet : Nat → UInt8} {packetLen : Nat} (haudio : IsAudioPacket packet)
    (hnew : intercomRecentlySeen s.recentPackets (packetHdr packet) = false) :
    intercomHandlePacket env clock s packet packetLen =
      intercomHandleAudio env clock (noteRecent s (packetHdr packet)) packet := by
  have htype : ¬(packetHdr packet).type = serverOperation := by
    rw [haudio.2]
    decide
  unfold intercomHandlePacket
  dsimp only
  rw [if_pos haudio.1, hnew, if_neg Bool.false_ne_true, if_neg htype, if_pos haudio.2]

/-- The last packet that was accepted and the one at hand have the same number and type, or the
packet is accepted. -/
theorem handlePacket_audio_cases (env : ClientEnv) (clock : ClientClock) (s : Client)
    {packet : Nat → UInt8} (packetLen : Nat) (haudio : IsAudioPacket packet) :
    (intercomRecentlySeen s.recentPackets (packetHdr packet) = true ∧
      intercomHandlePacket env clock s packet packetLen = ⟨s, none⟩) ∨
    (intercomRecentlySeen s.recentPackets (packetHdr packet) = false ∧
      AudioEffect (packetHdr packet).nonce (noteRecent s (packetHdr packet))
        (intercomHandlePacket env clock s packet packetLen).state) := by
  cases hseen : intercomRecentlySeen s.recentPackets (packetHdr packet) with
  | true => exact .inl ⟨rfl, handlePacket_of_seen hseen⟩
  | false =>
      rw [handlePacket_of_audio haudio hseen]
      exact .inr ⟨rfl, handleAudio_effect env clock _ packet⟩

/-! ### Server operations -/

/-- The packet that the server sends for an operation, in a buffer with arbitrary contents. -/
def operationPacket (packet : Nat → UInt8) : ServerOperation → Assembly
  | .stop => intercomStopClient packet
  | .volume percent => intercomSetVolume packet percent

def operationTlv : ServerOperation → List UInt8
  | .stop => [tlvClientStop, 2]
  | .volume percent => [tlvClientVolume, 3, percent]

def operationHdr : IntercomPacketHdr := ⟨packetFormatVersion, serverOperation, 0, 0⟩

def operationBytes (op : ServerOperation) : List UInt8 :=
  [packetFormatVersion] ++ [serverOperation] ++ net16 0 ++ net32 0 ++ operationTlv op

def execute (s : Client) : ServerOperation → Client
  | .stop => stopClient s
  | .volume percent => setClientVolume s percent

theorem operationPacket_assembled (packet : Nat → UInt8) (op : ServerOperation) :
    Assembled (operationPacket packet op) (operationBytes op) := by
  have hput := fun tlv => (((((Assembled.empty packet).put [packetFormatVersion]).put
    [serverOperation]).put (net16 0)).put (net32 0)).put tlv
  cases op with
  | stop => exact hput [tlvClientStop, 2]
  | volume percent => exact hput [tlvClientVolume, 3, percent]

theorem Holds.operationHdr {mem : Nat → UInt8} {op : ServerOperation}
    (hmem : Holds mem 0 (operationBytes op)) : packetHdr mem = Snapcastc.operationHdr := by
  have hversion := hmem.left.left.left.left
  have htype := hmem.left.left.left.right
  have hclientid := hmem.left.left.right
  have hnonce := hmem.left.right
  simp only [packetHdr, Snapcastc.operationHdr, IntercomPacketHdr.mk.injEq]
  exact ⟨hversion.head_eq, htype.head_eq, hclientid.host16_eq, hnonce.host32_eq⟩

theorem handleServerOperation_eq {mem : Nat → UInt8} {op : ServerOperation}
    (hmem : Holds mem 0 (operationBytes op)) (s : Client) :
    handleServerOperation s mem (operationBytes op).length = ⟨execute s op, none⟩ := by
  have htlv : Holds mem 8 (operationTlv op) := hmem.right
  cases op with
  | stop =>
      have htype : mem 8 = tlvClientStop := htlv.head_eq
      have hlength : mem 9 = 2 := (Option.some.inj (htlv 1 (by decide : 1 < 2))).symm
      have hadvance : serverOperationAdvance mem 8 = 2 := by
        simp [serverOperationAdvance, htype, tlvGetLength, hlength]
      have hrun : intercomHandleServerOperation clientEffects 10 s mem 10 = some (stopClient s) := by
        rw [intercomHandleServerOperation, sizeofHdr,
          OffsetLoop.run_of_last (by decide) (by rw [hadvance])]
        simp [serverOperationHandle, htype, clientEffects]
      change handleServerOperation s mem 10 = _
      rw [handleServerOperation, hrun]
      rfl
  | volume percent =>
      have htype : mem 8 = tlvClientVolume := htlv.head_eq
      have hlength : mem 9 = 3 := (Option.some.inj (htlv 1 (by decide : 1 < 3))).symm
      have hvolume : mem 10 = percent := (Option.some.inj (htlv 2 (by decide : 2 < 3))).symm
      have hadvance : serverOperationAdvance mem 8 = 3 := by
        simp [serverOperationAdvance, htype, parseVolume, hlength, tlvClientVolume, tlvClientStop]
      have hrun : intercomHandleServerOperation clientEffects 11 s mem 11 =
          some (setClientVolume s percent) := by
        rw [intercomHandleServerOperation, sizeofHdr,
          OffsetLoop.run_of_last (by decide) (by rw [hadvance])]
        simp [serverOperationHandle, htype, clientEffects, parseVolume, hvolume, tlvClientVolume,
          tlvClientStop]
      change handleServerOperation s mem 11 = _
      rw [handleServerOperation, hrun]
      rfl

/-- A packet on its way to the client: a server operation, as the server has assembled it and as the
client receives it in a buffer with arbitrary contents, or an AUDIO packet. -/
inductive Delivery where
  | operation (op : ServerOperation) (packet stale : Nat → UInt8) (clock : ClientClock)
  | audio (packet : Nat → UInt8) (packetLen : Nat) (clock : ClientClock)

namespace Delivery

/-- The arrival of the packet at a client, whose mtu is 1500. -/
def event : Delivery → ClientEvent
  | .operation op packet stale clock =>
      let assembly := operationPacket packet op
      .datagram (received stale 1500 (load assembly.packet 0 assembly.packetLen)) assembly.packetLen
        clock
  | .audio packet packetLen clock => .datagram packet packetLen clock

/-- The AUDIO packets among the deliveries are AUDIO packets. -/
def WellFormed : Delivery → Prop
  | .operation .. => True
  | .audio packet _ _ => IsAudioPacket packet

def operations (deliveries : List Delivery) : List ServerOperation :=
  deliveries.filterMap fun
    | .operation op _ _ _ => some op
    | .audio .. => none

/-- No operation directly follows another one; `after` tells whether the first delivery follows
one. -/
def Separated : (after : Bool) → List Delivery → Prop
  | _, [] => True
  | after, .operation .. :: deliveries => after = false ∧ Separated true deliveries
  | _, .audio .. :: deliveries => Separated false deliveries

end Delivery

/-- The last packet the client has accepted was a server operation. -/
def afterOperation (s : Client) : Bool := intercomRecentlySeen s.recentPackets operationHdr

theorem afterOperation_of_last {s : Client} {hdr : IntercomPacketHdr}
    (hlast : s.recentPackets.getLast? = some hdr) :
    afterOperation s = true ↔ hdr.nonce = 0 ∧ hdr.type = serverOperation := by
  rw [afterOperation, intercomRecentlySeen_iff, hlast]
  constructor
  · rintro ⟨ref, href, hnonce, htype⟩
    rw [Option.some.inj href]
    exact ⟨hnonce, htype⟩
  · rintro ⟨hnonce, htype⟩
    exact ⟨hdr, rfl, hnonce, htype⟩

theorem execute_recentPackets (s : Client) (op : ServerOperation) :
    (execute s op).recentPackets = s.recentPackets := by
  cases op with
  | stop => rfl
  | volume percent => rfl

theorem execute_operations (s : Client) (op : ServerOperation) :
    (execute s op).operations = s.operations ++ [op] := by
  cases op with
  | stop => rfl
  | volume percent => rfl

theorem operationBytes_length_le (op : ServerOperation) : (operationBytes op).length ≤ 1500 := by
  cases op with
  | stop => decide
  | volume percent => exact (by decide : 11 ≤ 1500)

/-- An operation is executed, unless the last packet accepted was one. -/
theorem deliver_operation (env : ClientEnv) (s : Client) (op : ServerOperation)
    (packet stale : Nat → UInt8) (clock : ClientClock) :
    clientStep env s (Delivery.operation op packet stale clock).event =
      if afterOperation s then ⟨s, none⟩ else ⟨execute (noteRecent s operationHdr) op, none⟩ := by
  have hbytes := operationPacket_assembled packet op
  have hmem := received_holds stale (operationBytes_length_le op)
  have hhdr := Holds.operationHdr hmem
  have hevent : (Delivery.operation op packet stale clock).event =
      .datagram (received stale 1500 (operationBytes op)) (operationBytes op).length clock := by
    rw [Delivery.event, hbytes.load_eq, hbytes.length]
  rw [hevent, clientStep]
  cases hafter : afterOperation s with
  | true => exact handlePacket_of_seen (hhdr ▸ hafter)
  | false =>
      have hnew : intercomRecentlySeen s.recentPackets operationHdr = false := hafter
      unfold intercomHandlePacket
      dsimp only
      rw [hhdr, if_pos (show operationHdr.version = packetFormatVersion from rfl), hnew,
        if_neg Bool.false_ne_true, if_neg Bool.false_ne_true,
        if_pos (show operationHdr.type = serverOperation from rfl), handleServerOperation_eq hmem]

/-- An AUDIO packet executes no operation, and the next operation is executed. -/
theorem deliver_audio (env : ClientEnv) (s : Client) {packet : Nat → UInt8} (packetLen : Nat)
    (clock : ClientClock) (haudio : IsAudioPacket packet) :
    (clientStep env s (Delivery.audio packet packetLen clock).event).state.operations =
        s.operations ∧
      afterOperation (clientStep env s (Delivery.audio packet packetLen clock).event).state = false := by
  have hother : ¬((packetHdr packet).nonce = 0 ∧ (packetHdr packet).type = serverOperation) := by
    rw [haudio.2]
    rintro ⟨-, htype⟩
    exact absurd htype (by decide)
  rw [Delivery.event, clientStep]
  rcases handlePacket_audio_cases env clock s packetLen haudio with ⟨hseen, hsame⟩ | ⟨-, heffect⟩
  · rw [hsame]
    obtain ⟨ref, hlast, hnonce, htype⟩ := intercomRecentlySeen_iff.mp hseen
    refine ⟨rfl, ?_⟩
    rw [Bool.eq_false_iff, Ne, afterOperation_of_last hlast, hnonce, htype]
    exact hother
  · refine ⟨heffect.operations.trans (noteRecent_operations s (packetHdr packet)), ?_⟩
    have hlast : (intercomHandlePacket env clock s packet packetLen).state.recentPackets.getLast? =
        some (packetHdr packet) := by
      rw [heffect.recentPackets, noteRecent_recentPackets, intercomRecentlySeenAdd_getLast?]
    rw [Bool.eq_false_iff, Ne, afterOperation_of_last hlast]
    exact hother

/-- The volume that was last passed to `adjustVolume`. -/
def lastVolume (operations : List ServerOperation) : Option UInt8 :=
  (operations.filterMap fun
    | .volume percent => some percent
    | .stop => none).getLast?

/-- The client has executed all operations of the deliveries, in order; in particular the volume last
set is the one last sent. -/
def ExecutesAll (s s' : Client) (deliveries : List Delivery) : Prop :=
  s'.operations = s.operations ++ Delivery.operations deliveries ∧
    ∀ percent, lastVolume (Delivery.operations deliveries) = some percent →
      lastVolume s'.operations = some percent

theorem lastVolume_append {before operations : List ServerOperation} {percent : UInt8}
    (hlast : lastVolume operations = some percent) :
    lastVolume (before ++ operations) = some percent := by
  unfold lastVolume at hlast ⊢
  rw [List.filterMap_append, List.getLast?_append, hlast]
  rfl

theorem clientRun_cons {env : ClientEnv} {s : Client} {event : ClientEvent}
    {events : List ClientEvent} (hfault : (clientStep env s event).fault = none) :
    clientRun env s (event :: events) = clientRun env (clientStep env s event).state events := by
  rw [clientRun, hfault]

theorem clientStep_fault_of_run {env : ClientEnv} {s : Client} {event : ClientEvent}
    {events : List ClientEvent} (hrun : (clientRun env s (event :: events)).fault = none) :
    (clientStep env s event).fault = none := by
  rw [clientRun] at hrun
  cases hfault : (clientStep env s event).fault with
  | none => rfl
  | some fault =>
      rw [hfault] at hrun
      exact hfault.symm.trans hrun

section Operations

variable {env : ClientEnv} {s : Client} {deliveries : List Delivery}

/-- Operations may get lost, but no others are executed. -/
theorem clientRun_operations (hwell : ∀ delivery ∈ deliveries, delivery.WellFormed)
    (hrun : (clientRun env s (deliveries.map Delivery.event)).fault = none) :
    ∃ executed, (clientRun env s (deliveries.map Delivery.event)).state.operations =
        s.operations ++ executed ∧ executed.Sublist (Delivery.operations deliveries) := by
  induction deliveries generalizing s with
  | nil => exact ⟨[], (List.append_nil _).symm, List.Sublist.refl _⟩
  | cons delivery deliveries ih =>
      have hrest : ∀ other ∈ deliveries, other.WellFormed :=
        fun other hother => hwell other (List.mem_cons_of_mem _ hother)
      rw [List.map_cons] at hrun ⊢
      have hfault := clientStep_fault_of_run hrun
      rw [clientRun_cons hfault] at hrun ⊢
      obtain ⟨executed, hexecuted, hsub⟩ := ih hrest hrun
      rw [hexecuted]
      cases delivery with
      | operation op packet stale clock =>
          rw [deliver_operation]
          split
          · exact ⟨executed, rfl, hsub.cons op⟩
          · refine ⟨op :: executed, ?_, hsub.cons_cons op⟩
            rw [execute_operations, noteRecent_operations, List.append_assoc]
            rfl
      | audio packet packetLen clock =>
          have haudio : IsAudioPacket packet := hwell _ List.mem_cons_self
          rw [(deliver_audio env s packetLen clock haudio).1]
          exact ⟨executed, rfl, hsub⟩

theorem operations_iff_separated (hwell : ∀ delivery ∈ deliveries, delivery.WellFormed)
    (hrun : (clientRun env s (deliveries.map Delivery.event)).fault = none) :
    (clientRun env s (deliveries.map Delivery.event)).state.operations =
        s.operations ++ Delivery.operations deliveries ↔
      Delivery.Separated (afterOperation s) deliveries := by
  induction deliveries generalizing s with
  | nil => exact ⟨fun _ => trivial, fun _ => (List.append_nil _).symm⟩
  | cons delivery deliveries ih =>
      have hrest : ∀ other ∈ deliveries, other.WellFormed :=
        fun other hother => hwell other (List.mem_cons_of_mem _ hother)
      rw [List.map_cons] at hrun ⊢
      have hfault := clientStep_fault_of_run hrun
      rw [clientRun_cons hfault] at hrun ⊢
      cases delivery with
      | operation op packet stale clock =>
          have hops : Delivery.operations (.operation op packet stale clock :: deliveries) =
              op :: Delivery.operations deliveries := rfl
          rw [Delivery.Separated, hops]
          rw [deliver_operation] at hrun ⊢
          cases hafter : afterOperation s with
          | true =>
              -- The operation is dropped, and the others are not enough to make up for it.
              rw [hafter, if_pos rfl] at hrun
              obtain ⟨executed, hexecuted, hsub⟩ := clientRun_operations hrest hrun
              refine ⟨fun heq => ?_, fun hsep => absurd hsep.1 (by decide)⟩
              rw [if_pos rfl, hexecuted] at heq
              have hlength := congrArg List.length (List.append_cancel_left heq)
              have hshort := hsub.length_le
              rw [List.length_cons] at hlength
              omega
          | false =>
              rw [hafter, if_neg Bool.false_ne_true] at hrun
              have hlast : (execute (noteRecent s operationHdr) op).recentPackets.getLast? =
                  some operationHdr := by
                rw [execute_recentPackets, noteRecent_recentPackets,
                  intercomRecentlySeenAdd_getLast?]
              have hnext : afterOperation (execute (noteRecent s operationHdr) op) = true :=
                (afterOperation_of_last hlast).mpr ⟨rfl, rfl⟩
              have hiff := ih hrest hrun
              rw [hnext, execute_operations, noteRecent_operations, List.append_assoc] at hiff
              rw [if_neg Bool.false_ne_true]
              exact hiff.trans (by simp)
      | audio packet packetLen clock =>
          have haudio : IsAudioPacket packet := hwell _ List.mem_cons_self
          obtain ⟨hsame, hnext⟩ := deliver_audio env s packetLen clock haudio
          have hiff := ih hrest hrun
          rw [hsame, hnext] at hiff
          exact hiff

/-- In a run that does not end the process, the client executes all server operations exactly when
none of them directly follows another one, nor the first one an operation the client has accepted
last. -/
theorem operationsExecuted_iff (hwell : ∀ delivery ∈ deliveries, delivery.WellFormed)
    (hrun : (clientRun env s (deliveries.map Delivery.event)).fault = none) :
    ExecutesAll s (clientRun env s (deliveries.map Delivery.event)).state deliveries ↔
      Delivery.Separated (afterOperation s) deliveries := by
  rw [← operations_iff_separated hwell hrun]
  refine ⟨fun hall => hall.1, fun hops => ⟨hops, fun percent hlast => ?_⟩⟩
  rw [hops]
  exact lastVolume_append hlast

end Operations

/-- A volume and a stop with an AUDIO packet in between. -/
theorem operationsExecuted_separated :
    let deliveries := [Delivery.operation (.volume 30) (fun _ => 0) (fun _ => 0) beforeDue,
      .audio (audioPacketAt 5) 35 beforeDue, .operation .stop (fun _ => 0) (fun _ => 0) beforeDue]
    ExecutesAll (clientAt 4) (clientRun anyDevice (clientAt 4) (deliveries.map Delivery.event)).state
      deliveries := by
  intro deliveries
  refine (operationsExecuted_iff ?_ (by decide +kernel)).mpr ⟨by decide, by decide, trivial⟩
  simp only [deliveries, List.forall_mem_cons]
  exact ⟨trivial, show IsAudioPacket (audioPacketAt 5) by decide +kernel, trivial, by simp⟩

/-- Of two volumes that directly follow each other, the second is lost. -/
theorem second_volume_lost :
    let deliveries := [Delivery.operation (.volume 30) (fun _ => 0) (fun _ => 0) beforeDue,
      .operation (.volume 60) (fun _ => 0) (fun _ => 0) beforeDue]
    ¬ExecutesAll (freshClient 7 true none)
      (clientRun anyDevice (freshClient 7 true none) (deliveries.map Delivery.event)).state
      deliveries := by
  intro deliveries hall
  have hops : (clientRun anyDevice (freshClient 7 true none)
      (deliveries.map Delivery.event)).state.operations = [.volume 30] := by
    decide +kernel
  have hsent := hall.1
  rw [hops] at hsent
  exact absurd hsent (by decide)

/-! ### Repeated AUDIO packets -/

/-- Every datagram among the events is an AUDIO packet. -/
def ClientEvent.AudioOnly : ClientEvent → Prop
  | .datagram packet _ _ => IsAudioPacket packet
  | .nextChunk => True

/-- A datagram that repeats a recent packet, or a packet whose chunk is still in the receive buffer,
repeats the packet that was accepted last. -/
def RepeatsLast (s : Client) : ClientEvent → Prop
  | .datagram packet _ _ =>
      (∃ ref ∈ dropOldest intercomMaxRecent s.recentPackets,
        sameNonceAndType (packetHdr packet) ref = true) ∨ (packetHdr packet).nonce ∈ heldSeqnos s →
      ∃ last ∈ s.recentPackets.getLast?, sameNonceAndType (packetHdr packet) last = true
  | .nextChunk => True

theorem intercomRecentlySeen_last {recentPackets : List IntercomPacketHdr} {hdr last : IntercomPacketHdr}
    (hlast : last ∈ recentPackets.getLast?) (hsame : sameNonceAndType hdr last = true) :
    intercomRecentlySeen recentPackets hdr = true := by
  obtain ⟨hnonce, htype⟩ := (Bool.and_eq_true _ _).mp hsame
  exact intercomRecentlySeen_iff.mpr ⟨last, hlast, eq_of_beq hnonce, eq_of_beq htype⟩

/-- All datagrams of a run that repeat a packet repeat the one accepted last. -/
def DirectRepeats (env : ClientEnv) : Client → List ClientEvent → Prop
  | _, [] => True
  | s, event :: events =>
      RepeatsLast s event ∧
        ((clientStep env s event).fault = none →
          DirectRepeats env (clientStep env s event).state events)

/-- The header of a datagram that `intercom_handle_packet` accepts. -/
def acceptedPacket (s : Client) : ClientEvent → List IntercomPacketHdr
  | .datagram packet _ _ =>
      if (packetHdr packet).version = packetFormatVersion ∧
        intercomRecentlySeen s.recentPackets (packetHdr packet) = false then [packetHdr packet] else []
  | .nextChunk => []

/-- The headers of the datagrams that are accepted in a run. -/
def acceptedPackets (env : ClientEnv) : Client → List ClientEvent → List IntercomPacketHdr
  | _, [] => []
  | s, event :: events =>
      acceptedPacket s event ++
        match (clientStep env s event).fault with
        | none => acceptedPackets env (clientStep env s event).state events
        | some _ => []

/-- Trimming a list before an entry is added does not change what is left of it afterwards. -/
theorem dropOldest_append_singleton {α : Type} {maxsize : Nat} (hpos : 0 < maxsize) (entries : List α)
    (entry : α) :
    dropOldest maxsize (dropOldest maxsize entries ++ [entry]) =
      dropOldest maxsize (entries ++ [entry]) := by
  unfold dropOldest
  rw [List.length_append, List.length_append, List.length_drop, List.length_singleton]
  rcases Nat.lt_or_ge entries.length maxsize with hshort | hlong
  · rw [Nat.sub_eq_zero_of_le hshort.le, List.drop_zero, Nat.sub_zero]
  · rw [show entries.length - (entries.length - maxsize) + 1 - maxsize = 1 by omega,
      show entries.length + 1 - maxsize = entries.length - maxsize + 1 by omega,
      List.drop_append_of_le_length (by rw [List.length_drop]; omega), List.drop_drop,
      List.drop_append_of_le_length (by omega)]

/-- What holds between two events: the receive buffer holds no two chunks with the same number, and
the recent packets end as the accepted ones do. -/
structure NoRepeatHeld (s : Client) (accepted : List IntercomPacketHdr) : Prop where
  nodup : (heldSeqnos s).Nodup
  recent : dropOldest intercomMaxRecent accepted = dropOldest intercomMaxRecent s.recentPackets

namespace NoRepeatHeld

variable {env : ClientEnv} {s : Client} {accepted : List IntercomPacketHdr}

theorem datagram (hinv : NoRepeatHeld s accepted) {packet : Nat → UInt8} (packetLen : Nat)
    (clock : ClientClock) (haudio : IsAudioPacket packet)
    (hrepeat : RepeatsLast s (.datagram packet packetLen clock)) :
    NoRepeatHeld (clientStep env s (.datagram packet packetLen clock)).state
      (accepted ++ acceptedPacket s (.datagram packet packetLen clock)) := by
  rw [clientStep, acceptedPacket]
  rcases handlePacket_audio_cases env clock s packetLen haudio with ⟨hold, hsame⟩ | ⟨hnew, heffect⟩
  · rw [hsame, if_neg (by rw [hold]; simp), List.append_nil]
    exact hinv
  · rw [if_pos ⟨haudio.1, hnew⟩]
    have hheld := heffect.held
    rw [heldSeqnos_noteRecent] at hheld
    have hfresh : (packetHdr packet).nonce ∉ heldSeqnos s := by
      intro hmem
      obtain ⟨last, hlast, hsame⟩ := hrepeat (.inr hmem)
      rw [intercomRecentlySeen_last hlast hsame] at hnew
      exact absurd hnew (by decide)
    obtain ⟨middle, hperm, hsub⟩ := hheld
    refine ⟨hperm.nodup_iff.mp (hsub.nodup (List.nodup_cons.mpr ⟨hfresh, hinv.nodup⟩)), ?_⟩
    rw [heffect.recentPackets, noteRecent_recentPackets, intercomRecentlySeenAdd,
      ← dropOldest_append_singleton (by decide) accepted, hinv.recent]

theorem nextChunk (hinv : NoRepeatHeld s accepted) :
    NoRepeatHeld (clientStep env s .nextChunk).state (accepted ++ acceptedPacket s .nextChunk) := by
  have hheld : (heldSeqnos (intercomGetnextaudiochunk s).2).Subperm (heldSeqnos s) := by
    unfold heldSeqnos intercomGetnextaudiochunk
    cases s.receivebuffer with
    | none => exact List.Subperm.refl _
    | some buffer => exact subperm_map StoredChunk.seqno buffer.dequeue_subperm
  obtain ⟨middle, hperm, hsub⟩ := hheld
  rw [acceptedPacket, List.append_nil]
  exact ⟨hperm.nodup_iff.mp (hsub.nodup hinv.nodup), hinv.recent⟩

theorem step (env : ClientEnv) (hinv : NoRepeatHeld s accepted) {event : ClientEvent} (haudio : event.AudioOnly)
    (hrepeat : RepeatsLast s event) :
    NoRepeatHeld (clientStep env s event).state (accepted ++ acceptedPacket s event) := by
  cases event with
  | datagram packet packetLen clock => exact hinv.datagram packetLen clock haudio hrepeat
  | nextChunk => exact hinv.nextChunk

/-- The invariant holds after a run, and at the point where a run ended the process. -/
theorem run (hinv : NoRepeatHeld s accepted) {events : List ClientEvent}
    (haudio : ∀ event ∈ events, event.AudioOnly) (hrepeats : DirectRepeats env s events) :
    NoRepeatHeld (clientRun env s events).state (accepted ++ acceptedPackets env s events) := by
  induction events generalizing s accepted with
  | nil =>
      rw [acceptedPackets, List.append_nil]
      exact hinv
  | cons event events ih =>
      have hnext := hinv.step env (haudio event List.mem_cons_self) hrepeats.1
      have hrest := hrepeats.2
      rw [clientRun, acceptedPackets]
      cases hfault : (clientStep env s event).fault with
      | none =>
          rw [← List.append_assoc]
          exact ih hnext (fun other hother => haudio other (List.mem_cons_of_mem _ hother))
            (hrest hfault)
      | some fault =>
          rw [List.append_nil]
          exact hnext

end NoRepeatHeld

/-- The condition on a run is one on its beginning and on what happens next. -/
theorem DirectRepeats.append {env : ClientEnv} {s : Client} {pre post : List ClientEvent}
    (hrepeats : DirectRepeats env s (pre ++ post)) :
    DirectRepeats env s pre ∧ ((clientRun env s pre).fault = none →
      DirectRepeats env (clientRun env s pre).state post) := by
  induction pre generalizing s with
  | nil => exact ⟨trivial, fun _ => hrepeats⟩
  | cons event pre ih =>
      refine ⟨⟨hrepeats.1, fun hfault => (ih (hrepeats.2 hfault)).1⟩, fun hrun => ?_⟩
      have hfault := clientStep_fault_of_run hrun
      rw [clientRun_cons hfault] at hrun ⊢
      exact (ih (hrepeats.2 hfault)).2 hrun

theorem freshClient_noRepeatHeld (nonce : UInt32) (softvol : Bool) (mixer : Option Mixer) :
    NoRepeatHeld (freshClient nonce softvol mixer) [] := ⟨List.nodup_nil, rfl⟩

/-- In a run in which every repeated AUDIO packet repeats the packet accepted last, a packet with the
number and the type of one of the last `INTERCOM_MAX_RECENT` accepted packets is dropped without a
trace, and the receive buffer never holds two chunks with the same number. -/
theorem repeatedAudio_dropped (env : ClientEnv) (nonce : UInt32) (softvol : Bool)
    (mixer : Option Mixer) (events : List ClientEvent)
    (haudio : ∀ event ∈ events, event.AudioOnly)
    (hrepeats : DirectRepeats env (freshClient nonce softvol mixer) events) :
    let start := freshClient nonce softvol mixer
    ∀ pre, pre <+: events →
      (heldSeqnos (clientRun env start pre).state).Nodup ∧
      ∀ packet packetLen clock, pre ++ [.datagram packet packetLen clock] <+: events →
        (clientRun env start pre).fault = none →
        ∀ ref ∈ dropOldest intercomMaxRecent (acceptedPackets env start pre),
          sameNonceAndType (packetHdr packet) ref = true →
          clientStep env (clientRun env start pre).state (.datagram packet packetLen clock) =
            ⟨(clientRun env start pre).state, none⟩ := by
  rintro start pre ⟨post, rfl⟩
  obtain ⟨hpre, hpost⟩ := hrepeats.append
  have hinv := (freshClient_noRepeatHeld nonce softvol mixer).run
    (fun event hmem => haudio event (List.mem_append_left _ hmem)) hpre
  refine ⟨hinv.nodup, fun packet packetLen clock hnext hfault ref href hsame => ?_⟩
  obtain ⟨post', heq⟩ := hnext
  rw [List.append_assoc, List.append_right_inj] at heq
  rw [← heq] at hpost
  rw [List.nil_append] at hinv
  rw [hinv.recent] at href
  obtain ⟨last, hlast, hrepeated⟩ := (hpost hfault).1 (.inl ⟨ref, href, hsame⟩)
  exact handlePacket_of_seen (intercomRecentlySeen_last hlast hrepeated)

instance (s : Client) : (event : ClientEvent) → Decidable (RepeatsLast s event)
  | .datagram packet _ _ =>
      inferInstanceAs (Decidable ((∃ ref ∈ dropOldest intercomMaxRecent s.recentPackets,
        sameNonceAndType (packetHdr packet) ref = true) ∨
          (packetHdr packet).nonce ∈ heldSeqnos s →
        ∃ last ∈ s.recentPackets.getLast?, sameNonceAndType (packetHdr packet) last = true))
  | .nextChunk => inferInstanceAs (Decidable True)

instance decidableDirectRepeats (env : ClientEnv) :
    (s : Client) → (events : List ClientEvent) → Decidable (DirectRepeats env s events)
  | _, [] => inferInstanceAs (Decidable True)
  | s, event :: events =>
      have := decidableDirectRepeats env (clientStep env s event).state events
      inferInstanceAs (Decidable (RepeatsLast s event ∧ ((clientStep env s event).fault = none →
        DirectRepeats env (clientStep env s event).state events)))

/-- A packet that arrives twice in a row, with a chunk played in between. -/
theorem repeatedAudio_dropped_directly :
    (heldSeqnos (clientRun anyDevice (freshClient 7 true none)
      [.datagram (audioPacketAt 1) 35 beforeDue, .nextChunk, .datagram (audioPacketAt 1) 35 beforeDue,
        .datagram (audioPacketAt 2) 35 beforeDue]).state).Nodup := by
  refine (repeatedAudio_dropped anyDevice 7 true none _ ?_ (by decide +kernel) _
    (List.prefix_refl _)).1
  have haudio : IsAudioPacket (audioPacketAt 1) ∧ IsAudioPacket (audioPacketAt 2) := by
    decide +kernel
  simp only [List.forall_mem_cons]
  exact ⟨haudio.1, trivial, haudio.1, haudio.2, by simp⟩

/-- When the packets 1, 2 and 1 arrive at a fresh client, its receive buffer holds the chunk of packet
1 twice. -/
theorem repeatedAudio_held_twice :
    (∀ event ∈ [ClientEvent.datagram (audioPacketAt 1) 35 beforeDue,
      .datagram (audioPacketAt 2) 35 beforeDue, .datagram (audioPacketAt 1) 35 beforeDue],
      event.AudioOnly) ∧
    ¬(heldSeqnos (clientRun anyDevice (freshClient 7 true none)
      [.datagram (audioPacketAt 1) 35 beforeDue, .datagram (audioPacketAt 2) 35 beforeDue,
        .datagram (audioPacketAt 1) 35 beforeDue]).state).Nodup := by
  have haudio : IsAudioPacket (audioPacketAt 1) ∧ IsAudioPacket (audioPacketAt 2) := by
    decide +kernel
  refine ⟨?_, by decide +kernel⟩
  simp only [List.forall_mem_cons]
  exact ⟨haudio.1, haudio.2, haudio.1, by simp⟩

end Snapcastc
