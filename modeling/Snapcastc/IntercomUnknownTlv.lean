import Snapcastc.IntercomOperations
import Snapcastc.IntercomServerIsolation

/-! TLVs of an unknown type in operation packets. Both loops take the distance to the next TLV from the byte
behind the length byte, so after an unknown TLV they go on wherever its value says. -/

namespace Snapcastc

open Bytes

/-- A TLV whose length byte says how many bytes it has altogether. -/
structure Tlv where
  type : UInt8
  payload : List UInt8
  fits : payload.length + 2 < 2 ^ 8

/-- The number of bytes of a TLV. -/
def Tlv.size (tlv : Tlv) : Nat := tlv.payload.length + 2

def Tlv.bytes (tlv : Tlv) : List UInt8 := [tlv.type, UInt8.ofNat tlv.size] ++ tlv.payload

def tlvPacket (hdr : IntercomPacketHdr) (tlvs : List Tlv) : List UInt8 :=
  hdrBytes hdr ++ tlvs.flatMap Tlv.bytes

def tlvBuffer (stale : Nat → UInt8) (hdr : IntercomPacketHdr) (tlvs : List Tlv) : Nat → UInt8 :=
  received stale (tlvPacket hdr tlvs).length (tlvPacket hdr tlvs)

/-! ### The two loops -/

/-- A loop over TLVs: the types it knows, how many bytes a TLV of such a type is read from and what values
these are, what it does at an offset, and effects that count and that record what it does. -/
structure TlvLoop where
  known : List UInt8
  reads : UInt8 → Nat
  Effects : Type → Type
  run : {σ : Type} → Effects σ → Nat → σ → (Nat → UInt8) → Nat → Option σ
  handle : {σ : Type} → Effects σ → (Nat → UInt8) → σ → Nat → σ
  count : Effects Nat
  values : (Nat → UInt8) → Nat → List Nat
  record : Effects (List (List Nat))

def helloValues (hello : Hello) : List Nat := [hello.id.toNat, hello.latency.toNat, hello.volumePercent.toNat]

/-- `intercom_handle_client_operation`. -/
def serverLoop : TlvLoop where
  known := [tlvHello, tlvRequest]
  reads := tlvSize
  Effects := ClientOperationEffects
  run := intercomHandleClientOperation
  handle := clientOperationHandle
  count := ⟨fun n _ => n + 1, fun n _ _ => n + 1⟩
  values := fun packet offset =>
    if packet offset = tlvHello then helloValues (parseHello packet offset).1
    else [(parseRequest packet offset).1.toNat]
  record := ⟨fun done hello => done ++ [helloValues hello], fun done _ nonce => done ++ [[nonce.toNat]]⟩

/-- `intercom_handle_server_operation`. -/
def clientLoop : TlvLoop where
  known := [tlvClientStop, tlvClientVolume]
  reads := fun type => if type = tlvClientVolume then 3 else 2
  Effects := ServerOperationEffects
  run := intercomHandleServerOperation
  handle := serverOperationHandle
  count := ⟨fun n => n + 1, fun n _ => n + 1⟩
  values := fun packet offset =>
    if packet offset = tlvClientStop then [] else [(parseVolume packet offset).1.toNat]
  record := ⟨fun done => done ++ [[]], fun done volume => done ++ [[volume.toNat]]⟩

def TlvLoop.advance (loop : TlvLoop) (packet : Nat → UInt8) (offset : Nat) : Nat :=
  (lengthByte loop.known packet offset).toNat

/-- What the two loops have in common. -/
structure TlvLoop.Lawful (loop : TlvLoop) : Prop where
  run_eq : ∀ {σ : Type} (effects : loop.Effects σ) rounds s packet packetLen,
    loop.run effects rounds s packet packetLen =
      OffsetLoop.run (loop.advance packet) (loop.handle effects packet) packetLen rounds s sizeofHdr
  unknown : ∀ {σ : Type} (effects : loop.Effects σ) packet offset, packet offset ∉ loop.known →
    ∀ s, loop.handle effects packet s offset = s
  reading : ∀ {σ : Type} (effects : loop.Effects σ) packet packet' offset offset',
    packetHdr packet' = packetHdr packet → packet offset ∈ loop.known →
      (∀ i < loop.reads (packet offset), packet' (offset' + i) = packet (offset + i)) →
        ∀ s, loop.handle effects packet' s offset' = loop.handle effects packet s offset
  counting : ∀ packet offset, packet offset ∈ loop.known →
    ∀ n, loop.handle loop.count packet n offset = n + 1
  recording : ∀ packet offset, packet offset ∈ loop.known →
    ∀ done, loop.handle loop.record packet done offset = done ++ [loop.values packet offset]
  telling : ∀ packet packet' offset offset', packet offset ∈ loop.known → packet' offset' = packet offset →
    packet' (offset' + 1) = packet (offset + 1) → loop.values packet' offset' = loop.values packet offset →
      ∀ i < loop.reads (packet offset), packet' (offset' + i) = packet (offset + i)

section

variable {σ : Type} {packet packet' : Nat → UInt8} {offset offset' : Nat}

theorem clientOperationHandle_unknown (effects : ClientOperationEffects σ)
    (hunknown : packet offset ∉ [tlvHello, tlvRequest]) (s : σ) :
    clientOperationHandle effects packet s offset = s := by
  have hnot : ¬packet offset = tlvHello ∧ ¬packet offset = tlvRequest := by simpa using hunknown
  rw [clientOperationHandle, if_neg hnot.1, if_neg hnot.2]

theorem clientOperationHandle_reading (effects : ClientOperationEffects σ)
    (hhdr : packetHdr packet' = packetHdr packet)
    (hsame : ∀ i < tlvSize (packet offset), packet' (offset' + i) = packet (offset + i)) (s : σ) :
    clientOperationHandle effects packet' s offset' = clientOperationHandle effects packet s offset := by
  have htype : packet' offset' = packet offset := hsame 0 (Nat.lt_of_lt_of_le (by decide) (tlvSize_pos _))
  rw [clientOperationHandle, clientOperationHandle, htype, hhdr]
  unfold tlvSize at hsame
  split_ifs at hsame ⊢ with hhello hrequest
  · have hread : parseHello packet' offset' = parseHello packet offset := by
      simp only [parseHello, host16, host32, Nat.add_assoc, hsame 1 (by decide), hsame 2 (by decide),
        hsame 3 (by decide), hsame 4 (by decide), hsame 5 (by decide), hsame 6 (by decide),
        hsame 7 (by decide), hsame 8 (by decide), Nat.reduceAdd]
    rw [hread]
  · have hread : parseRequest packet' offset' = parseRequest packet offset := by
      simp only [parseRequest, host32, Nat.add_assoc, hsame 1 (by decide), hsame 2 (by decide),
        hsame 3 (by decide), hsame 4 (by decide), hsame 5 (by decide), Nat.reduceAdd]
    rw [hread]
  · rfl

theorem clientOperationHandle_counting (hknown : packet offset ∈ [tlvHello, tlvRequest]) (n : Nat) :
    clientOperationHandle ⟨fun n _ => n + 1, fun n _ _ => n + 1⟩ packet n offset = n + 1 := by
  have htype : packet offset = tlvHello ∨ packet offset = tlvRequest := by simpa using hknown
  rw [clientOperationHandle]
  split_ifs with hhello hrequest
  · rfl
  · rfl
  · exact absurd htype (not_or_intro hhello hrequest)

theorem clientOperationHandle_recording (hknown : packet offset ∈ [tlvHello, tlvRequest])
    (done : List (List Nat)) :
    clientOperationHandle serverLoop.record packet done offset = done ++ [serverLoop.values packet offset] := by
  have htype : packet offset = tlvHello ∨ packet offset = tlvRequest := by simpa using hknown
  change (if packet offset = tlvHello then _ else if packet offset = tlvRequest then _ else _) =
    done ++ [if packet offset = tlvHello then _ else _]
  split_ifs with hhello hrequest
  · rfl
  · rfl
  · exact absurd htype (not_or_intro hhello hrequest)

/-- A HELLO and a REQUEST tell the bytes that they are read from. -/
theorem serverLoop_telling (hknown : packet offset ∈ [tlvHello, tlvRequest])
    (htype : packet' offset' = packet offset) (hlength : packet' (offset' + 1) = packet (offset + 1))
    (hvalues : serverLoop.values packet' offset' = serverLoop.values packet offset) :
    ∀ i < tlvSize (packet offset), packet' (offset' + i) = packet (offset + i) := by
  change (if packet' offset' = tlvHello then helloValues _ else _) =
    if packet offset = tlvHello then helloValues _ else _ at hvalues
  rw [htype] at hvalues
  intro i hi
  rw [tlvSize] at hi
  by_cases hhello : packet offset = tlvHello
  · rw [if_pos hhello, if_pos hhello] at hvalues
    rw [if_pos hhello] at hi
    obtain ⟨hid, hlatency, hvolume, -⟩ : (parseHello packet' offset').1.id.toNat = _ ∧ _ ∧ _ ∧ _ := by
      simpa only [helloValues, List.cons.injEq] using hvalues
    obtain ⟨h2, h3⟩ := host16_inj (UInt16.toNat_inj.mp hid)
    obtain ⟨h4, h5, h6, h7⟩ := host32_inj (UInt32.toNat_inj.mp hlatency)
    have h8 : packet' (offset' + 8) = packet (offset + 8) := UInt8.toNat_inj.mp hvolume
    rcases (by omega : i = 0 ∨ i = 1 ∨ i = 2 ∨ i = 3 ∨ i = 4 ∨ i = 5 ∨ i = 6 ∨ i = 7 ∨ i = 8) with
      rfl | rfl | rfl | rfl | rfl | rfl | rfl | rfl | rfl <;> assumption
  · have hrequest : packet offset = tlvRequest := by simpa [hhello] using hknown
    rw [if_neg hhello, if_neg hhello] at hvalues
    rw [if_neg hhello, if_pos hrequest] at hi
    obtain ⟨h2, h3, h4, h5⟩ := host32_inj (UInt32.toNat_inj.mp (List.singleton_inj.mp hvalues))
    rcases (by omega : i = 0 ∨ i = 1 ∨ i = 2 ∨ i = 3 ∨ i = 4 ∨ i = 5) with
      rfl | rfl | rfl | rfl | rfl | rfl <;> assumption

theorem serverOperationHandle_unknown (effects : ServerOperationEffects σ)
    (hunknown : packet offset ∉ [tlvClientStop, tlvClientVolume]) (s : σ) :
    serverOperationHandle effects packet s offset = s := by
  have hnot : ¬packet offset = tlvClientStop ∧ ¬packet offset = tlvClientVolume := by simpa using hunknown
  rw [serverOperationHandle, if_neg hnot.1, if_neg hnot.2]

theorem serverOperationHandle_reading (effects : ServerOperationEffects σ)
    (hsame : ∀ i < (if packet offset = tlvClientVolume then 3 else 2),
      packet' (offset' + i) = packet (offset + i)) (s : σ) :
    serverOperationHandle effects packet' s offset' = serverOperationHandle effects packet s offset := by
  have htype : packet' offset' = packet offset := hsame 0 (by split_ifs <;> decide)
  rw [serverOperationHandle, serverOperationHandle, htype]
  by_cases hvolume : packet offset = tlvClientVolume
  · rw [if_pos hvolume] at hsame
    have hread : parseVolume packet' offset' = parseVolume packet offset := by
      simp only [parseVolume, hsame 1 (by decide), hsame 2 (by decide)]
    rw [hread]
  · rw [if_neg hvolume, if_neg hvolume]

theorem serverOperationHandle_counting (hknown : packet offset ∈ [tlvClientStop, tlvClientVolume])
    (n : Nat) :
    serverOperationHandle ⟨fun n => n + 1, fun n _ => n + 1⟩ packet n offset = n + 1 := by
  have htype : packet offset = tlvClientStop ∨ packet offset = tlvClientVolume := by simpa using hknown
  rw [serverOperationHandle]
  split_ifs with hstop hvolume
  · rfl
  · rfl
  · exact absurd htype (not_or_intro hstop hvolume)

theorem serverOperationHandle_recording (hknown : packet offset ∈ [tlvClientStop, tlvClientVolume])
    (done : List (List Nat)) :
    serverOperationHandle clientLoop.record packet done offset = done ++ [clientLoop.values packet offset] := by
  have htype : packet offset = tlvClientStop ∨ packet offset = tlvClientVolume := by simpa using hknown
  change (if packet offset = tlvClientStop then _ else if packet offset = tlvClientVolume then _ else _) =
    done ++ [if packet offset = tlvClientStop then _ else _]
  split_ifs with hstop hvolume
  · rfl
  · rfl
  · exact absurd htype (not_or_intro hstop hvolume)

theorem clientLoop_telling (htype : packet' offset' = packet offset)
    (hlength : packet' (offset' + 1) = packet (offset + 1))
    (hvalues : clientLoop.values packet' offset' = clientLoop.values packet offset) :
    ∀ i < (if packet offset = tlvClientVolume then 3 else 2), packet' (offset' + i) = packet (offset + i) := by
  change (if packet' offset' = tlvClientStop then [] else [(parseVolume packet' offset').1.toNat]) =
    if packet offset = tlvClientStop then [] else [(parseVolume packet offset).1.toNat] at hvalues
  rw [htype] at hvalues
  intro i hi
  split_ifs at hi with hvolume
  · have hstop : ¬packet offset = tlvClientStop := by
      rw [hvolume]
      decide
    rw [if_neg hstop, if_neg hstop] at hvalues
    have h2 : packet' (offset' + 2) = packet (offset + 2) := UInt8.toNat_inj.mp (List.singleton_inj.mp hvalues)
    rcases (by omega : i = 0 ∨ i = 1 ∨ i = 2) with rfl | rfl | rfl <;> assumption
  · rcases (by omega : i = 0 ∨ i = 1) with rfl | rfl <;> assumption

end

theorem serverLoop_lawful : serverLoop.Lawful where
  run_eq := fun effects rounds s packet packetLen => by
    have hadvance : serverLoop.advance packet = clientOperationAdvance packet :=
      (clientOperationAdvance_eq packet).symm
    rw [hadvance]
    rfl
  unknown := fun effects _ _ hunknown s => clientOperationHandle_unknown effects hunknown s
  reading := fun effects _ _ _ _ hhdr _ hsame s => clientOperationHandle_reading effects hhdr hsame s
  counting := fun _ _ hknown n => clientOperationHandle_counting hknown n
  recording := fun _ _ hknown done => clientOperationHandle_recording hknown done
  telling := fun _ _ _ _ hknown htype hlength hvalues => serverLoop_telling hknown htype hlength hvalues

theorem clientLoop_lawful : clientLoop.Lawful where
  run_eq := fun effects rounds s packet packetLen => by
    have hadvance : clientLoop.advance packet = serverOperationAdvance packet :=
      (serverOperationAdvance_eq packet).symm
    rw [hadvance]
    rfl
  unknown := fun effects _ _ hunknown s => serverOperationHandle_unknown effects hunknown s
  reading := fun effects _ _ _ _ _ _ hsame s => serverOperationHandle_reading effects hsame s
  counting := fun _ _ hknown n => serverOperationHandle_counting hknown n
  recording := fun _ _ hknown done => serverOperationHandle_recording hknown done
  telling := fun _ _ _ _ _ htype hlength hvalues => clientLoop_telling htype hlength hvalues

/-- At an offset the loop comes to there is no type it knows. -/
def TlvLoop.Unknown (loop : TlvLoop) (packet : Nat → UInt8) (offset : Nat) : Prop :=
  packet offset ∉ loop.known

/-- From the offset the loop is at, it gets over pieces of unknown types to the next known TLV, from there
in the same way to the next one, and after the last one to the end of the packet. The TLVs start at a
position. -/
def TlvLoop.Resynchronises (loop : TlvLoop) (packet : Nat → UInt8) (packetLen : Nat) :
    (offset position : Nat) → List Tlv → Prop
  | offset, _, [] => ∃ last, packetLen ≤ last ∧
      OffsetLoop.Reaches (loop.Unknown packet) (loop.advance packet) packetLen offset last
  | offset, position, tlv :: tlvs =>
      if tlv.type ∈ loop.known then
        OffsetLoop.Reaches (loop.Unknown packet) (loop.advance packet) packetLen offset position ∧
          loop.Resynchronises packet packetLen (position + tlv.size) (position + tlv.size) tlvs
      else loop.Resynchronises packet packetLen offset (position + tlv.size) tlvs

def TlvLoop.knownStarts (loop : TlvLoop) : (position : Nat) → List Tlv → List Nat
  | _, [] => []
  | position, tlv :: tlvs =>
      if tlv.type ∈ loop.known then position :: loop.knownStarts (position + tlv.size) tlvs
      else loop.knownStarts (position + tlv.size) tlvs

/-- Known types are found nowhere but at the start of a known TLV. -/
def TlvLoop.OnlyMeant (loop : TlvLoop) (packet : Nat → UInt8) (packetLen offset position : Nat)
    (tlvs : List Tlv) : Prop :=
  ∀ visited, OffsetLoop.Visits (loop.advance packet) packetLen offset visited → visited < packetLen →
    packet visited ∈ loop.known → visited ∈ loop.knownStarts position tlvs

def TlvLoop.knownTlvs (loop : TlvLoop) (tlvs : List Tlv) : List Tlv :=
  tlvs.filter fun tlv => decide (tlv.type ∈ loop.known)

/-- Every known TLV is read from the same bytes in both packets. One that is shorter than what is read may be
read from a TLV that was removed, or from beyond the packet. -/
def TlvLoop.ReadsSame (loop : TlvLoop) (tlvs : List Tlv) (packet packet' : Nat → UInt8) : Prop :=
  List.Forall₂
    (fun offset offset' => ∀ i < loop.reads (packet offset), packet' (offset' + i) = packet (offset + i))
    (loop.knownStarts sizeofHdr tlvs) (loop.knownStarts sizeofHdr (loop.knownTlvs tlvs))

/-- The loop ends with the same effect on the packet and on the packet without the unknown TLVs. -/
def TlvLoop.SkipsUnknown (loop : TlvLoop) (hdr : IntercomPacketHdr) (tlvs : List Tlv)
    (packet packet' : Nat → UInt8) : Prop :=
  ∀ (σ : Type) (effects : loop.Effects σ) (s : σ), ∃ rounds result,
    loop.run effects rounds s packet (tlvPacket hdr tlvs).length = some result ∧
      loop.run effects rounds s packet' (tlvPacket hdr (loop.knownTlvs tlvs)).length = some result

/-! ### Packets that resynchronise -/

namespace TlvLoop

variable {loop : TlvLoop} {hdr : IntercomPacketHdr} {packet : Nat → UInt8}

theorem tlvBuffer_holds (stale : Nat → UInt8) (hdr : IntercomPacketHdr) (tlvs : List Tlv) :
    Holds (tlvBuffer stale hdr tlvs) 0 (tlvPacket hdr tlvs) := received_holds stale le_rfl

theorem tlvBuffer_holdsTlvs (stale : Nat → UInt8) (hdr : IntercomPacketHdr) (tlvs : List Tlv) :
    Holds (tlvBuffer stale hdr tlvs) sizeofHdr (tlvs.flatMap Tlv.bytes) :=
  (tlvBuffer_holds stale hdr tlvs).right

theorem tlvPacket_length (hdr : IntercomPacketHdr) (tlvs : List Tlv) :
    sizeofHdr + (tlvs.flatMap Tlv.bytes).length = (tlvPacket hdr tlvs).length := by
  rw [tlvPacket, List.length_append, hdrBytes_length]

/-- What the known TLVs of a packet do, one after the other. -/
def executed {σ : Type} (loop : TlvLoop) (effects : loop.Effects σ) (packet : Nat → UInt8) (position : Nat)
    (tlvs : List Tlv) (s : σ) : σ :=
  (loop.knownStarts position tlvs).foldl (loop.handle effects packet) s

/-- The length byte of a known TLV leads to the next one. -/
theorem advance_known {tlv : Tlv} {offset : Nat} (hmem : Holds packet offset tlv.bytes)
    (hknown : tlv.type ∈ loop.known) : packet offset = tlv.type ∧ loop.advance packet offset = tlv.size := by
  have htype : packet offset = tlv.type := hmem.head_eq
  have hlength : packet (offset + 1) = UInt8.ofNat tlv.size :=
    (Option.some.inj (hmem 1 (Nat.succ_lt_succ (Nat.succ_pos _)))).symm
  refine ⟨htype, ?_⟩
  rw [advance, lengthByte, htype, if_pos hknown, hlength, UInt8.toNat_ofNat']
  exact Nat.mod_eq_of_lt tlv.fits

theorem bytes_length (tlv : Tlv) : tlv.bytes.length = tlv.size := by
  rw [Tlv.bytes, Tlv.size, List.length_append, Nat.add_comm]
  rfl

theorem knownTlvs_cons (tlv : Tlv) (tlvs : List Tlv) :
    loop.knownTlvs (tlv :: tlvs) =
      if tlv.type ∈ loop.known then tlv :: loop.knownTlvs tlvs else loop.knownTlvs tlvs := by
  rw [knownTlvs, List.filter_cons]
  simp only [decide_eq_true_eq]
  rfl

/-- The known TLVs of a packet and of the packet without the others start with the same two bytes. -/
theorem starts_same {packet' : Nat → UInt8} {tlvs : List Tlv} {position position' : Nat}
    (hmem : Holds packet position (tlvs.flatMap Tlv.bytes))
    (hmem' : Holds packet' position' ((loop.knownTlvs tlvs).flatMap Tlv.bytes)) :
    List.Forall₂ (fun offset offset' => packet offset ∈ loop.known ∧ packet' offset' = packet offset ∧
        packet' (offset' + 1) = packet (offset + 1))
      (loop.knownStarts position tlvs) (loop.knownStarts position' (loop.knownTlvs tlvs)) := by
  induction tlvs generalizing position position' with
  | nil => exact .nil
  | cons tlv tlvs ih =>
      have hrest := hmem.right
      rw [bytes_length] at hrest
      rw [knownTlvs_cons] at hmem' ⊢
      rw [knownStarts]
      by_cases hknown : tlv.type ∈ loop.known
      · rw [if_pos hknown] at hmem'
        rw [if_pos hknown, if_pos hknown, knownStarts, if_pos hknown]
        have htlv : ∀ {mem : Nat → UInt8} {offset : Nat}, Holds mem offset tlv.bytes →
            mem offset = tlv.type ∧ mem (offset + 1) = UInt8.ofNat tlv.size := fun hholds =>
          ⟨hholds.head_eq, (Option.some.inj (hholds 1 (Nat.succ_lt_succ (Nat.succ_pos _)))).symm⟩
        obtain ⟨htype, hlength⟩ := htlv hmem.left
        obtain ⟨htype', hlength'⟩ := htlv hmem'.left
        have hrest' := hmem'.right
        rw [bytes_length] at hrest'
        exact .cons ⟨htype ▸ hknown, htype'.trans htype.symm, hlength'.trans hlength.symm⟩ (ih hrest hrest')
      · rw [if_neg hknown] at hmem'
        rw [if_neg hknown, if_neg hknown]
        exact ih hrest hmem'

/-- TLVs that are read from the same bytes do the same. -/
theorem Lawful.executed_same (hlawful : loop.Lawful) {packet' : Nat → UInt8}
    (hhdr : packetHdr packet' = packetHdr packet) {starts starts' : List Nat}
    (hstarts : List.Forall₂ (fun offset offset' => packet offset ∈ loop.known ∧
      ∀ i < loop.reads (packet offset), packet' (offset' + i) = packet (offset + i)) starts starts')
    {σ : Type} (effects : loop.Effects σ) (s : σ) :
    starts'.foldl (loop.handle effects packet') s = starts.foldl (loop.handle effects packet) s := by
  induction hstarts generalizing s with
  | nil => rfl
  | @cons offset offset' starts starts' hboth _ ih =>
      rw [List.foldl_cons, List.foldl_cons,
        hlawful.reading effects packet packet' offset offset' hhdr hboth.1 hboth.2]
      exact ih _

/-- A packet that resynchronises is done like its known TLVs alone. -/
theorem Lawful.after_resynchronises (hlawful : loop.Lawful) {packetLen : Nat} {tlvs : List Tlv}
    {offset position : Nat} (hmem : Holds packet position (tlvs.flatMap Tlv.bytes))
    (hend : position + (tlvs.flatMap Tlv.bytes).length = packetLen)
    (hresync : loop.Resynchronises packet packetLen offset position tlvs) {σ : Type}
    (effects : loop.Effects σ) (s : σ) :
    ∃ rounds last, packetLen ≤ last ∧
      OffsetLoop.after (loop.advance packet) (loop.handle effects packet) packetLen rounds s offset =
        (loop.executed effects packet position tlvs s, last) := by
  have hunknown : ∀ offset, loop.Unknown packet offset → ∀ s, loop.handle effects packet s offset = s :=
    fun offset => hlawful.unknown effects packet offset
  induction tlvs generalizing offset position s with
  | nil =>
      obtain ⟨last, hlast, hreaches⟩ := hresync
      obtain ⟨rounds, hrounds⟩ := hreaches.after_same hunknown
      exact ⟨rounds, last, hlast, hrounds s⟩
  | cons tlv tlvs ih =>
      rw [List.flatMap_cons] at hmem hend
      rw [List.length_append, bytes_length, ← Nat.add_assoc] at hend
      have hrest := hmem.right
      rw [bytes_length] at hrest
      rw [Resynchronises] at hresync
      rw [executed, knownStarts]
      by_cases hknown : tlv.type ∈ loop.known
      · rw [if_pos hknown] at hresync ⊢
        obtain ⟨hreaches, hresync⟩ := hresync
        obtain ⟨rounds, hrounds⟩ := hreaches.after_same hunknown
        obtain ⟨-, hadvance⟩ := advance_known hmem.left hknown
        obtain ⟨more, last, hlast, hmore⟩ := ih hrest hend hresync (loop.handle effects packet s position)
        refine ⟨more + (rounds + 1), last, hlast, ?_⟩
        have hlt : position < packetLen := by
          rw [← hend, Tlv.size]
          omega
        rw [OffsetLoop.after_add, OffsetLoop.after_succ, hrounds, OffsetLoop.round, if_pos hlt, hadvance]
        exact hmore
      · rw [if_neg hknown] at hresync ⊢
        exact ih hrest hend hresync s

/-- A packet of known TLVs resynchronises. -/
theorem resynchronises_known {tlvs : List Tlv} (hknown : ∀ tlv ∈ tlvs, tlv.type ∈ loop.known)
    (position : Nat) :
    loop.Resynchronises packet (position + (tlvs.flatMap Tlv.bytes).length) position position tlvs := by
  induction tlvs generalizing position with
  | nil => exact ⟨position, le_rfl, .start⟩
  | cons tlv tlvs ih =>
      rw [List.forall_mem_cons] at hknown
      rw [List.flatMap_cons, List.length_append, bytes_length, ← Nat.add_assoc, Resynchronises,
        if_pos hknown.1]
      exact ⟨.start, ih hknown.2 _⟩

/-- So the packet without the unknown TLVs is done like these. -/
theorem Lawful.after_knownTlvs (hlawful : loop.Lawful) (stale : Nat → UInt8) (hdr : IntercomPacketHdr)
    (tlvs : List Tlv) {σ : Type} (effects : loop.Effects σ) (s : σ) :
    let packet := tlvBuffer stale hdr (loop.knownTlvs tlvs)
    let packetLen := (tlvPacket hdr (loop.knownTlvs tlvs)).length
    ∃ rounds last, packetLen ≤ last ∧
      OffsetLoop.after (loop.advance packet) (loop.handle effects packet) packetLen rounds s sizeofHdr =
        (loop.executed effects packet sizeofHdr (loop.knownTlvs tlvs) s, last) := by
  intro packet packetLen
  have hlength : sizeofHdr + ((loop.knownTlvs tlvs).flatMap Tlv.bytes).length = packetLen :=
    tlvPacket_length hdr (loop.knownTlvs tlvs)
  have hresync := @resynchronises_known loop packet (loop.knownTlvs tlvs)
    (fun tlv htlv => of_decide_eq_true (List.mem_filter.mp htlv).2) sizeofHdr
  rw [hlength] at hresync
  exact hlawful.after_resynchronises (tlvBuffer_holdsTlvs stale hdr (loop.knownTlvs tlvs)) hlength hresync
    effects s

/-- So it has the same effect as the packet without its unknown TLVs. -/
theorem Lawful.skipsUnknown (hlawful : loop.Lawful) (hdr : IntercomPacketHdr) {tlvs : List Tlv}
    (stale stale' : Nat → UInt8)
    (hsame : loop.ReadsSame tlvs (tlvBuffer stale hdr tlvs) (tlvBuffer stale' hdr (loop.knownTlvs tlvs)))
    (hresync : loop.Resynchronises (tlvBuffer stale hdr tlvs) (tlvPacket hdr tlvs).length sizeofHdr
      sizeofHdr tlvs) :
    loop.SkipsUnknown hdr tlvs (tlvBuffer stale hdr tlvs)
      (tlvBuffer stale' hdr (loop.knownTlvs tlvs)) := by
  intro σ effects s
  have hmem := tlvBuffer_holds stale hdr tlvs
  have hmem' := tlvBuffer_holds stale' hdr (loop.knownTlvs tlvs)
  obtain ⟨rounds, last, hlast, hafter⟩ := hlawful.after_resynchronises (tlvBuffer_holdsTlvs stale hdr tlvs)
    (tlvPacket_length hdr tlvs) hresync effects s
  obtain ⟨rounds', last', hlast', hafter'⟩ := hlawful.after_knownTlvs stale' hdr tlvs effects s
  have hhdr := (packetHdr_of_holds hmem'.left).trans (packetHdr_of_holds hmem.left).symm
  have hstarts := starts_same (tlvBuffer_holdsTlvs stale hdr tlvs)
    (tlvBuffer_holdsTlvs stale' hdr (loop.knownTlvs tlvs))
  have hexecuted : loop.executed effects _ sizeofHdr (loop.knownTlvs tlvs) s = loop.executed effects _ _ _ s :=
    hlawful.executed_same hhdr (hstarts.mp (fun _ _ hstart hread => ⟨hstart.1, hread⟩) hsame) effects s
  have hended := OffsetLoop.run_of_after_eq hafter hlast rounds'
  have hended' := OffsetLoop.run_of_after_eq hafter' hlast' rounds
  rw [hexecuted, Nat.add_comm] at hended'
  refine ⟨rounds + rounds', loop.executed effects (tlvBuffer stale hdr tlvs) sizeofHdr tlvs s, ?_, ?_⟩
  · rw [hlawful.run_eq]
    exact hended
  · rw [hlawful.run_eq]
    exact hended'

/-! ### Packets that do not -/

/-- The loop counts no more operations than there are places at which it can find a known type. -/
theorem Lawful.count_le (hlawful : loop.Lawful) {packetLen rounds offset n total last : Nat}
    {places : List Nat} (hafter : OffsetLoop.after (loop.advance packet) (loop.handle loop.count packet)
      packetLen rounds n offset = (total, last))
    (hpos : ∀ visited, OffsetLoop.Visits (loop.advance packet) packetLen offset visited →
      visited < packetLen → 0 < loop.advance packet visited)
    (hplaces : ∀ visited, OffsetLoop.Visits (loop.advance packet) packetLen offset visited →
      visited < packetLen → packet visited ∈ loop.known → visited ∈ places) :
    total ≤ n + places.length := by
  induction rounds generalizing offset n places with
  | zero =>
      change (n, offset) = _ at hafter
      obtain ⟨rfl, -⟩ := Prod.mk.inj hafter
      exact Nat.le_add_right _ _
  | succ rounds ih =>
      by_cases hlt : offset < packetLen
      · rw [OffsetLoop.after_next hlt] at hafter
        have hnext : ∀ visited, OffsetLoop.Visits (loop.advance packet) packetLen
            (offset + loop.advance packet offset) visited →
              OffsetLoop.Visits (loop.advance packet) packetLen offset visited := fun visited hvisit =>
          (OffsetLoop.Visits.start.next hlt).trans hvisit
        have hpos' := fun visited hvisit => hpos visited (hnext visited hvisit)
        by_cases hknown : packet offset ∈ loop.known
        · have hmem := hplaces offset .start hlt hknown
          rw [hlawful.counting packet offset hknown] at hafter
          have hplaces' : ∀ visited, OffsetLoop.Visits (loop.advance packet) packetLen
              (offset + loop.advance packet offset) visited → visited < packetLen →
                packet visited ∈ loop.known → visited ∈ places.erase offset := by
            intro visited hvisit hvlt hvknown
            have hbehind := hvisit.start_le
            have hadvance := hpos offset .start hlt
            refine (List.mem_erase_of_ne (by omega)).mpr ?_
            exact hplaces visited (hnext visited hvisit) hvlt hvknown
          have hle := ih hafter hpos' hplaces'
          have hlength := List.length_erase_of_mem hmem
          have := List.length_pos_of_mem hmem
          omega
        · rw [hlawful.unknown loop.count packet offset hknown] at hafter
          exact ih hafter hpos' fun visited hvisit => hplaces visited (hnext visited hvisit)
      · rw [OffsetLoop.after_of_ge hlt] at hafter
        obtain ⟨rfl, -⟩ := Prod.mk.inj hafter
        exact Nat.le_add_right _ _

theorem le_of_mem_knownStarts {position start : Nat} {tlvs : List Tlv}
    (hstart : start ∈ loop.knownStarts position tlvs) : position ≤ start := by
  induction tlvs generalizing position with
  | nil => cases hstart
  | cons tlv tlvs ih =>
      rw [knownStarts] at hstart
      split_ifs at hstart
      · rcases List.mem_cons.mp hstart with rfl | hstart
        · exact le_rfl
        · exact (Nat.le_add_right _ _).trans (ih hstart)
      · exact (Nat.le_add_right _ _).trans (ih hstart)

theorem knownStarts_length (position : Nat) (tlvs : List Tlv) :
    (loop.knownStarts position tlvs).length = (loop.knownTlvs tlvs).length := by
  induction tlvs generalizing position with
  | nil => rfl
  | cons tlv tlvs ih =>
      rw [knownStarts, knownTlvs_cons]
      by_cases hknown : tlv.type ∈ loop.known
      · rw [if_pos hknown, if_pos hknown, List.length_cons, List.length_cons, ih]
      · rw [if_neg hknown, if_neg hknown, ih]

theorem known_starts {tlvs : List Tlv} {position : Nat}
    (hmem : Holds packet position (tlvs.flatMap Tlv.bytes)) :
    ∀ start ∈ loop.knownStarts position tlvs, packet start ∈ loop.known := by
  induction tlvs generalizing position with
  | nil => exact fun start hstart => absurd hstart List.not_mem_nil
  | cons tlv tlvs ih =>
      have hrest := hmem.right
      rw [bytes_length] at hrest
      rw [knownStarts]
      split_ifs with hknown
      · have htype : packet position = tlv.type := hmem.left.head_eq
        exact List.forall_mem_cons.mpr ⟨htype ▸ hknown, ih hrest⟩
      · exact ih hrest

theorem Lawful.executed_count (hlawful : loop.Lawful) {starts : List Nat}
    (hknown : ∀ start ∈ starts, packet start ∈ loop.known) (n : Nat) :
    starts.foldl (loop.handle loop.count packet) n = n + starts.length := by
  induction starts generalizing n with
  | nil => rfl
  | cons start starts ih =>
      rw [List.forall_mem_cons] at hknown
      rw [List.foldl_cons, hlawful.counting packet start hknown.1, ih hknown.2, List.length_cons]
      omega

theorem Lawful.executed_record (hlawful : loop.Lawful) {starts : List Nat}
    (hknown : ∀ start ∈ starts, packet start ∈ loop.known) (done : List (List Nat)) :
    starts.foldl (loop.handle loop.record packet) done = done ++ starts.map (loop.values packet) := by
  induction starts generalizing done with
  | nil => exact (List.append_nil done).symm
  | cons start starts ih =>
      rw [List.forall_mem_cons] at hknown
      rw [List.foldl_cons, hlawful.recording packet start hknown.1, ih hknown.2, List.map_cons,
        List.append_assoc, List.singleton_append]

theorem knownTlvs_idem (tlvs : List Tlv) : loop.knownTlvs (loop.knownTlvs tlvs) = loop.knownTlvs tlvs := by
  rw [knownTlvs, knownTlvs, List.filter_filter]
  simp only [Bool.and_self]

/-- If the loop has done as many operations as there are known TLVs, and found known types only where these
start, then it has come to each of them. -/
theorem Lawful.resynchronises_of_count (hlawful : loop.Lawful) {packetLen : Nat} {tlvs : List Tlv}
    {offset position rounds n : Nat} (hmem : Holds packet position (tlvs.flatMap Tlv.bytes))
    (hend : position + (tlvs.flatMap Tlv.bytes).length = packetLen)
    (hmeant : loop.OnlyMeant packet packetLen offset position tlvs) {last : Nat} (hlast : packetLen ≤ last)
    (hafter : OffsetLoop.after (loop.advance packet) (loop.handle loop.count packet) packetLen rounds n
      offset = (n + (loop.knownTlvs tlvs).length, last)) :
    loop.Resynchronises packet packetLen offset position tlvs := by
  induction tlvs generalizing offset position rounds n with
  | nil =>
      have hvisit := OffsetLoop.visits_of_after hafter
      refine ⟨last, hlast, hvisit.reaches fun visited hreaches hlt hknown => ?_⟩
      exact absurd (hmeant visited hreaches.visits hlt hknown) List.not_mem_nil
  | cons tlv tlvs ih =>
      rw [List.flatMap_cons] at hmem hend
      rw [List.length_append, bytes_length, ← Nat.add_assoc] at hend
      have hrest := hmem.right
      rw [bytes_length] at hrest
      rw [OnlyMeant, knownStarts] at hmeant
      rw [knownTlvs_cons] at hafter
      rw [Resynchronises]
      by_cases hknown : tlv.type ∈ loop.known
      · rw [if_pos hknown] at hmeant ⊢
        rw [if_pos hknown, List.length_cons] at hafter
        have hpos := OffsetLoop.pos_of_after hafter hlast
        -- the first known type that is found
        obtain ⟨first, hreaches, hlt, hfound⟩ : ∃ first, OffsetLoop.Reaches (loop.Unknown packet)
            (loop.advance packet) packetLen offset first ∧ first < packetLen ∧
              ¬loop.Unknown packet first := by
          refine OffsetLoop.exists_first fun hall => ?_
          have hnone : ∀ visited, OffsetLoop.Visits (loop.advance packet) packetLen offset visited →
              visited < packetLen → packet visited ∈ loop.known → visited ∈ ([] : List Nat) :=
            fun visited hvisit hlt hvknown => absurd hvknown (hall visited hvisit hlt)
          have hle := hlawful.count_le hafter hpos hnone
          rw [List.length_nil] at hle
          omega
        obtain ⟨before, hbefore⟩ := hreaches.after_same (hlawful.unknown loop.count packet)
        have hmeant' : ∀ from', OffsetLoop.Visits (loop.advance packet) packetLen offset from' →
            position + tlv.size ≤ from' → loop.OnlyMeant packet packetLen from' (position + tlv.size) tlvs := by
          intro from' hfrom hbehind visited hvisit hvlt hvknown
          have hmem := hmeant visited (hfrom.trans hvisit) hvlt hvknown
          have hle := hvisit.start_le
          have hsize : 0 < tlv.size := Nat.succ_pos _
          exact List.mem_of_ne_of_mem (by omega) hmem
        rcases List.mem_cons.mp (hmeant first hreaches.visits hlt (not_not.mp hfound)) with rfl | hlater
        · obtain ⟨-, hadvance⟩ := advance_known hmem.left hknown
          have hstep : OffsetLoop.after (loop.advance packet) (loop.handle loop.count packet) packetLen
              (before + 1) n offset = (n + 1, first + tlv.size) := by
            rw [OffsetLoop.after_succ, hbefore, OffsetLoop.round, if_pos hlt,
              hlawful.counting packet first (not_not.mp hfound), hadvance]
          have hmore := OffsetLoop.after_rest hafter hlast hstep
          rw [← Nat.add_assoc, Nat.add_right_comm] at hmore
          have hnext := hreaches.visits.next hlt
          rw [hadvance] at hnext
          exact ⟨hreaches, ih hrest hend (hmeant' _ hnext le_rfl) hmore⟩
        · -- then there are not enough known TLVs left
          have hbehind := le_of_mem_knownStarts hlater
          have hle := hlawful.count_le (OffsetLoop.after_rest hafter hlast (hbefore n))
            (fun visited hvisit => hpos visited (hreaches.visits.trans hvisit))
            (hmeant' first hreaches.visits hbehind)
          rw [knownStarts_length] at hle
          change n + ((loop.knownTlvs tlvs).length + 1) ≤ _ at hle
          omega
      · rw [if_neg hknown] at hmeant ⊢
        rw [if_neg hknown] at hafter
        exact ih hrest hend hmeant hafter

/-- A packet that has the effect of its known TLVs alone, and in which known types are found only where
these start, resynchronises. -/
theorem Lawful.resynchronises (hlawful : loop.Lawful) {tlvs : List Tlv} {stale stale' : Nat → UInt8}
    (hskips : loop.SkipsUnknown hdr tlvs (tlvBuffer stale hdr tlvs)
      (tlvBuffer stale' hdr (loop.knownTlvs tlvs)))
    (hmeant : loop.OnlyMeant (tlvBuffer stale hdr tlvs) (tlvPacket hdr tlvs).length sizeofHdr sizeofHdr
      tlvs) :
    loop.Resynchronises (tlvBuffer stale hdr tlvs) (tlvPacket hdr tlvs).length sizeofHdr sizeofHdr
      tlvs := by
  obtain ⟨rounds, result, hrun, hrun'⟩ := hskips Nat loop.count 0
  rw [hlawful.run_eq] at hrun hrun'
  obtain ⟨last, hlast, hafter⟩ := OffsetLoop.after_of_run hrun
  obtain ⟨rounds', last', hlast', hafter'⟩ := hlawful.after_knownTlvs stale' hdr tlvs loop.count 0
  have hmem' := tlvBuffer_holdsTlvs stale' hdr (loop.knownTlvs tlvs)
  have hresult := OffsetLoop.result_eq hrun' hafter' hlast'
  rw [executed, hlawful.executed_count (known_starts hmem'), knownStarts_length] at hresult
  rw [hresult, knownTlvs_idem] at hafter
  exact hlawful.resynchronises_of_count (tlvBuffer_holdsTlvs stale hdr tlvs) (tlvPacket_length hdr tlvs)
    hmeant hlast hafter

/-- And each known TLV is read from the same bytes in both packets. -/
theorem Lawful.readsSame (hlawful : loop.Lawful) {tlvs : List Tlv} {stale stale' : Nat → UInt8}
    (hskips : loop.SkipsUnknown hdr tlvs (tlvBuffer stale hdr tlvs)
      (tlvBuffer stale' hdr (loop.knownTlvs tlvs)))
    (hresync : loop.Resynchronises (tlvBuffer stale hdr tlvs) (tlvPacket hdr tlvs).length sizeofHdr sizeofHdr
      tlvs) :
    loop.ReadsSame tlvs (tlvBuffer stale hdr tlvs) (tlvBuffer stale' hdr (loop.knownTlvs tlvs)) := by
  have hmem := tlvBuffer_holdsTlvs stale hdr tlvs
  have hmem' := tlvBuffer_holdsTlvs stale' hdr (loop.knownTlvs tlvs)
  have hstarts := starts_same hmem hmem'
  obtain ⟨rounds, result, hrun, hrun'⟩ := hskips (List (List Nat)) loop.record []
  rw [hlawful.run_eq] at hrun hrun'
  obtain ⟨more, last, hlast, hafter⟩ := hlawful.after_resynchronises hmem (tlvPacket_length hdr tlvs) hresync
    loop.record []
  obtain ⟨more', last', hlast', hafter'⟩ := hlawful.after_knownTlvs stale' hdr tlvs loop.record []
  have hresult := OffsetLoop.result_eq hrun hafter hlast
  rw [OffsetLoop.result_eq hrun' hafter' hlast', executed, executed, hlawful.executed_record (known_starts hmem'),
    hlawful.executed_record (known_starts hmem), List.nil_append, List.nil_append] at hresult
  have hvalues := List.forall₂_map_right_iff.mp (List.forall₂_map_left_iff.mp (List.forall₂_eq_eq_eq ▸ hresult.symm))
  exact hstarts.mp (fun offset offset' hstart hvalue =>
    hlawful.telling _ _ offset offset' hstart.1 hstart.2.1 hstart.2.2 hvalue.symm) hvalues

end TlvLoop

/-- `intercom_handle_client_operation` and `intercom_handle_server_operation` have the same effect without
the unknown TLVs if they get from each known TLV to the next one and read every known TLV from the same bytes.
Unless they find a known type where no known TLV starts, they have it only then. -/
theorem unknownTlvs_skipped_iff (hdr : IntercomPacketHdr) (tlvs : List Tlv) (stale stale' : Nat → UInt8) :
    ∀ fromClient : Bool,
      let loop := if fromClient then serverLoop else clientLoop
      let packet := tlvBuffer stale hdr tlvs
      let packet' := tlvBuffer stale' hdr (loop.knownTlvs tlvs)
      let good := loop.ReadsSame tlvs packet packet' ∧
        loop.Resynchronises packet (tlvPacket hdr tlvs).length sizeofHdr sizeofHdr tlvs
      let skips := loop.SkipsUnknown hdr tlvs packet packet'
      (good → skips) ∧
        (loop.OnlyMeant packet (tlvPacket hdr tlvs).length sizeofHdr sizeofHdr tlvs → skips → good) := by
  intro fromClient loop packet packet' good skips
  have hlawful : loop.Lawful := by
    cases fromClient with
    | false => exact clientLoop_lawful
    | true => exact serverLoop_lawful
  refine ⟨fun hgood => hlawful.skipsUnknown hdr stale stale' hgood.1 hgood.2, fun hmeant hskips => ?_⟩
  have hresync := hlawful.resynchronises hskips hmeant
  exact ⟨hlawful.readsSame hskips hresync, hresync⟩

/-- The packet has a TLV of type 7 whose value says 200, and then a REQUEST for packet 1. The loop goes on
200 bytes further. -/
theorem unknownTlvs_not_skipped :
    ¬∀ (hdr : IntercomPacketHdr) (tlvs : List Tlv) (stale stale' : Nat → UInt8),
      serverLoop.SkipsUnknown hdr tlvs (tlvBuffer stale hdr tlvs)
        (tlvBuffer stale' hdr (serverLoop.knownTlvs tlvs)) := by
  intro hall
  have hskips := hall ⟨1, 2, 1, 3⟩ [⟨7, [200], by decide⟩, ⟨tlvRequest, [0, 0, 0, 1], by decide⟩]
    (fun _ => 0) (fun _ => 0)
  obtain ⟨rounds, result, hrun, hrun'⟩ := hskips Nat serverLoop.count 0
  rw [serverLoop_lawful.run_eq] at hrun hrun'
  cases rounds with
  | zero =>
      rw [OffsetLoop.run, if_pos (by decide)] at hrun
      exact absurd hrun (Option.some_ne_none _).symm
  | succ rounds =>
      rw [OffsetLoop.run_of_last (by decide) (by decide)] at hrun
      rw [OffsetLoop.run_of_last (by decide) (by decide)] at hrun'
      have hnone : result = 0 := by
        rw [← Option.some.inj hrun]
        decide
      have hone : result = 1 := by
        rw [← Option.some.inj hrun']
        decide
      exact absurd (hnone.symm.trans hone) (by decide)

end Snapcastc
