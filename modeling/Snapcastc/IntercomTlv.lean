import Snapcastc.LibraryOffsetLoop
import Snapcastc.Intercom

/-! The operation packets: sequences of TLVs behind a packet header, as both sides assemble and
handle them. Each handler is a loop that takes from a TLV how far the next one is away. The effects
of the single TLVs are a parameter here; the client's and the server's modules supply them. -/

namespace Snapcastc

open Bytes

/-! The TLV types of client operations. -/

def tlvRequest : UInt8 := 0

def tlvHello : UInt8 := 1

/-! The TLV types of server operations. -/

def tlvClientStop : UInt8 := 1

def tlvClientVolume : UInt8 := 2

def tlvGetLength (packet : Nat → UInt8) (packetpointer : Nat) : Nat :=
  (packet (packetpointer + 1)).toNat

/-- `parse_volume`: the volume and the length. -/
def parseVolume (packet : Nat → UInt8) (packetpointer : Nat) : UInt8 × Nat :=
  (packet (packetpointer + 2), (packet (packetpointer + 1)).toNat)

/-- `parse_request`: the nonce and the length. -/
def parseRequest (packet : Nat → UInt8) (packetpointer : Nat) : UInt32 × Nat :=
  (host32 packet (packetpointer + 2), (packet (packetpointer + 1)).toNat)

/-- What a HELLO says about its sender. -/
structure Hello where
  id : UInt16
  latency : UInt32
  volumePercent : UInt8
  deriving DecidableEq, Repr

/-- `parse_hello`: the client's data and the length. -/
def parseHello (packet : Nat → UInt8) (packetpointer : Nat) : Hello × Nat :=
  (⟨host16 packet (packetpointer + 2), host32 packet (packetpointer + 4), packet (packetpointer + 8)⟩,
    (packet (packetpointer + 1)).toNat)

def unknownLength (packet : Nat → UInt8) (packetpointer : Nat) : Nat :=
  (packet (packetpointer + 2)).toNat

def assembleVolume (assembly : Assembly) (volume : UInt8) : Assembly :=
  assembly.put [tlvClientVolume, 3, volume]

def assembleStop (assembly : Assembly) : Assembly := assembly.put [tlvClientStop, 2]

/-- The packet of `intercom_set_volume`, in a buffer with arbitrary contents. -/
def intercomSetVolume (packet : Nat → UInt8) (volume : UInt8) : Assembly :=
  assembleVolume (assembleHeader packet serverOperation none 0).1 volume

/-- The packet of `intercom_stop_client`, in a buffer with arbitrary contents. -/
def intercomStopClient (packet : Nat → UInt8) : Assembly :=
  assembleStop (assembleHeader packet serverOperation none 0).1

/-- What the server does with the TLVs of a client operation. -/
structure ClientOperationEffects (σ : Type) where
  refreshClient : σ → Hello → σ
  answerRequest : σ → (clientid : UInt16) → (nonce : UInt32) → σ

/-- How far `intercom_handle_client_operation` advances at an offset. -/
def clientOperationAdvance (packet : Nat → UInt8) (currentoffset : Nat) : Nat :=
  let type := packet currentoffset
  if type = tlvHello then (parseHello packet currentoffset).2
  else if type = tlvRequest then (parseRequest packet currentoffset).2
  else unknownLength packet currentoffset

/-- What `intercom_handle_client_operation` does at an offset. -/
def clientOperationHandle {σ : Type} (effects : ClientOperationEffects σ) (packet : Nat → UInt8)
    (s : σ) (currentoffset : Nat) : σ :=
  let type := packet currentoffset
  if type = tlvHello then effects.refreshClient s (parseHello packet currentoffset).1
  else if type = tlvRequest then
    effects.answerRequest s (packetHdr packet).clientid (parseRequest packet currentoffset).1
  else s

/-- `intercom_handle_client_operation`, with a bound on the rounds of its loop. -/
def intercomHandleClientOperation {σ : Type} (effects : ClientOperationEffects σ) (rounds : Nat)
    (s : σ) (packet : Nat → UInt8) (packetLen : Nat) : Option σ :=
  OffsetLoop.run (clientOperationAdvance packet) (clientOperationHandle effects packet) packetLen
    rounds s sizeofHdr

/-- What the client does with the TLVs of a server operation. -/
structure ServerOperationEffects (σ : Type) where
  stop : σ → σ
  adjustVolume : σ → UInt8 → σ

/-- How far `intercom_handle_server_operation` advances at an offset. -/
def serverOperationAdvance (packet : Nat → UInt8) (currentoffset : Nat) : Nat :=
  let type := packet currentoffset
  if type = tlvClientStop then tlvGetLength packet currentoffset
  else if type = tlvClientVolume then (parseVolume packet currentoffset).2
  else unknownLength packet currentoffset

/-- What `intercom_handle_server_operation` does at an offset. -/
def serverOperationHandle {σ : Type} (effects : ServerOperationEffects σ) (packet : Nat → UInt8)
    (s : σ) (currentoffset : Nat) : σ :=
  let type := packet currentoffset
  if type = tlvClientStop then effects.stop s
  else if type = tlvClientVolume then
    effects.adjustVolume s (parseVolume packet currentoffset).1
  else s

/-- `intercom_handle_server_operation`, with a bound on the rounds of its loop. -/
def intercomHandleServerOperation {σ : Type} (effects : ServerOperationEffects σ) (rounds : Nat)
    (s : σ) (packet : Nat → UInt8) (packetLen : Nat) : Option σ :=
  OffsetLoop.run (serverOperationAdvance packet) (serverOperationHandle effects packet) packetLen
    rounds s sizeofHdr

/-- The byte that says how far the next TLV is away: the length byte of a known TLV, but the byte
behind it for an unknown one. -/
def lengthByte (known : List UInt8) (packet : Nat → UInt8) (offset : Nat) : UInt8 :=
  if packet offset ∈ known then packet (offset + 1) else packet (offset + 2)

/-- No TLV of a datagram has a zero where its length is looked for: none of those a handler with the
given known types comes to on its way from the header to the end of the datagram. -/
def NoZeroLength (known : List UInt8) (packet : Nat → UInt8) (packetLen : Nat) : Prop :=
  ∀ offset, OffsetLoop.Visits (fun i => (lengthByte known packet i).toNat) packetLen sizeofHdr offset →
    offset < packetLen → lengthByte known packet offset ≠ 0

theorem clientOperationAdvance_eq (packet : Nat → UInt8) :
    clientOperationAdvance packet =
      fun offset => (lengthByte [tlvHello, tlvRequest] packet offset).toNat := by
  funext offset
  simp only [clientOperationAdvance, lengthByte, List.mem_cons, List.not_mem_nil, or_false,
    parseHello, parseRequest, unknownLength]
  split_ifs <;> simp_all

theorem serverOperationAdvance_eq (packet : Nat → UInt8) :
    serverOperationAdvance packet =
      fun offset => (lengthByte [tlvClientStop, tlvClientVolume] packet offset).toNat := by
  funext offset
  simp only [serverOperationAdvance, lengthByte, List.mem_cons, List.not_mem_nil, or_false,
    tlvGetLength, parseVolume, unknownLength]
  split_ifs <;> simp_all

theorem terminates_iff_noZeroLength {σ : Type} (known : List UInt8) (packet : Nat → UInt8)
    (packetLen : Nat) (handle : σ → Nat → σ) (s : σ) :
    OffsetLoop.Terminates (fun offset => (lengthByte known packet offset).toNat) handle packetLen s
      sizeofHdr ↔ NoZeroLength known packet packetLen := by
  rw [OffsetLoop.terminates_iff]
  refine forall₃_congr fun offset _ _ => ?_
  rw [Nat.pos_iff_ne_zero, Ne, Ne, ← UInt8.toNat_inj]
  rfl

/-- Each TLV loop ends, whatever its effects are, exactly when no TLV it comes to has a zero where
the loop takes its length from. -/
theorem tlvLoops_terminate_iff (packet : Nat → UInt8) (packetLen : Nat) :
    (∀ (σ : Type) (effects : ClientOperationEffects σ) (s : σ),
      (∃ rounds result, intercomHandleClientOperation effects rounds s packet packetLen =
        some result) ↔ NoZeroLength [tlvHello, tlvRequest] packet packetLen) ∧
    (∀ (σ : Type) (effects : ServerOperationEffects σ) (s : σ),
      (∃ rounds result, intercomHandleServerOperation effects rounds s packet packetLen =
        some result) ↔ NoZeroLength [tlvClientStop, tlvClientVolume] packet packetLen) := by
  constructor
  · intro σ effects s
    rw [← terminates_iff_noZeroLength, ← clientOperationAdvance_eq]
    rfl
  · intro σ effects s
    rw [← terminates_iff_noZeroLength, ← serverOperationAdvance_eq]
    rfl

/-- A client operation whose only TLV has the unknown type 7 and the length 3, but a zero value. -/
def zeroValueTlv : Nat → UInt8 := store (fun _ => 0) 0 [1, 0, 0, 0, 0, 0, 0, 0, 7, 3, 0]

/-- The datagram keeps the server forever, and so it does with the client's loop. -/
theorem zeroValueTlv_never_ends :
    (∀ rounds, intercomHandleClientOperation (⟨fun s _ => s, fun s _ _ => s⟩ :
      ClientOperationEffects Unit) rounds () zeroValueTlv 11 = none) ∧
    ∀ rounds, intercomHandleServerOperation (⟨fun s => s, fun s _ => s⟩ :
      ServerOperationEffects Unit) rounds () zeroValueTlv 11 = none :=
  ⟨fun rounds => OffsetLoop.run_of_stuck (by decide) (by decide +kernel) rounds (),
    fun rounds => OffsetLoop.run_of_stuck (by decide) (by decide +kernel) rounds ()⟩

end Snapcastc
