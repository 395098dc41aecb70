import Snapcastc.IntercomClientPackets
import Snapcastc.IntercomServer

/-! Operation packets with any number of TLVs: what the client assembles for the server (`assemble_hello` and
`assemble_request` in `intercom_client.c`) and the server for the client is what the other side does, in
the same order. -/

namespace Snapcastc

open Bytes

def assembleHello (assembly : Assembly) (hello : Hello) : Assembly :=
  assembly.put ([tlvHello, 9] ++ net16 hello.id ++ net32 hello.latency ++ [hello.volumePercent])

def assembleRequest (assembly : Assembly) (nonce : UInt32) : Assembly :=
  assembly.put ([tlvRequest, 6] ++ net32 nonce)

inductive ClientTlv where
  | hello (hello : Hello)
  | request (nonce : UInt32)
  deriving DecidableEq, Repr

def assembleClientTlv (assembly : Assembly) : ClientTlv → Assembly
  | .hello hello => assembleHello assembly hello
  | .request nonce => assembleRequest assembly nonce

def assembleServerTlv (assembly : Assembly) : ServerOperation → Assembly
  | .stop => assembleStop assembly
  | .volume percent => assembleVolume assembly percent

/-- A client operation, in a buffer with arbitrary contents. -/
def clientOperationPacket (packet : Nat → UInt8) (nonce : UInt32) (nodeid : UInt16)
    (tlvs : List ClientTlv) : Assembly :=
  tlvs.foldl assembleClientTlv (assembleHeader packet clientOperation (some nonce) nodeid).1

/-- A server operation, in a buffer with arbitrary contents. -/
def serverOperationPacket (packet : Nat → UInt8) (ops : List ServerOperation) : Assembly :=
  ops.foldl assembleServerTlv (assembleHeader packet serverOperation none 0).1

def clientTlvBytes : ClientTlv → List UInt8
  | .hello hello => [tlvHello, 9] ++ net16 hello.id ++ net32 hello.latency ++ [hello.volumePercent]
  | .request nonce => [tlvRequest, 6] ++ net32 nonce

/-- TLVs that are added one after the other. -/
theorem Assembled.foldl {τ : Type} {add : Assembly → τ → Assembly} {tlvBytes : τ → List UInt8}
    (hadd : ∀ assembly tlv, add assembly tlv = assembly.put (tlvBytes tlv)) {assembly : Assembly}
    {bytes : List UInt8} (hbytes : Assembled assembly bytes) (tlvs : List τ) :
    Assembled (tlvs.foldl add assembly) (bytes ++ tlvs.flatMap tlvBytes) := by
  induction tlvs generalizing assembly bytes with
  | nil =>
      rw [List.flatMap_nil, List.append_nil]
      exact hbytes
  | cons tlv tlvs ih =>
      rw [List.foldl_cons, List.flatMap_cons, ← List.append_assoc, hadd]
      exact ih (hbytes.put (tlvBytes tlv))

/-- The TLVs of a packet lie one behind the other. -/
theorem laid_of_holds {τ : Type} {tlvBytes : τ → List UInt8} {mem : Nat → UInt8} {offset : Nat}
    {tlvs : List τ} (hmem : Holds mem offset (tlvs.flatMap tlvBytes)) :
    OffsetLoop.Laid (fun tlv => (tlvBytes tlv).length) (fun offset tlv => Holds mem offset (tlvBytes tlv))
      offset tlvs (offset + (tlvs.flatMap tlvBytes).length) := by
  induction tlvs generalizing offset with
  | nil => exact .nil offset
  | cons tlv tlvs ih =>
      rw [List.flatMap_cons] at hmem ⊢
      rw [List.length_append, ← Nat.add_assoc]
      exact .cons hmem.left (ih hmem.right)

/-! ### Handling -/

section

variable {σ : Type} {mem : Nat → UInt8}

def executeClientTlv (effects : ClientOperationEffects σ) (clientid : UInt16) (s : σ) : ClientTlv → σ
  | .hello hello => effects.refreshClient s hello
  | .request nonce => effects.answerRequest s clientid nonce

def executeServerTlv (effects : ServerOperationEffects σ) (s : σ) : ServerOperation → σ
  | .stop => effects.stop s
  | .volume percent => effects.adjustVolume s percent

theorem clientTlv_handled {offset : Nat} {tlv : ClientTlv} (hmem : Holds mem offset (clientTlvBytes tlv)) :
    clientOperationAdvance mem offset = (clientTlvBytes tlv).length ∧
      ∀ (effects : ClientOperationEffects σ) s, clientOperationHandle effects mem s offset =
        executeClientTlv effects (packetHdr mem).clientid s tlv := by
  cases tlv with
  | hello hello =>
      have hhead : Holds mem offset [tlvHello, 9] := hmem.left.left.left
      have htype : mem offset = tlvHello := hhead.head_eq
      have hlength : mem (offset + 1) = 9 := (Option.some.inj (hhead 1 (by decide : 1 < 2))).symm
      have hid : host16 mem (offset + 2) = hello.id := Holds.host16_eq hmem.left.left.right
      have hlatency : host32 mem (offset + 4) = hello.latency := Holds.host32_eq hmem.left.right
      have hvolume : mem (offset + 8) = hello.volumePercent := Holds.head_eq hmem.right
      refine ⟨?_, fun effects s => ?_⟩
      · rw [clientOperationAdvance, if_pos htype, parseHello, hlength]
        rfl
      · rw [clientOperationHandle, if_pos htype, parseHello, hid, hlatency, hvolume]
        rfl
  | request nonce =>
      have hhead : Holds mem offset [tlvRequest, 6] := hmem.left
      have htype : mem offset = tlvRequest := hhead.head_eq
      have hother : ¬mem offset = tlvHello := by
        rw [htype]
        decide
      have hlength : mem (offset + 1) = 6 := (Option.some.inj (hhead 1 (by decide : 1 < 2))).symm
      have hnonce : host32 mem (offset + 2) = nonce := Holds.host32_eq hmem.right
      refine ⟨?_, fun effects s => ?_⟩
      · rw [clientOperationAdvance, if_neg hother, if_pos htype, parseRequest, hlength]
        rfl
      · rw [clientOperationHandle, if_neg hother, if_pos htype, parseRequest, hnonce]
        rfl

theorem serverTlv_handled {offset : Nat} {op : ServerOperation} (hmem : Holds mem offset (operationTlv op)) :
    serverOperationAdvance mem offset = (operationTlv op).length ∧
      ∀ (effects : ServerOperationEffects σ) s, serverOperationHandle effects mem s offset =
        executeServerTlv effects s op := by
  cases op with
  | stop =>
      have htype : mem offset = tlvClientStop := hmem.head_eq
      have hlength : mem (offset + 1) = 2 := (Option.some.inj (hmem 1 (by decide : 1 < 2))).symm
      refine ⟨?_, fun effects s => ?_⟩
      · rw [serverOperationAdvance, if_pos htype, tlvGetLength, hlength]
        rfl
      · rw [serverOperationHandle, if_pos htype]
        rfl
  | volume percent =>
      have htype : mem offset = tlvClientVolume := hmem.head_eq
      have hother : ¬mem offset = tlvClientStop := by
        rw [htype]
        decide
      have hlength : mem (offset + 1) = 3 := (Option.some.inj (hmem 1 (by decide : 1 < 3))).symm
      have hvolume : mem (offset + 2) = percent := (Option.some.inj (hmem 2 (by decide : 2 < 3))).symm
      refine ⟨?_, fun effects s => ?_⟩
      · rw [serverOperationAdvance, if_neg hother, if_pos htype, parseVolume, hlength]
        rfl
      · rw [serverOperationHandle, if_neg hother, if_pos htype, parseVolume, hvolume]
        rfl

/-- The loop of the server takes the TLVs of a packet in order, and ends at the end of the packet. -/
theorem clientTlvs_handled {hdr : IntercomPacketHdr} {tlvs : List ClientTlv}
    (hmem : Holds mem 0 (hdrBytes hdr ++ tlvs.flatMap clientTlvBytes))
    (effects : ClientOperationEffects σ) (s : σ) :
    OffsetLoop.after (clientOperationAdvance mem) (clientOperationHandle effects mem)
        (hdrBytes hdr ++ tlvs.flatMap clientTlvBytes).length tlvs.length s sizeofHdr =
      (tlvs.foldl (executeClientTlv effects hdr.clientid) s,
        (hdrBytes hdr ++ tlvs.flatMap clientTlvBytes).length) := by
  have hhdr : packetHdr mem = hdr := packetHdr_of_holds hmem.left
  have htlvs : Holds mem sizeofHdr (tlvs.flatMap clientTlvBytes) := hmem.right
  rw [List.length_append, hdrBytes_length]
  refine (laid_of_holds htlvs).after_eq (fun tlv => ?_) (fun offset tlv hlies => ?_) s
  · cases tlv with
    | hello hello => exact Nat.succ_pos _
    | request nonce => exact Nat.succ_pos _
  · obtain ⟨hadvance, hhandle⟩ := clientTlv_handled (σ := σ) hlies
    exact ⟨hadvance, fun s => by rw [hhandle effects s, hhdr]⟩

/-- The loop of the client takes the TLVs of a packet in order, and ends at the end of the packet. -/
theorem serverTlvs_handled {hdr : IntercomPacketHdr} {ops : List ServerOperation}
    (hmem : Holds mem 0 (hdrBytes hdr ++ ops.flatMap operationTlv))
    (effects : ServerOperationEffects σ) (s : σ) :
    OffsetLoop.after (serverOperationAdvance mem) (serverOperationHandle effects mem)
        (hdrBytes hdr ++ ops.flatMap operationTlv).length ops.length s sizeofHdr =
      (ops.foldl (executeServerTlv effects) s, (hdrBytes hdr ++ ops.flatMap operationTlv).length) := by
  have htlvs : Holds mem sizeofHdr (ops.flatMap operationTlv) := hmem.right
  rw [List.length_append, hdrBytes_length]
  refine (laid_of_holds htlvs).after_eq (fun op => ?_) (fun offset op hlies => ?_) s
  · cases op with
    | stop => exact Nat.succ_pos _
    | volume percent => exact Nat.succ_pos _
  · obtain ⟨hadvance, hhandle⟩ := serverTlv_handled (σ := σ) hlies
    exact ⟨hadvance, fun s => hhandle effects s⟩

end

/-! ### Round trips -/

def serveTlv {n : Nat} (clock : ServerClock) (opened : Option Nat) (clientid : UInt16) (ip : In6Addr)
    (port : UInt16) (s : Server n) : ClientTlv → Except Fault (Server n)
  | .hello hello => clientmgrRefreshClient clock opened s ⟨hello, ip, port⟩
  | .request nonce => pure (answerRequest s clientid nonce ip port)

theorem foldl_serveTlv {n : Nat} (clock : ServerClock) (opened : Option Nat) (clientid : UInt16)
    (ip : In6Addr) (port : UInt16) (tlvs : List ClientTlv) (reached : Except Fault (Server n)) :
    tlvs.foldl (executeClientTlv (serverEffects clock opened ip port) clientid) reached =
      reached.bind fun s => tlvs.foldlM (serveTlv clock opened clientid ip port) s := by
  induction tlvs generalizing reached with
  | nil =>
      cases reached with
      | error fault => rfl
      | ok s => rfl
  | cons tlv tlvs ih =>
      rw [List.foldl_cons, ih]
      cases reached with
      | error fault =>
          cases tlv with
          | hello hello => rfl
          | request nonce => rfl
      | ok s =>
          cases tlv with
          | hello hello => rfl
          | request nonce => rfl

theorem foldl_execute (ops : List ServerOperation) (s : Client) :
    ops.foldl (executeServerTlv clientEffects) s = ops.foldl execute s := by
  have hsame : executeServerTlv clientEffects = execute := by
    funext s op
    cases op with
    | stop => rfl
    | volume percent => rfl
  rw [hsame]

/-- Every client operation is done by the server TLV by TLV as it was assembled, and every server operation
by the client; both loops end at the end of the packet. -/
theorem operations_roundTrip (packet stale : Nat → UInt8) (nonce : UInt32) (nodeid : UInt16)
    (tlvs : List ClientTlv) (ops : List ServerOperation) :
    (let assembly := clientOperationPacket packet nonce nodeid tlvs
    let mem := received stale assembly.packetLen (load assembly.packet 0 assembly.packetLen)
    packetHdr mem = ⟨packetFormatVersion, clientOperation, nodeid, nonce % nonceMax⟩ ∧
      ∀ (n : Nat) (s : Server n) clock opened ip port,
        OffsetLoop.after (clientOperationAdvance mem)
            (clientOperationHandle (serverEffects clock opened ip port) mem) assembly.packetLen tlvs.length
            (pure s) sizeofHdr =
          (tlvs.foldlM (serveTlv clock opened nodeid ip port) s, assembly.packetLen) ∧
        ∀ more, intercomHandleClientOperation (serverEffects clock opened ip port) (tlvs.length + more)
            (pure s) mem assembly.packetLen =
          some (tlvs.foldlM (serveTlv clock opened nodeid ip port) s)) ∧
    (let assembly := serverOperationPacket packet ops
    let mem := received stale assembly.packetLen (load assembly.packet 0 assembly.packetLen)
    packetHdr mem = ⟨packetFormatVersion, serverOperation, 0, 0⟩ ∧
      ∀ s, OffsetLoop.after (serverOperationAdvance mem) (serverOperationHandle clientEffects mem)
            assembly.packetLen ops.length s sizeofHdr = (ops.foldl execute s, assembly.packetLen) ∧
        ∀ more, intercomHandleServerOperation clientEffects (ops.length + more) s mem assembly.packetLen =
          some (ops.foldl execute s)) := by
  constructor
  · have hadd : ∀ assembly tlv, assembleClientTlv assembly tlv = assembly.put (clientTlvBytes tlv) := by
      intro assembly tlv
      cases tlv with
      | hello hello => rfl
      | request nonce => rfl
    have hbytes := Assembled.foldl hadd
      (assembleHeader_assembled packet clientOperation (some nonce) nodeid) tlvs
    have hmem := hbytes.received_holds stale
    refine ⟨packetHdr_of_holds hmem.left, fun n s clock opened ip port => ?_⟩
    have hafter := clientTlvs_handled hmem (serverEffects (n := n) clock opened ip port) (pure s)
    rw [← hbytes.length, foldl_serveTlv] at hafter
    exact ⟨hafter, OffsetLoop.run_of_after_eq hafter le_rfl⟩
  · have hadd : ∀ assembly op, assembleServerTlv assembly op = assembly.put (operationTlv op) := by
      intro assembly op
      cases op with
      | stop => rfl
      | volume percent => rfl
    have hbytes := Assembled.foldl hadd (assembleHeader_assembled packet serverOperation none 0) ops
    have hmem := hbytes.received_holds stale
    refine ⟨packetHdr_of_holds hmem.left, fun s => ?_⟩
    have hafter := serverTlvs_handled hmem clientEffects s
    rw [← hbytes.length, foldl_execute] at hafter
    exact ⟨hafter, OffsetLoop.run_of_after_eq hafter le_rfl⟩

end Snapcastc
