import Snapcastc.LibraryProvenance
import Snapcastc.ClientMainRun
import Snapcastc.IntercomClientStorage

/-! Where the chunks come from that the client keeps and plays, and the operations that it executes. Only a
datagram brings anything new; everything else takes chunks from the receive buffer or decodes one in place. -/

namespace Snapcastc

open Provenance

variable {env : ClientEnv} {s s' s'' : Client}

/-- The chunk itself, or what the decoder makes of it. -/
def Derived (opus : OpusDecoder) (chunk derived : PcmChunk) : Prop :=
  derived = chunk ∨ chunk.codec = codecOpus ∧ derived = opusDecoded opus chunk

theorem Derived.refl (opus : OpusDecoder) (chunk : PcmChunk) : Derived opus chunk chunk := .inl rfl

theorem opusDecoded_codec (opus : OpusDecoder) (chunk : PcmChunk) : (opusDecoded opus chunk).codec = codecPcm := by
  unfold opusDecoded
  dsimp only
  split
  · rfl
  · rfl

/-- A chunk that was decoded is not decoded again. -/
theorem Derived.trans {opus : OpusDecoder} {chunk chunk' chunk'' : PcmChunk} (hfirst : Derived opus chunk chunk')
    (hsecond : Derived opus chunk' chunk'') : Derived opus chunk chunk'' := by
  rcases hfirst with rfl | ⟨hcodec, rfl⟩
  · exact hsecond
  · rcases hsecond with rfl | ⟨hagain, -⟩
    · exact .inr ⟨hcodec, rfl⟩
    · rw [opusDecoded_codec] at hagain
      exact absurd hagain (by decide)

theorem Derived.decode {opus : OpusDecoder} {decoder : Bool} {chunk decoded : PcmChunk}
    (hdecode : chunkDecode opus decoder chunk = .ok decoded) : Derived opus chunk decoded := by
  rw [chunkDecode, decodeOpusHandle_eq] at hdecode
  split_ifs at hdecode with hcodec
  · exact .inr ⟨hcodec, (Except.ok.inj hdecode).symm⟩
  · exact .inl (Except.ok.inj hdecode).symm

/-- What was decoded is not encoded any more. -/
theorem chunkDecode_codec {opus : OpusDecoder} {decoder : Bool} {chunk decoded : PcmChunk}
    (hdecode : chunkDecode opus decoder chunk = .ok decoded) : decoded.codec ≠ codecOpus := by
  rw [chunkDecode, decodeOpusHandle_eq] at hdecode
  split_ifs at hdecode with hcodec
  · rw [← Except.ok.inj hdecode, opusDecoded_codec]
    decide
  · rw [← Except.ok.inj hdecode]
    exact hcodec

def StoredDerived (opus : OpusDecoder) (before after : StoredChunk) : Prop :=
  after.seqno = before.seqno ∧ Derived opus before.chunk after.chunk

theorem StoredDerived.refl (opus : OpusDecoder) (stored : StoredChunk) : StoredDerived opus stored stored :=
  ⟨rfl, .refl opus _⟩

theorem StoredDerived.trans {opus : OpusDecoder} {first second third : StoredChunk}
    (hfirst : StoredDerived opus first second) (hsecond : StoredDerived opus second third) :
    StoredDerived opus first third :=
  ⟨hsecond.1.trans hfirst.1, hfirst.2.trans hsecond.2⟩

def keptChunks (s : Client) : Set StoredChunk := { stored | stored ∈ heldChunks s }

theorem keptChunks_congr (hbuffer : s'.receivebuffer = s.receivebuffer) : keptChunks s' = keptChunks s := by
  rw [keptChunks, keptChunks, heldChunks, heldChunks, hbuffer]

/-- What the client keeps afterwards it had kept before, up to decoding, and it has executed no operation. -/
structure NothingNew (opus : OpusDecoder) (s s' : Client) : Prop where
  chunks : Drawn (StoredDerived opus) (keptChunks s) (keptChunks s')
  operations : s'.operations = s.operations

namespace NothingNew

variable {opus : OpusDecoder}

theorem of_subset (hsub : heldChunks s' ⊆ heldChunks s) (hops : s'.operations = s.operations) :
    NothingNew opus s s' :=
  ⟨.subset (StoredDerived.refl opus) hsub, hops⟩

theorem of_buffer (hbuffer : s'.receivebuffer = s.receivebuffer) (hops : s'.operations = s.operations) :
    NothingNew opus s s' := by
  refine of_subset ?_ hops
  rw [heldChunks, heldChunks, hbuffer]
  exact List.Subset.refl _

theorem refl (s : Client) : NothingNew opus s s := of_buffer rfl rfl

theorem of_same (hsame : SameIntercom s s') : NothingNew opus s s' :=
  of_buffer hsame.receivebuffer hsame.operations

/-- The receive buffer is given up. -/
theorem of_none (hnone : s'.receivebuffer = none) (hops : s'.operations = s.operations) :
    NothingNew opus s s' := by
  refine of_subset ?_ hops
  rw [heldChunks, hnone]
  exact List.nil_subset _

theorem trans (hfirst : NothingNew opus s s') (hsecond : NothingNew opus s' s'') : NothingNew opus s s'' :=
  ⟨.trans (fun {_ _ _} hmade hmade' => hmade.trans hmade') hfirst.chunks hsecond.chunks,
    hsecond.operations.trans hfirst.operations⟩

end NothingNew

theorem intercomGetnextaudiochunk_nothingNew (opus : OpusDecoder) (s : Client) :
    NothingNew opus s (intercomGetnextaudiochunk s).2 :=
  .of_subset (heldChunks_dequeue_subset rfl) rfl

theorem takeChunk_nothingNew {clock : ClientClock} (hrun : takeChunk env clock s = .ok s') :
    NothingNew env.opus s s' := by
  refine .of_subset (heldChunks_dequeue_subset (takeChunk_receivebuffer hrun)) ?_
  rw [takeChunk] at hrun
  split at hrun
  · rename_i after hnext
    obtain ⟨-, rfl⟩ := Prod.mk.inj hnext
    cases hrun
    rfl
  · rename_i chunk after hnext
    obtain ⟨-, rfl⟩ := Prod.mk.inj hnext
    obtain ⟨tasks, -, hrun⟩ := except_bind_ok hrun
    obtain ⟨decoded, -, hrun⟩ := except_bind_ok hrun
    cases hrun
    rfl

theorem dropped_nothingNew (opus : OpusDecoder) (dropped : Nat) (s : Client) :
    NothingNew opus s ((fun s => (intercomGetnextaudiochunk s).2)^[dropped] s) := by
  induction dropped generalizing s with
  | zero => exact .refl s
  | succ dropped ih =>
      rw [Function.iterate_succ_apply]
      exact (intercomGetnextaudiochunk_nothingNew opus s).trans (ih _)

theorem getchunk_nothingNew {clock : ClientClock} {dropped : Nat} {takes : Bool}
    (hrun : getchunk env clock dropped takes s = .ok s') : NothingNew env.opus s s' := by
  have hdropped := dropped_nothingNew env.opus dropped s
  unfold getchunk at hrun
  dsimp only at hrun
  split_ifs at hrun
  · exact hdropped.trans (takeChunk_nothingNew hrun)
  · cases hrun
    exact hdropped

/-! ### Tasks -/

/-- The first chunk of a queue is another one. -/
theorem contents_update_first {queue : PQueue StoredChunk} {first stored : StoredChunk}
    (hmem : stored ∈ ({ queue with data := Function.update queue.data 0 first } : PQueue StoredChunk).contents) :
    stored = first ∧ 0 < queue.size ∨ stored ∈ queue.contents := by
  obtain ⟨k, hk, heq⟩ := List.mem_map.mp hmem
  have hlt : k < queue.size := List.mem_range.mp hk
  change Function.update queue.data 0 first k = stored at heq
  rcases eq_or_ne k 0 with rfl | hne
  · rw [Function.update_self] at heq
    exact .inl ⟨heq.symm, hlt⟩
  · rw [Function.update_of_ne hne] at heq
    exact .inr (List.mem_map.mpr ⟨k, hk, heq⟩)

/-- `chunk_decode` in place. -/
theorem decodeFirstInput_nothingNew (hrun : decodeFirstInput env s = .ok s') : NothingNew env.opus s s' := by
  unfold decodeFirstInput at hrun
  split at hrun
  · cases hrun
    exact .refl s
  · rename_i buffer hbuffer
    split at hrun
    · cases hrun
      exact .refl s
    · rename_i chunk hpeek
      obtain ⟨decoded, hdecode, hrun⟩ := except_bind_ok hrun
      cases hrun
      have hfirst : (buffer.queue.data 0).chunk = chunk := by
        obtain ⟨stored, hstored, rfl⟩ := Option.map_eq_some_iff.mp hpeek
        rcases Nat.eq_zero_or_pos buffer.queue.size with hzero | hpos
        · rw [ReceiveBuffer.peek_of_zero hzero] at hstored
          cases hstored
        · rw [ReceiveBuffer.peek_of_pos hpos] at hstored
          rw [Option.some.inj hstored]
      refine ⟨fun stored hmem => ?_, rfl⟩
      have hheld : heldChunks s = buffer.contents := heldChunks_of_some hbuffer
      rcases contents_update_first hmem with ⟨rfl, hpos⟩ | hold
      · refine ⟨buffer.queue.data 0, ?_, rfl, hfirst.symm ▸ .decode hdecode⟩
        change _ ∈ heldChunks s
        rw [hheld]
        exact List.mem_map.mpr ⟨0, List.mem_range.mpr hpos, rfl⟩
      · refine ⟨stored, ?_, .refl _ _⟩
        change _ ∈ heldChunks s
        rw [hheld]
        exact hold

theorem requestTask_nothingNew (opus : OpusDecoder) (clock : ClientClock) (s : Client) (reqNonce : UInt32)
    (retriesLeft : UInt8) : NothingNew opus s (requestTask clock s reqNonce retriesLeft).1 := by
  unfold requestTask
  dsimp only
  split_ifs
  · exact .of_buffer rfl rfl
  · exact .of_buffer rfl rfl
  · exact .of_buffer rfl rfl

variable {p p' : ClientProcess}

theorem closeIntercom_nothingNew (opus : OpusDecoder) (hrun : closeIntercom p = .ok p') :
    NothingNew opus p.client p'.client := by
  unfold closeIntercom at hrun
  split at hrun
  · cases hrun
  · obtain ⟨tasks, -, hrun⟩ := except_bind_ok hrun
    cases hrun
    exact .of_none rfl rfl

theorem reopenIntercom_nothingNew (opus : OpusDecoder) {clock : ClientClock} {resolved : Bool}
    (hrun : reopenIntercom clock resolved p = .ok p') : NothingNew opus p.client p'.client := by
  obtain ⟨client, hreinit, hrun⟩ := except_bind_ok hrun
  cases hrun
  unfold intercomReinit at hreinit
  split_ifs at hreinit
  cases hreinit
  exact .of_none rfl rfl

theorem runClientTask_nothingNew {clock : ClientClock} {changed resolved : Bool} {code : ClientTask}
    (hrun : runClientTask env clock changed resolved p code = .ok p') :
    NothingNew env.opus p.client p'.client := by
  cases code with
  | hello =>
      cases changed with
      | false =>
          cases hrun
          exact .of_buffer rfl rfl
      | true =>
          obtain ⟨closed, hclose, hrun⟩ := except_bind_ok hrun
          obtain ⟨client, huninit, hreopen⟩ := except_bind_ok hrun
          have hclosed := closeIntercom_nothingNew env.opus hclose
          have hdevice : NothingNew env.opus closed.client client :=
            .of_same (alsaplayerUninit_sameIntercom huninit)
          exact (hclosed.trans hdevice).trans (reopenIntercom_nothingNew env.opus hreopen)
  | request reqNonce retriesLeft =>
      cases hrun
      exact requestTask_nothingNew env.opus clock p.client reqNonce retriesLeft
  | alsaplayerUninit =>
      obtain ⟨client, huninit, hrun⟩ := except_bind_ok hrun
      cases hrun
      exact .of_same (alsaplayerUninit_sameIntercom huninit)
  | intercomReinit => exact reopenIntercom_nothingNew env.opus hrun
  | decodeFirstInput =>
      obtain ⟨client, hdecode, hrun⟩ := except_bind_ok hrun
      cases hrun
      exact decodeFirstInput_nothingNew hdecode

theorem fireClientTask_nothingNew {clock : ClientClock} {changed resolved : Bool} {id : Nat}
    (hrun : fireClientTask env clock changed resolved p id = .ok p') :
    NothingNew env.opus p.client p'.client := by
  unfold fireClientTask at hrun
  split at hrun
  · cases hrun
    exact .refl _
  · rename_i task _
    split_ifs at hrun
    · cases hrun
      exact .refl _
    · obtain ⟨after, hcall, hrun⟩ := except_bind_ok hrun
      cases hrun
      have hstarted : NothingNew env.opus p.client (p.withTasks (p.client.tasks.start task.id)).client :=
        .of_buffer rfl rfl
      have hfinished : NothingNew env.opus after.client (after.withTasks after.client.tasks.finish).client :=
        .of_buffer rfl rfl
      exact (hstarted.trans (runClientTask_nothingNew hcall)).trans hfinished

theorem networkError_nothingNew (opus : OpusDecoder) {clock : ClientClock}
    (hrun : networkError clock p = .ok p') : NothingNew opus p.client p'.client := by
  obtain ⟨closed, hclose, hrun⟩ := except_bind_ok hrun
  obtain ⟨client, huninit, hrun⟩ := except_bind_ok hrun
  cases hrun
  have hdevice : NothingNew opus closed.client client := .of_same (alsaplayerUninit_sameIntercom huninit)
  exact ((closeIntercom_nothingNew opus hclose).trans hdevice).trans (.of_buffer rfl rfl)

theorem sigTermHandler_nothingNew (opus : OpusDecoder) (hrun : sigTermHandler p = .ok p') :
    NothingNew opus p.client p'.client := by
  obtain ⟨first, hremove, hrun⟩ := except_bind_ok hrun
  obtain ⟨second, huninit, hrun⟩ := except_bind_ok hrun
  cases hrun
  exact .of_same ((alsaplayerRemoveTask_sameIntercom hremove).trans (alsaplayerUninit_sameIntercom huninit))

/-- An event that brings no datagram. -/
theorem processStep_nothingNew {event : ProcessEvent} (hrun : processStep env p event = .ok p')
    (hnone : ∀ packet packetLen clock, event ≠ .datagram packet packetLen clock) :
    NothingNew env.opus p.client p'.client := by
  unfold processStep at hrun
  by_cases hexited : p.exited = true
  · rw [if_pos hexited] at hrun
    cases hrun
    exact .refl _
  · rw [if_neg hexited] at hrun
    cases event with
    | datagram packet packetLen clock => exact absurd rfl (hnone packet packetLen clock)
    | fire id changed resolved clock => exact fireClientTask_nothingNew hrun
    | networkError clock =>
        dsimp only at hrun
        split_ifs at hrun
        · exact networkError_nothingNew env.opus hrun
        · cases hrun
          exact .refl _
    | getchunk dropped takes clock =>
        dsimp only at hrun
        split_ifs at hrun
        · obtain ⟨client, hget, hrun⟩ := except_bind_ok hrun
          cases hrun
          exact getchunk_nothingNew hget
        · cases hrun
          exact .refl _
    | sigterm => exact sigTermHandler_nothingNew env.opus hrun

/-! ### Datagrams -/

def packetStored (packet : Nat → UInt8) : StoredChunk := ⟨audioChunk packet, (packetHdr packet).nonce⟩

/-- The chunk that is stored is that of the packet, and the buffer it goes to holds nothing else that is new. -/
theorem ensureReceivebuffer_chunks {packet : Nat → UInt8} {chunk : PcmChunk} {buffer : ReceiveBuffer}
    (hensure : ensureReceivebuffer env s (audioBufferms packet) (audioChunk packet) = .ok (s', chunk, buffer)) :
    Derived env.opus (audioChunk packet) chunk ∧ buffer.contents ⊆ heldChunks s := by
  rcases ensureReceivebuffer_cases hensure with ⟨hbuffer, -, rfl⟩ | ⟨-, chunkMs, hduration, -, -, rfl⟩
  · refine ⟨.refl _ _, ?_⟩
    rw [heldChunks_of_some hbuffer]
    exact List.Subset.refl _
  · obtain ⟨decoded, hdecode, hpair⟩ := except_bind_ok hduration
    obtain ⟨rfl, -⟩ := Prod.mk.inj (Except.ok.inj hpair)
    exact ⟨.decode hdecode, List.nil_subset _⟩

/-- A chunk that is stored in a buffer of old ones. -/
theorem storeAudio_chunks (clock : ClientClock) {buffer : ReceiveBuffer} (seqno : UInt32) (chunk : PcmChunk)
    (hbuffer : buffer.contents ⊆ heldChunks s) :
    keptChunks (storeAudio clock s' buffer seqno chunk) ⊆ insert ⟨chunk, seqno⟩ (keptChunks s) := by
  intro stored hmem
  have hstored : stored ∈ heldChunks (storeAudio clock s' buffer seqno chunk) := hmem
  rw [heldChunks_storeAudio] at hstored
  rcases List.mem_cons.mp ((ReceiveBuffer.putChunk_subperm _ _ _).subset hstored) with rfl | hold
  · exact .inl rfl
  · exact .inr (hbuffer ((noteLoss_fields clock s' buffer seqno).2.2.subset hold))

/-- `intercom_handle_audio` stores nothing but the chunk of the packet. -/
theorem handleAudio_chunks (env : ClientEnv) (clock : ClientClock) (s : Client) (packet : Nat → UInt8) :
    Drawn (StoredDerived env.opus) (insert (packetStored packet) (keptChunks s))
      (keptChunks (intercomHandleAudio env clock s packet).state) := by
  rcases handleAudio_cases env clock s packet with ⟨fault, -, hrun⟩ | ⟨s₁, chunk, buffer, hensure, hrun⟩
  · rw [hrun, keptChunks_congr (removeRequest_record s _).2.2]
    exact .subset (StoredDerived.refl env.opus) (Set.subset_insert _ _)
  · obtain ⟨hderived, hbuffer⟩ := ensureReceivebuffer_chunks hensure
    rw [heldChunks, (removeRequest_record s _).2.2] at hbuffer
    rw [packetStored]
    generalize (packetHdr packet).nonce = seqno at hensure hrun hbuffer ⊢
    rcases hrun with ⟨-, hrun⟩ | ⟨-, hrun⟩
    · rw [hrun, keptChunks_congr (sameIntercom_openDevice env clock _ chunk).receivebuffer]
      intro stored hmem
      rcases storeAudio_chunks clock seqno chunk hbuffer hmem with rfl | hold
      · exact ⟨⟨audioChunk packet, seqno⟩, .inl rfl, rfl, hderived⟩
      · exact ⟨stored, .inr hold, .refl _ _⟩
    · rw [hrun]
      have hafter : (pruneMissingPackets (raiseSeqno (withReceivebuffer s₁ buffer) seqno) seqno).receivebuffer =
          some buffer := by
        rw [pruneMissingPackets_receivebuffer, (raiseSeqno_same _ _).2.2]
        rfl
      refine .subset (StoredDerived.refl env.opus) fun stored hmem => .inr (hbuffer ?_)
      rwa [keptChunks, heldChunks_of_some hafter] at hmem

/-- What an AUDIO packet can bring. -/
theorem handlePacket_audio_chunks (env : ClientEnv) (clock : ClientClock) (s : Client) {packet : Nat → UInt8}
    (packetLen : Nat) (haudio : IsAudioPacket packet) :
    Drawn (StoredDerived env.opus) (insert (packetStored packet) (keptChunks s))
        (keptChunks (intercomHandlePacket env clock s packet packetLen).state) ∧
      (intercomHandlePacket env clock s packet packetLen).state.operations = s.operations := by
  cases hseen : intercomRecentlySeen s.recentPackets (packetHdr packet) with
  | true =>
      rw [handlePacket_of_seen hseen]
      exact ⟨.subset (StoredDerived.refl env.opus) (fun stored hmem => .inr hmem), rfl⟩
  | false =>
      rw [handlePacket_of_audio haudio hseen]
      have hnoted := keptChunks_congr (noteRecent_receivebuffer s (packetHdr packet))
      have hchunks := handleAudio_chunks env clock (noteRecent s (packetHdr packet)) packet
      rw [hnoted] at hchunks
      exact ⟨hchunks, (handleAudio_effect env clock _ packet).operations.trans (noteRecent_operations s _)⟩

theorem execute_chunks (opus : OpusDecoder) (s : Client) (op : ServerOperation) :
    Drawn (StoredDerived opus) (keptChunks s) (keptChunks (execute s op)) := by
  cases op with
  | stop =>
      refine .subset (StoredDerived.refl opus) fun stored hmem => ?_
      exact absurd hmem List.not_mem_nil
  | volume percent => exact .subset (StoredDerived.refl opus) fun stored hmem => hmem

/-- The packet of a server operation is dropped, or the operation is executed. -/
theorem handlePacket_operation_chunks (env : ClientEnv) (clock : ClientClock) (s : Client) (op : ServerOperation)
    (stale : Nat → UInt8) :
    let after := intercomHandlePacket env clock s (received stale 1500 (operationBytes op))
      (operationBytes op).length
    Drawn (StoredDerived env.opus) (keptChunks s) (keptChunks after.state) ∧
      (after.state.operations = s.operations ∨ after.state.operations = s.operations ++ [op]) := by
  intro after
  have hbytes := operationPacket_assembled (fun _ => 0) op
  have hstep := deliver_operation env s op (fun _ => 0) stale clock
  rw [Delivery.event, hbytes.load_eq, hbytes.length] at hstep
  have hafter : after = if afterOperation s then ⟨s, none⟩ else ⟨execute (noteRecent s operationHdr) op, none⟩ :=
    hstep
  rw [hafter]
  split_ifs
  · exact ⟨.subset (StoredDerived.refl env.opus) (fun stored hmem => hmem), .inl rfl⟩
  · have hnoted := keptChunks_congr (noteRecent_receivebuffer s operationHdr)
    refine ⟨hnoted ▸ execute_chunks env.opus _ op, .inr ?_⟩
    rw [execute_operations, noteRecent_operations]

/-! ### What is played -/

/-- The chunk is silence. -/
def Silent (chunk : PcmChunk) : Prop := chunk.data = List.replicate chunk.size.toNat 0

/-- What the player is given of a stored chunk: it is decoded, and its length and its data may be those of
another speed. -/
def Handed (opus : OpusDecoder) (speed : SpeedAdjustment) (stored : StoredChunk) (chunk : PcmChunk) : Prop :=
  ∃ decoded, Derived opus stored.chunk decoded ∧ decoded.codec ≠ codecOpus ∧
    (chunk = decoded ∨ ∃ start next,
      chunk = { decoded with size := (speed decoded start next).1, data := (speed decoded start next).2 })

theorem Handed.of_derived {opus : OpusDecoder} {speed : SpeedAdjustment} {before after : StoredChunk}
    {chunk : PcmChunk} (hderived : StoredDerived opus before after) (hhanded : Handed opus speed after chunk) :
    Handed opus speed before chunk := by
  obtain ⟨decoded, hdecoded, hchunk⟩ := hhanded
  exact ⟨decoded, hderived.2.trans hdecoded, hchunk⟩

theorem getEmptychunk_silent (p : PcmChunk) (lengthMs : UInt32) : Silent (getEmptychunk p lengthMs) := rfl

/-- The chunk that is taken is in the receive buffer. -/
theorem taken_kept {chunk : PcmChunk} (htaken : (intercomGetnextaudiochunk s).1 = some chunk) :
    ∃ stored ∈ keptChunks s, stored.chunk = chunk := by
  obtain ⟨buffer, hbuffer, hpeek⟩ := Option.bind_eq_some_iff.mp htaken
  obtain ⟨stored, hstored, rfl⟩ := Option.map_eq_some_iff.mp hpeek
  rcases Nat.eq_zero_or_pos buffer.queue.size with hzero | hpos
  · rw [ReceiveBuffer.peek_of_zero hzero] at hstored
    cases hstored
  · rw [ReceiveBuffer.peek_of_pos hpos] at hstored
    refine ⟨stored, ?_, rfl⟩
    rw [keptChunks, heldChunks_of_some hbuffer]
    exact List.mem_map.mpr ⟨0, List.mem_range.mpr hpos, Option.some.inj hstored⟩

variable {config : ClientConfig} {speed : SpeedAdjustment} {fetched : Fetched}

theorem playNext_handed {clock : ClientClock} {ready : Timespec} {isNear : Bool} {p : PcmChunk}
    (hrun : playNext env speed clock ready isNear p s = .ok fetched) :
    Silent fetched.chunk ∨ ∃ stored ∈ keptChunks s, Handed env.opus speed stored fetched.chunk := by
  obtain ⟨client, -, hrun⟩ := except_bind_ok hrun
  split at hrun
  · cases hrun
    exact .inl (getEmptychunk_silent p 50)
  · rename_i chunk htaken
    obtain ⟨decoded, hdecode, hrun⟩ := except_bind_ok hrun
    cases hrun
    obtain ⟨stored, hkept, rfl⟩ := taken_kept htaken
    refine .inr ⟨stored, hkept, decoded, .decode hdecode, chunkDecode_codec hdecode, ?_⟩
    dsimp only
    split_ifs
    · exact .inl rfl
    · exact .inr ⟨ready, intercomGetTimeNextAudiochunk client, rfl⟩

/-- `getchunk` gives silence or a chunk from the receive buffer. -/
theorem handleGetchunk_handed {clock : ClientClock} {latencyMs : UInt32} {delayp : Option Int64}
    (hrun : Player.handleGetchunk env speed clock latencyMs delayp s = .ok fetched) :
    Silent fetched.chunk ∨ ∃ stored ∈ keptChunks s, Handed env.opus speed stored fetched.chunk := by
  unfold Player.handleGetchunk Player.getchunk at hrun
  split_ifs at hrun
  obtain ⟨⟨t, p, after⟩, hdrop, hrun⟩ := except_bind_ok hrun
  obtain ⟨dropped, rfl⟩ := dropLate_iterate hdrop
  dsimp only at hrun
  split_ifs at hrun
  · refine (playNext_handed hrun).imp_right fun ⟨stored, hkept, hhanded⟩ => ?_
    obtain ⟨before, hbefore, hderived⟩ := (dropped_nothingNew env.opus dropped s).chunks stored hkept
    exact ⟨before, hbefore, hhanded.of_derived hderived⟩
  · cases hrun
    exact .inl (getEmptychunk_silent _ _)

def soundOf (chunks : List PcmChunk) : Set PcmChunk := { chunk | chunk ∈ chunks ∧ ¬Silent chunk }

theorem runNext_fetched {now : Timespec} {m m' : ClientMain} {run : ClientTaskRun}
    (hrun : runNext env now m run = .ok m') : m'.fetched = m.fetched := by
  unfold runNext at hrun
  cases run with
  | task id changed resolved socket clock =>
      dsimp only at hrun
      split at hrun
      · cases hrun
        rfl
      · split at hrun
        · obtain ⟨process, -, hrun⟩ := except_bind_ok hrun
          cases hrun
          rfl
        · cases hrun
          rfl
  | resumePolling k =>
      dsimp only at hrun
      split at hrun
      · cases hrun
        rfl
      · split_ifs at hrun
        · cases hrun
          rfl
        · cases hrun
          rfl

theorem handleIntercom_fetched {results : ClientResults} {m m' : ClientMain} {revents : Revents}
    (hrun : handleIntercom env results m revents = .ok m') : m'.fetched = m.fetched := by
  unfold handleIntercom at hrun
  split_ifs at hrun
  · obtain ⟨process, -, hrun⟩ := except_bind_ok hrun
    cases hrun
    rfl
  · cases hrun
    rfl
  · obtain ⟨process, -, hrun⟩ := except_bind_ok hrun
    cases hrun
    rfl
  · cases hrun
    rfl
  · cases hrun
    rfl
  · cases hrun
    rfl
  · cases hrun
    rfl

/-- Chunks are given to the player that the client keeps. -/
def Fetches (config : ClientConfig) (m m' : ClientMain) : Prop :=
  ∃ more, m'.fetched = m.fetched ++ more ∧
    Drawn (Handed config.env.opus config.speed) (keptChunks m.process.client) (soundOf more)

theorem Fetches.none {m m' : ClientMain} (hsame : m'.fetched = m.fetched) : Fetches config m m' :=
  ⟨[], hsame.trans (List.append_nil _).symm, fun _ hchunk => absurd hchunk.1 List.not_mem_nil⟩

theorem handlePlayer_fetches {results : ClientResults} {m m' : ClientMain}
    (hrun : handlePlayer config results m = .ok m') : Fetches config m m' := by
  unfold handlePlayer at hrun
  split at hrun
  · obtain ⟨⟨ctx, frames⟩, -, hrun⟩ := except_bind_ok hrun
    cases hrun
    exact .none (List.append_nil _)
  · obtain ⟨fetched, hfetch, hrun⟩ := except_bind_ok hrun
    obtain ⟨⟨ctx, frames⟩, -, hrun⟩ := except_bind_ok hrun
    cases hrun
    refine ⟨[fetched.chunk], rfl, fun chunk hchunk => ?_⟩
    obtain rfl := List.mem_singleton.mp hchunk.1
    exact (handleGetchunk_handed hfetch).resolve_left hchunk.2

theorem handleEntry_fetches {results : ClientResults} {m m' : ClientMain} {entry : ReadyEntry}
    (hrun : handleEntry config results m entry = .ok m') : Fetches config m m' := by
  cases entry with
  | device =>
      unfold handleEntry at hrun
      dsimp only at hrun
      split_ifs at hrun
      · exact handlePlayer_fetches hrun
      · cases hrun
        exact .none rfl
  | taskqueue =>
      obtain ⟨after, hqueue, hrun⟩ := except_bind_ok hrun
      split_ifs at hrun
      cases hrun
      refine .none (Runs.run_keeps (fun after : ClientMain => after.fetched = m.fetched) ?_ rfl hqueue)
      exact fun hsame hnext => (runNext_fetched hnext).trans hsame
  | intercom revents => exact .none (handleIntercom_fetched hrun)

/-- A step of the main loop. -/
theorem clientMainStep_fetches {m m' : ClientMain} {event : ClientMainEvent}
    (hrun : clientMainStep config m event = .ok m') : Fetches config m m' := by
  unfold clientMainStep at hrun
  by_cases hexited : m.process.exited = true
  · rw [if_pos hexited] at hrun
    cases hrun
    exact .none rfl
  rw [if_neg hexited] at hrun
  cases event with
  | poll devices taskqueue revents =>
      dsimp only at hrun
      split at hrun
      · cases hrun
        exact .none rfl
      · cases hrun
        exact .none rfl
  | terminate =>
      obtain ⟨process, -, hrun⟩ := except_bind_ok hrun
      cases hrun
      exact .none rfl
  | handle results =>
      dsimp only at hrun
      split at hrun
      · cases hrun
        exact .none rfl
      · rename_i entry batch _
        have hfetches : Fetches config { m with batch } m' := handleEntry_fetches hrun
        exact hfetches

end Snapcastc
