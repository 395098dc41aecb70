import Snapcastc.IntercomClientMissing

/-! Whether a chunk that `intercom_handle_audio` accepts is in the receive buffer afterwards. When the
queue is full, `pqueue_enqueue` does nothing, and its caller does not see that: the request for the
packet was removed and its number noted before. -/

namespace Snapcastc

/-- The chunk was to be played before `ctime`, as `remove_old_data_from_receivebuffer` tests it. -/
def Outdated (ctime : Timespec) (stored : StoredChunk) : Prop :=
  (chunkGetPlayAt (some stored.chunk)).tvSec ≠ 0 ∧
    timespecCmp ctime (chunkGetPlayAt (some stored.chunk)) > 0

instance (ctime : Timespec) (stored : StoredChunk) : Decidable (Outdated ctime stored) :=
  inferInstanceAs (Decidable (_ ∧ _))

namespace ReceiveBuffer

/-- The chunk that would be played next is outdated. -/
def OldestOutdated (ctime : Timespec) (buffer : ReceiveBuffer) : Prop :=
  ∃ oldest ∈ buffer.queue.peek, Outdated ctime oldest

instance (ctime : Timespec) (buffer : ReceiveBuffer) : Decidable (buffer.OldestOutdated ctime) :=
  decidable_of_iff (buffer.queue.peek.any fun oldest => Outdated ctime oldest) (by
    rw [OldestOutdated, Option.any_eq_true]
    simp only [decide_eq_true_eq]
    exact exists_congr fun oldest => Iff.rfl)

theorem peek_of_pos {buffer : ReceiveBuffer} (hpos : 0 < buffer.queue.size) :
    buffer.queue.peek = some (buffer.queue.data 0) := if_neg (by omega)

theorem peek_of_zero {buffer : ReceiveBuffer} (hzero : buffer.queue.size = 0) :
    buffer.queue.peek = none := if_pos (by omega)

/-- The test of the loop is the one on the oldest chunk; without a chunk it fails. -/
theorem loopTest_iff (ctime : Timespec) (buffer : ReceiveBuffer) :
    ((chunkGetPlayAt buffer.peek).tvSec ≠ 0 ∧ timespecCmp ctime (chunkGetPlayAt buffer.peek) > 0) ↔
      buffer.OldestOutdated ctime := by
  rw [OldestOutdated, peek]
  cases buffer.queue.peek with
  | none => simp [chunkGetPlayAt]
  | some oldest => simp [Outdated]

/-- An outdated oldest chunk leaves the buffer first. -/
theorem dequeue_oldest {ctime : Timespec} {buffer : ReceiveBuffer}
    (hold : buffer.OldestOutdated ctime) :
    ∃ oldest, Outdated ctime oldest ∧ (oldest :: buffer.dequeue.contents).Perm buffer.contents := by
  obtain ⟨oldest, hpeek, hout⟩ := hold
  have hpos : 0 < buffer.queue.size := by
    by_contra hzero
    rw [peek_of_zero (by omega)] at hpeek
    exact absurd hpeek (Option.not_mem_none oldest)
  rw [peek_of_pos hpos] at hpeek
  cases hpeek
  exact ⟨_, hout, buffer.queue.dequeue_contents hpos⟩

/-- The loop takes outdated chunks away, and nothing else. -/
theorem removeOldLoop_removes (ctime : Timespec) (rounds : Nat) (buffer : ReceiveBuffer) :
    ∃ removed : List StoredChunk, (∀ stored ∈ removed, Outdated ctime stored) ∧
      (removed ++ (removeOldLoop ctime rounds buffer (chunkGetPlayAt buffer.peek)).contents).Perm
        buffer.contents := by
  induction rounds generalizing buffer with
  | zero => exact ⟨[], by simp, List.Perm.refl _⟩
  | succ rounds ih =>
      rw [removeOldLoop]
      split
      · rename_i htest
        obtain ⟨oldest, hout, hperm⟩ := dequeue_oldest ((loopTest_iff ctime buffer).mp htest)
        obtain ⟨removed, hremoved, hrest⟩ := ih buffer.dequeue
        exact ⟨oldest :: removed, List.forall_mem_cons.mpr ⟨hout, hremoved⟩,
          (hrest.cons oldest).trans hperm⟩
      · exact ⟨[], by simp, List.Perm.refl _⟩

theorem removeOldData_eq (ctime : Timespec) (buffer : ReceiveBuffer) :
    buffer.removeOldData ctime =
      removeOldLoop ctime buffer.queue.size buffer (chunkGetPlayAt buffer.peek) := by
  rw [removeOldData]
  cases hpeek : buffer.peek with
  | some oldest => rfl
  | none =>
      cases buffer.queue.size with
      | zero => rfl
      | succ rounds => simp [removeOldLoop, chunkGetPlayAt]

theorem removeOldData_removes (ctime : Timespec) (buffer : ReceiveBuffer) :
    ∃ removed : List StoredChunk, (∀ stored ∈ removed, Outdated ctime stored) ∧
      (removed ++ (buffer.removeOldData ctime).contents).Perm buffer.contents := by
  rw [removeOldData_eq]
  exact removeOldLoop_removes ctime _ buffer

/-- The loop dequeues until its test fails, or its rounds are used up. -/
theorem removeOldLoop_iterate (ctime : Timespec) (rounds : Nat) (buffer : ReceiveBuffer) :
    ∃ done ≤ rounds, (∀ earlier < done, (dequeue^[earlier] buffer).OldestOutdated ctime) ∧
      (done < rounds → ¬(dequeue^[done] buffer).OldestOutdated ctime) ∧
      removeOldLoop ctime rounds buffer (chunkGetPlayAt buffer.peek) = dequeue^[done] buffer := by
  induction rounds generalizing buffer with
  | zero => exact ⟨0, le_rfl, fun _ hearlier => absurd hearlier (Nat.not_lt_zero _),
      fun hlt => absurd hlt (lt_irrefl 0), rfl⟩
  | succ rounds ih =>
      rw [removeOldLoop]
      split
      · rename_i htest
        obtain ⟨done, hdone, hearlier, hstop, hloop⟩ := ih buffer.dequeue
        refine ⟨done + 1, Nat.succ_le_succ hdone, fun earlier hlt => ?_,
          fun hlt => hstop (Nat.lt_of_succ_lt_succ hlt), hloop⟩
        cases earlier with
        | zero => exact (loopTest_iff ctime buffer).mp htest
        | succ earlier => exact hearlier earlier (Nat.lt_of_succ_lt_succ hlt)
      · rename_i htest
        exact ⟨0, Nat.zero_le _, fun _ hearlier => absurd hearlier (Nat.not_lt_zero _),
          fun _ => mt (loopTest_iff ctime buffer).mpr htest, rfl⟩

theorem dequeue_iterate_size (buffer : ReceiveBuffer) (rounds : Nat) :
    (dequeue^[rounds] buffer).queue.size = buffer.queue.size - rounds := by
  induction rounds generalizing buffer with
  | zero => rfl
  | succ rounds ih =>
      have hsize : buffer.dequeue.queue.size = buffer.queue.size - 1 := buffer.queue.dequeue_size
      rw [Function.iterate_succ_apply, ih, hsize]
      omega

/-- The loop of the source ends after at most as many rounds as there are chunks: it dequeues as long
as the oldest chunk is outdated. -/
theorem removeOldData_iterate (ctime : Timespec) (buffer : ReceiveBuffer) :
    ∃ rounds ≤ buffer.queue.size,
      (∀ earlier < rounds, (dequeue^[earlier] buffer).OldestOutdated ctime) ∧
      ¬(dequeue^[rounds] buffer).OldestOutdated ctime ∧
      buffer.removeOldData ctime = dequeue^[rounds] buffer := by
  obtain ⟨rounds, hle, hearlier, hstop, hloop⟩ :=
    removeOldLoop_iterate ctime buffer.queue.size buffer
  refine ⟨rounds, hle, hearlier, ?_, (removeOldData_eq ctime buffer).trans hloop⟩
  rcases Nat.lt_or_ge rounds buffer.queue.size with hlt | hge
  · exact hstop hlt
  · rintro ⟨oldest, hpeek, -⟩
    rw [peek_of_zero (by rw [dequeue_iterate_size]; omega)] at hpeek
    exact absurd hpeek (Option.not_mem_none oldest)

/-- `remove_old_data_from_receivebuffer` ends, takes chunks away that were to be played before the
current time and no others, and leaves none of them at the head of the queue. -/
theorem removeOldData_ends (ctime : Timespec) (buffer : ReceiveBuffer) :
    (∃ rounds ≤ buffer.queue.size,
      (∀ earlier < rounds, (dequeue^[earlier] buffer).OldestOutdated ctime) ∧
      ¬(dequeue^[rounds] buffer).OldestOutdated ctime ∧
      buffer.removeOldData ctime = dequeue^[rounds] buffer) ∧
    (∃ removed : List StoredChunk,
      (∀ stored ∈ removed, timespecCmp (chunkGetPlayAt (some stored.chunk)) ctime < 0) ∧
      (removed ++ (buffer.removeOldData ctime).contents).Perm buffer.contents) ∧
    ((buffer.removeOldData ctime).contents = [] ∨
      ∃ head, (buffer.removeOldData ctime).queue.peek = some head ∧
        (timespecCmp (chunkGetPlayAt (some head.chunk)) ctime ≥ 0 ∨
          (chunkGetPlayAt (some head.chunk)).tvSec = 0)) := by
  have hiterate := buffer.removeOldData_iterate ctime
  obtain ⟨removed, hremoved, hperm⟩ := buffer.removeOldData_removes ctime
  refine ⟨hiterate, ⟨removed, fun stored hmem => ?_, hperm⟩, ?_⟩
  · exact (timespecCmp_totalPreorder.swap _ _).mp (hremoved stored hmem).2
  · obtain ⟨rounds, -, -, hstop, heq⟩ := hiterate
    rw [← heq] at hstop
    generalize buffer.removeOldData ctime = left at hstop
    rcases Nat.eq_zero_or_pos left.queue.size with hzero | hpos
    · exact Or.inl (List.eq_nil_of_length_eq_zero (left.queue.contents_length.trans hzero))
    · refine Or.inr ⟨_, peek_of_pos hpos, ?_⟩
      by_contra hnot
      rw [not_or] at hnot
      refine hstop ⟨_, peek_of_pos hpos, hnot.2, ?_⟩
      exact (timespecCmp_totalPreorder.swap _ _).mpr (not_le.mp hnot.1)

theorem contents_size (buffer : ReceiveBuffer) : buffer.contents.length = buffer.queue.size :=
  buffer.queue.contents_length

theorem removeOldLoop_capacity (ctime : Timespec) (rounds : Nat) (buffer : ReceiveBuffer)
    (oldestPlayAt : Timespec) :
    (removeOldLoop ctime rounds buffer oldestPlayAt).queue.capacity = buffer.queue.capacity := by
  induction rounds generalizing buffer oldestPlayAt with
  | zero => rfl
  | succ rounds ih =>
      rw [removeOldLoop]
      split
      · rw [ih]
        exact buffer.queue.dequeue_capacity
      · rfl

theorem removeOldData_capacity (ctime : Timespec) (buffer : ReceiveBuffer) :
    (buffer.removeOldData ctime).queue.capacity = buffer.queue.capacity := by
  rw [removeOldData_eq]
  exact removeOldLoop_capacity ctime _ buffer _

theorem removeOldData_size_le (ctime : Timespec) (buffer : ReceiveBuffer) :
    (buffer.removeOldData ctime).queue.size ≤ buffer.queue.size := by
  obtain ⟨removed, -, hperm⟩ := buffer.removeOldData_removes ctime
  have hlength := hperm.length_eq
  rw [List.length_append, contents_size, contents_size] at hlength
  omega

/-- With an outdated oldest chunk, at least one chunk is taken away. -/
theorem removeOldData_size_lt {ctime : Timespec} {buffer : ReceiveBuffer}
    (hold : buffer.OldestOutdated ctime) :
    (buffer.removeOldData ctime).queue.size < buffer.queue.size := by
  obtain ⟨oldest, -, hdequeue⟩ := dequeue_oldest hold
  have hdequeued := hdequeue.length_eq
  rw [List.length_cons, contents_size, contents_size] at hdequeued
  obtain ⟨rounds, hrounds⟩ : ∃ rounds, buffer.queue.size = rounds + 1 :=
    ⟨buffer.queue.size - 1, by omega⟩
  obtain ⟨removed, -, hperm⟩ := removeOldLoop_removes ctime rounds buffer.dequeue
  have hlength := hperm.length_eq
  rw [List.length_append, contents_size, contents_size] at hlength
  rw [removeOldData_eq, hrounds, removeOldLoop, if_pos ((loopTest_iff ctime buffer).mpr hold)]
  omega

theorem removeOldData_of_fresh {ctime : Timespec} {buffer : ReceiveBuffer}
    (hfresh : ¬buffer.OldestOutdated ctime) : buffer.removeOldData ctime = buffer := by
  rw [removeOldData_eq]
  cases buffer.queue.size with
  | zero => rfl
  | succ rounds => exact if_neg fun htest => hfresh ((loopTest_iff ctime buffer).mp htest)

theorem enqueue_keeps (buffer : ReceiveBuffer) (stored : StoredChunk) :
    buffer.contents.Subperm (buffer.enqueue stored).contents := by
  rcases Nat.lt_or_ge buffer.queue.size buffer.queue.capacity with hroom | hfull
  · have hperm := buffer.queue.enqueue_contents stored hroom
    exact (List.sublist_append_left _ _).subperm.trans hperm.symm.subperm
  · have hsame : (buffer.enqueue stored).queue = buffer.queue :=
      buffer.queue.enqueue_of_full stored hfull
    rw [contents, contents, hsame]

theorem enqueue_of_room {buffer : ReceiveBuffer} (stored : StoredChunk)
    (hroom : buffer.queue.size < buffer.queue.capacity) :
    stored ∈ (buffer.enqueue stored).contents := by
  have hperm := buffer.queue.enqueue_contents stored hroom
  exact hperm.mem_iff.mpr (List.mem_append_right _ List.mem_cons_self)

/-- A chunk that is not outdated stays in the buffer. -/
theorem putChunk_keeps {ctime : Timespec} (buffer : ReceiveBuffer) (stored : StoredChunk)
    {other : StoredChunk} (hfresh : ¬Outdated ctime other) :
    buffer.contents.count other ≤ (buffer.putChunk ctime stored).contents.count other := by
  obtain ⟨removed, hremoved, hperm⟩ := buffer.removeOldData_removes ctime
  have hnone : removed.count other = 0 :=
    List.count_eq_zero.mpr fun hmem => hfresh (hremoved other hmem)
  calc
    buffer.contents.count other
        = (removed ++ (buffer.removeOldData ctime).contents).count other :=
          (hperm.count_eq other).symm
    _ = (buffer.removeOldData ctime).contents.count other := by
          rw [List.count_append, hnone, Nat.zero_add]
    _ ≤ (buffer.putChunk ctime stored).contents.count other :=
          (enqueue_keeps _ stored).count_le other

/-- A chunk is in the buffer after it was put there if the buffer had room, if its oldest chunk was
outdated, or if the chunk was there already; and in no other case. -/
theorem putChunk_stored_iff {ctime : Timespec} {buffer : ReceiveBuffer} (stored : StoredChunk)
    (hsize : buffer.queue.size ≤ buffer.capacity) :
    stored ∈ (buffer.putChunk ctime stored).contents ↔
      buffer.queue.size < buffer.capacity ∨ buffer.OldestOutdated ctime ∨
        stored ∈ buffer.contents := by
  have hcapacity := buffer.removeOldData_capacity ctime
  rw [capacity] at hsize ⊢
  constructor
  · intro hmem
    by_contra hnot
    rw [not_or, not_or] at hnot
    obtain ⟨hfull, hfresh, hnew⟩ := hnot
    rw [putChunk, removeOldData_of_fresh hfresh] at hmem
    have hsame : (buffer.enqueue stored).queue = buffer.queue :=
      buffer.queue.enqueue_of_full stored (by omega)
    rw [contents, hsame] at hmem
    exact hnew hmem
  · rintro (hroom | hold | hthere)
    · have hle := buffer.removeOldData_size_le ctime
      exact enqueue_of_room stored (by omega)
    · have hlt := removeOldData_size_lt hold
      exact enqueue_of_room stored (by omega)
    · by_cases hold : buffer.OldestOutdated ctime
      · have hlt := removeOldData_size_lt hold
        exact enqueue_of_room stored (by omega)
      · rw [putChunk, removeOldData_of_fresh hold]
        exact (enqueue_keeps buffer stored).subset hthere

/-- `pqueue_enqueue` keeps to the capacity. -/
theorem putChunk_size_le (ctime : Timespec) {buffer : ReceiveBuffer} (stored : StoredChunk)
    (hsize : buffer.queue.size ≤ buffer.capacity) :
    (buffer.putChunk ctime stored).queue.size ≤ (buffer.putChunk ctime stored).capacity := by
  have hcapacity := buffer.removeOldData_capacity ctime
  have hle := buffer.removeOldData_size_le ctime
  change ((buffer.removeOldData ctime).queue.enqueue stored).size ≤
    ((buffer.removeOldData ctime).queue.enqueue stored).capacity
  rw [PQueue.enqueue_capacity, PQueue.enqueue_size]
  rw [capacity] at hsize
  split
  · omega
  · omega

theorem dequeue_size_le {buffer : ReceiveBuffer} (hsize : buffer.queue.size ≤ buffer.capacity) :
    buffer.dequeue.queue.size ≤ buffer.dequeue.capacity := by
  change buffer.queue.dequeue.2.size ≤ buffer.queue.dequeue.2.capacity
  rw [PQueue.dequeue_capacity, PQueue.dequeue_size]
  exact (Nat.sub_le _ _).trans hsize

end ReceiveBuffer

def heldChunks (s : Client) : List StoredChunk := s.receivebuffer.elim [] ReceiveBuffer.contents

/-- The queue of the receive buffer has no more elements than its capacity. -/
def Client.WithinCapacity (s : Client) : Prop :=
  ∀ buffer ∈ s.receivebuffer, buffer.queue.size ≤ buffer.capacity

/-! ### The capacity -/

theorem Client.WithinCapacity.of_some {s : Client} {buffer : ReceiveBuffer}
    (hbuffer : s.receivebuffer = some buffer) (hsize : buffer.queue.size ≤ buffer.capacity) :
    s.WithinCapacity := by
  intro buffer' hbuffer'
  rw [hbuffer] at hbuffer'
  cases hbuffer'
  exact hsize

theorem Client.WithinCapacity.congr {s s' : Client} (hwithin : s.WithinCapacity)
    (hsame : s'.receivebuffer = s.receivebuffer) : s'.WithinCapacity := by
  intro buffer hbuffer
  rw [hsame] at hbuffer
  exact hwithin buffer hbuffer

/-- The chunk of an AUDIO packet, as it is stored: when the receive buffer has to be allocated first,
it was decoded to find out its duration. -/
def packetChunk (env : ClientEnv) (s : Client) (packet : Nat → UInt8) : PcmChunk :=
  match s.receivebuffer with
  | some _ => audioChunk packet
  | none =>
      match chunkDecode env.opus s.decoder (audioChunk packet) with
      | .ok decoded => decoded
      | .error _ => audioChunk packet

/-- `intercom_handle_audio` takes the loss before a packet for a huge one and resets the buffer. -/
def HugeLoss (s : Client) (buffer : ReceiveBuffer) (seqno : UInt32) : Prop :=
  isNextChunk s.lastreceviedseqno seqno = false ∧ s.lastreceviedseqno ≤ seqno.toNat ∧
    buffer.capacity ≤ seqno.toNat - s.lastreceviedseqno

instance (s : Client) (buffer : ReceiveBuffer) (seqno : UInt32) :
    Decidable (HugeLoss s buffer seqno) := inferInstanceAs (Decidable (_ ∧ _ ∧ _))

/-- The receive buffer takes a chunk for the packet: it is not there yet, it has room, its oldest
chunk is outdated, it is reset, or it holds the chunk already. -/
def TakesChunk (clock : ClientClock) (s : Client) (packet : Nat → UInt8) : Prop :=
  ∀ buffer ∈ s.receivebuffer,
    buffer.queue.size < buffer.capacity ∨ buffer.OldestOutdated clock.later ∨
      HugeLoss s buffer (packetHdr packet).nonce ∨
      ⟨audioChunk packet, (packetHdr packet).nonce⟩ ∈ buffer.contents

/-- An accepted packet was dealt with: it is not requested any more, its number was noted, its chunk is
in the receive buffer, and so are all chunks that were there and are not outdated, unless the buffer
was reset. -/
structure ChunkStored (clock : ClientClock) (s s' : Client) (seqno : UInt32) (chunk : PcmChunk) :
    Prop where
  unrequested : s'.missingPackets.count seqno ≤ s.missingPackets.count seqno - 1
  noted : seqno.toNat ≤ s'.lastreceviedseqno
  stored : ⟨chunk, seqno⟩ ∈ heldChunks s'
  kept : ∀ buffer ∈ s.receivebuffer, HugeLoss s buffer seqno ∨
    ∀ other, ¬Outdated clock.later other →
      buffer.contents.count other ≤ (heldChunks s').count other

theorem noteLoss_buffer (clock : ClientClock) (s : Client) (buffer : ReceiveBuffer)
    (seqno : UInt32) :
    (noteLoss clock s buffer seqno).2 =
      if HugeLoss s buffer seqno then
        ReceiveBuffer.new buffer.capacity buffer.capacity_pos buffer.capacity_le
      else buffer := by
  rw [noteLoss]
  cases hnext : isNextChunk s.lastreceviedseqno seqno with
  | true =>
      rw [if_pos rfl, if_neg fun hhuge : HugeLoss s buffer seqno =>
        absurd (hnext.symm.trans hhuge.1) (by decide)]
  | false =>
      rw [if_neg Bool.false_ne_true]
      dsimp only
      by_cases hretransmit : seqno.toNat < s.lastreceviedseqno
      · rw [if_pos (decide_eq_true hretransmit),
          if_neg fun hhuge : HugeLoss s buffer seqno => absurd hhuge.2.1 (by omega)]
      · rw [if_neg (by rwa [decide_eq_true_eq])]
        by_cases hfar : buffer.capacity ≤ seqno.toNat - s.lastreceviedseqno
        · rw [if_pos hfar, if_pos (show HugeLoss s buffer seqno from ⟨hnext, by omega, hfar⟩)]
        · rw [if_neg hfar, if_neg fun hhuge : HugeLoss s buffer seqno => hfar hhuge.2.2]

theorem noteLoss_missing (clock : ClientClock) (s : Client) (buffer : ReceiveBuffer)
    (seqno : UInt32) :
    (noteLoss clock s buffer seqno).1.missingPackets.count seqno ≤ s.missingPackets.count seqno := by
  unfold noteLoss
  split
  · exact le_rfl
  · dsimp only
    split
    · exact le_rfl
    · split
      · exact le_rfl
      · obtain ⟨registered, evicted, hreq, -, hrange, -⟩ := requestRange_spec clock buffer.capacity s
          (maxRequests s.lastreceviedseqno seqno.toNat buffer.capacity) seqno
        have hkept := congrArg (List.count seqno) hreq.kept
        have hnone : registered.count seqno = 0 :=
          List.count_eq_zero.mpr fun hmem => absurd (hrange seqno hmem).2 (lt_irrefl _)
        rw [List.count_append, List.count_append, hnone] at hkept
        dsimp only
        omega

/-- The chunk that is stored, and the receive buffer it is stored in: a new one, or the one there
was. -/
theorem ensureReceivebuffer_stored {env : ClientEnv} {s s' : Client} {packet : Nat → UInt8}
    {chunk : PcmChunk} {buffer : ReceiveBuffer}
    (hrun : ensureReceivebuffer env s (audioBufferms packet) (audioChunk packet) =
      .ok (s', chunk, buffer)) :
    chunk = packetChunk env s packet ∧
      chunkGetPlayAt (some chunk) = chunkGetPlayAt (some (audioChunk packet)) ∧
      s'.missingPackets = s.missingPackets ∧ s'.lastreceviedseqno = s.lastreceviedseqno ∧
      (s.receivebuffer = none ∧ buffer.queue.size = 0 ∨ s.receivebuffer = some buffer) := by
  rw [packetChunk]
  rcases ensureReceivebuffer_cases hrun with
    ⟨hbuffer, rfl, rfl⟩ | ⟨hnone, chunkMs, hduration, -, rfl, rfl⟩
  · rw [hbuffer]
    exact ⟨rfl, rfl, rfl, rfl, .inr rfl⟩
  · obtain ⟨decoded, hdecode, hpair⟩ := except_bind_ok hduration
    obtain rfl : decoded = chunk := congrArg Prod.fst (Except.ok.inj hpair)
    rw [hnone]
    dsimp only
    rw [hdecode]
    exact ⟨rfl, chunkDecode_playAt hdecode, rfl, rfl, .inl ⟨rfl, rfl⟩⟩

theorem heldChunks_of_some {s : Client} {buffer : ReceiveBuffer}
    (hbuffer : s.receivebuffer = some buffer) : heldChunks s = buffer.contents := by
  rw [heldChunks, hbuffer]
  rfl

theorem heldChunks_storeAudio (clock : ClientClock) (s : Client) (buffer : ReceiveBuffer)
    (seqno : UInt32) (chunk : PcmChunk) :
    heldChunks (storeAudio clock s buffer seqno chunk) =
      ((noteLoss clock s buffer seqno).2.putChunk clock.later ⟨chunk, seqno⟩).contents :=
  heldChunks_of_some (raiseSeqno_same _ seqno).2.2

/-- What storing a chunk does, in a buffer that was reset or in the one there was. -/
theorem storeAudio_stored_iff (clock : ClientClock) {s : Client} {buffer : ReceiveBuffer}
    (seqno : UInt32) (chunk : PcmChunk) (hsize : buffer.queue.size ≤ buffer.capacity) :
    ⟨chunk, seqno⟩ ∈ heldChunks (storeAudio clock s buffer seqno chunk) ↔
      buffer.queue.size < buffer.capacity ∨ buffer.OldestOutdated clock.later ∨
        HugeLoss s buffer seqno ∨ ⟨chunk, seqno⟩ ∈ buffer.contents := by
  rw [heldChunks_storeAudio, noteLoss_buffer]
  by_cases hhuge : HugeLoss s buffer seqno
  · rw [if_pos hhuge, ReceiveBuffer.putChunk_stored_iff _ (Nat.zero_le _)]
    exact ⟨fun _ => .inr (.inr (.inl hhuge)), fun _ => .inl buffer.capacity_pos⟩
  · rw [if_neg hhuge, ReceiveBuffer.putChunk_stored_iff _ hsize]
    simp only [hhuge, false_or]

theorem storeAudio_keeps (clock : ClientClock) {s : Client} {buffer : ReceiveBuffer}
    (seqno : UInt32) (chunk : PcmChunk) (hhuge : ¬HugeLoss s buffer seqno) {other : StoredChunk}
    (hfresh : ¬Outdated clock.later other) :
    buffer.contents.count other ≤
      (heldChunks (storeAudio clock s buffer seqno chunk)).count other := by
  rw [heldChunks_storeAudio, noteLoss_buffer, if_neg hhuge]
  exact buffer.putChunk_keeps _ hfresh

theorem storeAudio_notes (clock : ClientClock) (s : Client) (buffer : ReceiveBuffer) (seqno : UInt32)
    (chunk : PcmChunk) :
    (storeAudio clock s buffer seqno chunk).missingPackets.count seqno ≤
        s.missingPackets.count seqno ∧
      seqno.toNat ≤ (storeAudio clock s buffer seqno chunk).lastreceviedseqno := by
  have hmissing := noteLoss_missing clock s buffer seqno
  unfold storeAudio raiseSeqno
  dsimp only
  split
  · exact ⟨hmissing, le_rfl⟩
  · rename_i hlast
    exact ⟨hmissing, Nat.le_of_not_lt hlast⟩

theorem pruneMissingPackets_receivebuffer (s : Client) (nonce : UInt32) :
    (pruneMissingPackets s nonce).receivebuffer = s.receivebuffer := rfl

theorem noteRecent_receivebuffer (s : Client) (hdr : IntercomPacketHdr) :
    (noteRecent s hdr).receivebuffer = s.receivebuffer := by
  rw [noteRecent]

theorem storeAudio_withinCapacity (clock : ClientClock) (s : Client) {buffer : ReceiveBuffer}
    (seqno : UInt32) (chunk : PcmChunk) (hsize : buffer.queue.size ≤ buffer.capacity) :
    (storeAudio clock s buffer seqno chunk).WithinCapacity := by
  have hnoted : (noteLoss clock s buffer seqno).2.queue.size ≤
      (noteLoss clock s buffer seqno).2.capacity := by
    rw [noteLoss_buffer]
    split
    · exact Nat.zero_le _
    · exact hsize
  exact .of_some (raiseSeqno_same _ seqno).2.2 (ReceiveBuffer.putChunk_size_le _ _ hnoted)

theorem handleAudio_withinCapacity (env : ClientEnv) (clock : ClientClock) {s : Client}
    (hwithin : s.WithinCapacity) (packet : Nat → UInt8) :
    (intercomHandleAudio env clock s packet).state.WithinCapacity := by
  rcases handleAudio_cases env clock s packet with ⟨fault, -, hrun⟩ | ⟨s₁, chunk, buffer, hensure, hrun⟩
  · rw [hrun]
    exact @Client.WithinCapacity.congr s (removeRequest s (packetHdr packet).nonce) hwithin rfl
  · have hsize : buffer.queue.size ≤ buffer.capacity := by
      rcases (ensureReceivebuffer_stored hensure).2.2.2.2 with ⟨-, hempty⟩ | hsome
      · rw [hempty]
        exact Nat.zero_le _
      · exact hwithin buffer hsome
    rcases hrun with ⟨-, hrun⟩ | ⟨-, hrun⟩
    · rw [hrun]
      have hsame := sameIntercom_openDevice env clock
        (storeAudio clock s₁ buffer (packetHdr packet).nonce chunk) chunk
      exact (storeAudio_withinCapacity clock s₁ _ chunk hsize).congr hsame.receivebuffer
    · rw [hrun]
      have hraised : (raiseSeqno (withReceivebuffer s₁ buffer)
          (packetHdr packet).nonce).WithinCapacity :=
        .of_some (raiseSeqno_same (withReceivebuffer s₁ buffer) _).2.2 hsize
      exact hraised.congr (pruneMissingPackets_receivebuffer _ _)

theorem executeAll_withinCapacity {s : Client} (hwithin : s.WithinCapacity)
    (ops : List ServerOperation) : (ops.foldl execute s).WithinCapacity := by
  induction ops generalizing s with
  | nil => exact hwithin
  | cons op ops ih =>
      refine ih ?_
      cases op with
      | stop => exact fun buffer hbuffer => absurd hbuffer (Option.not_mem_none buffer)
      | volume percent => exact @Client.WithinCapacity.congr s (setClientVolume s percent) hwithin rfl

theorem handlePacket_withinCapacity (env : ClientEnv) (clock : ClientClock) {s : Client}
    (hwithin : s.WithinCapacity) (packet : Nat → UInt8) (packetLen : Nat) :
    (intercomHandlePacket env clock s packet packetLen).state.WithinCapacity := by
  have hnoted : (noteRecent s (packetHdr packet)).WithinCapacity :=
    hwithin.congr (noteRecent_receivebuffer s _)
  unfold intercomHandlePacket
  dsimp only
  split_ifs
  · exact hwithin
  · cases hfault : (handleServerOperation (noteRecent s (packetHdr packet)) packet packetLen).fault with
    | none =>
        obtain ⟨ops, hops⟩ := handleServerOperation_executes hfault
        rw [hops]
        exact executeAll_withinCapacity hnoted ops
    | some fault =>
        rw [handleServerOperation] at hfault ⊢
        split
        · rename_i hrun
          rw [hrun] at hfault
          cases hfault
        · exact hnoted
  · exact handleAudio_withinCapacity env clock hnoted packet
  · exact hnoted
  · exact hwithin

theorem clientStep_withinCapacity (env : ClientEnv) {s : Client} (hwithin : s.WithinCapacity)
    (event : ClientEvent) : (clientStep env s event).state.WithinCapacity := by
  cases event with
  | datagram packet packetLen clock => exact handlePacket_withinCapacity env clock hwithin packet packetLen
  | nextChunk =>
      intro buffer hbuffer
      obtain ⟨old, hold, rfl⟩ := Option.map_eq_some_iff.mp hbuffer
      exact ReceiveBuffer.dequeue_size_le (hwithin old hold)

/-- In every run, the receive buffer keeps to its capacity. -/
theorem clientRun_withinCapacity (env : ClientEnv) {s : Client} (hwithin : s.WithinCapacity)
    (events : List ClientEvent) : (clientRun env s events).state.WithinCapacity := by
  induction events generalizing s with
  | nil => exact hwithin
  | cons event events ih =>
      have hnext := clientStep_withinCapacity env hwithin event
      rw [clientRun]
      split
      · exact ih hnext
      · exact hnext

theorem freshClient_withinCapacity (nonce : UInt32) (softvol : Bool) (mixer : Option Mixer) :
    (freshClient nonce softvol mixer).WithinCapacity :=
  fun buffer hbuffer => absurd hbuffer (Option.not_mem_none buffer)

/-! ### Accepted packets -/

theorem ChunkStored.of_same {clock : ClientClock} {s s₁ s₂ : Client} {seqno : UInt32}
    {chunk : PcmChunk} (hsame : SameIntercom s₁ s₂) :
    ChunkStored clock s s₂ seqno chunk ↔ ChunkStored clock s s₁ seqno chunk := by
  have hheld : heldChunks s₂ = heldChunks s₁ := by
    rw [heldChunks, heldChunks, hsame.receivebuffer]
  constructor
  · rintro ⟨hunrequested, hnoted, hstored, hkept⟩
    rw [hsame.missingPackets] at hunrequested
    rw [hsame.lastreceviedseqno] at hnoted
    rw [hheld] at hstored hkept
    exact ⟨hunrequested, hnoted, hstored, hkept⟩
  · rintro ⟨hunrequested, hnoted, hstored, hkept⟩
    rw [← hsame.missingPackets] at hunrequested
    rw [← hsame.lastreceviedseqno] at hnoted
    rw [← hheld] at hstored hkept
    exact ⟨hunrequested, hnoted, hstored, hkept⟩

/-- Storing a chunk does all that is expected, except that the chunk itself may be missing. -/
theorem storeAudio_chunkStored_iff {clock : ClientClock} {s s₁ : Client} {buffer : ReceiveBuffer}
    {seqno : UInt32} (chunk : PcmChunk) (hmissing : s₁.missingPackets = s.missingPackets.erase seqno)
    (hlast : s₁.lastreceviedseqno = s.lastreceviedseqno)
    (hbuffer : ∀ old ∈ s.receivebuffer, old = buffer)
    (hsize : buffer.queue.size ≤ buffer.capacity) :
    ChunkStored clock s (storeAudio clock s₁ buffer seqno chunk) seqno chunk ↔
      buffer.queue.size < buffer.capacity ∨ buffer.OldestOutdated clock.later ∨
        HugeLoss s buffer seqno ∨ ⟨chunk, seqno⟩ ∈ buffer.contents := by
  have hhuge : HugeLoss s₁ buffer seqno ↔ HugeLoss s buffer seqno := by
    rw [HugeLoss, HugeLoss, hlast]
  have hiff := storeAudio_stored_iff clock (s := s₁) seqno chunk hsize
  rw [hhuge] at hiff
  rw [← hiff]
  refine ⟨ChunkStored.stored, fun hstored => ?_⟩
  obtain ⟨hcount, hnoted⟩ := storeAudio_notes clock s₁ buffer seqno chunk
  rw [hmissing] at hcount
  refine ⟨hcount.trans_eq List.count_erase_self, hnoted, hstored, fun old hold => ?_⟩
  obtain rfl := hbuffer old hold
  by_cases hreset : HugeLoss s old seqno
  · exact .inl hreset
  · exact .inr fun other hfresh =>
      storeAudio_keeps clock seqno chunk (fun hreset₁ => hreset (hhuge.mp hreset₁)) hfresh

/-- What `intercom_handle_audio` does when it accepts a packet, up to the opening of the device. -/
theorem handleAudio_accepts (env : ClientEnv) {clock : ClientClock} {s : Client}
    {packet : Nat → UInt8}
    (hontime : timespecCmp (chunkGetPlayAt (some (audioChunk packet))) clock.ctime > 0)
    (hreturns : (intercomHandleAudio env clock s packet).fault = none) :
    ∃ s₁ chunk buffer,
      ensureReceivebuffer env (removeRequest s (packetHdr packet).nonce) (audioBufferms packet)
        (audioChunk packet) = .ok (s₁, chunk, buffer) ∧
      SameIntercom (storeAudio clock s₁ buffer (packetHdr packet).nonce chunk)
        (intercomHandleAudio env clock s packet).state := by
  rcases handleAudio_cases env clock s packet with ⟨fault, -, hrun⟩ | ⟨s₁, chunk, buffer, hensure, hrun⟩
  · rw [hrun] at hreturns
    exact absurd hreturns (Option.some_ne_none fault)
  · refine ⟨s₁, chunk, buffer, hensure, ?_⟩
    rcases hrun with ⟨-, hrun⟩ | ⟨hlate, -⟩
    · rw [hrun]
      exact sameIntercom_openDevice env clock _ chunk
    · rw [(ensureReceivebuffer_stored hensure).2.1] at hlate
      exact absurd hontime hlate

theorem Client.WithinCapacity.stored_iff {s : Client} (hsize : s.WithinCapacity) (env : ClientEnv)
    {clock : ClientClock} {packet : Nat → UInt8}
    (hontime : timespecCmp (chunkGetPlayAt (some (audioChunk packet))) clock.ctime > 0)
    (hreturns : (intercomHandleAudio env clock s packet).fault = none) :
    ChunkStored clock s (intercomHandleAudio env clock s packet).state (packetHdr packet).nonce
        (packetChunk env s packet) ↔
      TakesChunk clock s packet := by
  obtain ⟨s₁, chunk, buffer, hensure, hsame⟩ := handleAudio_accepts env hontime hreturns
  obtain ⟨hchunk, -, hmissing, hlast, hbuffer⟩ := ensureReceivebuffer_stored hensure
  have hpacket : chunk = packetChunk env s packet := hchunk
  have hold : ∀ old ∈ s.receivebuffer, old = buffer := by
    intro old hold
    rcases hbuffer with ⟨hnone, -⟩ | hsome
    · exact absurd (hnone.symm.trans hold) (Option.some_ne_none old).symm
    · exact Option.some.inj (hold.symm.trans hsome)
  have hroom : buffer.queue.size ≤ buffer.capacity := by
    rcases hbuffer with ⟨-, hempty⟩ | hsome
    · rw [hempty]
      exact Nat.zero_le _
    · exact hsize buffer hsome
  rw [ChunkStored.of_same hsame, ← hpacket,
    storeAudio_chunkStored_iff chunk hmissing hlast hold hroom]
  constructor
  · intro htakes old hmem
    obtain rfl := hold old hmem
    have hraw : chunk = audioChunk packet := by
      rw [hpacket, packetChunk, Option.mem_def.mp hmem]
    rwa [hraw] at htakes
  · intro htakes
    rcases hbuffer with ⟨-, hempty⟩ | hsome
    · exact .inl (hempty ▸ buffer.capacity_pos)
    · have hsome : s.receivebuffer = some buffer := hsome
      have hraw : chunk = audioChunk packet := by
        rw [hpacket, packetChunk, hsome]
      rw [hraw]
      exact htakes buffer hsome

/-- When `intercom_handle_audio` accepts a packet, it has removed the request for it, noted its number
and kept all chunks that are not outdated; the packet's own chunk is in the receive buffer afterwards
exactly when the receive buffer takes it. So it is for every receive buffer that is no more than full, and the
receive buffer of a client that runs is never more than full. -/
theorem acceptedChunk_stored_iff (env : ClientEnv) {clock : ClientClock} {packet : Nat → UInt8}
    (hontime : timespecCmp (chunkGetPlayAt (some (audioChunk packet))) clock.ctime > 0) :
    (∀ s : Client, s.WithinCapacity → (intercomHandleAudio env clock s packet).fault = none →
      (ChunkStored clock s (intercomHandleAudio env clock s packet).state (packetHdr packet).nonce
          (packetChunk env s packet) ↔
        TakesChunk clock s packet)) ∧
    ∀ (nonce : UInt32) (softvol : Bool) (mixer : Option Mixer) (events : List ClientEvent),
      let s := (clientRun env (freshClient nonce softvol mixer) events).state
      (intercomHandleAudio env clock s packet).fault = none →
        (ChunkStored clock s (intercomHandleAudio env clock s packet).state (packetHdr packet).nonce
            (packetChunk env s packet) ↔
          TakesChunk clock s packet) := by
  refine ⟨fun s hsize => hsize.stored_iff env hontime, fun nonce softvol mixer events => ?_⟩
  have hsize := clientRun_withinCapacity env (freshClient_withinCapacity nonce softvol mixer) events
  exact hsize.stored_iff env hontime

/-- A chunk finds room in an empty receive buffer for ten chunks. -/
theorem acceptedChunk_stored_room :
    ChunkStored beforeDue (clientAt 4)
      (intercomHandleAudio anyDevice beforeDue (clientAt 4) (audioPacketAt 5)).state
      (packetHdr (audioPacketAt 5)).nonce (packetChunk anyDevice (clientAt 4) (audioPacketAt 5)) := by
  have hbuffer : (clientAt 4).receivebuffer = some (.new 10 (by decide) (by decide)) := rfl
  refine ((acceptedChunk_stored_iff anyDevice (by decide +kernel)).1 _ (.of_some hbuffer (Nat.zero_le _))
    (by decide +kernel)).mpr fun buffer hmem => ?_
  rw [hbuffer] at hmem
  cases hmem
  exact .inl (by decide)

theorem oneSlot_le : 1 ≤ 65536 := by decide

/-- A client whose receive buffer has room for one chunk, because the buffer length the server sends is
shorter than a chunk. -/
def oneSlotClient : Client :=
  { freshClient 7 true none with
    lastreceviedseqno := 4
    receivebuffer := some (.new 1 Nat.one_pos oneSlot_le) }

/-- That client after packet 5. -/
def fullClient : Client := (intercomHandleAudio anyDevice beforeDue oneSlotClient (audioPacketAt 5)).state

/-- The client accepts packet 6, which is on time, and its chunk is lost. -/
theorem acceptedChunk_lost :
    timespecCmp (chunkGetPlayAt (some (audioChunk (audioPacketAt 6)))) beforeDue.ctime > 0 ∧
      (intercomHandleAudio anyDevice beforeDue fullClient (audioPacketAt 6)).fault = none ∧
      ¬ChunkStored beforeDue fullClient
        (intercomHandleAudio anyDevice beforeDue fullClient (audioPacketAt 6)).state
        (packetHdr (audioPacketAt 6)).nonce (packetChunk anyDevice fullClient (audioPacketAt 6)) := by
  refine ⟨by decide +kernel, by decide +kernel, fun hstored => ?_⟩
  have hheld : (heldChunks (intercomHandleAudio anyDevice beforeDue fullClient
      (audioPacketAt 6)).state).map StoredChunk.seqno = [5] := by
    decide +kernel
  have hseqno : (packetHdr (audioPacketAt 6)).nonce = 6 := by
    decide +kernel
  have hmem := List.mem_map_of_mem (f := StoredChunk.seqno) hstored.stored
  rw [hheld] at hmem
  dsimp only at hmem
  rw [hseqno] at hmem
  exact absurd hmem (by decide)

end Snapcastc
