import Snapcastc.ClientHandles
import Snapcastc.InputpipeLookahead
import Snapcastc.IntercomClientStorage
import Snapcastc.PqueueOrder

/-! Whether the client's receive buffer is big enough for what the server reads ahead. The server reads
while the last date is no more than 95 percent of the buffer ahead; the client has room for as many chunks as
fit in the whole buffer, and one. Both numbers are rounded down. -/

namespace Snapcastc

open ArrayHeap Comparator

variable {n : Nat}

theorem storedCmp_totalPreorder : TotalPreorder storedCmp :=
  receivebufferCmp_totalPreorder.comap StoredChunk.chunk

def StoredChunk.playAt (stored : StoredChunk) : Timespec := chunkGetPlayAt (some stored.chunk)

theorem storedCmp_le_iff (c1 c2 : StoredChunk) :
    storedCmp c1 c2 ≤ 0 ↔ timespecCmp c2.playAt c1.playAt ≤ 0 := by
  rw [storedCmp, receivebufferCmp, chunkCmp_eq_timespecCmp]
  rfl

namespace ReceiveBuffer

structure InOrder (buffer : ReceiveBuffer) : Prop where
  cmp : buffer.queue.cmp = storedCmp
  ordered : Ordered storedCmp buffer.queue.data buffer.queue.size

theorem InOrder.new (elements : Nat) (hpos : 0 < elements) (hle : elements ≤ 65536) :
    (ReceiveBuffer.new elements hpos hle).InOrder where
  cmp := rfl
  ordered := fun i _ hi => absurd hi (Nat.not_lt_zero i)

theorem InOrder.dequeue {buffer : ReceiveBuffer} (hin : buffer.InOrder) : buffer.dequeue.InOrder := by
  have hcmp : TotalPreorder buffer.queue.cmp := hin.cmp ▸ storedCmp_totalPreorder
  have hord : Ordered buffer.queue.cmp buffer.queue.data buffer.queue.size := hin.cmp ▸ hin.ordered
  have hnext := (PQueue.served_of_ordered hcmp hord).dequeue_ordered hcmp
  refine ⟨buffer.queue.dequeue_cmp.trans hin.cmp, ?_⟩
  rw [hin.cmp] at hnext
  exact hnext

theorem InOrder.removeOldLoop {buffer : ReceiveBuffer} (hin : buffer.InOrder) (ctime : Timespec)
    (rounds : Nat) (oldestPlayAt : Timespec) : (removeOldLoop ctime rounds buffer oldestPlayAt).InOrder := by
  induction rounds generalizing buffer oldestPlayAt with
  | zero => exact hin
  | succ rounds ih =>
      rw [ReceiveBuffer.removeOldLoop]
      split
      · exact ih hin.dequeue _
      · exact hin

theorem InOrder.removeOldData {buffer : ReceiveBuffer} (hin : buffer.InOrder) (ctime : Timespec) :
    (buffer.removeOldData ctime).InOrder := by
  rw [removeOldData_eq]
  exact hin.removeOldLoop ctime _ _

/-- What is left is not outdated. -/
theorem removeOldData_left {ctime : Timespec} {buffer : ReceiveBuffer} (hin : buffer.InOrder)
    (hdated : ∀ stored ∈ buffer.contents, stored.playAt.tvSec ≠ 0) :
    ∀ stored ∈ (buffer.removeOldData ctime).contents, timespecCmp ctime stored.playAt ≤ 0 := by
  intro stored hmem
  have hleft := hin.removeOldData ctime
  obtain ⟨removed, -, hperm⟩ := buffer.removeOldData_removes ctime
  have hfresh : ¬(buffer.removeOldData ctime).OldestOutdated ctime := by
    obtain ⟨rounds, -, -, hstop, heq⟩ := buffer.removeOldData_iterate ctime
    rwa [heq]
  obtain ⟨i, hi, rfl⟩ := List.mem_map.mp hmem
  have hsize := List.mem_range.mp hi
  obtain ⟨oldest, holdest⟩ : ∃ oldest, oldest = (buffer.removeOldData ctime).queue.data 0 := ⟨_, rfl⟩
  have hroot := hleft.ordered.le_root storedCmp_totalPreorder i hsize
  rw [← holdest, storedCmp_le_iff] at hroot
  have hthere : oldest ∈ (buffer.removeOldData ctime).contents := by
    rw [holdest]
    exact List.mem_map.mpr ⟨0, List.mem_range.mpr (by omega), rfl⟩
  have hdate := hdated oldest (hperm.subset (List.mem_append_right _ hthere))
  have hpeek : (buffer.removeOldData ctime).queue.peek = some oldest := by
    rw [peek_of_pos (by omega), holdest]
  have hcurrent : timespecCmp ctime oldest.playAt ≤ 0 := by
    by_contra hlate
    exact hfresh ⟨oldest, hpeek, hdate, not_le.mp hlate⟩
  exact timespecCmp_totalPreorder.trans _ _ _ hcurrent hroot

/-- A chunk that is to be played last keeps the order. -/
theorem InOrder.enqueue {buffer : ReceiveBuffer} (hin : buffer.InOrder) {stored : StoredChunk}
    (hlast : ∀ other ∈ buffer.contents, timespecCmp other.playAt stored.playAt ≤ 0) :
    (buffer.enqueue stored).InOrder := by
  have hcmp : TotalPreorder buffer.queue.cmp := hin.cmp ▸ storedCmp_totalPreorder
  have hord : Ordered buffer.queue.cmp buffer.queue.data buffer.queue.size := hin.cmp ▸ hin.ordered
  have hharmless : buffer.queue.HarmlessEnqueue stored := by
    refine .inr (.inr (PQueue.aligned_of_last fun i hi => ?_))
    rw [hin.cmp, storedCmp_le_iff]
    exact hlast _ (List.mem_map.mpr ⟨i, List.mem_range.mpr hi, rfl⟩)
  have hnext := PQueue.enqueue_ordered hcmp hord hharmless
  refine ⟨(buffer.queue.enqueue_cmp stored).trans hin.cmp, ?_⟩
  rw [hin.cmp] at hnext
  exact hnext

end ReceiveBuffer

/-- An AUDIO packet that has reached the client, and the clock readings while it is handled. -/
structure Arrival where
  clock : ClientClock
  packet : Nat → UInt8

def Arrival.playAt (a : Arrival) : Timespec := chunkGetPlayAt (some (audioChunk a.packet))

def Arrival.seqno (a : Arrival) : UInt32 := (packetHdr a.packet).nonce

/-- The client after it has handled packets, or when one of them has ended the process. No chunk is taken
for playback in between. -/
def receiveAll (env : ClientEnv) : Client → List Arrival → Outcome Client
  | s, [] => ⟨s, none⟩
  | s, a :: arrivals =>
      match (intercomHandleAudio env a.clock s a.packet).fault with
      | none => receiveAll env (intercomHandleAudio env a.clock s a.packet).state arrivals
      | some _ => intercomHandleAudio env a.clock s a.packet

/-- The receive buffer that `pqueue_enqueue` is called with for a packet that is on time. -/
def bufferAtPut (s : Client) (buffer : ReceiveBuffer) (a : Arrival) : ReceiveBuffer :=
  (noteLoss a.clock (removeRequest s a.seqno) buffer a.seqno).2.removeOldData a.clock.later

/-- `pqueue_enqueue` does not find the buffer full, if it is called for the packet. -/
def FindsRoom (s : Client) (a : Arrival) : Prop :=
  timespecCmp a.playAt a.clock.ctime > 0 → ∀ buffer ∈ s.receivebuffer,
    (bufferAtPut s buffer a).queue.size < (bufferAtPut s buffer a).capacity

theorem storeAudio_receivebuffer (clock : ClientClock) (s : Client) (buffer : ReceiveBuffer)
    (seqno : UInt32) (chunk : PcmChunk) :
    (storeAudio clock s buffer seqno chunk).receivebuffer =
      some ((noteLoss clock s buffer seqno).2.putChunk clock.later ⟨chunk, seqno⟩) :=
  (raiseSeqno_same _ seqno).2.2

theorem removeRequest_receivebuffer (s : Client) (nonce : UInt32) :
    (removeRequest s nonce).receivebuffer = s.receivebuffer := rfl

theorem lateAudio_receivebuffer (s : Client) (buffer : ReceiveBuffer) (seqno : UInt32) :
    (pruneMissingPackets (raiseSeqno (withReceivebuffer s buffer) seqno) seqno).receivebuffer =
      some buffer := (raiseSeqno_same _ seqno).2.2

/-- What `intercom_handle_audio` makes of the receive buffer. -/
theorem handleAudio_buffer (env : ClientEnv) {s : Client} {buffer : ReceiveBuffer}
    (hbuffer : s.receivebuffer = some buffer) (a : Arrival) :
    (intercomHandleAudio env a.clock s a.packet).state.receivebuffer =
      some (if timespecCmp a.playAt a.clock.ctime > 0 then
        (bufferAtPut s buffer a).enqueue ⟨audioChunk a.packet, a.seqno⟩ else buffer) := by
  by_cases hontime : timespecCmp a.playAt a.clock.ctime > 0
  · rw [if_pos hontime, (handleAudio_onTime env hbuffer hontime).receivebuffer, storeAudio_receivebuffer,
      bufferAtPut, Arrival.seqno, ReceiveBuffer.putChunk]
  · have hremoved := (removeRequest_receivebuffer s (packetHdr a.packet).nonce).trans hbuffer
    rw [if_neg hontime, intercomHandleAudio]
    dsimp only
    rw [ensureReceivebuffer_of_some env hremoved]
    dsimp only
    rw [Arrival.playAt] at hontime
    rw [if_neg hontime]
    exact lateAudio_receivebuffer _ buffer _

/-- It is the receive buffer as it was, or an empty one, without outdated chunks. -/
theorem bufferAtPut_cases (s : Client) (buffer : ReceiveBuffer) (a : Arrival) :
    bufferAtPut s buffer a = buffer.removeOldData a.clock.later ∨
      bufferAtPut s buffer a =
        (ReceiveBuffer.new buffer.capacity buffer.capacity_pos buffer.capacity_le).removeOldData
          a.clock.later := by
  rw [bufferAtPut, noteLoss_buffer]
  split_ifs
  · exact .inr rfl
  · exact .inl rfl

/-- A packet brings a chunk, no earlier than it was completed; both clocks show the same time. -/
structure Brings (c : Completed) (a : Arrival) : Prop where
  date : a.playAt = c.playAt
  notEarlier : c.time.toNs ≤ a.clock.ctime.toNs
  goesOn : a.clock.ctime.toNs ≤ a.clock.later.toNs
  normal : a.clock.ctime.Normalised ∧ a.clock.later.Normalised

/-- The packets bring the chunks in order and without a gap; their numbers are counted from `nonce`. -/
def Delivers : UInt32 → List Completed → List Arrival → Prop
  | _, [], [] => True
  | nonce, c :: chunks, a :: arrivals =>
      a.seqno = nonce % nonceMax ∧ Brings c a ∧ Delivers (nonce + 1) chunks arrivals
  | _, _, _ => False

theorem Delivers.split {nonce : UInt32} {chunks : List Completed} {done : List Arrival} {a : Arrival}
    {rest : List Arrival} (hdelivers : Delivers nonce chunks (done ++ a :: rest)) :
    ∃ before c after, chunks = before ++ c :: after ∧ Delivers nonce before done ∧ Brings c a := by
  induction done generalizing nonce chunks with
  | nil =>
      cases chunks with
      | nil => exact absurd hdelivers id
      | cons c chunks => exact ⟨[], c, chunks, rfl, trivial, hdelivers.2.1⟩
  | cons d done ih =>
      cases chunks with
      | nil => exact absurd hdelivers id
      | cons c chunks =>
          obtain ⟨hseqno, hbrings, hrest⟩ := hdelivers
          obtain ⟨before, c', after, rfl, hbefore, hc'⟩ := ih hrest
          exact ⟨c :: before, c', after, rfl, ⟨hseqno, hbrings, hbefore⟩, hc'⟩

theorem Delivers.brings {nonce : UInt32} {chunks : List Completed} {arrivals : List Arrival}
    (hdelivers : Delivers nonce chunks arrivals) : ∀ c ∈ chunks, ∃ a ∈ arrivals, Brings c a := by
  induction arrivals generalizing nonce chunks with
  | nil =>
      cases chunks with
      | nil => exact fun c hc => absurd hc List.not_mem_nil
      | cons c chunks => exact absurd hdelivers id
  | cons a arrivals ih =>
      cases chunks with
      | nil => exact absurd hdelivers id
      | cons c chunks =>
          obtain ⟨-, hbrings, hrest⟩ := hdelivers
          intro c' hc'
          rcases List.mem_cons.mp hc' with rfl | hc'
          · exact ⟨a, List.mem_cons_self, hbrings⟩
          · obtain ⟨a', ha', hbrings'⟩ := ih hrest c' hc'
            exact ⟨a', List.mem_cons_of_mem _ ha', hbrings'⟩

/-! ### The receive buffer over a run -/

/-- The receive buffer is in order and holds chunks that were delivered. -/
structure Holding (capacity : Nat) (done : List Completed) (buffer : ReceiveBuffer) : Prop where
  capacity : buffer.capacity = capacity
  inOrder : buffer.InOrder
  held : (buffer.contents.map StoredChunk.playAt).Subperm (done.map Completed.playAt)

def BufferFilled (capacity : Nat) (done : List Completed) (s : Client) : Prop :=
  ∃ buffer, s.receivebuffer = some buffer ∧ Holding capacity done buffer

theorem Holding.bufferAtPut {capacity : Nat} {done : List Completed} {buffer : ReceiveBuffer}
    (hholding : Holding capacity done buffer) (s : Client) (a : Arrival) :
    ∃ buffer', Holding capacity done buffer' ∧
      bufferAtPut s buffer a = buffer'.removeOldData a.clock.later := by
  rcases bufferAtPut_cases s buffer a with hsame | hnew
  · exact ⟨buffer, hholding, hsame⟩
  · exact ⟨.new buffer.capacity buffer.capacity_pos buffer.capacity_le,
      ⟨hholding.capacity, .new _ _ _, List.nil_subperm⟩, hnew⟩

theorem Holding.removeOldData {capacity : Nat} {done : List Completed} {buffer : ReceiveBuffer}
    (hholding : Holding capacity done buffer) (ctime : Timespec) :
    Holding capacity done (buffer.removeOldData ctime) where
  capacity := (buffer.removeOldData_capacity ctime).trans hholding.capacity
  inOrder := hholding.inOrder.removeOldData ctime
  held := by
    obtain ⟨removed, -, hperm⟩ := buffer.removeOldData_removes ctime
    have hsub := (List.sublist_append_right removed (buffer.removeOldData ctime).contents).map
      StoredChunk.playAt
    exact (hsub.subperm.trans (hperm.map _).subperm).trans hholding.held

theorem Holding.enqueue {capacity : Nat} {done : List Completed} {buffer : ReceiveBuffer}
    (hholding : Holding capacity done buffer) {c : Completed} {stored : StoredChunk}
    (hdate : stored.playAt = c.playAt) (hlast : ∀ d ∈ done, timespecCmp d.playAt c.playAt ≤ 0) :
    Holding capacity (done ++ [c]) (buffer.enqueue stored) where
  capacity := (buffer.queue.enqueue_capacity stored).trans hholding.capacity
  inOrder := by
    refine hholding.inOrder.enqueue fun other hother => ?_
    have hmem := hholding.held.subset (List.mem_map_of_mem hother)
    obtain ⟨d, hd, heq⟩ := List.mem_map.mp hmem
    rw [hdate, ← heq]
    exact hlast d hd
  held := by
    have hsub := subperm_map StoredChunk.playAt (buffer.enqueue_subperm stored)
    rw [List.map_cons, hdate] at hsub
    rw [List.map_append, List.map_singleton]
    exact hsub.trans (((List.subperm_cons _).mpr hholding.held).trans
      (List.perm_append_singleton _ _).symm.subperm)

theorem BufferFilled.step {capacity : Nat} {done : List Completed} {s : Client}
    (hfilled : BufferFilled capacity done s) (env : ClientEnv) {c : Completed} {a : Arrival} (hbrings : Brings c a)
    (hlast : ∀ d ∈ done, timespecCmp d.playAt c.playAt ≤ 0) :
    BufferFilled capacity (done ++ [c]) (intercomHandleAudio env a.clock s a.packet).state := by
  obtain ⟨buffer, hbuffer, hholding⟩ := hfilled
  refine ⟨_, handleAudio_buffer env hbuffer a, ?_⟩
  split_ifs
  · obtain ⟨buffer', hholding', hput⟩ := hholding.bufferAtPut s a
    rw [hput]
    exact (hholding'.removeOldData a.clock.later).enqueue hbrings.date hlast
  · refine ⟨hholding.capacity, hholding.inOrder, hholding.held.trans ?_⟩
    exact ((List.sublist_append_left done [c]).map Completed.playAt).subperm

theorem BufferFilled.run {capacity : Nat} {before chunks : List Completed} {s : Client}
    (hfilled : BufferFilled capacity before s) (env : ClientEnv) {nonce : UInt32} {arrivals : List Arrival}
    (hdelivers : Delivers nonce chunks arrivals)
    (hdates : (before ++ chunks).Pairwise fun a b => timespecCmp a.playAt b.playAt ≤ 0)
    (hreturns : (receiveAll env s arrivals).fault = none) :
    BufferFilled capacity (before ++ chunks) (receiveAll env s arrivals).state := by
  induction arrivals generalizing nonce chunks before s with
  | nil =>
      cases chunks with
      | nil =>
          rw [List.append_nil]
          exact hfilled
      | cons c chunks => exact absurd hdelivers id
  | cons a arrivals ih =>
      cases chunks with
      | nil => exact absurd hdelivers id
      | cons c chunks =>
          obtain ⟨-, hbrings, hrest⟩ := hdelivers
          have hlast : ∀ d ∈ before, timespecCmp d.playAt c.playAt ≤ 0 := fun d hd =>
            (List.pairwise_append.mp hdates).2.2 d hd c List.mem_cons_self
          have hnext := hfilled.step env hbrings hlast
          rw [receiveAll] at hreturns ⊢
          cases hfault : (intercomHandleAudio env a.clock s a.packet).fault with
          | some fault =>
              rw [hfault] at hreturns
              dsimp only at hreturns
              rw [hfault] at hreturns
              cases hreturns
          | none =>
              rw [hfault] at hreturns
              rw [List.append_cons] at hdates ⊢
              exact ih hnext hrest hdates hreturns

/-- The queue has room if fewer than its capacity of the delivered chunks are still to be played. -/
theorem BufferFilled.findsRoom {capacity : Nat} {done : List Completed} {s : Client}
    (hfilled : BufferFilled capacity done s) (a : Arrival) (hdated : ∀ d ∈ done, d.playAt.tvSec ≠ 0)
    (hfew : (done.filter fun d => timespecCmp a.clock.later d.playAt ≤ 0).length < capacity) :
    FindsRoom s a := by
  intro hontime buffer hbuffer
  obtain ⟨held, hheld, hholding⟩ := hfilled
  obtain rfl : held = buffer := Option.some.inj (hheld.symm.trans hbuffer)
  obtain ⟨buffer', hholding', hput⟩ := hholding.bufferAtPut s a
  have hleft := hholding'.removeOldData a.clock.later
  have hdates : ∀ stored ∈ buffer'.contents, stored.playAt.tvSec ≠ 0 := by
    intro stored hstored
    obtain ⟨d, hd, heq⟩ := List.mem_map.mp (hholding'.held.subset (List.mem_map_of_mem hstored))
    rw [← heq]
    exact hdated d hd
  have hcurrent := @ReceiveBuffer.removeOldData_left a.clock.later buffer' hholding'.inOrder hdates
  have hfilter := hleft.held.filter fun date => timespecCmp a.clock.later date ≤ 0
  have hall : ((buffer'.removeOldData a.clock.later).contents.map StoredChunk.playAt).filter
      (fun date => timespecCmp a.clock.later date ≤ 0) =
        (buffer'.removeOldData a.clock.later).contents.map StoredChunk.playAt := by
    refine List.filter_eq_self.mpr fun date hdate => ?_
    obtain ⟨stored, hstored, rfl⟩ := List.mem_map.mp hdate
    exact decide_eq_true (hcurrent stored hstored)
  rw [hall, List.filter_map] at hfilter
  have hlength := hfilter.length_le
  rw [List.length_map, List.length_map, ReceiveBuffer.contents_size] at hlength
  rw [hput, hleft.capacity]
  exact hlength.trans_lt hfew

/-! ### The buffer is big enough -/

/-- Of the chunks that a pipe has completed since it was opened, no more are to be played later than the
receive buffer has room for. -/
def LookaheadFits (bufferms : UInt16) (readMs : Nat) : Prop :=
  ∀ (n : Nat) (stream : Fin (n + 1)) (options : StreamOptions) (events : List (PipeEvent n)) (log : PipeLog),
    options.readMs = readMs → (∀ event ∈ events, event.Fits bufferms readMs) →
      pipeRun bufferms stream (freshPipe options) events = .ok log →
        ∀ now, (laterChunks log now).length ≤ bufferms.toNat / readMs + 1

/-- A client that has allocated its receive buffer for chunks of this length and handles the packets of all
chunks that a pipe has completed since it was opened: `pqueue_enqueue` does not find the buffer full. -/
def NeverFull (bufferms : UInt16) (readMs : Nat) : Prop :=
  ∀ (n : Nat) (stream : Fin (n + 1)) (options : StreamOptions) (events : List (PipeEvent n)) (log : PipeLog),
    options.readMs = readMs → (∀ event ∈ events, event.Fits bufferms readMs ∧ event.AfterEpoch) →
      pipeRun bufferms stream (freshPipe options) events = .ok log →
        ∀ (env : ClientEnv) (s s' : Client) (buffer : ReceiveBuffer), s.receivebuffer = none →
          reallocWhenRequired s bufferms readMs = .ok (s', buffer) →
            ∀ (nonce : UInt32) (arrivals : List Arrival), Delivers nonce log.chunks arrivals →
              arrivals.Pairwise (fun a b => a.clock.later.toNs ≤ b.clock.ctime.toNs) →
                ∀ (done : List Arrival) (a : Arrival) (rest : List Arrival), arrivals = done ++ a :: rest →
                  (receiveAll env (withReceivebuffer s' buffer) done).fault = none →
                    FindsRoom (receiveAll env (withReceivebuffer s' buffer) done).state a

/-- A chunk that fits in the buffer has a length that fits in an `int`. -/
theorem advances_of_lt {bufferms : UInt16} {readMs : Nat}
    (hlt : lookaheadMs bufferms / readMs < bufferms.toNat / readMs) :
    readMs < 2 ^ 31 ∧ Advances readMs := by
  have hbufferms := bufferms.toNat_lt
  have hle : readMs ≤ bufferms.toNat := by
    by_contra hgt
    rw [Nat.div_eq_of_lt (not_le.mp hgt)] at hlt
    exact absurd hlt (Nat.not_lt_zero _)
  exact ⟨by omega, .of_lt (Int.natCast_nonneg readMs) (by omega)⟩

theorem lookaheadFits_of_lt {bufferms : UInt16} {readMs : Nat} (hms : 0 < readMs)
    (hlt : lookaheadMs bufferms / readMs < bufferms.toNat / readMs) : LookaheadFits bufferms readMs := by
  intro n stream options events log hread hfits hrun now
  obtain ⟨hfew, hadvances⟩ := advances_of_lt hlt
  rw [← hread] at hfits hadvances
  have hinv := LookaheadInv.run hadvances hfits hrun
  rw [hread] at hinv
  have hlength := hinv.laterChunks_length hms hfew now
  omega

theorem neverFull_of_lt {bufferms : UInt16} {readMs : Nat} (hms : 0 < readMs)
    (hlt : lookaheadMs bufferms / readMs < bufferms.toNat / readMs) : NeverFull bufferms readMs := by
  intro n stream options events log hread hevents hrun env s s' buffer hnone hrealloc nonce arrivals
    hdelivers hclocks done a rest hsplit hreturns
  have hfits : ∀ event ∈ events, event.Fits bufferms options.readMs := by
    rw [hread]
    exact fun event hevent => (hevents event hevent).1
  obtain ⟨hfew, hadvances⟩ := advances_of_lt hlt
  have hinv := LookaheadInv.run (hread ▸ hadvances) hfits hrun
  rw [hread] at hinv
  have hepoch := completed_afterEpoch (fun event hevent => (hevents event hevent).2) hrun
  subst hsplit
  obtain ⟨before, c, after, hchunks, hbefore, hbrings⟩ := hdelivers.split
  obtain ⟨hdone, -, hlast⟩ := List.pairwise_append.mp hclocks
  have hmem : ∀ d ∈ before, d ∈ log.chunks := fun d hd => by
    rw [hchunks]
    exact List.mem_append_left _ hd
  have hempty : BufferFilled (bufferms.toNat / readMs + 1) [] (withReceivebuffer s' buffer) := by
    rw [reallocWhenRequired_of_none hnone, if_neg hms.ne'] at hrealloc
    cases hrealloc
    exact ⟨_, rfl, rfl, .new _ _ _, List.nil_subperm⟩
  -- the dates of the chunks are in order
  have hdates : before.Pairwise fun a b => timespecCmp a.playAt b.playAt ≤ 0 := by
    have hspaced := hinv.dates.spaced
    rw [hchunks] at hspaced
    refine (List.pairwise_append.mp hspaced).1.imp_of_mem fun {x y} hx hy hpair => ?_
    have hahead := (hinv.dates.ahead y (hmem y hy)).1
    have hnonneg := hadvances.nonneg
    rw [timespecCmp_le_iff_toNs (hinv.dates.before x (hmem x hx)).1 (hinv.dates.before y (hmem y hy)).1]
    omega
  have hfilled := hempty.run env hbefore (by rwa [List.nil_append]) hreturns
  rw [List.nil_append] at hfilled
  refine hfilled.findsRoom a ?_ ?_
  · intro d hd
    have htime := hepoch d (hmem d hd)
    have hahead := (hinv.dates.ahead d (hmem d hd)).1
    obtain ⟨hlo, hhi⟩ := (hinv.dates.before d (hmem d hd)).1
    unfold Timespec.toNs billion at *
    omega
  · have hsub : (before.filter (fun d => timespecCmp a.clock.later d.playAt ≤ 0) ++ [c]).Sublist
        log.chunks := by
      rw [hchunks]
      exact List.filter_sublist.append (List.singleton_sublist.mpr List.mem_cons_self)
    have hwaiting := hinv.waiting_before hms hfew hsub (hbrings.notEarlier.trans hbrings.goesOn) ?_
    · omega
    · intro b hb
      obtain ⟨hb, hcmp⟩ := List.mem_filter.mp hb
      obtain ⟨d, hd, hbrought⟩ := hbefore.brings b hb
      have horder := hlast d hd a List.mem_cons_self
      have hnotEarlier := hbrought.notEarlier
      have hgoesOn := hbrought.goesOn
      have hgoesOn' := hbrings.goesOn
      refine ⟨by omega, ?_⟩
      exact (timespecCmp_le_iff_toNs hbrings.normal.2 (hinv.dates.before b (hmem b hb)).1).mp
        (of_decide_eq_true hcmp)

/-! ### The buffer is used up -/

/-- The client's receive buffer holds as many chunks as were delivered, none is to be played before `oldest`,
and the device is open for the format of the chunks that follow. -/
structure Collects (capacity : Nat) (oldest : Timespec) (count : Nat) (s : Client) : Prop where
  held : ∃ buffer, s.receivebuffer = some buffer ∧ buffer.capacity = capacity ∧ buffer.queue.size = count ∧
    ∀ stored ∈ buffer.contents, timespecCmp oldest stored.playAt ≤ 0
  next : count ≤ s.lastreceviedseqno + 1
  sound : s.tasks.Sound
  opened : s.alsaplayer.initialized = true
  format : s.alsaplayer.frameSize = 2 ∧ s.alsaplayer.channels = 2 ∧ s.alsaplayer.rate = 48000

/-- A packet that is on time, while no chunk that is to be played from `oldest` on is outdated. -/
structure Collected (oldest : Timespec) (count : Nat) (a : Arrival) : Prop where
  seqno : a.seqno.toNat = count
  onTime : timespecCmp a.playAt a.clock.ctime > 0
  current : timespecCmp a.clock.later oldest ≤ 0
  date : timespecCmp oldest a.playAt ≤ 0
  format : (audioChunk a.packet).frameSize = 2 ∧ (audioChunk a.packet).channels = 2 ∧
    (audioChunk a.packet).samples = 48000

/-- The next packet and those that are repeated are not taken for a huge loss. -/
theorem not_hugeLoss {s : Client} {buffer : ReceiveBuffer} {seqno : UInt32}
    (hnext : seqno.toNat ≤ s.lastreceviedseqno + 1) : ¬HugeLoss s buffer seqno := by
  rintro ⟨hnot, hle, hfar⟩
  have hpos : 0 < buffer.capacity := buffer.capacity_pos
  have hseqno : seqno.toNat = s.lastreceviedseqno + 1 := by omega
  have hlt := seqno.toNat_lt
  have hsub : (seqno - 1).toNat = s.lastreceviedseqno := by
    rw [UInt32.toNat_sub_of_le _ _ (by rw [UInt32.le_iff_toNat_le, hseqno]; exact Nat.succ_le_succ (Nat.zero_le _)),
      hseqno]
    rfl
  have hmax : s.lastreceviedseqno ≠ nonceMax.toNat := by
    have hnonceMax : nonceMax.toNat = 2 ^ 32 - 1 := by decide
    omega
  have htrue : isNextChunk s.lastreceviedseqno seqno = true := by
    rw [isNextChunk, hsub, beq_self_eq_true, bne_iff_ne.mpr hmax, Bool.and_self, Bool.or_true]
  exact absurd (hnot.symm.trans htrue) (by decide)

theorem Collects.step {capacity count : Nat} {oldest : Timespec} {s : Client}
    (hcollects : Collects capacity oldest count s) (env : ClientEnv) {a : Arrival}
    (ha : Collected oldest count a) (hroom : FindsRoom s a) :
    count < capacity ∧ (intercomHandleAudio env a.clock s a.packet).fault = none ∧
      Collects capacity oldest (count + 1) (intercomHandleAudio env a.clock s a.packet).state := by
  obtain ⟨buffer, hbuffer, hcapacity, hsize, hdates⟩ := hcollects.held
  have hnext : (removeRequest s a.seqno).lastreceviedseqno = s.lastreceviedseqno := rfl
  have hput : bufferAtPut s buffer a = buffer := by
    rw [bufferAtPut, noteLoss_buffer, if_neg (not_hugeLoss (hnext ▸ ha.seqno.trans_le hcollects.next))]
    refine ReceiveBuffer.removeOldData_of_fresh ?_
    rintro ⟨stored, hpeek, -, hlate⟩
    have hpos : 0 < buffer.queue.size := by
      by_contra hzero
      rw [ReceiveBuffer.peek_of_zero (by omega)] at hpeek
      exact absurd hpeek (Option.not_mem_none stored)
    rw [ReceiveBuffer.peek_of_pos hpos] at hpeek
    have hmem : stored ∈ buffer.contents :=
      List.mem_map.mpr ⟨0, List.mem_range.mpr hpos, Option.some.inj hpeek⟩
    have hle := timespecCmp_totalPreorder.trans _ _ _ ha.current (hdates stored hmem)
    exact absurd hlate (not_lt.mpr hle)
  have hfree := hroom ha.onTime buffer hbuffer
  rw [hput] at hfree
  have hlt : count < capacity := by
    rw [← hsize, ← hcapacity]
    exact hfree
  -- the device is open already
  have hspares := storeAudio_spares a.clock (s := removeRequest s a.seqno) hcollects.sound buffer a.seqno
    (audioChunk a.packet)
  obtain ⟨stored, hstored⟩ : ∃ stored, stored = storeAudio a.clock (removeRequest s a.seqno) buffer a.seqno
      (audioChunk a.packet) := ⟨_, rfl⟩
  have hreturns : intercomHandleAudio env a.clock s a.packet = ⟨stored, none⟩ := by
    rw [intercomHandleAudio]
    dsimp only
    rw [ensureReceivebuffer_of_some env ((removeRequest_receivebuffer s _).trans hbuffer)]
    dsimp only
    have hontime := ha.onTime
    rw [Arrival.playAt] at hontime
    rw [if_pos hontime]
    change Outcome.ofExcept (storeAudio a.clock (removeRequest s a.seqno) buffer a.seqno
      (audioChunk a.packet)) (openDevice env a.clock (storeAudio a.clock (removeRequest s a.seqno) buffer
        a.seqno (audioChunk a.packet)) (audioChunk a.packet)) = _
    rw [← hstored] at hspares ⊢
    have hsame : closeDevice stored (audioChunk a.packet) = .ok stored := by
      obtain ⟨hframeSize, hchannels, hsamples⟩ := ha.format
      obtain ⟨hframeSize', hchannels', hrate'⟩ := hcollects.format
      refine if_neg ?_
      rw [hspares.device.frameSize, hspares.device.channels, hspares.device.rate, hframeSize, hchannels,
        hsamples]
      rintro (hne | hne | hne)
      · exact hne hframeSize'.symm
      · exact hne hchannels'.symm
      · exact hne hrate'.symm
    rw [openDevice, hsame, except_ok_bind, if_pos (hspares.device.initialized.trans hcollects.opened)]
    rfl
  have hnotes := (storeAudio_notes a.clock (removeRequest s a.seqno) buffer a.seqno (audioChunk a.packet)).2
  have hafter := handleAudio_buffer env hbuffer a
  rw [if_pos ha.onTime, hput] at hafter
  rw [hreturns] at hafter ⊢
  rw [← hstored] at hspares hnotes
  have hperm := buffer.queue.enqueue_contents ⟨audioChunk a.packet, a.seqno⟩ hfree
  refine ⟨hlt, rfl, ⟨_, hafter, ?_, ?_, ?_⟩, ?_, hspares.tasks.sound, ?_, ?_⟩
  · exact (buffer.queue.enqueue_capacity _).trans hcapacity
  · have hlength := hperm.length_eq
    rw [List.length_append, PQueue.contents_length, PQueue.contents_length, hsize] at hlength
    exact hlength
  · intro other hother
    rcases List.mem_append.mp (hperm.subset hother) with hother | hother
    · exact hdates other hother
    · rw [List.mem_singleton.mp hother]
      exact ha.date
  · have hseqno := ha.seqno
    dsimp only
    omega
  · exact hspares.device.initialized.trans hcollects.opened
  · obtain ⟨hframeSize, hchannels, hrate⟩ := hcollects.format
    exact ⟨hspares.device.frameSize.trans hframeSize, hspares.device.channels.trans hchannels,
      hspares.device.rate.trans hrate⟩

/-- Packets with consecutive numbers. -/
def AllCollected (oldest : Timespec) : Nat → List Arrival → Prop
  | _, [] => True
  | count, a :: arrivals => Collected oldest count a ∧ AllCollected oldest (count + 1) arrivals

theorem Collects.run {capacity count : Nat} {oldest : Timespec} {s : Client}
    (hcollects : Collects capacity oldest count s) (hcount : count ≤ capacity) (env : ClientEnv)
    {arrivals : List Arrival} (hall : AllCollected oldest count arrivals)
    (hroom : ∀ done a rest, arrivals = done ++ a :: rest → (receiveAll env s done).fault = none →
      FindsRoom (receiveAll env s done).state a) : count + arrivals.length ≤ capacity := by
  induction arrivals generalizing count s with
  | nil => exact hcount
  | cons a arrivals ih =>
      obtain ⟨ha, hall⟩ := hall
      obtain ⟨hlt, hreturns, hnext⟩ := hcollects.step env ha (hroom [] a arrivals rfl rfl)
      have hlength := ih hnext hlt hall fun done b rest hsplit hdone => by
        have hstep := hroom (a :: done) b rest (by rw [hsplit]; rfl)
        rw [receiveAll, hreturns] at hstep
        exact hstep hdone
      rw [List.length_cons]
      omega

/-- The AUDIO packet for a date, without data. -/
def datedPacket (bufferms : UInt16) (nonce : UInt32) (chunk : PcmChunk) : Nat → UInt8 :=
  (assembleAudio (fun _ => 0) bufferms nonce
    ⟨chunk.playAtTvSec, chunk.playAtTvNsec, 48000, 2, 2, 0, codecPcm, []⟩).1.packet

/-- A packet for every chunk, which arrives at once. -/
def arrivalsOf (bufferms : UInt16) : Nat → List Completed → List Arrival
  | _, [] => []
  | count, c :: chunks =>
      ⟨⟨c.time, c.time, ⟨0, 0⟩⟩, datedPacket bufferms (UInt32.ofNat count) c.chunk⟩ ::
        arrivalsOf bufferms (count + 1) chunks

theorem arrivalsOf_length (bufferms : UInt16) (count : Nat) (chunks : List Completed) :
    (arrivalsOf bufferms count chunks).length = chunks.length := by
  induction chunks generalizing count with
  | nil => rfl
  | cons c chunks ih => rw [arrivalsOf, List.length_cons, List.length_cons, ih]

theorem arrivalsOf_mem {bufferms : UInt16} {count : Nat} {chunks : List Completed} {a : Arrival}
    (ha : a ∈ arrivalsOf bufferms count chunks) :
    ∃ c ∈ chunks, a.clock.ctime = c.time ∧ a.clock.later = c.time := by
  induction chunks generalizing count with
  | nil => exact absurd ha List.not_mem_nil
  | cons c chunks ih =>
      rcases List.mem_cons.mp ha with rfl | ha
      · exact ⟨c, List.mem_cons_self, rfl, rfl⟩
      · obtain ⟨c', hc', hclocks⟩ := ih ha
        exact ⟨c', List.mem_cons_of_mem _ hc', hclocks⟩

theorem datedPacket_reads (bufferms : UInt16) (nonce : UInt32) (chunk : PcmChunk) :
    (packetHdr (datedPacket bufferms nonce chunk)).nonce = nonce % nonceMax ∧
      audioChunk (datedPacket bufferms nonce chunk) =
        ⟨chunk.playAtTvSec, chunk.playAtTvNsec, 48000, 2, 2, 0, codecPcm, []⟩ := by
  have hbytes := assembleAudio_assembled (fun _ => 0) bufferms nonce
    ⟨chunk.playAtTvSec, chunk.playAtTvNsec, 48000, 2, 2, 0, codecPcm, []⟩
  exact ⟨congrArg IntercomPacketHdr.nonce (Holds.audioHeader hbytes.holds.left).1,
    Holds.audioChunk rfl hbytes.holds⟩

/-- A chunk that is dated from `oldest` on and was completed until then. -/
structure CompletedUntil (oldest : Timespec) (c : Completed) : Prop where
  time : c.time.Normalised
  date : c.playAt.Normalised
  completed : c.time.toNs ≤ oldest.toNs
  since : oldest.toNs ≤ c.playAt.toNs
  later : c.time.toNs < c.playAt.toNs

theorem CompletedUntil.arrives {oldest : Timespec} (hnormal : oldest.Normalised) {c : Completed}
    (hc : CompletedUntil oldest c) (bufferms : UInt16) {count : Nat} (hcount : count < nonceMax.toNat) :
    let a : Arrival := ⟨⟨c.time, c.time, ⟨0, 0⟩⟩, datedPacket bufferms (UInt32.ofNat count) c.chunk⟩
    a.seqno = UInt32.ofNat count % nonceMax ∧ Brings c a ∧ Collected oldest count a := by
  intro a
  obtain ⟨hnonce, hchunk⟩ := datedPacket_reads bufferms (UInt32.ofNat count) c.chunk
  have hplayAt : a.playAt = c.playAt := by
    rw [Arrival.playAt, hchunk]
    rfl
  have hlt : nonceMax.toNat < 2 ^ 32 := nonceMax.toNat_lt
  refine ⟨hnonce, ⟨hplayAt, le_rfl, le_rfl, hc.time, hc.time⟩, ?_, ?_, ?_, ?_, ?_⟩
  · change (packetHdr _).nonce.toNat = count
    rw [hnonce, UInt32.toNat_mod, UInt32.toNat_ofNat_of_lt' (hcount.trans hlt), Nat.mod_eq_of_lt hcount]
  · rw [hplayAt]
    exact (timespecCmp_pos_iff_toNs hc.date hc.time).mpr hc.later
  · exact (timespecCmp_le_iff_toNs hc.time hnormal).mpr hc.completed
  · rw [hplayAt]
    exact (timespecCmp_le_iff_toNs hnormal hc.date).mpr hc.since
  · rw [hchunk]
    exact ⟨rfl, rfl, rfl⟩

theorem arrivalsOf_spec {oldest : Timespec} (hnormal : oldest.Normalised) (bufferms : UInt16) {count : Nat}
    {chunks : List Completed} (hchunks : ∀ c ∈ chunks, CompletedUntil oldest c)
    (hcount : count + chunks.length ≤ nonceMax.toNat) :
    Delivers (UInt32.ofNat count) chunks (arrivalsOf bufferms count chunks) ∧
      AllCollected oldest count (arrivalsOf bufferms count chunks) := by
  induction chunks generalizing count with
  | nil => exact ⟨trivial, trivial⟩
  | cons c chunks ih =>
      rw [List.length_cons] at hcount
      obtain ⟨hc, hchunks⟩ := List.forall_mem_cons.mp hchunks
      obtain ⟨hseqno, hbrings, hcollected⟩ := hc.arrives hnormal bufferms (by omega : count < nonceMax.toNat)
      obtain ⟨hdelivers, hall⟩ := ih hchunks (by omega : count + 1 + chunks.length ≤ nonceMax.toNat)
      rw [UInt32.ofNat_add] at hdelivers
      exact ⟨⟨hseqno, hbrings, hdelivers⟩, hcollected, hall⟩

/-- A client that has been stopped, while its device is open. -/
def stoppedPlayer : Client :=
  { freshClient 7 true none with alsaplayer := ⟨48000, 2, 2, true, false, 0, none, true, 0, none, none⟩ }

theorem lt_of_neverFull {bufferms : UInt16} {readMs : Nat} (hms : 0 < readMs) (hlt : readMs < 2 ^ 31)
    (hnever : NeverFull bufferms readMs) : lookaheadMs bufferms / readMs < bufferms.toNat / readMs := by
  obtain ⟨log, first, rest, hrun, hchunks, hlength, hfirst, hdate, hrest⟩ :=
    @lookahead_usedUp 0 bufferms readMs hms hlt 0
  have hevents := @usedUpEvents_fit 0 bufferms readMs (lookaheadMs bufferms / readMs + 1)
  have hinv := @DateInv.run 0 bufferms 0 (streamOf readMs) _ log
    (.of_lt (Int.natCast_nonneg readMs) (by change (readMs : Int) < 2 ^ 31; omega))
    (fun event hevent => (hevents event hevent).1) hrun
  have huntil : ∀ c ∈ log.chunks, CompletedUntil firstDate c := by
    intro c hc
    have hnormal := (hinv.before c hc).1
    rw [hchunks] at hc
    rcases List.mem_cons.mp hc with rfl | hc
    · have hless : firstRead.toNs < firstDate.toNs := by decide
      rw [← hfirst] at hless
      refine ⟨?_, hnormal, hless.le, hdate.ge, hless.trans_eq hdate.symm⟩
      rw [hfirst]
      exact ⟨by decide, by decide⟩
    · obtain ⟨htime, hlater⟩ := hrest c hc
      refine ⟨?_, hnormal, ?_, ?_, hlater⟩
      · rw [htime]
        exact ⟨by decide, by decide⟩
      · rw [htime]
      · rw [htime] at hlater
        exact hlater.le
  have hcount : log.chunks.length = lookaheadMs bufferms / readMs + 2 := by
    rw [hchunks, List.length_cons, hlength]
  have hfew : 0 + log.chunks.length ≤ nonceMax.toNat := by
    have hdiv := Nat.div_le_self (lookaheadMs bufferms) readMs
    have hbufferms := bufferms.toNat_lt
    have hlookahead : lookaheadMs bufferms ≤ bufferms.toNat := by
      unfold lookaheadMs
      omega
    have hnonceMax : nonceMax.toNat = 2 ^ 32 - 1 := by decide
    omega
  obtain ⟨hdelivers, hall⟩ := @arrivalsOf_spec firstDate ⟨by decide, by decide⟩ bufferms 0 _ huntil hfew
  have hclocks : (arrivalsOf bufferms 0 log.chunks).Pairwise
      fun a b => a.clock.later.toNs ≤ b.clock.ctime.toNs := by
    rw [hchunks, arrivalsOf]
    refine List.pairwise_cons.mpr ⟨fun b hb => ?_, ?_⟩
    · obtain ⟨c, hc, hctime, -⟩ := arrivalsOf_mem hb
      rw [hctime, (hrest c hc).1]
      change first.time.toNs ≤ firstDate.toNs
      rw [hfirst]
      decide
    · refine List.pairwise_of_forall_mem_list fun a ha b hb => ?_
      obtain ⟨c, hc, -, hlater⟩ := arrivalsOf_mem ha
      obtain ⟨d, hd, hctime, -⟩ := arrivalsOf_mem hb
      rw [hlater, hctime, (hrest c hc).1, (hrest d hd).1]
  have hrealloc := reallocWhenRequired_of_none (s := stoppedPlayer) rfl bufferms readMs
  rw [if_neg hms.ne'] at hrealloc
  have hroom := hnever 0 0 (streamOf readMs) _ log rfl hevents hrun anyDevice stoppedPlayer _ _ rfl hrealloc _ _
    hdelivers hclocks
  have hstart : Collects (bufferms.toNat / readMs + 1) firstDate 0 (withReceivebuffer
      { stoppedPlayer with bufferms := bufferms } (.new (bufferms.toNat / readMs + 1) (Nat.succ_pos _)
        (elements_le bufferms readMs))) :=
    ⟨⟨_, rfl, rfl, rfl, fun stored hstored => absurd hstored List.not_mem_nil⟩, Nat.zero_le _,
      TaskPool.Sound.empty.postTask _ _ _ _, rfl, rfl, rfl, rfl⟩
  have hend := hstart.run (Nat.zero_le _) anyDevice hall hroom
  rw [arrivalsOf_length] at hend
  omega

/-- The receive buffer has room for all that the server reads ahead if and only if a multiple of the chunk
length lies above the look-ahead and not above the buffer length. -/
theorem buffer_bigEnough_iff (bufferms : UInt16) (readMs : Nat) (hms : 0 < readMs) (hlt : readMs < 2 ^ 31) :
    LookaheadFits bufferms readMs ∧ NeverFull bufferms readMs ↔
      lookaheadMs bufferms / readMs < bufferms.toNat / readMs :=
  ⟨fun hboth => lt_of_neverFull hms hlt hboth.2,
    fun hless => ⟨lookaheadFits_of_lt hms hless, neverFull_of_lt hms hless⟩⟩

/-- With chunks of 20 ms and a buffer of a second, it has. -/
theorem buffer_bigEnough_default : LookaheadFits 1000 20 ∧ NeverFull 1000 20 :=
  (buffer_bigEnough_iff 1000 20 (by decide) (by decide)).mpr (by decide)

/-- Just before the first of them is to be played, chunks of 300 ms are read as long as the last date is no
more than 950 ms away. -/
def longChunks : List (PipeEvent 0) :=
  let soon := .handle ⟨⟨1, 99999000⟩, ⟨1, 99999000⟩⟩ (some (List.replicate 300 7)) none .empty
  [.init (some 4), .mark .playing none, readAt 1 300, soon, soon, soon, soon]

/-- Five of them wait where there is room for four. -/
theorem buffer_tooSmall : ¬(LookaheadFits 1000 300 ∧ NeverFull 1000 300) := by
  rintro ⟨hfits, -⟩
  obtain ⟨log, hrun, hview⟩ := except_map_ok (show (pipeRun 1000 0 (freshPipe (streamOf 300)) longChunks).map
    (fun log => (laterChunks log ⟨1, 99999000⟩).length) = .ok 5 by decide +kernel)
  have hfour := hfits 0 0 (streamOf 300) longChunks log rfl (by decide) hrun ⟨1, 99999000⟩
  rw [hview] at hfour
  exact absurd hfour (by decide)

end Snapcastc
