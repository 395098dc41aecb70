import Snapcastc.IntercomClientPackets

/-! The client's record of missing packets over whole runs: datagrams, the request tasks that ask for a
packet again, and the restart of the intercom after an error on the network. -/

namespace Snapcastc

open Bytes

/-- `request_task`: the client afterwards, and the packet it asked for. -/
def requestTask (clock : ClientClock) (s : Client) (reqNonce : UInt32) (retriesLeft : UInt8) :
    Client × Option UInt32 :=
  let s := { s with nonce := s.nonce + 1 }
  if retriesLeft > 0 then
    if alreadyRequesting s reqNonce then
      ({ s with tasks := (s.tasks.postTask clock.uptime 0 requestRetryIntervalMs.toNat
          (.request reqNonce (retriesLeft - 1))).2 }, some reqNonce)
    else (s, none)
  else (removeRequest s reqNonce, none)

/-- `taskqueue_run` executes the request task with the handle, if there is one. -/
def fireRequest (clock : ClientClock) (s : Client) (id : Nat) : Client × Option UInt32 :=
  match s.tasks.queued.find? (·.id == id) with
  | some ⟨_, _, .request reqNonce retriesLeft⟩ =>
      requestTask clock { s with tasks := { s.tasks with
        queued := s.tasks.queued.filter (·.id != id) } } reqNonce retriesLeft
  | _ => (s, none)

/-- `intercom_uninit`: the hello task is dropped, and with the buffers go the lists of packets. -/
def intercomUninit (s : Client) : Client :=
  { s with
    tasks := { s.tasks with queued := s.tasks.queued.filter (·.code != .hello) }
    lastreceviedseqno := 0
    receivebuffer := none
    missingPackets := []
    recentPackets := [] }

/-- `intercom_reinit`, where `resolved` says whether the server has an address. -/
def intercomReinit (clock : ClientClock) (resolved : Bool) (s : Client) : Except Fault Client :=
  if resolved then
    .ok { s with
      receivebuffer := none
      recentPackets := []
      missingPackets := []
      nonce := s.nonce + 1
      tasks := (s.tasks.postTask clock.uptime 0 0 .hello).2 }
  else .error (.exitError "unable to resolve server %s\n")

/-- The client with its socket, and the numbers of the AUDIO packets it has accepted since the last time
`lastreceviedseqno` was set to zero, which the program does not keep. -/
structure Bookkeeping where
  client : Client
  connected : Bool
  accepted : List UInt32

/-- What can happen: a datagram arrives, the player takes a chunk, a request task runs, and the intercom
is shut down and set up again. -/
inductive BookkeepingEvent where
  | datagram (packet : Nat → UInt8) (packetLen : Nat) (clock : ClientClock)
  | nextChunk
  | requestTask (id : Nat) (clock : ClientClock)
  | uninit
  | reinit (resolved : Bool) (clock : ClientClock)

/-- The numbers accepted after a packet: an AUDIO packet that was not dropped adds its own, a stop clears
them. -/
def acceptedAfter (s s' : Client) (hdr : IntercomPacketHdr) (accepted : List UInt32) : List UInt32 :=
  if hdr.version = packetFormatVersion ∧ intercomRecentlySeen s.recentPackets hdr = false then
    if hdr.type = serverOperation then
      if ServerOperation.stop ∈ s'.operations.drop s.operations.length then [] else accepted
    else if hdr.type = audioData then hdr.nonce :: accepted
    else accepted
  else accepted

/-- What the client does at an event. Without a socket no datagram arrives, and only then is the intercom
set up again. -/
def bookkeepingStep (env : ClientEnv) (b : Bookkeeping) : BookkeepingEvent → Outcome Bookkeeping
  | .datagram packet packetLen clock =>
      if b.connected then
        let outcome := intercomHandlePacket env clock b.client packet packetLen
        ⟨⟨outcome.state, true, acceptedAfter b.client outcome.state (packetHdr packet) b.accepted⟩, outcome.fault⟩
      else ⟨b, none⟩
  | .nextChunk => ⟨{ b with client := (intercomGetnextaudiochunk b.client).2 }, none⟩
  | .requestTask id clock => ⟨{ b with client := (fireRequest clock b.client id).1 }, none⟩
  | .uninit =>
      if b.connected then
        let outcome := Outcome.ofExcept (intercomUninit b.client)
          (alsaplayerUninit (intercomUninit b.client))
        ⟨⟨outcome.state, false, []⟩, outcome.fault⟩
      else ⟨b, none⟩
  | .reinit resolved clock =>
      if b.connected then ⟨b, none⟩
      else
        let outcome := Outcome.ofExcept b.client (intercomReinit clock resolved b.client)
        ⟨⟨outcome.state, true, b.accepted⟩, outcome.fault⟩

/-- The client after a sequence of events, or when one of them has ended the process. -/
def bookkeepingRun (env : ClientEnv) : Bookkeeping → List BookkeepingEvent → Outcome Bookkeeping
  | b, [] => ⟨b, none⟩
  | b, event :: events =>
      match (bookkeepingStep env b event).fault with
      | none => bookkeepingRun env (bookkeepingStep env b event).state events
      | some _ => bookkeepingStep env b event

/-- The AUDIO packets of the event have numbers below `2 ^ 31`. -/
def BookkeepingEvent.Small : BookkeepingEvent → Prop
  | .datagram packet _ _ => IsAudioPacket packet → (packetHdr packet).nonce.toNat < 2 ^ 31
  | _ => True

/-! ### The invariant -/

/-- The record of missing packets is in order: no number is there twice, all are below the last one
received, none was received. The accepted numbers are not above the last one either. -/
structure Consistent (missing : List UInt32) (last : Nat) (accepted : List UInt32) : Prop where
  nodup : missing.Nodup
  below : ∀ nonce ∈ missing, nonce.toNat < last
  notAccepted : ∀ nonce ∈ missing, nonce ∉ accepted
  bound : ∀ nonce ∈ accepted, nonce.toNat ≤ last
  small : last < 2 ^ 31

namespace Consistent

variable {missing missing' : List UInt32} {last : Nat} {accepted : List UInt32}

theorem empty : Consistent [] 0 [] := ⟨List.nodup_nil, by simp, by simp, by simp, by decide⟩

theorem sublist (h : Consistent missing last accepted) (hsub : missing'.Sublist missing) :
    Consistent missing' last accepted where
  nodup := h.nodup.sublist hsub
  below := fun nonce hnonce => h.below nonce (hsub.subset hnonce)
  notAccepted := fun nonce hnonce => h.notAccepted nonce (hsub.subset hnonce)
  bound := h.bound
  small := h.small

/-- A packet is accepted that is not registered as missing. -/
theorem accept (h : Consistent missing last accepted) {seqno : UInt32} (hsmall : seqno.toNat < 2 ^ 31)
    (hnew : seqno ∉ missing) : Consistent missing (max last seqno.toNat) (seqno :: accepted) where
  nodup := h.nodup
  below := fun nonce hnonce => (h.below nonce hnonce).trans_le (le_max_left _ _)
  notAccepted := fun nonce hnonce => by
    rw [List.mem_cons, not_or]
    exact ⟨fun heq => hnew (heq ▸ hnonce), h.notAccepted nonce hnonce⟩
  bound := fun nonce hnonce => by
    rcases List.mem_cons.mp hnonce with rfl | hnonce
    · exact le_max_right _ _
    · exact (h.bound nonce hnonce).trans (le_max_left _ _)
  small := max_lt h.small hsmall

/-- Numbers of the gap in front of a packet are registered, and the oldest entries are dropped. -/
theorem register (h : Consistent missing last accepted) {seqno : UInt32}
    {registered evicted : List UInt32} (hsmall : seqno.toNat < 2 ^ 31) (hnew : seqno ∉ missing)
    (hkept : missing ++ registered = evicted ++ missing') (hnodup : registered.Nodup)
    (hgap : ∀ nonce ∈ registered, last < nonce.toNat ∧ nonce.toNat < seqno.toNat) :
    Consistent missing' (max last seqno.toNat) (seqno :: accepted) := by
  have hsub : missing'.Sublist (missing ++ registered) := by
    rw [hkept]
    exact List.sublist_append_right _ _
  have hall : Consistent (missing ++ registered) (max last seqno.toNat) (seqno :: accepted) := by
    have haccept := h.accept hsmall hnew
    refine ⟨List.nodup_append.mpr ⟨h.nodup, hnodup, fun a ha b hb hab => ?_⟩, fun nonce hnonce => ?_,
      fun nonce hnonce => ?_, haccept.bound, haccept.small⟩
    · have := h.below a ha
      have := (hgap b hb).1
      rw [hab] at *
      omega
    · rcases List.mem_append.mp hnonce with hnonce | hnonce
      · exact haccept.below nonce hnonce
      · exact (hgap nonce hnonce).2.trans_le (le_max_right _ _)
    · rcases List.mem_append.mp hnonce with hnonce | hnonce
      · exact haccept.notAccepted nonce hnonce
      · obtain ⟨hlo, hhi⟩ := hgap nonce hnonce
        rw [List.mem_cons, not_or]
        refine ⟨fun heq => ?_, fun hmem => ?_⟩
        · rw [heq] at hhi
          omega
        · have := h.bound nonce hmem
          omega
  exact hall.sublist hsub

end Consistent

/-- The invariant of the client: its record is in order and not longer than the receive buffer; without
a receive buffer it is empty. -/
structure BookInv (s : Client) (accepted : List UInt32) : Prop where
  consistent : Consistent s.missingPackets s.lastreceviedseqno accepted
  fits : ∀ buffer, s.receivebuffer = some buffer → s.missingPackets.length ≤ buffer.capacity
  unallocated : s.receivebuffer = none → s.missingPackets = []

theorem BookInv.congr {s s' : Client} {accepted : List UInt32} (hinv : BookInv s accepted)
    (hmissing : s'.missingPackets = s.missingPackets)
    (hlast : s'.lastreceviedseqno = s.lastreceviedseqno)
    (hbuffer : s'.receivebuffer = s.receivebuffer) : BookInv s' accepted where
  consistent := by
    rw [hmissing, hlast]
    exact hinv.consistent
  fits := by
    rw [hmissing, hbuffer]
    exact hinv.fits
  unallocated := by
    rw [hmissing, hbuffer]
    exact hinv.unallocated

theorem removeRequest_record (s : Client) (nonce : UInt32) :
    (removeRequest s nonce).missingPackets = s.missingPackets.erase nonce ∧
      (removeRequest s nonce).lastreceviedseqno = s.lastreceviedseqno ∧
        (removeRequest s nonce).receivebuffer = s.receivebuffer := by
  rw [removeRequest]
  exact ⟨rfl, rfl, rfl⟩

theorem noteRecent_record (s : Client) (hdr : IntercomPacketHdr) :
    (noteRecent s hdr).missingPackets = s.missingPackets ∧
      (noteRecent s hdr).lastreceviedseqno = s.lastreceviedseqno ∧
        (noteRecent s hdr).receivebuffer = s.receivebuffer := by
  rw [noteRecent]
  exact ⟨rfl, rfl, rfl⟩

theorem pruneMissingPackets_record (s : Client) (nonce : UInt32) :
    (pruneMissingPackets s nonce).missingPackets.Sublist s.missingPackets ∧
      (pruneMissingPackets s nonce).lastreceviedseqno = s.lastreceviedseqno ∧
        (pruneMissingPackets s nonce).receivebuffer = s.receivebuffer := by
  rw [pruneMissingPackets]
  exact ⟨List.filter_sublist, rfl, rfl⟩

/-! ### One packet -/

/-- Near the last number received, the loop over the gap starts behind it. -/
theorem lt_maxRequests {last seqno capacity : Nat} (hle : last ≤ seqno) (hnear : seqno - last < capacity)
    (hcap : capacity ≤ 65536) (hsmall : seqno < 2 ^ 31) : last < maxRequests last seqno capacity := by
  have hdiff : asInt (seqno - capacity) = seqno - capacity :=
    asInt_of_small (by omega) (by omega)
  have hlast : asInt last = last := asInt_of_small (by omega) (by omega)
  rw [maxRequests, hdiff, hlast, max_eq_left (by omega)]
  rcases Nat.lt_or_ge (last + 1) (2 ^ 31) with hlt | hge
  · rw [asInt_of_small (by omega) (by omega)]
    omega
  · -- the sum is `INT_MAX + 1`
    rw [asInt_of_large (by omega) (by omega)]
    omega

theorem requestAll_length (clock : ClientClock) (capacity : Nat) {s : Client} (numbers : List Nat)
    (hlength : s.missingPackets.length ≤ capacity) :
    (numbers.foldl (requestMissing clock capacity) s).missingPackets.length ≤ capacity := by
  induction numbers generalizing s with
  | nil => exact hlength
  | cons i numbers ih =>
      refine ih ?_
      rw [requestMissing]
      split_ifs
      · exact hlength
      · change (dropOldest capacity (s.missingPackets ++ [UInt32.ofNat i])).length ≤ capacity
        rw [dropOldest, List.length_drop]
        omega

/-- What `noteLoss` leaves of the record, once the number of the packet is noted. -/
theorem noteLoss_consistent (clock : ClientClock) {s : Client} {buffer : ReceiveBuffer} {seqno : UInt32}
    {accepted : List UInt32} (hcons : Consistent s.missingPackets s.lastreceviedseqno accepted)
    (hsmall : seqno.toNat < 2 ^ 31) (hnew : seqno ∉ s.missingPackets)
    (hlength : s.missingPackets.length ≤ buffer.capacity) :
    let result := noteLoss clock s buffer seqno
    Consistent result.1.missingPackets (max result.1.lastreceviedseqno seqno.toNat)
        (seqno :: accepted) ∧
      result.1.missingPackets.length ≤ result.2.capacity := by
  unfold noteLoss
  dsimp only
  split_ifs with hnext hretransmit hfar
  · exact ⟨hcons.accept hsmall hnew, hlength⟩
  · exact ⟨hcons.accept hsmall hnew, hlength⟩
  · refine ⟨?_, hlength⟩
    have haccept := hcons.accept hsmall hnew
    rw [decide_eq_true_eq, not_lt] at hretransmit
    rw [max_eq_right hretransmit] at haccept
    rw [max_self]
    exact haccept
  · rw [decide_eq_true_eq, not_lt] at hretransmit
    obtain ⟨registered, evicted, hreq, hnodup, hrange, -⟩ := requestRange_spec clock buffer.capacity s
      (maxRequests s.lastreceviedseqno seqno.toNat buffer.capacity) seqno
    have hlast : (requestRange clock buffer.capacity s
        (maxRequests s.lastreceviedseqno seqno.toNat buffer.capacity)
          seqno.toNat).lastreceviedseqno = s.lastreceviedseqno :=
      (requestAll_same clock buffer.capacity s _).lastreceviedseqno
    rw [hlast]
    refine ⟨hcons.register hsmall hnew hreq.kept hnodup fun nonce hnonce => ?_,
      requestAll_length clock buffer.capacity _ hlength⟩
    obtain ⟨hlo, hhi⟩ := hrange nonce hnonce
    refine ⟨lt_of_lt_of_le ?_ hlo, hhi⟩
    exact lt_maxRequests hretransmit (by omega) buffer.capacity_le hsmall

/-- The fields of the record that allocating a receive buffer leaves alone. -/
theorem ensureReceivebuffer_record {env : ClientEnv} {s s' : Client} {serverbufferms : UInt16}
    {chunk chunk' : PcmChunk} {buffer : ReceiveBuffer}
    (hrun : ensureReceivebuffer env s serverbufferms chunk = .ok (s', chunk', buffer)) :
    s'.missingPackets = s.missingPackets ∧ s'.lastreceviedseqno = s.lastreceviedseqno ∧
      (s.receivebuffer = none ∨ s.receivebuffer = some buffer) := by
  rcases ensureReceivebuffer_cases hrun with ⟨hbuffer, rfl, -⟩ | ⟨hnone, _, -, -, rfl, -⟩
  · exact ⟨rfl, rfl, .inr hbuffer⟩
  · exact ⟨rfl, rfl, .inl hnone⟩

theorem raiseSeqno_record (s : Client) (seqno : UInt32) :
    (raiseSeqno s seqno).missingPackets = s.missingPackets ∧
      (raiseSeqno s seqno).lastreceviedseqno = max s.lastreceviedseqno seqno.toNat ∧
        (raiseSeqno s seqno).receivebuffer = s.receivebuffer := by
  unfold raiseSeqno
  split_ifs with hgt
  · rw [max_eq_right (le_of_lt hgt)]
    exact ⟨rfl, rfl, rfl⟩
  · rw [max_eq_left (not_lt.mp hgt)]
    exact ⟨rfl, rfl, rfl⟩

theorem putChunk_capacity (ctime : Timespec) (buffer : ReceiveBuffer) (stored : StoredChunk) :
    (buffer.putChunk ctime stored).capacity = buffer.capacity := by
  have hdequeue : ∀ buffer : ReceiveBuffer, buffer.dequeue.capacity = buffer.capacity := by
    intro buffer
    simp [ReceiveBuffer.capacity, ReceiveBuffer.dequeue]
  have hloop : ∀ (rounds : Nat) (buffer : ReceiveBuffer) (oldest : Timespec),
      (ReceiveBuffer.removeOldLoop ctime rounds buffer oldest).capacity = buffer.capacity := by
    intro rounds
    induction rounds with
    | zero => exact fun _ _ => rfl
    | succ rounds ih =>
        intro buffer oldest
        rw [ReceiveBuffer.removeOldLoop]
        split_ifs
        · rw [ih, hdequeue]
        · rfl
  have hremove : (buffer.removeOldData ctime).capacity = buffer.capacity := by
    unfold ReceiveBuffer.removeOldData
    cases buffer.peek with
    | none => rfl
    | some oldest => exact hloop _ _ _
  rw [← hremove]
  simp [ReceiveBuffer.putChunk, ReceiveBuffer.capacity, ReceiveBuffer.enqueue]

section HandleAudio

variable {s : Client} {accepted : List UInt32} {buffer : ReceiveBuffer} {seqno : UInt32}

/-- A chunk that is on time. -/
theorem storeAudio_bookInv (clock : ClientClock) (chunk : PcmChunk)
    (hcons : Consistent s.missingPackets s.lastreceviedseqno accepted)
    (hsmall : seqno.toNat < 2 ^ 31) (hnew : seqno ∉ s.missingPackets)
    (hlength : s.missingPackets.length ≤ buffer.capacity) :
    BookInv (storeAudio clock s buffer seqno chunk) (seqno :: accepted) := by
  obtain ⟨hcons', hlength'⟩ := noteLoss_consistent clock hcons hsmall hnew hlength
  unfold storeAudio
  dsimp only
  generalize (noteLoss clock s buffer seqno).1 = s' at hcons' hlength' ⊢
  generalize (noteLoss clock s buffer seqno).2 = buffer' at hcons' hlength' ⊢
  obtain ⟨hm, hl, hb⟩ :=
    raiseSeqno_record (withReceivebuffer s' (buffer'.putChunk clock.later ⟨chunk, seqno⟩)) seqno
  refine ⟨?_, fun held hheld => ?_, fun hnone => ?_⟩
  · rw [hm, hl]
    exact hcons'
  · rw [hb] at hheld
    rw [hm, ← Option.some.inj hheld, putChunk_capacity]
    exact hlength'
  · rw [hb] at hnone
    cases hnone

/-- A chunk that comes too late. -/
theorem lateAudio_bookInv (hcons : Consistent s.missingPackets s.lastreceviedseqno accepted)
    (hsmall : seqno.toNat < 2 ^ 31) (hnew : seqno ∉ s.missingPackets)
    (hlength : s.missingPackets.length ≤ buffer.capacity) :
    BookInv (pruneMissingPackets (raiseSeqno (withReceivebuffer s buffer) seqno) seqno)
      (seqno :: accepted) := by
  obtain ⟨hm, hl, hb⟩ := raiseSeqno_record (withReceivebuffer s buffer) seqno
  obtain ⟨hsub, hl', hb'⟩ :=
    pruneMissingPackets_record (raiseSeqno (withReceivebuffer s buffer) seqno) seqno
  rw [hm] at hsub
  rw [hl] at hl'
  rw [hb] at hb'
  refine ⟨?_, fun held hheld => ?_, fun hnone => ?_⟩
  · rw [hl']
    exact (hcons.accept hsmall hnew).sublist hsub
  · rw [hb'] at hheld
    rw [← Option.some.inj hheld]
    exact hsub.length_le.trans hlength
  · rw [hb'] at hnone
    cases hnone

/-- The record when the packet is looked at: its own number is not there any more. -/
theorem BookInv.removeRequest {env : ClientEnv} {s' : Client} {serverbufferms : UInt16}
    {chunk chunk' : PcmChunk} (hinv : BookInv s accepted)
    (hensure : ensureReceivebuffer env (removeRequest s seqno) serverbufferms chunk =
      .ok (s', chunk', buffer)) :
    Consistent s'.missingPackets s'.lastreceviedseqno accepted ∧ seqno ∉ s'.missingPackets ∧
      s'.missingPackets.length ≤ buffer.capacity := by
  obtain ⟨hmissing, hlast, hbuffer⟩ := ensureReceivebuffer_record hensure
  obtain ⟨hmissing₀, hlast₀, hbuffer₀⟩ := removeRequest_record s seqno
  rw [hmissing₀] at hmissing
  rw [hlast₀] at hlast
  rw [hbuffer₀] at hbuffer
  rw [hmissing, hlast]
  refine ⟨hinv.consistent.sublist List.erase_sublist, hinv.consistent.nodup.not_mem_erase,
    List.erase_sublist.length_le.trans ?_⟩
  rcases hbuffer with hnone | hsome
  · rw [hinv.unallocated hnone]
    exact Nat.zero_le _
  · exact hinv.fits buffer hsome

/-- `intercom_handle_audio` keeps the record in order. -/
theorem BookInv.handleAudio (env : ClientEnv) (clock : ClientClock) (hinv : BookInv s accepted)
    {packet : Nat → UInt8} (hsmall : (packetHdr packet).nonce.toNat < 2 ^ 31)
    (hok : (intercomHandleAudio env clock s packet).fault = none) :
    BookInv (intercomHandleAudio env clock s packet).state ((packetHdr packet).nonce :: accepted) := by
  rcases handleAudio_cases env clock s packet with ⟨fault, -, hrun⟩ | ⟨s₁, chunk, buffer, hensure, hrun⟩
  · rw [hrun] at hok
    cases hok
  · generalize (packetHdr packet).nonce = seqno at hsmall hensure hrun ⊢
    obtain ⟨hcons, hnew, hlength⟩ := hinv.removeRequest hensure
    rcases hrun with ⟨-, hrun⟩ | ⟨-, hrun⟩
    · rw [hrun]
      have hsame := sameIntercom_openDevice env clock (storeAudio clock s₁ buffer seqno chunk) chunk
      exact (storeAudio_bookInv clock chunk hcons hsmall hnew hlength).congr hsame.missingPackets
        hsame.lastreceviedseqno hsame.receivebuffer
    · rw [hrun]
      exact lateAudio_bookInv hcons hsmall hnew hlength

end HandleAudio

/-- A server operation that comes to its end executes operations one after the other. -/
theorem handleServerOperation_executes {s : Client} {packet : Nat → UInt8} {packetLen : Nat}
    (hok : (handleServerOperation s packet packetLen).fault = none) :
    ∃ ops : List ServerOperation, (handleServerOperation s packet packetLen).state = ops.foldl execute s := by
  rw [handleServerOperation] at hok ⊢
  cases hrun : intercomHandleServerOperation clientEffects packetLen s packet packetLen with
  | none =>
      rw [hrun] at hok
      cases hok
  | some s' =>
      refine OffsetLoop.run_invariant (P := fun s' => ∃ ops : List ServerOperation, s' = ops.foldl execute s)
        (fun s₁ offset _ hops => ?_) ⟨[], rfl⟩ hrun
      obtain ⟨ops, rfl⟩ := hops
      unfold serverOperationHandle
      dsimp only
      split_ifs
      · exact ⟨ops ++ [.stop], by rw [List.foldl_append]; rfl⟩
      · exact ⟨ops ++ [.volume (parseVolume packet offset).1], by rw [List.foldl_append]; rfl⟩
      · exact ⟨ops, rfl⟩

theorem executeAll_operations (s : Client) (ops : List ServerOperation) :
    (ops.foldl execute s).operations = s.operations ++ ops := by
  induction ops generalizing s with
  | nil => exact (List.append_nil _).symm
  | cons op ops ih => rw [List.foldl_cons, ih, execute_operations, List.append_assoc, List.singleton_append]

/-- Operations keep the record in order; a stop starts a new one. -/
theorem BookInv.executeAll {s : Client} {accepted : List UInt32} (hinv : BookInv s accepted)
    (ops : List ServerOperation) :
    BookInv (ops.foldl execute s) (if ServerOperation.stop ∈ ops then [] else accepted) := by
  induction ops generalizing s accepted with
  | nil => exact hinv
  | cons op ops ih =>
      cases op with
      | stop =>
          have hstopped : BookInv (stopClient s) [] :=
            ⟨Consistent.empty, fun _ _ => Nat.zero_le _, fun _ => rfl⟩
          have hrest := ih hstopped
          rw [ite_self] at hrest
          rw [if_pos List.mem_cons_self]
          exact hrest
      | volume percent =>
          have hrest := ih (s := execute s (.volume percent)) (hinv.congr rfl rfl rfl)
          simpa using hrest

/-! ### The events -/

theorem BookInv.noteRecent {s : Client} {accepted : List UInt32} (hinv : BookInv s accepted)
    (hdr : IntercomPacketHdr) : BookInv (noteRecent s hdr) accepted := by
  obtain ⟨hmissing, hlast, hbuffer⟩ := noteRecent_record s hdr
  exact hinv.congr hmissing hlast hbuffer

section Accepted

variable {s : Client} (s' : Client) {hdr : IntercomPacketHdr} (accepted : List UInt32)

theorem acceptedAfter_of_dropped
    (hdropped : ¬(hdr.version = packetFormatVersion ∧ intercomRecentlySeen s.recentPackets hdr = false)) :
    acceptedAfter s s' hdr accepted = accepted := if_neg hdropped

theorem acceptedAfter_of_audio (hversion : hdr.version = packetFormatVersion)
    (hnew : intercomRecentlySeen s.recentPackets hdr = false) (haudio : hdr.type = audioData) :
    acceptedAfter s s' hdr accepted = hdr.nonce :: accepted := by
  have htype : ¬hdr.type = serverOperation := by
    rw [haudio]
    decide
  rw [acceptedAfter, if_pos ⟨hversion, hnew⟩, if_neg htype, if_pos haudio]

theorem acceptedAfter_of_other (hversion : hdr.version = packetFormatVersion)
    (hnew : intercomRecentlySeen s.recentPackets hdr = false) (haudio : ¬hdr.type = audioData) :
    acceptedAfter s s' hdr accepted =
      if hdr.type = serverOperation ∧ ServerOperation.stop ∈ s'.operations.drop s.operations.length then []
      else accepted := by
  rw [acceptedAfter, if_pos ⟨hversion, hnew⟩, if_neg haudio, ite_and]

end Accepted

/-- A datagram keeps the record in order. -/
theorem BookInv.handlePacket (env : ClientEnv) (clock : ClientClock) {s : Client}
    {accepted : List UInt32} (hinv : BookInv s accepted) {packet : Nat → UInt8} {packetLen : Nat}
    (hsmall : IsAudioPacket packet → (packetHdr packet).nonce.toNat < 2 ^ 31)
    (hok : (intercomHandlePacket env clock s packet packetLen).fault = none) :
    BookInv (intercomHandlePacket env clock s packet packetLen).state
      (acceptedAfter s (intercomHandlePacket env clock s packet packetLen).state (packetHdr packet)
        accepted) := by
  have hrecent := hinv.noteRecent (packetHdr packet)
  cases hseen : intercomRecentlySeen s.recentPackets (packetHdr packet) with
  | true =>
      rw [handlePacket_of_seen hseen, acceptedAfter_of_dropped _ _ (by simp [hseen])]
      exact hinv
  | false =>
      by_cases hversion : (packetHdr packet).version = packetFormatVersion
      · by_cases haudio : (packetHdr packet).type = audioData
        · rw [handlePacket_of_audio ⟨hversion, haudio⟩ hseen] at hok ⊢
          rw [acceptedAfter_of_audio _ _ hversion hseen haudio]
          exact hrecent.handleAudio env clock (hsmall ⟨hversion, haudio⟩) hok
        · rw [acceptedAfter_of_other _ _ hversion hseen haudio]
          unfold intercomHandlePacket at hok ⊢
          dsimp only at hok ⊢
          rw [if_pos hversion, hseen, if_neg Bool.false_ne_true] at hok ⊢
          by_cases htype : (packetHdr packet).type = serverOperation
          · rw [if_pos htype] at hok ⊢
            obtain ⟨ops, hops⟩ := handleServerOperation_executes hok
            rw [hops, executeAll_operations, noteRecent_operations, List.drop_left]
            simpa only [htype, true_and] using hrecent.executeAll ops
          · rw [if_neg htype, if_neg haudio, if_neg fun h => htype h.1]
            exact hrecent
      · rw [acceptedAfter_of_dropped _ _ fun h => hversion h.1]
        unfold intercomHandlePacket
        dsimp only
        rw [if_neg hversion]
        exact hinv

/-- A request task only removes numbers from the record, and asks only for one that stays there. -/
theorem fireRequest_record (clock : ClientClock) (s : Client) (id : Nat) :
    (fireRequest clock s id).1.missingPackets.Sublist s.missingPackets ∧
      (fireRequest clock s id).1.lastreceviedseqno = s.lastreceviedseqno ∧
        (fireRequest clock s id).1.receivebuffer = s.receivebuffer ∧
          ∀ nonce, (fireRequest clock s id).2 = some nonce → nonce ∈ s.missingPackets := by
  unfold fireRequest
  split
  · unfold requestTask
    dsimp only
    split_ifs with hretries hmissing
    · refine ⟨List.Sublist.refl _, rfl, rfl, fun nonce hnonce => ?_⟩
      rw [← Option.some.inj hnonce]
      exact List.contains_iff_mem.mp hmissing
    · exact ⟨List.Sublist.refl _, rfl, rfl, fun _ hnone => by cases hnone⟩
    · exact ⟨List.erase_sublist, rfl, rfl, fun _ hnone => by cases hnone⟩
  · exact ⟨List.Sublist.refl _, rfl, rfl, fun _ hnone => by cases hnone⟩

theorem alsaplayerUninit_record {s s' : Client} (hrun : alsaplayerUninit s = .ok s') :
    s'.missingPackets = s.missingPackets ∧ s'.lastreceviedseqno = s.lastreceviedseqno ∧
      s'.receivebuffer = s.receivebuffer := by
  unfold alsaplayerUninit at hrun
  split_ifs at hrun
  · obtain ⟨tasks, -, hrun⟩ := except_bind_ok hrun
    cases hrun
    exact ⟨rfl, rfl, rfl⟩
  · cases hrun
    exact ⟨rfl, rfl, rfl⟩

/-- Without a socket the intercom has been shut down, and nothing was accepted since. -/
structure RunInv (b : Bookkeeping) : Prop where
  book : BookInv b.client b.accepted
  closed : b.connected = false → b.client.lastreceviedseqno = 0 ∧ b.accepted = []

theorem RunInv.fresh (nonce : UInt32) (softvol : Bool) (mixer : Option Mixer) :
    RunInv ⟨freshClient nonce softvol mixer, true, []⟩ where
  book := ⟨Consistent.empty, fun _ _ => Nat.zero_le _, fun _ => rfl⟩
  closed := fun hconnected => by cases hconnected

theorem bookInv_cleared {s : Client} (hmissing : s.missingPackets = [])
    (hlast : s.lastreceviedseqno = 0) : BookInv s [] where
  consistent := by
    rw [hmissing, hlast]
    exact Consistent.empty
  fits := fun buffer _ => by
    rw [hmissing]
    exact Nat.zero_le _
  unallocated := fun _ => hmissing

/-- Without a socket `intercom_uninit` is not called; else it clears the record. -/
theorem bookkeepingStep_uninit {env : ClientEnv} {b : Bookkeeping}
    (hok : (bookkeepingStep env b .uninit).fault = none) :
    (bookkeepingStep env b .uninit).state = b ∨
      ∃ s', (bookkeepingStep env b .uninit).state = ⟨s', false, []⟩ ∧ s'.missingPackets = [] ∧
        s'.lastreceviedseqno = 0 := by
  unfold bookkeepingStep at hok ⊢
  dsimp only at hok ⊢
  split_ifs at hok ⊢
  · cases hrun : alsaplayerUninit (intercomUninit b.client) with
    | error fault =>
        rw [hrun] at hok
        cases hok
    | ok s' =>
        obtain ⟨hmissing, hlast, -⟩ := alsaplayerUninit_record hrun
        exact .inr ⟨s', rfl, hmissing, hlast⟩
  · exact .inl rfl

/-- With a socket the intercom is not set up again; else there is a socket afterwards, and nothing is
missing. -/
theorem bookkeepingStep_reinit {env : ClientEnv} {b : Bookkeeping} {resolved : Bool} {clock : ClientClock}
    (hok : (bookkeepingStep env b (.reinit resolved clock)).fault = none) :
    (bookkeepingStep env b (.reinit resolved clock)).state = b ∨
      b.connected = false ∧ ∃ s', (bookkeepingStep env b (.reinit resolved clock)).state =
          ⟨s', true, b.accepted⟩ ∧ s'.missingPackets = [] ∧
        s'.lastreceviedseqno = b.client.lastreceviedseqno := by
  unfold bookkeepingStep at hok ⊢
  dsimp only at hok ⊢
  split_ifs at hok ⊢ with hconnected
  · exact .inl rfl
  · cases hrun : intercomReinit clock resolved b.client with
    | error fault =>
        rw [hrun] at hok
        cases hok
    | ok s' =>
        unfold intercomReinit at hrun
        split_ifs at hrun
        cases hrun
        exact .inr ⟨Bool.not_eq_true _ ▸ hconnected, _, rfl, rfl, rfl⟩

/-- Every event keeps the invariant. -/
theorem RunInv.step {env : ClientEnv} {b : Bookkeeping} (hinv : RunInv b) {event : BookkeepingEvent}
    (hsmall : event.Small) (hok : (bookkeepingStep env b event).fault = none) :
    RunInv (bookkeepingStep env b event).state := by
  cases event with
  | datagram packet packetLen clock =>
      unfold bookkeepingStep at hok ⊢
      dsimp only at hok ⊢
      split_ifs at hok ⊢ with hconnected
      · exact ⟨hinv.book.handlePacket env clock hsmall hok, fun hclosed => by cases hclosed⟩
      · exact hinv
  | nextChunk =>
      refine ⟨⟨hinv.book.consistent, fun buffer hbuffer => ?_, fun hnone => ?_⟩, hinv.closed⟩
      · obtain ⟨held, hheld, rfl⟩ := Option.map_eq_some_iff.mp hbuffer
        refine (hinv.book.fits held hheld).trans_eq ?_
        simp [ReceiveBuffer.capacity, ReceiveBuffer.dequeue]
      · exact hinv.book.unallocated (Option.map_eq_none_iff.mp hnone)
  | requestTask id clock =>
      obtain ⟨hsub, hlast, hbuffer, -⟩ := fireRequest_record clock b.client id
      refine ⟨⟨?_, fun buffer hsome => ?_, fun hnone => ?_⟩, fun hclosed => ?_⟩
      · change Consistent _ (fireRequest clock b.client id).1.lastreceviedseqno _
        rw [hlast]
        exact hinv.book.consistent.sublist hsub
      · exact hsub.length_le.trans (hinv.book.fits buffer (hbuffer ▸ hsome))
      · have hempty := hinv.book.unallocated (hbuffer ▸ hnone)
        rw [hempty] at hsub
        exact List.sublist_nil.mp hsub
      · obtain ⟨hzero, haccepted⟩ := hinv.closed hclosed
        exact ⟨hlast.trans hzero, haccepted⟩
  | uninit =>
      rcases bookkeepingStep_uninit hok with hstate | ⟨s', hstate, hmissing, hlast⟩
      · rw [hstate]
        exact hinv
      · rw [hstate]
        exact ⟨bookInv_cleared hmissing hlast, fun _ => ⟨hlast, rfl⟩⟩
  | reinit resolved clock =>
      rcases bookkeepingStep_reinit hok with hstate | ⟨hclosed, s', hstate, hmissing, hlast⟩
      · rw [hstate]
        exact hinv
      · obtain ⟨hzero, haccepted⟩ := hinv.closed hclosed
        rw [hstate, haccepted]
        exact ⟨bookInv_cleared hmissing (hlast.trans hzero), fun hclosed => by cases hclosed⟩

/-- The invariant holds after every run that has not ended the process. -/
theorem RunInv.run {env : ClientEnv} {b : Bookkeeping} (hinv : RunInv b)
    {events : List BookkeepingEvent} (hsmall : ∀ event ∈ events, event.Small)
    (hok : (bookkeepingRun env b events).fault = none) :
    RunInv (bookkeepingRun env b events).state := by
  induction events generalizing b with
  | nil => exact hinv
  | cons event events ih =>
      rw [bookkeepingRun] at hok ⊢
      cases hfault : (bookkeepingStep env b event).fault with
      | none =>
          rw [hfault] at hok
          exact ih (hinv.step (hsmall event List.mem_cons_self) hfault)
            (fun event hevent => hsmall event (List.mem_cons_of_mem _ hevent)) hok
      | some fault =>
          rw [hfault] at hok
          dsimp only at hok
          rw [hfault] at hok
          cases hok

/-- The record of missing packets in every state the client reaches while it runs: no number is in it
twice, all are below the last one received, there are at most as many as the receive buffer has places,
and none was received. So a request task asks for no packet that was received. -/
theorem missingPackets_consistent (env : ClientEnv) (nonce : UInt32) (softvol : Bool)
    (mixer : Option Mixer) (events : List BookkeepingEvent) (hsmall : ∀ event ∈ events, event.Small)
    (hok : (bookkeepingRun env ⟨freshClient nonce softvol mixer, true, []⟩ events).fault = none) :
    let b := (bookkeepingRun env ⟨freshClient nonce softvol mixer, true, []⟩ events).state
    b.client.missingPackets.Nodup ∧
      (∀ seqno ∈ b.client.missingPackets, seqno.toNat < b.client.lastreceviedseqno) ∧
      (∀ buffer, b.client.receivebuffer = some buffer →
        b.client.missingPackets.length ≤ buffer.capacity) ∧
      (∀ seqno ∈ b.client.missingPackets, seqno ∉ b.accepted) ∧
      ∀ clock id seqno, (fireRequest clock b.client id).2 = some seqno → seqno ∉ b.accepted := by
  intro b
  have hinv : RunInv b := (RunInv.fresh nonce softvol mixer).run hsmall hok
  refine ⟨hinv.book.consistent.nodup, hinv.book.consistent.below, hinv.book.fits,
    hinv.book.consistent.notAccepted, fun clock id seqno hasked => ?_⟩
  obtain ⟨-, -, -, hmissing⟩ := fireRequest_record clock b.client id
  exact hinv.book.consistent.notAccepted seqno (hmissing seqno hasked)

/-- The packets 2, 5 and 3 arrive and a request task runs: 1 and 4 are missing. -/
def gapEvents : List BookkeepingEvent :=
  [.datagram (audioPacketAt 2) 35 beforeDue, .datagram (audioPacketAt 5) 35 beforeDue,
    .datagram (audioPacketAt 3) 35 beforeDue, .requestTask 1 beforeDue]

theorem missingPackets_consistent_gap :
    let b := (bookkeepingRun anyDevice ⟨freshClient 7 true none, true, []⟩ gapEvents).state
    b.client.missingPackets = [1, 4] ∧ b.accepted = [3, 5, 2] ∧
      (fireRequest beforeDue b.client 4).2 = some 4 ∧ 4 ∉ b.accepted := by
  have hsmall : ∀ event ∈ gapEvents, event.Small := by
    have hnonce : (packetHdr (audioPacketAt 2)).nonce = 2 ∧ (packetHdr (audioPacketAt 5)).nonce = 5 ∧
        (packetHdr (audioPacketAt 3)).nonce = 3 := by
      decide +kernel
    obtain ⟨htwo, hfive, hthree⟩ := hnonce
    simp only [gapEvents, List.forall_mem_cons]
    refine ⟨fun _ => ?_, fun _ => ?_, fun _ => ?_, trivial, by simp⟩
    · rw [htwo]
      decide
    · rw [hfive]
      decide
    · rw [hthree]
      decide
  have hok : (bookkeepingRun anyDevice ⟨freshClient 7 true none, true, []⟩ gapEvents).fault = none := by
    decide +kernel
  obtain ⟨-, -, -, hmissing, -⟩ := missingPackets_consistent anyDevice 7 true none gapEvents hsmall hok
  refine ⟨by decide +kernel, by decide +kernel, by decide +kernel, hmissing 4 (by decide +kernel)⟩

end Snapcastc
