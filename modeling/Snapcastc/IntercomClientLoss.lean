import Snapcastc.IntercomClient

/-! Loss detection: which packets the client requests when a packet arrives behind a gap. The first
number of the gap is computed in `int`, which is right for sequence numbers below `2 ^ 31` and wrong
from there on. -/

namespace Snapcastc

/-- The sequence numbers for which request tasks were posted so far. -/
def requestsPosted (s : Client) : List UInt32 :=
  s.tasks.history.filterMap fun
    | .request seqno _ => some seqno
    | _ => none

/-- Two states that differ in the device and its closing task only. -/
structure SameIntercom (s s' : Client) : Prop where
  recentPackets : s'.recentPackets = s.recentPackets
  missingPackets : s'.missingPackets = s.missingPackets
  lastreceviedseqno : s'.lastreceviedseqno = s.lastreceviedseqno
  receivebuffer : s'.receivebuffer = s.receivebuffer
  operations : s'.operations = s.operations
  requestsPosted : requestsPosted s' = requestsPosted s

namespace SameIntercom

theorem refl (s : Client) : SameIntercom s s := ⟨rfl, rfl, rfl, rfl, rfl, rfl⟩

theorem trans {s s' s'' : Client} (hfirst : SameIntercom s s') (hsecond : SameIntercom s' s'') :
    SameIntercom s s'' where
  recentPackets := hsecond.recentPackets.trans hfirst.recentPackets
  missingPackets := hsecond.missingPackets.trans hfirst.missingPackets
  lastreceviedseqno := hsecond.lastreceviedseqno.trans hfirst.lastreceviedseqno
  receivebuffer := hsecond.receivebuffer.trans hfirst.receivebuffer
  operations := hsecond.operations.trans hfirst.operations
  requestsPosted := hsecond.requestsPosted.trans hfirst.requestsPosted

/-- A change of the device that leaves the record of posted tasks alone. -/
theorem of_history {s : Client} {tasks : TaskPool ClientTask} (alsaplayer : AlsaplayerCtx)
    (hhistory : tasks.history = s.tasks.history) :
    SameIntercom s { s with tasks, alsaplayer } :=
  ⟨rfl, rfl, rfl, rfl, rfl, by rw [Snapcastc.requestsPosted, hhistory]; rfl⟩

end SameIntercom

theorem alsaplayerRemoveTask_sameIntercom {s s' : Client} (hrun : alsaplayerRemoveTask s = .ok s') :
    SameIntercom s s' := by
  obtain ⟨tasks, htasks, hs'⟩ := except_bind_ok hrun
  rw [← Except.ok.inj hs']
  exact .of_history _ (TaskPool.dropHandle_history htasks)

theorem alsaplayerUninit_sameIntercom {s s' : Client} (hrun : alsaplayerUninit s = .ok s') :
    SameIntercom s s' := by
  unfold alsaplayerUninit at hrun
  split at hrun
  · obtain ⟨tasks, htasks, hs'⟩ := except_bind_ok hrun
    rw [← Except.ok.inj hs']
    exact .of_history _ (TaskPool.dropHandle_history htasks)
  · rw [← Except.ok.inj hrun]
    exact .refl s

theorem alsaplayerInit_sameIntercom {env : ClientEnv} {clock : ClientClock} {s s' : Client}
    (hrun : alsaplayerInit env clock s = .ok s') : SameIntercom s s' := by
  unfold alsaplayerInit at hrun
  dsimp only at hrun
  split_ifs at hrun <;> cases hrun
  · exact .of_history _ rfl
  · refine ⟨rfl, rfl, rfl, rfl, rfl, ?_⟩
    simp [requestsPosted]

theorem closeDevice_sameIntercom {s s' : Client} {chunk : PcmChunk}
    (hrun : closeDevice s chunk = .ok s') : SameIntercom s s' := by
  unfold closeDevice at hrun
  split at hrun
  · obtain ⟨s₀, hremove, huninit⟩ := except_bind_ok hrun
    exact (alsaplayerRemoveTask_sameIntercom hremove).trans (alsaplayerUninit_sameIntercom huninit)
  · rw [← Except.ok.inj hrun]
    exact .refl s

theorem openDevice_sameIntercom {env : ClientEnv} {clock : ClientClock} {s s' : Client}
    {chunk : PcmChunk} (hrun : openDevice env clock s chunk = .ok s') : SameIntercom s s' := by
  obtain ⟨s₁, hclosed, hrun⟩ := except_bind_ok hrun
  refine (closeDevice_sameIntercom hclosed).trans ?_
  split at hrun
  · rw [← Except.ok.inj hrun]
    exact .refl s₁
  · obtain ⟨s₂, hinit, hfd⟩ := except_bind_ok hrun
    have hformat : SameIntercom s₁ (withFormat s₁ chunk) := .of_history _ rfl
    unfold initAlsafd at hfd
    split at hfd
    · cases hfd
    · rw [← Except.ok.inj hfd]
      exact hformat.trans (alsaplayerInit_sameIntercom hinit)

/-- Opening the device leaves the intercom alone, also when it ends the process. -/
theorem sameIntercom_openDevice (env : ClientEnv) (clock : ClientClock) (s : Client)
    (chunk : PcmChunk) :
    SameIntercom s (Outcome.ofExcept s (openDevice env clock s chunk)).state := by
  cases hrun : openDevice env clock s chunk with
  | error fault => exact .refl s
  | ok s' => exact openDevice_sameIntercom hrun

theorem asInt_of_small {x : Int} (hlo : -2 ^ 31 ≤ x) (hhi : x < 2 ^ 31) : asInt x = x :=
  Int.bmod_eq_of_le (by omega) (by omega)

theorem asInt_of_large {x : Int} (hlo : 2 ^ 31 ≤ x) (hhi : x < 2 ^ 32) : asInt x = x - 2 ^ 32 := by
  rw [asInt, Int.bmod_eq_emod, if_pos (by omega)]
  omega

section MaxRequests

variable {last seqno capacity : Nat}

/-- Below `2 ^ 31` the first number requested is the first one missing. -/
theorem maxRequests_of_small (hgap : last + 1 < seqno) (hnear : seqno - last < capacity)
    (hcap : capacity ≤ 65536) (hsmall : last + 1 < 2 ^ 31) :
    maxRequests last seqno capacity = last + 1 := by
  have hdiff : asInt (seqno - capacity) = seqno - capacity :=
    asInt_of_small (by omega) (by omega)
  rw [maxRequests, hdiff, asInt_of_small (x := last) (by omega) (by omega),
    max_eq_left (by omega), asInt_of_small (by omega) (by omega)]
  omega

/-- When only the last number received is at or above `2 ^ 31`, requesting starts too early. -/
theorem maxRequests_of_straddle (hseqno : seqno < 2 ^ 32) (hlast : 2 ^ 31 ≤ last) (hgap : last < seqno)
    (hcap : capacity ≤ 65536) (hstraddle : seqno + 1 < capacity + 2 ^ 31) :
    maxRequests last seqno capacity = seqno - capacity + 1 := by
  have hdiff : asInt (seqno - capacity) = seqno - capacity :=
    asInt_of_small (by omega) (by omega)
  rw [maxRequests, hdiff, asInt_of_large (x := last) (by omega) (by omega),
    max_eq_right (by omega), asInt_of_small (by omega) (by omega)]
  omega

/-- In all other cases the sum is negative, and nothing is requested. -/
theorem maxRequests_of_large (hgap : last + 1 < seqno) (hseqno : seqno < 2 ^ 32)
    (hnear : seqno - last < capacity) (hcap : capacity ≤ 65536) (hlarge : 2 ^ 31 ≤ last + 1)
    (hno : ¬(2 ^ 31 ≤ last ∧ seqno + 1 < capacity + 2 ^ 31)) :
    seqno ≤ maxRequests last seqno capacity := by
  unfold maxRequests
  rcases Nat.lt_or_ge last (2 ^ 31) with hlast | hlast
  · -- The last number is `INT_MAX`, and the sum overflows.
    rw [asInt_of_small (x := last) (by omega) (by omega),
      asInt_of_small (x := seqno - capacity) (by omega) (by omega), max_eq_left (by omega),
      asInt_of_large (by omega) (by omega)]
    omega
  · rcases Nat.lt_or_ge (seqno - capacity) (2 ^ 31) with hdiff | hdiff
    · -- The difference is `INT_MAX`.
      rw [asInt_of_large (x := last) (by omega) (by omega),
        asInt_of_small (x := seqno - capacity) (by omega) (by omega), max_eq_right (by omega),
        asInt_of_large (by omega) (by omega)]
      omega
    · rw [asInt_of_large (x := last) (by omega) (by omega),
        asInt_of_large (x := seqno - capacity) (by omega) (by omega), max_eq_left (by omega),
        asInt_of_small (by omega) (by omega)]
      omega

end MaxRequests

/-! ### The loop over the gap -/

/-- What `requestMissing` does not touch. -/
structure SameButRequests (s s' : Client) : Prop where
  recentPackets : s'.recentPackets = s.recentPackets
  lastreceviedseqno : s'.lastreceviedseqno = s.lastreceviedseqno
  receivebuffer : s'.receivebuffer = s.receivebuffer
  operations : s'.operations = s.operations

theorem requestMissing_same (clock : ClientClock) (capacity : Nat) (s : Client) (i : Nat) :
    SameButRequests s (requestMissing clock capacity s i) := by
  unfold requestMissing
  dsimp only
  split
  · exact ⟨rfl, rfl, rfl, rfl⟩
  · exact ⟨rfl, rfl, rfl, rfl⟩

theorem requestAll_same (clock : ClientClock) (capacity : Nat) (s : Client) (numbers : List Nat) :
    SameButRequests s (numbers.foldl (requestMissing clock capacity) s) := by
  induction numbers generalizing s with
  | nil => exact ⟨rfl, rfl, rfl, rfl⟩
  | cons i numbers ih =>
      have hstep := requestMissing_same clock capacity s i
      have hrest := ih (requestMissing clock capacity s i)
      exact ⟨hrest.recentPackets.trans hstep.recentPackets,
        hrest.lastreceviedseqno.trans hstep.lastreceviedseqno,
        hrest.receivebuffer.trans hstep.receivebuffer,
        hrest.operations.trans hstep.operations⟩

/-- What requesting numbers leaves behind: `registered` were added to the missing packets and
requested, `evicted` were pushed out. -/
structure Requested (capacity : Nat) (s s' : Client) (registered evicted : List UInt32) : Prop where
  posted : requestsPosted s' = requestsPosted s ++ registered
  kept : s.missingPackets ++ registered = evicted ++ s'.missingPackets
  full : evicted = [] ∨ s'.missingPackets.length = capacity
  again : ∀ nonce ∈ registered, nonce ∈ s.missingPackets → nonce ∈ evicted

theorem Requested.step (clock : ClientClock) {capacity : Nat} {s s' : Client}
    {registered evicted : List UInt32} (hreq : Requested capacity s s' registered evicted) {i : Nat}
    (hnew : UInt32.ofNat i ∉ s'.missingPackets) :
    ∃ evicted', Requested capacity s (requestMissing clock capacity s' i)
      (registered ++ [UInt32.ofNat i]) evicted' := by
  have hstep : requestMissing clock capacity s' i =
      intercomSendRequest clock (registerMissing capacity s' (UInt32.ofNat i)) (UInt32.ofNat i) := by
    simp [requestMissing, alreadyRequesting, hnew]
  obtain ⟨entries, hentries⟩ : ∃ entries, entries = s'.missingPackets ++ [UInt32.ofNat i] := ⟨_, rfl⟩
  have hmissing : (requestMissing clock capacity s' i).missingPackets =
      entries.drop (entries.length - capacity) := by
    rw [hstep, hentries]
    rfl
  refine ⟨evicted ++ entries.take (entries.length - capacity), ?_, ?_, ?_, ?_⟩
  · rw [← List.append_assoc, ← hreq.posted, hstep]
    simp [requestsPosted, intercomSendRequest, registerMissing]
  · rw [hmissing, List.append_assoc, List.take_append_drop, hentries, ← List.append_assoc, hreq.kept,
      List.append_assoc]
  · have hlength : entries.length = s'.missingPackets.length + 1 := by
      rw [hentries, List.length_append, List.length_singleton]
    rw [hmissing, List.length_drop]
    by_cases hroom : entries.length ≤ capacity
    · rcases hreq.full with hnone | hfull
      · left
        rw [hnone, Nat.sub_eq_zero_of_le hroom, List.take_zero, List.nil_append]
      · omega
    · right
      omega
  · intro nonce hmem hold
    rw [List.mem_append, List.mem_singleton] at hmem
    rcases hmem with hmem | rfl
    · exact List.mem_append_left _ (hreq.again nonce hmem hold)
    · have hsplit : UInt32.ofNat i ∈ evicted ++ s'.missingPackets :=
        hreq.kept ▸ List.mem_append_left _ hold
      rcases List.mem_append.mp hsplit with hev | hstill
      · exact List.mem_append_left _ hev
      · exact absurd hstill hnew

/-- The loop registers and requests, in order, those numbers that are not registered when their turn
comes; in particular all that were not registered at the beginning. -/
theorem requestAll_spec (clock : ClientClock) (capacity : Nat) (s : Client) (numbers : List Nat) :
    ∃ registered evicted : List UInt32,
      Requested capacity s (numbers.foldl (requestMissing clock capacity) s) registered evicted ∧
      registered.Sublist (numbers.map UInt32.ofNat) ∧
      ∀ i ∈ numbers, UInt32.ofNat i ∉ s.missingPackets → UInt32.ofNat i ∈ registered := by
  induction numbers using List.reverseRecOn with
  | nil =>
      exact ⟨[], [], ⟨by simp, by simp, .inl rfl, by simp⟩, List.Sublist.refl _, by simp⟩
  | append_singleton numbers i ih =>
      obtain ⟨registered, evicted, hreq, hsub, hall⟩ := ih
      rw [List.foldl_append, List.foldl_cons, List.foldl_nil, List.map_append, List.map_singleton]
      by_cases hthere : UInt32.ofNat i ∈
          (numbers.foldl (requestMissing clock capacity) s).missingPackets
      · have hskip : requestMissing clock capacity (numbers.foldl (requestMissing clock capacity) s) i =
            numbers.foldl (requestMissing clock capacity) s := by
          simp [requestMissing, alreadyRequesting, hthere]
        rw [hskip]
        refine ⟨registered, evicted, hreq, hsub.trans (List.sublist_append_left _ _), ?_⟩
        intro j hj hnew
        rcases List.mem_append.mp hj with hj | hj
        · exact hall j hj hnew
        · rw [List.mem_singleton.mp hj] at hnew ⊢
          have hsplit : UInt32.ofNat i ∈ s.missingPackets ++ registered :=
            hreq.kept ▸ List.mem_append_right _ hthere
          exact (List.mem_append.mp hsplit).resolve_left hnew
      · obtain ⟨evicted', hreq'⟩ := hreq.step clock hthere
        refine ⟨_, evicted', hreq', hsub.append (List.Sublist.refl _), ?_⟩
        intro j hj hnew
        rcases List.mem_append.mp hj with hj | hj
        · exact List.mem_append_left _ (hall j hj hnew)
        · rw [List.mem_singleton.mp hj]
          exact List.mem_append_right _ (List.mem_singleton_self _)

@[simp] theorem removeRequest_lastreceviedseqno (s : Client) (nonce : UInt32) :
    (removeRequest s nonce).lastreceviedseqno = s.lastreceviedseqno := rfl

/-! ### Filling the gap -/

/-- The gap between the last packet received and the packet `seqno` was filled: every number strictly
between the two that was not registered is, each newly registered number was requested once, nothing
else was registered, and only the oldest entries were evicted, and only to keep to the capacity. -/
def FillsGap (capacity : Nat) (s s' : Client) (seqno : UInt32) : Prop :=
  s'.lastreceviedseqno = seqno.toNat ∧
  ∃ registered evicted : List UInt32,
    Requested capacity (removeRequest s seqno) s' registered evicted ∧
    registered.Nodup ∧
    (∀ nonce ∈ registered, s.lastreceviedseqno < nonce.toNat ∧ nonce.toNat < seqno.toNat) ∧
    ∀ nonce : UInt32, s.lastreceviedseqno < nonce.toNat → nonce.toNat < seqno.toNat →
      nonce ∉ s.missingPackets → nonce ∈ registered

/-- When the gap is filled: below `2 ^ 31`, or when the numbers in which the requested range differs
from the gap are registered already. -/
def GapCondition (capacity last seqno : Nat) (missingPackets : List UInt32) : Prop :=
  last + 1 < 2 ^ 31 ∨
    if 2 ^ 31 ≤ last ∧ seqno + 1 < capacity + 2 ^ 31 then
      ∀ nonce : UInt32, seqno - capacity < nonce.toNat → nonce.toNat ≤ last → nonce ∈ missingPackets
    else ∀ nonce : UInt32, last < nonce.toNat → nonce.toNat < seqno → nonce ∈ missingPackets

theorem not_isNextChunk {last : Nat} {seqno : UInt32} (hgap : last + 1 < seqno.toNat) :
    isNextChunk last seqno = false := by
  have hzero : seqno ≠ 0 := by
    rintro rfl
    simp at hgap
  have hpred : (seqno - 1).toNat = seqno.toNat - 1 := by
    rw [UInt32.toNat_sub_of_le _ _ (by rw [UInt32.le_iff_toNat_le]; simp; omega)]
    rfl
  have hne : (seqno - 1).toNat ≠ last := by omega
  simp [isNextChunk, hzero, hne]

/-- The client after the loop over the gap before a packet. -/
def requestGap (clock : ClientClock) (s : Client) (buffer : ReceiveBuffer) (seqno : UInt32) : Client :=
  requestRange clock buffer.capacity s
    (maxRequests s.lastreceviedseqno seqno.toNat buffer.capacity) seqno.toNat

theorem noteLoss_gap (clock : ClientClock) {s : Client} {buffer : ReceiveBuffer} {seqno : UInt32}
    (hgap : s.lastreceviedseqno + 1 < seqno.toNat)
    (hnear : seqno.toNat - s.lastreceviedseqno < buffer.capacity) :
    noteLoss clock s buffer seqno = (requestGap clock s buffer seqno, buffer) := by
  rw [noteLoss, not_isNextChunk hgap]
  dsimp only
  rw [if_neg Bool.false_ne_true, if_neg (by simp only [decide_eq_true_eq]; omega), if_neg (by omega)]
  rfl

theorem raiseSeqno_fields (s : Client) (buffer : ReceiveBuffer) {seqno : UInt32}
    (hlast : s.lastreceviedseqno < seqno.toNat) :
    (raiseSeqno (withReceivebuffer s buffer) seqno).missingPackets = s.missingPackets ∧
      requestsPosted (raiseSeqno (withReceivebuffer s buffer) seqno) = requestsPosted s ∧
      (raiseSeqno (withReceivebuffer s buffer) seqno).lastreceviedseqno = seqno.toNat := by
  rw [raiseSeqno, if_pos (show seqno.toNat > (withReceivebuffer s buffer).lastreceviedseqno from hlast)]
  exact ⟨rfl, rfl, rfl⟩

theorem storeAudio_gap (clock : ClientClock) {s : Client} {buffer : ReceiveBuffer} {seqno : UInt32}
    (chunk : PcmChunk) (hgap : s.lastreceviedseqno + 1 < seqno.toNat)
    (hnear : seqno.toNat - s.lastreceviedseqno < buffer.capacity) :
    (storeAudio clock s buffer seqno chunk).missingPackets =
        (requestGap clock s buffer seqno).missingPackets ∧
      requestsPosted (storeAudio clock s buffer seqno chunk) =
        requestsPosted (requestGap clock s buffer seqno) ∧
      (storeAudio clock s buffer seqno chunk).lastreceviedseqno = seqno.toNat := by
  have hlast : (requestGap clock s buffer seqno).lastreceviedseqno = s.lastreceviedseqno :=
    (requestAll_same clock buffer.capacity s _).lastreceviedseqno
  rw [storeAudio, noteLoss_gap clock hgap hnear]
  exact raiseSeqno_fields _ _ (by omega)

theorem ensureReceivebuffer_of_some (env : ClientEnv) {s : Client} {buffer : ReceiveBuffer}
    (hbuffer : s.receivebuffer = some buffer) (serverbufferms : UInt16) (chunk : PcmChunk) :
    ensureReceivebuffer env s serverbufferms chunk = .ok (s, chunk, buffer) := by
  have hcapacity : buffer.capacity ≠ 0 := buffer.capacity_pos.ne'
  rw [ensureReceivebuffer, hbuffer]
  dsimp only
  rw [if_pos hcapacity]
  rfl

theorem reallocWhenRequired_of_none {s : Client} (hnone : s.receivebuffer = none)
    (serverbufferms : UInt16) (chunkMs : Nat) :
    reallocWhenRequired s serverbufferms chunkMs =
      if chunkMs = 0 then .error .divisionByZero
      else .ok ({ s with bufferms := serverbufferms },
        .new (serverbufferms.toNat / chunkMs + 1) (Nat.succ_pos _)
          (elements_le serverbufferms chunkMs)) := by
  rw [reallocWhenRequired, hnone]
  rfl

/-- The receive buffer that is used is the one there was, or a new one for chunks of the duration of the
decoded chunk. -/
theorem ensureReceivebuffer_cases {env : ClientEnv} {s s' : Client} {serverbufferms : UInt16}
    {chunk chunk' : PcmChunk} {buffer : ReceiveBuffer}
    (hrun : ensureReceivebuffer env s serverbufferms chunk = .ok (s', chunk', buffer)) :
    s.receivebuffer = some buffer ∧ s' = s ∧ chunk' = chunk ∨
    s.receivebuffer = none ∧ ∃ chunkMs,
      chunkGetdurationMs env.opus s.decoder chunk = .ok (chunk', chunkMs) ∧ chunkMs ≠ 0 ∧
      s' = { s with decoder := s.decoder || chunk.codec == codecOpus, bufferms := serverbufferms } ∧
      buffer = .new (serverbufferms.toNat / chunkMs + 1) (Nat.succ_pos _)
        (elements_le serverbufferms chunkMs) := by
  cases hbuffer : s.receivebuffer with
  | some old =>
      rw [ensureReceivebuffer_of_some env hbuffer] at hrun
      cases hrun
      exact .inl ⟨rfl, rfl, rfl⟩
  | none =>
      rw [ensureReceivebuffer, hbuffer] at hrun
      obtain ⟨⟨decoded, chunkMs⟩, hduration, hrun⟩ := except_bind_ok hrun
      obtain ⟨⟨s₁, buffer₁⟩, hrealloc, hrun⟩ := except_bind_ok hrun
      cases hrun
      rw [reallocWhenRequired_of_none rfl] at hrealloc
      split at hrealloc
      · cases hrealloc
      · rename_i hms
        cases hrealloc
        exact .inr ⟨rfl, chunkMs, hduration, hms, rfl, rfl⟩

/-- How `intercom_handle_audio` ends: there is no receive buffer for the chunk, or the chunk is on time and
stored, or it is late. -/
theorem handleAudio_cases (env : ClientEnv) (clock : ClientClock) (s : Client) (packet : Nat → UInt8) :
    (∃ fault, ensureReceivebuffer env (removeRequest s (packetHdr packet).nonce) (audioBufferms packet)
        (audioChunk packet) = .error fault ∧
      intercomHandleAudio env clock s packet =
        ⟨removeRequest s (packetHdr packet).nonce, some fault⟩) ∨
    ∃ s₁ chunk buffer, ensureReceivebuffer env (removeRequest s (packetHdr packet).nonce)
        (audioBufferms packet) (audioChunk packet) = .ok (s₁, chunk, buffer) ∧
      (timespecCmp (chunkGetPlayAt (some chunk)) clock.ctime > 0 ∧
        intercomHandleAudio env clock s packet =
          Outcome.ofExcept (storeAudio clock s₁ buffer (packetHdr packet).nonce chunk)
            (openDevice env clock (storeAudio clock s₁ buffer (packetHdr packet).nonce chunk) chunk) ∨
      ¬timespecCmp (chunkGetPlayAt (some chunk)) clock.ctime > 0 ∧
        intercomHandleAudio env clock s packet = ⟨pruneMissingPackets (raiseSeqno
          (withReceivebuffer s₁ buffer) (packetHdr packet).nonce) (packetHdr packet).nonce, none⟩) := by
  rw [intercomHandleAudio]
  dsimp only
  cases ensureReceivebuffer env (removeRequest s (packetHdr packet).nonce) (audioBufferms packet)
      (audioChunk packet) with
  | error fault => exact .inl ⟨fault, rfl, rfl⟩
  | ok result =>
      obtain ⟨s₁, chunk, buffer⟩ := result
      refine .inr ⟨s₁, chunk, buffer, rfl, ?_⟩
      dsimp only
      split
      · rename_i hontime
        exact .inl ⟨hontime, rfl⟩
      · rename_i hlate
        exact .inr ⟨hlate, rfl⟩

/-- With a receive buffer, a packet that is on time is stored, and then the device is opened. -/
theorem handleAudio_onTime (env : ClientEnv) {clock : ClientClock} {s : Client}
    {packet : Nat → UInt8} {buffer : ReceiveBuffer} (hbuffer : s.receivebuffer = some buffer)
    (hontime : timespecCmp (chunkGetPlayAt (some (audioChunk packet))) clock.ctime > 0) :
    SameIntercom (storeAudio clock (removeRequest s (packetHdr packet).nonce) buffer
      (packetHdr packet).nonce (audioChunk packet)) (intercomHandleAudio env clock s packet).state := by
  have hsame : (removeRequest s (packetHdr packet).nonce).receivebuffer = some buffer := hbuffer
  rw [intercomHandleAudio]
  dsimp only
  rw [ensureReceivebuffer_of_some env hsame]
  dsimp only
  rw [if_pos hontime]
  exact sameIntercom_openDevice env clock _ _

theorem toNat_ofNat_32 {i : Nat} (hi : i < 2 ^ 32) : (UInt32.ofNat i).toNat = i :=
  UInt32.toNat_ofNat_of_lt' hi

/-- The numbers of a range, as the loop over it sees them. -/
theorem mem_range_ofNat {first seqno : Nat} (hseqno : seqno < 2 ^ 32) (nonce : UInt32) :
    nonce ∈ (List.range' first (seqno - first)).map UInt32.ofNat ↔
      first ≤ nonce.toNat ∧ nonce.toNat < seqno := by
  simp only [List.mem_map, List.mem_range'_1]
  constructor
  · rintro ⟨i, ⟨hlo, hhi⟩, rfl⟩
    rw [toNat_ofNat_32 (by omega)]
    omega
  · rintro ⟨hlo, hhi⟩
    exact ⟨nonce.toNat, by omega, UInt32.ofNat_toNat⟩

theorem nodup_range_ofNat {first seqno : Nat} (hseqno : seqno < 2 ^ 32) :
    ((List.range' first (seqno - first)).map UInt32.ofNat).Nodup := by
  refine List.Nodup.map_on ?_ List.nodup_range'
  intro i hi j hj heq
  rw [List.mem_range'_1] at hi hj
  have htoNat := congrArg UInt32.toNat heq
  rwa [toNat_ofNat_32 (by omega), toNat_ofNat_32 (by omega)] at htoNat

/-- The range from `first` on is registered and requested. -/
theorem requestRange_spec (clock : ClientClock) (capacity : Nat) (s : Client) (first : Nat)
    (seqno : UInt32) :
    ∃ registered evicted : List UInt32,
      Requested capacity s (requestRange clock capacity s first seqno.toNat) registered evicted ∧
      registered.Nodup ∧
      (∀ nonce ∈ registered, first ≤ nonce.toNat ∧ nonce.toNat < seqno.toNat) ∧
      ∀ nonce : UInt32, first ≤ nonce.toNat → nonce.toNat < seqno.toNat →
        nonce ∉ s.missingPackets → nonce ∈ registered := by
  have hseqno := seqno.toNat_lt
  obtain ⟨registered, evicted, hreq, hsub, hall⟩ :=
    requestAll_spec clock capacity s (List.range' first (seqno.toNat - first))
  refine ⟨registered, evicted, hreq, hsub.nodup (nodup_range_ofNat hseqno), ?_, ?_⟩
  · intro nonce hmem
    exact (mem_range_ofNat hseqno nonce).mp (hsub.subset hmem)
  · intro nonce hlo hhi hnew
    have hmem := (mem_range_ofNat hseqno nonce).mpr ⟨hlo, hhi⟩
    obtain ⟨i, hi, rfl⟩ := List.mem_map.mp hmem
    exact hall i hi hnew

/-- Numbers that are registered already are passed over. -/
theorem requestAll_of_registered (clock : ClientClock) (capacity : Nat) {s : Client}
    {numbers : List Nat} (hthere : ∀ i ∈ numbers, UInt32.ofNat i ∈ s.missingPackets) :
    numbers.foldl (requestMissing clock capacity) s = s := by
  induction numbers with
  | nil => rfl
  | cons i numbers ih =>
      have hskip : requestMissing clock capacity s i = s := by
        simp [requestMissing, alreadyRequesting, hthere i List.mem_cons_self]
      rw [List.foldl_cons, hskip]
      exact ih fun j hj => hthere j (List.mem_cons_of_mem i hj)

theorem requestRange_skip (clock : ClientClock) (capacity : Nat) {s : Client} {first next : Nat}
    {seqno : UInt32} (hnext : next ≤ seqno.toNat) (hfirst : first ≤ next)
    (hthere : ∀ nonce : UInt32, first ≤ nonce.toNat → nonce.toNat < next → nonce ∈ s.missingPackets) :
    requestRange clock capacity s first seqno.toNat =
      requestRange clock capacity s next seqno.toNat := by
  have hseqno := seqno.toNat_lt
  have hsplit : List.range' first (seqno.toNat - first) =
      List.range' first (next - first) ++ List.range' next (seqno.toNat - next) := by
    have happend := @List.range'_append_1 first (next - first) (seqno.toNat - next)
    rw [Nat.add_sub_cancel' hfirst] at happend
    rw [happend]
    congr 1
    omega
  have hskip : (List.range' first (next - first)).foldl (requestMissing clock capacity) s = s := by
    refine requestAll_of_registered clock capacity fun i hi => ?_
    rw [List.mem_range'_1] at hi
    have htoNat := toNat_ofNat_32 (i := i) (by omega)
    exact hthere _ (by omega) (by omega)
  rw [requestRange, hsplit, List.foldl_append, hskip, requestRange]

section Main

variable {clock : ClientClock} {s : Client} {buffer : ReceiveBuffer} {packet : Nat → UInt8}

/-- What the client has registered after a packet behind a gap, when the loop over the gap is the one
over the range that starts at `first`. -/
theorem handleAudio_requests (env : ClientEnv) (first : Nat) (hbuffer : s.receivebuffer = some buffer)
    (hgap : s.lastreceviedseqno + 1 < (packetHdr packet).nonce.toNat)
    (hnear : (packetHdr packet).nonce.toNat - s.lastreceviedseqno < buffer.capacity)
    (hontime : timespecCmp (chunkGetPlayAt (some (audioChunk packet))) clock.ctime > 0)
    (hfirst : requestGap clock (removeRequest s (packetHdr packet).nonce) buffer
        (packetHdr packet).nonce =
      requestRange clock buffer.capacity (removeRequest s (packetHdr packet).nonce) first
        (packetHdr packet).nonce.toNat) :
    (intercomHandleAudio env clock s packet).state.lastreceviedseqno = (packetHdr packet).nonce.toNat ∧
    ∃ registered evicted : List UInt32,
      Requested buffer.capacity (removeRequest s (packetHdr packet).nonce)
        (intercomHandleAudio env clock s packet).state registered evicted ∧
      registered.Nodup ∧
      (∀ nonce ∈ registered, first ≤ nonce.toNat ∧ nonce.toNat < (packetHdr packet).nonce.toNat) ∧
      ∀ nonce : UInt32, first ≤ nonce.toNat → nonce.toNat < (packetHdr packet).nonce.toNat →
        nonce ∉ s.missingPackets → nonce ∈ registered := by
  have hsame := handleAudio_onTime env hbuffer hontime
  obtain ⟨hmissing, hposted, hlast⟩ :=
    storeAudio_gap clock (s := removeRequest s (packetHdr packet).nonce) (audioChunk packet)
      (by rwa [removeRequest_lastreceviedseqno]) (by rwa [removeRequest_lastreceviedseqno])
  obtain ⟨registered, evicted, hreq, hnodup, hrange, hall⟩ :=
    requestRange_spec clock buffer.capacity (removeRequest s (packetHdr packet).nonce) first
      (packetHdr packet).nonce
  rw [hfirst] at hmissing hposted
  refine ⟨hsame.lastreceviedseqno.trans hlast, registered, evicted, ⟨?_, ?_, ?_, hreq.again⟩,
    hnodup, hrange, ?_⟩
  · rw [hsame.requestsPosted, hposted, hreq.posted]
  · rw [hsame.missingPackets, hmissing, hreq.kept]
  · rw [hsame.missingPackets, hmissing]
    exact hreq.full
  · intro nonce hlo hhi hnew
    exact hall nonce hlo hhi fun hmem => hnew (List.mem_of_mem_erase hmem)

/-- The numbers registered can be read off the request tasks. -/
theorem FillsGap.registered_eq {capacity : Nat} {s' : Client} {seqno : UInt32}
    {registered evicted : List UInt32} (hfills : FillsGap capacity s s' seqno)
    (hreq : Requested capacity (removeRequest s seqno) s' registered evicted) :
    (∀ nonce ∈ registered, s.lastreceviedseqno < nonce.toNat ∧ nonce.toNat < seqno.toNat) ∧
      ∀ nonce : UInt32, s.lastreceviedseqno < nonce.toNat → nonce.toNat < seqno.toNat →
        nonce ∉ s.missingPackets → nonce ∈ registered := by
  obtain ⟨-, registered', evicted', hreq', -, hrange, hall⟩ := hfills
  have hsame : registered' = registered :=
    List.append_cancel_left (hreq'.posted.symm.trans hreq.posted)
  exact hsame ▸ ⟨hrange, hall⟩

/-- A packet behind a gap makes the client fill the gap exactly when the last number received is below
`2 ^ 31 - 1`, or the numbers in which the requested range differs from the gap are registered
already. -/
theorem gapFilled_iff (env : ClientEnv) (hbuffer : s.receivebuffer = some buffer)
    (hgap : s.lastreceviedseqno + 1 < (packetHdr packet).nonce.toNat)
    (hnear : (packetHdr packet).nonce.toNat - s.lastreceviedseqno < buffer.capacity)
    (hontime : timespecCmp (chunkGetPlayAt (some (audioChunk packet))) clock.ctime > 0) :
    FillsGap buffer.capacity s (intercomHandleAudio env clock s packet).state
        (packetHdr packet).nonce ↔
      GapCondition buffer.capacity s.lastreceviedseqno (packetHdr packet).nonce.toNat
        s.missingPackets := by
  have hseqno := (packetHdr packet).nonce.toNat_lt
  have hcap : buffer.capacity ≤ 65536 := buffer.capacity_le
  have hrequests := fun first => handleAudio_requests env first hbuffer hgap hnear hontime
  have hfilled : requestGap clock (removeRequest s (packetHdr packet).nonce) buffer
      (packetHdr packet).nonce = requestRange clock buffer.capacity
        (removeRequest s (packetHdr packet).nonce) (s.lastreceviedseqno + 1)
        (packetHdr packet).nonce.toNat →
      FillsGap buffer.capacity s (intercomHandleAudio env clock s packet).state
        (packetHdr packet).nonce := fun hfirst => hrequests _ hfirst
  obtain ⟨hlast, registered, evicted, hreq, hnodup, hrange, hall⟩ :=
    hrequests (maxRequests s.lastreceviedseqno (packetHdr packet).nonce.toNat buffer.capacity) rfl
  unfold GapCondition
  by_cases hsmall : s.lastreceviedseqno + 1 < 2 ^ 31
  · refine ⟨fun _ => .inl hsmall, fun _ => hfilled ?_⟩
    rw [← maxRequests_of_small hgap hnear hcap hsmall]
    rfl
  · split
    · rename_i hstraddle
      have hmax := maxRequests_of_straddle hseqno hstraddle.1 (by omega) hcap hstraddle.2
      constructor
      · intro hfills
        refine .inr fun nonce hlo hhi => ?_
        by_contra hnew
        have hmem := hall nonce (by omega) (by omega) hnew
        have := (hfills.registered_eq hreq).1 nonce hmem
        omega
      · rintro (hlt | hthere)
        · exact absurd hlt hsmall
        · refine hfilled ?_
          rw [← requestRange_skip clock buffer.capacity (by omega)
            (by omega : (packetHdr packet).nonce.toNat - buffer.capacity + 1 ≤
              s.lastreceviedseqno + 1)]
          · rw [← hmax]
            rfl
          · intro nonce hlo hhi
            refine (List.mem_erase_of_ne ?_).mpr (hthere nonce (by omega) (by omega))
            rintro rfl
            omega
    · rename_i hno
      have hmax := maxRequests_of_large hgap hseqno hnear hcap (by omega) hno
      have hnone : registered = [] := by
        rw [List.eq_nil_iff_forall_not_mem]
        intro nonce hmem
        obtain ⟨hlo, hhi⟩ := hrange nonce hmem
        exact absurd (hmax.trans hlo) (by omega)
      constructor
      · intro hfills
        refine .inr fun nonce hlo hhi => ?_
        by_contra hnew
        have hmem := (hfills.registered_eq hreq).2 nonce hlo hhi hnew
        rw [hnone] at hmem
        exact List.not_mem_nil hmem
      · rintro (hlt | hthere)
        · exact absurd hlt hsmall
        · refine ⟨hlast, registered, evicted, hreq, hnodup, ?_, ?_⟩
          · simp [hnone]
          · exact fun nonce hlo hhi hnew => absurd (hthere nonce hlo hhi) hnew

end Main

/-- A device that takes every format. -/
def anyDevice : ClientEnv := ⟨⟨fun _ _ => 0, fun _ _ => (0, [])⟩, id, 1, 0⟩

/-- A client with a receive buffer for ten chunks that has received the packet `last`. -/
def clientAt (last : Nat) : Client :=
  { freshClient 7 true none with
    lastreceviedseqno := last
    receivebuffer := some (.new 10 (by decide) (by decide)) }

/-- The AUDIO packet with a number and a chunk of one millisecond, to be played at second 100. -/
def audioPacketAt (seqno : UInt32) : Nat → UInt8 :=
  (assembleAudio (fun _ => 0) 1000 seqno ⟨100, 0, 8000, 1, 1, 8, codecPcm, List.replicate 8 0⟩).1.packet

/-- A moment before those chunks are due. -/
def beforeDue : ClientClock := ⟨⟨50, 0⟩, ⟨50, 0⟩, ⟨9, 0⟩⟩

/-- A gap of two packets at the beginning of a stream is filled. -/
theorem gapFilled_early :
    FillsGap 10 (clientAt 4)
      (intercomHandleAudio anyDevice beforeDue (clientAt 4) (audioPacketAt 7)).state 7 := by
  have hseqno : (packetHdr (audioPacketAt 7)).nonce = 7 := by decide +kernel
  have hfills := (@gapFilled_iff beforeDue (clientAt 4) _ (audioPacketAt 7) anyDevice
    rfl (by decide +kernel) (by decide +kernel) (by decide +kernel)).mpr (.inl (by decide))
  rwa [hseqno] at hfills

/-- Behind packet `2 ^ 31 + 100` a missing packet is not requested. -/
theorem gap_not_filled_late :
    ¬FillsGap 10 (clientAt 2147483748)
      (intercomHandleAudio anyDevice beforeDue (clientAt 2147483748)
        (audioPacketAt 2147483750)).state 2147483750 := by
  rintro ⟨-, registered, evicted, hreq, -, -, hall⟩
  have hposted : requestsPosted (intercomHandleAudio anyDevice beforeDue
      (clientAt 2147483748) (audioPacketAt 2147483750)).state = [] := by
    decide +kernel
  have hnone : registered = [] := by
    have happend := hreq.posted
    rw [hposted] at happend
    exact (List.append_eq_nil_iff.mp happend.symm).2
  have hmem := hall 2147483749 (by decide) (by decide) (by decide)
  rw [hnone] at hmem
  exact List.not_mem_nil hmem

end Snapcastc
