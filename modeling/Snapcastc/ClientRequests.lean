import Snapcastc.ClientGreetings
import Snapcastc.IntercomClientRetries
import Snapcastc.LibraryRuns

/-! The client asks for what it misses. For every packet that is registered as missing a request task is queued
(`intercom_client.c`), so that the last REQUEST for it is never long ago. -/

namespace Snapcastc

/-- The REQUEST that the client sends at an event, if it does: the number of the packet, and when. -/
def asking (p : ClientProcess) : ProcessEvent → Option (UInt32 × Timespec)
  | .fire id _ _ clock =>
      if p.exited then none
      else match p.client.tasks.queued.find? (·.id == id) with
        | none => none
        | some task =>
            if timespecCmp task.due clock.uptime > 0 then none
            else match task.code with
              | .request reqNonce retriesLeft =>
                  let s := { p.client with tasks := p.client.tasks.start task.id }
                  (requestTask clock s reqNonce retriesLeft).2.map fun asked => (asked, clock.uptime)
              | _ => none
  | _ => none

def noteRequest (p : ClientProcess) (event : ProcessEvent) (requests : List (UInt32 × Timespec)) :
    List (UInt32 × Timespec) := requests ++ (asking p event).toList

/-- Those of a run. -/
def requestsOf (env : ClientEnv) (p : ClientProcess) (events : List ProcessEvent) : List (UInt32 × Timespec) :=
  Runs.record (processStep env) noteRequest p events []

theorem processRun_eq_run (env : ClientEnv) (p : ClientProcess) (events : List ProcessEvent) :
    processRun env p events = Runs.run (processStep env) p events := by
  induction events generalizing p with
  | nil => rfl
  | cons event events ih =>
      rw [processRun, Runs.run]
      cases processStep env p event with
      | error fault => rfl
      | ok p' => exact ih p'

/-! ### Packets that are registered as missing -/

/-- A task is queued that asks for the packet, and it is due at once. -/
def NewlyAsked (uptime : Timespec) (s : Client) (seqno : UInt32) : Prop :=
  ∃ task ∈ s.tasks.queued, task.due = settime uptime 0 0 ∧ ∃ retriesLeft, task.code = .request seqno retriesLeft

theorem NewlyAsked.kept {uptime : Timespec} {s s' : Client} {seqno : UInt32} (hasked : NewlyAsked uptime s seqno)
    (hkept : RequestsKept s s') : NewlyAsked uptime s' seqno := by
  obtain ⟨task, htask, hdue, retriesLeft, hcode⟩ := hasked
  exact ⟨task, hkept.kept task htask (by rw [hcode]; rfl), hdue, retriesLeft, hcode⟩

theorem requestMissing_asks (clock : ClientClock) (capacity : Nat) (s : Client) (i : Nat) :
    ∀ seqno ∈ (requestMissing clock capacity s i).missingPackets,
      seqno ∈ s.missingPackets ∨ NewlyAsked clock.uptime (requestMissing clock capacity s i) seqno := by
  unfold requestMissing
  dsimp only
  split_ifs
  · exact fun seqno hmem => .inl hmem
  · intro seqno hmem
    have hboth : seqno ∈ s.missingPackets ++ [UInt32.ofNat i] := List.mem_of_mem_drop hmem
    rcases List.mem_append.mp hboth with hold | hnew
    · exact .inl hold
    · rw [List.mem_singleton.mp hnew]
      exact .inr ⟨_, List.mem_append_right _ (List.mem_singleton_self _), rfl, _, rfl⟩

theorem requestAll_asks (clock : ClientClock) (capacity : Nat) (s : Client) (numbers : List Nat) :
    ∀ seqno ∈ (numbers.foldl (requestMissing clock capacity) s).missingPackets, seqno ∈ s.missingPackets ∨
      NewlyAsked clock.uptime (numbers.foldl (requestMissing clock capacity) s) seqno := by
  induction numbers generalizing s with
  | nil => exact fun seqno hmem => .inl hmem
  | cons i numbers ih =>
      intro seqno hmem
      rcases ih (requestMissing clock capacity s i) seqno hmem with hthere | hasked
      · rcases requestMissing_asks clock capacity s i seqno hthere with hold | hasked
        · exact .inl hold
        · exact .inr (hasked.kept (requestAll_requests clock capacity _ numbers).1)
      · exact .inr hasked

theorem noteLoss_asks (clock : ClientClock) (s : Client) (buffer : ReceiveBuffer) (thisSeqno : UInt32) :
    ∀ seqno ∈ (noteLoss clock s buffer thisSeqno).1.missingPackets, seqno ∈ s.missingPackets ∨
      NewlyAsked clock.uptime (noteLoss clock s buffer thisSeqno).1 seqno := by
  unfold noteLoss
  dsimp only
  split_ifs
  · exact fun seqno hmem => .inl hmem
  · exact fun seqno hmem => .inl hmem
  · exact fun seqno hmem => .inl hmem
  · exact requestAll_asks clock buffer.capacity s _

theorem storeAudio_asks (clock : ClientClock) (s : Client) (buffer : ReceiveBuffer) (thisSeqno : UInt32)
    (chunk : PcmChunk) :
    ∀ seqno ∈ (storeAudio clock s buffer thisSeqno chunk).missingPackets, seqno ∈ s.missingPackets ∨
      NewlyAsked clock.uptime (storeAudio clock s buffer thisSeqno chunk) seqno := by
  have hraise : ∀ s' : Client, (raiseSeqno s' thisSeqno).missingPackets = s'.missingPackets ∧
      (raiseSeqno s' thisSeqno).tasks = s'.tasks := by
    intro s'
    unfold raiseSeqno
    split_ifs
    · exact ⟨rfl, rfl⟩
    · exact ⟨rfl, rfl⟩
  obtain ⟨hmissing, htasks⟩ := hraise (withReceivebuffer (noteLoss clock s buffer thisSeqno).1
    ((noteLoss clock s buffer thisSeqno).2.putChunk clock.later ⟨chunk, thisSeqno⟩))
  intro seqno hmem
  rw [storeAudio, hmissing] at hmem
  refine (noteLoss_asks clock s buffer thisSeqno seqno hmem).imp_right fun hasked => ?_
  obtain ⟨task, htask, hdue, retriesLeft, hcode⟩ := hasked
  refine ⟨task, ?_, hdue, retriesLeft, hcode⟩
  rw [storeAudio, htasks]
  exact htask

theorem executeAll_missing (s : Client) (ops : List ServerOperation) :
    (ops.foldl execute s).missingPackets ⊆ s.missingPackets := by
  induction ops generalizing s with
  | nil => exact List.Subset.refl _
  | cons op ops ih =>
      refine List.Subset.trans (ih (execute s op)) ?_
      cases op with
      | stop => exact List.nil_subset _
      | volume percent => exact List.Subset.refl _

/-- A datagram registers no packet as missing without a task that asks for it. -/
theorem receiveDatagram_asks {env : ClientEnv} {clock : ClientClock} {p p' : ClientProcess} (hinv : ProcessInv p)
    {packet : Nat → UInt8} {packetLen : Nat} (hrun : receiveDatagram env clock p packet packetLen = .ok p') :
    ∀ seqno ∈ p'.client.missingPackets,
      seqno ∈ p.client.missingPackets ∨ NewlyAsked clock.uptime p'.client seqno := by
  obtain ⟨hnoted, -⟩ := noteRecent_record p.client (packetHdr packet)
  obtain ⟨hnotedTasks, hnotedDevice⟩ := noteRecent_device p.client (packetHdr packet)
  have hensured : ∀ {s₁ : Client} {chunk : PcmChunk} {buffer : ReceiveBuffer},
      ensureReceivebuffer env
        (removeRequest (noteRecent p.client (packetHdr packet)) (packetHdr packet).nonce)
        (audioBufferms packet) (audioChunk packet) = .ok (s₁, chunk, buffer) →
      s₁.missingPackets ⊆ p.client.missingPackets ∧ SparesDevice p.client s₁ := by
    intro s₁ chunk buffer hensure
    obtain ⟨hmissing, -⟩ := ensureReceivebuffer_record hensure
    obtain ⟨⟨htasks, hdevice⟩, -⟩ := (ensureReceivebuffer_spec env _ _ _).of_eq hensure
    generalize noteRecent p.client (packetHdr packet) = noted at hnoted hnotedTasks hnotedDevice hmissing htasks hdevice
    rw [hmissing, ← hnoted]
    exact ⟨List.erase_subset, .of_eq hinv.sound (htasks.trans hnotedTasks) (hdevice.trans hnotedDevice)⟩
  obtain ⟨s', rfl, hhandled⟩ := receiveDatagram_handled hrun
  intro seqno hmem
  cases hhandled with
  | dropped => exact .inl hmem
  | operations ops =>
      generalize noteRecent p.client (packetHdr packet) = noted at hnoted hmem
      rw [← hnoted]
      exact .inl (executeAll_missing noted ops hmem)
  | late s₁ buffer chunk hensure =>
      have hraised := List.mem_of_mem_filter hmem
      rw [(raiseSeqno_record _ _).1] at hraised
      exact .inl ((hensured hensure).1 hraised)
  | stored s₁ s₂ buffer chunk hensure hopen =>
      obtain ⟨hmissing, hspared⟩ := hensured hensure
      rw [(openDevice_sameIntercom hopen).missingPackets] at hmem
      rcases storeAudio_asks clock s₁ buffer (packetHdr packet).nonce chunk seqno hmem with hold | hasked
      · exact .inl (hmissing hold)
      · have hstored := hinv.spared (hspared.trans
          (storeAudio_spares clock hspared.tasks.sound buffer (packetHdr packet).nonce chunk))
        exact .inr (hasked.kept (openDevice_requests hstored hopen).1)

/-! ### Other events -/

/-- Packets are at most forgotten: no other ones are registered as missing, and the packet accepted last is the
same, or it is not known any more. -/
structure Forgets (s s' : Client) : Prop where
  missing : s'.missingPackets ⊆ s.missingPackets
  recent : s'.recentPackets = s.recentPackets ∨ s'.recentPackets = []

namespace Forgets

variable {s s' : Client}

theorem refl (s : Client) : Forgets s s := ⟨List.Subset.refl _, .inl rfl⟩

theorem of_same (hsame : SameIntercom s s') : Forgets s s' :=
  ⟨hsame.missingPackets ▸ List.Subset.refl _, .inl hsame.recentPackets⟩

theorem all (hmissing : s'.missingPackets = []) (hrecent : s'.recentPackets = []) : Forgets s s' :=
  ⟨hmissing ▸ List.nil_subset _, .inr hrecent⟩

end Forgets

theorem reopenIntercom_forgets {clock : ClientClock} {resolved : Bool} {p p' : ClientProcess} (s : Client)
    (hrun : reopenIntercom clock resolved p = .ok p') : Forgets s p'.client := by
  cases resolved with
  | false => cases hrun
  | true =>
      cases hrun
      exact .all rfl rfl

theorem closeIntercom_cleared {p p' : ClientProcess} (hrun : closeIntercom p = .ok p') :
    p'.client.missingPackets = [] ∧ p'.client.recentPackets = [] := by
  unfold closeIntercom at hrun
  split at hrun
  · cases hrun
  · obtain ⟨tasks, -, hrun⟩ := except_bind_ok hrun
    cases hrun
    exact ⟨rfl, rfl⟩

theorem decodeFirstInput_forgets {env : ClientEnv} {s s' : Client} (hrun : decodeFirstInput env s = .ok s') :
    Forgets s s' := by
  unfold decodeFirstInput at hrun
  split at hrun
  · cases hrun
    exact .refl s
  · split at hrun
    · cases hrun
      exact .refl s
    · obtain ⟨decoded, -, hrun⟩ := except_bind_ok hrun
      cases hrun
      exact ⟨List.Subset.refl _, .inl rfl⟩

/-- A task registers no packet as missing, and accepts none. -/
theorem runClientTask_forgets {env : ClientEnv} {clock : ClientClock} {changed resolved : Bool}
    {p p' : ClientProcess} {code : ClientTask} (hrun : runClientTask env clock changed resolved p code = .ok p') :
    Forgets p.client p'.client := by
  cases code with
  | hello =>
      cases changed with
      | false =>
          cases hrun
          exact ⟨List.Subset.refl _, .inl rfl⟩
      | true =>
          obtain ⟨p₁, -, hrun⟩ := except_bind_ok hrun
          obtain ⟨s', -, hrun⟩ := except_bind_ok hrun
          exact reopenIntercom_forgets p.client hrun
  | request seqno retriesLeft =>
      cases hrun
      rcases requestTask_cases clock p.client seqno retriesLeft with ⟨-, -, hrun⟩ | ⟨-, -, hrun⟩ | ⟨-, hrun⟩
      · rw [hrun]
        exact ⟨List.Subset.refl _, .inl rfl⟩
      · rw [hrun]
        exact ⟨List.Subset.refl _, .inl rfl⟩
      · rw [hrun]
        exact ⟨List.erase_subset, .inl rfl⟩
  | alsaplayerUninit =>
      obtain ⟨s', huninit, hrun⟩ := except_bind_ok hrun
      cases hrun
      exact .of_same (alsaplayerUninit_sameIntercom huninit)
  | intercomReinit => exact reopenIntercom_forgets p.client hrun
  | decodeFirstInput =>
      obtain ⟨s', hdecode, hrun⟩ := except_bind_ok hrun
      cases hrun
      exact decodeFirstInput_forgets hdecode

theorem fireClientTask_forgets {env : ClientEnv} {clock : ClientClock} {changed resolved : Bool}
    {p p' : ClientProcess} {id : Nat} (hrun : fireClientTask env clock changed resolved p id = .ok p') :
    Forgets p.client p'.client := by
  unfold fireClientTask at hrun
  split at hrun
  · cases hrun
    exact .refl _
  · split_ifs at hrun
    · cases hrun
      exact .refl _
    · obtain ⟨p₁, hexecute, hfinish⟩ := except_bind_ok hrun
      cases hfinish
      obtain ⟨hmissing, hrecent⟩ := runClientTask_forgets hexecute
      exact ⟨hmissing, hrecent⟩

theorem dropLate_recent (dropped : Nat) (s : Client) :
    ((fun s => (intercomGetnextaudiochunk s).2)^[dropped] s).recentPackets = s.recentPackets := by
  induction dropped generalizing s with
  | zero => rfl
  | succ dropped ih => exact ih (intercomGetnextaudiochunk s).2

theorem getchunk_forgets {env : ClientEnv} {clock : ClientClock} {dropped : Nat} {takes : Bool} {s s' : Client}
    (hrun : getchunk env clock dropped takes s = .ok s') : Forgets s s' := by
  have hmissing := dropLate_missing dropped s
  have hrecent := dropLate_recent dropped s
  unfold getchunk at hrun
  dsimp only at hrun
  generalize (fun s => (intercomGetnextaudiochunk s).2)^[dropped] s = late at hrun hmissing hrecent
  have hlate : Forgets s late := ⟨hmissing ▸ List.Subset.refl _, .inl hrecent⟩
  split_ifs at hrun
  · unfold takeChunk intercomGetnextaudiochunk at hrun
    split at hrun
    · rename_i s₁ hnext
      obtain ⟨-, rfl⟩ := Prod.mk.inj hnext
      cases hrun
      exact ⟨hlate.missing, hlate.recent⟩
    · rename_i chunk s₁ hnext
      obtain ⟨-, rfl⟩ := Prod.mk.inj hnext
      obtain ⟨tasks, -, hrun⟩ := except_bind_ok hrun
      obtain ⟨decoded, -, hrun⟩ := except_bind_ok hrun
      cases hrun
      exact ⟨hlate.missing, hlate.recent⟩
  · cases hrun
    exact hlate

/-- Every event but a datagram makes the client at most forget packets. -/
theorem processStep_forgets {env : ClientEnv} {p p' : ClientProcess} {event : ProcessEvent}
    (hother : ∀ packet packetLen clock, event ≠ .datagram packet packetLen clock)
    (hrun : processStep env p event = .ok p') : Forgets p.client p'.client := by
  unfold processStep at hrun
  by_cases hexited : p.exited = true
  · rw [if_pos hexited] at hrun
    cases hrun
    exact .refl _
  · rw [if_neg hexited] at hrun
    cases event with
    | datagram packet packetLen clock => exact absurd rfl (hother packet packetLen clock)
    | fire id changed resolved clock => exact fireClientTask_forgets hrun
    | networkError clock =>
        dsimp only at hrun
        split_ifs at hrun
        · obtain ⟨p₁, hclose, hrun⟩ := except_bind_ok hrun
          obtain ⟨s', huninit, hrun⟩ := except_bind_ok hrun
          cases hrun
          obtain ⟨hmissing, hrecent⟩ := closeIntercom_cleared hclose
          have hsame := alsaplayerUninit_sameIntercom huninit
          exact .all (hsame.missingPackets.trans hmissing) (hsame.recentPackets.trans hrecent)
        · cases hrun
          exact .refl _
    | getchunk dropped takes clock =>
        dsimp only at hrun
        split_ifs at hrun
        · obtain ⟨s', hget, hrun⟩ := except_bind_ok hrun
          cases hrun
          exact getchunk_forgets hget
        · cases hrun
          exact .refl _
    | sigterm =>
        obtain ⟨s₁, hremove, hrun⟩ := except_bind_ok hrun
        obtain ⟨s₂, huninit, hrun⟩ := except_bind_ok hrun
        cases hrun
        exact .of_same ((alsaplayerRemoveTask_sameIntercom hremove).trans (alsaplayerUninit_sameIntercom huninit))

/-- Where a packet that is missing after an event comes from: it was missing before, or the event has posted
a task that asks for it. -/
theorem processStep_asks {env : ClientEnv} {p p' : ClientProcess} (hinv : ProcessInv p) {event : ProcessEvent}
    (hrun : processStep env p event = .ok p') :
    ∀ seqno ∈ p'.client.missingPackets, seqno ∈ p.client.missingPackets ∨
      ∃ uptime, event.uptime = some uptime ∧ NewlyAsked uptime p'.client seqno := by
  by_cases hdatagram : ∃ packet packetLen clock, event = .datagram packet packetLen clock
  · obtain ⟨packet, packetLen, clock, rfl⟩ := hdatagram
    unfold processStep at hrun
    dsimp only at hrun
    split_ifs at hrun
    · cases hrun
      exact fun seqno hmem => .inl hmem
    · exact fun seqno hmem => (receiveDatagram_asks hinv hrun seqno hmem).imp_right
        fun hasked => ⟨clock.uptime, rfl, hasked⟩
    · cases hrun
      exact fun seqno hmem => .inl hmem
  · push Not at hdatagram
    exact fun seqno hmem => .inl ((processStep_forgets hdatagram hrun).missing hmem)

/-! ### Every missing packet is asked for -/

/-- A queued task will ask for the packet: it follows on a request, or it was due at once. -/
def AskedFor (now : Timespec) (requests : List (UInt32 × Timespec)) (p : ClientProcess) (seqno : UInt32) : Prop :=
  ∃ task ∈ p.client.tasks.queued, (∃ retriesLeft, task.code = .request seqno retriesLeft) ∧
    ∃ uptime : Timespec, (uptime.Normalised ∧ uptime.toNs ≤ now.toNs) ∧
      ((seqno, uptime) ∈ requests ∧ task.due = settime uptime 0 requestRetryIntervalMs.toNat ∨
        task.due = settime uptime 0 0)

/-- The clock shows no time later than `now` at the event. -/
def UptimeUntil (now : Timespec) (_ : ClientProcess) (event : ProcessEvent) : Prop :=
  ∀ uptime, event.uptime = some uptime → uptime.Normalised ∧ uptime.toNs ≤ now.toNs

/-- The task that is executed at an event. -/
theorem executes_cases {task : Posted ClientTask} {event : ProcessEvent}
    (hexecutes : event.Executes task.id) :
    ∃ changed resolved clock, event = .fire task.id changed resolved clock := by
  cases event with
  | fire id changed resolved clock =>
      obtain rfl : id = task.id := hexecutes
      exact ⟨changed, resolved, clock, rfl⟩
  | _ => exact hexecutes.elim

/-- A request task is executed: if the packet is still missing afterwards, a REQUEST was sent, and the next task
is queued. -/
theorem executeRequest_asks {env : ClientEnv} {p p' : ClientProcess} (hinv : RegisterInv p)
    {task : Posted ClientTask} (htask : task ∈ p.client.tasks.queued) {seqno : UInt32} {retriesLeft : UInt8}
    (hcode : task.code = .request seqno retriesLeft) {changed resolved : Bool} {clock : ClientClock}
    (hrunning : ¬p.exited = true) (hdue : ¬timespecCmp task.due clock.uptime > 0)
    (hrun : fireClientTask env clock changed resolved p task.id = .ok p')
    (hmissing : seqno ∈ p'.client.missingPackets) :
    asking p (.fire task.id changed resolved clock) = some (seqno, clock.uptime) ∧
      ∃ task' ∈ p'.client.tasks.queued, (∃ retriesLeft, task'.code = .request seqno retriesLeft) ∧
        task'.due = settime clock.uptime 0 requestRetryIntervalMs.toNat := by
  have hthere : seqno ∈ p.client.missingPackets := (fireClientTask_forgets hrun).missing hmissing
  rw [fireRequestTask_eq env hinv.process.sound htask hcode, if_neg hdue] at hrun
  cases hrun
  rw [asking, if_neg hrunning, find_queued hinv.process.sound htask]
  dsimp only
  rw [if_neg hdue, hcode]
  dsimp only
  dsimp only at hmissing
  generalize hstarted : { p.client with tasks := p.client.tasks.start task.id } = s at hmissing ⊢
  have hsame : s.missingPackets = p.client.missingPackets := by rw [← hstarted]
  rw [← hsame] at hthere
  rcases requestTask_cases clock s seqno retriesLeft with ⟨-, -, hask⟩ | ⟨-, hnot, -⟩ | ⟨-, hask⟩
  · rw [hask]
    exact ⟨rfl, _, List.mem_append_right _ (List.mem_singleton_self _), ⟨_, rfl⟩, rfl⟩
  · exact absurd (hnot.symm.trans (List.contains_iff_mem.mpr hthere)) Bool.false_ne_true
  · rw [hask] at hmissing
    have hnodup : s.missingPackets.Nodup := hsame ▸ hinv.nodup
    exact absurd rfl (hnodup.mem_erase_iff.mp hmissing).1

theorem AskedFor.step {env : ClientEnv} {now : Timespec} {requests : List (UInt32 × Timespec)}
    {p p' : ClientProcess} (hinv : RegisterInv p)
    (hasked : ∀ seqno ∈ p.client.missingPackets, AskedFor now requests p seqno) {event : ProcessEvent}
    (hevent : UptimeUntil now p event) (hrun : processStep env p event = .ok p') :
    ∀ seqno ∈ p'.client.missingPackets, AskedFor now (noteRequest p event requests) p' seqno := by
  intro seqno hmissing
  rcases processStep_asks hinv.process hrun seqno hmissing with hold | ⟨uptime, huptime, hnew⟩
  · obtain ⟨task, htask, ⟨retriesLeft, hcode⟩, uptime, huptime, hwhy⟩ := hasked seqno hold
    have hlater : (seqno, uptime) ∈ noteRequest p event requests ∧
        task.due = settime uptime 0 requestRetryIntervalMs.toNat ∨ task.due = settime uptime 0 0 :=
      hwhy.imp_left fun hrequest => ⟨List.mem_append_left _ hrequest.1, hrequest.2⟩
    have hkept : task ∈ p'.client.tasks.queued → AskedFor now (noteRequest p event requests) p' seqno :=
      fun hqueued => ⟨task, hqueued, ⟨retriesLeft, hcode⟩, uptime, huptime, hlater⟩
    by_cases hexecutes : event.Executes task.id
    · obtain ⟨changed, resolved, clock, rfl⟩ := executes_cases hexecutes
      rw [processStep] at hrun
      by_cases hexited : p.exited = true
      · rw [if_pos hexited] at hrun
        exact hkept (Except.ok.inj hrun ▸ htask)
      · rw [if_neg hexited] at hrun
        by_cases hdue : timespecCmp task.due clock.uptime > 0
        · rw [fireRequestTask_eq env hinv.process.sound htask hcode, if_pos hdue] at hrun
          exact hkept (Except.ok.inj hrun ▸ htask)
        · obtain ⟨hasking, task', htask', hcode', hdue'⟩ :=
            executeRequest_asks hinv htask hcode hexited hdue hrun hmissing
          refine ⟨task', htask', hcode', clock.uptime, hevent _ rfl, .inl ⟨?_, hdue'⟩⟩
          rw [noteRequest, hasking]
          exact List.mem_append_right _ (List.mem_singleton_self _)
    · have hkind : isRequest task.code = true := by rw [hcode]; rfl
      exact hkept ((processStep_requests hinv.process hrun).1 task htask hkind hexecutes)
  · obtain ⟨task, htask, hdue, hcode⟩ := hnew
    exact ⟨task, htask, hcode, uptime, hevent uptime huptime, .inr hdue⟩

/-- Everything that is due has been executed: the last request is less than a tenth of a second old. -/
theorem AskedFor.recent {now : Timespec} (hnow : now.Normalised) {requests : List (UInt32 × Timespec)}
    {p : ClientProcess} {seqno : UInt32} (hasked : AskedFor now requests p seqno)
    (hdone : ∀ task ∈ p.client.tasks.queued, timespecCmp task.due now > 0) :
    ∃ uptime, (seqno, uptime) ∈ requests ∧ now.toNs - uptime.toNs < 100 * 1000000 := by
  obtain ⟨task, htask, -, uptime, ⟨hnormal, hpast⟩, hwhy⟩ := hasked
  have hdue := hdone task htask
  rcases hwhy with ⟨hrequest, hsettime⟩ | hsettime
  · rw [hsettime] at hdue
    have hrecent := posted_recently hnormal hnow (by decide) (by decide) hdue
    refine ⟨uptime, hrequest, ?_⟩
    change now.toNs - uptime.toNs < 0 * billion + 100 * 1000000 at hrecent
    unfold billion at hrecent
    omega
  · -- a task that is due at once has been executed
    rw [hsettime] at hdue
    have hrecent := posted_recently hnormal hnow le_rfl (by decide) hdue
    omega

/-- The client asks for every packet that it misses: once `taskqueue_run` has executed what is due, a packet that
is registered as missing was requested less than `REQUEST_RETRY_INTERVAL_MS` ago. -/
theorem missing_requested (env : ClientEnv) (nonce : UInt32) (softvol : Bool) (mixer : Option Mixer)
    (events : List ProcessEvent) (p : ClientProcess)
    (hrun : processRun env (freshProcess nonce softvol mixer) events = .ok p) (now : Timespec)
    (hclock : UptimesUntil events now)
    (hdone : ∀ task ∈ p.client.tasks.queued, timespecCmp task.due now > 0) :
    ∀ seqno ∈ p.client.missingPackets,
      ∃ uptime, (seqno, uptime) ∈ requestsOf env (freshProcess nonce softvol mixer) events ∧
        now.toNs - uptime.toNs < 100 * 1000000 := by
  rw [processRun_eq_run] at hrun
  have halong : Runs.Along (processStep env) (UptimeUntil now) (freshProcess nonce softvol mixer) events :=
    .of_mem (fun event hmem _ uptime huptime => hclock.2.2 uptime (List.mem_filterMap.mpr ⟨event, hmem, huptime⟩))
      (freshProcess nonce softvol mixer)
  obtain ⟨-, hasked⟩ := Runs.run_record noteRequest
    (fun requests p => RegisterInv p ∧ ∀ seqno ∈ p.client.missingPackets, AskedFor now requests p seqno)
    (fun hinv hevent hstep => ⟨hinv.1.step hstep, AskedFor.step hinv.1 hinv.2 hevent hstep⟩)
    ⟨.fresh nonce softvol mixer, fun _ hmem => absurd hmem List.not_mem_nil⟩ halong hrun
  exact fun seqno hmem => (hasked seqno hmem).recent hclock.1 hdone

/-- The client has said hello, packet 3 comes after packet 1, and the client asks for packet 2. -/
def askedEvents : List ProcessEvent :=
  [.fire 0 false true (secondOf 9), .datagram (bufferedPacket 1000 1) 35 beforeDue,
    .datagram (bufferedPacket 1000 3) 35 beforeDue, .fire 3 false false (secondOf 9)]

theorem missing_requested_second :
    ∃ p, processRun anyDevice (freshProcess 7 true none) askedEvents = .ok p ∧
      ∃ uptime, (2, uptime) ∈ requestsOf anyDevice (freshProcess 7 true none) askedEvents ∧
        (⟨9, 50000000⟩ : Timespec).toNs - uptime.toNs < 100 * 1000000 := by
  obtain ⟨p, hrun, hview⟩ := except_map_ok (show (processRun anyDevice (freshProcess 7 true none)
    askedEvents).map (fun p => decide (2 ∈ p.client.missingPackets ∧
      ∀ task ∈ p.client.tasks.queued, timespecCmp task.due ⟨9, 50000000⟩ > 0)) = .ok true by decide +kernel)
  obtain ⟨hmissing, hdone⟩ := of_decide_eq_true hview
  exact ⟨p, hrun, missing_requested anyDevice 7 true none askedEvents p hrun ⟨9, 50000000⟩ (by decide +kernel)
    hdone 2 hmissing⟩

end Snapcastc
