import Snapcastc.InputpipeWatchdog
import Snapcastc.IntercomServerWindow

/-! For how long the server keeps an AUDIO packet. Every packet that is sent has a task that removes a packet
when the length of the buffer has passed, the oldest one. As long as no task removes more than that, the
packets that are not kept any more are as old as the tasks that have been executed. -/

namespace Snapcastc

variable {n : Nat}

/-- How many packets in front were to be played longer than the buffer length ago. -/
def outdatedInFront (age : Timespec) (packetBuffer : List AudioPacket) : Nat :=
  (packetBuffer.takeWhile fun ap => timespecCmp age (keptPlayAt ap) > 0).length

/-- The loop removes these and the one behind them. -/
theorem removeOldPackets_eq (age : Timespec) (packetBuffer : List AudioPacket) :
    removeOldPackets age packetBuffer = packetBuffer.drop (outdatedInFront age packetBuffer + 1) := by
  induction packetBuffer with
  | nil => rfl
  | cons ap packetBuffer ih =>
      rw [removeOldPackets, outdatedInFront, List.takeWhile_cons, List.drop_succ_cons]
      by_cases hlate : timespecCmp age (keptPlayAt ap) > 0
      · rw [if_pos (decide_eq_true hlate), List.length_cons]
        cases packetBuffer with
        | nil =>
            rw [if_neg fun hmore => hmore.1 rfl]
            rfl
        | cons next packetBuffer =>
            rw [if_pos ⟨Nat.succ_ne_zero _, hlate⟩, ih]
            rfl
      · rw [if_neg fun hmore => hlate hmore.2, if_neg (by rwa [decide_eq_true_eq])]
        rfl

/-- A task of the stream that removes packets takes none away from the other tasks that are queued: it is the
last of them, or the packets in front that are outdated are surplus. -/
def ServerEvent.SparesOthers (s : Server n) (i : Fin (n + 1)) : ServerEvent → Prop
  | .fire id clock _ => ∀ task ∈ (s.audio i).removals, task.id = id → timespecCmp task.due clock.uptime ≤ 0 →
      (s.clients i).length ≠ 0 → (s.audio i).removals.length = 1 ∨
        (s.audio i).removals.length +
          outdatedInFront (timeSubMs clock.systime (.ofNat s.bufferms.toNat)) (s.streams i).packetBuffer ≤
            (s.streams i).packetBuffer.length
  | _ => True

instance (s : Server n) (i : Fin (n + 1)) (event : ServerEvent) : Decidable (event.SparesOthers s i) :=
  match event with
  | .fire id clock _ =>
      inferInstanceAs (Decidable (∀ task ∈ (s.audio i).removals, task.id = id →
        timespecCmp task.due clock.uptime ≤ 0 → (s.clients i).length ≠ 0 → _ ∨ _))
  | .epollWait _ | .pipeInput .. | .pipeHangup .. | .hello .. | .request .. | .setStream .. | .setVolume _ =>
      .isTrue trivial

/-- The monotonic time that is read at an event. -/
def ServerEvent.uptime : ServerEvent → Option Timespec
  | .pipeInput _ _ _ clock => some clock.uptime
  | .hello _ clock _ => some clock.uptime
  | .fire _ clock _ => some clock.uptime
  | _ => none

/-! ### The invariant -/

/-- When the task of a packet is due. -/
def SentAudio.removable (bufferms : UInt16) (sent : SentAudio) : Int :=
  sent.time.toNs + bufferms.toNat * 1000000

/-- The packets that are kept are the last ones, at least as many as tasks are queued, and every packet whose
task is not yet due has such a task. -/
structure RetentionInv (audio : StreamAudio n) (now : Int) : Prop where
  window : ∃ first ≤ audio.history.length,
    audio.packetBuffer = (audio.history.drop first).map SentAudio.copy
  ascending : audio.history.Pairwise fun a b => a.time.toNs ≤ b.time.toNs
  past : ∀ sent ∈ audio.history, sent.time.toNs ≤ now
  pending : ∀ time, now ≤ time →
    audio.history.countP (fun sent => time < sent.removable audio.bufferms) ≤
      audio.removals.countP fun task => time < task.due.toNs
  normal : ∀ task ∈ audio.removals, task.due.Normalised
  surplus : audio.removals.length ≤ audio.packetBuffer.length

theorem RetentionInv.later {audio : StreamAudio n} {now now' : Int} (hinv : RetentionInv audio now)
    (hle : now ≤ now') : RetentionInv audio now' :=
  { hinv with
    past := fun sent hsent => (hinv.past sent hsent).trans hle
    pending := fun time htime => hinv.pending time (hle.trans htime) }

/-- The packets that were removed were sent the length of the buffer ago. -/
theorem RetentionInv.removed {audio : StreamAudio n} {now : Int} (hinv : RetentionInv audio now) {first : Nat}
    (hwindow : audio.packetBuffer = (audio.history.drop first).map SentAudio.copy) :
    ∀ sent ∈ audio.history.take first, sent.removable audio.bufferms ≤ now := by
  intro sent hsent
  by_contra hrecent
  have hsplit := List.take_append_drop first audio.history
  have hascending := hinv.ascending
  rw [← hsplit] at hascending
  have hpending := hinv.pending now le_rfl
  rw [← hsplit, List.countP_append] at hpending
  -- the packet is recent, and so are all that are kept
  have hone : 0 < (audio.history.take first).countP fun sent => now < sent.removable audio.bufferms :=
    List.countP_pos_iff.mpr ⟨sent, hsent, decide_eq_true (not_le.mp hrecent)⟩
  have hall : (audio.history.drop first).countP (fun sent => now < sent.removable audio.bufferms) =
      (audio.history.drop first).length := by
    refine List.countP_eq_length.mpr fun later hlater => decide_eq_true ?_
    have horder := (List.pairwise_append.mp hascending).2.2 sent hsent later hlater
    unfold SentAudio.removable at hrecent ⊢
    omega
  have htasks : (audio.removals.countP fun task => now < task.due.toNs) ≤ audio.removals.length :=
    List.countP_le_length
  have hsurplus := hinv.surplus
  rw [hwindow, List.length_map] at hsurplus
  omega

/-- A packet is kept, and its task posted. -/
theorem RetentionInv.keep {audio : StreamAudio n} {now : Int} (hinv : RetentionInv audio now) (i : Fin (n + 1))
    (chunk : PcmChunk) {uptime : Timespec} (hnormal : uptime.Normalised) (hlater : now ≤ uptime.toNs)
    (id : Nat) : RetentionInv (audio.keep i chunk uptime id) uptime.toNs := by
  obtain ⟨first, hfirst, hwindow⟩ := hinv.window
  have hms := toInt_bufferms audio.bufferms
  obtain ⟨hdue, hsum⟩ := timeAddMs_spec hnormal (hms.symm ▸ Int.natCast_nonneg audio.bufferms.toNat)
  rw [hms] at hsum
  rw [← settime_bufferms] at hdue hsum
  refine ⟨⟨first, ?_, ?_⟩, ?_, ?_, ?_, ?_, ?_⟩
  · rw [StreamAudio.keep, List.length_append]
    omega
  · obtain ⟨hcopy, -, -⟩ := keptPacket_eq_copy audio.bufferms audio.nonce chunk uptime
    dsimp only [StreamAudio.keep]
    rw [List.drop_append_of_le_length hfirst, List.map_append, hwindow, List.map_singleton]
    exact congrArg (fun ap => (List.drop first audio.history).map SentAudio.copy ++ [ap]) hcopy
  · refine List.pairwise_append.mpr ⟨hinv.ascending, List.pairwise_singleton _ _, fun a ha b hb => ?_⟩
    rw [List.mem_singleton.mp hb]
    exact (hinv.past a ha).trans hlater
  · refine List.forall_mem_append.mpr ⟨fun sent hsent => (hinv.past sent hsent).trans hlater, fun sent hsent => ?_⟩
    rw [List.mem_singleton.mp hsent]
  · intro time htime
    have hpending := hinv.pending time (hlater.trans htime)
    dsimp only [StreamAudio.keep]
    rw [List.countP_append, List.countP_append, List.countP_singleton, List.countP_singleton, hsum]
    exact Nat.add_le_add_right hpending _
  · refine List.forall_mem_append.mpr ⟨hinv.normal, fun task htask => ?_⟩
    rw [List.mem_singleton.mp htask]
    exact hdue
  · have hsurplus := hinv.surplus
    dsimp only [StreamAudio.keep]
    rw [List.length_append, List.length_append]
    exact Nat.add_le_add_right hsurplus 1

/-- With unique handles, exactly the task that is executed leaves the queue. -/
theorem removals_perm {removals : List (Posted (ServerTask n))} (hnodup : (removals.map Posted.id).Nodup)
    {task : Posted (ServerTask n)} (htask : task ∈ removals) :
    removals.Perm (task :: removals.filter (·.id != task.id)) := by
  induction removals with
  | nil => exact absurd htask List.not_mem_nil
  | cons other removals ih =>
      rw [List.map_cons] at hnodup
      obtain ⟨hnot, hnodup⟩ := List.nodup_cons.mp hnodup
      rcases List.mem_cons.mp htask with rfl | htask
      · have hothers : removals.filter (·.id != task.id) = removals :=
          List.filter_eq_self.mpr fun other hother => bne_iff_ne.mpr fun heq =>
            hnot (List.mem_map.mpr ⟨other, hother, heq⟩)
        rw [List.filter_cons_of_neg (by simp), hothers]
      · have hne : other.id ≠ task.id := fun heq => hnot (List.mem_map.mpr ⟨task, htask, heq.symm⟩)
        have hstays : (other :: removals).filter (·.id != task.id) = other :: removals.filter (·.id != task.id) :=
          List.filter_cons_of_pos (bne_iff_ne.mpr hne)
        rw [hstays]
        exact ((ih hnodup htask).cons other).trans (.swap _ _ _)

/-- A task is executed and takes none of the others' packets. -/
theorem RetentionInv.remove {audio : StreamAudio n} {now : Int} (hinv : RetentionInv audio now)
    (hnodup : (audio.removals.map Posted.id).Nodup) {task : Posted (ServerTask n)}
    (htask : task ∈ audio.removals) (clients : List ClientRecord) {systime uptime : Timespec}
    (hnormal : uptime.Normalised) (hdue : timespecCmp task.due uptime ≤ 0) (hlater : now ≤ uptime.toNs)
    (hspares : clients.length ≠ 0 → audio.removals.length = 1 ∨
      audio.removals.length + outdatedInFront (timeSubMs systime (.ofNat audio.bufferms.toNat)) audio.packetBuffer ≤
        audio.packetBuffer.length) :
    RetentionInv (audio.remove clients systime task.id) uptime.toNs := by
  obtain ⟨first, hfirst, hwindow⟩ := hinv.window
  have hperm := removals_perm hnodup htask
  have hlength := hperm.length_eq
  rw [List.length_cons] at hlength
  have hpassed := (timespecCmp_le_iff_toNs (hinv.normal task htask) hnormal).mp hdue
  refine ⟨?_, hinv.ascending, fun sent hsent => (hinv.past sent hsent).trans hlater, ?_, ?_, ?_⟩
  · dsimp only [StreamAudio.remove]
    split_ifs
    · exact ⟨first, hfirst, hwindow⟩
    · obtain ⟨more, hmore, hle⟩ := removeOldPackets_suffix (timeSubMs systime (.ofNat audio.bufferms.toNat))
        audio.packetBuffer
      rw [hwindow, List.length_map, List.length_drop] at hle
      refine ⟨first + more, by omega, ?_⟩
      rw [hmore, hwindow, ← List.map_drop, List.drop_drop]
  · intro time htime
    have hpending := hinv.pending time (hlater.trans htime)
    rw [hperm.countP_eq, List.countP_cons_of_neg (by rw [decide_eq_true_eq]; omega)] at hpending
    exact hpending
  · exact fun other hother => hinv.normal other (List.mem_of_mem_filter hother)
  · have hsurplus := hinv.surplus
    dsimp only [StreamAudio.remove]
    split_ifs with hclients
    · omega
    · rw [removeOldPackets_eq, List.length_drop]
      rcases hspares hclients with hlast | hspares
      · omega
      · omega

theorem RetentionInv.step {s : Server n} {i : Fin (n + 1)} {event : ServerEvent} {audio : StreamAudio n}
    {now now' : Int} (hinv : RetentionInv (s.audio i) now) (hsound : s.tasks.Sound)
    (hspares : event.SparesOthers s i) (hstep : AudioStep s i event audio) (hlater : now ≤ now')
    (huptime : ∀ uptime ∈ event.uptime, uptime.Normalised ∧ now ≤ uptime.toNs ∧ uptime.toNs ≤ now') :
    RetentionInv audio now' := by
  cases hstep with
  | same => exact hinv.later hlater
  | started peer clock opened =>
      have hsame := hinv.later hlater
      exact ⟨hsame.window, hsame.ascending, hsame.past, hsame.pending, hsame.normal, hsame.surplus⟩
  | kept fd input encoded clock pcm chunk id hencode =>
      obtain ⟨hnormal, hafter, hbefore⟩ := huptime clock.uptime rfl
      exact (hinv.keep i chunk hnormal hafter id).later hbefore
  | removed task clock opened htask hdue =>
      obtain ⟨hnormal, hafter, hbefore⟩ := huptime clock.uptime rfl
      have hnodup : ((s.audio i).removals.map Posted.id).Nodup :=
        hsound.nodup.sublist (List.filter_sublist.map _)
      exact (hinv.remove hnodup htask (s.clients i) hnormal hdue hafter
        (hspares task htask rfl hdue)).later hbefore

theorem RetentionInv.fresh (bufferms : UInt16) (options : Fin (n + 1) → StreamOptions) (i : Fin (n + 1))
    (now : Int) : RetentionInv ((freshServer bufferms options).audio i) now :=
  ⟨⟨0, le_rfl, rfl⟩, .nil, fun _ hsent => absurd hsent List.not_mem_nil, fun _ _ => le_rfl,
    fun _ htask => absurd htask List.not_mem_nil, le_rfl⟩

/-- The monotonic clock does not go back, and shows no time later than `last`. -/
def UptimesAscend (events : List ServerEvent) (last : Timespec) : Prop :=
  (∀ uptime ∈ events.filterMap ServerEvent.uptime, uptime.Normalised ∧ uptime.toNs ≤ last.toNs) ∧
    (events.filterMap ServerEvent.uptime).Pairwise fun a b => a.toNs ≤ b.toNs

instance (events : List ServerEvent) (last : Timespec) : Decidable (UptimesAscend events last) :=
  inferInstanceAs (Decidable (_ ∧ _))

theorem RetentionInv.run {s s' : Server n} {i : Fin (n + 1)} {events : List ServerEvent} {now : Int}
    {last : Timespec} (hreg : RegistryInv s) (hstart : StartInv s) (hinv : RetentionInv (s.audio i) now)
    (hascend : UptimesAscend events last) (hnow : now ≤ last.toNs)
    (hafter : ∀ uptime ∈ events.filterMap ServerEvent.uptime, now ≤ uptime.toNs)
    (hspares : EveryStep (fun s event _ => event.SparesOthers s i) s events)
    (hrun : serverRun s events = .ok s') : RetentionInv (s'.audio i) last.toNs := by
  induction events generalizing s now with
  | nil =>
      cases hrun
      exact hinv.later hnow
  | cons event events ih =>
      obtain ⟨s₁, hstep, hrun⟩ := except_bind_ok hrun
      obtain ⟨hfirst, hrest⟩ := hspares s₁ hstep
      have haudio := serverStep_audio hreg hstart hstep i
      have hreg₁ := (serverStep_spec hreg hstep).inv hreg
      have hstart₁ := hstart.step hreg hstep
      obtain ⟨hnormal, hpairs⟩ := hascend
      cases huptime : event.uptime with
      | none =>
          rw [List.filterMap_cons_none huptime] at hnormal hpairs hafter
          refine ih hreg₁ hstart₁ (hinv.step hreg.handles.sound hfirst haudio le_rfl ?_) ⟨hnormal, hpairs⟩ hnow
            hafter hrest hrun
          intro uptime hsome
          rw [huptime] at hsome
          exact absurd hsome (Option.not_mem_none uptime)
      | some uptime =>
          rw [List.filterMap_cons_some huptime] at hnormal hpairs hafter
          obtain ⟨⟨hnormal₁, hlast⟩, hnormal⟩ := List.forall_mem_cons.mp hnormal
          obtain ⟨hnext, hpairs⟩ := List.pairwise_cons.mp hpairs
          have hlater := hafter uptime List.mem_cons_self
          refine ih hreg₁ hstart₁ (hinv.step hreg.handles.sound hfirst haudio hlater ?_) ⟨hnormal, hpairs⟩ hlast
            hnext hrest hrun
          intro other hother
          rw [huptime] at hother
          cases hother
          exact ⟨hnormal₁, hlater, le_rfl⟩

/-! ### Retention -/

/-- At a time, all AUDIO packets of the stream that are not kept any more were sent the length of the buffer
ago. -/
def Retains (s : Server n) (i : Fin (n + 1)) (now : Timespec) : Prop :=
  ∃ first ≤ (s.streams i).history.length,
    (s.streams i).packetBuffer = ((s.streams i).history.drop first).map SentAudio.copy ∧
      ∀ sent ∈ (s.streams i).history.take first, sent.removable s.bufferms ≤ now.toNs

/-- A REQUEST of a client of the stream for a packet that was sent less than the length of the buffer ago is
answered with a kept packet of that number. -/
def AnswersRecent (s : Server n) (i : Fin (n + 1)) (now : Timespec) : Prop :=
  ∀ sent ∈ (s.streams i).history, now.toNs < sent.removable s.bufferms →
    ∀ clientid, InStream s i clientid → ∀ ip port, ∃ ap ∈ (s.streams i).packetBuffer,
      ap.nonce = sent.nonce ∧
        answerRequest s clientid sent.nonce ip port = intercomSendPacketUnicast s ip ap.data ap.len.toNat port

theorem Retains.answers {s : Server n} (hreg : RegistryInv s) {i : Fin (n + 1)} {now : Timespec}
    (hretains : Retains s i now) : AnswersRecent s i now := by
  obtain ⟨first, -, hwindow, hremoved⟩ := hretains
  intro sent hsent hrecent clientid hin ip port
  obtain ⟨k, hclient⟩ := findClient_of_inStream hreg hin
  have hkept : sent.copy ∈ (s.streams i).packetBuffer := by
    rw [hwindow]
    refine List.mem_map_of_mem ?_
    rw [← List.take_append_drop first (s.streams i).history] at hsent
    exact (List.mem_append.mp hsent).resolve_left fun hgone => absurd (hremoved sent hgone) (not_le.mpr hrecent)
  have hfound : ((s.streams i).packetBuffer.find? fun ap => ap.nonce == sent.nonce).isSome :=
    List.find?_isSome.mpr ⟨sent.copy, hkept, beq_self_eq_true _⟩
  obtain ⟨ap, hap⟩ := Option.isSome_iff_exists.mp hfound
  have hnonce := List.find?_some hap
  refine ⟨ap, List.mem_of_find?_eq_some hap, eq_of_beq hnonce, ?_⟩
  rw [answerRequest, hclient]
  dsimp only
  rw [hap]

/-- In every run in which no removal task takes a packet away from another one that is queued, no AUDIO packet
is removed before the length of the buffer has passed since it was sent, however late the tasks are
executed. -/
theorem retention_of_sparesOthers (bufferms : UInt16) (options : Fin (n + 1) → StreamOptions)
    (events : List ServerEvent) (i : Fin (n + 1)) (now : Timespec) (hascend : UptimesAscend events now)
    (hspares : EveryStep (fun s event _ => event.SparesOthers s i) (freshServer bufferms options) events)
    (s : Server n) (hrun : serverRun (freshServer bufferms options) events = .ok s) :
    Retains s i now ∧ AnswersRecent s i now := by
  have hfresh := KeptInv.fresh bufferms options
  have hinv : RetentionInv (s.audio i) now.toNs := by
    obtain ⟨start, hstart, hafter⟩ : ∃ start ≤ now.toNs,
        ∀ uptime ∈ events.filterMap ServerEvent.uptime, start ≤ uptime.toNs := by
      obtain ⟨hnormal, hpairs⟩ := hascend
      cases huptimes : events.filterMap ServerEvent.uptime with
      | nil => exact ⟨now.toNs, le_rfl, fun _ huptime => absurd huptime List.not_mem_nil⟩
      | cons uptime uptimes =>
          rw [huptimes] at hnormal hpairs
          refine ⟨uptime.toNs, (hnormal uptime List.mem_cons_self).2, List.forall_mem_cons.mpr ⟨le_rfl, ?_⟩⟩
          exact (List.pairwise_cons.mp hpairs).1
    exact RetentionInv.run hfresh.registry hfresh.start (.fresh bufferms options i start) hascend hstart hafter
      hspares hrun
  have hreg : RegistryInv s := hfresh.registry.run hrun
  obtain ⟨first, hfirst, hwindow⟩ := hinv.window
  have hretains : Retains s i now := ⟨first, hfirst, hwindow, hinv.removed hwindow⟩
  exact ⟨hretains, hretains.answers hreg⟩

/-- The pipe of the only stream offers a chunk. -/
def chunkArrives (time : Int) : List ServerEvent :=
  [.epollWait [4], .pipeInput 4 (some (List.replicate 20 7)) (2, [8, 9]) (clockAt time)]

/-- The first of two packets is removed in time. -/
def timelyEvents : List ServerEvent :=
  [helloFrom 1 100 1] ++ chunkArrives 2 ++ [.fire 1 (clockAt 3) none] ++ chunkArrives 5

theorem retention_timely :
    ∃ s, serverRun (freshServer 1000 oneStream) timelyEvents = .ok s ∧
      (s.streams 0).history.length = 2 ∧ (s.streams 0).packetBuffer.length = 1 ∧
        Retains s 0 ⟨5, 500000000⟩ ∧ AnswersRecent s 0 ⟨5, 500000000⟩ := by
  obtain ⟨s, hrun, hview⟩ := except_map_ok (show (serverRun (freshServer 1000 oneStream) timelyEvents).map
    (fun s => ((s.streams 0).history.length, (s.streams 0).packetBuffer.length)) = .ok (2, 1) by
      decide +kernel)
  obtain ⟨hsent, hkept⟩ := Prod.mk.inj hview
  exact ⟨s, hrun, hsent, hkept, retention_of_sparesOthers 1000 oneStream timelyEvents 0 ⟨5, 500000000⟩
    (by decide +kernel) (by decide +kernel) s hrun⟩

/-- The task of the first packet is executed two seconds late, when the second one has just been sent. -/
def lateEvents : List ServerEvent :=
  [helloFrom 1 100 1] ++ chunkArrives 2 ++ chunkArrives 5 ++ [.fire 1 (clockAt 5) none]

/-- It removes both. -/
theorem retention_late :
    ¬∀ (events : List ServerEvent) (now : Timespec), UptimesAscend events now →
      ∀ s, serverRun (freshServer 1000 oneStream) events = .ok s → Retains s 0 now := by
  intro hall
  obtain ⟨s, hrun, hview⟩ := except_map_ok (show (serverRun (freshServer 1000 oneStream) lateEvents).map
    (fun s => (s.bufferms, (s.streams 0).packetBuffer.length, (s.streams 0).history.map SentAudio.time)) =
      .ok (1000, 0, [⟨2, 0⟩, ⟨5, 0⟩]) by decide +kernel)
  obtain ⟨hbufferms, hview⟩ := Prod.mk.inj hview
  obtain ⟨hkept, htimes⟩ := Prod.mk.inj hview
  obtain ⟨first, hfirst, hwindow, hremoved⟩ := hall lateEvents ⟨5, 0⟩ (by decide +kernel) s hrun
  have hsent : (s.streams 0).history.length = 2 := by
    have hlength := congrArg List.length htimes
    rwa [List.length_map] at hlength
  rw [hwindow, List.length_map, List.length_drop] at hkept
  rw [List.take_of_length_le (by omega)] at hremoved
  obtain ⟨sent, hmem, htime⟩ := List.mem_map.mp (htimes ▸ List.mem_cons_of_mem _ List.mem_cons_self :
    (⟨5, 0⟩ : Timespec) ∈ (s.streams 0).history.map SentAudio.time)
  have hold := hremoved sent hmem
  rw [SentAudio.removable, htime, hbufferms] at hold
  exact absurd hold (by decide)

end Snapcastc
