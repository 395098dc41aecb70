import Snapcastc.LibraryCalls
import Snapcastc.ClientProcess

/-! The handles of tasks that the client keeps: the one that closes the device, in the player, and the one
that says hello, in the intercom. -/

namespace Snapcastc

open Bytes Calls

/-- The call has not ended in `drop_task` or `reschedule_task` at a handle they may not be given. -/
def Fault.HandleValid (fault : Fault) : Prop := fault ≠ .useAfterFree ∧ fault ≠ .nullPointer

/-- The tasks of the client that are kept by their handles, and the one that sets the intercom up again. -/
def notRequest : ClientTask → Bool
  | .request _ _ => false
  | _ => true

structure SameDevice (ctx ctx' : AlsaplayerCtx) : Prop where
  closeTask : ctx'.closeTask = ctx.closeTask
  initialized : ctx'.initialized = ctx.initialized
  frameSize : ctx'.frameSize = ctx.frameSize
  channels : ctx'.channels = ctx.channels
  rate : ctx'.rate = ctx.rate

theorem SameDevice.refl (ctx : AlsaplayerCtx) : SameDevice ctx ctx := ⟨rfl, rfl, rfl, rfl, rfl⟩

theorem SameDevice.trans {ctx ctx' ctx'' : AlsaplayerCtx} (hfirst : SameDevice ctx ctx')
    (hsecond : SameDevice ctx' ctx'') : SameDevice ctx ctx'' where
  closeTask := hsecond.closeTask.trans hfirst.closeTask
  initialized := hsecond.initialized.trans hfirst.initialized
  frameSize := hsecond.frameSize.trans hfirst.frameSize
  channels := hsecond.channels.trans hfirst.channels
  rate := hsecond.rate.trans hfirst.rate

/-- The device and all tasks but requests are left alone. -/
structure SparesDevice (s s' : Client) : Prop where
  tasks : s.tasks.Frame notRequest s'.tasks
  device : SameDevice s.alsaplayer s'.alsaplayer

theorem SparesDevice.trans {s s' s'' : Client} (hfirst : SparesDevice s s')
    (hsecond : SparesDevice s' s'') : SparesDevice s s'' :=
  ⟨hfirst.tasks.trans hsecond.tasks, hfirst.device.trans hsecond.device⟩

/-- Only other parts of the client are changed. -/
theorem SparesDevice.of_eq {s s' : Client} (hsound : s.tasks.Sound) (htasks : s'.tasks = s.tasks)
    (hdevice : s'.alsaplayer = s.alsaplayer) : SparesDevice s s' := by
  refine ⟨?_, ?_⟩
  · rw [htasks]
    exact .refl hsound
  · rw [hdevice]
    exact .refl _

theorem requestMissing_spares (clock : ClientClock) (capacity : Nat) {s : Client} (hsound : s.tasks.Sound)
    (i : Nat) : SparesDevice s (requestMissing clock capacity s i) := by
  unfold requestMissing
  dsimp only
  split
  · exact .of_eq hsound rfl rfl
  · exact ⟨.postTask hsound _ _ _ rfl, .refl _⟩

theorem requestAll_spares (clock : ClientClock) (capacity : Nat) {s : Client} (hsound : s.tasks.Sound)
    (numbers : List Nat) : SparesDevice s (numbers.foldl (requestMissing clock capacity) s) := by
  induction numbers generalizing s with
  | nil => exact .of_eq hsound rfl rfl
  | cons i numbers ih =>
      have hfirst := requestMissing_spares clock capacity hsound i
      rw [List.foldl_cons]
      exact hfirst.trans (ih hfirst.tasks.sound)

theorem noteLoss_spares (clock : ClientClock) {s : Client} (hsound : s.tasks.Sound) (buffer : ReceiveBuffer)
    (seqno : UInt32) : SparesDevice s (noteLoss clock s buffer seqno).1 := by
  unfold noteLoss
  split
  · exact .of_eq hsound rfl rfl
  · dsimp only
    split
    · exact .of_eq hsound rfl rfl
    · split
      · exact .of_eq hsound rfl rfl
      · exact requestAll_spares clock _ hsound _

theorem raiseSeqno_device (s : Client) (seqno : UInt32) :
    (raiseSeqno s seqno).tasks = s.tasks ∧ (raiseSeqno s seqno).alsaplayer = s.alsaplayer := by
  unfold raiseSeqno
  split
  · exact ⟨rfl, rfl⟩
  · exact ⟨rfl, rfl⟩

theorem storeAudio_spares (clock : ClientClock) {s : Client} (hsound : s.tasks.Sound) (buffer : ReceiveBuffer)
    (seqno : UInt32) (chunk : PcmChunk) : SparesDevice s (storeAudio clock s buffer seqno chunk) := by
  have hloss := noteLoss_spares clock hsound buffer seqno
  obtain ⟨htasks, hdevice⟩ := raiseSeqno_device (withReceivebuffer (noteLoss clock s buffer seqno).1
    ((noteLoss clock s buffer seqno).2.putChunk clock.later ⟨chunk, seqno⟩)) seqno
  exact hloss.trans (.of_eq hloss.tasks.sound htasks hdevice)

theorem lateAudio_spares {s : Client} (hsound : s.tasks.Sound) (buffer : ReceiveBuffer) (seqno : UInt32) :
    SparesDevice s (pruneMissingPackets (raiseSeqno (withReceivebuffer s buffer) seqno) seqno) := by
  obtain ⟨htasks, hdevice⟩ := raiseSeqno_device (withReceivebuffer s buffer) seqno
  generalize raiseSeqno (withReceivebuffer s buffer) seqno = raised at htasks hdevice ⊢
  exact .of_eq hsound htasks hdevice

/-- Decoding leaves the format of a chunk alone, and when it is to be played. -/
structure SameFormat (chunk chunk' : PcmChunk) : Prop where
  playAt : chunkGetPlayAt (some chunk') = chunkGetPlayAt (some chunk)
  frameSize : chunk'.frameSize = chunk.frameSize
  channels : chunk'.channels = chunk.channels
  samples : chunk'.samples = chunk.samples

theorem exitError_handleValid (message : String) : Fault.HandleValid (.exitError message) :=
  ⟨fun heq => Fault.noConfusion heq, fun heq => Fault.noConfusion heq⟩

/-- Once there is a decoder, decoding fails for an empty chunk only. -/
theorem decodeOpusHandle_spec (opus : OpusDecoder) (chunk : PcmChunk) :
    Meets Fault.HandleValid (SameFormat chunk) (decodeOpusHandle opus true chunk) := by
  unfold decodeOpusHandle
  dsimp only
  rw [if_neg (by decide : ¬(!true) = true)]
  split
  · exact exitError_handleValid _
  · split
    · exact Meets.pure ⟨rfl, rfl, rfl, rfl⟩
    · exact Meets.pure ⟨rfl, rfl, rfl, rfl⟩

theorem chunkDecode_spec (opus : OpusDecoder) (decoder : Bool) (chunk : PcmChunk) :
    Meets Fault.HandleValid (SameFormat chunk) (chunkDecode opus decoder chunk) := by
  have hdecode := decodeOpusHandle_spec opus chunk
  unfold chunkDecode
  split
  · cases decoder with
    | true => exact hdecode
    | false =>
        have hinit : Meets Fault.HandleValid (fun _ => True)
            (opusInitDecoder opus chunk.samples chunk.channels) := by
          unfold opusInitDecoder
          split
          · exact exitError_handleValid _
          · exact trivial
        exact hinit.bind fun _ _ => hdecode
  · exact Meets.pure ⟨rfl, rfl, rfl, rfl⟩

/-- What allocating a receive buffer leaves alone. -/
theorem ensureReceivebuffer_spec (env : ClientEnv) (s : Client) (serverbufferms : UInt16)
    (chunk : PcmChunk) :
    Meets Fault.HandleValid
      (fun result => (result.1.tasks = s.tasks ∧ result.1.alsaplayer = s.alsaplayer) ∧
        SameFormat chunk result.2.1)
      (ensureReceivebuffer env s serverbufferms chunk) := by
  cases hbuffer : s.receivebuffer with
  | some old =>
      rw [ensureReceivebuffer_of_some env hbuffer]
      exact Meets.pure ⟨⟨rfl, rfl⟩, rfl, rfl, rfl, rfl⟩
  | none =>
      have hduration : Meets Fault.HandleValid (fun result => SameFormat chunk result.1)
          (chunkGetdurationMs env.opus s.decoder chunk) :=
        (chunkDecode_spec env.opus s.decoder chunk).bind fun _ hformat => Meets.pure hformat
      have hrealloc : ∀ (s' : Client) (chunkMs : Nat), Meets Fault.HandleValid
          (fun result => result.1.tasks = s'.tasks ∧ result.1.alsaplayer = s'.alsaplayer)
          (reallocWhenRequired s' serverbufferms chunkMs) := by
        intro s' chunkMs
        unfold reallocWhenRequired
        dsimp only
        split
        · exact ⟨fun heq => Fault.noConfusion heq, fun heq => Fault.noConfusion heq⟩
        · split
          · split
            · exact ⟨rfl, rfl⟩
            · exact ⟨rfl, rfl⟩
          · exact ⟨rfl, rfl⟩
      rw [ensureReceivebuffer, hbuffer]
      refine hduration.bind fun result hformat => ?_
      exact (hrealloc _ _).bind fun _ hsame => Meets.pure ⟨hsame, hformat⟩

/-- An AUDIO packet gets as far as the device: it is not dropped, there is a buffer for its chunk, and the
chunk is on time. -/
def ReachesDevice (env : ClientEnv) (clock : ClientClock) (s : Client) (packet : Nat → UInt8) : Prop :=
  IsAudioPacket packet ∧ intercomRecentlySeen s.recentPackets (packetHdr packet) = false ∧
    (∃ result, ensureReceivebuffer env
      (removeRequest (noteRecent s (packetHdr packet)) (packetHdr packet).nonce) (audioBufferms packet)
      (audioChunk packet) = .ok result) ∧
    timespecCmp (chunkGetPlayAt (some (audioChunk packet))) clock.ctime > 0

/-- How the handling of a datagram ends. Where the device is concerned, what is left is to open it. -/
inductive Received (env : ClientEnv) (clock : ClientClock) (p : ClientProcess) (packet : Nat → UInt8) :
    Except Fault ClientProcess → Prop
  | spared (s' : Client) : ¬ReachesDevice env clock p.client packet → SparesDevice p.client s' →
      Received env clock p packet (.ok { p with client := s' })
  | failed (fault : Fault) : ¬ReachesDevice env clock p.client packet → fault.HandleValid →
      Received env clock p packet (.error fault)
  | device (s' : Client) (chunk : PcmChunk) : ReachesDevice env clock p.client packet →
      SparesDevice p.client s' → SameFormat (audioChunk packet) chunk →
      Received env clock p packet
        ((openDevice env clock s' chunk).map fun client => { p with client })

/-- The handling of a packet, as the process sees it. -/
theorem receiveDatagram_of_eq {env : ClientEnv} {clock : ClientClock} {p : ClientProcess}
    {packet : Nat → UInt8} {packetLen : Nat} {entered : Client} {call : Except Fault Client}
    (hrun : intercomHandlePacket env clock p.client packet packetLen = Outcome.ofExcept entered call) :
    receiveDatagram env clock p packet packetLen = call.map fun client => { p with client } := by
  rw [receiveDatagram, hrun]
  cases call with
  | error fault => rfl
  | ok client => rfl

theorem executeAll_spares {s : Client} (hsound : s.tasks.Sound) (ops : List ServerOperation) :
    SparesDevice s (ops.foldl execute s) := by
  induction ops generalizing s with
  | nil => exact .of_eq hsound rfl rfl
  | cons op ops ih =>
      have hfirst : SparesDevice s (execute s op) := by
        cases op with
        | stop => exact .of_eq hsound rfl rfl
        | volume percent =>
            refine ⟨.refl hsound, ?_⟩
            change SameDevice s.alsaplayer (adjustVolume s.alsaplayer percent)
            unfold adjustVolume mixerInit
            split
            · exact ⟨rfl, rfl, rfl, rfl, rfl⟩
            · dsimp only
              split
              · exact ⟨rfl, rfl, rfl, rfl, rfl⟩
              · exact ⟨rfl, rfl, rfl, rfl, rfl⟩
      rw [List.foldl_cons]
      exact hfirst.trans (ih hfirst.tasks.sound)

theorem noteRecent_device (s : Client) (hdr : IntercomPacketHdr) :
    (noteRecent s hdr).tasks = s.tasks ∧ (noteRecent s hdr).alsaplayer = s.alsaplayer := by
  unfold noteRecent
  exact ⟨rfl, rfl⟩

/-- The handling of an AUDIO packet that was noted as the last one. -/
theorem receiveDatagram_noted {env : ClientEnv} {clock : ClientClock} {p : ClientProcess} {s : Client}
    {packet : Nat → UInt8} {packetLen : Nat} (hnoted : SparesDevice p.client s)
    (hhandle : intercomHandlePacket env clock p.client packet packetLen =
      intercomHandleAudio env clock s packet)
    (hreaches : ReachesDevice env clock p.client packet ↔
      (∃ result, ensureReceivebuffer env (removeRequest s (packetHdr packet).nonce)
        (audioBufferms packet) (audioChunk packet) = .ok result) ∧
      timespecCmp (chunkGetPlayAt (some (audioChunk packet))) clock.ctime > 0) :
    Received env clock p packet (receiveDatagram env clock p packet packetLen) := by
  rw [intercomHandleAudio] at hhandle
  dsimp only at hhandle
  generalize (packetHdr packet).nonce = seqno at hhandle hreaches
  have hensure := ensureReceivebuffer_spec env (removeRequest s seqno) (audioBufferms packet)
    (audioChunk packet)
  cases hresult : ensureReceivebuffer env (removeRequest s seqno) (audioBufferms packet)
      (audioChunk packet) with
  | error fault =>
      rw [hresult] at hhandle hensure hreaches
      have hrun : receiveDatagram env clock p packet packetLen = .error fault := by
        rw [receiveDatagram, hhandle]
        rfl
      rw [hrun]
      refine .failed fault (fun hdevice => ?_) hensure
      obtain ⟨⟨result, hok⟩, -⟩ := hreaches.mp hdevice
      cases hok
  | ok result =>
      obtain ⟨s₁, chunk, buffer⟩ := result
      rw [hresult] at hhandle hensure hreaches
      obtain ⟨⟨htasks, hdevice⟩, hformat⟩ := hensure
      have hbuffer : SparesDevice p.client s₁ := hnoted.trans (.of_eq hnoted.tasks.sound htasks hdevice)
      have hplayAt : chunkGetPlayAt (some chunk) = chunkGetPlayAt (some (audioChunk packet)) :=
        hformat.playAt
      dsimp only at hhandle
      rw [hplayAt] at hhandle
      by_cases hontime : timespecCmp (chunkGetPlayAt (some (audioChunk packet))) clock.ctime > 0
      · rw [if_pos hontime] at hhandle
        rw [receiveDatagram_of_eq hhandle]
        exact .device _ chunk (hreaches.mpr ⟨⟨_, rfl⟩, hontime⟩)
          (hbuffer.trans (storeAudio_spares clock hbuffer.tasks.sound buffer seqno chunk)) hformat
      · rw [if_neg hontime] at hhandle
        have hrun : receiveDatagram env clock p packet packetLen = .ok { p with
            client := pruneMissingPackets (raiseSeqno (withReceivebuffer s₁ buffer) seqno) seqno } := by
          rw [receiveDatagram, hhandle]
          rfl
        rw [hrun]
        exact .spared _ (fun hdevice => hontime (hreaches.mp hdevice).2)
          (hbuffer.trans (lateAudio_spares hbuffer.tasks.sound buffer seqno))

theorem receiveDatagram_spec (env : ClientEnv) (clock : ClientClock) {p : ClientProcess}
    (hsound : p.client.tasks.Sound) (packet : Nat → UInt8) (packetLen : Nat) :
    Received env clock p packet (receiveDatagram env clock p packet packetLen) := by
  have hsame := noteRecent_device p.client (packetHdr packet)
  have hnoted : SparesDevice p.client (noteRecent p.client (packetHdr packet)) :=
    .of_eq hsound hsame.1 hsame.2
  by_cases haccepted : IsAudioPacket packet ∧
      intercomRecentlySeen p.client.recentPackets (packetHdr packet) = false
  · have hreaches : ReachesDevice env clock p.client packet ↔ _ :=
      ((and_assoc.symm.trans (and_iff_right haccepted)))
    exact receiveDatagram_noted hnoted (handlePacket_of_audio haccepted.1 haccepted.2) hreaches
  · have hnot : ¬ReachesDevice env clock p.client packet := fun hreaches =>
      haccepted ⟨hreaches.1, hreaches.2.1⟩
    have hkept : SparesDevice p.client p.client := .of_eq hsound rfl rfl
    rw [receiveDatagram, intercomHandlePacket]
    by_cases hversion : (packetHdr packet).version = packetFormatVersion
    · rw [if_pos hversion]
      by_cases hseen : intercomRecentlySeen p.client.recentPackets (packetHdr packet) = true
      · rw [if_pos hseen]
        exact .spared _ hnot hkept
      · have haudio : ¬(packetHdr packet).type = audioData := fun htype =>
          haccepted ⟨⟨hversion, htype⟩, Bool.eq_false_iff.mpr hseen⟩
        rw [if_neg hseen, if_neg haudio]
        by_cases htype : (packetHdr packet).type = serverOperation
        · rw [if_pos htype]
          cases hfault : (handleServerOperation (noteRecent p.client (packetHdr packet)) packet
              packetLen).fault with
          | some fault =>
              refine .failed fault hnot ?_
              rw [handleServerOperation] at hfault
              split at hfault
              · cases hfault
              · cases hfault
                exact ⟨fun heq => Fault.noConfusion heq, fun heq => Fault.noConfusion heq⟩
          | none =>
              obtain ⟨ops, hops⟩ := handleServerOperation_executes hfault
              refine .spared _ hnot ?_
              rw [hops]
              exact hnoted.trans (executeAll_spares hnoted.tasks.sound ops)
        · rw [if_neg htype]
          exact .spared _ hnot hnoted
    · rw [if_neg hversion]
      exact .spared _ hnot hkept

/-! ### The device and the intercom -/

/-- An open device has its task, and the handle of a closed one has none. -/
structure DeviceInv (tasks : TaskPool ClientTask) (ctx : AlsaplayerCtx) : Prop where
  made : ∀ id, ctx.closeTask = some id → tasks.Made id .alsaplayerUninit
  opened : ctx.initialized = true →
    ∃ id, ctx.closeTask = some id ∧ (tasks.running = some id ∨ tasks.Waiting .alsaplayerUninit id)
  closed : ctx.initialized = false →
    ∀ id, ctx.closeTask = some id → ¬tasks.Waiting .alsaplayerUninit id

/-- The tasks that close the device are the same ones. -/
theorem DeviceInv.congr {tasks tasks' : TaskPool ClientTask} {ctx ctx' : AlsaplayerCtx}
    (hinv : DeviceInv tasks ctx) (hhistory : tasks.history <+: tasks'.history)
    (hrunning : tasks'.running = tasks.running)
    (hwaiting : ∀ id, tasks'.Waiting .alsaplayerUninit id ↔ tasks.Waiting .alsaplayerUninit id)
    (hclose : ctx'.closeTask = ctx.closeTask) (hinit : ctx'.initialized = ctx.initialized) :
    DeviceInv tasks' ctx' := by
  refine ⟨fun id hid => ?_, fun hopen => ?_, fun hclosed id hid => ?_⟩
  · exact (hinv.made id (hclose ▸ hid)).mono hhistory
  · obtain ⟨id, hid, hlive⟩ := hinv.opened (hinit ▸ hopen)
    refine ⟨id, hclose.trans hid, ?_⟩
    rw [hrunning, hwaiting]
    exact hlive
  · rw [hwaiting]
    exact hinv.closed (hinit ▸ hclosed) id (hclose ▸ hid)

/-- The tasks are left alone, as far as the device is concerned. -/
theorem DeviceInv.frame {tasks tasks' : TaskPool ClientTask} {ctx ctx' : AlsaplayerCtx}
    (hinv : DeviceInv tasks ctx) {kind : ClientTask → Bool} (hframe : tasks.Frame kind tasks')
    (hkind : kind .alsaplayerUninit = true) (hclose : ctx'.closeTask = ctx.closeTask)
    (hinit : ctx'.initialized = ctx.initialized) : DeviceInv tasks' ctx' :=
  hinv.congr hframe.history hframe.running (fun id => hframe.waiting hkind id) hclose hinit

/-- A task other than the one that closes the device has finished, or the device is closed. -/
theorem DeviceInv.finish {tasks : TaskPool ClientTask} {ctx : AlsaplayerCtx} (hinv : DeviceInv tasks ctx)
    (hother : ctx.initialized = true → tasks.running ≠ ctx.closeTask) : DeviceInv tasks.finish ctx where
  made := hinv.made
  opened := fun hopen => by
    obtain ⟨id, hid, hlive⟩ := hinv.opened hopen
    have hnot : tasks.running ≠ some id := hid ▸ hother hopen
    exact ⟨id, hid, .inr (hlive.resolve_left hnot)⟩
  closed := hinv.closed

/-- A task is taken out of the queue to be executed. -/
theorem DeviceInv.start {tasks : TaskPool ClientTask} {ctx : AlsaplayerCtx} (hinv : DeviceInv tasks ctx)
    (hidle : tasks.running = none) (id : Nat) : DeviceInv (tasks.start id) ctx where
  made := hinv.made
  opened := fun hopen => by
    obtain ⟨closeTask, hclose, hlive⟩ := hinv.opened hopen
    have hwaiting := hlive.resolve_left (by rw [hidle]; exact (Option.some_ne_none _).symm)
    refine ⟨closeTask, hclose, ?_⟩
    by_cases hsame : closeTask = id
    · exact .inl (congrArg some hsame.symm)
    · exact .inr ((TaskPool.waiting_filter rfl _ _).mpr ⟨hwaiting, hsame⟩)
  closed := fun hclosed closeTask hclose hwaiting =>
    hinv.closed hclosed closeTask hclose ((TaskPool.waiting_filter rfl _ _).mp hwaiting).1

/-- The kinds of tasks that do not close the device. -/
def notUninit (code : ClientTask) : Bool := code != .alsaplayerUninit

/-- Closing the device uses a valid handle. -/
theorem alsaplayerUninit_spec {s : Client} (hsound : s.tasks.Sound)
    (hinv : DeviceInv s.tasks s.alsaplayer) :
    ∃ s', alsaplayerUninit s = .ok s' ∧ s.tasks.Frame notUninit s'.tasks ∧
      DeviceInv s'.tasks s'.alsaplayer ∧ s'.alsaplayer.initialized = false ∧
      s'.alsaplayer.closeTask = s.alsaplayer.closeTask := by
  unfold alsaplayerUninit
  cases hopen : s.alsaplayer.initialized with
  | false => exact ⟨s, rfl, .refl hsound, hinv, hopen, rfl⟩
  | true =>
      obtain ⟨id, hid, hlive⟩ := hinv.opened hopen
      obtain ⟨tasks, hdrop⟩ := TaskPool.dropTask_ok hlive
      have hqueued : tasks.queued = s.tasks.queued.filter (·.id != id) := by
        rw [TaskPool.dropTask_eq hsound hdrop]
      have hframe : s.tasks.Frame notUninit tasks := .dropTask hsound (hinv.made id hid) rfl hdrop
      refine ⟨{ s with
        tasks
        alsaplayer := { s.alsaplayer with initialized := false, playing := false } }, ?_, hframe, ?_, rfl, rfl⟩
      · rw [if_pos rfl, hid, TaskPool.dropHandle, hdrop]
        rfl
      · refine ⟨fun other hother => ?_, fun hopened => absurd hopened Bool.false_ne_true,
          fun _ other hother hwaiting => ?_⟩
        · exact (hinv.made other hother).mono hframe.history
        · have hsame : id = other := Option.some.inj (hid.symm.trans hother)
          exact ((TaskPool.waiting_filter hqueued _ _).mp hwaiting).2 hsame.symm

/-- The handle that `alsaplayer_remove_task` drops is the one of an open device, or there is none. -/
def Removable (ctx : AlsaplayerCtx) : Prop := ctx.initialized = true ∨ ctx.closeTask = none

instance (ctx : AlsaplayerCtx) : Decidable (Removable ctx) := inferInstanceAs (Decidable (_ ∨ _))

/-- A device without a task is closed. -/
theorem DeviceInv.closed_none {tasks : TaskPool ClientTask} {ctx : AlsaplayerCtx}
    (hclose : ctx.closeTask = none) (hclosed : ctx.initialized = false) : DeviceInv tasks ctx where
  made := fun id hid => absurd (hclose.symm.trans hid) (Option.some_ne_none id).symm
  opened := fun hopen => absurd (hclosed.symm.trans hopen) Bool.false_ne_true
  closed := fun _ id hid => absurd (hclose.symm.trans hid) (Option.some_ne_none id).symm

/-- `alsaplayer_remove_task` and `alsaplayer_uninit` close the device. -/
def removeDevice (s : Client) : Except Fault Client := do
  let s ← alsaplayerRemoveTask s
  alsaplayerUninit s

theorem removeDevice_spec {s : Client} (hsound : s.tasks.Sound) (hinv : DeviceInv s.tasks s.alsaplayer)
    (hremovable : Removable s.alsaplayer) :
    ∃ s', removeDevice s = .ok s' ∧ s.tasks.Frame notUninit s'.tasks ∧
      s'.alsaplayer.closeTask = none ∧ s'.alsaplayer.initialized = false := by
  have hdropped : ∃ tasks, s.tasks.dropHandle s.alsaplayer.closeTask = .ok tasks := by
    rcases hremovable with hopen | hnone
    · obtain ⟨id, hid, hlive⟩ := hinv.opened hopen
      rw [hid]
      exact TaskPool.dropTask_ok hlive
    · rw [hnone]
      exact ⟨s.tasks, rfl⟩
  obtain ⟨tasks, hdrop⟩ := hdropped
  have hframe : s.tasks.Frame notUninit tasks := .dropHandle hsound hinv.made rfl hdrop
  have hremove : alsaplayerRemoveTask s =
      .ok { s with tasks, alsaplayer := { s.alsaplayer with closeTask := none } } := by
    rw [alsaplayerRemoveTask, hdrop]
    rfl
  rw [removeDevice, hremove]
  cases hopen : s.alsaplayer.initialized with
  | false =>
      refine ⟨{ s with tasks, alsaplayer := { s.alsaplayer with closeTask := none } }, ?_, hframe, rfl, hopen⟩
      change alsaplayerUninit _ = _
      rw [alsaplayerUninit, if_neg (by rw [hopen]; exact Bool.false_ne_true)]
      rfl
  | true =>
      refine ⟨{ s with tasks, alsaplayer := { s.alsaplayer with
        closeTask := none, initialized := false, playing := false } }, ?_, hframe, rfl, rfl⟩
      change alsaplayerUninit _ = _
      rw [alsaplayerUninit, if_pos hopen]
      rfl

/-- Otherwise the handle is one of a task that was freed. -/
theorem removeDevice_freed {s : Client} (hsound : s.tasks.Sound) (hinv : DeviceInv s.tasks s.alsaplayer)
    (hidle : s.tasks.running = none) (hnot : ¬Removable s.alsaplayer) :
    removeDevice s = .error .useAfterFree := by
  obtain ⟨hclosed, hsome⟩ := not_or.mp hnot
  obtain ⟨id, hid⟩ := Option.ne_none_iff_exists'.mp hsome
  have hgone := hinv.closed (Bool.eq_false_iff.mpr hclosed) id hid
  rw [removeDevice, alsaplayerRemoveTask, hid, TaskPool.dropHandle,
    TaskPool.dropTask_freed hsound (hinv.made id hid) hidle hgone]
  rfl

/-- The device has another format than a chunk. -/
def OtherFormat (ctx : AlsaplayerCtx) (chunk : PcmChunk) : Prop :=
  chunk.frameSize ≠ ctx.frameSize ∨ chunk.channels ≠ ctx.channels ∨ chunk.samples ≠ ctx.rate

instance (ctx : AlsaplayerCtx) (chunk : PcmChunk) : Decidable (OtherFormat ctx chunk) :=
  inferInstanceAs (Decidable (_ ∨ _))

theorem closeDevice_eq (s : Client) (chunk : PcmChunk) :
    closeDevice s chunk = if OtherFormat s.alsaplayer chunk then removeDevice s else pure s := rfl

/-- Opening the device posts the task that closes it. -/
theorem alsaplayerInit_spec (env : ClientEnv) (clock : ClientClock) {s : Client} (hsound : s.tasks.Sound)
    (hclosed : s.alsaplayer.initialized = false) :
    Meets Fault.HandleValid
      (fun s' => s.tasks.Frame notUninit s'.tasks ∧ DeviceInv s'.tasks s'.alsaplayer)
      (alsaplayerInit env clock s) := by
  unfold alsaplayerInit
  dsimp only
  rw [if_neg (by rw [hclosed]; exact Bool.false_ne_true)]
  split
  · exact exitError_handleValid _
  · split
    · exact ⟨fun heq => Fault.noConfusion heq, fun heq => Fault.noConfusion heq⟩
    · split
      · exact exitError_handleValid _
      · refine Meets.pure ⟨.postTask hsound _ _ _ rfl, fun id hid => ?_, fun _ => ⟨_, rfl, ?_⟩, fun hnot => ?_⟩
        · rw [← Option.some.inj hid]
          exact TaskPool.postTask_made hsound _ _ _ _
        · exact .inr ((TaskPool.waiting_postTask _ _ _ _ _ _ _).mpr (.inr ⟨rfl, rfl⟩))
        · cases hnot

/-- The device is opened for a chunk. -/
theorem openDevice_spec (env : ClientEnv) (clock : ClientClock) {s : Client} (hsound : s.tasks.Sound)
    (hinv : DeviceInv s.tasks s.alsaplayer) (hidle : s.tasks.running = none) (chunk : PcmChunk) :
    (¬(OtherFormat s.alsaplayer chunk → Removable s.alsaplayer) →
      openDevice env clock s chunk = .error .useAfterFree) ∧
    ((OtherFormat s.alsaplayer chunk → Removable s.alsaplayer) →
      Meets Fault.HandleValid
        (fun s' => s.tasks.Frame notUninit s'.tasks ∧ DeviceInv s'.tasks s'.alsaplayer)
        (openDevice env clock s chunk)) := by
  constructor
  · intro hbad
    obtain ⟨hother, hnot⟩ := Classical.not_imp.mp hbad
    rw [openDevice, closeDevice_eq, if_pos hother, removeDevice_freed hsound hinv hidle hnot]
    rfl
  · intro hgood
    have hclose : Meets Fault.HandleValid
        (fun s' => s.tasks.Frame notUninit s'.tasks ∧ DeviceInv s'.tasks s'.alsaplayer)
        (closeDevice s chunk) := by
      rw [closeDevice_eq]
      split
      · rename_i hother
        obtain ⟨s', hremove, hframe, hnone, hclosed⟩ := removeDevice_spec hsound hinv (hgood hother)
        rw [hremove]
        exact Meets.pure ⟨hframe, .closed_none hnone hclosed⟩
      · exact Meets.pure ⟨.refl hsound, hinv⟩
    refine hclose.bind fun s' hs' => ?_
    obtain ⟨hframe, hinv'⟩ := hs'
    split
    · exact Meets.pure ⟨hframe, hinv'⟩
    · rename_i hclosed
      have hformat : (withFormat s' chunk).alsaplayer.initialized = false := Bool.eq_false_iff.mpr hclosed
      refine (alsaplayerInit_spec env clock (s := withFormat s' chunk) hframe.sound hformat).bind
        fun s'' hs'' => ?_
      unfold initAlsafd
      split
      · exact exitError_handleValid _
      · exact Meets.pure ⟨hframe.trans hs''.1, hs''.2⟩

/-- With a socket there is one task that says hello, and the intercom has its handle. Without one there is
none, and at most one that sets the intercom up again. -/
structure HelloInv (tasks : TaskPool ClientTask) (helloTask : Option Nat) (connected : Bool) : Prop where
  opened : connected = true → ∃ hello, helloTask = some hello ∧
    (∀ id, tasks.Waiting .hello id ↔ id = hello) ∧ ∀ id, ¬tasks.Waiting .intercomReinit id
  closed : connected = false → (∀ id, ¬tasks.Waiting .hello id) ∧
    ∀ id id', tasks.Waiting .intercomReinit id → tasks.Waiting .intercomReinit id' → id = id'

theorem HelloInv.congr {tasks tasks' : TaskPool ClientTask} {helloTask : Option Nat} {connected : Bool}
    (hinv : HelloInv tasks helloTask connected)
    (hhello : ∀ id, tasks'.Waiting .hello id ↔ tasks.Waiting .hello id)
    (hreinit : ∀ id, tasks'.Waiting .intercomReinit id ↔ tasks.Waiting .intercomReinit id) :
    HelloInv tasks' helloTask connected := by
  refine ⟨fun hopen => ?_, fun hclosed => ?_⟩
  · obtain ⟨hello, hsome, hone, hnone⟩ := hinv.opened hopen
    exact ⟨hello, hsome, fun id => (hhello id).trans (hone id), fun id => mt (hreinit id).mp (hnone id)⟩
  · obtain ⟨hnone, hone⟩ := hinv.closed hclosed
    refine ⟨fun id => mt (hhello id).mp (hnone id), fun id id' hid hid' => ?_⟩
    exact hone id id' ((hreinit id).mp hid) ((hreinit id').mp hid')

/-- The tasks are left alone, as far as the intercom is concerned. -/
theorem HelloInv.frame {tasks tasks' : TaskPool ClientTask} {helloTask : Option Nat} {connected : Bool}
    (hinv : HelloInv tasks helloTask connected) {kind : ClientTask → Bool}
    (hframe : tasks.Frame kind tasks') (hhello : kind .hello = true)
    (hreinit : kind .intercomReinit = true) : HelloInv tasks' helloTask connected :=
  hinv.congr (fun id => hframe.waiting hhello id) (fun id => hframe.waiting hreinit id)

structure NoHello (tasks : TaskPool ClientTask) : Prop where
  hello : ∀ id, ¬tasks.Waiting .hello id
  reinit : ∀ id, ¬tasks.Waiting .intercomReinit id

theorem NoHello.frame {tasks tasks' : TaskPool ClientTask} (hnone : NoHello tasks)
    {kind : ClientTask → Bool} (hframe : tasks.Frame kind tasks') (hhello : kind .hello = true)
    (hreinit : kind .intercomReinit = true) : NoHello tasks' :=
  ⟨fun id => mt (hframe.waiting hhello id).mp (hnone.hello id),
    fun id => mt (hframe.waiting hreinit id).mp (hnone.reinit id)⟩

/-- The task that says hello is posted. -/
theorem NoHello.postHello {tasks : TaskPool ClientTask} (hnone : NoHello tasks) (now : Timespec)
    (timeout millisecs : Int) :
    HelloInv (tasks.postTask now timeout millisecs .hello).2 (some tasks.fresh) true := by
  refine ⟨fun _ => ⟨tasks.fresh, rfl, fun id => ?_, fun id hwaiting => ?_⟩, fun habsurd => ?_⟩
  · rw [TaskPool.waiting_postTask, or_iff_right (hnone.hello id), and_iff_left rfl]
  · rw [TaskPool.waiting_postTask, or_iff_right (hnone.reinit id)] at hwaiting
    exact ClientTask.noConfusion hwaiting.2
  · exact absurd habsurd.symm Bool.false_ne_true

/-- The task that sets the intercom up again is posted. -/
theorem NoHello.postReinit {tasks : TaskPool ClientTask} (hnone : NoHello tasks) (now : Timespec)
    (timeout millisecs : Int) (helloTask : Option Nat) :
    HelloInv (tasks.postTask now timeout millisecs .intercomReinit).2 helloTask false := by
  refine ⟨fun habsurd => ?_, fun _ => ⟨fun id hwaiting => ?_, fun id id' hid hid' => ?_⟩⟩
  · exact absurd habsurd Bool.false_ne_true
  · rw [TaskPool.waiting_postTask, or_iff_right (hnone.hello id)] at hwaiting
    exact ClientTask.noConfusion hwaiting.2
  · rw [TaskPool.waiting_postTask, or_iff_right (hnone.reinit _)] at hid hid'
    exact hid.1.trans hid'.1.symm

/-- One task is executed, one way or the other: afterwards it is not waiting. -/
theorem HelloInv.start {tasks : TaskPool ClientTask} {helloTask : Option Nat} {connected : Bool}
    (hinv : HelloInv tasks helloTask connected) (hsound : tasks.Sound) {id : Nat} {code : ClientTask}
    (hmade : tasks.Made id code) (hhello : code ≠ .hello) (hreinit : code ≠ .intercomReinit) :
    HelloInv (tasks.start id) helloTask connected := by
  have hother : ∀ {kind : ClientTask}, code ≠ kind → ∀ other,
      (tasks.start id).Waiting kind other ↔ tasks.Waiting kind other := by
    intro kind hkind other
    refine (TaskPool.waiting_filter rfl _ _).trans (and_iff_left_of_imp fun hwaiting => ?_)
    rintro rfl
    exact hkind (hmade.inj (hwaiting.made hsound))
  exact hinv.congr (hother hhello) (hother hreinit)

/-- While the task that says hello is executed, there is a socket and no other such task. -/
theorem HelloInv.startHello {tasks : TaskPool ClientTask} {helloTask : Option Nat} {connected : Bool}
    (hinv : HelloInv tasks helloTask connected) {id : Nat} (hwaiting : tasks.Waiting .hello id) :
    helloTask = some id ∧ connected = true ∧ NoHello (tasks.start id) := by
  cases connected with
  | false => exact absurd hwaiting ((hinv.closed rfl).1 id)
  | true =>
      obtain ⟨hello, hsome, hone, hnone⟩ := hinv.opened rfl
      have hid : id = hello := (hone id).mp hwaiting
      refine ⟨hid ▸ hsome, rfl, fun other hother => ?_, fun other hother => ?_⟩
      · obtain ⟨hold, hne⟩ := (TaskPool.waiting_filter rfl _ _).mp hother
        exact hne (((hone other).mp hold).trans hid.symm)
      · exact hnone other ((TaskPool.waiting_filter rfl _ _).mp hother).1

/-- While the intercom is set up again, no other task is about to do that. -/
theorem HelloInv.startReinit {tasks : TaskPool ClientTask} {helloTask : Option Nat} {connected : Bool}
    (hinv : HelloInv tasks helloTask connected) {id : Nat}
    (hwaiting : tasks.Waiting .intercomReinit id) : NoHello (tasks.start id) := by
  cases connected with
  | true =>
      obtain ⟨hello, hsome, hone, hnone⟩ := hinv.opened rfl
      exact absurd hwaiting (hnone id)
  | false =>
      obtain ⟨hnone, hone⟩ := hinv.closed rfl
      refine ⟨fun other hother => ?_, fun other hother => ?_⟩
      · exact hnone other ((TaskPool.waiting_filter rfl _ _).mp hother).1
      · obtain ⟨hold, hne⟩ := (TaskPool.waiting_filter rfl _ _).mp hother
        exact hne (hone other id hold hwaiting)

/-- The kinds of tasks that are not the intercom's. -/
def notHello : ClientTask → Bool
  | .hello => false
  | .intercomReinit => false
  | _ => true

/-- `intercom_uninit` at a valid handle. -/
theorem closeIntercom_spec {p : ClientProcess} {hello : Nat} (hsound : p.client.tasks.Sound)
    (hsome : p.helloTask = some hello) (hmade : p.client.tasks.Made hello .hello)
    (hlive : p.client.tasks.running = some hello ∨ p.client.tasks.Waiting .hello hello) :
    ∃ tasks, closeIntercom p =
        .ok { p with client := { intercomUninit p.client with tasks }, connected := false } ∧
      p.client.tasks.Frame notHello tasks ∧
      ∀ code id, tasks.Waiting code id ↔ p.client.tasks.Waiting code id ∧ id ≠ hello := by
  obtain ⟨tasks, hdrop⟩ := TaskPool.dropTask_ok hlive
  have hqueued : tasks.queued = p.client.tasks.queued.filter (·.id != hello) := by
    rw [TaskPool.dropTask_eq hsound hdrop]
  refine ⟨tasks, ?_, .dropTask hsound hmade rfl hdrop, TaskPool.waiting_filter hqueued⟩
  rw [closeIntercom, hsome]
  dsimp only
  rw [hdrop]
  rfl

/-! ### The process and its other events -/

/-- The handles of the client are valid between two events. -/
structure ProcessInv (p : ClientProcess) : Prop where
  sound : p.client.tasks.Sound
  idle : p.client.tasks.running = none
  device : DeviceInv p.client.tasks p.client.alsaplayer
  hello : HelloInv p.client.tasks p.helloTask p.connected

/-- What holds while the task with the handle is executed, when its code has come to an end. -/
structure Executed (id : Nat) (p : ClientProcess) : Prop where
  sound : p.client.tasks.Sound
  running : p.client.tasks.running = some id
  device : DeviceInv p.client.tasks p.client.alsaplayer
  forgotten : p.client.alsaplayer.initialized = true → p.client.alsaplayer.closeTask ≠ some id
  hello : HelloInv p.client.tasks p.helloTask p.connected

theorem Executed.finish {id : Nat} {p : ClientProcess} (hexecuted : Executed id p) :
    ProcessInv (p.withTasks p.client.tasks.finish) where
  sound := hexecuted.sound.finish
  idle := rfl
  device := hexecuted.device.finish fun hopen heq =>
    hexecuted.forgotten hopen (heq.symm.trans hexecuted.running)
  hello := hexecuted.hello.congr (fun _ => Iff.rfl) (fun _ => Iff.rfl)

/-- `intercom_reinit`, executed while there is no task of the intercom. -/
theorem reopenIntercom_spec (clock : ClientClock) (resolved : Bool) {p : ClientProcess} {id : Nat}
    (hsound : p.client.tasks.Sound) (hrunning : p.client.tasks.running = some id)
    (hdevice : DeviceInv p.client.tasks p.client.alsaplayer)
    (hforgotten : p.client.alsaplayer.initialized = true → p.client.alsaplayer.closeTask ≠ some id)
    (hnone : NoHello p.client.tasks) :
    Meets Fault.HandleValid (Executed id) (reopenIntercom clock resolved p) := by
  cases resolved with
  | false => exact exitError_handleValid _
  | true =>
      have hframe : p.client.tasks.Frame notHello
          (p.client.tasks.postTask clock.uptime 0 0 .hello).2 := .postTask hsound _ _ _ rfl
      exact Meets.pure ⟨hframe.sound, hrunning, hdevice.frame hframe rfl rfl rfl, hforgotten,
        hnone.postHello _ _ _⟩

theorem obtainVolume_sameDevice (ctx : AlsaplayerCtx) : SameDevice ctx (obtainVolume ctx).2 := by
  have hmixer : SameDevice ctx (mixerInit ctx) := by
    unfold mixerInit
    split
    · exact .refl _
    · exact ⟨rfl, rfl, rfl, rfl, rfl⟩
  unfold obtainVolume
  split
  · exact .refl _
  · dsimp only
    split
    · exact hmixer
    · exact hmixer

/-- `hello_task`, executed under the handle that the intercom has. -/
theorem helloTask_spec (clock : ClientClock) (changed resolved : Bool) {p : ClientProcess} {id : Nat}
    (hsound : p.client.tasks.Sound) (hrunning : p.client.tasks.running = some id)
    (hmade : p.client.tasks.Made id .hello) (hdevice : DeviceInv p.client.tasks p.client.alsaplayer)
    (hsome : p.helloTask = some id) (hconnected : p.connected = true) (hnone : NoHello p.client.tasks) :
    Meets Fault.HandleValid (Executed id) (helloTask clock changed resolved p) := by
  have hforgotten : ∀ {closeTask : Option Nat} {tasks : TaskPool ClientTask}, tasks.Made id .hello →
      (∀ other, closeTask = some other → tasks.Made other .alsaplayerUninit) → closeTask ≠ some id := by
    intro closeTask tasks hmade' hclose hsame
    exact ClientTask.noConfusion ((hclose id hsame).inj hmade')
  cases changed with
  | false =>
      have hframe : p.client.tasks.Frame notHello
          (p.client.tasks.postTask clock.uptime 1 500 .hello).2 := .postTask hsound _ _ _ rfl
      have hsame := obtainVolume_sameDevice p.client.alsaplayer
      have hhello := hnone.postHello clock.uptime 1 500
      rw [← hconnected] at hhello
      have hdevice' := hdevice.frame hframe rfl hsame.closeTask hsame.initialized
      exact Meets.pure ⟨hframe.sound, hrunning, hdevice',
        fun _ => hforgotten (hmade.mono hframe.history) hdevice'.made, hhello⟩
  | true =>
      obtain ⟨tasks, hclose, hframe, hwaiting⟩ := closeIntercom_spec hsound hsome hmade (.inl hrunning)
      obtain ⟨s', huninit, hframe', hdevice', hclosed, -⟩ := alsaplayerUninit_spec
        (s := { intercomUninit p.client with tasks }) hframe.sound (hdevice.frame hframe rfl rfl rfl)
      have hnone' : NoHello s'.tasks := NoHello.frame
        ⟨fun other hother => hnone.hello other ((hwaiting _ _).mp hother).1,
          fun other hother => hnone.reinit other ((hwaiting _ _).mp hother).1⟩ hframe' rfl rfl
      rw [helloTask, if_pos rfl, hclose]
      change Meets _ _ (alsaplayerUninit { intercomUninit p.client with tasks } >>= _)
      rw [huninit]
      refine reopenIntercom_spec clock resolved hframe'.sound ?_ hdevice' (fun hopen => ?_) hnone'
      · exact (hframe'.running.trans hframe.running).trans hrunning
      · exact absurd (hclosed.symm.trans hopen) Bool.false_ne_true

/-- Every task leaves valid handles behind. -/
theorem runClientTask_spec (env : ClientEnv) (clock : ClientClock) (changed resolved : Bool)
    {p : ClientProcess} (hinv : ProcessInv p) {task : Posted ClientTask}
    (htask : task ∈ p.client.tasks.queued) :
    Meets Fault.HandleValid (Executed task.id)
      (runClientTask env clock changed resolved (p.withTasks (p.client.tasks.start task.id)) task.code) := by
  have hsound := hinv.sound.start htask
  have hmade : p.client.tasks.Made task.id task.code := hinv.sound.made task htask
  have hdevice := hinv.device.start hinv.idle task.id
  have hother : task.code ≠ .alsaplayerUninit → p.client.alsaplayer.closeTask ≠ some task.id :=
    fun hcode hsame => hcode (hmade.inj (hinv.device.made _ hsame))
  have hwaiting : p.client.tasks.Waiting task.code task.id := ⟨task, htask, rfl, rfl⟩
  cases hcode : task.code with
  | hello =>
      rw [hcode] at hwaiting hmade
      obtain ⟨hsome, hconnected, hnone⟩ := hinv.hello.startHello hwaiting
      exact helloTask_spec clock changed resolved hsound rfl hmade hdevice hsome hconnected hnone
  | request reqNonce retriesLeft =>
      rw [hcode] at hmade hother
      have hhello := hinv.hello.start hinv.sound hmade ClientTask.noConfusion ClientTask.noConfusion
      have hforgotten := hother ClientTask.noConfusion
      have hspared : SparesDevice (p.withTasks (p.client.tasks.start task.id)).client
          (requestTask clock (p.withTasks (p.client.tasks.start task.id)).client reqNonce retriesLeft).1 := by
        unfold requestTask
        dsimp only
        split
        · split
          · exact ⟨.postTask hsound _ _ _ rfl, .refl _⟩
          · exact .of_eq hsound rfl rfl
        · exact .of_eq hsound rfl rfl
      refine Meets.pure ⟨hspared.tasks.sound, hspared.tasks.running, ?_, fun _ => ?_, ?_⟩
      · exact hdevice.frame hspared.tasks rfl hspared.device.closeTask hspared.device.initialized
      · change (requestTask clock _ reqNonce retriesLeft).1.alsaplayer.closeTask ≠ _
        rw [hspared.device.closeTask]
        exact hforgotten
      · exact hhello.frame hspared.tasks rfl rfl
  | alsaplayerUninit =>
      rw [hcode] at hmade
      obtain ⟨s', huninit, hframe, hdevice', hclosed, -⟩ := alsaplayerUninit_spec
        (s := (p.withTasks (p.client.tasks.start task.id)).client) hsound hdevice
      have hhello := hinv.hello.start hinv.sound hmade ClientTask.noConfusion ClientTask.noConfusion
      rw [runClientTask, huninit]
      exact Meets.pure ⟨hframe.sound, hframe.running, hdevice',
        fun hopen => absurd (hclosed.symm.trans hopen) Bool.false_ne_true, hhello.frame hframe rfl rfl⟩
  | intercomReinit =>
      rw [hcode] at hwaiting hother
      have hforgotten := hother ClientTask.noConfusion
      exact reopenIntercom_spec clock resolved hsound rfl hdevice (fun _ => hforgotten)
        (hinv.hello.startReinit hwaiting)
  | decodeFirstInput =>
      rw [hcode] at hmade hother
      have hhello := hinv.hello.start hinv.sound hmade ClientTask.noConfusion ClientTask.noConfusion
      have hforgotten := hother ClientTask.noConfusion
      have hdecode : Meets Fault.HandleValid
          (fun s' => s'.tasks = p.client.tasks.start task.id ∧ s'.alsaplayer = p.client.alsaplayer)
          (decodeFirstInput env (p.withTasks (p.client.tasks.start task.id)).client) := by
        unfold decodeFirstInput
        split
        · exact Meets.pure ⟨rfl, rfl⟩
        · split
          · exact Meets.pure ⟨rfl, rfl⟩
          · exact (chunkDecode_spec _ _ _).bind fun _ _ => Meets.pure ⟨rfl, rfl⟩
      refine hdecode.bind fun s' hs' => ?_
      obtain ⟨htasks, hplayer⟩ := hs'
      refine Meets.pure ⟨?_, ?_, ?_, fun _ => ?_, ?_⟩
      · change s'.tasks.Sound
        rw [htasks]
        exact hsound
      · change s'.tasks.running = _
        rw [htasks]
        rfl
      · change DeviceInv s'.tasks s'.alsaplayer
        rw [htasks, hplayer]
        exact hdevice
      · change s'.alsaplayer.closeTask ≠ _
        rw [hplayer]
        exact hforgotten
      · change HelloInv s'.tasks _ _
        rw [htasks]
        exact hhello

theorem fireClientTask_spec (env : ClientEnv) (clock : ClientClock) (changed resolved : Bool)
    {p : ClientProcess} (hinv : ProcessInv p) (id : Nat) :
    Meets Fault.HandleValid ProcessInv (fireClientTask env clock changed resolved p id) := by
  unfold fireClientTask
  cases hfind : p.client.tasks.queued.find? (·.id == id) with
  | none => exact Meets.pure hinv
  | some task =>
      dsimp only
      split
      · exact Meets.pure hinv
      · have hrun := runClientTask_spec env clock changed resolved hinv (List.mem_of_find?_eq_some hfind)
        exact hrun.bind fun _ hexecuted => Meets.pure hexecuted.finish

/-- An error on the network. -/
theorem networkError_spec (clock : ClientClock) {p : ClientProcess} (hinv : ProcessInv p)
    (hconnected : p.connected = true) :
    Meets Fault.HandleValid ProcessInv (networkError clock p) := by
  obtain ⟨hello, hsome, hone, hnone⟩ := hinv.hello.opened hconnected
  have hthere := (hone hello).mpr rfl
  obtain ⟨tasks, hclose, hframe, hwaiting⟩ := closeIntercom_spec hinv.sound hsome
    (hthere.made hinv.sound) (.inr hthere)
  obtain ⟨s', huninit, hframe', hdevice', -⟩ := alsaplayerUninit_spec
    (s := { intercomUninit p.client with tasks }) hframe.sound (hinv.device.frame hframe rfl rfl rfl)
  have hnone' : NoHello s'.tasks := by
    refine NoHello.frame ⟨fun other hother => ?_, fun other hother => ?_⟩ hframe' rfl rfl
    · obtain ⟨hold, hne⟩ := (hwaiting _ _).mp hother
      exact hne ((hone other).mp hold)
    · exact hnone other ((hwaiting _ _).mp hother).1
  have hpost : s'.tasks.Frame notHello (s'.tasks.postTask clock.uptime 1 0 .intercomReinit).2 :=
    .postTask hframe'.sound _ _ _ rfl
  rw [networkError, hclose]
  change Meets _ _ (alsaplayerUninit { intercomUninit p.client with tasks } >>= _)
  rw [huninit]
  refine Meets.pure ⟨hpost.sound, ?_, hdevice'.frame hpost rfl rfl rfl, hnone'.postReinit _ _ _ _⟩
  exact (hframe'.running.trans hframe.running).trans hinv.idle

/-- Chunks that are late are taken out of the buffer. -/
theorem dropLate_same (dropped : Nat) (s : Client) :
    ((fun s => (intercomGetnextaudiochunk s).2)^[dropped] s).tasks = s.tasks ∧
      ((fun s => (intercomGetnextaudiochunk s).2)^[dropped] s).alsaplayer = s.alsaplayer := by
  induction dropped generalizing s with
  | zero => exact ⟨rfl, rfl⟩
  | succ dropped ih => exact ih (intercomGetnextaudiochunk s).2

/-- The tasks that `getchunk` does not post. -/
def notDecode (code : ClientTask) : Bool := code != .decodeFirstInput

/-- A chunk is taken for an open device: its task is put off. -/
theorem takeChunk_spec (env : ClientEnv) (clock : ClientClock) {p : ClientProcess} (hinv : ProcessInv p)
    (hopen : p.client.alsaplayer.initialized = true) {s : Client} (htasks : s.tasks = p.client.tasks)
    (hplayer : s.alsaplayer = p.client.alsaplayer) :
    Meets Fault.HandleValid (fun s' => ProcessInv { p with client := s' }) (takeChunk env clock s) := by
  unfold takeChunk intercomGetnextaudiochunk
  split
  · rename_i s' hnext
    obtain ⟨-, rfl⟩ := Prod.mk.inj hnext
    refine Meets.pure ⟨?_, ?_, ?_, ?_⟩
    · exact htasks ▸ hinv.sound
    · exact htasks ▸ hinv.idle
    · exact hinv.device.congr (by rw [htasks]) (by rw [htasks]) (fun id => by rw [htasks])
        (by rw [← hplayer]) (by rw [← hplayer])
    · exact hinv.hello.congr (fun id => by rw [htasks]) (fun id => by rw [htasks])
  · rename_i chunk s' hnext
    obtain ⟨-, rfl⟩ := Prod.mk.inj hnext
    dsimp only
    rw [htasks, hplayer]
    have hpost : p.client.tasks.Frame notDecode
        (p.client.tasks.postTask clock.uptime 0 0 .decodeFirstInput).2 := .postTask hinv.sound _ _ _ rfl
    have hdevice : DeviceInv _ p.client.alsaplayer := hinv.device.frame hpost rfl rfl rfl
    have hhello := hinv.hello.frame hpost rfl rfl
    obtain ⟨id, hid, hlive⟩ := hdevice.opened hopen
    obtain ⟨tasks, hmove, hhistory, hrunning⟩ := TaskPool.rescheduleTask_ok clock.uptime
      ((s.bufferms.toNat * 6 / 5 / 1000 : Nat) : Int) ((s.bufferms.toNat * 6 / 5 % 1000 : Nat) : Int) hlive
    have hsame := fun code id => TaskPool.waiting_rescheduleTask hmove code id
    rw [hid, hmove]
    refine (chunkDecode_spec env.opus s.decoder chunk).bind fun _ _ => ?_
    refine Meets.pure ⟨hpost.sound.rescheduleTask hmove, ?_, ?_, ?_⟩
    · exact hrunning.trans (hpost.running.trans hinv.idle)
    · exact hdevice.congr (by rw [hhistory]) hrunning (hsame _) (by rw [hid]) rfl
    · exact hhello.congr (hsame _) (hsame _)

theorem getchunk_spec (env : ClientEnv) (clock : ClientClock) (dropped : Nat) (takes : Bool)
    {p : ClientProcess} (hinv : ProcessInv p) (hopen : p.client.alsaplayer.initialized = true) :
    Meets Fault.HandleValid (fun s' => ProcessInv { p with client := s' })
      (getchunk env clock dropped takes p.client) := by
  obtain ⟨htasks, hplayer⟩ := dropLate_same dropped p.client
  unfold getchunk
  dsimp only
  generalize (fun s => (intercomGetnextaudiochunk s).2)^[dropped] p.client = s at htasks hplayer
  split
  · exact takeChunk_spec env clock hinv hopen htasks hplayer
  · refine Meets.pure ⟨?_, ?_, ?_, ?_⟩
    · exact htasks ▸ hinv.sound
    · exact htasks ▸ hinv.idle
    · exact hinv.device.congr (by rw [htasks]) (by rw [htasks]) (fun id => by rw [htasks])
        (by rw [hplayer]) (by rw [hplayer])
    · exact hinv.hello.congr (fun id => by rw [htasks]) (fun id => by rw [htasks])

/-- The device changes, and with it its tasks. -/
theorem ProcessInv.device_changed {p : ClientProcess} (hinv : ProcessInv p) {s' : Client}
    (hframe : p.client.tasks.Frame notUninit s'.tasks) (hdevice : DeviceInv s'.tasks s'.alsaplayer)
    (exited : Bool) : ProcessInv { p with client := s', exited } where
  sound := hframe.sound
  idle := hframe.running.trans hinv.idle
  device := hdevice
  hello := hinv.hello.frame hframe rfl rfl

/-- A datagram, whether or not it is about the device. -/
theorem ProcessInv.spared {p : ClientProcess} (hinv : ProcessInv p) {s' : Client}
    (hspared : SparesDevice p.client s') : ProcessInv { p with client := s' } where
  sound := hspared.tasks.sound
  idle := hspared.tasks.running.trans hinv.idle
  device := hinv.device.frame hspared.tasks rfl hspared.device.closeTask hspared.device.initialized
  hello := hinv.hello.frame hspared.tasks rfl rfl

/-! ### Events and runs -/

/-- The event makes the client call `alsaplayer_remove_task`: SIGTERM, and an AUDIO packet that is on time
and of another format than the device. -/
def RemovesTask (env : ClientEnv) (p : ClientProcess) : ProcessEvent → Prop
  | .datagram packet _ clock => p.connected = true ∧ ReachesDevice env clock p.client packet ∧
      OtherFormat p.client.alsaplayer (audioChunk packet)
  | .sigterm => True
  | _ => False

/-- `alsaplayer_remove_task` is only called while the device is open, or there is no handle. -/
def RemovesSafely (env : ClientEnv) (p : ClientProcess) (event : ProcessEvent) : Prop :=
  p.exited = false → RemovesTask env p event → Removable p.client.alsaplayer

theorem receiveDatagram_handles (env : ClientEnv) (clock : ClientClock) {p : ClientProcess}
    (hinv : ProcessInv p) (packet : Nat → UInt8) (packetLen : Nat) :
    (¬(ReachesDevice env clock p.client packet ∧ OtherFormat p.client.alsaplayer (audioChunk packet) →
      Removable p.client.alsaplayer) →
      receiveDatagram env clock p packet packetLen = .error .useAfterFree) ∧
    ((ReachesDevice env clock p.client packet ∧ OtherFormat p.client.alsaplayer (audioChunk packet) →
      Removable p.client.alsaplayer) →
      Meets Fault.HandleValid ProcessInv (receiveDatagram env clock p packet packetLen)) := by
  have hreceived := receiveDatagram_spec env clock hinv.sound packet packetLen
  generalize receiveDatagram env clock p packet packetLen = call at hreceived
  cases hreceived with
  | spared s' hnot hspared =>
      refine ⟨fun hbad => absurd (Classical.not_imp.mp hbad).1.1 hnot, fun _ => ?_⟩
      exact Meets.pure (hinv.spared hspared)
  | failed fault hnot hvalid =>
      exact ⟨fun hbad => absurd (Classical.not_imp.mp hbad).1.1 hnot, fun _ => hvalid⟩
  | device s' chunk hreaches hspared hformat =>
      have hinv' := hinv.spared hspared
      have hother : OtherFormat s'.alsaplayer chunk ↔
          OtherFormat p.client.alsaplayer (audioChunk packet) := by
        unfold OtherFormat
        rw [hformat.frameSize, hformat.channels, hformat.samples, hspared.device.frameSize,
          hspared.device.channels, hspared.device.rate]
      have hremovable : Removable s'.alsaplayer ↔ Removable p.client.alsaplayer := by
        unfold Removable
        rw [hspared.device.initialized, hspared.device.closeTask]
      obtain ⟨hfreed, hopened⟩ := openDevice_spec env clock hinv'.sound hinv'.device hinv'.idle chunk
      rw [hother, hremovable] at hfreed hopened
      rw [and_iff_right hreaches]
      refine ⟨fun hbad => ?_, fun hgood => ?_⟩
      · rw [hfreed hbad]
        rfl
      · refine (hopened hgood).bind fun s'' hs'' => Meets.pure ?_
        exact hinv'.device_changed hs''.1 hs''.2 p.exited

/-- What one event does to the handles. -/
theorem processStep_spec (env : ClientEnv) {p : ClientProcess} (hinv : ProcessInv p)
    (event : ProcessEvent) :
    (¬RemovesSafely env p event → processStep env p event = .error .useAfterFree) ∧
    (RemovesSafely env p event → Meets Fault.HandleValid ProcessInv (processStep env p event)) := by
  unfold RemovesSafely processStep
  cases hexited : p.exited with
  | true =>
      refine ⟨fun hbad => absurd (fun habsurd => ?_) hbad, fun _ => Meets.pure hinv⟩
      exact absurd habsurd.symm Bool.false_ne_true
  | false =>
      rw [if_neg Bool.false_ne_true, forall_prop_of_true rfl]
      cases event with
      | datagram packet packetLen clock =>
          dsimp only [RemovesTask]
          by_cases hconnected : p.connected = true
          · rw [if_pos hconnected, and_iff_right hconnected]
            exact receiveDatagram_handles env clock hinv packet packetLen
          · rw [if_neg hconnected]
            exact ⟨fun hbad => absurd (fun hremoves => absurd hremoves.1 hconnected) hbad,
              fun _ => Meets.pure hinv⟩
      | fire id changed resolved clock =>
          exact ⟨fun hbad => absurd (fun habsurd => habsurd.elim) hbad,
            fun _ => fireClientTask_spec env clock changed resolved hinv id⟩
      | networkError clock =>
          refine ⟨fun hbad => absurd (fun habsurd => habsurd.elim) hbad, fun _ => ?_⟩
          dsimp only
          split
          · rename_i hconnected
            exact networkError_spec clock hinv hconnected
          · exact Meets.pure hinv
      | getchunk dropped takes clock =>
          refine ⟨fun hbad => absurd (fun habsurd => habsurd.elim) hbad, fun _ => ?_⟩
          dsimp only
          split
          · rename_i hopen
            refine (getchunk_spec env clock dropped takes hinv hopen).bind fun s' hs' => Meets.pure ?_
            rw [hexited] at hs'
            exact hs'
          · exact Meets.pure hinv
      | sigterm =>
          have hterm : sigTermHandler p =
              (removeDevice p.client).map fun client => { p with client, exited := true } := by
            rw [sigTermHandler, removeDevice]
            cases alsaplayerRemoveTask p.client with
            | error fault => rfl
            | ok s =>
                change (alsaplayerUninit s >>= _) = (alsaplayerUninit s).map _
                cases alsaplayerUninit s <;> rfl
          dsimp only [RemovesTask]
          rw [forall_prop_of_true trivial, hterm]
          constructor
          · intro hbad
            rw [removeDevice_freed hinv.sound hinv.device hinv.idle hbad]
            rfl
          · intro hgood
            obtain ⟨s', hremove, hframe, hnone, hclosed⟩ := removeDevice_spec hinv.sound hinv.device hgood
            rw [hremove]
            exact Meets.pure (hinv.device_changed hframe (.closed_none hnone hclosed) true)

/-- In a run no handle is used that its task no longer has. -/
def HandlesValid (env : ClientEnv) (p : ClientProcess) (events : List ProcessEvent) : Prop :=
  Meets Fault.HandleValid (fun _ => True) (processRun env p events)

/-- Every step of a run that calls `alsaplayer_remove_task` does so while the device is open, or there is no
handle. -/
def RemovesSafelyThroughout (env : ClientEnv) : ClientProcess → List ProcessEvent → Prop
  | _, [] => True
  | p, event :: events => RemovesSafely env p event ∧
      ∀ p', processStep env p event = .ok p' → RemovesSafelyThroughout env p' events

/-- The client when it enters the loop has the handle of its first task. -/
theorem ProcessInv.fresh (nonce : UInt32) (softvol : Bool) (mixer : Option Mixer) :
    ProcessInv (freshProcess nonce softvol mixer) where
  sound := TaskPool.Sound.empty.postTask _ _ _ _
  idle := rfl
  device := .closed_none rfl rfl
  hello := @NoHello.postHello .empty
    ⟨fun _ ⟨_, htask, _⟩ => absurd htask List.not_mem_nil,
      fun _ ⟨_, htask, _⟩ => absurd htask List.not_mem_nil⟩ _ _ _

theorem processRun_iff (env : ClientEnv) {p : ClientProcess} (hinv : ProcessInv p)
    (events : List ProcessEvent) :
    HandlesValid env p events ↔ RemovesSafelyThroughout env p events := by
  induction events generalizing p with
  | nil => exact iff_of_true trivial trivial
  | cons event events ih =>
      obtain ⟨hfreed, hvalid⟩ := processStep_spec env hinv event
      unfold HandlesValid RemovesSafelyThroughout processRun
      by_cases hsafe : RemovesSafely env p event
      · have hstep := hvalid hsafe
        rw [and_iff_right hsafe]
        cases hrun : processStep env p event with
        | error fault =>
            rw [hrun] at hstep
            exact iff_of_true hstep fun p' hp' => by cases hp'
        | ok p' =>
            rw [hrun] at hstep
            refine (ih hstep).trans ⟨fun hrest p'' hp'' => ?_, fun hrest => hrest p' rfl⟩
            rw [← Except.ok.inj hp'']
            exact hrest
      · rw [hfreed hsafe]
        exact iff_of_false (fun hbad => hbad.1 rfl) (fun hbad => hsafe hbad.1)

/-- The handles of the client stay valid exactly when it calls `alsaplayer_remove_task` only while the
device is open or there is no handle: closing the device does not forget the handle. -/
theorem clientHandles_valid_iff (env : ClientEnv) (nonce : UInt32) (softvol : Bool)
    (mixer : Option Mixer) (events : List ProcessEvent) :
    HandlesValid env (freshProcess nonce softvol mixer) events ↔
      RemovesSafelyThroughout env (freshProcess nonce softvol mixer) events :=
  processRun_iff env (.fresh nonce softvol mixer) events

/-- An AUDIO packet like the others, but with twice as many samples. -/
def otherFormatPacket (seqno : UInt32) : Nat → UInt8 :=
  (assembleAudio (fun _ => 0) 1000 seqno
    ⟨100, 0, 16000, 1, 1, 16, codecPcm, List.replicate 16 0⟩).1.packet

/-- The device is opened, closed by its task ten seconds later, and then to be opened for another format. -/
def formatChange : List ProcessEvent :=
  [.datagram (audioPacketAt 1) 35 beforeDue, .fire 1 false false ⟨⟨60, 0⟩, ⟨60, 0⟩, ⟨19, 0⟩⟩,
    .datagram (otherFormatPacket 2) 43 ⟨⟨61, 0⟩, ⟨61, 0⟩, ⟨20, 0⟩⟩]

/-- There the client drops a task that was freed. -/
theorem clientHandles_freed : ¬HandlesValid anyDevice (freshProcess 7 true none) formatChange := by
  intro hvalid
  have hrun : processRun anyDevice (freshProcess 7 true none) formatChange = .error .useAfterFree :=
    @except_map_error _ _ _ (fun _ => ()) _ (by decide +kernel)
  rw [HandlesValid, hrun] at hvalid
  exact hvalid.1 rfl

end Snapcastc
