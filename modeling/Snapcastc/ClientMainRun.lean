import Snapcastc.ClientMain
import Snapcastc.ClientGreetings

/-! What the main loop of the client does to the process: it goes through the events that `ClientProcess`
knows, so that its handles are in order. -/

namespace Snapcastc

variable {config : ClientConfig} {env : ClientEnv}

/-- The events of a process without those that the socket brings. -/
def ownEvent : ProcessEvent → Prop
  | .datagram .. => False
  | .networkError _ => False
  | _ => True

/-- The events that the socket can bring while an entry is handled: what it has received, and an error. -/
def socketEvent (results : ClientResults) : ProcessEvent → Prop
  | .datagram packet packetLen clock => ∃ datagram ∈ results.datagrams, datagram.clock = clock ∧
      packetLen = (datagram.bytes.take clientMtu).length ∧
        ∃ buf, packet = received buf clientMtu datagram.bytes
  | .networkError _ => True
  | _ => False

/-- A move of the process: an event of an allowed kind, or a change of what the player keeps for later. -/
inductive ClientMove (env : ClientEnv) (allowed : ProcessEvent → Prop) : ClientProcess → ClientProcess → Prop
  | event {p p' : ClientProcess} (event : ProcessEvent) : allowed event →
      processStep env p event = .ok p' → ClientMove env allowed p p'
  | overflow (p : ClientProcess) (overflow : Option PcmChunk) : ClientMove env allowed p
      { p with client := { p.client with alsaplayer := { p.client.alsaplayer with overflow } } }

/-- Any number of moves. -/
def ClientMoves (env : ClientEnv) (allowed : ProcessEvent → Prop) : ClientProcess → ClientProcess → Prop :=
  Relation.ReflTransGen (ClientMove env allowed)

namespace ClientMoves

variable {allowed : ProcessEvent → Prop} {p p' : ClientProcess}

theorem trans {p'' : ClientProcess} (hfirst : ClientMoves env allowed p p')
    (hsecond : ClientMoves env allowed p' p'') : ClientMoves env allowed p p'' :=
  Relation.ReflTransGen.trans hfirst hsecond

/-- What every move keeps holds after any number of them. -/
theorem invariant {inv : ClientProcess → Prop}
    (hevent : ∀ {p p' event}, allowed event → inv p → processStep env p event = .ok p' → inv p')
    (hoverflow : ∀ {p : ClientProcess} overflow, inv p →
      inv { p with client := { p.client with alsaplayer := { p.client.alsaplayer with overflow } } })
    (hinv : inv p) (hmoves : ClientMoves env allowed p p') : inv p' := by
  induction hmoves with
  | refl => exact hinv
  | tail _ hmove ih =>
      cases hmove with
      | event event hallowed hstep => exact hevent hallowed ih hstep
      | overflow overflow => exact hoverflow overflow ih

/-- Fewer kinds of events. -/
theorem weaken {more : ProcessEvent → Prop} (hle : ∀ event, allowed event → more event)
    (hmoves : ClientMoves env allowed p p') : ClientMoves env more p p' := by
  refine Relation.ReflTransGen.mono (fun first second hmove => ?_) _ _ hmoves
  cases hmove with
  | event event hallowed hstep => exact .event event (hle event hallowed) hstep
  | overflow overflow => exact .overflow first overflow

/-! ### Tasks, datagrams and the player -/

theorem reopenIntercom_exited {clock : ClientClock} {resolved : Bool}
    (hrun : reopenIntercom clock resolved p = .ok p') : p'.exited = p.exited := by
  obtain ⟨client, -, hrun⟩ := except_bind_ok hrun
  cases hrun
  rfl

theorem runClientTask_exited {clock : ClientClock} {changed resolved : Bool} {code : ClientTask}
    (hrun : runClientTask env clock changed resolved p code = .ok p') : p'.exited = p.exited := by
  cases code with
  | hello =>
      cases changed with
      | false =>
          cases hrun
          rfl
      | true =>
          obtain ⟨closed, hclose, hrun⟩ := except_bind_ok hrun
          obtain ⟨client, -, hrun⟩ := except_bind_ok hrun
          refine (reopenIntercom_exited hrun).trans ?_
          unfold closeIntercom at hclose
          split at hclose
          · cases hclose
          · obtain ⟨tasks, -, hclose⟩ := except_bind_ok hclose
            cases hclose
            rfl
  | request reqNonce retriesLeft =>
      cases hrun
      rfl
  | alsaplayerUninit =>
      obtain ⟨client, -, hrun⟩ := except_bind_ok hrun
      cases hrun
      rfl
  | intercomReinit => exact reopenIntercom_exited hrun
  | decodeFirstInput =>
      obtain ⟨client, -, hrun⟩ := except_bind_ok hrun
      cases hrun
      rfl

theorem fireClientTask_exited {clock : ClientClock} {changed resolved : Bool} {id : Nat}
    (hrun : fireClientTask env clock changed resolved p id = .ok p') : p'.exited = p.exited := by
  unfold fireClientTask at hrun
  split at hrun
  · cases hrun
    rfl
  · split_ifs at hrun
    · cases hrun
      rfl
    · obtain ⟨after, hcall, hrun⟩ := except_bind_ok hrun
      cases hrun
      have hafter := runClientTask_exited hcall
      exact hafter

/-- The moves are made while the process has not exited, and it has not afterwards. -/
def Goes (env : ClientEnv) (allowed : ProcessEvent → Prop) (p p' : ClientProcess) : Prop :=
  p.exited = false → ClientMoves env allowed p p' ∧ p'.exited = false

theorem Goes.refl (p : ClientProcess) : Goes env allowed p p := fun hlive => ⟨.refl, hlive⟩

theorem Goes.trans {p'' : ClientProcess} (hfirst : Goes env allowed p p') (hsecond : Goes env allowed p' p'') :
    Goes env allowed p p'' := by
  intro hlive
  obtain ⟨hmoves, hlive'⟩ := hfirst hlive
  obtain ⟨hmoves', hlive''⟩ := hsecond hlive'
  exact ⟨hmoves.trans hmoves', hlive''⟩

/-- An event that the process handles. -/
theorem Goes.event {event : ProcessEvent} (hallowed : allowed event)
    (hstep : p.exited = false → processStep env p event = .ok p') (hexited : p'.exited = p.exited) :
    Goes env allowed p p' :=
  fun hlive => ⟨.single (.event event hallowed (hstep hlive)), hexited.trans hlive⟩

theorem fire {clock : ClientClock} {changed resolved : Bool} {id : Nat}
    (hallowed : allowed (.fire id changed resolved clock))
    (hrun : fireClientTask env clock changed resolved p id = .ok p') : Goes env allowed p p' := by
  refine Goes.event hallowed (fun hlive => ?_) (fireClientTask_exited hrun)
  rw [processStep, if_neg (by rw [hlive]; exact Bool.false_ne_true)]
  exact hrun

theorem receiveDatagram_exited {clock : ClientClock} {packet : Nat → UInt8} {packetLen : Nat}
    (hrun : receiveDatagram env clock p packet packetLen = .ok p') :
    p'.exited = p.exited ∧ p'.connected = p.connected := by
  unfold receiveDatagram at hrun
  split at hrun
  · cases hrun
  · cases hrun
    exact ⟨rfl, rfl⟩

/-- `intercom_handle_in`. -/
theorem handleIn {datagrams : List ClientDatagram} {buf : Nat → UInt8}
    (hallowed : ∀ datagram ∈ datagrams, ∀ buf, allowed (.datagram (received buf clientMtu datagram.bytes)
      (datagram.bytes.take clientMtu).length datagram.clock))
    (hconnected : p.connected = true) (hrun : clientHandleIn env datagrams buf p = .ok p') :
    Goes env allowed p p' := by
  induction datagrams generalizing p buf with
  | nil =>
      cases hrun
      exact .refl _
  | cons datagram datagrams ih =>
      unfold clientHandleIn at hrun
      dsimp only at hrun
      split_ifs at hrun
      · cases hrun
        exact .refl _
      · obtain ⟨first, hfirst, hrun⟩ := except_bind_ok hrun
        obtain ⟨hexited, hstill⟩ := receiveDatagram_exited hfirst
        have hstep : Goes env allowed p first := by
          refine Goes.event (hallowed datagram List.mem_cons_self buf) (fun hlive => ?_) hexited
          rw [processStep, if_neg (by rw [hlive]; exact Bool.false_ne_true), if_pos hconnected]
          exact hfirst
        refine hstep.trans (ih (fun later hlater => ?_) (hstill.trans hconnected) hrun)
        exact hallowed later (List.mem_cons_of_mem _ hlater)

theorem networkError_exited {clock : ClientClock} (hrun : networkError clock p = .ok p') :
    p'.exited = p.exited := by
  obtain ⟨closed, hclose, hrun⟩ := except_bind_ok hrun
  obtain ⟨client, -, hrun⟩ := except_bind_ok hrun
  cases hrun
  unfold closeIntercom at hclose
  split at hclose
  · cases hclose
  · obtain ⟨tasks, -, hclose⟩ := except_bind_ok hclose
    cases hclose
    rfl

theorem error {clock : ClientClock} (hallowed : allowed (.networkError clock))
    (hconnected : p.connected = true) (hrun : networkError clock p = .ok p') : Goes env allowed p p' := by
  refine Goes.event hallowed (fun hlive => ?_) (networkError_exited hrun)
  rw [processStep, if_neg (by rw [hlive]; exact Bool.false_ne_true), if_pos hconnected]
  exact hrun

/-- `alsaplayer_handle` changes nothing of the context but the overflow. -/
theorem alsaplayerHandle_overflow {ctx ctx' : AlsaplayerCtx} {delivered : PcmChunk} {device : DeviceResults}
    {played : List (List UInt8)} (hrun : alsaplayerHandle ctx delivered device = .ok (ctx', played)) :
    ∃ overflow, ctx' = { ctx with overflow } := by
  rw [alsaplayerHandle] at hrun
  by_cases hnone : (ctx.overflow.getD delivered).channels = 0 ∨ (ctx.overflow.getD delivered).frameSize = 0 ∨
      (ctx.overflow.getD delivered).size = 0
  · rw [if_pos hnone] at hrun
    cases hrun
    exact ⟨ctx.overflow, rfl⟩
  rw [if_neg hnone] at hrun
  generalize writeFrames device (frameCount (ctx.overflow.getD delivered)) = result at hrun
  obtain ⟨pcm, taken⟩ := result
  dsimp only at hrun
  split_ifs at hrun
  · obtain ⟨overflow, -, hrun⟩ := except_bind_ok hrun
    cases hrun
    exact ⟨some overflow, rfl⟩
  · cases hrun
    exact ⟨none, rfl⟩
  · cases hrun
    exact ⟨ctx.overflow, rfl⟩

theorem played {results : ClientResults} {m m' : ClientMain}
    (hallowed : ∀ dropped takes clock, allowed (.getchunk dropped takes clock))
    (hopen : m.process.client.alsaplayer.initialized = true)
    (hrun : handlePlayer config results m = .ok m') : Goes config.env allowed m.process m'.process := by
  have hkeeps : ∀ (p : ClientProcess) {ctx : AlsaplayerCtx} {delivered : PcmChunk} {frames : List (List UInt8)},
      alsaplayerHandle p.client.alsaplayer delivered results.device = .ok (ctx, frames) →
        Goes config.env allowed p { p with client := { p.client with alsaplayer := ctx } } := by
    intro p ctx delivered frames hhandle hlive
    obtain ⟨overflow, rfl⟩ := alsaplayerHandle_overflow hhandle
    exact ⟨.single (.overflow p overflow), hlive⟩
  unfold handlePlayer at hrun
  split at hrun
  · obtain ⟨⟨ctx, frames⟩, hhandle, hrun⟩ := except_bind_ok hrun
    cases hrun
    exact hkeeps m.process hhandle
  · obtain ⟨fetched, hfetch, hrun⟩ := except_bind_ok hrun
    obtain ⟨⟨ctx, frames⟩, hhandle, hrun⟩ := except_bind_ok hrun
    cases hrun
    obtain ⟨dropped, takes, hget⟩ := playerGetchunk_refines hfetch
    have hstep : Goes config.env allowed m.process { m.process with client := fetched.client } := by
      refine Goes.event (hallowed dropped takes results.clock) (fun hlive => ?_) rfl
      rw [processStep, if_neg (by rw [hlive]; exact Bool.false_ne_true)]
      dsimp only
      rw [if_pos hopen, hget]
      rfl
    exact hstep.trans (hkeeps { m.process with client := fetched.client } hhandle)

/-! ### The loop -/

theorem next {now : Timespec} {m m' : ClientMain} {run : ClientTaskRun}
    (hallowed : ∀ id changed resolved clock, allowed (.fire id changed resolved clock))
    (hrun : runNext env now m run = .ok m') : Goes env allowed m.process m'.process := by
  cases run with
  | task id changed resolved socket clock =>
      unfold runNext at hrun
      dsimp only at hrun
      split at hrun
      · cases hrun
        exact .refl _
      · split at hrun
        · obtain ⟨process, hfire, hrun⟩ := except_bind_ok hrun
          cases hrun
          exact fire (hallowed _ _ _ _) hfire
        · cases hrun
          exact .refl _
  | resumePolling k =>
      unfold runNext at hrun
      dsimp only at hrun
      split at hrun
      · cases hrun
        exact .refl _
      · split_ifs at hrun
        · cases hrun
          exact .refl _
        · cases hrun
          exact .refl _

theorem queue {now : Timespec} {runs : List ClientTaskRun} {m m' : ClientMain}
    (hallowed : ∀ id changed resolved clock, allowed (.fire id changed resolved clock))
    (hrun : clientRunQueue env now runs m = .ok m') : Goes env allowed m.process m'.process := by
  obtain ⟨after, hrun, hdone⟩ := except_bind_ok hrun
  split_ifs at hdone
  cases hdone
  exact Runs.run_keeps (fun after : ClientMain => Goes env allowed m.process after.process)
    (fun hgoes hstep => hgoes.trans (next hallowed hstep)) (.refl _) hrun

theorem intercom {results : ClientResults} {m m' : ClientMain} {revents : Revents}
    (hsocket : m.polled = some m.intercomFd → ∀ event, socketEvent results event → allowed event)
    (hrun : handleIntercom env results m revents = .ok m') : Goes env allowed m.process m'.process := by
  unfold handleIntercom at hrun
  split_ifs at hrun with hpolled hinput hconnected hreported hconnected
  · obtain ⟨process, hhandle, hrun⟩ := except_bind_ok hrun
    cases hrun
    refine handleIn (fun datagram hmem buf => hsocket hpolled _ ?_) hconnected hhandle
    exact ⟨datagram, hmem, rfl, rfl, buf, rfl⟩
  · cases hrun
    exact .refl _
  · obtain ⟨process, hhandle, hrun⟩ := except_bind_ok hrun
    cases hrun
    exact error (hsocket hpolled _ trivial) hconnected hhandle
  · cases hrun
    exact .refl _
  · cases hrun
    exact .refl _
  · cases hrun
    exact .refl _
  · cases hrun
    exact .refl _

/-- The events that do not come from the socket are allowed. -/
def AllowsOwn (allowed : ProcessEvent → Prop) : Prop := ∀ event, ownEvent event → allowed event

theorem entry {results : ClientResults} {m m' : ClientMain} {ready : ReadyEntry} (hown : AllowsOwn allowed)
    (hsocket : m.polled = some m.intercomFd → ∀ event, socketEvent results event → allowed event)
    (hrun : handleEntry config results m ready = .ok m') :
    Goes config.env allowed m.process m'.process := by
  cases ready with
  | device =>
      unfold handleEntry at hrun
      dsimp only at hrun
      split_ifs at hrun with hopen
      · exact played (fun _ _ _ => hown _ trivial) hopen hrun
      · cases hrun
        exact .refl _
  | taskqueue => exact queue (fun _ _ _ _ => hown _ trivial) hrun
  | intercom revents => exact intercom hsocket hrun

theorem sigTermHandler_moves (hown : AllowsOwn allowed) (hlive : p.exited = false)
    (hrun : sigTermHandler p = .ok p') : ClientMoves env allowed p p' := by
  refine .single (.event .sigterm (hown _ trivial) ?_)
  rw [processStep, if_neg (by rw [hlive]; exact Bool.false_ne_true)]
  exact hrun

/-- A step of the main loop. -/
theorem mainStep {m m' : ClientMain} {event : ClientMainEvent} (hown : AllowsOwn allowed)
    (hsocket : ∀ results, event = .handle results → m.polled = some m.intercomFd →
      ∀ event, socketEvent results event → allowed event)
    (hrun : clientMainStep config m event = .ok m') : ClientMoves config.env allowed m.process m'.process := by
  unfold clientMainStep at hrun
  by_cases hexited : m.process.exited = true
  · rw [if_pos hexited] at hrun
    cases hrun
    exact .refl
  · rw [if_neg hexited] at hrun
    have hlive : m.process.exited = false := Bool.eq_false_iff.mpr hexited
    cases event with
    | poll devices taskqueue revents =>
        dsimp only at hrun
        split at hrun
        · cases hrun
          exact .refl
        · cases hrun
          exact .refl
    | handle results =>
        dsimp only at hrun
        split at hrun
        · cases hrun
          exact .refl
        · rename_i ready batch _
          have hgoes : Goes config.env allowed m.process m'.process :=
            entry (m := { m with batch }) hown (hsocket results rfl) hrun
          exact (hgoes hlive).1
    | terminate =>
        obtain ⟨process, hterm, hrun⟩ := except_bind_ok hrun
        cases hrun
        exact sigTermHandler_moves hown hlive hterm

/-- A run of the main loop. -/
theorem mainRun {m m' : ClientMain} {events : List ClientMainEvent}
    (hrun : clientMainRun config m events = .ok m') :
    ClientMoves config.env (fun _ => True) m.process m'.process :=
  Runs.run_keeps (fun after : ClientMain => ClientMoves config.env (fun _ => True) m.process after.process)
    (fun hmoves hstep => hmoves.trans (mainStep (fun _ _ => trivial) (fun _ _ _ _ _ => trivial) hstep)) .refl hrun

end ClientMoves

theorem ProcessInv.overflow {p : ClientProcess} (hinv : ProcessInv p) (overflow : Option PcmChunk) :
    ProcessInv { p with client := { p.client with alsaplayer := { p.client.alsaplayer with overflow } } } where
  sound := hinv.sound
  idle := hinv.idle
  device := hinv.device.congr (List.prefix_refl _) rfl (fun _ => Iff.rfl) rfl rfl
  hello := hinv.hello

/-- In every state that the main loop of the client reaches, whatever `poll` reports, arrives in datagrams and
is done with by the device, the process is one that its events lead to, up to the overflow; the handles it
keeps are those of its tasks, and with a socket one task is queued that says hello. -/
theorem clientMain_process (config : ClientConfig) (nonce : UInt32) (softvol : Bool) (mixer : Option Mixer)
    (intercomFd : Nat) (events : List ClientMainEvent) (m : ClientMain)
    (hrun : clientMainRun config (enterClientLoop nonce softvol mixer intercomFd) events = .ok m) :
    ClientMoves config.env (fun _ => True) (freshProcess nonce softvol mixer) m.process ∧
      ProcessInv m.process := by
  have hmoves := ClientMoves.mainRun hrun
  refine ⟨hmoves, ClientMoves.invariant (fun _ hinv hstep => hinv.step hstep)
    (fun overflow hinv => hinv.overflow overflow) (.fresh nonce softvol mixer) hmoves⟩

/-- The results of the calls while an entry is handled, on a device that takes all frames. -/
def resultsAt (clock : ClientClock) (runs : List ClientTaskRun) (datagrams : List ClientDatagram) :
    ClientResults :=
  ⟨clock, runs, some 0, ⟨fun frames => frames, fun frames => frames, fun frames => frames⟩, fun _ => 0, datagrams⟩

/-- An AUDIO datagram with eight frames to be played at second 100. -/
def soundAt100 : ClientDatagram :=
  ⟨audioBytes 1000 1 ⟨100, 0, 8000, 1, 1, 8, codecPcm, List.replicate 8 0⟩, beforeDue⟩

/-- The client says hello, receives the datagram and plays it. -/
def firstSound : List ClientMainEvent :=
  [.poll 0 true none, .handle (resultsAt (secondOf 1) [.task 0 false true 4 (secondOf 1)] []),
    .poll 0 false (some ⟨true, false, false⟩), .handle (resultsAt (secondOf 2) [] [soundAt100]),
    .poll 1 false none, .handle (resultsAt (secondOf 100) [] [])]

theorem clientMain_process_first :
    ∃ m, clientMainRun ⟨anyDevice, sameSpeed, 0⟩ (enterClientLoop 7 true none 4) firstSound = .ok m ∧
      m.played.length = 8 ∧ ProcessInv m.process := by
  obtain ⟨m, hrun, hplayed⟩ := except_map_ok (show (clientMainRun ⟨anyDevice, sameSpeed, 0⟩
    (enterClientLoop 7 true none 4) firstSound).map (·.played.length) = .ok 8 by decide +kernel)
  exact ⟨m, hrun, hplayed, (clientMain_process _ 7 true none 4 firstSound m hrun).2⟩

end Snapcastc
