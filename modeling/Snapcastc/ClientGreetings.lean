import Snapcastc.ClientHandles
import Snapcastc.ServerLease

/-! The client's heartbeat. While it has a socket, one task is queued that says hello to the server, a second
and a half after the last time; without one, a task sets the intercom up again. With the leases of the server
this keeps a client registered whose HELLOs arrive. -/

namespace Snapcastc

open Calls

/-- When the client sends a HELLO at an event, if it does: `hello_task` has found no other address. -/
def greeting (p : ClientProcess) : ProcessEvent → Option Timespec
  | .fire id false _ clock =>
      if p.exited then none
      else match p.client.tasks.queued.find? (·.id == id) with
        | some task =>
            if task.code = .hello ∧ ¬timespecCmp task.due clock.uptime > 0 then some clock.uptime else none
        | none => none
  | _ => none

/-- The times at which it sends one in a run. -/
def greetings (env : ClientEnv) : ClientProcess → List ProcessEvent → List Timespec
  | _, [] => []
  | p, event :: events =>
      (greeting p event).toList ++
        match processStep env p event with
        | .ok p' => greetings env p' events
        | .error _ => []

/-- What the monotonic clock shows at an event. -/
def ProcessEvent.uptime : ProcessEvent → Option Timespec
  | .datagram _ _ clock => some clock.uptime
  | .fire _ _ _ clock => some clock.uptime
  | .networkError clock => some clock.uptime
  | .getchunk _ _ clock => some clock.uptime
  | .sigterm => none

def intercomTask : ClientTask → Bool
  | .hello => true
  | .intercomReinit => true
  | _ => false

/-- The task of the intercom that is queued, and why it is due when it is: the client has said hello, it has
got a socket and is about to, or there was an error on the network. -/
inductive Beat (greeted : List Timespec) (past : List ProcessEvent) :
    Bool → Option Nat → Posted ClientTask → Prop
  | greeted {id : Nat} {uptime : Timespec} : uptime ∈ greeted →
      Beat greeted past true (some id) ⟨id, settime uptime 1 500, .hello⟩
  | opened {id : Nat} {uptime : Timespec} : uptime = ⟨0, 0⟩ ∨ uptime ∈ past.filterMap ProcessEvent.uptime →
      Beat greeted past true (some id) ⟨id, settime uptime 0 0, .hello⟩
  | broken {id : Nat} {handle : Option Nat} {clock : ClientClock} : .networkError clock ∈ past →
      Beat greeted past false handle ⟨id, settime clock.uptime 1 0, .intercomReinit⟩

/-- One task of the intercom is queued, for one of these reasons. -/
def Heartbeat (greeted : List Timespec) (past : List ProcessEvent) (p : ClientProcess) : Prop :=
  ∃ task, p.client.tasks.ofKind intercomTask = [task] ∧ Beat greeted past p.connected p.helloTask task

theorem Beat.mono {greeted more : List Timespec} {past later : List ProcessEvent} {connected : Bool}
    {helloTask : Option Nat} {task : Posted ClientTask} (hbeat : Beat greeted past connected helloTask task) :
    Beat (greeted ++ more) (past ++ later) connected helloTask task := by
  cases hbeat with
  | greeted hmem => exact .greeted (List.mem_append_left _ hmem)
  | opened hmem =>
      refine .opened (hmem.imp_right fun hmem => ?_)
      rw [List.filterMap_append]
      exact List.mem_append_left _ hmem
  | broken hmem => exact .broken (List.mem_append_left _ hmem)

theorem Heartbeat.fresh (nonce : UInt32) (softvol : Bool) (mixer : Option Mixer) :
    Heartbeat [] [] (freshProcess nonce softvol mixer) :=
  ⟨⟨0, settime ⟨0, 0⟩ 0 0, .hello⟩, rfl, .opened (.inl rfl)⟩

section

variable {greeted more : List Timespec} {past : List ProcessEvent} {p p' : ClientProcess}

/-- The task of the intercom is left alone. -/
theorem Heartbeat.kept (hbeat : Heartbeat greeted past p)
    (hkept : p'.client.tasks.ofKind intercomTask = p.client.tasks.ofKind intercomTask)
    (hconnected : p'.connected = p.connected) (hhello : p'.helloTask = p.helloTask)
    (later : List ProcessEvent) : Heartbeat (greeted ++ more) (past ++ later) p' := by
  obtain ⟨task, hone, hwhy⟩ := hbeat
  refine ⟨task, hkept.trans hone, ?_⟩
  rw [hconnected, hhello]
  exact hwhy.mono

theorem ofKind_postTask (pool : TaskPool ClientTask) (now : Timespec) (timeout millisecs : Int)
    {code : ClientTask} (hcode : intercomTask code = true) :
    (pool.postTask now timeout millisecs code).2.ofKind intercomTask =
      pool.ofKind intercomTask ++ [⟨pool.fresh, settime now timeout millisecs, code⟩] := by
  change (pool.queued ++ [_]).filter _ = _
  rw [List.filter_append, List.filter_singleton, hcode]
  rfl

theorem NoHello.ofKind {tasks : TaskPool ClientTask} (hnone : NoHello tasks) :
    tasks.ofKind intercomTask = [] := by
  refine List.eq_nil_iff_forall_not_mem.mpr fun task htask => ?_
  obtain ⟨hqueued, hkind⟩ := TaskPool.mem_ofKind.mp htask
  cases hcode : task.code with
  | hello => exact hnone.hello task.id ⟨task, hqueued, rfl, hcode⟩
  | intercomReinit => exact hnone.reinit task.id ⟨task, hqueued, rfl, hcode⟩
  | request reqNonce retriesLeft =>
      rw [hcode] at hkind
      cases hkind
  | alsaplayerUninit =>
      rw [hcode] at hkind
      cases hkind
  | decodeFirstInput =>
      rw [hcode] at hkind
      cases hkind

/-- `intercom_reinit`, without a task of the intercom: the next one says hello at once. -/
theorem Heartbeat.reopened {clock : ClientClock} {resolved : Bool} (hnone : p.client.tasks.ofKind intercomTask = [])
    (hmem : clock.uptime ∈ past.filterMap ProcessEvent.uptime)
    (hrun : reopenIntercom clock resolved p = .ok p') : Heartbeat greeted past p' := by
  unfold reopenIntercom intercomReinit at hrun
  cases resolved with
  | false => cases hrun
  | true =>
      cases hrun
      refine ⟨_, ?_, .opened (.inr hmem)⟩
      change (p.client.tasks.postTask clock.uptime 0 0 .hello).2.ofKind intercomTask = _
      rw [ofKind_postTask _ _ _ _ rfl, hnone, List.nil_append]

/-! ### Tasks -/

theorem requestTask_spares (clock : ClientClock) {s : Client} (hsound : s.tasks.Sound) (reqNonce : UInt32)
    (retriesLeft : UInt8) : SparesDevice s (requestTask clock s reqNonce retriesLeft).1 := by
  unfold requestTask
  dsimp only
  split
  · split
    · exact ⟨.postTask hsound _ _ _ rfl, .refl _⟩
    · exact .of_eq hsound rfl rfl
  · exact .of_eq hsound rfl rfl

theorem decodeFirstInput_tasks {env : ClientEnv} {s s' : Client} (hrun : decodeFirstInput env s = .ok s') :
    s'.tasks = s.tasks := by
  unfold decodeFirstInput at hrun
  split at hrun
  · cases hrun
    rfl
  · split at hrun
    · cases hrun
      rfl
    · obtain ⟨decoded, -, hrun⟩ := except_bind_ok hrun
      cases hrun
      rfl

/-- The other tasks leave that of the intercom alone. -/
theorem runClientTask_other {env : ClientEnv} {clock : ClientClock} {changed resolved : Bool}
    {code : ClientTask} (hsound : p.client.tasks.Sound) (hdevice : DeviceInv p.client.tasks p.client.alsaplayer)
    (hcode : intercomTask code = false) (hrun : runClientTask env clock changed resolved p code = .ok p') :
    p'.client.tasks.ofKind intercomTask = p.client.tasks.ofKind intercomTask ∧
      p'.connected = p.connected ∧ p'.helloTask = p.helloTask := by
  have hkeep : ∀ {kind : ClientTask → Bool} {tasks : TaskPool ClientTask}, p.client.tasks.Frame kind tasks →
      (∀ code, intercomTask code = true → kind code = true) →
        tasks.ofKind intercomTask = p.client.tasks.ofKind intercomTask :=
    fun hframe hle => (hframe.weaken hle).kept
  cases code with
  | hello => cases hcode
  | intercomReinit => cases hcode
  | request reqNonce retriesLeft =>
      cases hrun
      refine ⟨hkeep (requestTask_spares clock hsound reqNonce retriesLeft).tasks fun code hkind => ?_, rfl, rfl⟩
      cases code <;> first | rfl | cases hkind
  | alsaplayerUninit =>
      obtain ⟨s', huninit, hframe, -⟩ := alsaplayerUninit_spec hsound hdevice
      rw [runClientTask, huninit] at hrun
      cases hrun
      refine ⟨hkeep hframe fun code hkind => ?_, rfl, rfl⟩
      cases code <;> first | rfl | cases hkind
  | decodeFirstInput =>
      obtain ⟨s', hdecode, hrun⟩ := except_bind_ok hrun
      cases hrun
      refine ⟨?_, rfl, rfl⟩
      change s'.tasks.ofKind intercomTask = _
      rw [decodeFirstInput_tasks hdecode]

/-- `hello_task`, executed while no other task of the intercom is queued: it sends a HELLO and posts itself
again, or it sets the intercom up for another address. -/
theorem helloTask_heartbeat {clock : ClientClock} {changed resolved : Bool} {id : Nat}
    (hsound : p.client.tasks.Sound) (hrunning : p.client.tasks.running = some id)
    (hdevice : DeviceInv p.client.tasks p.client.alsaplayer) (hsome : p.helloTask = some id)
    (hconnected : p.connected = true) (hnone : p.client.tasks.ofKind intercomTask = [])
    (hmem : clock.uptime ∈ past.filterMap ProcessEvent.uptime)
    (hgreeted : changed = false → clock.uptime ∈ greeted)
    (hrun : helloTask clock changed resolved p = .ok p') : Heartbeat greeted past p' := by
  unfold helloTask at hrun
  cases changed with
  | false =>
      rw [if_neg Bool.false_ne_true] at hrun
      cases hrun
      refine ⟨⟨p.client.tasks.fresh, settime clock.uptime 1 500, .hello⟩, ?_, ?_⟩
      · change (p.client.tasks.postTask clock.uptime 1 500 .hello).2.ofKind intercomTask = _
        rw [ofKind_postTask _ _ _ _ rfl, hnone, List.nil_append]
      · dsimp only
        rw [hconnected]
        exact .greeted (hgreeted rfl)
  | true =>
      have hclose : closeIntercom p = .ok { p with
          client := { intercomUninit p.client with tasks := p.client.tasks }, connected := false } := by
        rw [closeIntercom, hsome]
        dsimp only
        rw [TaskPool.dropTask, if_pos hrunning]
        rfl
      obtain ⟨s', huninit, hframe, -⟩ := alsaplayerUninit_spec
        (s := { intercomUninit p.client with tasks := p.client.tasks }) hsound hdevice
      rw [if_pos rfl, hclose, except_ok_bind] at hrun
      obtain ⟨s'', huninit', hrun⟩ := except_bind_ok hrun
      have hsame : s' = s'' := Except.ok.inj (huninit.symm.trans huninit')
      subst hsame
      have hkept : s'.tasks.ofKind intercomTask = p.client.tasks.ofKind intercomTask :=
        (hframe.weaken fun code hkind => by cases code <;> first | rfl | cases hkind).kept
      exact Heartbeat.reopened (hkept.trans hnone) hmem hrun

/-- A task is executed. -/
theorem fireClientTask_heartbeat {env : ClientEnv} {clock : ClientClock} {changed resolved : Bool} {id : Nat}
    (hinv : ProcessInv p) (hbeat : Heartbeat greeted past p)
    (hrun : fireClientTask env clock changed resolved p id = .ok p') :
    Heartbeat (greeted ++ (greeting { p with exited := false } (.fire id changed resolved clock)).toList)
      (past ++ [.fire id changed resolved clock]) p' := by
  unfold fireClientTask at hrun
  cases hfind : p.client.tasks.queued.find? (·.id == id) with
  | none =>
      rw [hfind] at hrun
      cases hrun
      exact hbeat.kept rfl rfl rfl _
  | some task =>
      rw [hfind] at hrun
      dsimp only at hrun
      split_ifs at hrun with hdue
      · cases hrun
        exact hbeat.kept rfl rfl rfl _
      · obtain ⟨after, hcall, hfinish⟩ := except_bind_ok hrun
        cases hfinish
        clear hrun
        have htask : task ∈ p.client.tasks.queued := List.mem_of_find?_eq_some hfind
        have hsound := hinv.sound.start htask
        have hdevice := hinv.device.start hinv.idle task.id
        have hmem : clock.uptime ∈ (past ++ [ProcessEvent.fire id changed resolved clock]).filterMap
            ProcessEvent.uptime := by simp [ProcessEvent.uptime]
        cases hcode : intercomTask task.code with
        | false =>
            obtain ⟨hkept, hconnected, hhello⟩ := runClientTask_other
              (p := p.withTasks (p.client.tasks.start task.id)) hsound hdevice hcode hcall
            have hstart := TaskPool.ofKind_start_other hinv.sound htask hcode
            exact hbeat.kept (hkept.trans hstart) hconnected hhello _
        | true =>
            obtain ⟨beat, hone, hwhy⟩ := hbeat
            have hsame : task = beat := by
              rw [← List.mem_singleton, ← hone]
              exact TaskPool.mem_ofKind.mpr ⟨htask, hcode⟩
            subst hsame
            have hnone : (p.client.tasks.start task.id).ofKind intercomTask = [] := by
              rw [TaskPool.ofKind_start, hone]
              simp
            have hhello : p.connected = true → p.helloTask = some task.id → task.code = .hello → Heartbeat
                (greeted ++ (greeting { p with exited := false } (.fire id changed resolved clock)).toList)
                (past ++ [.fire id changed resolved clock]) after := by
              intro hconnected hsome hhello
              rw [hhello] at hcall
              refine helloTask_heartbeat (p := p.withTasks (p.client.tasks.start task.id)) hsound rfl hdevice
                hsome hconnected hnone hmem (fun hunchanged => ?_) hcall
              subst hunchanged
              refine List.mem_append_right _ ?_
              rw [greeting, if_neg Bool.false_ne_true]
              dsimp only
              rw [hfind]
              dsimp only
              rw [if_pos ⟨hhello, hdue⟩]
              exact List.mem_singleton_self _
            generalize hconnected : p.connected = connected at hwhy
            generalize hsome : p.helloTask = handle at hwhy
            cases hwhy with
            | greeted hgreeted => exact hhello hconnected hsome rfl
            | opened hopened => exact hhello hconnected hsome rfl
            | broken herror =>
                change Heartbeat _ _ after
                exact Heartbeat.reopened (p := p.withTasks (p.client.tasks.start _)) hnone hmem hcall

/-! ### Other events and runs -/

/-- An error on the network: the task that says hello goes, and one comes that sets the intercom up. -/
theorem networkError_heartbeat {clock : ClientClock} (hinv : ProcessInv p) (hconnected : p.connected = true)
    (hmem : .networkError clock ∈ past) (hrun : networkError clock p = .ok p') : Heartbeat greeted past p' := by
  obtain ⟨hello, hsome, hone, hnone⟩ := hinv.hello.opened hconnected
  have hthere := (hone hello).mpr rfl
  obtain ⟨tasks, hclose, hframe, hwaiting⟩ := closeIntercom_spec hinv.sound hsome
    (hthere.made hinv.sound) (.inr hthere)
  obtain ⟨s', huninit, hframe', -⟩ := alsaplayerUninit_spec
    (s := { intercomUninit p.client with tasks }) hframe.sound (hinv.device.frame hframe rfl rfl rfl)
  have hnone' : NoHello s'.tasks := by
    refine NoHello.frame ⟨fun other hother => ?_, fun other hother => ?_⟩ hframe' rfl rfl
    · obtain ⟨hold, hne⟩ := (hwaiting _ _).mp hother
      exact hne ((hone other).mp hold)
    · exact hnone other ((hwaiting _ _).mp hother).1
  rw [networkError, hclose, except_ok_bind] at hrun
  obtain ⟨s'', huninit', hrun⟩ := except_bind_ok hrun
  have hsame : s' = s'' := Except.ok.inj (huninit.symm.trans huninit')
  subst hsame
  cases hrun
  refine ⟨⟨s'.tasks.fresh, settime clock.uptime 1 0, .intercomReinit⟩, ?_, .broken hmem⟩
  change (s'.tasks.postTask clock.uptime 1 0 .intercomReinit).2.ofKind intercomTask = _
  rw [ofKind_postTask _ _ _ _ rfl, hnone'.ofKind, List.nil_append]

/-- A chunk is taken: its decoding is posted, and the closing of the device is put off. -/
theorem takeChunk_frame {env : ClientEnv} {clock : ClientClock} {s s' : Client} (hsound : s.tasks.Sound)
    (hmade : ∀ id, s.alsaplayer.closeTask = some id → s.tasks.Made id .alsaplayerUninit)
    (hrun : takeChunk env clock s = .ok s') : s.tasks.Frame intercomTask s'.tasks := by
  unfold takeChunk at hrun
  split at hrun
  · rename_i s₁ hnext
    obtain ⟨-, rfl⟩ := Prod.mk.inj hnext
    cases hrun
    exact .refl hsound
  · rename_i chunk s₁ hnext
    obtain ⟨-, rfl⟩ := Prod.mk.inj hnext
    obtain ⟨tasks, hmove, hrun⟩ := except_bind_ok hrun
    obtain ⟨decoded, -, hrun⟩ := except_bind_ok hrun
    cases hrun
    have hpost : s.tasks.Frame intercomTask (s.tasks.postTask clock.uptime 0 0 .decodeFirstInput).2 :=
      .postTask hsound _ _ _ rfl
    exact hpost.trans (.rescheduleTask hpost.sound (fun id hid => (hmade id hid).mono hpost.history) rfl hmove)

theorem getchunk_frame {env : ClientEnv} {clock : ClientClock} {dropped : Nat} {takes : Bool}
    (hinv : ProcessInv p) {s' : Client} (hrun : getchunk env clock dropped takes p.client = .ok s') :
    p.client.tasks.Frame intercomTask s'.tasks := by
  obtain ⟨htasks, hplayer⟩ := dropLate_same dropped p.client
  unfold getchunk at hrun
  dsimp only at hrun
  generalize (fun s => (intercomGetnextaudiochunk s).2)^[dropped] p.client = s at htasks hplayer hrun
  split_ifs at hrun
  · rw [← htasks]
    refine takeChunk_frame (htasks ▸ hinv.sound) (fun id hid => ?_) hrun
    rw [htasks]
    exact hinv.device.made id (hplayer ▸ hid)
  · cases hrun
    rw [htasks]
    exact .refl hinv.sound

/-- A datagram leaves the tasks of the intercom alone. -/
theorem receiveDatagram_frame {env : ClientEnv} {clock : ClientClock} (hinv : ProcessInv p)
    {packet : Nat → UInt8} {packetLen : Nat} (hrun : receiveDatagram env clock p packet packetLen = .ok p') :
    p.client.tasks.Frame intercomTask p'.client.tasks ∧ p'.connected = p.connected ∧
      p'.helloTask = p.helloTask := by
  have hspares : ∀ {s' : Client}, SparesDevice p.client s' → p.client.tasks.Frame intercomTask s'.tasks := by
    intro s' hspared
    refine hspared.tasks.weaken fun code hkind => ?_
    cases code <;> first | rfl | cases hkind
  have hreceived := receiveDatagram_spec env clock hinv.sound packet packetLen
  rw [hrun] at hreceived
  generalize hcall : Except.ok p' = call at hreceived
  cases hreceived with
  | spared s' hnot hspared =>
      cases hcall
      exact ⟨hspares hspared, rfl, rfl⟩
  | failed fault hnot hvalid => cases hcall
  | device s' chunk hreaches hspared hformat =>
      obtain ⟨s'', hopen, rfl⟩ := except_map_ok hcall.symm
      have hinv' := hinv.spared hspared
      obtain ⟨hfreed, hopened⟩ := openDevice_spec env clock hinv'.sound hinv'.device hinv'.idle chunk
      by_cases hgood : OtherFormat s'.alsaplayer chunk → Removable s'.alsaplayer
      · obtain ⟨hframe, -⟩ := (hopened hgood).of_eq hopen
        refine ⟨(hspares hspared).trans (hframe.weaken fun code hkind => ?_), rfl, rfl⟩
        cases code <;> first | rfl | cases hkind
      · rw [hfreed hgood] at hopen
        cases hopen

/-- SIGTERM closes the device. -/
theorem sigTermHandler_frame (hinv : ProcessInv p) (hrun : sigTermHandler p = .ok p') :
    p.client.tasks.Frame intercomTask p'.client.tasks ∧ p'.connected = p.connected ∧
      p'.helloTask = p.helloTask := by
  obtain ⟨s₁, hremove, hrun⟩ := except_bind_ok hrun
  obtain ⟨s₂, huninit, hrun⟩ := except_bind_ok hrun
  cases hrun
  refine ⟨?_, rfl, rfl⟩
  obtain ⟨tasks, hdrop, hremove⟩ := except_bind_ok hremove
  cases hremove
  have hfirst : p.client.tasks.Frame intercomTask tasks := .dropHandle hinv.sound hinv.device.made rfl hdrop
  unfold alsaplayerUninit at huninit
  split_ifs at huninit
  · cases huninit
    exact hfirst
  · cases huninit
    exact hfirst

theorem ProcessInv.step {env : ClientEnv} (hinv : ProcessInv p) {event : ProcessEvent}
    (hrun : processStep env p event = .ok p') : ProcessInv p' := by
  obtain ⟨hfreed, hvalid⟩ := processStep_spec env hinv event
  by_cases hsafe : RemovesSafely env p event
  · exact (hvalid hsafe).of_eq hrun
  · rw [hfreed hsafe] at hrun
    cases hrun

theorem processStep_heartbeat {env : ClientEnv} (hinv : ProcessInv p) (hbeat : Heartbeat greeted past p)
    {event : ProcessEvent} (hrun : processStep env p event = .ok p') :
    Heartbeat (greeted ++ (greeting p event).toList) (past ++ [event]) p' := by
  unfold processStep at hrun
  by_cases hexited : p.exited = true
  · rw [if_pos hexited] at hrun
    cases hrun
    exact hbeat.kept rfl rfl rfl _
  · rw [if_neg hexited] at hrun
    cases event with
    | datagram packet packetLen clock =>
        dsimp only at hrun
        split_ifs at hrun
        · obtain ⟨hframe, hconnected, hhello⟩ := receiveDatagram_frame hinv hrun
          exact hbeat.kept hframe.kept hconnected hhello _
        · cases hrun
          exact hbeat.kept rfl rfl rfl _
    | fire id changed resolved clock =>
        have hfire := fireClientTask_heartbeat hinv hbeat hrun
        have hexited : p.exited = false := Bool.eq_false_iff.mpr hexited
        rwa [← hexited] at hfire
    | networkError clock =>
        dsimp only at hrun
        split_ifs at hrun with hconnected
        · exact networkError_heartbeat hinv hconnected
            (List.mem_append_right _ (List.mem_singleton_self _)) hrun
        · cases hrun
          exact hbeat.kept rfl rfl rfl _
    | getchunk dropped takes clock =>
        dsimp only at hrun
        split_ifs at hrun
        · obtain ⟨s', hget, hrun⟩ := except_bind_ok hrun
          cases hrun
          refine hbeat.kept ?_ ?_ ?_ _
          · exact (getchunk_frame hinv hget).kept
          · rfl
          · rfl
        · cases hrun
          exact hbeat.kept rfl rfl rfl _
    | sigterm =>
        obtain ⟨hframe, hconnected, hhello⟩ := sigTermHandler_frame hinv hrun
        exact hbeat.kept hframe.kept hconnected hhello _

theorem processRun_heartbeat {env : ClientEnv} (events : List ProcessEvent) (hinv : ProcessInv p)
    (hbeat : Heartbeat greeted past p) (hrun : processRun env p events = .ok p') :
    Heartbeat (greeted ++ greetings env p events) (past ++ events) p' := by
  induction events generalizing p greeted past with
  | nil =>
      cases hrun
      exact hbeat.kept rfl rfl rfl _
  | cons event events ih =>
      obtain ⟨p₁, hstep, hrun⟩ := except_bind_ok hrun
      have hbeats := ih (hinv.step hstep) (processStep_heartbeat hinv hbeat hstep) hrun
      rw [List.append_assoc, List.append_assoc] at hbeats
      rw [greetings, hstep]
      exact hbeats

end

/-! ### How long ago, and what the server knows -/

/-- A delay of less than a second more than some seconds. -/
theorem settime_toNs {uptime : Timespec} (huptime : uptime.Normalised) (timeout : Int) {millisecs : Int}
    (hlo : 0 ≤ millisecs) (hhi : millisecs < 1000) :
    (settime uptime timeout millisecs).Normalised ∧
      (settime uptime timeout millisecs).toNs = uptime.toNs + (timeout * billion + millisecs * 1000000) := by
  have hdelay : Timespec.Normalised ⟨timeout, millisecs * 1000000⟩ := by
    unfold Timespec.Normalised billion
    dsimp only
    omega
  exact timeAdd_spec huptime hdelay

/-- A task that is not due yet was posted less than its delay ago. -/
theorem posted_recently {uptime now : Timespec} (huptime : uptime.Normalised) (hnow : now.Normalised)
    {timeout millisecs : Int} (hlo : 0 ≤ millisecs) (hhi : millisecs < 1000)
    (hdue : timespecCmp (settime uptime timeout millisecs) now > 0) :
    now.toNs - uptime.toNs < timeout * billion + millisecs * 1000000 := by
  obtain ⟨hnormal, hsum⟩ := settime_toNs huptime timeout hlo hhi
  have hlt := (timespecCmp_pos_iff_toNs hnormal hnow).mp hdue
  omega

theorem greeting_uptime {p : ClientProcess} {event : ProcessEvent} {uptime : Timespec}
    (hgreeting : greeting p event = some uptime) : event.uptime = some uptime := by
  unfold greeting at hgreeting
  split at hgreeting
  · split_ifs at hgreeting
    split at hgreeting
    · split_ifs at hgreeting
      exact hgreeting
    · cases hgreeting
  · cases hgreeting

theorem greetings_subset (env : ClientEnv) (p : ClientProcess) (events : List ProcessEvent) :
    greetings env p events ⊆ events.filterMap ProcessEvent.uptime := by
  induction events generalizing p with
  | nil => exact List.nil_subset _
  | cons event events ih =>
      intro uptime huptime
      rw [greetings] at huptime
      rcases List.mem_append.mp huptime with hfirst | hlater
      · have hevent := greeting_uptime (Option.mem_toList.mp hfirst)
        exact List.mem_filterMap.mpr ⟨event, List.mem_cons_self, hevent⟩
      · split at hlater
        · rename_i p' hstep
          obtain ⟨later, hmem, heq⟩ := List.mem_filterMap.mp (ih p' hlater)
          exact List.mem_filterMap.mpr ⟨later, List.mem_cons_of_mem _ hmem, heq⟩
        · cases hlater

/-- The monotonic clock starts at zero, and shows no time later than `now`. -/
def UptimesUntil (events : List ProcessEvent) (now : Timespec) : Prop :=
  now.Normalised ∧ 0 ≤ now.toNs ∧
    ∀ uptime ∈ events.filterMap ProcessEvent.uptime, uptime.Normalised ∧ uptime.toNs ≤ now.toNs

instance (events : List ProcessEvent) (now : Timespec) : Decidable (UptimesUntil events now) :=
  inferInstanceAs (Decidable (_ ∧ _ ∧ _))

/-- Everything that is due has been executed: with a socket, the client has said hello not long ago. -/
theorem Heartbeat.recent {env : ClientEnv} {start p : ClientProcess} {events : List ProcessEvent}
    (hbeat : Heartbeat (greetings env start events) events p) {now : Timespec} (hclock : UptimesUntil events now)
    (hdone : ∀ task ∈ p.client.tasks.queued, timespecCmp task.due now > 0) :
    (p.connected = true → ∃ uptime ∈ greetings env start events, now.toNs - uptime.toNs < 1500 * 1000000) ∧
      (p.connected = false →
        ∃ clock, .networkError clock ∈ events ∧ now.toNs - clock.uptime.toNs < 1000 * 1000000) := by
  obtain ⟨hnow, hpos, hpast⟩ := hclock
  obtain ⟨task, hone, hwhy⟩ := hbeat
  have hdue : timespecCmp task.due now > 0 := by
    refine hdone task (TaskPool.mem_ofKind.mp (?_ : task ∈ p.client.tasks.ofKind intercomTask)).1
    rw [hone]
    exact List.mem_singleton_self task
  generalize p.connected = connected at hwhy
  generalize p.helloTask = handle at hwhy
  cases hwhy with
  | @greeted id uptime hmem =>
      have hrecent := posted_recently (hpast _ (greetings_subset env start events hmem)).1 hnow
        (by decide) (by decide) hdue
      refine ⟨fun _ => ⟨uptime, hmem, ?_⟩, fun habsurd => absurd habsurd.symm Bool.false_ne_true⟩
      unfold billion at hrecent
      omega
  | @opened id uptime hmem =>
      -- a task that is due at once has been executed
      have hbefore : uptime.Normalised ∧ uptime.toNs ≤ now.toNs := by
        rcases hmem with rfl | hmem
        · exact ⟨by decide, hpos⟩
        · exact hpast uptime hmem
      have hrecent := posted_recently hbefore.1 hnow le_rfl (by decide) hdue
      omega
  | @broken id handle clock hmem =>
      have hbefore := hpast clock.uptime (List.mem_filterMap.mpr ⟨_, hmem, rfl⟩)
      have hrecent := posted_recently hbefore.1 hnow le_rfl (by decide) hdue
      refine ⟨fun habsurd => absurd habsurd Bool.false_ne_true, fun _ => ⟨clock, hmem, ?_⟩⟩
      unfold billion at hrecent
      omega

theorem processRun_fresh_heartbeat {env : ClientEnv} {nonce : UInt32} {softvol : Bool} {mixer : Option Mixer}
    {events : List ProcessEvent} {p : ClientProcess}
    (hrun : processRun env (freshProcess nonce softvol mixer) events = .ok p) :
    Heartbeat (greetings env (freshProcess nonce softvol mixer) events) events p :=
  processRun_heartbeat events (.fresh nonce softvol mixer) (.fresh nonce softvol mixer) hrun

/-- The client is never silent for long, whatever it receives and plays and whatever happens to its
network: once `taskqueue_run` has executed what is due, it has said hello in the last second and a half, or
there was an error on the network in the last second. -/
theorem client_greets (env : ClientEnv) (nonce : UInt32) (softvol : Bool) (mixer : Option Mixer)
    (events : List ProcessEvent) (p : ClientProcess)
    (hrun : processRun env (freshProcess nonce softvol mixer) events = .ok p) (now : Timespec)
    (hclock : UptimesUntil events now)
    (hdone : ∀ task ∈ p.client.tasks.queued, timespecCmp task.due now > 0) :
    (p.connected = true → ∃ uptime ∈ greetings env (freshProcess nonce softvol mixer) events,
      now.toNs - uptime.toNs < 1500 * 1000000) ∧
    (p.connected = false →
      ∃ clock, .networkError clock ∈ events ∧ now.toNs - clock.uptime.toNs < 1000 * 1000000) :=
  (processRun_fresh_heartbeat hrun).recent hclock hdone

def secondOf (sec : Int) : ClientClock := ⟨⟨sec, 0⟩, ⟨sec, 0⟩, ⟨sec, 0⟩⟩

/-- The client says hello in second 1. -/
def firstGreeting : List ProcessEvent := [.fire 0 false true (secondOf 1)]

theorem client_greets_first :
    ∃ p, processRun anyDevice (freshProcess 7 true none) firstGreeting = .ok p ∧
      ∃ uptime ∈ greetings anyDevice (freshProcess 7 true none) firstGreeting,
        (⟨2, 0⟩ : Timespec).toNs - uptime.toNs < 1500 * 1000000 := by
  obtain ⟨p, hrun, hview⟩ := except_map_ok (show (processRun anyDevice (freshProcess 7 true none)
    firstGreeting).map (fun p => decide (p.connected = true ∧
      ∀ task ∈ p.client.tasks.queued, timespecCmp task.due ⟨2, 0⟩ > 0)) = .ok true by decide +kernel)
  obtain ⟨hconnected, hdone⟩ := of_decide_eq_true hview
  exact ⟨p, hrun, (client_greets anyDevice 7 true none firstGreeting p hrun ⟨2, 0⟩ (by decide +kernel)
    hdone).1 hconnected⟩

variable {n : Nat}

/-- A client that has a socket stays registered while it may take three and a half seconds until a HELLO is
received: the client is looked at at the time `sent`, and all HELLOs it had sent by then have arrived
at `now`. Both clocks count from the same time. -/
theorem greeted_registered (env : ClientEnv) (nonce : UInt32) (softvol : Bool) (mixer : Option Mixer)
    (clientEvents : List ProcessEvent) (p : ClientProcess)
    (hclient : processRun env (freshProcess nonce softvol mixer) clientEvents = .ok p)
    (hconnected : p.connected = true) (sent : Timespec) (hsent : UptimesUntil clientEvents sent)
    (hgreeted : ∀ task ∈ p.client.tasks.queued, timespecCmp task.due sent > 0) (bufferms : UInt16)
    (options : Fin (n + 1) → StreamOptions) (serverEvents : List ServerEvent) (s : Server n)
    (hserver : serverRun (freshServer bufferms options) serverEvents = .ok s) (now : Timespec)
    (hnow : now.Normalised) (hclock : UptimesAscend serverEvents now)
    (hdone : ∀ task ∈ s.tasks.queued, timespecCmp task.due now > 0) (id : UInt16)
    (harrived : ∀ uptime ∈ greetings env (freshProcess nonce softvol mixer) clientEvents,
      ∃ peer clock opened, .hello peer clock opened ∈ serverEvents ∧ peer.hello.id = id ∧
        uptime.toNs ≤ clock.uptime.toNs)
    (hdelay : now.toNs - sent.toNs ≤ 3500 * 1000000) :
    ∃ i, ∃ client ∈ s.clients i, client.id = id := by
  obtain ⟨uptime, hmem, hrecent⟩ := ((processRun_fresh_heartbeat hclient).recent hsent hgreeted).1 hconnected
  obtain ⟨peer, clock, opened, hevent, rfl, hlater⟩ := harrived uptime hmem
  have huptime : clock.uptime.Normalised := (hclock.1 _ (List.mem_filterMap.mpr ⟨_, hevent, rfl⟩)).1
  refine (registered_iff_renewed hserver hnow hclock hdone _).mpr
    ⟨clock.uptime, List.mem_filterMap.mpr ⟨_, hevent, rfl⟩, (leaseEnd_good_iff huptime hnow).mpr ?_⟩
  unfold billion
  omega

/-- The HELLO of second 1 arrives, and in second 5 the client is registered. -/
theorem greeted_registered_first :
    ∃ s, serverRun (freshServer 1000 twoStreams) [helloFrom 1 100 1] = .ok s ∧
      ∃ i, ∃ client ∈ s.clients i, client.id = 1 := by
  obtain ⟨p, hclient, hview⟩ := except_map_ok (show (processRun anyDevice (freshProcess 7 true none)
    firstGreeting).map (fun p => decide (p.connected = true ∧
      ∀ task ∈ p.client.tasks.queued, timespecCmp task.due ⟨2, 0⟩ > 0)) = .ok true by decide +kernel)
  obtain ⟨hconnected, hgreeted⟩ := of_decide_eq_true hview
  obtain ⟨s, hserver, hview⟩ := except_map_ok (show (serverRun (freshServer 1000 twoStreams)
    [helloFrom 1 100 1]).map (fun s => decide (∀ task ∈ s.tasks.queued, timespecCmp task.due ⟨5, 0⟩ > 0)) =
      .ok true by decide +kernel)
  have hgreetings : greetings anyDevice (freshProcess 7 true none) firstGreeting = [⟨1, 0⟩] := by
    decide +kernel
  refine ⟨s, hserver, greeted_registered anyDevice 7 true none firstGreeting p hclient hconnected ⟨2, 0⟩
    (by decide +kernel) hgreeted 1000 twoStreams [helloFrom 1 100 1] s hserver ⟨5, 0⟩ (by decide)
    (by decide +kernel) (of_decide_eq_true hview) 1 (fun uptime hmem => ?_) (by decide)⟩
  rw [hgreetings, List.mem_singleton] at hmem
  rw [hmem]
  exact ⟨_, _, _, List.mem_singleton_self _, rfl, by decide⟩

end Snapcastc
