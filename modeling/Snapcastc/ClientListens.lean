import Snapcastc.ClientChunks

/-! What the client polls. The poll set has a copy of the number of the socket, which is brought up to date only
after POLLNVAL. The client goes on to listen when a socket is replaced by one with the same number; when it is
replaced by one with another number nothing that the server sends reaches the client any more. -/

namespace Snapcastc

open Provenance

/-- The number of the socket, the one in the poll set, and when this one is to be brought up to date. -/
structure Polling where
  intercomFd : Nat
  polled : Option Nat
  resumes : List Timespec

/-- A socket is opened with a number that may depend on the one in the poll set, the task that resumes polling
is executed, or there was POLLNVAL at one of the times. -/
inductive PollMove (allowed : Option Nat → Nat → Prop) (uptimes : Timespec → Prop) (s : Polling) : Polling → Prop
  | opened (socket : Nat) : allowed s.polled socket → PollMove allowed uptimes s { s with intercomFd := socket }
  | resumed (k : Nat) (due : Timespec) : s.resumes[k]? = some due → PollMove allowed uptimes s
      { s with polled := some s.intercomFd, resumes := s.resumes.eraseIdx k }
  | stopped (uptime : Timespec) : uptimes uptime → s.polled = some s.intercomFd → PollMove allowed uptimes s
      { s with polled := none, resumes := s.resumes ++ [settime uptime 1 0] }

/-- Any number of these. -/
def PollMoves (allowed : Option Nat → Nat → Prop) (uptimes : Timespec → Prop) : Polling → Polling → Prop :=
  Relation.ReflTransGen (PollMove allowed uptimes)

/-- The socket gets the number that is in the poll set, if there is any. -/
def sameNumber (polled : Option Nat) (socket : Nat) : Prop := ∀ fd ∈ polled, fd = socket

/-- The socket gets a number that is not in the poll set. -/
def otherNumber (polled : Option Nat) (socket : Nat) : Prop := ∀ fd ∈ polled, fd ≠ socket

instance (polled : Option Nat) (socket : Nat) : Decidable (sameNumber polled socket) :=
  inferInstanceAs (Decidable (∀ fd ∈ polled, fd = socket))

instance (polled : Option Nat) (socket : Nat) : Decidable (otherNumber polled socket) :=
  inferInstanceAs (Decidable (∀ fd ∈ polled, fd ≠ socket))

namespace Polling

variable {allowed : Option Nat → Nat → Prop} {uptimes : Timespec → Prop} {s s' : Polling}

/-- The socket is polled, or polling is resumed a second after one of the times. -/
def Listens (uptimes : Timespec → Prop) (s : Polling) : Prop :=
  s.polled = some s.intercomFd ∧ s.resumes = [] ∨
    s.polled = none ∧ ∃ uptime, uptimes uptime ∧ s.resumes = [settime uptime 1 0]

/-- Polling is to be resumed, once, or something is polled. -/
def Orderly (s : Polling) : Prop := s.polled ≠ none ∧ s.resumes = [] ∨ s.polled = none ∧ ∃ due, s.resumes = [due]

/-- Another number is polled than that of the socket, for good. -/
def Deaf (fd : Nat) (s : Polling) : Prop := s.polled = some fd ∧ fd ≠ s.intercomFd ∧ s.resumes = []

theorem eraseIdx_singleton {due other : Timespec} {k : Nat} (hget : [due][k]? = some other) :
    [due].eraseIdx k = [] := by
  cases k with
  | zero => rfl
  | succ k => cases hget

theorem Orderly.move (horderly : Orderly s) (hmove : PollMove allowed uptimes s s') : Orderly s' := by
  cases hmove with
  | opened socket hallowed => exact horderly
  | resumed k due hget =>
      rcases horderly with ⟨-, hresumes⟩ | ⟨-, due, hresumes⟩
      · rw [hresumes] at hget
        cases hget
      · refine .inl ⟨Option.some_ne_none _, ?_⟩
        dsimp only
        rw [hresumes] at hget ⊢
        exact eraseIdx_singleton hget
  | stopped uptime huptime hpolled =>
      rcases horderly with ⟨-, hresumes⟩ | ⟨hnone, -⟩
      · refine .inr ⟨rfl, settime uptime 1 0, ?_⟩
        dsimp only
        rw [hresumes]
        rfl
      · rw [hnone] at hpolled
        cases hpolled

theorem Listens.move (hlistens : Listens uptimes s) (hmove : PollMove sameNumber uptimes s s') :
    Listens uptimes s' := by
  cases hmove with
  | opened socket hsame =>
      rcases hlistens with ⟨hpolled, hresumes⟩ | hstopped
      · refine .inl ⟨hpolled.trans ?_, hresumes⟩
        exact congrArg some (hsame _ hpolled)
      · exact .inr hstopped
  | resumed k due hget =>
      rcases hlistens with ⟨-, hresumes⟩ | ⟨-, uptime, -, hresumes⟩
      · rw [hresumes] at hget
        cases hget
      · refine .inl ⟨rfl, ?_⟩
        dsimp only
        rw [hresumes] at hget ⊢
        exact eraseIdx_singleton hget
  | stopped uptime huptime hpolled =>
      rcases hlistens with ⟨-, hresumes⟩ | ⟨hnone, -⟩
      · refine .inr ⟨rfl, uptime, huptime, ?_⟩
        dsimp only
        rw [hresumes]
        rfl
      · rw [hnone] at hpolled
        cases hpolled

theorem Listens.mono {uptimes' : Timespec → Prop} (hmore : ∀ uptime, uptimes uptime → uptimes' uptime)
    (hlistens : Listens uptimes s) : Listens uptimes' s := by
  rcases hlistens with hpolled | ⟨hnone, uptime, huptime, hresumes⟩
  · exact .inl hpolled
  · exact .inr ⟨hnone, uptime, hmore uptime huptime, hresumes⟩

theorem Deaf.move {fd : Nat} (hdeaf : Deaf fd s) (hmove : PollMove otherNumber uptimes s s') : Deaf fd s' := by
  obtain ⟨hpolled, hne, hresumes⟩ := hdeaf
  cases hmove with
  | opened socket hother => exact ⟨hpolled, hother fd hpolled, hresumes⟩
  | resumed k due hget =>
      rw [hresumes] at hget
      cases hget
  | stopped uptime huptime hsame => exact absurd (Option.some.inj (hpolled.symm.trans hsame)) hne

/-- What every move keeps. -/
theorem invariant {inv : Polling → Prop} (hmove : ∀ {s s'}, inv s → PollMove allowed uptimes s s' → inv s')
    (hinv : inv s) (hmoves : PollMoves allowed uptimes s s') : inv s' := by
  induction hmoves with
  | refl => exact hinv
  | tail _ hlast ih => exact hmove ih hlast

end Polling

/-! ### Steps -/

variable {config : ClientConfig} {env : ClientEnv} {allowed : Option Nat → Nat → Prop} {m m' : ClientMain}

/-- What the process knows of the entry. -/
def ClientMain.polling (m : ClientMain) : Polling := ⟨m.intercomFd, m.polled, m.resumes⟩

/-- The number is allowed that the task gets if it opens a socket. -/
def opensWith (allowed : Option Nat → Nat → Prop) (m : ClientMain) : ClientTaskRun → Prop
  | .task id changed _ socket _ =>
      ∀ task ∈ m.process.client.tasks.queued.find? (·.id == id),
        reopens changed task.code = true → allowed m.polled socket
  | .resumePolling _ => True

/-- The numbers are allowed that the tasks get for their sockets in this step. -/
def OpensWith (env : ClientEnv) (allowed : Option Nat → Nat → Prop) (m : ClientMain) :
    ClientMainEvent → Prop
  | .handle results =>
      match m.batch with
      | .taskqueue :: batch =>
          Runs.Along (runNext env results.clock.uptime) (opensWith allowed) { m with batch } results.runs
      | _ => True
  | _ => True

instance [∀ polled socket, Decidable (allowed polled socket)] (m : ClientMain) :
    (run : ClientTaskRun) → Decidable (opensWith allowed m run)
  | .task id changed _ socket _ =>
      inferInstanceAs (Decidable (∀ task ∈ m.process.client.tasks.queued.find? (·.id == id),
        reopens changed task.code = true → allowed m.polled socket))
  | .resumePolling _ => .isTrue trivial

instance [∀ polled socket, Decidable (allowed polled socket)] (m : ClientMain) (event : ClientMainEvent) :
    Decidable (OpensWith env allowed m event) := by
  unfold OpensWith
  split
  · split <;> infer_instance
  · infer_instance

/-- When POLLNVAL is handled that was reported of the socket. -/
def invalidAt (m : ClientMain) : ClientMainEvent → Option Timespec
  | .handle results =>
      match m.batch with
      | .intercom revents :: _ =>
          if m.process.exited = false ∧ revents.invalid = true ∧ m.polled = some m.intercomFd then
            some results.clock.uptime
          else none
      | _ => none
  | _ => none

def noteInvalid (m : ClientMain) (event : ClientMainEvent) (times : List Timespec) : List Timespec :=
  times ++ (invalidAt m event).toList

/-- The times of a run at which there was POLLNVAL on the socket. -/
def invalidTimes (config : ClientConfig) (m : ClientMain) (events : List ClientMainEvent) : List Timespec :=
  Runs.record (clientMainStep config) noteInvalid m events []

variable {uptimes : Timespec → Prop}

theorem runNext_polling {now : Timespec} {run : ClientTaskRun} (hopens : opensWith allowed m run)
    (hrun : runNext env now m run = .ok m') : PollMoves allowed uptimes m.polling m'.polling := by
  unfold runNext at hrun
  cases run with
  | task id changed resolved socket clock =>
      dsimp only at hrun
      split at hrun
      · cases hrun
        exact .refl
      · rename_i task hfind
        split at hrun
        · obtain ⟨process, -, hrun⟩ := except_bind_ok hrun
          cases hrun
          rw [ClientMain.polling, ClientMain.polling]
          dsimp only
          split_ifs with hreopens
          · exact .single (.opened socket (hopens task hfind hreopens))
          · exact .refl
        · cases hrun
          exact .refl
  | resumePolling k =>
      dsimp only at hrun
      split at hrun
      · cases hrun
        exact .refl
      · rename_i due hdue
        split_ifs at hrun
        · cases hrun
          exact .single (.resumed k due hdue)
        · cases hrun
          exact .refl

/-- POLLNVAL stops polling; everything else leaves the entry as it is. -/
theorem handleIntercom_polling {results : ClientResults} {revents : Revents}
    (huptime : revents.invalid = true → m.polled = some m.intercomFd → uptimes results.clock.uptime)
    (hrun : handleIntercom env results m revents = .ok m') : PollMoves allowed uptimes m.polling m'.polling := by
  unfold handleIntercom at hrun
  split_ifs at hrun with hpolled hinput _ herror _ hinvalid
  · obtain ⟨process, -, hrun⟩ := except_bind_ok hrun
    cases hrun
    exact .refl
  · cases hrun
    exact .refl
  · obtain ⟨process, -, hrun⟩ := except_bind_ok hrun
    cases hrun
    exact .refl
  · cases hrun
    exact .refl
  · cases hrun
    exact .single (.stopped results.clock.uptime (huptime hinvalid hpolled) hpolled)
  · cases hrun
    exact .refl
  · cases hrun
    exact .refl

theorem handlePlayer_polling {results : ClientResults} (hrun : handlePlayer config results m = .ok m') :
    m'.polling = m.polling := by
  unfold handlePlayer at hrun
  split at hrun
  · obtain ⟨⟨ctx, frames⟩, -, hrun⟩ := except_bind_ok hrun
    cases hrun
    rfl
  · obtain ⟨fetched, -, hrun⟩ := except_bind_ok hrun
    obtain ⟨⟨ctx, frames⟩, -, hrun⟩ := except_bind_ok hrun
    cases hrun
    rfl

/-- A step of the main loop. -/
theorem clientMainStep_polling {event : ClientMainEvent} (huptime : ∀ uptime ∈ invalidAt m event, uptimes uptime)
    (hopens : OpensWith config.env allowed m event) (hrun : clientMainStep config m event = .ok m') :
    PollMoves allowed uptimes m.polling m'.polling := by
  unfold clientMainStep at hrun
  by_cases hexited : m.process.exited = true
  · rw [if_pos hexited] at hrun
    cases hrun
    exact .refl
  rw [if_neg hexited] at hrun
  cases event with
  | poll devices taskqueue revents =>
      dsimp only at hrun
      split at hrun
      · cases hrun
        exact .refl
      · cases hrun
        exact .refl
  | terminate =>
      obtain ⟨process, -, hrun⟩ := except_bind_ok hrun
      cases hrun
      exact .refl
  | handle results =>
      dsimp only at hrun
      split at hrun
      · cases hrun
        exact .refl
      · rename_i entry batch hbatch
        have hsame : ({ m with batch } : ClientMain).polling = m.polling := rfl
        rw [← hsame]
        cases entry with
        | device =>
            unfold handleEntry at hrun
            dsimp only at hrun
            split_ifs at hrun
            · rw [handlePlayer_polling hrun]
              exact .refl
            · cases hrun
              exact .refl
        | taskqueue =>
            obtain ⟨after, hqueue, hrun⟩ := except_bind_ok hrun
            split_ifs at hrun
            cases hrun
            rw [OpensWith, hbatch] at hopens
            refine Runs.run_invariant
              (fun after : ClientMain =>
                PollMoves allowed uptimes ({ m with batch } : ClientMain).polling after.polling)
              (fun _ hmoves hopens hnext => ?_) .refl hopens hqueue
            exact Relation.ReflTransGen.trans hmoves (runNext_polling hopens hnext)
        | intercom revents =>
            refine handleIntercom_polling (fun hinvalid hpolled => huptime _ ?_) hrun
            rw [invalidAt, hbatch]
            exact if_pos ⟨Bool.eq_false_iff.mpr hexited, hinvalid, hpolled⟩

/-! ### Runs -/

/-- The client listens: when the sockets that it opens get the number of the one before, and everything that is
due has been executed, it polls its socket, or there was POLLNVAL on it in the last second. -/
theorem client_listens (config : ClientConfig) (nonce : UInt32) (softvol : Bool) (mixer : Option Mixer)
    (intercomFd : Nat) (events : List ClientMainEvent) (m : ClientMain)
    (hrun : clientMainRun config (enterClientLoop nonce softvol mixer intercomFd) events = .ok m)
    (hopens : Runs.Along (clientMainStep config) (OpensWith config.env sameNumber)
      (enterClientLoop nonce softvol mixer intercomFd) events)
    (now : Timespec) (hnow : now.Normalised)
    (huptimes : ∀ uptime ∈ invalidTimes config (enterClientLoop nonce softvol mixer intercomFd) events,
      uptime.Normalised)
    (hdone : ∀ due ∈ m.resumes, timespecCmp due now > 0) :
    m.polled = some m.intercomFd ∨ m.polled = none ∧
      ∃ uptime ∈ invalidTimes config (enterClientLoop nonce softvol mixer intercomFd) events,
        now.toNs - uptime.toNs < 1000 * 1000000 := by
  have hlistens : m.polling.Listens
      (· ∈ invalidTimes config (enterClientLoop nonce softvol mixer intercomFd) events) := by
    refine Runs.run_record noteInvalid (fun times (m : ClientMain) => m.polling.Listens (· ∈ times))
      (fun hlistens hopens hstep => ?_) (.inl ⟨rfl, rfl⟩) hopens hrun
    refine Polling.invariant .move (hlistens.mono fun uptime hmem => List.mem_append_left _ hmem)
      (clientMainStep_polling (fun uptime hmem => ?_) hopens hstep)
    exact List.mem_append_right _ (Option.mem_toList.mpr hmem)
  rcases hlistens with ⟨hpolled, -⟩ | ⟨hnone, uptime, hmem, hresumes⟩
  · exact .inl hpolled
  · refine .inr ⟨hnone, uptime, hmem, ?_⟩
    have hresumes : m.resumes = [settime uptime 1 0] := hresumes
    have hdue : timespecCmp (settime uptime 1 0) now > 0 := hdone _ (hresumes ▸ List.mem_singleton_self _)
    have hrecent := posted_recently (huptimes uptime hmem) hnow le_rfl (by decide) hdue
    unfold billion at hrecent
    omega

/-- There is an error on the network, the number of the closed socket is polled, and a second later the client
has a socket with another number and polls that. -/
def networkBack : List ClientMainEvent :=
  [.poll 0 true none, .handle (resultsAt (secondOf 1) [.task 0 false true 4 (secondOf 1)] []),
    .poll 0 false (some ⟨false, true, false⟩), .handle (resultsAt (secondOf 2) [] []),
    .poll 0 false (some ⟨false, false, true⟩), .handle (resultsAt (secondOf 2) [] []), .poll 0 true none,
    .handle (resultsAt (secondOf 3) [.task 2 false true 6 (secondOf 3), .resumePolling 0,
      .task 3 false true 6 (secondOf 3)] [])]

theorem client_listens_again :
    ∃ m, clientMainRun ⟨anyDevice, sameSpeed, 0⟩ (enterClientLoop 7 true none 4) networkBack = .ok m ∧
      m.polled = some m.intercomFd ∧ m.intercomFd = 6 := by
  obtain ⟨m, hrun, hview⟩ := except_map_ok (show (clientMainRun ⟨anyDevice, sameSpeed, 0⟩
    (enterClientLoop 7 true none 4) networkBack).map (fun m => (m.polled.isNone, m.intercomFd, m.resumes)) =
      .ok (false, 6, []) by decide +kernel)
  obtain ⟨hsome, hview⟩ := Prod.mk.inj hview
  obtain ⟨hfd, hresumes⟩ := Prod.mk.inj hview
  rcases client_listens ⟨anyDevice, sameSpeed, 0⟩ 7 true none 4 networkBack m hrun (by decide +kernel) ⟨3, 0⟩
    (by decide) (by decide +kernel) (fun due hmem => absurd (hresumes ▸ hmem) List.not_mem_nil) with hpolled | ⟨hnone, -⟩
  · exact ⟨m, hrun, hpolled, hfd⟩
  · rw [hnone] at hsome
    cases hsome

theorem OpensWith.any (env : ClientEnv) (m : ClientMain) (event : ClientMainEvent) :
    OpensWith env (fun _ _ => True) m event := by
  unfold OpensWith
  split
  · split
    · refine .of_forall (fun m run => ?_) _ _
      cases run with
      | task id changed resolved socket clock => exact fun _ _ _ => trivial
      | resumePolling k => trivial
    · trivial
  · trivial

/-- The events of a process that its socket does not bring. -/
theorem ClientMoves.nothingNew {p p' : ClientProcess} (hmoves : ClientMoves env ownEvent p p') :
    NothingNew env.opus p.client p'.client := by
  let inv (after : ClientProcess) : Prop := NothingNew env.opus p.client after.client
  refine @ClientMoves.invariant env _ p p' inv ?_ ?_ (.refl _) hmoves
  · intro after after' event hown hnew hstep
    refine hnew.trans (processStep_nothingNew hstep fun packet packetLen clock hdatagram => ?_)
    rw [hdatagram] at hown
    exact hown
  · exact fun overflow hnew => hnew.trans (.of_buffer rfl rfl)

/-- Nothing comes from the socket when another number is polled. -/
theorem Polling.Deaf.mainStep {fd : Nat} {event : ClientMainEvent} (hdeaf : m.polling.Deaf fd)
    (hrun : clientMainStep config m event = .ok m') : ClientMoves config.env ownEvent m.process m'.process := by
  refine .mainStep (fun _ hown => hown) (fun results _ hsame => ?_) hrun
  exact absurd (Option.some.inj (hdeaf.1.symm.trans hsame)) hdeaf.2.1

theorem Fetches.trans {m'' : ClientMain} (hfirst : Fetches config m m')
    (hkept : Drawn (StoredDerived config.env.opus) (keptChunks m.process.client) (keptChunks m'.process.client))
    (hsecond : Fetches config m' m'') : Fetches config m m'' := by
  obtain ⟨more, hmore, hdrawn⟩ := hfirst
  obtain ⟨rest, hrest, hdrawn'⟩ := hsecond
  refine ⟨more ++ rest, by rw [hrest, hmore, List.append_assoc], fun chunk hchunk => ?_⟩
  rcases List.mem_append.mp hchunk.1 with hmem | hmem
  · exact hdrawn chunk ⟨hmem, hchunk.2⟩
  · obtain ⟨stored, hstored, hhanded⟩ := hdrawn' chunk ⟨hmem, hchunk.2⟩
    obtain ⟨before, hbefore, hderived⟩ := hkept stored hstored
    exact ⟨before, hbefore, hhanded.of_derived hderived⟩

/-- A client is deaf that polls another number than that of its socket: unless a later socket gets this number,
it stays deaf. Whatever the server sends, the client executes no operation any more and keeps no new chunk, and
its player is given nothing but silence and the chunks that it has kept. -/
theorem client_deaf (config : ClientConfig) (nonce : UInt32) (softvol : Bool) (mixer : Option Mixer)
    (intercomFd : Nat) (before after : List ClientMainEvent) (m m' : ClientMain)
    (hbefore : clientMainRun config (enterClientLoop nonce softvol mixer intercomFd) before = .ok m) (fd : Nat)
    (hpolled : m.polled = some fd) (hother : fd ≠ m.intercomFd)
    (hafter : clientMainRun config m after = .ok m')
    (hopens : Runs.Along (clientMainStep config) (OpensWith config.env otherNumber) m after) :
    m'.polled = some fd ∧ fd ≠ m'.intercomFd ∧
      m'.process.client.operations = m.process.client.operations ∧
      Drawn (StoredDerived config.env.opus) (keptChunks m.process.client) (keptChunks m'.process.client) ∧
      ∃ given, m'.fetched = m.fetched ++ given ∧
        Drawn (Handed config.env.opus config.speed) (keptChunks m.process.client) (soundOf given) := by
  have horderly : m.polling.Orderly := by
    have hfresh : (enterClientLoop nonce softvol mixer intercomFd).polling.Orderly :=
      .inl ⟨Option.some_ne_none _, rfl⟩
    refine Runs.run_invariant (fun m : ClientMain => m.polling.Orderly) (fun _ horderly hopens hstep => ?_)
      hfresh (.of_forall (OpensWith.any config.env) _ before) hbefore
    exact Polling.invariant .move horderly (clientMainStep_polling (fun _ _ => trivial) hopens hstep)
  have hdeaf : m.polling.Deaf fd := by
    rcases horderly with ⟨-, hresumes⟩ | ⟨hnone, -⟩
    · exact ⟨hpolled, hother, hresumes⟩
    · exact absurd (hpolled.symm.trans hnone) (Option.some_ne_none _)
  obtain ⟨⟨hpolled', hother', -⟩, hmoves, hgiven⟩ := Runs.run_invariant
    (fun m' : ClientMain => m'.polling.Deaf fd ∧ ClientMoves config.env ownEvent m.process m'.process ∧
      Fetches config m m')
    (fun _ hstays hopens hstep => ⟨Polling.invariant .move hstays.1
      (clientMainStep_polling (fun _ _ => trivial) hopens hstep), hstays.2.1.trans (hstays.1.mainStep hstep),
      hstays.2.2.trans hstays.2.1.nothingNew.chunks (clientMainStep_fetches hstep)⟩)
    ⟨hdeaf, .refl, .none rfl⟩ hopens hafter
  obtain ⟨hchunks, hops⟩ := hmoves.nothingNew
  exact ⟨hpolled', hother', hops, hchunks, hgiven⟩

/-- The address of the server changes, and the new socket gets another number. -/
def numberChanged : List ClientMainEvent :=
  [.poll 0 true none,
    .handle (resultsAt (secondOf 1) [.task 0 true true 5 (secondOf 1), .task 1 false true 5 (secondOf 1)] [])]

/-- A datagram comes that waits at the new socket. -/
def soundLost : List ClientMainEvent :=
  [.poll 0 false (some ⟨true, false, false⟩), .handle (resultsAt (secondOf 2) [] [soundAt100])]

def deafClient : ClientMain :=
  match clientMainRun ⟨anyDevice, sameSpeed, 0⟩ (enterClientLoop 7 true none 4) numberChanged with
  | .ok m => m
  | .error _ => enterClientLoop 7 true none 4

theorem deafClient_reached :
    clientMainRun ⟨anyDevice, sameSpeed, 0⟩ (enterClientLoop 7 true none 4) numberChanged = .ok deafClient := by
  obtain ⟨m, hrun, -⟩ := except_map_ok (show (clientMainRun ⟨anyDevice, sameSpeed, 0⟩
    (enterClientLoop 7 true none 4) numberChanged).map (fun _ => ()) = .ok () by decide +kernel)
  rw [deafClient, hrun]

theorem client_deaf_sound :
    ∃ m', clientMainRun ⟨anyDevice, sameSpeed, 0⟩ deafClient soundLost = .ok m' ∧
      m'.process.connected = true ∧ keptChunks m'.process.client = ∅ := by
  obtain ⟨m', hafter, hconnected⟩ := except_map_ok (show (clientMainRun ⟨anyDevice, sameSpeed, 0⟩ deafClient
    soundLost).map (·.process.connected) = .ok true by decide +kernel)
  obtain ⟨-, -, -, hchunks, -⟩ := client_deaf ⟨anyDevice, sameSpeed, 0⟩ 7 true none 4 numberChanged soundLost deafClient
    m' deafClient_reached 4 (by decide +kernel) (by decide +kernel) hafter (by decide +kernel)
  have hnone : heldChunks deafClient.process.client = [] := List.eq_nil_of_length_eq_zero (by decide +kernel)
  refine ⟨m', hafter, hconnected, Set.eq_empty_of_forall_notMem fun stored hkept => ?_⟩
  obtain ⟨before, hbefore, -⟩ := hchunks stored hkept
  rw [keptChunks, hnone] at hbefore
  exact List.not_mem_nil hbefore

end Snapcastc
